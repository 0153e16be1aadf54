import CppStreamer.Net.Rtmp.ChunkRoundTrip

/-!
This module contains the chunks that the specification asks for, also for timestamps that do not fit into three
bytes, and the messages for which `WriteDataByChunkStream` emits them.
-/

namespace Rtmp

open ByteStream Incremental

/--
A message as `WriteDataByChunkStream` gets it. The chunk stream id is one of a basic header of one byte.
-/
structure TimedMessage where
  csid : Nat
  timestamp : Nat
  typeId : UInt8
  msgStreamId : Nat
  payload : List UInt8
  two_le_csid : 2 ≤ csid
  csid_lt : csid < 64
  timestamp_lt : timestamp < 2 ^ 32
  msgStreamId_lt : msgStreamId < 2 ^ 32
  payload_ne : payload ≠ []

open RtmpSessionBase in
/--
The chunks of a message are read back to it. An empty message that is announced by a header is one, too.
-/
theorem run_chunks {m : RtmpMessage} {chunkSize : Nat} (hpos : 0 < chunkSize) {cuts : List (List UInt8)}
    (hcuts : cuts.flatten
      = (List.range (m.csCount chunkSize - 1 + 1)).flatMap fun i => (Chunk.mk m (i * chunkSize) chunkSize).bytes)
    : ∃ s, (chunkReader readyHandler).run (setChunkSize {} chunkSize) cuts = ([m.decoded], some s) := by
  by_cases hempty : m.payload = []
  . have hlen : m.payload.length ≤ chunkSize := by
      rw [hempty]
      exact Nat.zero_le _
    have hone : m.csCount chunkSize = 0 := by
      rw [RtmpMessage.csCount, hempty, List.length_nil, Nat.zero_div, Nat.zero_mod]
      rfl
    have hs := inStep_start chunkSize
    have hrun : Interleave.Run (Sender.Step fun size _ => size) (Sender.start chunkSize) [⟨m, 0, chunkSize⟩]
        (Sender.start chunkSize) := .cons (Sender.step_whole (fun size _ => size) hlen) (.nil _)
    obtain ⟨s, hdrains, -⟩ := hs.drains_run hrun (fun c _ => readyHandler_accepts c.msg) (fun _ _ _ h => h) hpos
    have hbytes : cuts.flatten = [(⟨m, 0, chunkSize⟩ : Chunk)].flatMap Chunk.bytes := by
      rw [hcuts, hone]
      simp
    rw [← hbytes] at hdrains
    refine ⟨s, ?_⟩
    rw [Reader.Drains.run_eq hs.quiet hdrains, emitted]
    have hlast : (⟨m, 0, chunkSize⟩ : Chunk).last = true := by simpa [Chunk.last] using hlen
    simp [hlast]
  . have hcount := RtmpMessage.csCount_pos hpos hempty
    have hsched (csid : Nat) : ((m.written chunkSize).filter fun w => w.msg.csid = csid)
        = ([m].filter fun m => m.csid = csid).flatMap (RtmpMessage.written chunkSize) := by
      have hmsg : ∀ w ∈ m.written chunkSize, w.msg = m := by
        rw [m.written_eq hpos]
        intro w hw
        obtain ⟨index, -, rfl⟩ := List.mem_map.mp hw
        rfl
      by_cases hcsid : m.csid = csid
      . rw [List.filter_eq_self.mpr]
        . simp [hcsid]
        . intro w hw
          simp [hmsg w hw, hcsid]
      . rw [List.filter_eq_nil_iff.mpr]
        . simp [hcsid]
        . intro w hw
          simp [hmsg w hw, hcsid]
    have hbytes : cuts.flatten = (m.written chunkSize).flatMap WireChunk.bytes := by
      rw [hcuts, Nat.sub_add_cancel hcount, m.written_eq hpos, List.flatMap_map]
      rfl
    obtain ⟨s, hrun, -⟩ := run_prefix hpos (by simpa using hempty) hsched (List.prefix_refl _) hbytes
    refine ⟨s, ?_⟩
    have hlast := congrArg (List.map RtmpMessage.decoded) (RtmpMessage.written_filter_last hpos hempty)
    rw [List.map_map] at hlast
    rw [hrun]
    exact Prod.ext hlast rfl

theorem flatMap_range_begins {β : Type} {f g : Nat → List β} {n count : Nat} (hn : n < count)
    (hsame : ∀ i < n, g i = f i) (hlast : g n <+: f n)
    : (List.range (n + 1)).flatMap g <+: (List.range count).flatMap f := by
  have hfront : (List.range n).flatMap g = (List.range n).flatMap f :=
    List.flatMap_congr fun i hi => hsame i (List.mem_range.mp hi)
  have hbegin : (List.range (n + 1)).flatMap g <+: (List.range (n + 1)).flatMap f := by
    rw [List.range_succ, List.flatMap_append, List.flatMap_append, hfront, List.prefix_append_right_inj]
    simpa using hlast
  obtain ⟨k, rfl⟩ : ∃ k, count = n + 1 + k := ⟨count - (n + 1), by omega⟩
  have hsplit : List.range (n + 1 + k) = List.range (n + 1) ++ (List.range k).map (n + 1 + ·) := List.range_add
  apply hbegin.trans
  rw [hsplit, List.flatMap_append]
  exact List.prefix_append _ _

namespace TimedMessage

def written (m : TimedMessage) (chunkSize : Nat) : List (List UInt8) :=
  writeDataByChunkStream m.csid m.timestamp m.typeId m.msgStreamId chunkSize m.payload

/--
The timestamp of a message header is `0xffffff` if it is extended.
-/
def timestampField (m : TimedMessage) : List UInt8 :=
  write3Bytes (if m.timestamp < 0xffffff then m.timestamp else 0xffffff)

/--
The full timestamp, behind the message header or, without one, behind the basic header.
-/
def extendedTimestamp (m : TimedMessage) : List UInt8 :=
  if m.timestamp < 0xffffff then [] else write4Bytes m.timestamp

def specifiedChunk (m : TimedMessage) (chunkSize index : Nat) : List UInt8 :=
  if index = 0 then
    UInt8.ofNat m.csid
      :: (m.timestampField ++ write3Bytes m.payload.length ++ [m.typeId] ++ write4Bytes m.msgStreamId
        ++ m.extendedTimestamp ++ m.payload.take chunkSize)
  else
    UInt8.ofNat (3 * 64 + m.csid)
      :: (m.extendedTimestamp ++ (m.payload.drop (index * chunkSize)).take chunkSize)

def specified (m : TimedMessage) (chunkSize : Nat) : List (List UInt8) :=
  (List.range ((m.payload.length + chunkSize - 1) / chunkSize)).map (m.specifiedChunk chunkSize)

/--
The chunks that are written are those that are specified, and wherever their bytes are cut, the timestamp and the
payload are read back from them.
-/
structure Signals (m : TimedMessage) (chunkSize : Nat) : Prop where
  written : m.written chunkSize = m.specified chunkSize
  recovered : ∀ cuts : List (List UInt8), cuts.flatten = (m.written chunkSize).flatten →
    ((RtmpSessionBase.chunkReader RtmpSessionBase.readyHandler).run (RtmpSessionBase.setChunkSize {} chunkSize)
        cuts).1.map (fun decoded => (decoded.timestamp32, decoded.chunkData))
      = [(m.timestamp, m.payload)]

/--
The message with a payload that a length field of three bytes can count.
-/
def cutTo (m : TimedMessage) (len : Nat) (hlen : len < 2 ^ 24) (hts : m.timestamp < 0xffffff) : RtmpMessage where
  csid := m.csid
  timestamp := m.timestamp
  typeId := m.typeId
  msgStreamId := m.msgStreamId
  payload := m.payload.take len
  two_le_csid := m.two_le_csid
  csid_lt := m.csid_lt
  timestamp_lt := hts
  msgStreamId_lt := m.msgStreamId_lt
  length_lt := Nat.lt_of_le_of_lt (List.length_take_le _ _) hlen

def header (m : TimedMessage) : List UInt8 :=
  write3Bytes m.timestamp ++ (write3Bytes m.payload.length ++ m.typeId :: write4Bytes m.msgStreamId)

/--
A chunk as it is written.
-/
def writtenChunk (m : TimedMessage) (chunkSize index : Nat) : List UInt8 :=
  UInt8.ofNat ((if index = 0 then 0 else 3) * 64 + m.csid)
    :: ((if index = 0 then m.header else []) ++ (m.payload.drop (index * chunkSize)).take chunkSize)

/--
The number of chunks that are written.
-/
def csCount (m : TimedMessage) (chunkSize : Nat) : Nat :=
  m.payload.length / chunkSize + (if m.payload.length % chunkSize > 0 then 1 else 0)

variable {m : TimedMessage} {chunkSize : Nat}

theorem csCount_spec (hpos : 0 < chunkSize)
    : m.payload.length ≤ m.csCount chunkSize * chunkSize
      ∧ m.csCount chunkSize * chunkSize < m.payload.length + chunkSize :=
  chunkCount_spec m.payload.length hpos

theorem csCount_pos (hpos : 0 < chunkSize) : 0 < m.csCount chunkSize := by
  have hspec := csCount_spec (m := m) hpos
  have hne := List.length_pos_of_ne_nil m.payload_ne
  by_contra h
  rw [Nat.eq_zero_of_not_pos h] at hspec
  omega

theorem csCount_eq (hpos : 0 < chunkSize)
    : (m.payload.length + chunkSize - 1) / chunkSize = m.csCount chunkSize := by
  have hspec := csCount_spec (m := m) hpos
  have hnext := Nat.add_mul (m.csCount chunkSize) 1 chunkSize
  apply Nat.div_eq_of_lt_le
  . omega
  . omega

theorem written_eq (hpos : 0 < chunkSize)
    : m.written chunkSize = (List.range (m.csCount chunkSize)).map (m.writtenChunk chunkSize) := by
  simp only [written, writeDataByChunkStream]
  apply List.map_congr_left
  intro index _
  have hcsid : m.csid % 64 = m.csid := Nat.mod_eq_of_lt m.csid_lt
  have htake := @take_chunkLen m.payload chunkSize index hpos
  simp only [ChunkStream.genData, ChunkStream.new, ChunkStream.fmtCsidData, ChunkStream.headerData,
    if_pos m.csid_lt, hcsid, htake, writtenChunk]
  by_cases hindex : index = 0
  . simp [hindex, header]
  . simp [hindex]

/--
What the reader makes of the message: the length field does not count more than three bytes can hold.
-/
theorem cutTo_bytes {len : Nat} (hlen : len = m.payload.length % 2 ^ 24) (hlt : len < 2 ^ 24)
    (hts : m.timestamp < 0xffffff) (hpos : 0 < chunkSize) (index : Nat)
    : (Chunk.mk (m.cutTo len hlt hts) (index * chunkSize) chunkSize).bytes
      = UInt8.ofNat ((if index = 0 then 0 else 3) * 64 + m.csid)
        :: ((if index = 0 then m.header else [])
          ++ ((m.payload.drop (index * chunkSize)).take (min chunkSize (len - index * chunkSize)))) := by
  have hle : len ≤ m.payload.length := by
    rw [hlen]
    exact Nat.mod_le _ _
  have hcut : (m.payload.take len).length = len := by
    rw [List.length_take]
    omega
  have hheader : (m.cutTo len hlt hts).header = m.header := by
    have hfield : write3Bytes len = write3Bytes m.payload.length := by rw [hlen, write3Bytes_mod]
    change write3Bytes m.timestamp
      ++ (write3Bytes (m.payload.take len).length ++ m.typeId :: write4Bytes m.msgStreamId) = _
    rw [hcut, hfield]
    rfl
  have hdata : (Chunk.mk (m.cutTo len hlt hts) (index * chunkSize) chunkSize).data
      = (m.payload.drop (index * chunkSize)).take (min chunkSize (len - index * chunkSize)) := by
    unfold Chunk.data cutTo
    simp only
    rw [List.drop_take, List.take_take]
  have hzero : index * chunkSize = 0 ↔ index = 0 := by
    rw [Nat.mul_eq_zero]
    omega
  simp only [Chunk.bytes, Chunk.body, Chunk.fmt, hzero, hheader, hdata]
  rfl

/--
The bytes that are written begin with the chunks of a message that is not longer than its length field tells.
-/
theorem chunks_begin {len : Nat} (hlen : len = m.payload.length % 2 ^ 24) (hlt : len < 2 ^ 24)
    (hts : m.timestamp < 0xffffff) (hpos : 0 < chunkSize)
    : (List.range ((m.cutTo len hlt hts).csCount chunkSize - 1 + 1)).flatMap
          (fun i => (Chunk.mk (m.cutTo len hlt hts) (i * chunkSize) chunkSize).bytes)
        <+: (m.written chunkSize).flatten := by
  have hle : len ≤ m.payload.length := by
    rw [hlen]
    exact Nat.mod_le _ _
  have hcut : (m.cutTo len hlt hts).payload.length = len := by
    unfold cutTo
    rw [List.length_take]
    omega
  have hspec := (m.cutTo len hlt hts).csCount_spec hpos
  have hspec' := csCount_spec (m := m) hpos
  have hcount := csCount_pos (m := m) hpos
  rw [hcut] at hspec
  generalize (m.cutTo len hlt hts).csCount chunkSize = n at hspec
  rw [written_eq hpos, ← List.flatMap_def]
  apply flatMap_range_begins
  . by_contra hge
    have hmul : m.csCount chunkSize * chunkSize ≤ (n - 1) * chunkSize := Nat.mul_le_mul_right _ (by omega)
    have hne := List.length_pos_of_ne_nil m.payload_ne
    rw [Nat.sub_mul, Nat.one_mul] at hmul
    omega
  . intro index hindex
    have hmul : (index + 2) * chunkSize ≤ n * chunkSize := Nat.mul_le_mul_right _ (by omega)
    rw [Nat.add_mul] at hmul
    rw [cutTo_bytes hlen hlt hts hpos, Nat.min_eq_left (by omega)]
    rfl
  . rw [cutTo_bytes hlen hlt hts hpos, writtenChunk, List.prefix_cons_inj, List.prefix_append_right_inj]
    apply List.take_prefix_take_left
    exact Nat.min_le_left _ _

theorem specified_eq (hts : m.timestamp < 0xffffff) (hpos : 0 < chunkSize)
    : m.specified chunkSize = m.written chunkSize := by
  rw [specified, csCount_eq hpos, written_eq hpos]
  apply List.map_congr_left
  intro index _
  unfold specifiedChunk writtenChunk timestampField extendedTimestamp header
  by_cases hindex : index = 0
  . simp [hindex, hts]
  . simp [hindex, hts]

theorem timestamp_lt_of_signals (hpos : 0 < chunkSize) (h : m.Signals chunkSize) : m.timestamp < 0xffffff := by
  by_contra hts
  have hcount := csCount_pos (m := m) hpos
  have hfirst := congrArg (fun chunks => chunks[0]?) h.written
  rw [specified, csCount_eq hpos, written_eq hpos] at hfirst
  simp only [List.getElem?_map, List.getElem?_range hcount, Option.map_some, Option.some.injEq, writtenChunk,
    specifiedChunk, if_true] at hfirst
  have hlen := congrArg List.length hfirst
  simp [header, timestampField, extendedTimestamp, hts] at hlen

theorem length_lt_of_signals (hpos : 0 < chunkSize) (h : m.Signals chunkSize) : m.payload.length < 2 ^ 24 := by
  have hts := timestamp_lt_of_signals hpos h
  have hlt : m.payload.length % 2 ^ 24 < 2 ^ 24 := Nat.mod_lt _ (Nat.two_pow_pos 24)
  obtain ⟨rest, hrest⟩ := chunks_begin rfl hlt hts hpos
  have hrun := fun cuts => @run_chunks (m.cutTo _ hlt hts) chunkSize hpos cuts
  generalize (List.range ((m.cutTo _ hlt hts).csCount chunkSize - 1 + 1)).flatMap _ = front at hrest hrun
  obtain ⟨s, hrun⟩ := hrun [front] (List.append_nil _)
  have hread := h.recovered ([front] ++ [rest]) (by rw [← hrest]; simp)
  rw [Incremental.Reader.run_append, hrun, Result.andThen_some] at hread
  simp only [List.singleton_append, List.map_cons, List.cons.injEq, Prod.mk.injEq] at hread
  have hlen : (m.payload.take (m.payload.length % 2 ^ 24)).length = m.payload.length :=
    congrArg List.length hread.left.right
  rw [List.length_take] at hlen
  omega

theorem written_flatten (hpos : 0 < chunkSize) (hts : m.timestamp < 0xffffff) (hlt : m.payload.length < 2 ^ 24)
    : (m.written chunkSize).flatten
      = (List.range ((m.cutTo m.payload.length hlt hts).csCount chunkSize - 1 + 1)).flatMap
          fun i => (Chunk.mk (m.cutTo m.payload.length hlt hts) (i * chunkSize) chunkSize).bytes := by
  have hcount : (m.cutTo m.payload.length hlt hts).csCount chunkSize = m.csCount chunkSize := by
    have hlen : (m.cutTo m.payload.length hlt hts).payload.length = m.payload.length :=
      congrArg List.length List.take_length
    unfold RtmpMessage.csCount
    rw [hlen]
    rfl
  rw [hcount, Nat.sub_add_cancel (csCount_pos hpos), written_eq hpos, ← List.flatMap_def]
  apply List.flatMap_congr
  intro index _
  rw [cutTo_bytes (Nat.mod_eq_of_lt hlt).symm hlt hts hpos, writtenChunk, ← List.length_drop, ← List.take_take,
    List.take_length]

/--
The timestamp is signalled if it fits into three bytes and is not the mark of a longer one, and only then.
-/
theorem signals_iff (m : TimedMessage) (chunkSize : Nat) (hpos : 0 < chunkSize)
    : m.Signals chunkSize ↔ m.timestamp < 0xffffff ∧ m.payload.length < 2 ^ 24 := by
  constructor
  . intro h
    exact ⟨timestamp_lt_of_signals hpos h, length_lt_of_signals hpos h⟩
  . rintro ⟨hts, hlt⟩
    refine ⟨(specified_eq hts hpos).symm, ?_⟩
    intro cuts hcuts
    rw [written_flatten hpos hts hlt] at hcuts
    obtain ⟨s, hrun⟩ := run_chunks hpos hcuts
    rw [hrun]
    simp [RtmpMessage.decoded, cutTo]

/--
A message of one byte, after some hours of streaming.
-/
def lateMessage (timestamp : Nat) (h : timestamp < 2 ^ 32) : TimedMessage where
  csid := 4
  timestamp
  typeId := 8
  msgStreamId := 1
  payload := [0xaf]
  two_le_csid := sampleAudio.two_le_csid
  csid_lt := sampleAudio.csid_lt
  timestamp_lt := h
  msgStreamId_lt := sampleAudio.msgStreamId_lt
  payload_ne := by decide

theorem signals_late : (lateMessage 0xfffffe (by decide)).Signals 128 :=
  (signals_iff (lateMessage 0xfffffe (by decide)) 128 (by decide)).mpr ⟨by decide, by decide⟩

/--
The timestamp 2 ^ 24 is written as 0.
-/
theorem not_signals : ¬∀ (m : TimedMessage) (chunkSize : Nat), 0 < chunkSize → m.Signals chunkSize := by
  intro h
  have hwritten := (h (lateMessage 0x1000000 (by decide)) 128 (by decide)).written
  exact absurd hwritten (by decide)

end TimedMessage

end Rtmp
