import CppStreamer.Net.Rtmp.ChunkHeader

/-!
This module contains messages on chunk streams with ids of up to 65535, whose basic headers have one,
two or three bytes, and the ids for which the chunk streams of a session do not mix.
-/

namespace Rtmp

open ByteStream Incremental

/--
A message for `WriteDataByChunkStream` on any chunk stream.
-/
structure OutMessage where
  csid : Nat
  timestamp : Nat
  typeId : UInt8
  msgStreamId : Nat
  payload : List UInt8
  two_le_csid : 2 ≤ csid
  csid_le : csid ≤ 65535
  timestamp_lt : timestamp < 2 ^ 32
  msgStreamId_lt : msgStreamId < 2 ^ 32
  payload_ne : payload ≠ []
  length_lt : payload.length < 2 ^ 24

structure OutChunk where
  msg : OutMessage
  bytes : List UInt8
  last : Bool

namespace OutMessage

def written (chunkSize : Nat) (m : OutMessage) : List OutChunk :=
  let buffers :=
    writeDataByChunkStream m.csid m.timestamp m.typeId m.msgStreamId chunkSize m.payload
  buffers.zipIdx.map fun (bytes, index) => ⟨m, bytes, decide (index + 1 = buffers.length)⟩

/--
The chunks of the messages in some order, those of one chunk stream in the order they were written.
-/
def Interleaves (chunkSize : Nat) (msgs : List OutMessage) (sched : List OutChunk) : Prop :=
  ∀ csid, (sched.filter fun w => w.msg.csid = csid)
    = (msgs.filter fun m => m.csid = csid).flatMap (written chunkSize)

/--
Of whatever messages the chunks are: every message the receiver completes was written for the chunk
stream it is completed under, and its bytes are the ones written for it.
-/
def Isolated (S : OutMessage → Prop) : Prop :=
  ∀ chunkSize msgs sched pre cuts, 0 < chunkSize → (∀ m ∈ msgs, S m) →
    Interleaves chunkSize msgs sched → pre <+: sched →
    cuts.flatten = pre.flatMap OutChunk.bytes →
    ∀ d ∈ ((RtmpSessionBase.chunkReader RtmpSessionBase.readyHandler).run
        (RtmpSessionBase.setChunkSize {} chunkSize) cuts).1,
      ∃ w ∈ pre, w.last = true ∧ d.csid = w.msg.csid ∧ d.chunkData = w.msg.payload

/--
The message headers `GenData` writes have no extended timestamp, the reader expects one behind
`0xffffff`.
-/
def Narrow (m : OutMessage) : Prop := m.csid < 64 ∧ m.timestamp % 2 ^ 24 ≠ 0xffffff

/--
A narrow message as the receiver sees it.
-/
def narrow (m : OutMessage) : RtmpMessage where
  csid := min m.csid 63
  timestamp := min (m.timestamp % 2 ^ 24) 0xfffffe
  typeId := m.typeId
  msgStreamId := m.msgStreamId
  payload := m.payload
  two_le_csid := by
    have := m.two_le_csid
    omega
  csid_lt := by omega
  timestamp_lt := by omega
  msgStreamId_lt := m.msgStreamId_lt
  length_lt := m.length_lt

end OutMessage

def OutChunk.narrow (w : OutChunk) : WireChunk where
  msg := w.msg.narrow
  bytes := w.bytes
  last := w.last

namespace OutMessage

theorem Narrow.csid_narrow {m : OutMessage} (h : m.Narrow) : m.narrow.csid = m.csid := by
  have := h.1
  unfold narrow
  simp only
  omega

theorem Narrow.timestamp_narrow {m : OutMessage} (h : m.Narrow)
    : m.narrow.timestamp = m.timestamp % 2 ^ 24 := by
  have := h.2
  unfold narrow
  simp only
  omega

/--
The chunk headers only carry the low 24 bits of the timestamp.
-/
theorem writeDataByChunkStream_mod (csid timestamp : Nat) (typeId : UInt8)
    (msgStreamId chunkSize : Nat) (input : List UInt8)
    : writeDataByChunkStream csid (timestamp % 2 ^ 24) typeId msgStreamId chunkSize input
      = writeDataByChunkStream csid timestamp typeId msgStreamId chunkSize input := by
  unfold writeDataByChunkStream ChunkStream.genData ChunkStream.headerData
  simp only [write3Bytes_mod]

theorem Narrow.written {m : OutMessage} (h : m.Narrow) (chunkSize : Nat)
    : (m.written chunkSize).map OutChunk.narrow = m.narrow.written chunkSize := by
  have hbuffers : writeDataByChunkStream m.narrow.csid m.narrow.timestamp m.narrow.typeId
      m.narrow.msgStreamId chunkSize m.narrow.payload
      = writeDataByChunkStream m.csid m.timestamp m.typeId m.msgStreamId chunkSize m.payload := by
    rw [h.csid_narrow, h.timestamp_narrow, writeDataByChunkStream_mod]
    rfl
  unfold OutMessage.written RtmpMessage.written
  rw [List.map_map, hbuffers]
  rfl

theorem mem_written {m : OutMessage} {chunkSize : Nat} {w : OutChunk} (h : w ∈ m.written chunkSize)
    : w.msg = m := by
  unfold OutMessage.written at h
  rcases List.mem_map.mp h with ⟨_, _, rfl⟩
  rfl

theorem Interleaves.mem {chunkSize : Nat} {msgs : List OutMessage} {sched : List OutChunk}
    (h : Interleaves chunkSize msgs sched) {w : OutChunk} (hw : w ∈ sched)
    : w.msg ∈ msgs ∧ w ∈ w.msg.written chunkSize := by
  have hmem : w ∈ sched.filter fun v => v.msg.csid = w.msg.csid :=
    List.mem_filter.mpr ⟨hw, decide_eq_true rfl⟩
  rw [h] at hmem
  rcases List.mem_flatMap.mp hmem with ⟨m, hm, hwritten⟩
  rw [mem_written hwritten]
  exact ⟨List.mem_of_mem_filter hm, hwritten⟩

theorem Interleaves.narrow {chunkSize : Nat} {msgs : List OutMessage} {sched : List OutChunk}
    (h : Interleaves chunkSize msgs sched) (hnarrow : ∀ m ∈ msgs, m.Narrow) (csid : Nat)
    : ((sched.map OutChunk.narrow).filter fun w => w.msg.csid = csid)
      = ((msgs.map OutMessage.narrow).filter fun m => m.csid = csid).flatMap
          (RtmpMessage.written chunkSize) := by
  have hsched : (sched.map OutChunk.narrow).filter (fun w => w.msg.csid = csid)
      = (sched.filter fun w => w.msg.csid = csid).map OutChunk.narrow := by
    rw [List.filter_map]
    congr 1
    apply List.filter_congr
    intro w hw
    simp only [Function.comp, OutChunk.narrow, (hnarrow w.msg (h.mem hw).1).csid_narrow]
  have hmsgs : (msgs.map OutMessage.narrow).filter (fun m => m.csid = csid)
      = (msgs.filter fun m => m.csid = csid).map OutMessage.narrow := by
    rw [List.filter_map]
    congr 1
    apply List.filter_congr
    intro m hm
    simp only [Function.comp, (hnarrow m hm).csid_narrow]
  rw [hsched, hmsgs, h, List.map_flatMap, List.flatMap_map]
  apply List.flatMap_congr
  intro m hm
  exact (hnarrow m (List.mem_of_mem_filter hm)).written chunkSize

open RtmpSessionBase in
theorem isolated_of_narrow {S : OutMessage → Prop} (h : ∀ m, S m → m.Narrow) : Isolated S := by
  intro chunkSize msgs sched pre cuts hpos hmsgs hsched hpre hcuts
  have hnarrow : ∀ m ∈ msgs, m.Narrow := fun m hm => h m (hmsgs m hm)
  have hne : ∀ m ∈ msgs.map narrow, m.payload ≠ [] := by
    intro m hm
    rcases List.mem_map.mp hm with ⟨m, _, rfl⟩
    exact m.payload_ne
  have hbytes : cuts.flatten = (pre.map OutChunk.narrow).flatMap WireChunk.bytes := by
    rw [hcuts, List.flatMap_map]
    rfl
  rcases run_prefix hpos hne (hsched.narrow hnarrow) (hpre.map OutChunk.narrow) hbytes with
    ⟨s, hrun, _⟩
  rw [hrun]
  intro d hd
  rcases List.mem_map.mp hd with ⟨v, hv, rfl⟩
  rw [List.filter_map] at hv
  rcases List.mem_map.mp hv with ⟨w, hw, rfl⟩
  have hw := List.mem_filter.mp hw
  have hmem := hsched.mem (hpre.subset hw.1)
  refine ⟨w, hw.1, hw.2, ?_, rfl⟩
  exact (hnarrow w.msg hmem.1).csid_narrow

end OutMessage

/--
The reader adds 64 to what the writer did not subtract 64 from, and takes the two bytes of the longest
form for summands.
-/
theorem RtmpSessionBase.readFmtCsid_fmtCsidData {s : RtmpSessionBase} {csid : Nat}
    {rest : List UInt8} (h64 : 64 ≤ csid) (hcsid : csid ≤ 65535)
    (hbuffer : s.recvBuffer = ChunkStream.fmtCsidData 0 csid ++ rest)
    : ∃ r, r ≠ csid
      ∧ s.readFmtCsid = (.ok, { s with fmt := 0, csid := r, recvBuffer := rest }) := by
  unfold ChunkStream.fmtCsidData at hbuffer
  rw [if_neg (by omega)] at hbuffer
  by_cases hshort : csid - 64 < 256
  . rw [if_pos hshort] at hbuffer
    refine ⟨64 + (UInt8.ofNat csid).toNat, ?_, ?_⟩
    . rw [UInt8.toNat_ofNat']
      omega
    . unfold readFmtCsid
      rw [hbuffer]
      rfl
  . rw [if_neg hshort] at hbuffer
    refine ⟨64 + (byteAt csid 1).toNat + (byteAt csid 0).toNat, ?_, ?_⟩
    . rw [byteAt_toNat, byteAt_toNat]
      omega
    . unfold readFmtCsid
      rw [hbuffer]
      rfl

namespace ChunkStream

/--
A message header of format 0 in front of enough bytes is read, some of which go for an extended
timestamp.
-/
theorem readMsgFormat0_ok (cs : ChunkStream) (csid : Nat) {header rest : List UInt8}
    (hheader : header.length = format0HeaderLen) (hrest : extTsLen ≤ rest.length)
    : ∃ cs' n, n ≤ extTsLen ∧ cs.readMsgFormat0 0 csid (header ++ rest) = (.ok, cs', rest.drop n)
      ∧ cs'.csid = csid ∧ cs'.remain = read3Bytes (header.drop 3) ∧ cs'.chunkSize = cs.chunkSize := by
  unfold readMsgFormat0
  by_cases hts : read3Bytes header < 0xffffff
  . refine ⟨_, 0, Nat.zero_le _, readMsgFormat_eq_of_lt rest hheader (by decide) hts, rfl, rfl, rfl⟩
  . have hread : cs.readMsgFormat 0 csid (header ++ (rest.take extTsLen ++ rest.drop extTsLen))
        format0HeaderLen assignFormat0 = _ :=
      readMsgFormat_eq_of_ext (rest.drop extTsLen) hheader (by decide) (Nat.le_of_not_lt hts)
        (List.length_take_of_le hrest)
    rw [List.take_append_drop] at hread
    exact ⟨_, extTsLen, Nat.le_refl _, hread, rfl, rfl, rfl⟩

theorem readMessagePayload_whole (cs : ChunkStream) {buffer : List UInt8}
    (hphase : cs.phase = .payload) (hsize : cs.remain ≤ cs.chunkSize)
    (hlen : cs.remain ≤ buffer.length)
    : ∃ cs' rest, cs.readMessagePayload buffer = (.ok, cs', rest) ∧ cs'.csid = cs.csid
      ∧ cs'.chunkReady = true := by
  have hrequire : (buffer.take cs.remain).length = cs.requireLen := by
    rw [requireLen, if_neg (by omega), List.length_take_of_le hlen]
  have hread := readMessagePayload_eq (buffer.drop cs.remain) hphase hrequire
  rw [List.take_append_drop, List.length_take_of_le hlen, Nat.sub_self] at hread
  exact ⟨_, _, hread, rfl, Bool.or_true _⟩

theorem readChunk_whole {cs : ChunkStream} (csid : Nat) {header rest : List UInt8}
    (hphase : cs.phase = .header) (hheader : header.length = format0HeaderLen)
    (hsize : read3Bytes (header.drop 3) ≤ cs.chunkSize)
    (hrest : extTsLen + read3Bytes (header.drop 3) ≤ rest.length)
    : ∃ cs' rest', cs.readChunk 0 csid (header ++ rest) = (.ok, cs', rest') ∧ cs'.csid = csid
      ∧ cs'.chunkReady = true := by
  have hext : extTsLen ≤ rest.length := Nat.le_of_add_right_le hrest
  rcases cs.readMsgFormat0_ok csid hheader hext with ⟨t, n, hn, hread, hcsid, hremain, hchunkSize⟩
  have hlen : t.remain ≤ (rest.drop n).length := by
    rw [List.length_drop, hremain]
    omega
  have hmessage : cs.readMessageHeader 0 csid (header ++ rest)
      = (.ok, { t with phase := .payload }, rest.drop n) := by
    unfold readMessageHeader
    simp only [hphase, readMsgByFormat, hread]
  rcases readMessagePayload_whole { t with phase := .payload } rfl
    (by simp only [hremain, hchunkSize, hsize]) hlen with ⟨cs', rest', hpayload, hcsid', hready⟩
  unfold readChunk
  simp only [hmessage]
  exact ⟨cs', rest', hpayload, hcsid'.trans hcsid, hready⟩

end ChunkStream

namespace OutMessage

theorem written_whole (m : OutMessage)
    : ∃ header, header.length = format0HeaderLen ∧ read3Bytes (header.drop 3) = m.payload.length
      ∧ m.written m.payload.length
        = [⟨m, ChunkStream.fmtCsidData 0 m.csid ++ (header ++ m.payload), true⟩] := by
  have hpos := List.length_pos_of_ne_nil m.payload_ne
  refine ⟨write3Bytes m.timestamp
    ++ (write3Bytes m.payload.length ++ m.typeId :: write4Bytes m.msgStreamId), rfl, ?_, ?_⟩
  . have hdrop : (write3Bytes m.timestamp ++ (write3Bytes m.payload.length
        ++ m.typeId :: write4Bytes m.msgStreamId)).drop 3
        = write3Bytes m.payload.length ++ m.typeId :: write4Bytes m.msgStreamId := rfl
    rw [hdrop, read3Bytes_write3Bytes, Nat.mod_eq_of_lt m.length_lt]
  . unfold written writeDataByChunkStream
    simp only [Nat.mod_self, Nat.div_self hpos, Nat.lt_irrefl, if_false, Nat.add_zero,
      List.range_one, List.map_cons, List.map_nil]
    simp [ChunkStream.genData, ChunkStream.new, ChunkStream.headerData]

end OutMessage

open RtmpSessionBase in
theorem RtmpSessionBase.drain_longer {s : RtmpSessionBase} {csid : Nat} {header rest : List UInt8}
    (h64 : 64 ≤ csid) (hcsid : csid ≤ 65535) (hready : s.fmtReady = false)
    (hmap : s.csMap = fun _ => none)
    (hbuffer : s.recvBuffer = ChunkStream.fmtCsidData 0 csid ++ (header ++ rest))
    (hheader : header.length = format0HeaderLen)
    (hsize : read3Bytes (header.drop 3) ≤ s.chunkSize)
    (hrest : extTsLen + read3Bytes (header.drop 3) ≤ rest.length)
    : ∃ d ∈ ((chunkReader readyHandler).drain s).1, d.csid ≠ csid := by
  rcases readFmtCsid_fmtCsidData h64 hcsid hbuffer with ⟨r, hr, hfmt⟩
  have hcurrent : currentChunkStream
      { s with fmtReady := true, fmt := 0, csid := r, recvBuffer := header ++ rest }
      = ChunkStream.new 0 r s.chunkSize := by
    unfold currentChunkStream csPtr
    simp only [hmap]
  have hphase : (ChunkStream.new 0 r s.chunkSize).phase = .header := rfl
  rcases ChunkStream.readChunk_whole r hphase hheader hsize hrest with
    ⟨cs, rest', hread, hcs, hcsReady⟩
  rw [← hcurrent] at hread
  have hstep : ∃ t, receive readyHandler s = .next t [cs.decoded] := by
    unfold receive readChunkStream
    simp only [hready, Bool.false_eq_true, if_false, hfmt]
    rw [readMessage_eq hread]
    unfold dispatch
    simp only [csPtr, csKey, putChunkStream, Function.update_self, ChunkStream.isReady, hcsReady, if_true]
    exact ⟨_, rfl⟩
  rcases hstep with ⟨t, hstep⟩
  rw [(chunkReader readyHandler).drain_next hstep, Result.andThen_some]
  refine ⟨cs.decoded, List.mem_append_left _ List.mem_cons_self, ?_⟩
  intro heq
  exact hr (hcs.symm.trans heq)

namespace OutMessage

open RtmpSessionBase in
theorem not_isolated {S : OutMessage → Prop} {m : OutMessage} (hm : S m) (h64 : 64 ≤ m.csid)
    : ¬ Isolated S := by
  intro h
  rcases m.written_whole with ⟨header, hheader, hlen, hwritten⟩
  have hpos := List.length_pos_of_ne_nil m.payload_ne
  have hsched : Interleaves m.payload.length [m, m]
      (m.written m.payload.length ++ m.written m.payload.length) := by
    intro csid
    by_cases hcsid : m.csid = csid
    . simp [hwritten, hcsid]
    . simp [hwritten, hcsid]
  have hdone := h m.payload.length [m, m] _ _ [_] hpos (by simp [hm]) hsched (List.prefix_refl _)
    (List.flatten_singleton)
  rw [hwritten] at hdone
  generalize hbytes : ChunkStream.fmtCsidData 0 m.csid ++ (header ++ m.payload) = bytes at hdone
  have hbuffer : ((setChunkSize {} m.payload.length).feed (bytes ++ bytes)).recvBuffer
      = ChunkStream.fmtCsidData 0 m.csid ++ (header ++ (m.payload ++ bytes)) := by
    rw [← List.append_assoc, ← List.append_assoc, List.append_assoc _ header, hbytes]
    rfl
  have hroom : extTsLen + read3Bytes (header.drop 3) ≤ (m.payload ++ bytes).length := by
    rw [List.length_append, ← hbytes, List.length_append, List.length_append, hheader, hlen]
    unfold extTsLen format0HeaderLen
    omega
  rcases drain_longer h64 m.csid_le rfl rfl hbuffer hheader (Nat.le_of_eq hlen) hroom with
    ⟨d, hd, hne⟩
  rw [List.singleton_append, List.flatMap_cons, List.flatMap_singleton, Reader.run_singleton] at hdone
  rcases hdone d hd with ⟨w, hw, _, hcsid, _⟩
  have hmsg : w.msg = m := by
    simp only [List.mem_cons, List.not_mem_nil, or_false, or_self] at hw
    rw [hw]
  rw [hmsg] at hcsid
  exact hne hcsid

/--
Chunk streams are isolated as long as all basic headers have one byte, and as soon as a single
message is written with a longer one they are not.
-/
theorem isolated_csids (S : OutMessage → Prop)
    : ((∀ m, S m → m.csid < 64 ∧ m.timestamp % 2 ^ 24 ≠ 0xffffff) → Isolated S)
      ∧ (Isolated S → ∀ m, S m → m.csid < 64) := by
  refine ⟨isolated_of_narrow, ?_⟩
  intro h m hm
  by_contra hcsid
  exact not_isolated hm (Nat.le_of_not_lt hcsid) h

/--
Messages of two bytes on the chunk streams 2 and 194, the latter is read as 258 and kept under 2.
-/
def twoBytes (csid : Nat) (byte : UInt8) (hcsid : 2 ≤ csid ∧ csid ≤ 65535) : OutMessage where
  csid := csid
  timestamp := 0
  typeId := 9
  msgStreamId := 1
  payload := [byte, byte]
  two_le_csid := hcsid.1
  csid_le := hcsid.2
  timestamp_lt := by decide
  msgStreamId_lt := sampleAudio.msgStreamId_lt
  payload_ne := List.cons_ne_nil _ _
  length_lt := (by decide : 2 < 2 ^ 24)

def mixedSched : List OutChunk :=
  [⟨twoBytes 2 1 (by decide), [2, 0, 0, 0, 0, 0, 2, 9, 0, 0, 0, 1, 1], false⟩,
    ⟨twoBytes 194 7 (by decide), [0, 194, 0, 0, 0, 0, 0, 2, 9, 0, 0, 0, 1, 7], false⟩,
    ⟨twoBytes 2 1 (by decide), [0xc2, 1], true⟩]

open RtmpSessionBase in
theorem not_isolated_csids : ¬ ∀ S, Isolated S := by
  intro h
  have hsched : Interleaves 1 [twoBytes 2 1 (by decide), twoBytes 194 7 (by decide)]
      (mixedSched ++ [⟨twoBytes 194 7 (by decide), [0xc0, 194, 7], true⟩]) := by
    intro csid
    by_cases h2 : csid = 2
    . rw [h2]
      rfl
    . by_cases h194 : csid = 194
      . rw [h194]
        rfl
      . have h2' : 2 ≠ csid := Ne.symm h2
        have h194' : 194 ≠ csid := Ne.symm h194
        simp [mixedSched, twoBytes, h2', h194']
  have hrun : ((chunkReader readyHandler).run (setChunkSize {} 1)
      [mixedSched.flatMap OutChunk.bytes]).1 = [⟨2, 0, 2, 9, 1, [1, 7, 1]⟩] := by
    decide
  have hall := h (fun _ => True) 1 _ _ mixedSched [_] (by decide) (fun _ _ => trivial) hsched
    (List.prefix_append _ _) List.flatten_singleton
  rw [hrun] at hall
  exact absurd (hall _ List.mem_cons_self) (by decide)

end OutMessage

end Rtmp
