import CppStreamer.Net.Rtmp.ChunkSender

/-!
This module contains the round trip of messages through `WriteDataByChunkStream` and
`ReadChunkStream`, with the chunks of several chunk streams interleaved and the bytes cut into
arbitrary pieces.
-/

namespace Rtmp

open ByteStream Incremental

/--
A chunk on the wire, with the message it belongs to.
-/
structure WireChunk where
  msg : RtmpMessage
  bytes : List UInt8
  last : Bool
  deriving DecidableEq

def Chunk.wire (c : Chunk) : WireChunk where
  msg := c.msg
  bytes := c.bytes
  last := c.last

theorem chunkCount_spec (len : Nat) {chunkSize : Nat} (hpos : 0 < chunkSize)
    : len ≤ (len / chunkSize + if len % chunkSize > 0 then 1 else 0) * chunkSize
      ∧ (len / chunkSize + if len % chunkSize > 0 then 1 else 0) * chunkSize < len + chunkSize := by
  have hdiv := Nat.div_add_mod len chunkSize
  have hmod := Nat.mod_lt len hpos
  rw [Nat.mul_comm] at hdiv
  split
  . rw [Nat.add_mul]
    omega
  . rw [Nat.add_zero]
    omega

/--
The length `WriteDataByChunkStream` computes for a chunk covers the same part of the payload as the
chunk size.
-/
theorem take_chunkLen (payload : List UInt8) {chunkSize index : Nat} (hpos : 0 < chunkSize)
    : (payload.drop (index * chunkSize)).take
        (if index = payload.length / chunkSize + (if payload.length % chunkSize > 0 then 1 else 0) - 1 then
          (if payload.length % chunkSize > 0 then payload.length % chunkSize else chunkSize)
        else chunkSize)
      = (payload.drop (index * chunkSize)).take chunkSize := by
  by_cases hrest : payload.length % chunkSize > 0
  . simp only [if_pos hrest, Nat.add_sub_cancel]
    split
    . next hlast =>
      have hdiv := Nat.div_add_mod payload.length chunkSize
      have hmod := Nat.mod_lt payload.length hpos
      rw [Nat.mul_comm, ← hlast] at hdiv
      rw [List.take_of_length_le (by rw [List.length_drop]; omega),
        List.take_of_length_le (by rw [List.length_drop]; omega)]
    . rfl
  . simp only [if_neg hrest, ite_self]

namespace RtmpMessage

/--
What `WriteDataByChunkStream` emits for a message.
-/
def written (chunkSize : Nat) (m : RtmpMessage) : List WireChunk :=
  let buffers :=
    writeDataByChunkStream m.csid m.timestamp m.typeId m.msgStreamId chunkSize m.payload
  buffers.zipIdx.map fun (bytes, index) => ⟨m, bytes, decide (index + 1 = buffers.length)⟩

/--
The number of chunks of a message.
-/
def csCount (m : RtmpMessage) (chunkSize : Nat) : Nat :=
  m.payload.length / chunkSize + (if m.payload.length % chunkSize > 0 then 1 else 0)

theorem csCount_spec (m : RtmpMessage) {chunkSize : Nat} (hpos : 0 < chunkSize)
    : m.payload.length ≤ m.csCount chunkSize * chunkSize
      ∧ m.csCount chunkSize * chunkSize < m.payload.length + chunkSize :=
  chunkCount_spec m.payload.length hpos

theorem csCount_pos {m : RtmpMessage} {chunkSize : Nat} (hpos : 0 < chunkSize)
    (hne : m.payload ≠ [])
    : 0 < m.csCount chunkSize := by
  have hspec := m.csCount_spec hpos
  have := List.length_pos_of_ne_nil hne
  by_contra h
  have : m.csCount chunkSize = 0 := by omega
  rw [this] at hspec
  omega

theorem last_iff (m : RtmpMessage) {chunkSize : Nat} (index : Nat) (hpos : 0 < chunkSize)
    (h : index < m.csCount chunkSize)
    : (Chunk.mk m (index * chunkSize) chunkSize).last = true ↔ index + 1 = m.csCount chunkSize := by
  have hspec := m.csCount_spec hpos
  simp only [Chunk.last, decide_eq_true_eq]
  constructor
  . intro hlast
    by_contra hne
    have : (index + 2) * chunkSize ≤ m.csCount chunkSize * chunkSize :=
      Nat.mul_le_mul_right _ (by omega)
    rw [Nat.add_mul] at this
    omega
  . intro hlast
    rw [← hlast, Nat.add_mul] at hspec
    omega

theorem genData_chunkAll (c : Chunk) (chunkSize : Nat)
    : ({ ChunkStream.new c.fmt c.msg.csid chunkSize with
          timestamp32 := c.msg.timestamp, msgLen := c.msg.payload.length, typeId := c.msg.typeId,
          msgStreamId := c.msg.msgStreamId }.genData c.data).chunkAll
      = c.bytes := by
  have hcsid : c.msg.csid % 64 = c.msg.csid := Nat.mod_eq_of_lt c.msg.csid_lt
  simp only [ChunkStream.genData, ChunkStream.new, ChunkStream.fmtCsidData, ChunkStream.headerData,
    if_pos c.msg.csid_lt, hcsid, Chunk.bytes, Chunk.body]
  by_cases hoffset : c.offset = 0
  . simp [Chunk.fmt, hoffset, header]
  . simp [Chunk.fmt, hoffset]

theorem writeDataByChunkStream_eq (m : RtmpMessage) {chunkSize : Nat} (hpos : 0 < chunkSize)
    : writeDataByChunkStream m.csid m.timestamp m.typeId m.msgStreamId chunkSize m.payload
      = (List.range (m.csCount chunkSize)).map fun index =>
          (Chunk.mk m (index * chunkSize) chunkSize).bytes := by
  unfold writeDataByChunkStream
  apply List.map_congr_left
  intro index _
  have hfmt : (if index = 0 then 0 else 3) = (Chunk.mk m (index * chunkSize) chunkSize).fmt := by
    rw [Chunk.fmt]
    simp only [Nat.mul_eq_zero]
    have : chunkSize ≠ 0 := by omega
    simp [this]
  rw [← genData_chunkAll, ← hfmt, Chunk.data, ← take_chunkLen m.payload hpos]

theorem follows_index (m : RtmpMessage) (chunkSize index : Nat)
    : (Chunk.mk m (index * chunkSize) chunkSize).Follows
        (if index = 0 then none else some (m, index * chunkSize)) := by
  split
  . next hindex => simp [Chunk.Follows, hindex]
  . exact ⟨rfl, rfl⟩

theorem written_eq (m : RtmpMessage) {chunkSize : Nat} (hpos : 0 < chunkSize)
    : m.written chunkSize
      = (List.range (m.csCount chunkSize)).map fun index =>
          (Chunk.mk m (index * chunkSize) chunkSize).wire := by
  have hzip (count : Nat) (f : Nat → List UInt8)
      : ((List.range count).map f).zipIdx = (List.range count).map fun i => (f i, i) := by
    apply List.ext_getElem
    . simp
    . simp
  simp only [written, m.writeDataByChunkStream_eq hpos, hzip, List.map_map, List.length_map,
    List.length_range]
  apply List.map_congr_left
  intro index hindex
  rw [List.mem_range] at hindex
  have hlast := m.last_iff index hpos hindex
  simp only [Function.comp, Chunk.wire, WireChunk.mk.injEq, true_and]
  rw [Bool.eq_iff_iff, hlast]
  simp

theorem written_map_bytes (m : RtmpMessage) (chunkSize : Nat)
    : (m.written chunkSize).map WireChunk.bytes
      = writeDataByChunkStream m.csid m.timestamp m.typeId m.msgStreamId chunkSize m.payload := by
  simp [written, List.map_map, Function.comp_def]

theorem written_filter_last {m : RtmpMessage} {chunkSize : Nat} (hpos : 0 < chunkSize)
    (hne : m.payload ≠ [])
    : ((m.written chunkSize).filter WireChunk.last).map WireChunk.msg = [m] := by
  have hcount := csCount_pos hpos hne
  have hrange : List.range (m.csCount chunkSize)
      = List.range (m.csCount chunkSize - 1) ++ [m.csCount chunkSize - 1] := by
    rw [← List.range_succ, Nat.succ_eq_add_one, Nat.sub_add_cancel hcount]
  have hfront : ((List.range (m.csCount chunkSize - 1)).map fun index =>
      (Chunk.mk m (index * chunkSize) chunkSize).wire).filter WireChunk.last = [] := by
    rw [List.filter_eq_nil_iff]
    intro w hw
    rcases List.mem_map.mp hw with ⟨index, hindex, rfl⟩
    rw [List.mem_range] at hindex
    exact (m.last_iff index hpos (by omega)).not.mpr (by omega)
  have hback := (m.last_iff (m.csCount chunkSize - 1) hpos (by omega)).mpr (by omega)
  rw [m.written_eq hpos, hrange, List.map_append, List.filter_append, hfront]
  simp [Chunk.wire, hback]

end RtmpMessage

/--
A sender with a fixed chunk size, seen on a single chunk stream.
-/
def WireStep (chunkSize : Nat) (p : Progress) (w : WireChunk) (p' : Progress) : Prop :=
  ∃ c : Chunk, w = c.wire ∧ c.size = chunkSize ∧ c.Follows p ∧ p' = c.after

theorem run_written {m : RtmpMessage} {chunkSize : Nat} (hpos : 0 < chunkSize)
    (hne : m.payload ≠ [])
    : Interleave.Run (WireStep chunkSize) none (m.written chunkSize) none := by
  have hcount := RtmpMessage.csCount_pos hpos hne
  have hfrom : ∀ n index, index + n + 1 = m.csCount chunkSize →
      Interleave.Run (WireStep chunkSize) (if index = 0 then none else some (m, index * chunkSize))
        ((List.range' index (n + 1)).map fun index =>
          (Chunk.mk m (index * chunkSize) chunkSize).wire) none := by
    intro n
    induction n with
    | zero =>
      intro index hcount
      have hlast := (m.last_iff index hpos (by omega)).mpr hcount
      refine .cons ⟨_, rfl, rfl, m.follows_index chunkSize index, rfl⟩ ?_
      rw [Chunk.after, if_pos hlast]
      exact .nil none
    | succ n ih =>
      intro index hcount
      have hlast := (m.last_iff index hpos (by omega)).not.mpr (by omega : index + 1 ≠ _)
      rw [List.range'_succ, List.map_cons]
      refine .cons ⟨_, rfl, rfl, m.follows_index chunkSize index, rfl⟩ ?_
      have := ih (index + 1) (by omega)
      rw [if_neg (by omega), Nat.add_mul, Nat.one_mul] at this
      rw [Chunk.after, if_neg hlast]
      exact this
  have := hfrom (m.csCount chunkSize - 1) 0 (by omega)
  rw [if_pos rfl, Nat.sub_add_cancel hcount, ← List.range_eq_range'] at this
  rw [m.written_eq hpos]
  exact this

theorem run_written_all {msgs : List RtmpMessage} {chunkSize : Nat} (hpos : 0 < chunkSize)
    (hne : ∀ m ∈ msgs, m.payload ≠ [])
    : Interleave.Run (WireStep chunkSize) none (msgs.flatMap (RtmpMessage.written chunkSize)) none := by
  induction msgs with
  | nil => exact .nil none
  | cons m msgs ih =>
    rw [List.flatMap_cons]
    exact (run_written hpos (hne m List.mem_cons_self)).append
      (ih fun m hm => hne m (List.mem_cons_of_mem _ hm))

/--
The chunk streams of a sender whose chunk size does not change are independent of each other.
-/
theorem sender_run_of_lift (adjust : Nat → RtmpMessage → Nat) {chunkSize : Nat}
    {f f' : Nat → Progress} {sched : List WireChunk}
    (h : Interleave.Run (Interleave.lift (fun w => w.msg.csid) (WireStep chunkSize)) f sched f')
    (hadjust : ∀ w ∈ sched, adjust chunkSize w.msg = chunkSize)
    : ∃ chunks : List Chunk, sched = chunks.map Chunk.wire
      ∧ Interleave.Run (Sender.Step adjust) ⟨chunkSize, f⟩ chunks ⟨chunkSize, f'⟩ := by
  induction h with
  | nil f => exact ⟨[], rfl, .nil _⟩
  | @cons f g f' w ws hstep _ ih =>
    rcases hstep with ⟨p, ⟨c, rfl, hsize, hfollows, rfl⟩, rfl⟩
    rcases ih fun w hw => hadjust w (List.mem_cons_of_mem _ hw) with ⟨chunks, rfl, hrun⟩
    refine ⟨c :: chunks, rfl, .cons ⟨hsize, hfollows, ?_⟩ hrun⟩
    have : adjust chunkSize c.msg = chunkSize := hadjust c.wire List.mem_cons_self
    simp [Chunk.wire, this]

namespace RtmpSessionBase

/--
A caller of `ReadChunkStream` that takes every ready chunk stream and resets it.
-/
def readyHandler : Handler DecodedMessage where
  handle s cs := ([cs.decoded], some (s.resetChunkStream cs))
  handle_feed _ _ _ := rfl
  handle_frame := by
    intro s cs s' h
    simp only [Option.some.injEq] at h
    simp [← h, resetChunkStream, putChunkStream]

theorem readyHandler_accepts (m : RtmpMessage)
    : readyHandler.Accepts (fun size _ => size) (fun m => [m.decoded]) m := by
  intro s cs hdecoded
  refine ⟨s.resetChunkStream cs, ?_, rfl, rfl⟩
  simp [readyHandler, hdecoded]

theorem inStep_start (chunkSize : Nat)
    : (setChunkSize {} chunkSize).InStep (Sender.start chunkSize) where
  recvBuffer := rfl
  fmtReady := rfl
  chunkSize := rfl
  absent := fun _ _ => rfl
  tracks := by simp [setChunkSize]

end RtmpSessionBase

open RtmpSessionBase in
theorem run_prefix {msgs : List RtmpMessage} {chunkSize : Nat} (hpos : 0 < chunkSize)
    (hne : ∀ m ∈ msgs, m.payload ≠ []) {sched pre : List WireChunk}
    (hsched : ∀ csid, (sched.filter fun w => w.msg.csid = csid)
      = (msgs.filter fun m => m.csid = csid).flatMap (RtmpMessage.written chunkSize))
    (hpre : pre <+: sched) {cuts : List (List UInt8)} (hcuts : cuts.flatten = pre.flatMap WireChunk.bytes)
    : ∃ s, (chunkReader readyHandler).run (setChunkSize {} chunkSize) cuts
        = ((pre.filter WireChunk.last).map fun w => w.msg.decoded, some s)
      ∧ s.recvBuffer = [] ∧ s.fmtReady = false := by
  have hlift : Interleave.Run (Interleave.lift (fun w => w.msg.csid) (WireStep chunkSize))
      (fun _ => none) sched (fun _ => none) := by
    apply Interleave.run_lift
    intro csid
    rw [hsched csid]
    exact run_written_all hpos fun m hm => hne m (List.mem_of_mem_filter hm)
  rcases hpre with ⟨post, rfl⟩
  rcases hlift.of_append with ⟨f, hlift, _⟩
  rcases sender_run_of_lift (fun size _ => size) hlift (fun _ _ => rfl) with
    ⟨chunks, rfl, hrun⟩
  have hs := inStep_start chunkSize
  rcases hs.drains_run hrun (fun c _ => readyHandler_accepts c.msg) (fun _ _ _ h => h) hpos with
    ⟨s, hdrains, hs'⟩
  have hbytes : cuts.flatten = chunks.flatMap Chunk.bytes := by
    rw [hcuts, List.flatMap_map]
    rfl
  rw [← hbytes] at hdrains
  refine ⟨s, ?_, hs'.recvBuffer, hs'.fmtReady⟩
  rw [Reader.Drains.run_eq hs.quiet hdrains, emitted, List.filter_map, List.map_map,
    List.map_eq_flatMap]
  rfl

open RtmpSessionBase in
/--
Messages written with `WriteDataByChunkStream` arrive as they were, whatever the interleaving of their
chunks and wherever the bytes are cut: after any number of chunks, exactly the messages whose last
chunk has arrived were ready, and no byte is left over.
-/
theorem readChunkStream_writeDataByChunkStream (msgs : List RtmpMessage) (chunkSize : Nat)
    (hpos : 0 < chunkSize) (hne : ∀ m ∈ msgs, m.payload ≠ []) (sched : List WireChunk)
    (hsched : ∀ csid, (sched.filter fun w => w.msg.csid = csid)
      = (msgs.filter fun m => m.csid = csid).flatMap (RtmpMessage.written chunkSize))
    : (∀ pre cuts, pre <+: sched → cuts.flatten = pre.flatMap WireChunk.bytes →
        ∃ s, (chunkReader readyHandler).run (setChunkSize {} chunkSize) cuts
            = ((pre.filter WireChunk.last).map fun w => w.msg.decoded, some s)
          ∧ s.recvBuffer = [] ∧ s.fmtReady = false)
      ∧ ((sched.filter WireChunk.last).map WireChunk.msg).Perm msgs := by
  constructor
  . intro pre cuts hpre hcuts
    exact run_prefix hpos hne hsched hpre hcuts
  . apply Interleave.perm_of_filter_eq RtmpMessage.csid
    intro csid
    have hcomm : ((sched.filter WireChunk.last).map WireChunk.msg).filter (fun m => m.csid = csid)
        = ((sched.filter fun w => w.msg.csid = csid).filter WireChunk.last).map WireChunk.msg := by
      rw [List.filter_map, List.filter_filter, List.filter_filter]
      congr 2
      funext w
      exact Bool.and_comm _ _
    rw [hcomm, hsched csid]
    have hne' : ∀ m ∈ msgs.filter (fun m => m.csid = csid), m.payload ≠ [] :=
      fun m hm => hne m (List.mem_of_mem_filter hm)
    generalize msgs.filter (fun m => m.csid = csid) = ms at hne'
    induction ms with
    | nil => rfl
    | cons m ms ih =>
      rw [List.flatMap_cons, List.filter_append, List.map_append,
        RtmpMessage.written_filter_last hpos (hne' m List.mem_cons_self),
        ih fun m hm => hne' m (List.mem_cons_of_mem _ hm)]
      rfl

/--
An audio message of two chunks and a video message of one, with a chunk size of 2.
-/
def sampleAudio : RtmpMessage where
  csid := 4
  timestamp := 1
  typeId := 8
  msgStreamId := 1
  payload := [1, 2, 3]
  two_le_csid := by decide
  csid_lt := by decide
  timestamp_lt := by decide
  msgStreamId_lt := by decide
  length_lt := by decide

def sampleVideo : RtmpMessage where
  csid := 6
  timestamp := 2
  typeId := 9
  msgStreamId := 1
  payload := [9]
  two_le_csid := by decide
  csid_lt := by decide
  timestamp_lt := by decide
  msgStreamId_lt := by decide
  length_lt := by decide

def sampleSched : List WireChunk :=
  [⟨sampleAudio, [4, 0, 0, 1, 0, 0, 3, 8, 0, 0, 0, 1, 1, 2], false⟩,
    ⟨sampleVideo, [6, 0, 0, 2, 0, 0, 1, 9, 0, 0, 0, 1, 9], true⟩,
    ⟨sampleAudio, [0xc4, 3], true⟩]

open RtmpSessionBase in
theorem readChunkStream_writeDataByChunkStream_sample
    : ∃ s, (chunkReader readyHandler).run (setChunkSize {} 2)
          [[4, 0, 0], [1, 0, 0, 3, 8, 0, 0, 0, 1, 1, 2, 6, 0, 0, 2, 0, 0, 1, 9, 0, 0, 0], [1],
            [9, 0xc4], [3]]
        = ([sampleVideo.decoded, sampleAudio.decoded], some s)
      ∧ s.recvBuffer = [] ∧ s.fmtReady = false := by
  have hsched (csid : Nat) : (sampleSched.filter fun w => w.msg.csid = csid)
      = ([sampleAudio, sampleVideo].filter fun m => m.csid = csid).flatMap
          (RtmpMessage.written 2) := by
    by_cases haudio : csid = 4
    . rw [haudio]
      decide
    . by_cases hvideo : csid = 6
      . rw [hvideo]
        decide
      . simp [sampleSched, sampleAudio, sampleVideo, Ne.symm haudio, Ne.symm hvideo]
  have := readChunkStream_writeDataByChunkStream [sampleAudio, sampleVideo] 2 (by decide)
    (by decide) sampleSched hsched
  exact this.1 sampleSched _ (List.prefix_refl _) (by decide)

end Rtmp
