import CppStreamer.Net.Rtmp.ChunkSender
import CppStreamer.Net.Rtmp.ClientLossless

/-!
This module contains the chunk size over the run of a client session, and what depends on it not being 0.
-/

namespace Rtmp

open ByteStream

namespace ChunkStream

/--
A Set Chunk Size message with the value 0.
-/
def SetsZero (cs : ChunkStream) : Prop :=
  cs.typeId = rtmpControlSetChunkSize ∧ 4 ≤ cs.chunkData.length ∧ read4Bytes cs.chunkData = 0

theorem requireLen_pos {cs : ChunkStream} (hsize : 0 < cs.chunkSize) (hremain : 0 < cs.remain)
    : 0 < cs.requireLen := by
  unfold requireLen
  split
  . exact hsize
  . exact hremain

theorem readMessagePayload_length_lt {cs cs' : ChunkStream} {buffer rest : List UInt8}
    (hphase : cs.phase = .payload) (hsize : 0 < cs.chunkSize) (hremain : 0 < cs.remain)
    (h : cs.readMessagePayload buffer = (.ok, cs', rest)) : rest.length < buffer.length := by
  have hpos := requireLen_pos hsize hremain
  unfold readMessagePayload at h
  rw [hphase] at h
  simp only at h
  split at h
  . cases h
  . cases h
    rw [List.length_drop]
    omega

end ChunkStream

namespace RtmpSessionBase

/--
The chunk size is not 0: what is written can be cut into chunks, the payload of an unfinished message is
read by at least one byte, and every chunk read shortens what is buffered.
-/
structure Usable (s : RtmpSessionBase) : Prop where
  pos : 0 < s.getChunkSize
  sends : ∀ command body, (s.sendCommand command body).isSome
  consumes : ∀ fmt csid buffer cs rest,
    (s.atHeader fmt csid).currentChunkStream.readMessageHeader fmt csid buffer = (.ok, cs, rest) →
    0 < cs.remain →
    ∀ cs' rest', cs.readMessagePayload rest = (.ok, cs', rest') → rest'.length < rest.length
  progress : ∀ t, s.readChunkStream = (.ok, t) →
    2 * t.recvBuffer.length + t.fmtReady.toNat < 2 * s.recvBuffer.length + s.fmtReady.toNat

theorem usable_of_pos {s : RtmpSessionBase} (h : 0 < s.chunkSize) : s.Usable := by
  constructor
  . exact h
  . intro command body
    have hne : s.getChunkSize ≠ 0 := Nat.ne_of_gt h
    unfold sendCommand
    rw [if_neg hne]
    rfl
  . intro fmt csid buffer cs rest hheader hremain cs' rest' hpayload
    have hsize := (ChunkStream.readMessageHeader_resumable fmt csid).chunkSize hheader
    rw [currentChunkStream_chunkSize] at hsize
    have hpos : 0 < cs.chunkSize := by
      rw [hsize]
      exact h
    exact ChunkStream.readMessagePayload_length_lt (ChunkStream.readMessageHeader_phase hheader) hpos
      hremain hpayload
  . intro t hread
    have hrank := readChunkStream_rank_lt hread
    rw [hrank.1, Bool.toNat_false]
    exact hrank.2

/--
Every Set Chunk Size message of a run has a value other than 0.
-/
def nonzeroCondition : ReadCondition where
  turn _ := True
  message _ cs := ¬ cs.SetsZero
  finish _ _ _ := True
  other _ := True

/--
The chunk size is usable in every state of a run: before each chunk, before each message, at the end of
each read and where messages are not awaited.
-/
def usableCondition : ReadCondition where
  turn := Usable
  message s _ := s.Usable
  finish _ _ s := s.Usable
  other := Usable

theorem readChunkStream_chunkSize {s t : RtmpSessionBase} {ret : Ret}
    (h : s.readChunkStream = (ret, t)) : t.chunkSize = s.chunkSize := by
  have hframe := (readChunkStream_frame s).1
  rw [h] at hframe
  exact hframe

theorem handleRtmpControlMessage_pos {s t : RtmpSessionBase} {cs : ChunkStream}
    {sent : List (List UInt8)} (hs : 0 < s.chunkSize)
    (h : s.handleRtmpControlMessage cs = some (t, sent)) : 0 < t.chunkSize ↔ ¬ cs.SetsZero := by
  unfold ChunkStream.SetsZero
  simp only [handleRtmpControlMessage] at h
  split at h
  . next hset =>
    split at h
    . cases h
    . next hlen =>
      cases h
      have hsize : (s.setChunkSize (read4Bytes cs.chunkData)).chunkSize = read4Bytes cs.chunkData := rfl
      rw [hsize, Nat.pos_iff_ne_zero]
      constructor
      . intro hne hzero
        exact hne hzero.2.2
      . intro hnot hzero
        exact hnot ⟨hset, Nat.not_lt.mp hlen, hzero⟩
  . next hset =>
    have hsize : t.chunkSize = s.chunkSize := by
      split at h
      . split at h
        . cases h
        . cases h
          rfl
      . cases h
        rfl
    rw [hsize]
    exact iff_of_true hs fun hzero => hset hzero.1

theorem not_setsZero_of_not_control {cs : ChunkStream} (h : ¬ isControlMessage cs = true)
    : ¬ cs.SetsZero := by
  intro hzero
  apply h
  unfold isControlMessage
  rw [hzero.1]
  rfl

theorem handleReady_pos {s t : RtmpSessionBase} {cs : ChunkStream} {out : List ClientEvent}
    (hs : 0 < s.chunkSize) (h : s.handleReady cs = (out, some t)) : 0 < t.chunkSize ↔ ¬ cs.SetsZero := by
  simp only [handleReady] at h
  split at h
  . split at h
    . next hhandle =>
      cases h
      have hpos := handleRtmpControlMessage_pos hs hhandle
      exact hpos
    . cases h
  . next hcontrol =>
    have hsize : t.chunkSize = s.chunkSize := by
      repeat' split at h
      all_goals
        cases h
        try rfl
    rw [hsize]
    exact iff_of_true hs (not_setsZero_of_not_control hcontrol)

theorem not_setsZero_of_refused {s : RtmpSessionBase} {cs : ChunkStream} {out : List ClientEvent}
    (h : s.handleReady cs = (out, none)) : ¬ cs.SetsZero := by
  intro hzero
  have hcontrol : isControlMessage cs = true :=
    Classical.byContradiction fun hnot => not_setsZero_of_not_control hnot hzero
  simp only [handleReady, if_pos hcontrol, handleRtmpControlMessage, if_pos hzero.1,
    if_neg (Nat.not_lt.mpr hzero.2.1)] at h
  cases h

section Reads

variable {start : ClientPhase} {s t : RtmpSessionBase} {ret : Ret} {out : List ClientEvent}

theorem Receives.turn {c : ReadCondition} (h : Receives c start s ret out t) : c.turn s := by
  cases h <;> assumption

theorem Receives.usable (h : Receives nonzeroCondition start s ret out t) (hs : 0 < s.chunkSize)
    : Receives usableCondition start s ret out t ∧ 0 < t.chunkSize := by
  have hread {s t : RtmpSessionBase} {ret : Ret} (hs : 0 < s.chunkSize)
      (h : s.readChunkStream = (ret, t)) : 0 < t.chunkSize := by
    rw [readChunkStream_chunkSize h]
    exact hs
  induction h with
  | stalled _ hr hret _ =>
    have ht := hread hs hr
    exact ⟨.stalled (usable_of_pos hs) hr hret (usable_of_pos ht), ht⟩
  | drained _ hr hnone hempty _ =>
    have ht := hread hs hr
    exact ⟨.drained (usable_of_pos hs) hr hnone hempty (usable_of_pos ht), ht⟩
  | unready _ hr hnone hmore _ ih =>
    have hrest := ih (hread hs hr)
    exact ⟨.unready (usable_of_pos hs) hr hnone hmore hrest.1, hrest.2⟩
  | refused _ hr hready _ hhandle =>
    have ht := hread hs hr
    exact ⟨.refused (usable_of_pos hs) hr hready (usable_of_pos ht) hhandle, ht⟩
  | replied _ hr hready hmessage hhandle hreply _ =>
    have ht := hread hs hr
    have hu := (handleReady_pos ht hhandle).mpr hmessage
    exact ⟨.replied (usable_of_pos hs) hr hready (usable_of_pos ht) hhandle hreply (usable_of_pos hu), hu⟩
  | handled _ hr hready hmessage hhandle hmore _ ih =>
    have ht := hread hs hr
    have hrest := ih ((handleReady_pos ht hhandle).mpr hmessage)
    exact ⟨.handled (usable_of_pos hs) hr hready (usable_of_pos ht) hhandle hmore hrest.1, hrest.2⟩

theorem Receives.nonzero (h : Receives usableCondition start s ret out t)
    : Receives nonzeroCondition start s ret out t := by
  induction h with
  | stalled _ hr hret _ => exact .stalled trivial hr hret trivial
  | drained _ hr hnone hempty _ => exact .drained trivial hr hnone hempty trivial
  | unready _ hr hnone hmore _ ih => exact .unready trivial hr hnone hmore ih
  | refused _ hr hready _ hhandle =>
    exact .refused trivial hr hready (not_setsZero_of_refused hhandle) hhandle
  | replied _ hr hready hmessage hhandle hreply hfinish =>
    have hnot := (handleReady_pos hmessage.pos hhandle).mp hfinish.pos
    exact .replied trivial hr hready hnot hhandle hreply trivial
  | handled _ hr hready hmessage hhandle hmore hrest ih =>
    have hnot := (handleReady_pos hmessage.pos hhandle).mp hrest.turn.pos
    exact .handled trivial hr hready hnot hhandle hmore ih

theorem commandSent_chunkSize {event : Option ClientEvent} (ht : t ∈ (commandSent event s).2)
    : t.chunkSize = s.chunkSize := by
  unfold commandSent at ht
  split at ht
  . cases ht
    rfl
  . cases ht

theorem afterReply_chunkSize (ht : t ∈ (s.afterReply start).2) : t.chunkSize = s.chunkSize := by
  unfold afterReply at ht
  split at ht
  . have hsize := commandSent_chunkSize ht
    exact hsize
  . have hsize := commandSent_chunkSize ht
    exact hsize
  . cases ht
    rfl
  . cases ht
    rfl

theorem onRead_chunkSize {data : List UInt8} (hphase : receiving s.clientPhase = false)
    (ht : t ∈ (s.onRead data).2) : t.chunkSize = s.chunkSize := by
  have hother (hs : s.clientPhase = .initial ∨ s.clientPhase = .s0s1s2 ∨ s.clientPhase = .connect)
      : s.onRead data = ([], none) := by
    have hfeed : (s.feed data).clientPhase = s.clientPhase := rfl
    rcases hs with hs | hs | hs
    all_goals
      simp [onRead, handleMessage, handleS0S1S2, handleConnectResp, handleCreateStream,
        handleCreateStreamResp, handleCreatePlay, handleCreatePublish, handlePlaypublishResp,
        handleMedia, handleResp, hfeed, hs, Stage.result]
  cases hs : s.clientPhase with
  | initial =>
    rw [hother (.inl hs)] at ht
    cases ht
  | s0s1s2 =>
    rw [hother (.inr (.inl hs))] at ht
    cases ht
  | connect =>
    rw [hother (.inr (.inr hs))] at ht
    cases ht
  | c0c1 =>
    rw [onRead_c0c1 data hs] at ht
    split at ht
    . cases ht
      rfl
    . split at ht
      . cases ht
      . have hsize := commandSent_chunkSize ht
        exact hsize
  | createStream =>
    rw [onRead_createStream data hs] at ht
    have hsize := commandSent_chunkSize ht
    exact hsize
  | createPlay =>
    rw [onRead_createPlay data hs] at ht
    have hsize := commandSent_chunkSize ht
    exact hsize
  | createPublish =>
    rw [onRead_createPublish data hs] at ht
    have hsize := commandSent_chunkSize ht
    exact hsize
  | connectResp => rw [hs] at hphase; cases hphase
  | createStreamResp => rw [hs] at hphase; cases hphase
  | createPlaypublishResp => rw [hs] at hphase; cases hphase
  | mediaHandle => rw [hs] at hphase; cases hphase

theorem ReadMeets.usable {data : List UInt8} (h : ReadMeets nonzeroCondition s data)
    (hs : 0 < s.chunkSize)
    : ReadMeets usableCondition s data ∧ ∀ t ∈ (s.onRead data).2, 0 < t.chunkSize := by
  unfold ReadMeets at h ⊢
  cases hphase : receiving s.clientPhase with
  | true =>
    rw [hphase, if_pos rfl] at h
    rw [if_pos rfl]
    rcases h with ⟨ret, out, u, hreceives⟩
    have hu := hreceives.usable (s := s.feed data) hs
    refine ⟨⟨ret, out, u, hu.1⟩, ?_⟩
    intro t ht
    rw [onRead_receives hphase hreceives] at ht
    cases ret with
    | ok =>
      have hsize := afterReply_chunkSize (s := u) ht
      rw [hsize]
      exact hu.2
    | needReadMore =>
      cases ht
      exact hu.2
    | error => cases ht
  | false =>
    rw [if_neg Bool.false_ne_true]
    refine ⟨usable_of_pos hs, ?_⟩
    intro t ht
    rw [onRead_chunkSize hphase ht]
    exact hs

theorem ReadMeets.nonzero {data : List UInt8} (h : ReadMeets usableCondition s data)
    : ReadMeets nonzeroCondition s data := by
  unfold ReadMeets at h ⊢
  split at h
  . next hphase =>
    rw [if_pos hphase]
    rcases h with ⟨ret, out, u, hreceives⟩
    exact ⟨ret, out, u, hreceives.nonzero⟩
  . next hphase =>
    rw [if_neg hphase]
    trivial

end Reads

theorem RunMeets.usable {s : RtmpSessionBase} {reads : List (List UInt8)}
    (h : RunMeets nonzeroCondition s reads) (hs : 0 < s.chunkSize)
    : RunMeets usableCondition s reads := by
  induction reads generalizing s with
  | nil => trivial
  | cons data reads ih =>
    have hread := h.1.usable hs
    exact ⟨hread.1, fun t ht => ih (h.2 t ht) (hread.2 t ht)⟩

theorem RunMeets.nonzero {s : RtmpSessionBase} {reads : List (List UInt8)}
    (h : RunMeets usableCondition s reads) : RunMeets nonzeroCondition s reads := by
  induction reads generalizing s with
  | nil => trivial
  | cons data reads ih => exact ⟨h.1.nonzero, fun t ht => ih (h.2 t ht)⟩

/--
The chunk size of a client is usable in every state if and only if no Set Chunk Size message sets it to 0,
whatever bytes the peer sends.
-/
theorem runClient_usable (req : RtmpRequest) (reads : List (List UInt8))
    : RunMeets usableCondition (onConnect req) reads
      ↔ RunMeets nonzeroCondition (onConnect req) reads := by
  constructor
  . intro h
    exact h.nonzero
  . intro h
    have hpos : 0 < (onConnect req).chunkSize := Nat.succ_pos _
    exact h.usable hpos

/--
A peer that sets the chunk size to 0.
-/
theorem not_runClient_usable
    : ¬ ∀ (req : RtmpRequest) (reads : List (List UInt8)),
        RunMeets usableCondition (onConnect req) reads := by
  intro h
  have hrun := h {} [handshakeReply, serverMessage rtmpControlSetChunkSize (write4Bytes 0)]
  rcases onRead_handshakeReply [] with ⟨buffers, hreply⟩
  rw [List.append_nil] at hreply
  have hread := (hrun.2 (handshaken {}) (by rw [hreply]; rfl)).1
  rcases hread with ⟨ret, out, t, hreceives⟩
  have hpos := (hreceives.nonzero.usable (by decide)).2
  have hzero : ((handshaken {}).feed
      (serverMessage rtmpControlSetChunkSize (write4Bytes 0))).receiveRespMessage.2.2.chunkSize = 0 := by
    decide
  rw [hreceives.receiveRespMessage_eq] at hzero
  exact Nat.ne_of_gt hpos hzero

end RtmpSessionBase

end Rtmp
