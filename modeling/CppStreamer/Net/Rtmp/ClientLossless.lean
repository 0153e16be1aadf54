import CppStreamer.Net.Rtmp.ClientPhases

/-!
This module contains a client that loses no byte, and the conditions under which a client session handles
the same messages as this one.
-/

namespace Rtmp

open ByteStream Amf

namespace ChunkStream

/--
A chunk stream without a message that was completed and left behind.
-/
def clean (cs : ChunkStream) : ChunkStream := if cs.chunkReady then cs.reset else cs

/--
A message that was left behind is followed by a chunk without a message header, which clears it.
-/
def Clears (cs : ChunkStream) (fmt : Nat) : Prop :=
  cs.chunkReady → fmt = 3 ∧ cs.remain = 0 ∧ cs.phase = .header

theorem clean_of_not_ready {cs : ChunkStream} (h : cs.chunkReady = false) : cs.clean = cs := by
  simp [clean, h]

theorem clean_of_ready {cs : ChunkStream} (h : cs.chunkReady = true) : cs.clean = cs.reset := by
  simp [clean, h]

@[simp]
theorem clean_reset (cs : ChunkStream) : cs.reset.clean = cs.reset := clean_of_not_ready rfl

theorem clean_setChunkSize (cs : ChunkStream) (chunkSize : Nat)
    : clean { cs with chunkSize := chunkSize } = { cs.clean with chunkSize := chunkSize } := by
  simp only [clean]
  split
  . rfl
  . rfl

theorem readMsgByFormat_chunkReady {cs cs' : ChunkStream} {fmt csid : Nat} {buffer rest : List UInt8}
    {ret : Ret} (h : cs.readMsgByFormat fmt csid buffer = (ret, cs', rest))
    (hready : cs.chunkReady = false)
    : cs'.chunkReady = false := by
  simp only [readMsgByFormat, readMsgFormat0, readMsgFormat1, readMsgFormat2, readMsgFormat3,
    readMsgFormat] at h
  repeat' split at h
  all_goals
    simp only [Prod.mk.injEq] at h
    rw [← h.2.1]
    first
      | exact hready
      | rfl

theorem readChunk_chunkReady {cs cs' : ChunkStream} {fmt csid : Nat} {buffer rest : List UInt8}
    (h : cs.readChunk fmt csid buffer = (.needReadMore, cs', rest)) (hready : cs.chunkReady = false)
    : cs'.chunkReady = false := by
  have hheader {ret cs' rest} (h : cs.readMessageHeader fmt csid buffer = (ret, cs', rest))
      : cs'.chunkReady = false := by
    simp only [readMessageHeader] at h
    split at h
    . simp only [Prod.mk.injEq] at h
      rw [← h.2.1]
      exact hready
    . split at h
      . next hok =>
        have hcs := readMsgByFormat_chunkReady hok hready
        simp only [Prod.mk.injEq] at h
        rw [← h.2.1]
        exact hcs
      . exact readMsgByFormat_chunkReady h hready
  simp only [readChunk] at h
  split at h
  . next hok =>
    simp only [readMessagePayload] at h
    repeat' split at h
    all_goals
      simp only [Prod.mk.injEq, reduceCtorEq, false_and, true_and] at h
      try
        rw [← h.1]
        exact hheader hok
  . exact hheader h

/--
A chunk without a message header that starts a message does not look at what the chunk stream holds.
-/
theorem readMsgFormat3_reset {cs cs' : ChunkStream} {fmt csid : Nat} {buffer rest : List UInt8}
    {ret : Ret} (hremain : cs.remain = 0) (hphase : cs.phase = .header)
    (h : cs.readMsgFormat3 fmt csid buffer = (ret, cs', rest))
    : (ret = .needReadMore ∧ cs' = cs
        ∧ cs.reset.readMsgFormat3 fmt csid buffer = (.needReadMore, cs.reset, rest))
      ∨ (ret = .ok ∧ cs'.chunkReady = false
        ∧ cs.reset.readMsgFormat3 fmt csid buffer = (.ok, cs', rest)) := by
  rcases cs with ⟨delta, ts, len, type, stream, remain, size, all, data, ext, fmt₀, csid₀, phase, ready⟩
  simp only at hremain hphase
  subst hremain hphase
  have hreset : (ChunkStream.mk delta ts len type stream 0 size all data ext fmt₀ csid₀ .header
      ready).reset = ChunkStream.mk delta ts len type stream 0 size [] [] ext fmt₀ csid₀ .header false :=
    rfl
  rw [hreset]
  simp only [readMsgFormat3, startMsgFormat3, if_true] at h ⊢
  by_cases hext : ext = true ∧ fmt₀ ≤ 2
  . rw [if_pos hext] at h ⊢
    by_cases hshort : buffer.length < extTsLen
    . rw [if_pos hshort, Prod.mk.injEq, Prod.mk.injEq] at h
      rw [if_pos hshort, ← h.1, ← h.2.1, ← h.2.2]
      exact .inl ⟨rfl, rfl, rfl⟩
    . rw [if_neg hshort, Prod.mk.injEq, Prod.mk.injEq] at h
      rw [if_neg hshort, ← h.1, ← h.2.1, ← h.2.2]
      exact .inr ⟨rfl, rfl, rfl⟩
  . rw [if_neg hext, Prod.mk.injEq, Prod.mk.injEq] at h
    rw [if_neg hext, ← h.1, ← h.2.1, ← h.2.2]
    right
    split
    . exact ⟨rfl, rfl, rfl⟩
    . exact ⟨rfl, rfl, rfl⟩

theorem readChunk_clean {cs cs' : ChunkStream} {fmt csid : Nat} {buffer rest : List UInt8}
    {ret : Ret} (hclears : cs.Clears fmt) (h : cs.readChunk fmt csid buffer = (ret, cs', rest))
    : cs.clean.readChunk fmt csid buffer
      = (ret, if ret = .needReadMore then cs'.clean else cs', rest) := by
  cases hready : cs.chunkReady with
  | false =>
    rw [clean_of_not_ready hready, h]
    split
    . next hret =>
      rw [hret] at h
      rw [clean_of_not_ready (readChunk_chunkReady h hready)]
    . rfl
  | true =>
    rcases hclears hready with ⟨hfmt, hremain, hphase⟩
    rw [clean_of_ready hready]
    subst hfmt
    have hresetPhase : cs.reset.phase = .header := rfl
    rcases hformat : cs.readMsgFormat3 3 csid buffer with ⟨ret₁, cs₁, buffer₁⟩
    simp only [readChunk, readMessageHeader, hphase, hresetPhase, readMsgByFormat, hformat] at h ⊢
    rcases readMsgFormat3_reset hremain hphase hformat with ⟨hret, hcs, hreset⟩ | ⟨hret, hnot, hreset⟩
    . rw [hreset]
      simp only [hret, Prod.mk.injEq] at h
      rw [← h.1, ← h.2.1, ← h.2.2, hcs, clean_of_ready hready]
      rfl
    . rw [hreset]
      simp only [hret] at h ⊢
      rw [h]
      split
      . next hmore =>
        -- the payload is incomplete, nothing is left behind any more
        have hcs' : cs' = { cs₁ with phase := .payload } := by
          rw [hmore] at h
          simp only [readMessagePayload] at h
          split at h
          . simp only [Prod.mk.injEq, true_and] at h
            exact h.1.symm
          . simp at h
        rw [hcs', clean_of_not_ready (by exact hnot)]
      . rfl

end ChunkStream

namespace RtmpSessionBase

section LosslessReader

theorem beginChunk_fmtReady {s t : RtmpSessionBase} (h : s.beginChunk = some t)
    : t.fmtReady = true := by
  simp only [beginChunk] at h
  split at h
  . next hready =>
    simp only [Option.some.injEq] at h
    rw [← h]
    exact hready
  . split at h
    . simp only [Option.some.injEq] at h
      rw [← h]
    . simp at h

theorem beginChunk_of_fmtReady {s : RtmpSessionBase} (h : s.fmtReady = true)
    : s.beginChunk = some s := by
  simp [beginChunk, h]

theorem beginChunk_feed {s t : RtmpSessionBase} (x : List UInt8) (h : s.beginChunk = some t)
    : (s.feed x).beginChunk = some (t.feed x) := by
  simp only [beginChunk] at h ⊢
  have hready : (s.feed x).fmtReady = s.fmtReady := rfl
  rw [hready]
  split at h
  . next hfmt =>
    simp only [Option.some.injEq] at h
    rw [if_pos hfmt, h]
  . next hfmt =>
    rw [if_neg hfmt]
    have hread {u : RtmpSessionBase} (hu : s.readFmtCsid = (.ok, u))
        : (s.feed x).readFmtCsid = (.ok, u.feed x) := by
      simp only [readFmtCsid, feed] at hu ⊢
      cases hbuffer : s.recvBuffer with
      | nil => simp [hbuffer] at hu
      | cons b buffer =>
        simp only [hbuffer, List.cons_append] at hu ⊢
        generalize b.toNat % 64 = csid at hu
        rcases csid with _ | _ | csid
        . cases buffer with
          | nil => simp at hu
          | cons b1 buffer =>
            simp only [Prod.mk.injEq, true_and] at hu
            simp [← hu]
        . rcases buffer with _ | ⟨b1, _ | ⟨b2, buffer⟩⟩
          . simp at hu
          . simp at hu
          . simp only [Prod.mk.injEq, true_and] at hu
            simp [← hu]
        . simp only [Prod.mk.injEq, true_and] at hu
          simp [← hu]
    split at h
    . next u hu =>
      simp only [Option.some.injEq] at h
      rw [hread hu, ← h]
      rfl
    . simp at h

/--
The phase behind the commands a session sends at once.
-/
def settle (phase : ClientPhase) : ClientPhase :=
  if phase = .createStream then .createStreamResp
  else if createsPlaypublish phase then .createPlaypublishResp
  else phase

/--
Messages are handled as they are in the session, but every one of them is cleared from its chunk stream,
and a command is sent as soon as a response moves the phase.
-/
def losslessHandle (s : RtmpSessionBase) (cs : ChunkStream)
    : Incremental.Result RtmpSessionBase ChunkStream :=
  ([cs], (s.handleReady cs).2.map fun t => (t.resetChunkStream cs).setPhase (settle t.clientPhase))

theorem handleReady_feed (s : RtmpSessionBase) (cs : ChunkStream) (x : List UInt8)
    : ((s.feed x).handleReady cs).2 = (s.handleReady cs).2.map fun t => t.feed x := by
  have hphase : (s.feed x).clientPhase = s.clientPhase := rfl
  have hreq : (s.feed x).req = s.req := rfl
  simp only [handleReady, handleRtmpControlMessage_feed, hphase, hreq]
  split
  . cases s.handleRtmpControlMessage cs with
    | none => rfl
    | some result => rfl
  . repeat' split
    all_goals rfl

def losslessHandler : Handler ChunkStream where
  handle := losslessHandle
  handle_feed s cs x := by
    simp only [losslessHandle, handleReady_feed, Option.map_map]
    congr 1
  handle_frame s cs t h := by
    simp only [losslessHandle, Option.map_eq_some_iff] at h
    rcases h with ⟨u, hu, ht⟩
    have hhandle : s.handleReady cs = ((s.handleReady cs).1, some u) := by rw [← hu]
    have hframe := handleReady_frame hhandle
    rw [← ht]
    exact ⟨hframe.1, hframe.2.1⟩

/--
One turn of a client that waits for a whole basic header.
-/
def losslessReceive (s : RtmpSessionBase) : Incremental.Step RtmpSessionBase ChunkStream :=
  match s.beginChunk with
  | some _ => receive losslessHandler s
  | none => .stall s

theorem losslessReceive_none {s : RtmpSessionBase} (h : s.beginChunk = none)
    : losslessReceive s = .stall s := by
  simp [losslessReceive, h]

theorem losslessReceive_some {s t : RtmpSessionBase} (h : s.beginChunk = some t)
    : losslessReceive s =
      match t.readMessage with
      | (.needReadMore, s) => .stall s
      | (.error, _) => .fail []
      | (.ok, s) => dispatch losslessHandler s := by
  have hreceive : losslessReceive s = receive losslessHandler s := by
    simp only [losslessReceive, h]
  rw [hreceive, ← readChunkStream_of_beginChunk h]
  rfl

/--
A client that can be fed its bytes in any pieces.
-/
def losslessReader : Incremental.Reader RtmpSessionBase UInt8 ChunkStream where
  feed := feed
  step := losslessReceive
  rank s := 2 * s.recvBuffer.length + s.fmtReady.toNat
  fits _ := True
  feed_nil := feed_nil
  feed_append := feed_append
  rank_lt s s' out hstep := by
    cases hbegin : s.beginChunk with
    | none => simp [losslessReceive_none hbegin] at hstep
    | some t =>
      simp only [losslessReceive, hbegin] at hstep
      exact (chunkReader losslessHandler).rank_lt s s' out hstep
  step_stall s s' x _ hstep := by
    cases hbegin : s.beginChunk with
    | none =>
      rw [losslessReceive_none hbegin, Incremental.Step.stall.injEq] at hstep
      rw [hstep]
    | some t =>
      rw [losslessReceive_some hbegin] at hstep
      rcases hread : t.readMessage with ⟨ret, u⟩
      cases ret with
      | ok => simp [hread, dispatch_ne_stall] at hstep
      | error => simp [hread] at hstep
      | needReadMore =>
        simp only [hread, Incremental.Step.stall.injEq] at hstep
        have hmore := readMessage_needReadMore x hread
        have hready : u.fmtReady = true := by rw [hmore.2, beginChunk_fmtReady hbegin]
        rw [← hstep, losslessReceive_some (beginChunk_feed x (beginChunk_of_fmtReady hready)),
          losslessReceive_some (beginChunk_feed x hbegin), hmore.1]
  step_next s s' out x _ hstep := by
    cases hbegin : s.beginChunk with
    | none => simp [losslessReceive_none hbegin] at hstep
    | some t =>
      rw [losslessReceive_some hbegin] at hstep
      rw [losslessReceive_some (beginChunk_feed x hbegin)]
      rcases hread : t.readMessage with ⟨ret, u⟩
      cases ret with
      | ok =>
        simp only [hread] at hstep
        rw [readMessage_feed x hread (by simp)]
        exact (dispatch_feed losslessHandler u x).1 s' out hstep
      | error => simp [hread] at hstep
      | needReadMore => simp [hread] at hstep
  step_fail s out x _ hstep := by
    cases hbegin : s.beginChunk with
    | none => simp [losslessReceive_none hbegin] at hstep
    | some t =>
      rw [losslessReceive_some hbegin] at hstep
      rw [losslessReceive_some (beginChunk_feed x hbegin)]
      rcases hread : t.readMessage with ⟨ret, u⟩
      cases ret with
      | ok =>
        simp only [hread] at hstep
        rw [readMessage_feed x hread (by simp)]
        exact (dispatch_feed losslessHandler u x).2 out hstep
      | error =>
        simp only [hread] at hstep
        rw [readMessage_feed x hread (by simp)]
        exact hstep
      | needReadMore => simp [hread] at hstep
  fits_of_feed _ _ _ := trivial
  fits_stall _ _ _ _ _ := Iff.rfl
  fits_next _ _ _ _ _ _ := trivial
  fits_fail _ _ _ _ _ := trivial

end LosslessReader

section Tidy

/--
The session of the lossless client at the same point.
-/
def tidy (s : RtmpSessionBase) : RtmpSessionBase :=
  { s with
    csMap := fun key => (s.csMap key).map ChunkStream.clean, clientPhase := settle s.clientPhase }

theorem tidy_feed (s : RtmpSessionBase) (x : List UInt8) : (s.feed x).tidy = s.tidy.feed x := rfl

theorem tidy_putChunkStream (s : RtmpSessionBase) (cs : ChunkStream)
    : (s.putChunkStream cs).tidy = s.tidy.putChunkStream cs.clean := by
  have : (fun key => (Function.update s.csMap s.csKey (some cs) key).map ChunkStream.clean)
      = Function.update (fun key => (s.csMap key).map ChunkStream.clean) s.csKey (some cs.clean) := by
    funext key
    simp only [Function.update_apply]
    split
    . rfl
    . rfl
  simp only [putChunkStream, tidy, this]
  rfl

theorem beginChunk_tidy {s t : RtmpSessionBase} (h : s.beginChunk = some t)
    : s.tidy.beginChunk = some t.tidy := by
  have hfmt : s.tidy.readFmtCsid = (s.readFmtCsid.1, s.readFmtCsid.2.tidy) := by
    simp only [readFmtCsid, tidy]
    repeat' split
    all_goals rfl
  have hready : s.tidy.fmtReady = s.fmtReady := rfl
  simp only [beginChunk, hready, hfmt] at h ⊢
  split at h
  . next hs =>
    simp only [Option.some.injEq] at h
    rw [if_pos hs, h]
  . next hs =>
    rw [if_neg hs]
    split at h
    . next hu =>
      simp only [Option.some.injEq] at h
      rw [hu, ← h]
      rfl
    . simp at h

theorem beginChunk_tidy_none {s : RtmpSessionBase} (h : s.beginChunk = none)
    : s.tidy.beginChunk = none := by
  have hfmt : s.tidy.readFmtCsid.1 = s.readFmtCsid.1 := by
    simp only [readFmtCsid, tidy]
    repeat' split
    all_goals rfl
  have hready : s.tidy.fmtReady = s.fmtReady := rfl
  simp only [beginChunk, hready] at h ⊢
  split at h
  . simp at h
  . next hs =>
    rw [if_neg hs]
    rcases hread : s.readFmtCsid with ⟨ret, t⟩
    rcases htidy : s.tidy.readFmtCsid with ⟨ret', t'⟩
    rw [hread, htidy] at hfmt
    simp only at hfmt
    cases ret with
    | ok => simp [hread] at h
    | needReadMore => rw [hfmt]
    | error => rw [hfmt]

theorem currentChunkStream_tidy (s : RtmpSessionBase)
    : s.tidy.currentChunkStream = s.currentChunkStream.clean := by
  have hptr : s.tidy.csPtr = s.csPtr.map ChunkStream.clean := rfl
  simp only [currentChunkStream, hptr]
  cases s.csPtr with
  | none => rfl
  | some cs => exact (ChunkStream.clean_setChunkSize cs s.chunkSize).symm

/--
The next chunk either finds its chunk stream cleared or clears it.
-/
def Clears (s : RtmpSessionBase) : Prop := ∀ t ∈ s.beginChunk, t.currentChunkStream.Clears t.fmt

/--
The lossless client reads a chunk as the session does. It sees the message that became ready before it
is cleared.
-/
theorem readMessage_tidy {s t : RtmpSessionBase} {ret : Ret}
    (hclears : s.currentChunkStream.Clears s.fmt) (h : s.readMessage = (ret, t))
    : ∃ cs, t.csPtr = some cs ∧ s.tidy.readMessage
      = (ret, if ret = .needReadMore then t.tidy else t.tidy.putChunkStream cs) := by
  rcases hread : s.currentChunkStream.readChunk s.fmt s.csid s.recvBuffer with ⟨ret', cs, buffer⟩
  rw [readMessage_eq hread, Prod.mk.injEq] at h
  have hclean := ChunkStream.readChunk_clean hclears hread
  rw [← currentChunkStream_tidy] at hclean
  have htidy : t.tidy = { s.tidy.putChunkStream cs.clean with
      recvBuffer := buffer, fmtReady := if ret' = .ok then false else s.fmtReady } := by
    rw [← tidy_putChunkStream, ← h.2]
    rfl
  refine ⟨cs, ?_, ?_⟩
  . rw [← h.2]
    exact csPtr_putChunkStream s cs
  . rw [readMessage_eq hclean, ← h.1, htidy]
    split
    . rfl
    . simp only [putChunkStream, csKey, Function.update_idem]
      rfl

end Tidy

section Condition

/--
The phases in which a command is about to be sent.
-/
def sending (phase : ClientPhase) : Bool := phase = .createStream ∨ createsPlaypublish phase

/--
A command finds the session in the phase of the lossless client: behind a connect response in the same
read none is a result, and behind a createStream response in the same read there is none.
-/
def InTime (s : RtmpSessionBase) (cs : ChunkStream) : Prop :=
  cs.typeId = rtmpCommandMessagesAmf0 → ¬createsPlaypublish s.clientPhase
    ∧ (s.clientPhase = .createStream →
      ∀ next, handleServerCommandMessage s.req.publishFlag .createStream cs.chunkData = .ok next
        → next = .createStream)

/--
No read ends inside a basic header, a message left behind is cleared by the next chunk, a read ends on a
control message or command if and only if its messages moved the phase to a command, which can be sent
then, and the handshake reply ends a read.
-/
def losslessCondition : ReadCondition where
  turn s := (s.beginChunk = none → s.recvBuffer = []) ∧ s.Clears
  message s cs := WithinBounds cs ∧ s.InTime cs
  finish _ ret s :=
    match ret with
    | .ok => ¬waiting s.clientPhase ∧ (sending s.clientPhase → s.chunkSize ≠ 0)
    | .needReadMore => ¬sending s.clientPhase
    | .error => True
  other s := s.clientPhase = .c0c1 → s.recvBuffer.length ≤ s0s1s2Size

end Condition

section Handling

@[simp]
theorem settle_settle (phase : ClientPhase) : settle (settle phase) = settle phase := by
  cases phase
  all_goals rfl

theorem resetChunkStream_tidy (s : RtmpSessionBase) (cs : ChunkStream)
    : (s.tidy.putChunkStream cs).resetChunkStream cs = (s.resetChunkStream cs).tidy := by
  rw [resetChunkStream, putChunkStream_putChunkStream, resetChunkStream, tidy_putChunkStream,
    ChunkStream.clean_reset]

/--
The two phases in which a createStream response is awaited treat a command alike.
-/
def createStreamToResp (phase : ClientPhase) : ClientPhase :=
  if phase = .createStream then .createStreamResp else phase

theorem commandItem_createStreamResp (publish : Bool) (next : ClientPhase) (item : AmfItem)
    : commandItem publish .createStreamResp (createStreamToResp next) item
      = (commandItem publish .createStream next item).map createStreamToResp := by
  have hcreate : createStreamToResp (playpublishPhase publish) = playpublishPhase publish := by
    cases publish
    . rfl
    . rfl
  cases item with
  | string desc =>
    have hawaits : awaitsConnect .createStreamResp ∨ awaitsCreateStream .createStreamResp :=
      .inr rfl
    have hawaits' : awaitsConnect .createStream ∨ awaitsCreateStream .createStream := .inr rfl
    simp only [commandItem, if_pos hawaits, if_pos hawaits']
    split
    . rfl
    . split
      . rfl
      . exact congrArg Except.ok hcreate.symm
  | object fields =>
    simp only [commandItem]
    split
    . rfl
    . rfl
  | _ => rfl

theorem foldlM_createStreamResp (publish : Bool) (items : List AmfItem) (next : ClientPhase)
    : items.foldlM (commandItem publish .createStreamResp) (createStreamToResp next)
      = (items.foldlM (commandItem publish .createStream) next).map createStreamToResp := by
  induction items generalizing next with
  | nil => rfl
  | cons item items ih =>
    simp only [List.foldlM_cons, bind, Except.bind, commandItem_createStreamResp]
    cases commandItem publish .createStream next item with
    | error fault => rfl
    | ok middle => exact ih middle

theorem handleServerCommandMessage_createStreamResp (publish : Bool) (data : List UInt8)
    : handleServerCommandMessage publish .createStreamResp data
      = (handleServerCommandMessage publish .createStream data).map createStreamToResp := by
  simp only [handleServerCommandMessage]
  split
  . rfl
  . rfl
  . exact foldlM_createStreamResp publish _ .createStream

theorem settle_of_not_sending {phase : ClientPhase} (h : ¬sending phase) : settle phase = phase := by
  revert h
  cases phase
  all_goals decide

theorem tidy_resetChunkStream_of_ready {s : RtmpSessionBase} {cs : ChunkStream}
    (h : s.readyChunkStream = some cs) : (s.resetChunkStream cs).tidy = s.tidy := by
  rw [readyChunkStream, Option.filter_eq_some_iff] at h
  have hclean : cs.reset = cs.clean := (ChunkStream.clean_of_ready h.2).symm
  have hkey : s.tidy.csMap s.csKey = some cs.clean := by
    change (s.csPtr).map ChunkStream.clean = _
    rw [h.1]
    rfl
  rw [resetChunkStream, tidy_putChunkStream, ChunkStream.clean_reset, hclean]
  have : Function.update s.tidy.csMap s.tidy.csKey (some cs.clean) = s.tidy.csMap := by
    rw [← hkey]
    exact Function.update_eq_self _ _
  simp only [putChunkStream, this]

theorem losslessFinish_tidy (s : RtmpSessionBase) (cs : ChunkStream)
    : ((s.resetChunkStream cs).tidy.resetChunkStream cs).setPhase
        (settle (s.resetChunkStream cs).tidy.clientPhase)
      = (s.resetChunkStream cs).tidy := by
  have htwice : (s.resetChunkStream cs).tidy.resetChunkStream cs = (s.resetChunkStream cs).tidy := by
    rw [resetChunkStream, resetChunkStream, tidy_putChunkStream, ChunkStream.clean_reset,
      putChunkStream_putChunkStream]
  have hphase : settle (s.resetChunkStream cs).tidy.clientPhase
      = (s.resetChunkStream cs).tidy.clientPhase := settle_settle _
  rw [htwice, hphase]
  rfl

theorem handleRtmpControlMessage_tidy (s : RtmpSessionBase) (cs : ChunkStream)
    : (s.tidy.putChunkStream cs).handleRtmpControlMessage cs
      = (s.handleRtmpControlMessage cs).map fun (t, sent) => (t.tidy.putChunkStream cs, sent) := by
  simp only [handleRtmpControlMessage]
  repeat' split
  all_goals rfl

theorem commandPhase_settle {s : RtmpSessionBase} {cs : ChunkStream} (hintime : s.InTime cs)
    (hamf : cs.typeId = rtmpCommandMessagesAmf0)
    : (commandPhase s.req.publishFlag (settle s.clientPhase) cs.chunkData).map settle
      = (commandPhase s.req.publishFlag s.clientPhase cs.chunkData).map settle := by
  rcases hintime hamf with ⟨hcreates, hresult⟩
  by_cases hphase : s.clientPhase = .createStream
  . have hsettle : settle s.clientPhase = .createStreamResp := by rw [hphase]; rfl
    have hresult := hresult hphase
    rw [commandPhase, commandPhase, hsettle, hphase, handleServerCommandMessage_createStreamResp]
    cases hcommand : handleServerCommandMessage s.req.publishFlag .createStream cs.chunkData with
    | error fault => rfl
    | ok next =>
      rw [hresult next hcommand]
      rfl
  . have hsettle : settle s.clientPhase = s.clientPhase := by
      apply settle_of_not_sending
      simp [sending, hphase, hcreates]
    rw [hsettle]

theorem losslessHandle_tidy {s : RtmpSessionBase} {cs : ChunkStream}
    (hready : s.readyChunkStream = some cs) (hintime : s.InTime cs)
    : losslessHandle (s.tidy.putChunkStream cs) cs = ([cs], (s.handleReady cs).2.map tidy) := by
  have hfinish (t : RtmpSessionBase)
      : (((t.tidy.putChunkStream cs).resetChunkStream cs).resetChunkStream cs).setPhase
          (settle ((t.tidy.putChunkStream cs).resetChunkStream cs).clientPhase)
        = (t.resetChunkStream cs).tidy := by
    rw [resetChunkStream_tidy]
    exact losslessFinish_tidy t cs
  simp only [losslessHandle, Prod.mk.injEq, true_and]
  by_cases hctrl : isControlMessage cs
  . simp only [handleReady, if_pos hctrl, handleRtmpControlMessage_tidy]
    cases s.handleRtmpControlMessage cs with
    | none => rfl
    | some result => exact congrArg some (hfinish result.1)
  . by_cases hamf : cs.typeId = rtmpCommandMessagesAmf0
    . have hsettle := commandPhase_settle hintime hamf
      have hphase : (s.tidy.putChunkStream cs).clientPhase = settle s.clientPhase := rfl
      have hreq : (s.tidy.putChunkStream cs).req = s.req := rfl
      simp only [handleReady, if_neg hctrl, if_pos hamf, hphase, hreq]
      simp only [commandPhase] at hsettle
      cases hcommand : handleServerCommandMessage s.req.publishFlag s.clientPhase cs.chunkData with
      | error fault =>
        cases hcommand' : handleServerCommandMessage s.req.publishFlag (settle s.clientPhase)
          cs.chunkData with
        | error fault' => rfl
        | ok next' => simp [hcommand, hcommand', Except.map] at hsettle
      | ok next =>
        cases hcommand' : handleServerCommandMessage s.req.publishFlag (settle s.clientPhase)
          cs.chunkData with
        | error fault' => simp [hcommand, hcommand', Except.map] at hsettle
        | ok next' =>
          simp only [hcommand, hcommand', Except.map, Except.ok.injEq] at hsettle
          refine congrArg some ?_
          rw [← hfinish]
          -- the phases are all the two sides differ in
          change (((s.tidy.putChunkStream cs).resetChunkStream cs).resetChunkStream cs).setPhase
              (settle (if settle s.clientPhase = .createPlaypublishResp then .mediaHandle else next'))
            = (((s.tidy.putChunkStream cs).resetChunkStream cs).resetChunkStream cs).setPhase
              (settle (settle (if s.clientPhase = .createPlaypublishResp then .mediaHandle else next)))
          rw [settle_settle, hsettle]
    . by_cases hmedia : isMediaMessage cs
      . simp only [handleReady, if_neg hctrl, if_neg hamf, if_pos hmedia]
        cases getMediaPacket cs with
        | error fault => rfl
        | ok pkt =>
          simp only
          split
          . rfl
          . exact congrArg some (hfinish s)
      . simp only [handleReady, if_neg hctrl, if_neg hamf, if_neg hmedia]
        have hphase : settle (s.tidy.putChunkStream cs).clientPhase = s.tidy.clientPhase :=
          settle_settle s.clientPhase
        change some (((s.tidy.putChunkStream cs).resetChunkStream cs).setPhase
          (settle (s.tidy.putChunkStream cs).clientPhase)) = some s.tidy
        rw [resetChunkStream_tidy, tidy_resetChunkStream_of_ready hready, hphase]
        rfl

end Handling

section Simulation

/--
The messages a session handled.
-/
def messages (out : List ClientEvent) : List ChunkStream :=
  out.filterMap fun
    | .handled _ cs => some cs
    | _ => none

theorem messages_append (out out' : List ClientEvent)
    : messages (out ++ out') = messages out ++ messages out' := List.filterMap_append

theorem messages_handleReady (s : RtmpSessionBase) (cs : ChunkStream)
    : messages (s.handleReady cs).1 = [cs] := by
  have hfault (fault : ClientFault) : messages fault.events = [] := by
    rw [ClientFault.events]
    split
    . rfl
    . rfl
  have hfault' (fault : ClientFault)
      : messages (.handled s.clientPhase cs :: fault.events) = [cs] :=
    congrArg (cs :: ·) (hfault fault)
  simp only [handleReady]
  split
  . split
    . rfl
    . rfl
  . split
    . split
      . rfl
      . exact hfault' _
    . split
      . split
        . split
          . rfl
          . rfl
        . exact hfault' _
      . rfl

theorem losslessStep_stall {s t : RtmpSessionBase} (hclears : s.Clears)
    (hheader : s.beginChunk = none → s.recvBuffer = []) (h : s.readChunkStream = (.needReadMore, t))
    : losslessReader.step s.tidy = .stall t.tidy := by
  change losslessReceive s.tidy = _
  cases hbegin : s.beginChunk with
  | none =>
    have hready : s.fmtReady = false := by
      cases hready : s.fmtReady with
      | false => rfl
      | true => simp [beginChunk, hready] at hbegin
    have hsame : s.readChunkStream = (.needReadMore, s) := by
      simp [readChunkStream, hready, readFmtCsid, hheader hbegin]
    rw [hsame, Prod.mk.injEq] at h
    rw [losslessReceive_none (beginChunk_tidy_none hbegin), h.2]
  | some u =>
    rw [readChunkStream_of_beginChunk hbegin] at h
    rcases readMessage_tidy (hclears u hbegin) h with ⟨cs, _, htidy⟩
    rw [losslessReceive_some (beginChunk_tidy hbegin), htidy]
    rfl

theorem losslessStep_fail {s t : RtmpSessionBase} (hclears : s.Clears)
    (h : s.readChunkStream = (.error, t))
    : losslessReader.step s.tidy = .fail [] := by
  change losslessReceive s.tidy = _
  cases hbegin : s.beginChunk with
  | none =>
    rw [readChunkStream_of_beginChunk_none hbegin] at h
    simp at h
  | some u =>
    rw [readChunkStream_of_beginChunk hbegin] at h
    rcases readMessage_tidy (hclears u hbegin) h with ⟨cs, _, htidy⟩
    rw [losslessReceive_some (beginChunk_tidy hbegin), htidy]

theorem losslessStep_ok {s t : RtmpSessionBase} (hclears : s.Clears)
    (h : s.readChunkStream = (.ok, t))
    : ∃ cs, t.csPtr = some cs
      ∧ losslessReader.step s.tidy = dispatch losslessHandler (t.tidy.putChunkStream cs) := by
  cases hbegin : s.beginChunk with
  | none =>
    rw [readChunkStream_of_beginChunk_none hbegin] at h
    simp at h
  | some u =>
    rw [readChunkStream_of_beginChunk hbegin] at h
    rcases readMessage_tidy (hclears u hbegin) h with ⟨cs, hptr, htidy⟩
    refine ⟨cs, hptr, ?_⟩
    change losslessReceive s.tidy = _
    rw [losslessReceive_some (beginChunk_tidy hbegin), htidy]
    rfl

theorem losslessStep_unready {s t : RtmpSessionBase} (hclears : s.Clears)
    (h : s.readChunkStream = (.ok, t)) (hnone : t.readyChunkStream = none)
    : losslessReader.step s.tidy = .next t.tidy [] := by
  rcases losslessStep_ok hclears h with ⟨cs, hptr, hstep⟩
  have hready : cs.chunkReady = false := by
    simp only [readyChunkStream, hptr, Option.filter_some] at hnone
    cases hready : cs.chunkReady with
    | false => rfl
    | true => simp [ChunkStream.isReady, hready] at hnone
  have hput : t.tidy.putChunkStream cs = t.tidy := by
    have hkey : t.tidy.csMap t.tidy.csKey = some cs := by
      change (t.csPtr).map ChunkStream.clean = _
      rw [hptr, Option.map_some, ChunkStream.clean_of_not_ready hready]
    have : Function.update t.tidy.csMap t.tidy.csKey (some cs) = t.tidy.csMap := by
      rw [← hkey]
      exact Function.update_eq_self _ _
    simp only [putChunkStream, this]
  rw [hstep, dispatch, csPtr_putChunkStream, hput]
  simp [ChunkStream.isReady, hready]

theorem losslessStep_ready {s t : RtmpSessionBase} {cs : ChunkStream} (hclears : s.Clears)
    (h : s.readChunkStream = (.ok, t)) (hready : t.readyChunkStream = some cs)
    (hintime : t.InTime cs)
    : losslessReader.step s.tidy =
      match (t.handleReady cs).2 with
      | some u => .next u.tidy [cs]
      | none => .fail [cs] := by
  rcases losslessStep_ok hclears h with ⟨cs', hptr, hstep⟩
  have hcs := hready
  rw [readyChunkStream, Option.filter_eq_some_iff] at hcs
  have hsame : cs' = cs := by
    have := hptr.symm.trans hcs.1
    simpa using this
  rw [hsame] at hstep
  have hhandle : losslessHandler.handle (t.tidy.putChunkStream cs) cs
      = ([cs], (t.handleReady cs).2.map tidy) := losslessHandle_tidy hready hintime
  rw [hstep, dispatch, csPtr_putChunkStream]
  simp only [hcs.2, if_true, hhandle]
  cases (t.handleReady cs).2 with
  | none => rfl
  | some u => rfl

theorem losslessDrain_nil {s : RtmpSessionBase} (hbuffer : s.recvBuffer = [])
    (hready : s.fmtReady = false) : losslessReader.drain s = ([], some s) := by
  apply losslessReader.drain_stall
  apply losslessReceive_none
  simp [beginChunk, hready, readFmtCsid, hbuffer]

theorem Receives.lossless {start : ClientPhase} {s t : RtmpSessionBase} {ret : Ret}
    {out : List ClientEvent} (h : Receives losslessCondition start s ret out t)
    : losslessReader.drain s.tidy = (messages out, if ret = .error then none else some t.tidy) := by
  induction h with
  | @stalled s t ret hturn hread hret _ =>
    cases ret with
    | ok => exact absurd rfl hret
    | needReadMore => exact losslessReader.drain_stall (losslessStep_stall hturn.2 hturn.1 hread)
    | error => exact losslessReader.drain_fail (losslessStep_fail hturn.2 hread)
  | @drained s t hturn hread hnone hempty _ =>
    rw [losslessReader.drain_next (losslessStep_unready hturn.2 hread hnone),
      Incremental.Result.andThen_some,
      losslessDrain_nil (s := t.tidy) hempty (readChunkStream_rank_lt hread).1]
    rfl
  | unready hturn hread hnone _ _ ih =>
    rw [losslessReader.drain_next (losslessStep_unready hturn.2 hread hnone),
      Incremental.Result.andThen_some, ih]
    rfl
  | @refused s t cs out hturn hread hready hmessage hhandle =>
    have hstep := losslessStep_ready hturn.2 hread hready hmessage.2
    have hout := messages_handleReady t cs
    rw [hhandle] at hstep hout
    rw [losslessReader.drain_fail hstep, ← hout]
    rfl
  | @replied s t u cs out hturn hread hready hmessage hhandle hreply _ =>
    have hstep := losslessStep_ready hturn.2 hread hready hmessage.2
    have hout := messages_handleReady t cs
    have hframe := handleReady_frame hhandle
    have hfmt : u.tidy.fmtReady = false := hframe.2.1.trans (readChunkStream_rank_lt hread).1
    rw [hhandle] at hstep hout
    rw [losslessReader.drain_next hstep, Incremental.Result.andThen_some,
      losslessDrain_nil (s := u.tidy) hreply.2 hfmt, ← hout]
    simp
  | @handled s t u v cs ret out out' hturn hread hready hmessage hhandle _ _ ih =>
    have hstep := losslessStep_ready hturn.2 hread hready hmessage.2
    have hout := messages_handleReady t cs
    rw [hhandle] at hstep hout
    rw [losslessReader.drain_next hstep, Incremental.Result.andThen_some, ih, messages_append,
      ← hout]

end Simulation

section Runs

/--
The phases the messages of a read can lead to from the one it began in.
-/
inductive Leads : ClientPhase → ClientPhase → Prop where
  | same (phase : ClientPhase) : Leads phase phase
  | createStream : Leads .connectResp .createStream
  | createPlaypublish {phase : ClientPhase} (h : createsPlaypublish phase)
      : Leads .createStreamResp phase
  | mediaHandle : Leads .createPlaypublishResp .mediaHandle

theorem Leads.handleReady {start : ClientPhase} {s t : RtmpSessionBase} {cs : ChunkStream}
    {out : List ClientEvent} (h : Leads start s.clientPhase) (hstart : receiving start)
    (hintime : s.InTime cs) (hhandle : s.handleReady cs = (out, some t))
    : Leads start t.clientPhase := by
  rcases handleReady_phase hhandle with hphase | ⟨hamf, hcommand⟩
  . rw [hphase]
    exact h
  . rcases hintime hamf with ⟨hcreates, hresult⟩
    have hmoved := commandPhase_ok hcommand
    generalize hs : s.clientPhase = phase at h hcommand hcreates hresult hmoved
    cases h with
    | same =>
      rcases hmoved with hphase | ⟨hphase, hmedia⟩ | ⟨_, ⟨hphase, hmoved⟩ | ⟨hphase, hmoved⟩⟩
      . rw [hphase]
        exact .same start
      . rw [hphase, hmedia]
        exact .mediaHandle
      . rw [hmoved]
        cases start
        all_goals simp [awaitsConnect, receiving] at hphase hstart
        exact .createStream
      . rw [hmoved]
        cases start
        all_goals simp [awaitsCreateStream, receiving] at hphase hstart
        apply Leads.createPlaypublish
        rw [playpublishPhase]
        split
        . rfl
        . rfl
    | createStream =>
      rw [commandPhase] at hcommand
      cases hnext : handleServerCommandMessage s.req.publishFlag .createStream cs.chunkData with
      | error fault => simp [hnext, Except.map] at hcommand
      | ok next =>
        simp only [hnext, Except.map, Except.ok.injEq] at hcommand
        rw [← hcommand, hresult rfl next hnext]
        exact .createStream
    | createPlaypublish h => exact absurd h hcreates
    | mediaHandle =>
      rcases hmoved with hphase | ⟨hphase, hmedia⟩ | ⟨_, ⟨hphase, _⟩ | ⟨hphase, _⟩⟩
      . rw [hphase]
        exact .mediaHandle
      . simp at hphase
      . simp [awaitsConnect] at hphase
      . simp [awaitsCreateStream] at hphase

theorem Receives.leads {start : ClientPhase} {s t : RtmpSessionBase} {ret : Ret}
    {out : List ClientEvent} (h : Receives losslessCondition start s ret out t)
    (hstart : receiving start) (hleads : Leads start s.clientPhase) (hret : ret ≠ .error)
    : Leads start t.clientPhase ∧ losslessCondition.finish start ret t := by
  have hkeep {s t : RtmpSessionBase} {ret : Ret} (hread : s.readChunkStream = (ret, t))
      (hleads : Leads start s.clientPhase) : Leads start t.clientPhase := by
    have hframe := (readChunkStream_frame s).2.2
    rw [hread] at hframe
    rw [hframe]
    exact hleads
  induction h with
  | stalled _ hread _ hfinish => exact ⟨hkeep hread hleads, hfinish⟩
  | drained _ hread _ _ hfinish => exact ⟨hkeep hread hleads, hfinish⟩
  | unready _ hread _ _ _ ih => exact ih (hkeep hread hleads) hret
  | refused => exact absurd rfl hret
  | replied _ hread _ hmessage hhandle _ hfinish =>
    exact ⟨(hkeep hread hleads).handleReady hstart hmessage.2 hhandle, hfinish⟩
  | handled _ hread _ hmessage hhandle _ _ ih =>
    exact ih ((hkeep hread hleads).handleReady hstart hmessage.2 hhandle) hret

theorem tidy_setPhase {s : RtmpSessionBase} {phase : ClientPhase} (hbuffer : s.recvBuffer = [])
    (hphase : settle phase = settle s.clientPhase)
    : (s.resetRecvBuffer.setPhase phase).tidy = s.tidy := by
  simp only [tidy, setPhase, resetRecvBuffer, hphase, ← hbuffer]

theorem commandSent_tidy {s : RtmpSessionBase} {event : Option ClientEvent} {phase : ClientPhase}
    (hevent : ∃ command buffers, event = some (.sent command buffers))
    (hbuffer : s.recvBuffer = []) (hphase : settle phase = settle s.clientPhase)
    (hreceiving : receiving phase)
    : messages (commandSent event (s.resetRecvBuffer.setPhase phase)).1 = []
      ∧ ∃ t, (commandSent event (s.resetRecvBuffer.setPhase phase)).2 = some t ∧ t.tidy = s.tidy
        ∧ receiving t.clientPhase := by
  rcases hevent with ⟨command, buffers, hevent⟩
  rw [hevent]
  exact ⟨rfl, _, rfl, tidy_setPhase hbuffer hphase, hreceiving⟩

theorem sendCommand_sent {s : RtmpSessionBase} (command : ClientCommand) (body : List UInt8)
    (h : s.chunkSize ≠ 0) : ∃ buffers, s.sendCommand command body = some (.sent command buffers) := by
  rw [sendCommand, if_neg (by exact h)]
  exact ⟨_, rfl⟩

theorem afterReply_lossless {start : ClientPhase} {s : RtmpSessionBase}
    (hleads : Leads start s.clientPhase) (hstart : receiving start) (hbuffer : s.recvBuffer = [])
    (hfinish : losslessCondition.finish start .ok s)
    : messages (s.afterReply start).1 = []
      ∧ ∃ t, (s.afterReply start).2 = some t ∧ t.tidy = s.tidy ∧ receiving t.clientPhase := by
  have hwaiting : ¬waiting s.clientPhase := hfinish.1
  have hsize : sending s.clientPhase → s.chunkSize ≠ 0 := hfinish.2
  generalize hs : s.clientPhase = phase at hleads hwaiting hsize
  cases hleads with
  | same =>
    have hmedia := mediaHandle_of_receiving hstart hwaiting
    subst hmedia
    exact ⟨rfl, s, rfl, rfl, by rw [hs]; rfl⟩
  | createStream =>
    rcases sendCommand_sent .createStream (encodeString (bytesOf "createStream")
      ++ encodeNumber (transid s.req.transactionId) ++ encodeNull) (hsize rfl) with ⟨buffers, hsent⟩
    exact commandSent_tidy ⟨_, buffers, hsent⟩ hbuffer (by rw [hs]; rfl) rfl
  | createPlaypublish hcreates =>
    have hevent : ∃ command buffers, s.rtmpPlaypublish = some (.sent command buffers) := by
      have hsize := hsize (by simp [sending, hcreates])
      rw [rtmpPlaypublish]
      split
      . exact ⟨_, sendCommand_sent _ _ hsize⟩
      . exact ⟨_, sendCommand_sent _ _ hsize⟩
    apply commandSent_tidy hevent hbuffer _ rfl
    rw [hs]
    revert hcreates
    cases phase
    all_goals decide
  | mediaHandle => exact ⟨rfl, _, rfl, tidy_setPhase hbuffer (by rw [hs]), rfl⟩

theorem receiving_of_leads {start phase : ClientPhase} (h : Leads start phase)
    (hstart : receiving start) (hsending : ¬sending phase) : receiving phase := by
  cases h with
  | same => exact hstart
  | createStream => exact absurd rfl hsending
  | createPlaypublish h => simp [sending, h] at hsending
  | mediaHandle => rfl

theorem onRead_lossless {s : RtmpSessionBase} {data : List UInt8} (hphase : receiving s.clientPhase)
    (hmeets : ReadMeets losslessCondition s data)
    : messages (s.onRead data).1 = (losslessReader.drain (s.tidy.feed data)).1
      ∧ (s.onRead data).2.map tidy = (losslessReader.drain (s.tidy.feed data)).2
      ∧ ∀ t ∈ (s.onRead data).2, receiving t.clientPhase := by
  rw [ReadMeets, if_pos hphase] at hmeets
  rcases hmeets with ⟨ret, out, t, hreceives⟩
  rw [onRead_receives hphase hreceives, ← tidy_feed, hreceives.lossless]
  have hleads := hreceives.leads hphase (.same s.clientPhase)
  cases ret with
  | ok =>
    have hleads := hleads (by simp)
    rcases afterReply_lossless hleads.1 hphase hreceives.ok.1 hleads.2 with ⟨hout, u, hu, htidy, hrec⟩
    simp only [Incremental.Result.andThen_some, messages_append, hout, hu, List.append_nil]
    refine ⟨trivial, ?_, ?_⟩
    . rw [Option.map_some, htidy]
      rfl
    . intro v hv
      simp only [Option.mem_def, Option.some.injEq] at hv
      rw [← hv]
      exact hrec
  | needReadMore =>
    have hleads := hleads (by simp)
    refine ⟨rfl, rfl, ?_⟩
    intro v hv
    simp only [Option.mem_def, Option.some.injEq] at hv
    rw [← hv]
    exact receiving_of_leads hleads.1 hphase hleads.2
  | error => exact ⟨rfl, rfl, by simp⟩

theorem runClient_losslessRun {s : RtmpSessionBase} {reads : List (List UInt8)}
    (hphase : receiving s.clientPhase) (hmeets : RunMeets losslessCondition s reads)
    : messages (s.runClient reads).1 = (losslessReader.run s.tidy reads).1
      ∧ (s.runClient reads).2.map clientPhase
        = (losslessReader.run s.tidy reads).2.map clientPhase := by
  induction reads generalizing s with
  | nil =>
    refine ⟨rfl, ?_⟩
    have : settle s.clientPhase = s.clientPhase := by
      revert hphase
      cases s.clientPhase
      all_goals decide
    simp only [runClient, Incremental.Reader.run, Option.map_some, tidy, this]
  | cons data reads ih =>
    have hread := onRead_lossless hphase hmeets.1
    have hfeed : losslessReader.feed s.tidy data = s.tidy.feed data := rfl
    rw [runClient, Incremental.Reader.run, hfeed]
    rcases hdrain : losslessReader.drain (s.tidy.feed data) with ⟨out', result⟩
    rcases hdata : s.onRead data with ⟨out, _ | t⟩
    . simp only [hdata, hdrain, Option.map_none] at hread
      rw [← hread.2.1, Incremental.Result.andThen_none, Incremental.Result.andThen_none]
      exact ⟨hread.1, rfl⟩
    . simp only [hdata, hdrain, Option.map_some] at hread
      have hrest := ih (hread.2.2 t rfl) (hmeets.2 t (by rw [hdata]; rfl))
      rw [← hread.2.1, Incremental.Result.andThen_some, Incremental.Result.andThen_some]
      exact ⟨by rw [messages_append, hread.1, hrest.1], hrest.2⟩

end Runs

section Connection

/--
What a run comes to: the messages handled and the phase at its end, if the session was not closed.
-/
def outcome (result : Incremental.Result RtmpSessionBase ClientEvent)
    : List ChunkStream × Option ClientPhase := (messages result.1, result.2.map clientPhase)

/--
What the bytes of a connection come to when none of them is lost: behind the handshake reply every
complete message is handled.
-/
def lossless (req : RtmpRequest) (bytes : List UInt8) : List ChunkStream × Option ClientPhase :=
  if bytes.length < s0s1s2Size then
    ([], some .c0c1)
  else if bytes.head? ≠ some rtmpHandshakeVersion then
    ([], none)
  else
    let result := losslessReader.drain ((handshaken req).feed (bytes.drop s0s1s2Size))
    (result.1, result.2.map clientPhase)

theorem runClient_handshaken (req : RtmpRequest) (reads : List (List UInt8))
    (hmeets : RunMeets losslessCondition (handshaken req) reads)
    : outcome ((handshaken req).runClient reads)
      = ((losslessReader.drain ((handshaken req).feed reads.flatten)).1,
        (losslessReader.drain ((handshaken req).feed reads.flatten)).2.map clientPhase) := by
  have htidy : (handshaken req).tidy = handshaken req := rfl
  have hquiet : losslessReader.Quiet (handshaken req) := rfl
  have hrun := runClient_losslessRun (s := handshaken req) rfl hmeets
  have hsafe := Incremental.Reader.safe_of_forall_fits (R := losslessReader) (fun _ => trivial)
  rw [htidy, losslessReader.run_eq_drain _ reads hquiet (hsafe _)] at hrun
  exact Prod.ext hrun.1 hrun.2

theorem runClient_c0c1 (req : RtmpRequest) (received : List UInt8) (reads : List (List UInt8))
    (hreceived : received.length < s0s1s2Size)
    (hmeets : RunMeets losslessCondition ((onConnect req).feed received) reads)
    : outcome (((onConnect req).feed received).runClient reads)
      = lossless req (received ++ reads.flatten) := by
  induction reads generalizing received with
  | nil => simp [runClient, outcome, messages, lossless, hreceived, feed, onConnect]
  | cons data reads ih =>
    have hbuffer : ((onConnect req).feed received).recvBuffer = received := rfl
    have hread := onRead_c0c1 (s := (onConnect req).feed received) data rfl
    have hdata := hmeets.1
    have hnot : ¬receiving ((onConnect req).feed received).clientPhase := by
      change ¬receiving .c0c1
      decide
    rw [ReadMeets, if_neg hnot] at hdata
    have hle : (received ++ data).length ≤ s0s1s2Size := hdata rfl
    rw [hbuffer] at hread
    rw [List.flatten_cons, ← List.append_assoc]
    by_cases hshort : (received ++ data).length < s0s1s2Size
    . rw [if_pos hshort, ← feed_append] at hread
      have hrest := hmeets.2 ((onConnect req).feed (received ++ data)) (by rw [hread]; rfl)
      rw [runClient, hread, Incremental.Result.andThen_some]
      exact ih (received ++ data) hshort hrest
    . rw [if_neg hshort] at hread
      have hlong : ¬(received ++ data ++ reads.flatten).length < s0s1s2Size := by
        rw [List.length_append]
        omega
      have hhead : (received ++ data ++ reads.flatten).head? = (received ++ data).head? := by
        apply List.head?_append_of_ne_nil
        intro hnil
        rw [hnil] at hshort
        exact hshort (by decide)
      rw [lossless, if_neg hlong, hhead]
      by_cases hversion : (received ++ data).head? ≠ some rtmpHandshakeVersion
      . rw [if_pos hversion] at hread
        rw [if_pos hversion, runClient, hread, Incremental.Result.andThen_none]
        rfl
      . rw [if_neg hversion] at hread
        -- the handshake reply ended with this read
        have hdrop : (received ++ data ++ reads.flatten).drop s0s1s2Size = reads.flatten := by
          apply List.drop_left'
          omega
        have hconnect : ∃ buffers, (onConnect req).rtmpConnect = some (.sent .connect buffers) :=
          sendCommand_sent .connect _ (by change chunkDefSize ≠ 0; decide)
        rcases hconnect with ⟨buffers, hconnect⟩
        have hsent : ((onConnect req).feed received).onRead data
            = ([.sent .connect buffers], some (handshaken req)) := by
          rw [hread]
          change commandSent (onConnect req).rtmpConnect _ = _
          rw [hconnect]
          rfl
        have hrest := runClient_handshaken req reads
          (hmeets.2 (handshaken req) (by rw [hsent]; rfl))
        rw [if_neg hversion, hdrop, runClient, hsent, Incremental.Result.andThen_some]
        exact hrest

/--
Where the bytes of a connection are cut makes no difference, and no message is lost or handled twice.
-/
theorem runClient_lossless (req : RtmpRequest) (reads reads' : List (List UInt8))
    (hsame : reads.flatten = reads'.flatten)
    (h : RunMeets losslessCondition (onConnect req) reads)
    (h' : RunMeets losslessCondition (onConnect req) reads')
    : outcome ((onConnect req).runClient reads) = lossless req reads.flatten
      ∧ outcome ((onConnect req).runClient reads') = outcome ((onConnect req).runClient reads) := by
  have hconnect : (onConnect req).feed [] = onConnect req := feed_nil _
  have hreads := runClient_c0c1 req [] reads (by decide) (by rw [hconnect]; exact h)
  have hreads' := runClient_c0c1 req [] reads' (by decide) (by rw [hconnect]; exact h')
  rw [hconnect, List.nil_append] at hreads hreads'
  rw [hreads, hreads', hsame]
  exact ⟨rfl, rfl⟩

/--
The handshake reply of a server whose random bytes are 0.
-/
def handshakeReply : List UInt8 := rtmpHandshakeVersion :: List.replicate (s0s1s2Size - 1) 0

theorem length_handshakeReply : handshakeReply.length = s0s1s2Size := by
  rw [handshakeReply, List.length_cons, List.length_replicate]
  rfl

theorem onRead_handshakeReply (rest : List UInt8)
    : ∃ buffers, (onConnect {}).onRead (handshakeReply ++ rest)
      = ([.sent .connect buffers], some (handshaken {})) := by
  rcases sendCommand_sent (s := onConnect {}) .connect
    (encodeString (bytesOf "connect") ++ encodeNumber (transid (onConnect {}).req.transactionId)
      ++ encodeStrings
        [(bytesOf "app", (onConnect {}).req.app), (bytesOf "flashVer", bytesOf "FMS.3.1"),
          (bytesOf "tcUrl", (onConnect {}).req.tcurl), (bytesOf "type", bytesOf "nonprivate")])
    (by decide) with ⟨buffers, hconnect⟩
  have hlong : ¬([] ++ (handshakeReply ++ rest)).length < s0s1s2Size := by
    rw [List.nil_append, List.length_append, length_handshakeReply]
    omega
  have hversion : ¬([] ++ (handshakeReply ++ rest)).head? ≠ some rtmpHandshakeVersion :=
    fun hne => hne rfl
  refine ⟨buffers, ?_⟩
  rw [onRead_c0c1 _ rfl]
  have hbuffer : (onConnect {}).recvBuffer = [] := rfl
  rw [hbuffer, if_neg hlong, if_neg hversion, rtmpConnect, hconnect]
  rfl

set_option maxRecDepth 4096 in
theorem resultMessage_meets : ReadMeets losslessCondition (handshaken {}) resultMessage := by
  have hitems : decodeItems 10 (encodeString (bytesOf "_result"))
      = .ok [.string (bytesOf "_result")] := rfl
  let cs : ChunkStream :=
    { msgLen := 10, typeId := rtmpCommandMessagesAmf0, csid := 3,
      chunkData := encodeString (bytesOf "_result"), chunkReady := true }
  refine ⟨.ok, _, _, @Receives.replied _ _ _ _ _ cs _ ⟨?_, ?_⟩ rfl rfl ⟨?_, ?_⟩ rfl
    ⟨by decide, rfl⟩ ⟨?_, ?_⟩⟩
  . intro hnone
    cases hnone
  . intro t ht
    obtain rfl := Option.some.inj ht
    intro hready
    cases hready
  . refine ⟨fun _ => ?_, by decide⟩
    change decodeItems 10 (encodeString (bytesOf "_result")) ≠ _
    simp [hitems]
  . intro _
    refine ⟨(by decide : ¬createsPlaypublish .connectResp), ?_⟩
    intro hphase
    cases hphase
  . exact (by decide : ¬waiting .createStream)
  . exact fun _ => (by decide : chunkDefSize ≠ 0)

/--
The handshake reply arrives at once or in two reads.
-/
theorem runClient_lossless_sample
    : outcome ((onConnect {}).runClient [handshakeReply, resultMessage])
        = lossless {} [handshakeReply, resultMessage].flatten
      ∧ outcome ((onConnect {}).runClient [[rtmpHandshakeVersion], handshakeReply.tail, resultMessage])
        = outcome ((onConnect {}).runClient [handshakeReply, resultMessage]) := by
  rcases onRead_handshakeReply [] with ⟨buffers, hreply⟩
  rw [List.append_nil] at hreply
  have hresult : RunMeets losslessCondition (handshaken {}) [resultMessage] :=
    ⟨resultMessage_meets, fun _ _ => trivial⟩
  have hfirst : (onConnect {}).onRead [rtmpHandshakeVersion]
      = ([], some ((onConnect {}).feed [rtmpHandshakeVersion])) := rfl
  have hsecond : ((onConnect {}).feed [rtmpHandshakeVersion]).onRead handshakeReply.tail
      = (onConnect {}).onRead handshakeReply := rfl
  have hother (s : RtmpSessionBase) (data : List UInt8) (hphase : s.clientPhase = .c0c1)
      (hle : (s.recvBuffer ++ data).length ≤ s0s1s2Size) : ReadMeets losslessCondition s data := by
    rw [ReadMeets, if_neg (by rw [hphase]; decide)]
    exact fun _ => hle
  apply runClient_lossless {} [handshakeReply, resultMessage]
    [[rtmpHandshakeVersion], handshakeReply.tail, resultMessage] rfl
  . refine ⟨hother _ _ rfl (Nat.le_of_eq length_handshakeReply), ?_⟩
    intro t ht
    rw [hreply, Option.mem_def, Option.some.injEq] at ht
    rw [← ht]
    exact hresult
  . refine ⟨hother _ _ rfl (by decide), ?_⟩
    intro t ht
    rw [hfirst, Option.mem_def, Option.some.injEq] at ht
    rw [← ht]
    refine ⟨hother _ _ rfl (Nat.le_of_eq length_handshakeReply), ?_⟩
    intro u hu
    rw [hsecond, hreply, Option.mem_def, Option.some.injEq] at hu
    rw [← hu]
    exact hresult

def windowAckSize : List UInt8 := serverMessage rtmpControlWindowAckSize (write4Bytes 2500000)

/--
A message that arrives together with the end of the handshake reply is lost.
-/
theorem runClient_not_lossless
    : ¬∀ req reads reads', reads.flatten = reads'.flatten →
        outcome ((onConnect req).runClient reads) = outcome ((onConnect req).runClient reads') := by
  intro h
  have hsame := h {} [handshakeReply ++ windowAckSize] [handshakeReply, windowAckSize] (by simp)
  rcases onRead_handshakeReply windowAckSize with ⟨buffers, hjoined⟩
  rcases onRead_handshakeReply [] with ⟨buffers', hreply⟩
  rw [List.append_nil] at hreply
  have hlost : messages ((onConnect {}).runClient [handshakeReply ++ windowAckSize]).1 = [] := by
    rw [runClient, hjoined]
    rfl
  have hhandled : messages ((onConnect {}).runClient [handshakeReply, windowAckSize]).1
      = messages ((handshaken {}).runClient [windowAckSize]).1 := by
    have hsent : messages [ClientEvent.sent .connect buffers'] = [] := rfl
    rw [runClient, hreply, Incremental.Result.andThen_some, messages_append, hsent, List.nil_append]
  have hmessages := congrArg Prod.fst hsame
  rw [outcome, outcome, hlost, hhandled] at hmessages
  exact absurd hmessages (by decide)

end Connection

end RtmpSessionBase

end Rtmp
