import CppStreamer.Net.Rtmp.ClientSession

/-!
This module contains what a read callback of the client session comes to in each phase, and conditions
on the reads of a run.
-/

namespace Rtmp

open Amf

namespace RtmpSessionBase

/--
The session behind the basic header of the next chunk, when this header is complete.
-/
def beginChunk (s : RtmpSessionBase) : Option RtmpSessionBase :=
  if s.fmtReady then
    some s
  else
    match s.readFmtCsid with
    | (.ok, t) => some { t with fmtReady := true }
    | _ => none

theorem readFmtCsid_ne_error (s t : RtmpSessionBase) : s.readFmtCsid ≠ (.error, t) := by
  simp only [readFmtCsid]
  repeat' split
  all_goals simp

theorem readChunkStream_of_beginChunk {s t : RtmpSessionBase} (h : s.beginChunk = some t)
    : s.readChunkStream = t.readMessage := by
  simp only [beginChunk] at h
  simp only [readChunkStream]
  split at h
  . next hready =>
    simp only [Option.some.injEq] at h
    rw [if_pos hready, h]
  . next hready =>
    rw [if_neg hready]
    split at h
    . next hfmt =>
      simp only [Option.some.injEq] at h
      simp only [hfmt, h]
    . simp at h

theorem readChunkStream_of_beginChunk_none {s : RtmpSessionBase} (h : s.beginChunk = none)
    : s.readChunkStream = (.needReadMore, s.readFmtCsid.2) := by
  simp only [beginChunk] at h
  simp only [readChunkStream]
  split at h
  . simp at h
  . next hready =>
    rw [if_neg hready]
    rcases hfmt : s.readFmtCsid with ⟨ret, t⟩
    cases ret with
    | ok => simp [hfmt] at h
    | needReadMore => rfl
    | error => exact absurd hfmt (readFmtCsid_ne_error s t)

theorem handleReady_frame {s t : RtmpSessionBase} {cs : ChunkStream} {out : List ClientEvent}
    (h : s.handleReady cs = (out, some t))
    : t.recvBuffer = s.recvBuffer ∧ t.fmtReady = s.fmtReady ∧ t.req = s.req := by
  simp only [handleReady] at h
  split at h
  . split at h
    . next hctrl =>
      have := handleRtmpControlMessage_frame hctrl
      simp only [Prod.mk.injEq, Option.some.injEq] at h
      rw [← h.2]
      exact ⟨this.1, this.2.1, this.2.2.2.2.2⟩
    . simp at h
  . repeat' split at h
    all_goals
      simp only [Prod.mk.injEq, Option.some.injEq, reduceCtorEq, and_false] at h
      try
        rw [← h.2]
        exact ⟨rfl, rfl, rfl⟩

/--
The phase a command leads to, which is the media phase when the play or publish response is awaited.
-/
def commandPhase (publish : Bool) (phase : ClientPhase) (data : List UInt8)
    : Except ClientFault ClientPhase :=
  (handleServerCommandMessage publish phase data).map fun next =>
    if phase = .createPlaypublishResp then .mediaHandle else next

theorem handleReady_phase {s t : RtmpSessionBase} {cs : ChunkStream} {out : List ClientEvent}
    (h : s.handleReady cs = (out, some t))
    : t.clientPhase = s.clientPhase
      ∨ (cs.typeId = rtmpCommandMessagesAmf0
        ∧ commandPhase s.req.publishFlag s.clientPhase cs.chunkData = .ok t.clientPhase) := by
  simp only [handleReady] at h
  split at h
  . split at h
    . next hctrl =>
      have hframe := handleRtmpControlMessage_frame hctrl
      simp only [Prod.mk.injEq, Option.some.injEq] at h
      rw [← h.2]
      exact .inl hframe.2.2.2.2.1
    . simp at h
  . split at h
    . next hamf =>
      split at h
      . next next hcommand =>
        simp only [Prod.mk.injEq, Option.some.injEq] at h
        rw [← h.2, commandPhase, hcommand]
        exact .inr ⟨hamf, rfl⟩
      . simp at h
    . split at h
      . repeat' split at h
        all_goals simp only [Prod.mk.injEq, Option.some.injEq, reduceCtorEq, and_false] at h
        rw [← h.2]
        exact .inl rfl
      . simp only [Prod.mk.injEq, Option.some.injEq] at h
        rw [← h.2]
        exact .inl rfl

/--
Conditions on the reads of a client: on the session before a chunk is read, on a session and the message
it is about to handle, on a session at the end of a read that began in some phase, by the code
`ReceiveRespMessage` returns, and on a session that does not wait for messages and got data.
-/
structure ReadCondition where
  turn : RtmpSessionBase → Prop
  message : RtmpSessionBase → ChunkStream → Prop
  finish : ClientPhase → Ret → RtmpSessionBase → Prop
  other : RtmpSessionBase → Prop

/--
Handling the message reads no byte behind its payload.
-/
def WithinBounds (cs : ChunkStream) : Prop :=
  (cs.typeId = rtmpCommandMessagesAmf0
      → decodeItems cs.chunkData.length cs.chunkData ≠ .error .overrun)
    ∧ (isMediaMessage cs → getMediaPacket cs ≠ .error (.stuck .overrun))

/--
The phases in which a response is awaited.
-/
def waiting (phase : ClientPhase) : Bool :=
  phase = .connectResp ∨ phase = .createStreamResp ∨ phase = .createPlaypublishResp

/--
The loop of `ReceiveRespMessage` turn by turn, with a condition met at each of them.
-/
inductive Receives (c : ReadCondition) (start : ClientPhase)
    : RtmpSessionBase → Ret → List ClientEvent → RtmpSessionBase → Prop where
  | stalled {s t : RtmpSessionBase} {ret : Ret} (hturn : c.turn s)
      (hread : s.readChunkStream = (ret, t)) (hret : ret ≠ .ok) (hfinish : c.finish start ret t)
      : Receives c start s ret [] t
  | drained {s t : RtmpSessionBase} (hturn : c.turn s) (hread : s.readChunkStream = (.ok, t))
      (hnone : t.readyChunkStream = none) (hempty : t.recvBuffer = [])
      (hfinish : c.finish start .needReadMore t)
      : Receives c start s .needReadMore [] t
  | unready {s t u : RtmpSessionBase} {ret : Ret} {out : List ClientEvent} (hturn : c.turn s)
      (hread : s.readChunkStream = (.ok, t)) (hnone : t.readyChunkStream = none)
      (hmore : t.recvBuffer ≠ []) (hrest : Receives c start t ret out u)
      : Receives c start s ret out u
  | refused {s t : RtmpSessionBase} {cs : ChunkStream} {out : List ClientEvent}
      (hturn : c.turn s) (hread : s.readChunkStream = (.ok, t))
      (hready : t.readyChunkStream = some cs) (hmessage : c.message t cs)
      (hhandle : t.handleReady cs = (out, none))
      : Receives c start s .error out t
  | replied {s t u : RtmpSessionBase} {cs : ChunkStream} {out : List ClientEvent}
      (hturn : c.turn s) (hread : s.readChunkStream = (.ok, t))
      (hready : t.readyChunkStream = some cs) (hmessage : c.message t cs)
      (hhandle : t.handleReady cs = (out, some u)) (hreply : isReply cs ∧ u.recvBuffer = [])
      (hfinish : c.finish start .ok u)
      : Receives c start s .ok out u
  | handled {s t u v : RtmpSessionBase} {cs : ChunkStream} {ret : Ret}
      {out out' : List ClientEvent} (hturn : c.turn s) (hread : s.readChunkStream = (.ok, t))
      (hready : t.readyChunkStream = some cs) (hmessage : c.message t cs)
      (hhandle : t.handleReady cs = (out, some u)) (hmore : ¬(isReply cs ∧ u.recvBuffer = []))
      (hrest : Receives c start u ret out' v)
      : Receives c start s ret (out ++ out') v

theorem Receives.total {c : ReadCondition} {start : ClientPhase} (hturn : ∀ s, c.turn s)
    (hmessage : ∀ s cs, c.message s cs) (hfinish : ∀ ret s, c.finish start ret s)
    (s : RtmpSessionBase) : ∃ ret out t, Receives c start s ret out t := by
  induction hn : 2 * s.recvBuffer.length + s.fmtReady.toNat using Nat.strongRecOn generalizing s with
  | ind n ih =>
    rcases hread : s.readChunkStream with ⟨ret, t⟩
    cases ret with
    | needReadMore => exact ⟨_, _, _, .stalled (hturn s) hread (by simp) (hfinish _ t)⟩
    | error => exact ⟨_, _, _, .stalled (hturn s) hread (by simp) (hfinish _ t)⟩
    | ok =>
      have hrank := readChunkStream_rank_lt hread
      cases hready : t.readyChunkStream with
      | none =>
        by_cases hempty : t.recvBuffer = []
        . exact ⟨_, _, _, .drained (hturn s) hread hready hempty (hfinish _ t)⟩
        . rcases ih _ (by rw [hrank.1, Bool.toNat_false]; omega) t rfl with ⟨ret, out, u, hrest⟩
          exact ⟨_, _, _, .unready (hturn s) hread hready hempty hrest⟩
      | some cs =>
        rcases hhandle : t.handleReady cs with ⟨out, _ | u⟩
        . exact ⟨_, _, _, .refused (hturn s) hread hready (hmessage t cs) hhandle⟩
        . have hframe := handleReady_frame hhandle
          by_cases hreply : isReply cs ∧ u.recvBuffer = []
          . exact ⟨_, _, _, .replied (hturn s) hread hready (hmessage t cs) hhandle hreply (hfinish _ u)⟩
          . rcases ih _ (by rw [hframe.1, hframe.2.1, hrank.1, Bool.toNat_false]; omega) u rfl with
              ⟨ret, out', v, hrest⟩
            exact ⟨_, _, _, .handled (hturn s) hread hready (hmessage t cs) hhandle hreply hrest⟩

section Stages

/--
A command was sent, unless the chunk size forbids it.
-/
def commandSent (event : Option ClientEvent) (s : RtmpSessionBase)
    : Incremental.Result RtmpSessionBase ClientEvent :=
  match event with
  | some event => ([event], some s)
  | none => ([], none)

@[simp]
theorem sendAndWait_andThen (event : Option ClientEvent) (phase : ClientPhase) (s : RtmpSessionBase)
    (next : RtmpSessionBase → Stage)
    : (sendAndWait event phase s).andThen next = sendAndWait event phase s := by
  cases event with
  | none => rfl
  | some event => rfl

@[simp]
theorem sendAndWait_result (event : Option ClientEvent) (phase : ClientPhase) (s : RtmpSessionBase)
    : (sendAndWait event phase s).result
      = commandSent event (s.resetRecvBuffer.setPhase phase) := by
  cases event with
  | none => rfl
  | some event => rfl

@[simp]
theorem Stage.returned_result (ret : Ret) (out : List ClientEvent) (s : RtmpSessionBase)
    : (Stage.returned ret out s).result = (out, if ret = .needReadMore then some s else none) := by
  cases ret with
  | ok => rfl
  | needReadMore => rfl
  | error => rfl

@[simp]
theorem Stage.returned_andThen (ret : Ret) (out : List ClientEvent) (s : RtmpSessionBase)
    (next : RtmpSessionBase → Stage)
    : (Stage.returned ret out s).andThen next = .returned ret out s := rfl

@[simp]
theorem Stage.prepend_nil (stage : Stage) : stage.prepend [] = stage := by
  cases stage with
  | returned ret out s => rfl
  | passed out s => rfl

@[simp]
theorem Stage.passed_andThen (out : List ClientEvent) (s : RtmpSessionBase)
    (next : RtmpSessionBase → Stage)
    : (Stage.passed out s).andThen next = (next s).prepend out := rfl

@[simp]
theorem Stage.prepend_andThen (out : List ClientEvent) (stage : Stage)
    (next : RtmpSessionBase → Stage)
    : (stage.prepend out).andThen next = (stage.andThen next).prepend out := by
  cases stage with
  | returned ret out' s => rfl
  | passed out' s =>
    simp only [Stage.prepend, Stage.andThen]
    cases next s with
    | returned ret out'' t => simp
    | passed out'' t => simp

@[simp]
theorem Stage.result_prepend (out : List ClientEvent) (stage : Stage)
    : (stage.prepend out).result = (out ++ stage.result.1, stage.result.2) := by
  cases stage with
  | returned ret out' t =>
    cases ret with
    | ok => rfl
    | needReadMore => rfl
    | error => rfl
  | passed out' t => rfl

@[simp]
theorem setPhase_clientPhase (s : RtmpSessionBase) (phase : ClientPhase)
    : (s.setPhase phase).clientPhase = phase := rfl

@[simp]
theorem resetRecvBuffer_clientPhase (s : RtmpSessionBase)
    : s.resetRecvBuffer.clientPhase = s.clientPhase := rfl

theorem handleResp_ne {s : RtmpSessionBase} {phase : ClientPhase}
    {next : RtmpSessionBase → RtmpSessionBase} (h : s.clientPhase ≠ phase)
    : handleResp phase next s = .passed [] s := if_neg h

theorem handleResp_eq {s : RtmpSessionBase} {phase : ClientPhase}
    {next : RtmpSessionBase → RtmpSessionBase} (h : s.clientPhase = phase)
    : handleResp phase next s =
      match s.receiveRespMessage with
      | (.ok, out, s) => .passed out (next s)
      | (ret, out, s) => .returned ret out s := if_pos h

end Stages

section Phases

variable {c : ReadCondition} {start : ClientPhase}

theorem Receives.receiveLoop_eq {s t : RtmpSessionBase} {ret : Ret} {out : List ClientEvent}
    (h : Receives c start s ret out t) (fuel : Nat)
    (hfuel : 2 * s.recvBuffer.length + s.fmtReady.toNat < fuel)
    : receiveLoop fuel s = (ret, out, t) := by
  induction h generalizing fuel with
  | stalled _ hread hret _ =>
    cases fuel with
    | zero => omega
    | succ fuel =>
      rw [receiveLoop, hread]
      split
      . next heq => simp_all
      . next heq => simp_all
  | drained _ hread hnone hempty _ =>
    cases fuel with
    | zero => omega
    | succ fuel =>
      rw [receiveLoop, hread]
      simp only [hnone, hempty, if_true]
  | unready _ hread hnone hmore _ ih =>
    have hlt := readChunkStream_rank_lt hread
    cases fuel with
    | zero => omega
    | succ fuel =>
      rw [receiveLoop, hread]
      simp only [hnone, if_neg hmore]
      exact ih fuel (by rw [hlt.1, Bool.toNat_false]; omega)
  | refused _ hread hready _ hhandle =>
    cases fuel with
    | zero => omega
    | succ fuel =>
      rw [receiveLoop, hread]
      simp only [hready, hhandle]
  | replied _ hread hready _ hhandle hreply _ =>
    cases fuel with
    | zero => omega
    | succ fuel =>
      rw [receiveLoop, hread]
      simp only [hready, hhandle]
      rw [if_pos hreply]
  | handled _ hread hready _ hhandle hmore _ ih =>
    have hlt := readChunkStream_rank_lt hread
    have hframe := handleReady_frame hhandle
    cases fuel with
    | zero => omega
    | succ fuel =>
      rw [receiveLoop, hread]
      simp only [hready, hhandle]
      rw [if_neg hmore, ih fuel (by rw [hframe.1, hframe.2.1, hlt.1, Bool.toNat_false]; omega)]

theorem Receives.receiveRespMessage_eq {s t : RtmpSessionBase} {ret : Ret} {out : List ClientEvent}
    (h : Receives c start s ret out t)
    : s.receiveRespMessage = (ret, out, t) := by
  have := s.fmtReady.toNat_le
  exact h.receiveLoop_eq _ (by omega)

/--
After a reply everything received has been read.
-/
theorem Receives.ok {s t : RtmpSessionBase} {out : List ClientEvent}
    (h : Receives c start s .ok out t)
    : t.recvBuffer = [] ∧ t.fmtReady = false := by
  generalize hret : Ret.ok = ret at h
  induction h with
  | stalled _ _ hne _ => exact absurd hret.symm hne
  | drained => simp at hret
  | unready _ _ _ _ _ ih => exact ih hret
  | refused => simp at hret
  | replied _ hread _ _ hhandle hreply _ =>
    have hframe := handleReady_frame hhandle
    exact ⟨hreply.2, by rw [hframe.2.1, (readChunkStream_rank_lt hread).1]⟩
  | handled _ _ _ _ _ _ _ ih => exact ih hret

def rtmpPlaypublish (s : RtmpSessionBase) : Option ClientEvent :=
  if s.req.publishFlag then s.rtmpPublish else s.rtmpPlay

/--
What follows in `HandleMessage` when `ReceiveRespMessage` returns 0 in a phase.
-/
def afterReply (start : ClientPhase) (s : RtmpSessionBase)
    : Incremental.Result RtmpSessionBase ClientEvent :=
  match start with
  | .connectResp => commandSent s.rtmpCreatestream (s.resetRecvBuffer.setPhase .createStreamResp)
  | .createStreamResp =>
    commandSent s.rtmpPlaypublish (s.resetRecvBuffer.setPhase .createPlaypublishResp)
  | .createPlaypublishResp => ([], some (s.resetRecvBuffer.setPhase .mediaHandle))
  | _ => ([], some s)

/--
The phases in which messages are received.
-/
def receiving (phase : ClientPhase) : Bool :=
  phase = .connectResp ∨ phase = .createStreamResp ∨ phase = .createPlaypublishResp
    ∨ phase = .mediaHandle

theorem receiveRespMessage_nil {s : RtmpSessionBase} (hbuffer : s.recvBuffer = [])
    (hready : s.fmtReady = false)
    : s.receiveRespMessage = (.needReadMore, [], s) := by
  have : s.readChunkStream = (.needReadMore, s) := by
    simp [readChunkStream, hready, readFmtCsid, hbuffer]
  rw [receiveRespMessage, receiveLoop, this]

theorem onRead_receives {s t : RtmpSessionBase} {data : List UInt8} {ret : Ret}
    {out : List ClientEvent} (hphase : receiving s.clientPhase)
    (h : Receives c start (s.feed data) ret out t)
    : s.onRead data =
      match ret with
      | .ok => Incremental.Result.andThen (out, some t) (afterReply s.clientPhase)
      | .needReadMore => (out, some t)
      | .error => (out, none) := by
  have hfeed : (s.feed data).clientPhase = s.clientPhase := rfl
  have heq := h.receiveRespMessage_eq
  simp only [receiving, decide_eq_true_eq] at hphase
  cases ret with
  | ok =>
    have hdone := h.ok
    have hmedia : (t.setPhase .mediaHandle).resetRecvBuffer.receiveRespMessage
        = (.needReadMore, [], (t.setPhase .mediaHandle).resetRecvBuffer) :=
      receiveRespMessage_nil rfl hdone.2
    rcases hphase with hphase | hphase | hphase | hphase
    . have hsend : (t.setPhase .createStream).rtmpCreatestream = t.rtmpCreatestream := rfl
      simp [onRead, handleMessage, handleS0S1S2, handleConnectResp, handleResp_eq, hfeed, hphase,
        heq, handleCreateStream, hsend, afterReply]
      exact ⟨rfl, rfl⟩
    . cases hpublish : t.req.publishFlag with
      | true =>
        simp [onRead, handleMessage, handleS0S1S2, handleConnectResp, handleResp_ne,
          handleCreateStream, handleCreateStreamResp, handleResp_eq, hfeed, hphase, heq,
          playpublishPhase, hpublish, handleCreatePlay, handleCreatePublish, afterReply,
          rtmpPlaypublish]
        exact ⟨rfl, rfl⟩
      | false =>
        simp [onRead, handleMessage, handleS0S1S2, handleConnectResp, handleResp_ne,
          handleCreateStream, handleCreateStreamResp, handleResp_eq, hfeed, hphase, heq,
          playpublishPhase, hpublish, handleCreatePlay, afterReply, rtmpPlaypublish]
        exact ⟨rfl, rfl⟩
    . simp [onRead, handleMessage, handleS0S1S2, handleConnectResp, handleResp_ne,
        handleCreateStream, handleCreateStreamResp, handleCreatePlay, handleCreatePublish,
        handlePlaypublishResp, handleResp_eq, hfeed, hphase, heq, handleMedia, hmedia, afterReply]
      rfl
    . simp [onRead, handleMessage, handleS0S1S2, handleConnectResp, handleResp_ne,
        handleCreateStream, handleCreateStreamResp, handleCreatePlay, handleCreatePublish,
        handlePlaypublishResp, hfeed, hphase, heq, handleMedia, afterReply]
  | needReadMore =>
    rcases hphase with hphase | hphase | hphase | hphase
    all_goals
      simp [onRead, handleMessage, handleS0S1S2, handleConnectResp, handleCreateStream,
        handleCreateStreamResp, handleCreatePlay, handleCreatePublish, handlePlaypublishResp,
        handleMedia, handleResp, hfeed, hphase, heq]
  | error =>
    rcases hphase with hphase | hphase | hphase | hphase
    all_goals
      simp [onRead, handleMessage, handleS0S1S2, handleConnectResp, handleCreateStream,
        handleCreateStreamResp, handleCreatePlay, handleCreatePublish, handlePlaypublishResp,
        handleMedia, handleResp, hfeed, hphase, heq]

theorem onRead_createStream {s : RtmpSessionBase} (data : List UInt8)
    (hphase : s.clientPhase = .createStream)
    : s.onRead data
      = commandSent s.rtmpCreatestream (s.resetRecvBuffer.setPhase .createStreamResp) := by
  have hfeed : (s.feed data).clientPhase = .createStream := hphase
  simp [onRead, handleMessage, handleS0S1S2, handleConnectResp, handleResp_ne, handleCreateStream,
    hfeed]
  rfl

theorem onRead_createPlay {s : RtmpSessionBase} (data : List UInt8)
    (hphase : s.clientPhase = .createPlay)
    : s.onRead data
      = commandSent s.rtmpPlay (s.resetRecvBuffer.setPhase .createPlaypublishResp) := by
  have hfeed : (s.feed data).clientPhase = .createPlay := hphase
  simp [onRead, handleMessage, handleS0S1S2, handleConnectResp, handleResp_ne, handleCreateStream,
    handleCreateStreamResp, handleCreatePlay, hfeed]
  rfl

theorem onRead_createPublish {s : RtmpSessionBase} (data : List UInt8)
    (hphase : s.clientPhase = .createPublish)
    : s.onRead data
      = commandSent s.rtmpPublish (s.resetRecvBuffer.setPhase .createPlaypublishResp) := by
  have hfeed : (s.feed data).clientPhase = .createPublish := hphase
  simp [onRead, handleMessage, handleS0S1S2, handleConnectResp, handleResp_ne, handleCreateStream,
    handleCreateStreamResp, handleCreatePlay, handleCreatePublish, hfeed]
  rfl

/--
The handshake reply is complete with its last byte, what came with it is dropped.
-/
theorem onRead_c0c1 {s : RtmpSessionBase} (data : List UInt8) (hphase : s.clientPhase = .c0c1)
    : s.onRead data =
      if (s.recvBuffer ++ data).length < s0s1s2Size then ([], some (s.feed data))
      else if (s.recvBuffer ++ data).head? ≠ some rtmpHandshakeVersion then ([], none)
      else commandSent s.rtmpConnect (s.resetRecvBuffer.setPhase .connectResp) := by
  have hfeed : (s.feed data).clientPhase = .c0c1 := hphase
  simp only [onRead, handleMessage, handleS0S1S2, hfeed, if_true]
  have hbuffer : (s.feed data).recvBuffer = s.recvBuffer ++ data := rfl
  rw [hbuffer]
  split
  . simp
  . split
    . simp
    . simp
      rfl

end Phases

section Runs

variable (c : ReadCondition)

/--
A read that meets a condition, from its first byte to its end.
-/
def ReadMeets (s : RtmpSessionBase) (data : List UInt8) : Prop :=
  if receiving s.clientPhase then ∃ ret out t, Receives c s.clientPhase (s.feed data) ret out t
  else c.other (s.feed data)

def RunMeets (s : RtmpSessionBase) : List (List UInt8) → Prop
  | [] => True
  | data :: reads => ReadMeets c s data ∧ ∀ t ∈ (s.onRead data).2, RunMeets t reads

theorem RunMeets.total {c : ReadCondition} (hturn : ∀ s, c.turn s) (hmessage : ∀ s cs, c.message s cs)
    (hfinish : ∀ start ret s, c.finish start ret s) (hother : ∀ s, c.other s) (s : RtmpSessionBase)
    (reads : List (List UInt8)) : RunMeets c s reads := by
  induction reads generalizing s with
  | nil => trivial
  | cons data reads ih =>
    refine ⟨?_, fun t _ => ih t⟩
    unfold ReadMeets
    split
    . exact Receives.total hturn hmessage (hfinish _) _
    . apply hother

theorem RunMeets.append {c : ReadCondition} {s t : RtmpSessionBase} {first rest : List (List UInt8)}
    (h : RunMeets c s (first ++ rest)) (ht : t ∈ (s.runClient first).2) : RunMeets c t rest := by
  induction first generalizing s with
  | nil =>
    simp only [runClient, Option.mem_def, Option.some.injEq] at ht
    rw [← ht]
    exact h
  | cons data first ih =>
    rcases hread : s.onRead data with ⟨out, _ | u⟩
    . simp [runClient, hread] at ht
    . rw [runClient, hread] at ht
      exact ih (h.2 u (by rw [hread]; rfl)) ht

end Runs

end RtmpSessionBase

end Rtmp
