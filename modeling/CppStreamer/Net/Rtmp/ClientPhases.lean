import CppStreamer.Net.Rtmp.ClientRun

/-!
This module contains the conditions under which a client session only moves from phase to phase on the
responses it waits for, whatever else the server sends and wherever it is cut.
-/

namespace Rtmp

open ByteStream Amf

namespace ChunkStream

/--
A chunk stream holds a part of one message: what arrived and what is missing make up its length, unless
nothing of it arrived yet.
-/
structure Sound (cs : ChunkStream) : Prop where
  length : cs.chunkData.length + cs.remain = cs.msgLen
    ∨ (cs.remain = 0 ∧ cs.chunkData = [] ∧ cs.phase = .header)
  ready : cs.chunkReady → cs.remain = 0 ∧ cs.phase = .header ∧ cs.chunkData.length = cs.msgLen

/--
A message header arrives on a chunk stream that holds nothing of an earlier message.
-/
def StartsFresh (cs : ChunkStream) (fmt : Nat) : Prop :=
  cs.phase = .header → fmt ≠ 3 → cs.remain = 0 ∧ cs.chunkData = [] ∧ cs.chunkReady = false

/--
A message that arrived as a whole.
-/
def Whole (cs : ChunkStream) : Prop := cs.remain = 0 ∧ cs.chunkData.length = cs.msgLen

structure Filling (cs : ChunkStream) : Prop where
  phase : cs.phase = .payload
  ready : cs.chunkReady = false
  length : cs.chunkData.length + cs.remain = cs.msgLen

theorem Filling.sound {cs : ChunkStream} (h : cs.Filling) : cs.Sound := by
  refine ⟨.inl h.length, ?_⟩
  intro hready
  simp [h.ready] at hready

theorem Sound.filling {cs : ChunkStream} (h : cs.Sound) (hphase : cs.phase = .payload)
    : cs.Filling := by
  refine ⟨hphase, ?_, ?_⟩
  . cases hready : cs.chunkReady with
    | false => rfl
    | true => simp [(h.ready hready).2.1] at hphase
  . rcases h.length with hlength | hidle
    . exact hlength
    . simp [hidle.2.2] at hphase

theorem sound_new (fmt csid chunkSize : Nat) : (new fmt csid chunkSize).Sound :=
  ⟨.inr ⟨rfl, rfl, rfl⟩, by simp [new]⟩

theorem Sound.reset {cs : ChunkStream} (h : cs.Sound) (hready : cs.chunkReady)
    : cs.reset.Sound :=
  ⟨.inr ⟨(h.ready hready).1, rfl, rfl⟩, by simp [ChunkStream.reset]⟩

theorem Sound.whole {cs : ChunkStream} (h : cs.Sound) (hready : cs.chunkReady) : cs.Whole :=
  ⟨(h.ready hready).1, (h.ready hready).2.2⟩

theorem readMsgFormat_sound {cs cs' : ChunkStream} {fmt csid headerLen : Nat}
    {buffer rest : List UInt8} {ret : Ret} (assign : ChunkStream → Nat → List UInt8 → ChunkStream)
    (hassign : ∀ cs ts header, (assign cs ts header).remain = (assign cs ts header).msgLen
      ∧ (assign cs ts header).chunkData = cs.chunkData
      ∧ (assign cs ts header).chunkReady = cs.chunkReady)
    (h : cs.Sound) (hfresh : cs.remain = 0 ∧ cs.chunkData = [] ∧ cs.chunkReady = false)
    (hread : cs.readMsgFormat fmt csid buffer headerLen assign = (ret, cs', rest))
    : (ret = .ok → Filling { cs' with phase := .payload }) ∧ (ret = .needReadMore → cs'.Sound) := by
  simp only [readMsgFormat] at hread
  split at hread
  . simp only [Prod.mk.injEq] at hread
    rw [← hread.1, ← hread.2.1]
    exact ⟨by simp, fun _ => h⟩
  . split at hread
    . split at hread
      . simp only [Prod.mk.injEq] at hread
        rw [← hread.1, ← hread.2.1]
        exact ⟨by simp, fun _ => ⟨h.length, h.ready⟩⟩
      . simp only [Prod.mk.injEq] at hread
        rw [← hread.1, ← hread.2.1]
        refine ⟨fun _ => ⟨rfl, ?_, ?_⟩, by simp⟩
        . simp [hassign, hfresh]
        . simp [hassign, hfresh]
    . simp only [Prod.mk.injEq] at hread
      rw [← hread.1, ← hread.2.1]
      refine ⟨fun _ => ⟨rfl, ?_, ?_⟩, by simp⟩
      . simp [hassign, hfresh]
      . simp [hassign, hfresh]

theorem readMsgFormat3_sound {cs cs' : ChunkStream} {fmt csid : Nat} {buffer rest : List UInt8}
    {ret : Ret} (h : cs.Sound) (hread : cs.readMsgFormat3 fmt csid buffer = (ret, cs', rest))
    : (ret = .ok → Filling { cs' with phase := .payload }) ∧ (ret = .needReadMore → cs'.Sound) := by
  simp only [readMsgFormat3] at hread
  split at hread
  . -- a new message, the chunk stream is cleared
    split at hread
    . split at hread
      . simp only [Prod.mk.injEq] at hread
        rw [← hread.1, ← hread.2.1]
        exact ⟨by simp, fun _ => h⟩
      . simp only [Prod.mk.injEq] at hread
        rw [← hread.1, ← hread.2.1]
        exact ⟨fun _ => ⟨rfl, rfl, by simp [startMsgFormat3]⟩, by simp⟩
    . simp only [Prod.mk.injEq] at hread
      rw [← hread.1, ← hread.2.1]
      refine ⟨fun _ => ⟨rfl, rfl, ?_⟩, by simp⟩
      split
      . simp [startMsgFormat3]
      . simp [startMsgFormat3]
  . -- the next part of a message
    next hremain =>
    have hready : cs.chunkReady = false := by
      cases hready : cs.chunkReady with
      | false => rfl
      | true => exact absurd (h.ready hready).1 hremain
    have hlength : cs.chunkData.length + cs.remain = cs.msgLen := by
      rcases h.length with hlength | hidle
      . exact hlength
      . exact absurd hidle.1 hremain
    split at hread
    . split at hread
      . simp only [Prod.mk.injEq] at hread
        rw [← hread.1, ← hread.2.1]
        exact ⟨by simp, fun _ => h⟩
      . simp only [Prod.mk.injEq] at hread
        rw [← hread.1, ← hread.2.1]
        exact ⟨fun _ => ⟨rfl, hready, hlength⟩, by simp⟩
    . simp only [Prod.mk.injEq] at hread
      rw [← hread.1, ← hread.2.1]
      exact ⟨fun _ => ⟨rfl, hready, hlength⟩, by simp⟩

theorem readMessageHeader_sound {cs cs' : ChunkStream} {fmt csid : Nat} {buffer rest : List UInt8}
    {ret : Ret} (h : cs.Sound) (hfresh : cs.StartsFresh fmt)
    (hread : cs.readMessageHeader fmt csid buffer = (ret, cs', rest))
    : (ret = .ok → cs'.Filling) ∧ (ret = .needReadMore → cs'.Sound) := by
  simp only [readMessageHeader] at hread
  split at hread
  . next hphase =>
    simp only [Prod.mk.injEq] at hread
    rw [← hread.1, ← hread.2.1]
    exact ⟨fun _ => h.filling hphase, by simp⟩
  . next hphase =>
    have hformat {ret' cs'' rest'}
        (hformat : cs.readMsgByFormat fmt csid buffer = (ret', cs'', rest'))
        : (ret' = .ok → Filling { cs'' with phase := .payload })
          ∧ (ret' = .needReadMore → cs''.Sound) := by
      rcases fmt with _ | _ | _ | _ | n
      . apply readMsgFormat_sound assignFormat0 _ h (hfresh hphase (by decide)) hformat
        exact fun _ _ _ => ⟨rfl, rfl, rfl⟩
      . apply readMsgFormat_sound assignFormat1 _ h (hfresh hphase (by decide)) hformat
        exact fun _ _ _ => ⟨rfl, rfl, rfl⟩
      . apply readMsgFormat_sound assignFormat2 _ h (hfresh hphase (by decide)) hformat
        exact fun _ _ _ => ⟨rfl, rfl, rfl⟩
      . exact readMsgFormat3_sound h hformat
      . simp only [readMsgByFormat, Prod.mk.injEq] at hformat
        simp [← hformat.1]
    split at hread
    . next hok =>
      simp only [Prod.mk.injEq] at hread
      rw [← hread.1, ← hread.2.1]
      exact ⟨fun _ => (hformat hok).1 rfl, by simp⟩
    . next hne =>
      refine ⟨?_, (hformat hread).2⟩
      intro hok
      rw [hok] at hread
      exact absurd hread (hne _ _)

theorem readChunk_sound {cs cs' : ChunkStream} {fmt csid : Nat} {buffer rest : List UInt8}
    {ret : Ret} (h : cs.Sound) (hfresh : cs.StartsFresh fmt)
    (hread : cs.readChunk fmt csid buffer = (ret, cs', rest)) (hret : ret ≠ .error)
    : cs'.Sound := by
  simp only [readChunk] at hread
  split at hread
  . next cs₁ buffer₁ hok =>
    have hfilling := (readMessageHeader_sound h hfresh hok).1 rfl
    simp only [readMessagePayload, hfilling.phase] at hread
    split at hread
    . simp only [Prod.mk.injEq] at hread
      rw [← hread.2.1]
      exact hfilling.sound
    . next hlong =>
      have hlength := hfilling.length
      have hle : cs₁.requireLen ≤ cs₁.remain := by
        simp only [requireLen]
        split
        . omega
        . omega
      simp only [Prod.mk.injEq] at hread
      rw [← hread.2.1]
      have htake : (buffer₁.take cs₁.requireLen).length = cs₁.requireLen := by
        rw [List.length_take]
        omega
      constructor
      case length =>
        left
        simp only [List.length_append, htake]
        omega
      case ready =>
        intro hready
        have hremain : cs₁.remain - cs₁.requireLen = 0 := by simpa [hfilling.ready] using hready
        refine ⟨hremain, rfl, ?_⟩
        simp only [List.length_append, htake]
        omega
  . next hne =>
    cases ret with
    | ok => exact absurd hread (hne _ _)
    | needReadMore => exact (readMessageHeader_sound h hfresh hread).2 rfl
    | error => exact absurd rfl hret

end ChunkStream

namespace RtmpSessionBase

section SoundSession

def SoundSession (s : RtmpSessionBase) : Prop := ∀ key cs, s.csMap key = some cs → cs.Sound

/--
The chunk that is read next either goes on with a message or finds its chunk stream cleared.
-/
def StartsFresh (s : RtmpSessionBase) : Prop :=
  ∀ t ∈ s.beginChunk, t.currentChunkStream.StartsFresh t.fmt

theorem SoundSession.putChunkStream {s : RtmpSessionBase} {cs : ChunkStream} (h : s.SoundSession)
    (hcs : cs.Sound) : (s.putChunkStream cs).SoundSession := by
  intro key cs' hkey
  simp only [RtmpSessionBase.putChunkStream, Function.update_apply] at hkey
  split at hkey
  . simp only [Option.some.injEq] at hkey
    rw [← hkey]
    exact hcs
  . exact h key cs' hkey

theorem SoundSession.currentChunkStream {s : RtmpSessionBase} (h : s.SoundSession)
    : s.currentChunkStream.Sound := by
  rw [RtmpSessionBase.currentChunkStream]
  split
  . exact ChunkStream.sound_new _ _ _
  . next cs hcs =>
    have := h _ cs hcs
    exact ⟨this.length, this.ready⟩

theorem readFmtCsid_csMap (s : RtmpSessionBase) : s.readFmtCsid.2.csMap = s.csMap := by
  simp only [readFmtCsid]
  repeat' split
  all_goals rfl

theorem beginChunk_csMap {s t : RtmpSessionBase} (h : s.beginChunk = some t)
    : t.csMap = s.csMap := by
  simp only [beginChunk] at h
  split at h
  . simp only [Option.some.injEq] at h
    rw [h]
  . split at h
    . next u hfmt =>
      simp only [Option.some.injEq] at h
      have := readFmtCsid_csMap s
      rw [hfmt] at this
      rw [← h]
      exact this
    . simp at h

theorem SoundSession.readChunkStream {s t : RtmpSessionBase} {ret : Ret} (h : s.SoundSession)
    (hfresh : s.StartsFresh) (hread : s.readChunkStream = (ret, t)) (hret : ret ≠ .error)
    : t.SoundSession := by
  cases hbegin : s.beginChunk with
  | none =>
    rw [readChunkStream_of_beginChunk_none hbegin, Prod.mk.injEq] at hread
    intro key cs hkey
    rw [← hread.2, readFmtCsid_csMap] at hkey
    exact h key cs hkey
  | some u =>
    have hu : u.SoundSession := by
      intro key cs hkey
      rw [beginChunk_csMap hbegin] at hkey
      exact h key cs hkey
    rcases hchunk : u.currentChunkStream.readChunk u.fmt u.csid u.recvBuffer with ⟨ret', cs, buffer⟩
    rw [readChunkStream_of_beginChunk hbegin, readMessage_eq hchunk, Prod.mk.injEq] at hread
    rw [hread.1] at hchunk
    have hcs := ChunkStream.readChunk_sound hu.currentChunkStream (hfresh u hbegin) hchunk hret
    rw [← hread.2]
    exact hu.putChunkStream hcs

theorem readyChunkStream_eq_some {s : RtmpSessionBase} {cs : ChunkStream}
    (h : s.readyChunkStream = some cs)
    : s.csPtr = some cs ∧ cs.chunkReady := by
  rw [readyChunkStream, Option.filter_eq_some_iff] at h
  exact h

theorem SoundSession.handleReady {s t : RtmpSessionBase} {cs : ChunkStream}
    {out : List ClientEvent} (h : s.SoundSession) (hready : s.readyChunkStream = some cs)
    (hhandle : s.handleReady cs = (out, some t))
    : t.SoundSession := by
  have hcs := readyChunkStream_eq_some hready
  have hsound : cs.Sound := h _ cs hcs.1
  have hreset := hsound.reset hcs.2
  simp only [RtmpSessionBase.handleReady] at hhandle
  split at hhandle
  . split at hhandle
    . next u buffers hctrl =>
      have hframe := handleRtmpControlMessage_frame hctrl
      have hu : u.SoundSession := by
        intro key cs' hkey
        rw [hframe.2.2.1] at hkey
        exact h key cs' hkey
      simp only [Prod.mk.injEq, Option.some.injEq] at hhandle
      rw [← hhandle.2]
      exact hu.putChunkStream hreset
    . simp at hhandle
  . split at hhandle
    . split at hhandle
      . simp only [Prod.mk.injEq, Option.some.injEq] at hhandle
        rw [← hhandle.2]
        exact h.putChunkStream hreset
      . simp at hhandle
    . split at hhandle
      . repeat' split at hhandle
        all_goals simp only [Prod.mk.injEq, Option.some.injEq, reduceCtorEq, and_false] at hhandle
        rw [← hhandle.2]
        exact h.putChunkStream hreset
      . simp only [Prod.mk.injEq, Option.some.injEq] at hhandle
        rw [← hhandle.2]
        exact h

end SoundSession

section Commands

theorem commandItem_ok {publish : Bool} {phase next result : ClientPhase} {item : AmfItem}
    (h : commandItem publish phase next item = .ok result)
    : result = next
      ∨ (item = .string (bytesOf "_result")
        ∧ ((awaitsConnect phase ∧ result = .createStream)
          ∨ (awaitsCreateStream phase ∧ result = playpublishPhase publish))) := by
  simp only [commandItem] at h
  split at h
  . next desc =>
    split at h
    . next hawaits =>
      split at h
      . simp at h
      . split at h
        . simp only [Except.ok.injEq] at h
          exact .inl h.symm
        . next hresult =>
          right
          simp only [ne_eq, not_not] at hresult
          simp only [Except.ok.injEq] at h
          refine ⟨by rw [hresult], ?_⟩
          split at h
          . next hconnect => exact .inl ⟨hconnect, h.symm⟩
          . next hconnect => exact .inr ⟨hawaits.resolve_left hconnect, h.symm⟩
    . repeat' split at h
      all_goals
        simp only [Except.ok.injEq, reduceCtorEq] at h
        try exact .inl h.symm
  . repeat' split at h
    all_goals
      simp only [Except.ok.injEq, reduceCtorEq] at h
      try exact .inl h.symm
  . simp only [Except.ok.injEq] at h
    exact .inl h.symm

theorem foldlM_commandItem {publish : Bool} {phase next result : ClientPhase} {items : List AmfItem}
    (h : items.foldlM (commandItem publish phase) next = .ok result)
    : result = next
      ∨ (.string (bytesOf "_result") ∈ items
        ∧ ((awaitsConnect phase ∧ result = .createStream)
          ∨ (awaitsCreateStream phase ∧ result = playpublishPhase publish))) := by
  induction items generalizing next with
  | nil =>
    simp only [List.foldlM_nil, pure, Except.pure, Except.ok.injEq] at h
    exact .inl h.symm
  | cons item items ih =>
    simp only [List.foldlM_cons, bind, Except.bind] at h
    split at h
    . simp at h
    . next middle hitem =>
      rcases ih h with hrest | ⟨hmem, hmoved⟩
      . rcases commandItem_ok hitem with hkept | ⟨hresult, hmoved⟩
        . exact .inl (hrest.trans hkept)
        . refine .inr ⟨?_, ?_⟩
          . rw [hresult]
            exact List.mem_cons_self
          . rw [hrest]
            exact hmoved
      . exact .inr ⟨List.mem_cons_of_mem _ hmem, hmoved⟩

/--
The message is a command with the string `_result`.
-/
def CarriesResult (cs : ChunkStream) : Prop :=
  ∃ items, decodeItems cs.chunkData.length cs.chunkData = .ok items
    ∧ .string (bytesOf "_result") ∈ items

/--
A command moves the phase only if it is a result, and only to the next command.
-/
theorem handleServerCommandMessage_ok {publish : Bool} {phase next : ClientPhase} {cs : ChunkStream}
    (h : handleServerCommandMessage publish phase cs.chunkData = .ok next)
    : next = phase
      ∨ (CarriesResult cs
        ∧ ((awaitsConnect phase ∧ next = .createStream)
          ∨ (awaitsCreateStream phase ∧ next = playpublishPhase publish))) := by
  simp only [handleServerCommandMessage] at h
  split at h
  . simp at h
  . simp at h
  . next items _ hitems =>
    rcases foldlM_commandItem h with hkept | ⟨hmem, hmoved⟩
    . exact .inl hkept
    . exact .inr ⟨⟨items, hitems, hmem⟩, hmoved⟩

end Commands

section Trace

/--
A whole command message was handled while the session was in a phase.
-/
def CommandHandled (out : List ClientEvent) (phase : ClientPhase) : Prop :=
  ∃ cs, .handled phase cs ∈ out ∧ cs.typeId = rtmpCommandMessagesAmf0 ∧ cs.Whole

/--
A whole command message with `_result` was handled while the session was in a phase.
-/
def ResultHandled (out : List ClientEvent) (phase : ClientPhase) : Prop :=
  ∃ cs, .handled phase cs ∈ out ∧ cs.typeId = rtmpCommandMessagesAmf0 ∧ cs.Whole
    ∧ CarriesResult cs

/--
What has to come before an event.
-/
def Justified (before : List ClientEvent) : ClientEvent → Prop
  | .sent .createStream _ => ResultHandled before .connectResp
  | .sent .play _ => ResultHandled before .createStreamResp
  | .sent .publish _ => ResultHandled before .createStreamResp
  | .handled .mediaHandle _ => CommandHandled before .createPlaypublishResp
  | .overrun => False
  | _ => True

def AllJustified (before : List ClientEvent) : List ClientEvent → Prop
  | [] => True
  | event :: out => Justified before event ∧ AllJustified (before ++ [event]) out

theorem allJustified_append {before out out' : List ClientEvent}
    : AllJustified before (out ++ out')
      ↔ AllJustified before out ∧ AllJustified (before ++ out) out' := by
  induction out generalizing before with
  | nil => simp [AllJustified]
  | cons event out ih =>
    simp only [List.cons_append, AllJustified, ih, List.append_assoc, List.nil_append, and_assoc]

theorem CommandHandled.append {out : List ClientEvent} {phase : ClientPhase}
    (h : CommandHandled out phase) (out' : List ClientEvent)
    : CommandHandled (out ++ out') phase := by
  rcases h with ⟨cs, hmem, h⟩
  exact ⟨cs, List.mem_append_left _ hmem, h⟩

theorem ResultHandled.append {out : List ClientEvent} {phase : ClientPhase}
    (h : ResultHandled out phase) (out' : List ClientEvent)
    : ResultHandled (out ++ out') phase := by
  rcases h with ⟨cs, hmem, h⟩
  exact ⟨cs, List.mem_append_left _ hmem, h⟩

/--
What a phase at the end of a read stands on.
-/
def Reached (out : List ClientEvent) : ClientPhase → Prop
  | .connectResp => True
  | .createStream | .createStreamResp => ResultHandled out .connectResp
  | .createPlay | .createPublish | .createPlaypublishResp =>
    ResultHandled out .connectResp ∧ ResultHandled out .createStreamResp
  | .mediaHandle =>
    ResultHandled out .connectResp ∧ ResultHandled out .createStreamResp
      ∧ CommandHandled out .createPlaypublishResp
  | _ => False

theorem Reached.append {out : List ClientEvent} {phase : ClientPhase} (h : Reached out phase)
    (out' : List ClientEvent) : Reached (out ++ out') phase := by
  cases phase
  all_goals simp only [Reached] at h ⊢
  all_goals first
    | exact h.append _
    | exact ⟨h.1.append _, h.2.append _⟩
    | exact ⟨h.1.append _, h.2.1.append _, h.2.2.append _⟩

/--
What a phase in the middle of a read stands on. A second `_result` that comes along with the connect
response moves the phase too far.
-/
inductive Stands (out : List ClientEvent) : ClientPhase → ClientPhase → Prop where
  | reached {phase : ClientPhase} (h : Reached out phase) : Stands out phase phase
  | createStream (h : Reached out .createStream) : Stands out .connectResp .createStream
  | early {phase : ClientPhase} (h : Reached out .createStream)
      (hphase : createsPlaypublish phase) : Stands out .connectResp phase
  | createPlaypublish {phase : ClientPhase} (h : Reached out .createPlaypublishResp)
      (hphase : createsPlaypublish phase) : Stands out .createStreamResp phase
  | mediaHandle (h : Reached out .mediaHandle) : Stands out .createPlaypublishResp .mediaHandle

theorem Stands.append {out : List ClientEvent} {start phase : ClientPhase}
    (h : Stands out start phase) (out' : List ClientEvent) : Stands (out ++ out') start phase := by
  cases h with
  | reached h => exact .reached (h.append _)
  | createStream h => exact .createStream (h.append _)
  | early h hphase => exact .early (h.append _) hphase
  | createPlaypublish h hphase => exact .createPlaypublish (h.append _) hphase
  | mediaHandle h => exact .mediaHandle (h.append _)

end Trace

section Condition

/--
A read may end with a control message or a command only when the response it waited for was among its
messages, and a connect response may not be followed by a second result in the same read unless one of
these ends it.
-/
def phaseCondition : ReadCondition where
  turn := StartsFresh
  message _ cs := WithinBounds cs
  finish start ret s :=
    match ret with
    | .ok => ¬waiting s.clientPhase
    | .needReadMore => start = .connectResp → ¬createsPlaypublish s.clientPhase
    | .error => True
  other _ := True

end Condition

theorem handleServerCommandMessage_overrun {publish : Bool} {phase : ClientPhase}
    {data : List UInt8}
    (h : handleServerCommandMessage publish phase data = .error (.stuck .overrun))
    : decodeItems data.length data = .error .overrun := by
  have hitem (next item) : commandItem publish phase next item ≠ .error (.stuck .overrun) := by
    simp only [commandItem]
    repeat' split
    all_goals simp
  have hitems (items : List AmfItem) (next : ClientPhase)
      : items.foldlM (commandItem publish phase) next ≠ .error (.stuck .overrun) := by
    induction items generalizing next with
    | nil => simp [pure, Except.pure]
    | cons item items ih =>
      simp only [List.foldlM_cons, bind, Except.bind]
      split
      . next hfault =>
        rw [← hfault]
        exact hitem next item
      . exact ih _
  simp only [handleServerCommandMessage] at h
  split at h
  . next fault hfault =>
    simp only [Except.error.injEq, ClientFault.stuck.injEq] at h
    rw [hfault, h]
  . simp at h
  . exact absurd h (hitems _ _)

theorem handleReady_out {s : RtmpSessionBase} {cs : ChunkStream} {out : List ClientEvent}
    {result : Option RtmpSessionBase} (h : s.handleReady cs = (out, result))
    : ∃ rest, out = .handled s.clientPhase cs :: rest
      ∧ (WithinBounds cs → ∀ before, AllJustified before rest) := by
  have hout : out = (s.handleReady cs).1 := by rw [h]
  have hfault (fault : ClientFault) (hne : fault ≠ .stuck .overrun) (before : List ClientEvent)
      : AllJustified before fault.events := by
    rw [ClientFault.events, if_neg hne]
    exact trivial
  rw [hout]
  simp only [handleReady]
  split
  . split
    . exact ⟨_, rfl, fun _ _ => ⟨trivial, trivial⟩⟩
    . exact ⟨[], rfl, fun _ _ => trivial⟩
  . split
    . next hamf =>
      split
      . exact ⟨[], rfl, fun _ _ => trivial⟩
      . next fault hcommand =>
        refine ⟨_, rfl, fun hbounds => hfault fault ?_⟩
        intro heq
        rw [heq] at hcommand
        exact hbounds.1 hamf (handleServerCommandMessage_overrun hcommand)
    . split
      . next hmedia =>
        split
        . split
          . exact ⟨[], rfl, fun _ _ => trivial⟩
          . exact ⟨_, rfl, fun _ _ => ⟨trivial, trivial⟩⟩
        . next fault hpacket =>
          refine ⟨_, rfl, fun hbounds => hfault fault ?_⟩
          intro heq
          rw [heq] at hpacket
          exact hbounds.2 hmedia hpacket
      . exact ⟨[], rfl, fun _ _ => trivial⟩

/--
A command moves the phase of the play or publish response to the media phase, and an earlier phase only
when it is a result.
-/
theorem commandPhase_ok {publish : Bool} {phase next : ClientPhase} {cs : ChunkStream}
    (h : commandPhase publish phase cs.chunkData = .ok next)
    : next = phase
      ∨ (phase = .createPlaypublishResp ∧ next = .mediaHandle)
      ∨ (CarriesResult cs
        ∧ ((awaitsConnect phase ∧ next = .createStream)
          ∨ (awaitsCreateStream phase ∧ next = playpublishPhase publish))) := by
  rw [commandPhase] at h
  cases hcommand : handleServerCommandMessage publish phase cs.chunkData with
  | error fault => simp [hcommand, Except.map] at h
  | ok moved =>
    simp only [hcommand, Except.map, Except.ok.injEq] at h
    rw [← h]
    split
    . next hphase => exact .inr (.inl ⟨hphase, rfl⟩)
    . rcases handleServerCommandMessage_ok hcommand with hkept | hresult
      . exact .inl hkept
      . exact .inr (.inr hresult)

theorem Stands.handleReady {before out : List ClientEvent} {start : ClientPhase}
    {s t : RtmpSessionBase} {cs : ChunkStream} (hbefore : Stands before start s.clientPhase)
    (hstart : receiving start) (hwhole : cs.Whole)
    (hhandle : s.handleReady cs = (out, some t))
    : Stands (before ++ out) start t.clientPhase := by
  have hmem : .handled s.clientPhase cs ∈ before ++ out := by
    rcases handleReady_out hhandle with ⟨rest, hout, _⟩
    rw [hout]
    exact List.mem_append_right _ List.mem_cons_self
  have h := hbefore.append out
  rcases handleReady_phase hhandle with hphase | ⟨hamf, hcommand⟩
  . rw [hphase]
    exact h
  . have hmoved := commandPhase_ok hcommand
    generalize s.clientPhase = phase at h hmem hmoved
    rcases hmoved with hphase | ⟨hphase, hmedia⟩ | ⟨hresult, hmoved⟩
    . rw [hphase]
      exact h
    . rw [hmedia]
      subst hphase
      cases h with
      | reached h => exact .mediaHandle ⟨h.1, h.2, cs, hmem, hamf, hwhole⟩
      | early h hphase => simp [createsPlaypublish] at hphase
      | createPlaypublish h hphase => simp [createsPlaypublish] at hphase
    . rcases hmoved with ⟨hphase, hmoved⟩ | ⟨hphase, hmoved⟩
      . rw [hmoved]
        cases h with
        | reached h =>
          cases start
          all_goals simp [awaitsConnect, receiving] at hphase hstart
          exact .createStream ⟨cs, hmem, hamf, hwhole, hresult⟩
        | createStream h => simp [awaitsConnect] at hphase
        | early h hcreates =>
          cases phase
          all_goals simp [awaitsConnect, createsPlaypublish] at hphase hcreates
        | createPlaypublish h hcreates =>
          cases phase
          all_goals simp [awaitsConnect, createsPlaypublish] at hphase hcreates
        | mediaHandle h => simp [awaitsConnect] at hphase
      . have hcreates : createsPlaypublish (playpublishPhase s.req.publishFlag) := by
          rw [playpublishPhase]
          split
          . rfl
          . rfl
        rw [hmoved]
        cases h with
        | reached h =>
          cases start
          all_goals simp [awaitsCreateStream, receiving] at hphase hstart
          exact .createPlaypublish ⟨h, cs, hmem, hamf, hwhole, hresult⟩ hcreates
        | createStream h => exact .early h hcreates
        | early h _ => exact .early h hcreates
        | createPlaypublish h _ => exact .createPlaypublish h hcreates
        | mediaHandle h => simp [awaitsCreateStream] at hphase

theorem Stands.justified_handled {before : List ClientEvent} {start phase : ClientPhase}
    (h : Stands before start phase) (cs : ChunkStream) : Justified before (.handled phase cs) := by
  cases h with
  | reached h =>
    cases start
    all_goals first
      | exact trivial
      | exact h.2.2
  | createStream h => exact trivial
  | early h hphase =>
    cases phase
    all_goals first
      | exact trivial
      | simp [createsPlaypublish] at hphase
  | createPlaypublish h hphase =>
    cases phase
    all_goals first
      | exact trivial
      | simp [createsPlaypublish] at hphase
  | mediaHandle h => exact h.2.2

theorem Stands.readChunkStream {before : List ClientEvent} {start : ClientPhase}
    {s t : RtmpSessionBase} {ret : Ret} (h : Stands before start s.clientPhase)
    (hread : s.readChunkStream = (ret, t))
    : Stands before start t.clientPhase := by
  have hframe := (readChunkStream_frame s).2.2
  rw [hread] at hframe
  rw [hframe]
  exact h

theorem Receives.stands {before out : List ClientEvent} {start : ClientPhase}
    {s t : RtmpSessionBase} {ret : Ret} (h : Receives phaseCondition start s ret out t)
    (hstart : receiving start) (hsound : s.SoundSession)
    (hstands : Stands before start s.clientPhase)
    : AllJustified before out
      ∧ (ret ≠ .error → t.SoundSession ∧ Stands (before ++ out) start t.clientPhase
        ∧ phaseCondition.finish start ret t) := by
  induction h generalizing before with
  | stalled hturn hread _ hfinish =>
    refine ⟨trivial, fun hret => ⟨hsound.readChunkStream hturn hread hret, ?_, hfinish⟩⟩
    rw [List.append_nil]
    exact hstands.readChunkStream hread
  | drained hturn hread _ _ hfinish =>
    refine ⟨trivial, fun _ => ⟨hsound.readChunkStream hturn hread (by simp), ?_, hfinish⟩⟩
    rw [List.append_nil]
    exact hstands.readChunkStream hread
  | unready hturn hread _ _ _ ih =>
    exact ih (hsound.readChunkStream hturn hread (by simp)) (hstands.readChunkStream hread)
  | refused hturn hread hready hmessage hhandle =>
    have hstands := hstands.readChunkStream hread
    rcases handleReady_out hhandle with ⟨rest, hout, hrest⟩
    rw [hout]
    exact ⟨⟨hstands.justified_handled _, hrest hmessage _⟩, by simp⟩
  | replied hturn hread hready hmessage hhandle _ hfinish =>
    have hsound := hsound.readChunkStream hturn hread (by simp)
    have hstands := hstands.readChunkStream hread
    have hcs := readyChunkStream_eq_some hready
    have hwhole := ChunkStream.Sound.whole (hsound _ _ hcs.1) hcs.2
    rcases handleReady_out hhandle with ⟨rest, hout, hrest⟩
    refine ⟨?_, fun _ => ⟨hsound.handleReady hready hhandle, ?_, hfinish⟩⟩
    . rw [hout]
      exact ⟨hstands.justified_handled _, hrest hmessage _⟩
    . exact hstands.handleReady hstart hwhole hhandle
  | handled hturn hread hready hmessage hhandle _ _ ih =>
    have hsound := hsound.readChunkStream hturn hread (by simp)
    have hstands := hstands.readChunkStream hread
    have hcs := readyChunkStream_eq_some hready
    have hwhole := ChunkStream.Sound.whole (hsound _ _ hcs.1) hcs.2
    rcases handleReady_out hhandle with ⟨rest, hout, hrest⟩
    have := ih (hsound.handleReady hready hhandle)
      (hstands.handleReady hstart hwhole hhandle)
    refine ⟨?_, ?_⟩
    . rw [allJustified_append]
      refine ⟨?_, this.1⟩
      rw [hout]
      exact ⟨hstands.justified_handled _, hrest hmessage _⟩
    . rw [← List.append_assoc]
      exact this.2

theorem Stands.reached_of {out : List ClientEvent} {start phase : ClientPhase}
    (h : Stands out start phase) (hphase : start = .connectResp → ¬createsPlaypublish phase)
    : Reached out phase := by
  cases h with
  | reached h => exact h
  | createStream h => exact h
  | early h hcreates => exact absurd hcreates (hphase rfl)
  | createPlaypublish h hcreates =>
    cases phase
    all_goals first
      | exact h
      | simp [createsPlaypublish] at hcreates
  | mediaHandle h => exact h

theorem commandSent_justified {before : List ClientEvent} {event : Option ClientEvent}
    {s : RtmpSessionBase} (hevent : ∀ e ∈ event, Justified before e) (hsound : s.SoundSession)
    (hreached : Reached before s.clientPhase)
    : AllJustified before (commandSent event s).1
      ∧ ∀ t ∈ (commandSent event s).2,
        t.SoundSession ∧ Reached (before ++ (commandSent event s).1) t.clientPhase := by
  cases event with
  | none => exact ⟨trivial, by simp [commandSent]⟩
  | some e =>
    refine ⟨⟨hevent e rfl, trivial⟩, ?_⟩
    intro t ht
    simp only [commandSent, Option.mem_def, Option.some.injEq] at ht
    rw [← ht]
    exact ⟨hsound, hreached.append _⟩

theorem rtmpCreatestream_justified {before : List ClientEvent} (s : RtmpSessionBase)
    (h : ResultHandled before .connectResp)
    : ∀ e ∈ s.rtmpCreatestream, Justified before e := by
  intro e he
  simp only [rtmpCreatestream, sendCommand] at he
  split at he
  . simp at he
  . simp only [Option.mem_def, Option.some.injEq] at he
    rw [← he]
    exact h

theorem rtmpPlay_justified {before : List ClientEvent} (s : RtmpSessionBase)
    (h : ResultHandled before .createStreamResp)
    : ∀ e ∈ s.rtmpPlay, Justified before e := by
  intro e he
  simp only [rtmpPlay, sendCommand] at he
  split at he
  . simp at he
  . simp only [Option.mem_def, Option.some.injEq] at he
    rw [← he]
    exact h

theorem rtmpPublish_justified {before : List ClientEvent} (s : RtmpSessionBase)
    (h : ResultHandled before .createStreamResp)
    : ∀ e ∈ s.rtmpPublish, Justified before e := by
  intro e he
  simp only [rtmpPublish, sendCommand] at he
  split at he
  . simp at he
  . simp only [Option.mem_def, Option.some.injEq] at he
    rw [← he]
    exact h

theorem Stands.afterReply {before : List ClientEvent} {start : ClientPhase} {s : RtmpSessionBase}
    (h : Stands before start s.clientPhase) (hsound : s.SoundSession)
    (hphase : ¬waiting s.clientPhase)
    : AllJustified before (s.afterReply start).1
      ∧ ∀ t ∈ (s.afterReply start).2,
        t.SoundSession ∧ Reached (before ++ (s.afterReply start).1) t.clientPhase := by
  have hconnect (hresult : ResultHandled before .connectResp)
      : AllJustified before (s.afterReply .connectResp).1
        ∧ ∀ t ∈ (s.afterReply .connectResp).2,
          t.SoundSession ∧ Reached (before ++ (s.afterReply .connectResp).1) t.clientPhase :=
    commandSent_justified (rtmpCreatestream_justified s hresult) hsound hresult
  have hplaypublish (hreached : Reached before .createPlaypublishResp)
      : AllJustified before (s.afterReply .createStreamResp).1
        ∧ ∀ t ∈ (s.afterReply .createStreamResp).2,
          t.SoundSession ∧ Reached (before ++ (s.afterReply .createStreamResp).1) t.clientPhase := by
    refine commandSent_justified ?_ hsound hreached
    rw [rtmpPlaypublish]
    split
    . exact rtmpPublish_justified s hreached.2
    . exact rtmpPlay_justified s hreached.2
  generalize hs : s.clientPhase = phase at h
  cases h with
  | reached h =>
    cases start
    all_goals simp [waiting, hs] at hphase
    all_goals
      simp only [RtmpSessionBase.afterReply, List.append_nil, Option.mem_def, Option.some.injEq,
        forall_eq']
      exact ⟨trivial, hsound, by rw [hs]; exact h⟩
  | createStream h => exact hconnect h
  | early h _ => exact hconnect h
  | createPlaypublish h _ => exact hplaypublish h
  | mediaHandle h =>
    simp only [RtmpSessionBase.afterReply, List.append_nil, Option.mem_def, Option.some.injEq,
      forall_eq']
    exact ⟨trivial, hsound, h⟩

theorem onRead_stands {before : List ClientEvent} {s : RtmpSessionBase} {data : List UInt8}
    (hreached : Reached before s.clientPhase) (hsound : s.SoundSession)
    (hmeets : ReadMeets phaseCondition s data)
    : AllJustified before (s.onRead data).1
      ∧ ∀ t ∈ (s.onRead data).2,
        t.SoundSession ∧ Reached (before ++ (s.onRead data).1) t.clientPhase := by
  cases hphase : receiving s.clientPhase with
  | true =>
    rw [ReadMeets, if_pos hphase] at hmeets
    rcases hmeets with ⟨ret, out, t, hreceives⟩
    have hread := hreceives.stands (s := s.feed data) hphase hsound (.reached hreached)
    rw [onRead_receives hphase hreceives]
    cases ret with
    | ok =>
      have ht := hread.2 (by simp)
      have hafter := ht.2.1.afterReply ht.1 ht.2.2
      rw [Incremental.Result.andThen_some]
      refine ⟨allJustified_append.mpr ⟨hread.1, hafter.1⟩, ?_⟩
      rw [← List.append_assoc]
      exact hafter.2
    | needReadMore =>
      have ht := hread.2 (by simp)
      refine ⟨hread.1, ?_⟩
      intro u hu
      simp only [Option.mem_def, Option.some.injEq] at hu
      rw [← hu]
      exact ⟨ht.1, ht.2.1.reached_of ht.2.2⟩
    | error => exact ⟨hread.1, by simp⟩
  | false =>
    cases hs : s.clientPhase
    all_goals
      rw [hs] at hreached hphase
      first
        | exact hreached.elim
        | exact absurd hphase (by decide)
        | skip
    . rw [onRead_createStream data hs]
      exact commandSent_justified (rtmpCreatestream_justified s hreached) hsound hreached
    . rw [onRead_createPlay data hs]
      exact commandSent_justified (rtmpPlay_justified s hreached.2) hsound hreached
    . rw [onRead_createPublish data hs]
      exact commandSent_justified (rtmpPublish_justified s hreached.2) hsound hreached

theorem runClient_stands {before : List ClientEvent} {s : RtmpSessionBase}
    {reads : List (List UInt8)} (hreached : Reached before s.clientPhase)
    (hsound : s.SoundSession) (hmeets : RunMeets phaseCondition s reads)
    : AllJustified before (s.runClient reads).1
      ∧ ∀ t ∈ (s.runClient reads).2, Reached (before ++ (s.runClient reads).1) t.clientPhase := by
  induction reads generalizing before s with
  | nil =>
    refine ⟨trivial, ?_⟩
    intro t ht
    simp only [runClient, Option.mem_def, Option.some.injEq] at ht
    rw [← ht]
    exact hreached.append _
  | cons data reads ih =>
    have hread := onRead_stands hreached hsound hmeets.1
    rcases hdata : s.onRead data with ⟨out, _ | t⟩
    . simp only [runClient, hdata, Incremental.Result.andThen_none]
      rw [hdata] at hread
      exact ⟨hread.1, by simp⟩
    . rw [hdata] at hread
      have ht := hread.2 t rfl
      have hrest := ih ht.2 ht.1 (hmeets.2 t (by rw [hdata]; rfl))
      simp only [runClient, hdata, Incremental.Result.andThen_some]
      refine ⟨allJustified_append.mpr ⟨hread.1, hrest.1⟩, ?_⟩
      rw [← List.append_assoc]
      exact hrest.2

section Still

theorem handleReady_not_sent {s : RtmpSessionBase} {cs : ChunkStream} {out : List ClientEvent}
    {result : Option RtmpSessionBase} (h : s.handleReady cs = (out, result))
    (command : ClientCommand) (buffers : List (List UInt8)) : .sent command buffers ∉ out := by
  have hout : out = (s.handleReady cs).1 := by rw [h]
  have hfault (fault : ClientFault) : .sent command buffers ∉ fault.events := by
    rw [ClientFault.events]
    split
    . simp
    . simp
  rw [hout]
  simp only [handleReady]
  repeat' split
  all_goals simp [hfault]

theorem Receives.still {c : ReadCondition} {start : ClientPhase} {s t : RtmpSessionBase} {ret : Ret}
    {out : List ClientEvent} (h : Receives c start s ret out t)
    (hno : ∀ phase cs, .handled phase cs ∈ out → cs.typeId ≠ rtmpCommandMessagesAmf0)
    : (∀ command buffers, .sent command buffers ∉ out)
      ∧ (ret ≠ .error → t.clientPhase = s.clientPhase ∧ c.finish start ret t) := by
  have hread {s t : RtmpSessionBase} {ret : Ret} (hread : s.readChunkStream = (ret, t))
      : t.clientPhase = s.clientPhase := by
    have hframe := (readChunkStream_frame s).2.2
    rw [hread] at hframe
    exact hframe
  have hkept {s t : RtmpSessionBase} {cs : ChunkStream} {out : List ClientEvent}
      (hhandle : s.handleReady cs = (out, some t))
      (hno : ∀ phase cs, .handled phase cs ∈ out → cs.typeId ≠ rtmpCommandMessagesAmf0)
      : t.clientPhase = s.clientPhase := by
    rcases handleReady_out hhandle with ⟨rest, hout, _⟩
    rcases handleReady_phase hhandle with hphase | ⟨hamf, _⟩
    . exact hphase
    . exact absurd hamf (hno s.clientPhase cs (by rw [hout]; exact List.mem_cons_self))
  induction h with
  | stalled _ hr _ hfinish => exact ⟨by simp, fun _ => ⟨hread hr, hfinish⟩⟩
  | drained _ hr _ _ hfinish => exact ⟨by simp, fun _ => ⟨hread hr, hfinish⟩⟩
  | unready _ hr _ _ _ ih =>
    have := ih hno
    rw [hread hr] at this
    exact this
  | refused _ _ _ _ hhandle => exact ⟨handleReady_not_sent hhandle, by simp⟩
  | replied _ hr _ _ hhandle _ hfinish =>
    refine ⟨handleReady_not_sent hhandle, fun _ => ⟨?_, hfinish⟩⟩
    rw [hkept hhandle hno, hread hr]
  | handled _ hr _ _ hhandle _ _ ih =>
    have hrest := ih fun phase cs hmem => hno phase cs (List.mem_append_right _ hmem)
    have hfirst := hkept hhandle fun phase cs hmem => hno phase cs (List.mem_append_left _ hmem)
    rw [hfirst, hread hr] at hrest
    refine ⟨?_, hrest.2⟩
    intro command buffers hmem
    rcases List.mem_append.mp hmem with hmem | hmem
    . exact handleReady_not_sent hhandle command buffers hmem
    . exact hrest.1 command buffers hmem

theorem mediaHandle_of_receiving {phase : ClientPhase} (h : receiving phase)
    (hwaiting : ¬waiting phase) : phase = .mediaHandle := by
  revert h hwaiting
  cases phase
  all_goals decide

theorem onRead_still {s t : RtmpSessionBase} {data : List UInt8} (ht : t ∈ (s.onRead data).2)
    (hphase : receiving s.clientPhase) (hmeets : ReadMeets phaseCondition s data)
    (hno : ∀ phase cs, .handled phase cs ∈ (s.onRead data).1
      → cs.typeId ≠ rtmpCommandMessagesAmf0)
    : t.clientPhase = s.clientPhase ∧ ∀ command buffers, .sent command buffers ∉ (s.onRead data).1 := by
  rw [ReadMeets, if_pos hphase] at hmeets
  rcases hmeets with ⟨ret, out, u, hreceives⟩
  rw [onRead_receives hphase hreceives] at ht hno ⊢
  cases ret with
  | ok =>
    have hstill := hreceives.still (s := s.feed data) fun phase cs hmem =>
      hno phase cs (List.mem_append_left _ hmem)
    have hu := hstill.2 (by simp)
    -- only a session in the media phase replies without having awaited a response
    have hmedia : s.clientPhase = .mediaHandle := by
      have hwaiting : ¬waiting u.clientPhase := hu.2
      rw [hu.1] at hwaiting
      exact mediaHandle_of_receiving hphase hwaiting
    simp only [hmedia, afterReply, Incremental.Result.andThen_some, List.append_nil] at ht ⊢
    simp only [Option.mem_def, Option.some.injEq] at ht
    rw [← ht]
    exact ⟨hu.1.trans hmedia, hstill.1⟩
  | needReadMore =>
    have hstill := hreceives.still (s := s.feed data) hno
    simp only [Option.mem_def, Option.some.injEq] at ht
    rw [← ht]
    exact ⟨(hstill.2 (by simp)).1, hstill.1⟩
  | error => simp at ht

end Still

/--
The phase safety of a run: commands are sent and the media phase is entered on the awaited responses
only, and a read without a command moves no phase.
-/
structure PhaseSafe (s : RtmpSessionBase) (reads : List (List UInt8)) : Prop where
  events : AllJustified [] (s.runClient reads).1
  media : ∀ t ∈ (s.runClient reads).2, t.clientPhase = .mediaHandle →
    CommandHandled (s.runClient reads).1 .createPlaypublishResp
  still : ∀ first data rest, reads = first ++ data :: rest → ∀ t ∈ (s.runClient first).2,
    receiving t.clientPhase →
    (∀ phase cs, .handled phase cs ∈ (t.onRead data).1 → cs.typeId ≠ rtmpCommandMessagesAmf0) →
    ∀ u ∈ (t.onRead data).2, u.clientPhase = t.clientPhase
      ∧ ∀ command buffers, .sent command buffers ∉ (t.onRead data).1

/--
The session behind a valid handshake reply.
-/
def handshaken (req : RtmpRequest) : RtmpSessionBase := (onConnect req).setPhase .connectResp

theorem runClient_phaseSafe (req : RtmpRequest) (reads : List (List UInt8))
    (h : RunMeets phaseCondition (handshaken req) reads)
    : PhaseSafe (handshaken req) reads := by
  have hsound : (handshaken req).SoundSession := by
    intro key cs hkey
    simp [handshaken, setPhase, onConnect] at hkey
  have hrun := @runClient_stands [] (handshaken req) reads trivial hsound h
  constructor
  case events => exact hrun.1
  case media =>
    intro t ht hphase
    have := hrun.2 t ht
    rw [hphase] at this
    exact this.2.2
  case still =>
    intro first data rest hreads t ht hphase hno u hu
    rw [hreads] at h
    exact onRead_still hu hphase (h.append ht).1 hno

/--
A message of one chunk on chunk stream 3 as a server sends it.
-/
def serverMessage (typeId : UInt8) (body : List UInt8) : List UInt8 :=
  (writeDataByChunkStream 3 0 typeId 0 chunkDefSize body).flatten

def resultMessage : List UInt8 :=
  serverMessage rtmpCommandMessagesAmf0 (encodeString (bytesOf "_result"))

set_option maxRecDepth 4096 in
theorem runClient_phaseSafe_sample : PhaseSafe (handshaken {}) [resultMessage] := by
  have hitems : decodeItems 10 (encodeString (bytesOf "_result"))
      = .ok [.string (bytesOf "_result")] := rfl
  apply runClient_phaseSafe
  let cs : ChunkStream :=
    { msgLen := 10, typeId := rtmpCommandMessagesAmf0, csid := 3,
      chunkData := encodeString (bytesOf "_result"), chunkReady := true }
  refine ⟨⟨.ok, _, _, @Receives.replied _ _ _ _ _ cs _ ?_ rfl rfl ?_ rfl ⟨by decide, rfl⟩ ?_⟩,
    fun _ _ => trivial⟩
  . intro t ht
    obtain rfl := Option.some.inj ht
    intro _ _
    exact ⟨rfl, rfl, rfl⟩
  . refine ⟨fun _ => ?_, by decide⟩
    change decodeItems 10 (encodeString (bytesOf "_result")) ≠ _
    simp [hitems]
  . change ¬waiting .createStream
    decide

/--
A control message alone makes the session send `createStream`.
-/
theorem runClient_not_phaseSafe : ¬∀ req reads, PhaseSafe (handshaken req) reads := by
  intro h
  have hsafe := (h {} [serverMessage rtmpControlWindowAckSize (write4Bytes 2500000)]).events
  have hrun : ((handshaken {}).runClient
      [serverMessage rtmpControlWindowAckSize (write4Bytes 2500000)]).1
      = [.handled .connectResp
          { msgLen := 4, typeId := rtmpControlWindowAckSize, csid := 3,
            chunkData := write4Bytes 2500000, chunkReady := true },
        .answered [],
        .sent .createStream
          (writeDataByChunkStream 3 0 rtmpCommandMessagesAmf0 0 chunkDefSize
            (encodeString (bytesOf "createStream") ++ encodeNumber (transid 1) ++ encodeNull))] := by
    decide
  rw [hrun] at hsafe
  rcases hsafe.2.2.1 with ⟨cs, hmem, hamf, _⟩
  simp only [List.nil_append, List.cons_append, List.mem_cons, ClientEvent.handled.injEq, true_and,
    reduceCtorEq, List.not_mem_nil, or_false] at hmem
  rw [hmem] at hamf
  exact absurd hamf (by decide)

end RtmpSessionBase

end Rtmp
