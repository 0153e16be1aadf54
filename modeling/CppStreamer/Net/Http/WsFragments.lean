import CppStreamer.Net.Http.WsReceiver

/-!
This module contains messages that are split into frames with control frames in between, and the streams of which
every message and the answer to every ping come out as they should.
-/

open Incremental Checked WsFrame

structure WsMessage where
  opcode : UInt8
  payload : List UInt8
  deriving DecidableEq, Repr

def IsDataOpCode (opcode : UInt8) : Prop := opcode = wsOpTextType ∨ opcode = wsOpBinType

/--
The frames that messages are split into, with pings and pongs in between. The first argument is the part of a
message that has been sent before.
-/
inductive Carries : Option WsMessage → List WsFrame → List WsMessage → Prop where
  | nil : Carries none [] []
  | ping {o : Option WsMessage} {frames : List WsFrame} {messages : List WsMessage} (payload : List UInt8)
      (h : Carries o frames messages) : Carries o (⟨true, wsOpPingType, payload⟩ :: frames) messages
  | pong {o : Option WsMessage} {frames : List WsFrame} {messages : List WsMessage} (payload : List UInt8)
      (h : Carries o frames messages) : Carries o (⟨true, wsOpPongType, payload⟩ :: frames) messages
  | single {opcode : UInt8} {payload : List UInt8} {frames : List WsFrame} {messages : List WsMessage}
      (hop : IsDataOpCode opcode) (h : Carries none frames messages)
      : Carries none (⟨true, opcode, payload⟩ :: frames) (⟨opcode, payload⟩ :: messages)
  | first {opcode : UInt8} {payload : List UInt8} {frames : List WsFrame} {messages : List WsMessage}
      (hop : IsDataOpCode opcode) (h : Carries (some ⟨opcode, payload⟩) frames messages)
      : Carries none (⟨false, opcode, payload⟩ :: frames) messages
  | next {opcode : UInt8} {part payload : List UInt8} {frames : List WsFrame} {messages : List WsMessage}
      (h : Carries (some ⟨opcode, part ++ payload⟩) frames messages)
      : Carries (some ⟨opcode, part⟩) (⟨false, wsOpContinueType, payload⟩ :: frames) messages
  | last {opcode : UInt8} {part payload : List UInt8} {frames : List WsFrame} {messages : List WsMessage}
      (h : Carries none frames messages)
      : Carries (some ⟨opcode, part⟩) (⟨true, wsOpContinueType, payload⟩ :: frames)
          (⟨opcode, part ++ payload⟩ :: messages)

namespace WsCallback

def isData : WsCallback → Bool
  | onReadText _ | onReadData _ => true
  | _ => false

def pong? : WsCallback → Option (List UInt8)
  | sendWsFrame data opCode => if opCode = wsOpPongType then some data else none
  | _ => none

end WsCallback

def WsFrame.ping? (frame : WsFrame) : Option (List UInt8) :=
  if frame.opcode = wsOpPingType then some frame.payload else none

/--
The payloads that are passed on for a message are the message.
-/
structure WsMessage.PassedAs (m : WsMessage) (callbacks : List WsCallback) : Prop where
  opcode : ∀ c ∈ callbacks, WebSocketSessionBase.handleWsData c.payload m.opcode = [c]
  payload : (callbacks.map WsCallback.payload).flatten = m.payload

def Delivered (messages : List WsMessage) (callbacks : List WsCallback) : Prop :=
  ∃ groups, List.Forall₂ WsMessage.PassedAs messages groups ∧ groups.flatten = callbacks.filter WsCallback.isData

def Answered (frames : List WsFrame) (callbacks : List WsCallback) : Prop :=
  callbacks.filterMap WsCallback.pong? = frames.filterMap WsFrame.ping?

/--
No ping arrives between the fragments of a message, and no pong unless all fragments before it are empty.
-/
def Undisturbed (pending : List (List UInt8)) : List WsFrame → Prop
  | [] => True
  | frame :: frames =>
    (frame.opcode = wsOpPingType → pending = []) ∧ (frame.opcode = wsOpPongType → pending.flatten = [])
      ∧ Undisturbed (if frame.fin then [] else pending ++ [frame.payload]) frames

namespace WsMessages

section Receive

variable {m : WsMessages} {opcode : UInt8} {payload : List UInt8}

theorem receive_ping : m.receive ⟨true, wsOpPingType, payload⟩
    = ((m.recvBufferVec ++ [payload]).map (.sendWsFrame · wsOpPongType), ⟨[], m.lastOpCode⟩) := rfl

theorem receive_pong : m.receive ⟨true, wsOpPongType, payload⟩ = ([], ⟨[], m.lastOpCode⟩) := rfl

theorem receive_first (hop : IsDataOpCode opcode)
    : m.receive ⟨false, opcode, payload⟩ = ([], ⟨m.recvBufferVec ++ [payload], opcode⟩) := by
  rcases hop with rfl | rfl
  . rfl
  . rfl

theorem receive_next : m.receive ⟨false, wsOpContinueType, payload⟩
    = ([], ⟨m.recvBufferVec ++ [payload], m.lastOpCode⟩) := rfl

theorem receive_last : m.receive ⟨true, wsOpContinueType, payload⟩
    = ((m.recvBufferVec ++ [payload]).flatMap (WebSocketSessionBase.handleWsData · m.lastOpCode),
        ⟨[], m.lastOpCode⟩) := rfl

theorem receive_single (hop : IsDataOpCode opcode)
    : m.receive ⟨true, opcode, payload⟩
        = ((m.recvBufferVec ++ [payload]).flatMap (WebSocketSessionBase.handleWsData · opcode), ⟨[], opcode⟩) := by
  rcases hop with rfl | rfl
  . rfl
  . rfl

end Receive

end WsMessages

section Callbacks

variable {opcode : UInt8} {parts : List (List UInt8)} {callbacks : List WsCallback} {groups : List (List WsCallback)}
  {messages : List WsMessage}

theorem handleWsData_eq (hop : IsDataOpCode opcode) (payload : List UInt8)
    : ∃ c, WebSocketSessionBase.handleWsData payload opcode = [c] ∧ c.payload = payload ∧ c.isData = true
        ∧ c.pong? = none := by
  rcases hop with rfl | rfl
  . exact ⟨.onReadText payload, rfl, rfl, rfl, rfl⟩
  . exact ⟨.onReadData payload, rfl, rfl, rfl, rfl⟩

theorem passedAs_flatMap (hop : IsDataOpCode opcode) (parts : List (List UInt8))
    : WsMessage.PassedAs ⟨opcode, parts.flatten⟩ (parts.flatMap (WebSocketSessionBase.handleWsData · opcode)) := by
  induction parts with
  | nil =>
    constructor
    . intro c hc
      cases hc
    . rfl
  | cons part parts ih =>
    obtain ⟨c, hc, hpayload, -, -⟩ := handleWsData_eq hop part
    rw [List.flatMap_cons, hc, List.singleton_append]
    constructor
    . intro c' hc'
      rcases List.mem_cons.mp hc' with rfl | hc'
      . rw [hpayload]
        exact hc
      . exact ih.opcode c' hc'
    . rw [List.map_cons, List.flatten_cons, hpayload, ih.payload, List.flatten_cons]

theorem filter_isData (hop : IsDataOpCode opcode) (parts : List (List UInt8))
    : (parts.flatMap (WebSocketSessionBase.handleWsData · opcode)).filter WsCallback.isData
        = parts.flatMap (WebSocketSessionBase.handleWsData · opcode) := by
  rw [List.filter_eq_self]
  intro c hc
  obtain ⟨part, -, hc⟩ := List.mem_flatMap.mp hc
  obtain ⟨c', heq, -, hdata, -⟩ := handleWsData_eq hop part
  rw [heq, List.mem_singleton] at hc
  rw [hc, hdata]

theorem filterMap_pong (hop : IsDataOpCode opcode) (parts : List (List UInt8))
    : (parts.flatMap (WebSocketSessionBase.handleWsData · opcode)).filterMap WsCallback.pong? = [] := by
  rw [List.filterMap_eq_nil_iff]
  intro c hc
  obtain ⟨part, -, hc⟩ := List.mem_flatMap.mp hc
  obtain ⟨c', heq, -, -, hpong⟩ := handleWsData_eq hop part
  rw [heq, List.mem_singleton] at hc
  rw [hc, hpong]

theorem filter_isData_pongs (parts : List (List UInt8))
    : (parts.map (WsCallback.sendWsFrame · wsOpPongType)).filter WsCallback.isData = [] := by
  rw [List.filter_eq_nil_iff]
  intro c hc
  obtain ⟨part, -, rfl⟩ := List.mem_map.mp hc
  exact Bool.false_ne_true

theorem filterMap_pong_pongs (parts : List (List UInt8))
    : (parts.map (WsCallback.sendWsFrame · wsOpPongType)).filterMap WsCallback.pong? = parts := by
  rw [List.filterMap_map]
  apply List.filterMap_some

theorem Delivered.cons {m : WsMessage} {group : List WsCallback} (hgroup : m.PassedAs group)
    (hdata : group.filter WsCallback.isData = group) (h : Delivered messages callbacks)
    : Delivered (m :: messages) (group ++ callbacks) := by
  obtain ⟨groups, hpassed, hflatten⟩ := h
  refine ⟨group :: groups, .cons hgroup hpassed, ?_⟩
  rw [List.flatten_cons, hflatten, List.filter_append, hdata]

theorem Delivered.skip (h : Delivered messages callbacks) {others : List WsCallback}
    (hothers : others.filter WsCallback.isData = []) : Delivered messages (others ++ callbacks) := by
  obtain ⟨groups, hpassed, hflatten⟩ := h
  refine ⟨groups, hpassed, ?_⟩
  rw [hflatten, List.filter_append, hothers, List.nil_append]

theorem Answered.skip {frames : List WsFrame} {frame : WsFrame} (h : Answered frames callbacks)
    (hframe : frame.ping? = none) {others : List WsCallback} (hothers : others.filterMap WsCallback.pong? = [])
    : Answered (frame :: frames) (others ++ callbacks) := by
  rw [Answered, List.filterMap_append, hothers, List.filterMap_cons_none hframe]
  exact h

theorem ping?_eq_none (hop : IsDataOpCode opcode) (fin : Bool) (payload : List UInt8)
    : WsFrame.ping? ⟨fin, opcode, payload⟩ = none := by
  rcases hop with rfl | rfl
  . rfl
  . rfl

end Callbacks

namespace WsMessages

/--
The state of the session while a part of a message has been received.
-/
def Receiving (m : WsMessages) : Option WsMessage → Prop
  | none => m.recvBufferVec = []
  | some part => m.lastOpCode = part.opcode ∧ IsDataOpCode part.opcode

/--
All of the part is still there.
-/
def Holds (m : WsMessages) (o : Option WsMessage) : Prop := ∀ part, o = some part → m.recvBufferVec.flatten = part.payload

section Messages

variable {m : WsMessages} {o : Option WsMessage} {frames : List WsFrame} {messages : List WsMessage}

theorem Receiving.clear (h : m.Receiving o) : Receiving ⟨[], m.lastOpCode⟩ o := by
  cases o with
  | none => rfl
  | some part => exact h

theorem delivered_of_undisturbed (hcarries : Carries o frames messages)
    : ∀ {m : WsMessages}, m.Receiving o → m.Holds o → Undisturbed m.recvBufferVec frames →
        Delivered messages (m.receiveAll frames).1 ∧ Answered frames (m.receiveAll frames).1 := by
  induction hcarries with
  | nil =>
    intro m _ _ _
    exact ⟨⟨[], .nil, rfl⟩, rfl⟩
  | @ping o frames messages payload _ ih =>
    intro m hm hholds hundisturbed
    obtain ⟨hnil, -, hrest⟩ := hundisturbed
    have hnil := hnil rfl
    have hholds' : Holds ⟨[], m.lastOpCode⟩ o := by
      intro part hpart
      rw [← hholds part hpart, hnil]
    obtain ⟨hdelivered, hanswered⟩ := ih hm.clear hholds' hrest
    rw [receiveAll_cons, receive_ping, hnil]
    refine ⟨hdelivered.skip (filter_isData_pongs _), ?_⟩
    rw [Answered, List.filterMap_append, filterMap_pong_pongs, hanswered]
    rfl
  | @pong o frames messages payload _ ih =>
    intro m hm hholds hundisturbed
    obtain ⟨-, hempty, hrest⟩ := hundisturbed
    have hempty := hempty rfl
    have hholds' : Holds ⟨[], m.lastOpCode⟩ o := by
      intro part hpart
      rw [← hholds part hpart, hempty]
      rfl
    exact ih hm.clear hholds' hrest
  | @single opcode payload frames messages hop _ ih =>
    intro m hm _ hundisturbed
    obtain ⟨-, -, hrest⟩ := hundisturbed
    have hvec : m.recvBufferVec = [] := hm
    obtain ⟨hdelivered, hanswered⟩ := ih (m := ⟨[], opcode⟩) rfl (fun _ h => by cases h) hrest
    have hpassed := passedAs_flatMap hop [payload]
    rw [List.flatten_singleton] at hpassed
    rw [receiveAll_cons, receive_single hop, hvec, List.nil_append]
    exact ⟨hdelivered.cons hpassed (filter_isData hop _),
      hanswered.skip (ping?_eq_none hop _ _) (filterMap_pong hop _)⟩
  | @first opcode payload frames messages hop _ ih =>
    intro m hm _ hundisturbed
    obtain ⟨-, -, hrest⟩ := hundisturbed
    have hvec : m.recvBufferVec = [] := hm
    have hholds' : Holds ⟨m.recvBufferVec ++ [payload], opcode⟩ (some ⟨opcode, payload⟩) := by
      rintro part ⟨⟩
      simp only [hvec, List.nil_append, List.flatten_singleton]
    obtain ⟨hdelivered, hanswered⟩ := ih ⟨rfl, hop⟩ hholds' hrest
    rw [receiveAll_cons, receive_first hop]
    exact ⟨hdelivered, hanswered.skip (ping?_eq_none hop _ _) rfl⟩
  | @next opcode part payload frames messages _ ih =>
    intro m hm hholds hundisturbed
    obtain ⟨-, -, hrest⟩ := hundisturbed
    have hpart := hholds _ rfl
    have hholds' : Holds ⟨m.recvBufferVec ++ [payload], m.lastOpCode⟩ (some ⟨opcode, part ++ payload⟩) := by
      rintro part' ⟨⟩
      simp only [List.flatten_append, List.flatten_singleton, hpart]
    obtain ⟨hdelivered, hanswered⟩ := ih (m := ⟨m.recvBufferVec ++ [payload], m.lastOpCode⟩) hm hholds' hrest
    rw [receiveAll_cons, receive_next]
    exact ⟨hdelivered, hanswered.skip rfl rfl⟩
  | @last opcode part payload frames messages _ ih =>
    intro m hm hholds hundisturbed
    obtain ⟨-, -, hrest⟩ := hundisturbed
    obtain ⟨hlast, hop⟩ := hm
    simp only at hlast hop
    have hpart := hholds _ rfl
    obtain ⟨hdelivered, hanswered⟩ := ih (m := ⟨[], m.lastOpCode⟩) rfl (fun _ h => by cases h) hrest
    have hpassed := passedAs_flatMap hop (m.recvBufferVec ++ [payload])
    rw [List.flatten_append, List.flatten_singleton, hpart] at hpassed
    rw [receiveAll_cons, receive_last, hlast]
    rw [hlast] at hdelivered hanswered
    exact ⟨hdelivered.cons hpassed (filter_isData hop _), hanswered.skip rfl (filterMap_pong hop _)⟩

/--
The bytes that are passed on.
-/
def passedLen (callbacks : List WsCallback) : Nat :=
  ((callbacks.filter WsCallback.isData).map fun c => c.payload.length).sum

/--
The bytes of the messages in frames.
-/
def sentLen : List WsFrame → Nat
  | [] => 0
  | frame :: frames =>
    (if frame.opcode = wsOpPingType ∨ frame.opcode = wsOpPongType then 0 else frame.payload.length) + sentLen frames

theorem passedLen_append (callbacks callbacks' : List WsCallback)
    : passedLen (callbacks ++ callbacks') = passedLen callbacks + passedLen callbacks' := by
  unfold passedLen
  rw [List.filter_append, List.map_append, List.sum_append]

theorem passedLen_pongs (parts : List (List UInt8))
    : passedLen (parts.map (WsCallback.sendWsFrame · wsOpPongType)) = 0 := by
  rw [passedLen, filter_isData_pongs]
  rfl

theorem passedLen_eq (callbacks : List WsCallback)
    : passedLen callbacks = ((callbacks.filter WsCallback.isData).map WsCallback.payload).flatten.length := by
  rw [passedLen, List.length_flatten, List.map_map]
  rfl

theorem passedLen_flatMap {opcode : UInt8} (hop : IsDataOpCode opcode) (parts : List (List UInt8))
    : passedLen (parts.flatMap (WebSocketSessionBase.handleWsData · opcode)) = parts.flatten.length := by
  rw [passedLen_eq, filter_isData hop, (passedAs_flatMap hop parts).payload]

theorem sentLen_data {opcode : UInt8} (hop : IsDataOpCode opcode) (fin : Bool) (payload : List UInt8)
    (frames : List WsFrame) : sentLen (⟨fin, opcode, payload⟩ :: frames) = payload.length + sentLen frames := by
  rcases hop with rfl | rfl
  . rfl
  . rfl

theorem sentLen_ping (payload : List UInt8) (frames : List WsFrame)
    : sentLen (⟨true, wsOpPingType, payload⟩ :: frames) = sentLen frames := Nat.zero_add _

theorem sentLen_pong (payload : List UInt8) (frames : List WsFrame)
    : sentLen (⟨true, wsOpPongType, payload⟩ :: frames) = sentLen frames := Nat.zero_add _

theorem sentLen_continue (fin : Bool) (payload : List UInt8) (frames : List WsFrame)
    : sentLen (⟨fin, wsOpContinueType, payload⟩ :: frames) = payload.length + sentLen frames := rfl

theorem undisturbed_cons {opcode : UInt8} (hping : opcode ≠ wsOpPingType) (hpong : opcode ≠ wsOpPongType)
    {pending : List (List UInt8)} {fin : Bool} {payload : List UInt8}
    (h : Undisturbed (if fin then [] else pending ++ [payload]) frames)
    : Undisturbed pending (⟨fin, opcode, payload⟩ :: frames) :=
  ⟨fun heq => absurd heq hping, fun heq => absurd heq hpong, h⟩

theorem ne_control {opcode : UInt8} (hop : IsDataOpCode opcode) : opcode ≠ wsOpPingType ∧ opcode ≠ wsOpPongType := by
  rcases hop with rfl | rfl
  . decide
  . decide

/--
The pongs and the bytes passed on tell whether anything went wrong: every fragment that is lost is missing or is
a pong too many.
-/
structure Counts (m : WsMessages) (frames : List WsFrame) : Prop where
  pongs : (frames.filterMap WsFrame.ping?).length ≤ ((m.receiveAll frames).1.filterMap WsCallback.pong?).length
  passed : passedLen (m.receiveAll frames).1 ≤ m.recvBufferVec.flatten.length + sentLen frames
  undisturbed :
    ((m.receiveAll frames).1.filterMap WsCallback.pong?).length ≤ (frames.filterMap WsFrame.ping?).length →
      m.recvBufferVec.flatten.length + sentLen frames ≤ passedLen (m.receiveAll frames).1 →
      Undisturbed m.recvBufferVec frames

theorem counts (hcarries : Carries o frames messages) : ∀ {m : WsMessages}, m.Receiving o → m.Counts frames := by
  induction hcarries with
  | nil =>
    intro m _
    exact ⟨Nat.le_refl _, Nat.zero_le _, fun _ _ => trivial⟩
  | @ping o frames messages payload _ ih =>
    intro m hm
    obtain ⟨hpongs, hpassed, hundisturbed⟩ := ih hm.clear
    have hping : WsFrame.ping? ⟨true, wsOpPingType, payload⟩ = some payload := rfl
    constructor
    all_goals
      rw [receiveAll_cons, receive_ping]
      simp only [List.filterMap_append, filterMap_pong_pongs, List.filterMap_cons_some hping, List.length_append,
        List.length_cons, List.length_nil, passedLen_append, passedLen_pongs, sentLen_ping]
      simp only [List.flatten_nil, List.length_nil] at hpassed hundisturbed
    . omega
    . omega
    . intro hle hle'
      have hvec : m.recvBufferVec = [] := List.eq_nil_of_length_eq_zero (by omega)
      exact ⟨fun _ => hvec, fun _ => by rw [hvec]; rfl, hundisturbed (by omega) (by omega)⟩
  | @pong o frames messages payload _ ih =>
    intro m hm
    obtain ⟨hpongs, hpassed, hundisturbed⟩ := ih hm.clear
    have hping : WsFrame.ping? ⟨true, wsOpPongType, payload⟩ = none := rfl
    constructor
    all_goals
      rw [receiveAll_cons, receive_pong]
      simp only [List.filterMap_cons_none hping, List.nil_append, sentLen_pong]
      simp only [List.flatten_nil, List.length_nil] at hpassed hundisturbed
    . omega
    . omega
    . intro hle hle'
      have hvec : m.recvBufferVec.flatten = [] := List.eq_nil_of_length_eq_zero (by omega)
      have hne : wsOpPongType ≠ wsOpPingType := by decide
      exact ⟨fun heq => absurd heq hne, fun _ => hvec, hundisturbed (by omega) (by omega)⟩
  | @single opcode payload frames messages hop _ ih =>
    intro m hm
    obtain ⟨hpongs, hpassed, hundisturbed⟩ := ih (m := ⟨[], opcode⟩) rfl
    constructor
    all_goals
      rw [receiveAll_cons, receive_single hop]
      simp only [List.filterMap_append, filterMap_pong hop, List.filterMap_cons_none (ping?_eq_none hop _ _),
        List.nil_append, passedLen_append, passedLen_flatMap hop, sentLen_data hop, List.flatten_append,
        List.flatten_singleton, List.length_append]
      simp only [List.flatten_nil, List.length_nil] at hpassed hundisturbed
    . omega
    . omega
    . intro hle hle'
      apply undisturbed_cons (ne_control hop).left (ne_control hop).right
      exact hundisturbed (by omega) (by omega)
  | @first opcode payload frames messages hop _ ih =>
    intro m hm
    obtain ⟨hpongs, hpassed, hundisturbed⟩ := ih (m := ⟨m.recvBufferVec ++ [payload], opcode⟩) ⟨rfl, hop⟩
    simp only [List.flatten_append, List.flatten_singleton, List.length_append] at hpassed hundisturbed
    constructor
    all_goals
      rw [receiveAll_cons, receive_first hop]
      simp only [List.filterMap_cons_none (ping?_eq_none hop _ _), List.nil_append, sentLen_data hop]
    . omega
    . omega
    . intro hle hle'
      apply undisturbed_cons (ne_control hop).left (ne_control hop).right
      exact hundisturbed (by omega) (by omega)
  | @next opcode part payload frames messages _ ih =>
    intro m hm
    obtain ⟨hpongs, hpassed, hundisturbed⟩ := ih (m := ⟨m.recvBufferVec ++ [payload], m.lastOpCode⟩) hm
    have hping : WsFrame.ping? ⟨false, wsOpContinueType, payload⟩ = none := rfl
    simp only [List.flatten_append, List.flatten_singleton, List.length_append] at hpassed hundisturbed
    constructor
    all_goals
      rw [receiveAll_cons, receive_next]
      simp only [List.filterMap_cons_none hping, List.nil_append, sentLen_continue]
    . omega
    . omega
    . intro hle hle'
      apply undisturbed_cons (by decide) (by decide)
      exact hundisturbed (by omega) (by omega)
  | @last opcode part payload frames messages _ ih =>
    intro m hm
    obtain ⟨hlast, hop⟩ := hm
    simp only at hlast hop
    obtain ⟨hpongs, hpassed, hundisturbed⟩ := ih (m := ⟨[], m.lastOpCode⟩) rfl
    rw [hlast] at hpongs hpassed hundisturbed
    have hping : WsFrame.ping? ⟨true, wsOpContinueType, payload⟩ = none := rfl
    constructor
    all_goals
      rw [receiveAll_cons, receive_last, hlast]
      simp only [List.filterMap_append, filterMap_pong hop, List.filterMap_cons_none hping, List.nil_append,
        passedLen_append, passedLen_flatMap hop, sentLen_continue, List.flatten_append, List.flatten_singleton,
        List.length_append]
      simp only [List.flatten_nil, List.length_nil] at hpassed hundisturbed
    . omega
    . omega
    . intro hle hle'
      apply undisturbed_cons (by decide) (by decide)
      exact hundisturbed (by omega) (by omega)

/--
The bytes of the messages are those of their frames and of the part that was sent before.
-/
theorem Carries.sum_payload (hcarries : Carries o frames messages)
    : (messages.map fun m => m.payload.length).sum = (o.elim 0 fun part => part.payload.length) + sentLen frames := by
  induction hcarries with
  | nil => rfl
  | ping payload _ ih => rw [ih, sentLen_ping]
  | pong payload _ ih => rw [ih, sentLen_pong]
  | single hop _ ih =>
    rw [List.map_cons, List.sum_cons, ih, sentLen_data hop]
    simp only [Option.elim]
    omega
  | first hop _ ih =>
    rw [ih, sentLen_data hop]
    simp only [Option.elim]
    omega
  | next _ ih =>
    rw [ih, sentLen_continue]
    simp only [Option.elim, List.length_append]
    omega
  | last _ ih =>
    rw [List.map_cons, List.sum_cons, ih, sentLen_continue]
    simp only [Option.elim, List.length_append]
    omega

theorem Delivered.passedLen_eq_sum {callbacks : List WsCallback} (h : Delivered messages callbacks)
    : passedLen callbacks = (messages.map fun m => m.payload.length).sum := by
  obtain ⟨groups, hpassed, hflatten⟩ := h
  rw [WsMessages.passedLen_eq, ← hflatten]
  clear hflatten
  induction hpassed with
  | nil => rfl
  | @cons m group messages groups hm _ ih =>
    rw [List.flatten_cons, List.map_append, List.flatten_append, List.length_append, hm.payload, ih, List.map_cons,
      List.sum_cons]

end Messages

end WsMessages

namespace WsReceiver

open WsMessages

/--
Messages that are split into frames come out as they were sent, and every ping is answered with its payload, if
and only if the lengths fit, as they have to for any stream, and the control frames do not disturb the fragments.
-/
theorem fragments_delivered_iff (reads : List (Int × List UInt8)) (frames : List WsFrame)
    (messages : List WsMessage) (hframes : frameReader.drain (reads.map Prod.snd).flatten = (frames, some []))
    (hcarries : Carries none frames messages)
    : ((({} : WsReceiver).run reads).Passes WsCheck.Holds
          ∧ Delivered messages (({} : WsReceiver).run reads).value.1
          ∧ Answered frames (({} : WsReceiver).run reads).value.1)
        ↔ (frameReader.Safe (reads.map Prod.snd).flatten ∧ ReadsFit (.new extraLen) [] (reads.map Prod.snd))
          ∧ Undisturbed [] frames := by
  obtain ⟨hiff, hreceives⟩ := run_spec reads inv_new drains_nil
  change _ ↔ frameReader.Safe (reads.map Prod.snd).flatten ∧ ReadsFit (.new extraLen) [] (reads.map Prod.snd) at hiff
  rw [hiff]
  apply and_congr_right
  intro hfits
  obtain ⟨frames', rest, hdrain, -, hmessages⟩ := hreceives (hiff.mpr hfits)
  change frameReader.drain (reads.map Prod.snd).flatten = _ at hdrain
  rw [hframes, Prod.mk.injEq] at hdrain
  rw [← hdrain.left] at hmessages
  generalize (({} : WsReceiver).run reads).value = result at hmessages ⊢
  have hcallbacks := congrArg Prod.fst hmessages
  rw [← hcallbacks]
  have hstart : Receiving ⟨[], 1⟩ none := rfl
  constructor
  . rintro ⟨hdelivered, hanswered⟩
    have hpassed := hdelivered.passedLen_eq_sum
    rw [hcarries.sum_payload, Option.elim_none, Nat.zero_add] at hpassed
    apply (counts hcarries hstart).undisturbed (Nat.le_of_eq (congrArg List.length hanswered))
    change 0 + sentLen frames ≤ _
    rw [Nat.zero_add]
    exact Nat.le_of_eq hpassed.symm
  . intro hundisturbed
    exact delivered_of_undisturbed hcarries hstart (fun _ h => by cases h) hundisturbed

theorem fragments_delivered_sample
    : ((({} : WsReceiver).run [(5, [0x89, 1, 0x70, 0x01, 1, 0x61]), (6, [0x80, 1]), (7, [0x62])]).Passes WsCheck.Holds
          ∧ Delivered [⟨wsOpTextType, [0x61, 0x62]⟩]
            (({} : WsReceiver).run [(5, [0x89, 1, 0x70, 0x01, 1, 0x61]), (6, [0x80, 1]), (7, [0x62])]).value.1
          ∧ Answered [⟨true, wsOpPingType, [0x70]⟩, ⟨false, wsOpTextType, [0x61]⟩, ⟨true, wsOpContinueType, [0x62]⟩]
            (({} : WsReceiver).run [(5, [0x89, 1, 0x70, 0x01, 1, 0x61]), (6, [0x80, 1]), (7, [0x62])]).value.1)
        ↔ (frameReader.Safe [0x89, 1, 0x70, 0x01, 1, 0x61, 0x80, 1, 0x62]
            ∧ ReadsFit (.new extraLen) [] [[0x89, 1, 0x70, 0x01, 1, 0x61], [0x80, 1], [0x62]])
          ∧ Undisturbed []
            [⟨true, wsOpPingType, [0x70]⟩, ⟨false, wsOpTextType, [0x61]⟩, ⟨true, wsOpContinueType, [0x62]⟩] :=
  fragments_delivered_iff _ _ _ (by decide) (.ping _ (.first (Or.inl rfl) (.last .nil)))

/--
A ping between two fragments is answered twice, and the first fragment is lost.
-/
theorem not_fragments_delivered
    : ¬∀ (reads : List (Int × List UInt8)) (frames : List WsFrame) (messages : List WsMessage),
        frameReader.drain (reads.map Prod.snd).flatten = (frames, some []) → Carries none frames messages →
        Delivered messages (({} : WsReceiver).run reads).value.1
          ∧ Answered frames (({} : WsReceiver).run reads).value.1 := by
  intro h
  have hrun := h [(5, [0x01, 1, 0x61, 0x89, 1, 0x70, 0x80, 1, 0x62])]
    [⟨false, wsOpTextType, [0x61]⟩, ⟨true, wsOpPingType, [0x70]⟩, ⟨true, wsOpContinueType, [0x62]⟩]
    [⟨wsOpTextType, [0x61, 0x62]⟩] (by decide) (.first (Or.inl rfl) (.ping _ (.last .nil)))
  have hanswered := hrun.right
  revert hanswered
  unfold Answered
  decide

end WsReceiver
