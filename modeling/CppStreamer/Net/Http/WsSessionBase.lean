import CppStreamer.Net.Http.WebSocketFrame

/-!
This module contains the model of `WebSocketSessionBase`, and what comes of a frame that is received.
-/

/--
The calls of a session to the code around it.
-/
inductive WsCallback where
  | onReadText (text : List UInt8)
  | onReadData (data : List UInt8)
  | handleWsClose (data : List UInt8)
  | sendWsFrame (data : List UInt8) (opCode : UInt8)
  deriving DecidableEq, Repr

def WsCallback.payload : WsCallback → List UInt8
  | .onReadText text => text
  | .onReadData data => data
  | .handleWsClose data => data
  | .sendWsFrame data _ => data

structure WebSocketSessionBase where
  frame : WebSocketFrame := {}
  recvBufferVec : List (List UInt8) := []
  lastOpCode : UInt8 := 1
  lastRecvPongMs : Int := -1
  deriving DecidableEq, Repr

namespace WebSocketSessionBase

/--
The same in the client and in the session of the server.
-/
def handleWsData (data : List UInt8) (opCode : UInt8) : List WsCallback :=
  if opCode = wsOpTextType then [.onReadText data]
  else if opCode = wsOpBinType then [.onReadData data]
  else []

def handleWsPing (s : WebSocketSessionBase) : List WsCallback :=
  s.recvBufferVec.map (.sendWsFrame · wsOpPongType)

/--
The `switch` over the opcode of a frame with the bit `fin`.
-/
def dispatch (s : WebSocketSessionBase) (nowMs : Int) : List WsCallback × WebSocketSessionBase :=
  let opcode := s.frame.opcode
  if opcode = wsOpPingType then (s.handleWsPing, s)
  else if opcode = wsOpPongType then ([], { s with lastRecvPongMs := nowMs })
  else if opcode = wsOpCloseType then (s.recvBufferVec.map .handleWsClose, s)
  else if opcode = wsOpContinueType then (s.recvBufferVec.flatMap (handleWsData · s.lastOpCode), s)
  else if opcode = wsOpTextType ∨ opcode = wsOpBinType then
    (s.recvBufferVec.flatMap (handleWsData · opcode), s)
  else ([], s)

/--
The loop of `HandleFrame`, with the bytes for the first `Parse`.
-/
def handleFrames (nowMs : Int)
    : Nat → WebSocketSessionBase → List UInt8 → Option (List WsCallback × WebSocketSessionBase)
  | 0, _, _ => none
  | fuel + 1, s, data =>
    match s.frame.parse data with
    | none => none
    | some (false, frame) => some ([], { s with frame })
    | some (true, frame) =>
      let s :=
        { s with
          frame
          lastOpCode :=
            if frame.opcode = wsOpTextType ∨ frame.opcode = wsOpBinType then frame.opcode
            else s.lastOpCode }
      if frame.payloadIsReady then
        let s :=
          { s with
            recvBufferVec := s.recvBufferVec ++ [frame.payload]
            frame := (frame.consume (frame.payloadStart + frame.payloadLen).toNat).reset }
        let (callbacks, s) :=
          if s.frame.fin then
            let (callbacks, s) := s.dispatch nowMs
            (callbacks, { s with recvBufferVec := [] })
          else ([], s)
        if 0 < s.frame.buffer.length then
          (handleFrames nowMs fuel s []).map fun (callbacks', s) => (callbacks ++ callbacks', s)
        else some (callbacks, s)
      else some ([], s)

/--
A frame takes at least two bytes, so there are not more of them than bytes.
-/
def handleFrame (nowMs : Int) (s : WebSocketSessionBase) (data : List UInt8)
    : Option (List WsCallback × WebSocketSessionBase) :=
  handleFrames nowMs (s.frame.buffer.length + data.length + 1) s data

/--
Reads one after the other, each with the time it takes place at.
-/
def run (s : WebSocketSessionBase)
    : List (Int × List UInt8) → Option (List WsCallback × WebSocketSessionBase)
  | [] => some ([], s)
  | (nowMs, data) :: reads => do
    let (callbacks, s) ← s.handleFrame nowMs data
    let (callbacks', s) ← s.run reads
    pure (callbacks ++ callbacks', s)

/--
The state between two frames.
-/
structure Idle (s : WebSocketSessionBase) : Prop where
  buffer : s.frame.buffer = []
  headerReady : s.frame.headerReady = false
  recvBufferVec : s.recvBufferVec = []

/--
The opcodes that `SendWsFrame` is called with.
-/
def sentOpCodes : List UInt8 := [wsOpTextType, wsOpBinType, wsOpCloseType, wsOpPingType, wsOpPongType]

/--
What comes of a frame. A pong is not passed on.
-/
def callbacks (opCode : UInt8) (payload : List UInt8) : List WsCallback :=
  if opCode = wsOpTextType then [.onReadText payload]
  else if opCode = wsOpBinType then [.onReadData payload]
  else if opCode = wsOpCloseType then [.handleWsClose payload]
  else if opCode = wsOpPingType then [.sendWsFrame payload wsOpPongType]
  else []

/--
The longest frame that `AppendData` takes, which adds twice 10 KiB to what it holds, in an `int`.
-/
def maxFrameLen : Nat := 2 ^ 31 - 1 - 2 * (10 * 1024)

/--
The time of the last read that is not empty.
-/
def completedAt (reads : List (Int × List UInt8)) : Option Int :=
  (reads.filter (·.2 ≠ [])).getLast?.map (·.1)

section RoundTrip

open WebSocketFrame

variable {key : MaskingKey} {opCode : UInt8} {payload : List UInt8}

theorem opCode_and (hop : opCode ∈ sentOpCodes) : opCode &&& 0x0f = opCode := by
  simp only [sentOpCodes, List.mem_cons, List.not_mem_nil, or_false] at hop
  rcases hop with rfl | rfl | rfl | rfl | rfl
  all_goals rfl

theorem Idle.receives {s : WebSocketSessionBase} (h : s.Idle) : s.frame.Receives key opCode payload 0 where
  le := Nat.zero_le _
  buffer := h.buffer
  ready hready := by
    rw [h.headerReady] at hready
    cases hready

theorem dispatch_sent (hop : opCode ∈ sentOpCodes) {s : WebSocketSessionBase} (hframe : s.frame.opcode = opCode)
    (hvec : s.recvBufferVec = [payload]) (nowMs : Int)
    : s.dispatch nowMs = (callbacks opCode payload,
        { s with lastRecvPongMs := if opCode = wsOpPongType then nowMs else s.lastRecvPongMs }) := by
  simp only [sentOpCodes, List.mem_cons, List.not_mem_nil, or_false] at hop
  cases s
  subst hvec
  unfold dispatch
  simp only at hframe
  simp only [hframe]
  rcases hop with rfl | rfl | rfl | rfl | rfl
  all_goals rfl

theorem handleFrame_done (hop : opCode ∈ sentOpCodes)
    (hfits : (wsBytes key opCode payload).length < 2 ^ 31) {s : WebSocketSessionBase}
    (hvec : s.recvBufferVec = []) {n : Nat} (h : s.frame.Receives key opCode payload n) {data : List UInt8}
    (hdata : (wsBytes key opCode payload).drop n = data) (nowMs : Int)
    : ∃ s', s.handleFrame nowMs data = some (callbacks opCode payload, s') ∧ s'.Idle
        ∧ s'.lastRecvPongMs = if opCode = wsOpPongType then nowMs else s.lastRecvPongMs := by
  have hlen := length_wsBytes key opCode payload
  have hstart : (wsHeader payload.length opCode ++ key.bytes).length
      = (wsHeader payload.length opCode).length + 4 := List.length_append
  generalize hframe : readyFrame key opCode payload (wsHeader payload.length opCode ++ (key.bytes ++ payload))
    = frame
  have hparse : s.frame.parse data = some (true, frame) := by
    have hall : (wsBytes key opCode payload).drop n = data ++ [] := by rw [hdata, List.append_nil]
    rcases h.parse (opCode_and hop) hfits hall with ⟨hne, _⟩ | ⟨_, hparse⟩
    . exact absurd rfl hne
    . rw [hparse, unmask_readyFrame, hframe]
  have hsize : frame.buffer.length = (wsBytes key opCode payload).length := by
    rw [← hframe, hlen, ← hstart]
    simp only [readyFrame, List.length_append]
    omega
  have hready : frame.payloadIsReady = true := by
    have hcast : castInt frame.payloadLen = payload.length := by
      rw [← hframe]
      exact castInt_of_lt (by omega)
    rw [payloadIsReady, hsize, castInt_of_lt hfits, hcast, decide_eq_true_eq, hlen, ← hframe]
    simp only [readyFrame]
    omega
  have hpayload : frame.payload = payload := by
    rw [← hframe, WebSocketFrame.payload]
    simp only [readyFrame]
    rw [← List.append_assoc, List.drop_left' hstart, Int.toNat_natCast, List.take_length]
  have hconsume : (frame.consume (frame.payloadStart + frame.payloadLen).toNat).buffer = [] := by
    have hall : (frame.payloadStart + frame.payloadLen).toNat = frame.buffer.length := by
      rw [hsize, hlen, ← hframe]
      simp only [readyFrame]
      omega
    rw [hall, consume, if_pos (Nat.le_refl _)]
    exact List.drop_length
  generalize hrest : (frame.consume (frame.payloadStart + frame.payloadLen).toNat).reset = rest
  have hopcode : rest.opcode = opCode := by
    rw [← hrest, consume]
    split
    all_goals rw [← hframe]; rfl
  have hfin : rest.fin = true := by
    rw [← hrest, consume]
    split
    all_goals rw [← hframe]; rfl
  have hempty : rest.buffer = [] := by
    rw [← hrest]
    exact hconsume
  generalize hlast : (if frame.opcode = wsOpTextType ∨ frame.opcode = wsOpBinType then frame.opcode
    else s.lastOpCode) = last
  have hdispatch := dispatch_sent hop
    (s := { s with frame := rest, recvBufferVec := [payload], lastOpCode := last }) hopcode rfl nowMs
  rw [handleFrame, handleFrames, hparse]
  simp only [hready, if_true, hrest, hvec, hpayload, List.nil_append, hfin, hlast, hdispatch, hempty]
  exact ⟨_, rfl, ⟨hempty, by rw [← hrest]; rfl, rfl⟩, rfl⟩

theorem handleFrame_part (hop : opCode ∈ sentOpCodes)
    (hfits : (wsBytes key opCode payload).length < 2 ^ 31) {s : WebSocketSessionBase}
    {n : Nat} (h : s.frame.Receives key opCode payload n) {data rest : List UInt8}
    (hdata : (wsBytes key opCode payload).drop n = data ++ rest) (hrest : rest ≠ []) (nowMs : Int)
    : ∃ frame, s.handleFrame nowMs data = some ([], { s with frame })
        ∧ frame.Receives key opCode payload (n + data.length) := by
  rcases h.parse (opCode_and hop) hfits hdata with ⟨_, frame, hparse, hframe⟩ | ⟨hnil, _⟩
  . refine ⟨frame, ?_, hframe⟩
    rw [handleFrame, handleFrames, hparse]
  . exact absurd hnil hrest

theorem run_idle {reads : List (Int × List UInt8)} (h : (reads.map Prod.snd).flatten = [])
    {s : WebSocketSessionBase} (hidle : s.Idle)
    : s.run reads = some ([], s) ∧ completedAt reads = none := by
  induction reads with
  | nil => exact ⟨rfl, rfl⟩
  | cons read reads ih =>
    obtain ⟨nowMs, data⟩ := read
    rw [List.map_cons, List.flatten_cons, List.append_eq_nil_iff] at h
    obtain ⟨hdata, hreads⟩ := h
    simp only at hdata
    subst hdata
    obtain ⟨hrun, hcompleted⟩ := ih hreads
    have hframe : s.handleFrame nowMs [] = some ([], s) := by
      have hbuffer := hidle.buffer
      obtain ⟨⟨buffer, _, _, _, _, _, _, _⟩, _, _, _⟩ := s
      subst hbuffer
      rfl
    constructor
    . rw [run, hframe]
      simp [hrun]
    . rw [completedAt, List.filter_cons_of_neg (by simp)]
      exact hcompleted

theorem run_receives (hop : opCode ∈ sentOpCodes) (hfits : (wsBytes key opCode payload).length < 2 ^ 31)
    (reads : List (Int × List UInt8))
    : ∀ {s : WebSocketSessionBase} {n : Nat}, s.recvBufferVec = [] →
        s.frame.Receives key opCode payload n → n < (wsBytes key opCode payload).length →
        (wsBytes key opCode payload).drop n = (reads.map Prod.snd).flatten →
        ∃ s' nowMs, s.run reads = some (callbacks opCode payload, s') ∧ s'.Idle
          ∧ completedAt reads = some nowMs
          ∧ s'.lastRecvPongMs = if opCode = wsOpPongType then nowMs else s.lastRecvPongMs := by
  induction reads with
  | nil =>
    intro s n _ _ hlt hdrop
    have hlen := congrArg List.length hdrop
    rw [List.length_drop] at hlen
    simp only [List.map_nil, List.flatten_nil, List.length_nil] at hlen
    omega
  | cons read reads ih =>
    intro s n hvec h hlt hdrop
    obtain ⟨nowMs, data⟩ := read
    rw [List.map_cons, List.flatten_cons] at hdrop
    simp only at hdrop
    have hsize := congrArg List.length hdrop
    rw [List.length_drop, List.length_append] at hsize
    by_cases hrest : (reads.map Prod.snd).flatten = []
    . rw [hrest, List.append_nil] at hdrop
      rw [hrest, List.length_nil] at hsize
      obtain ⟨s', hframe, hidle, hpong⟩ := handleFrame_done hop hfits hvec h hdrop nowMs
      obtain ⟨hrun, hcompleted⟩ := run_idle hrest hidle
      have hdata : data ≠ [] := by
        rw [← List.length_pos_iff]
        omega
      refine ⟨s', nowMs, ?_, hidle, ?_, hpong⟩
      . rw [run, hframe]
        simp [hrun]
      . rw [completedAt, List.filter_cons_of_pos (by simpa using hdata)]
        rw [completedAt, Option.map_eq_none_iff, List.getLast?_eq_none_iff] at hcompleted
        rw [hcompleted]
        rfl
    . obtain ⟨frame, hframe, hreceives⟩ := handleFrame_part hop hfits h hdrop hrest nowMs
      have hpos := List.length_pos_iff.mpr hrest
      have hdrop' : (wsBytes key opCode payload).drop (n + data.length) = (reads.map Prod.snd).flatten := by
        rw [← List.drop_drop, hdrop, List.drop_left]
      obtain ⟨s', nowMs', hrun, hidle, hcompleted, hpong⟩ :=
        ih (s := { s with frame }) hvec hreceives (by omega) hdrop'
      refine ⟨s', nowMs', ?_, hidle, ?_, hpong⟩
      . rw [run, hframe]
        simp [hrun]
      . obtain ⟨read, hlast, htime⟩ := Option.map_eq_some_iff.mp hcompleted
        rw [completedAt, List.filter_cons]
        split
        . rw [List.getLast?_cons, hlast]
          exact congrArg some htime
        . exact hcompleted

/--
A frame is received as it was sent, however the bytes are cut.
-/
theorem run_sendWsFrame (peer : WsPeer) (hop : opCode ∈ sentOpCodes) (key : MaskingKey)
    (hfits : (peer.sendWsFrame payload opCode key).flatten.length ≤ maxFrameLen)
    {s : WebSocketSessionBase} (hidle : s.Idle) {reads : List (Int × List UInt8)}
    (hreads : (reads.map Prod.snd).flatten = (peer.sendWsFrame payload opCode key).flatten)
    : ∃ s' nowMs, s.run reads = some (callbacks opCode payload, s') ∧ s'.Idle
        ∧ completedAt reads = some nowMs
        ∧ s'.lastRecvPongMs = if opCode = wsOpPongType then nowMs else s.lastRecvPongMs := by
  have hbytes : (peer.sendWsFrame payload opCode key).flatten = wsBytes key opCode payload :=
    flatten_sendWsFrame peer payload opCode key
  have hlen := length_wsBytes key opCode payload
  rw [hbytes] at hfits hreads
  unfold maxFrameLen at hfits
  exact run_receives hop (by omega) reads hidle.recvBufferVec hidle.receives (by omega) hreads.symm

theorem run_sendWsFrame_sample
    : ∃ s' nowMs, ({} : WebSocketSessionBase).run [(5, [0x81, 0x82, 1, 2]), (6, []), (7, [3, 4, 0x69, 0x6b])]
          = some (callbacks wsOpTextType [0x68, 0x69], s') ∧ s'.Idle
        ∧ completedAt [(5, [0x81, 0x82, 1, 2]), (6, []), (7, [3, 4, 0x69, 0x6b])] = some nowMs
        ∧ s'.lastRecvPongMs = if wsOpTextType = wsOpPongType then nowMs else -1 :=
  run_sendWsFrame (s := {}) .server (by decide) ⟨1, 2, 3, 4⟩ (by decide) ⟨rfl, rfl, rfl⟩ (by decide)

/--
The payload of a pong is dropped.
-/
theorem run_pong
    : ¬∃ callback s', ({} : WebSocketSessionBase).run
          [(5, (WsPeer.client.sendWsFrame [7] wsOpPongType ⟨1, 2, 3, 4⟩).flatten)] = some ([callback], s')
        ∧ callback.payload = [7] ∧ s'.Idle := by
  rintro ⟨callback, s', hrun, -⟩
  have hnone : (({} : WebSocketSessionBase).run
      [(5, (WsPeer.client.sendWsFrame [7] wsOpPongType ⟨1, 2, 3, 4⟩).flatten)]).map Prod.fst = some [] := by
    decide
  rw [hrun] at hnone
  cases hnone

end RoundTrip

end WebSocketSessionBase
