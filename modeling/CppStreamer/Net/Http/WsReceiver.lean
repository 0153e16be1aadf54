import CppStreamer.Net.Http.WsBounds

/-!
This module contains `WebSocketSessionBase` with the checks of its frame, and what it makes of a stream of frames.
-/

open Incremental Checked

/--
A session, and the buffer of its frame as far as its sizes are concerned.
-/
structure WsReceiver where
  session : WebSocketSessionBase := {}
  room : DataBuffer := .new extraLen

namespace WsReceiver

/--
What is done with the buffers received when a frame is complete.
-/
def finish (nowMs : Int) (s : WebSocketSessionBase) : List WsCallback × WebSocketSessionBase :=
  if s.frame.fin then
    let (callbacks, s) := s.dispatch nowMs
    (callbacks, { s with recvBufferVec := [] })
  else ([], s)

/--
A payload of `len` bytes is copied, and `amount` bytes are consumed.
-/
def takePayload (nowMs : Int) (s : WebSocketSessionBase) (room : DataBuffer) (len : Nat) (amount : Int)
    : Checked WsCheck (Option (List WsCallback) × WsReceiver) := do
  let payload ← readAt s.frame.buffer s.frame.payloadStart len
  check (.consume amount s.frame.buffer.length)
  let (callbacks, s) := finish nowMs
    { s with
      recvBufferVec := s.recvBufferVec ++ [payload]
      frame := (s.frame.consume amount.toNat).reset }
  return (some callbacks, ⟨s, (room.consumeData amount).2⟩)

/--
What is done with a frame when `Parse` returns 0.
-/
def takeFrame (nowMs : Int) (s : WebSocketSessionBase) (room : DataBuffer)
    : Checked WsCheck (Option (List WsCallback) × WsReceiver) :=
  let frame := s.frame
  let s :=
    { s with
      lastOpCode :=
        if frame.opcode = wsOpTextType ∨ frame.opcode = wsOpBinType then frame.opcode
        else s.lastOpCode }
  if frame.payloadIsReady then
    takePayload nowMs s room (castSize frame.payloadLen)
      (castInt (castSize (castInt64 (frame.payloadStart + frame.payloadLen))))
  else return (none, ⟨s, room⟩)

/--
One turn of the loop of `HandleFrame`, `none` if it returns.
-/
def handleOne (nowMs : Int) (r : WsReceiver) (data : List UInt8)
    : Checked WsCheck (Option (List WsCallback) × WsReceiver) := do
  let room ← r.room.checkedAppend data
  let (ready, frame) ← r.session.frame.checkedParse data
  let s := { r.session with frame }
  if ready then takeFrame nowMs s room else return (none, ⟨s, room⟩)

def handleFrames (nowMs : Int)
    : Nat → WsReceiver → List UInt8 → Checked WsCheck (List WsCallback × WsReceiver)
  | 0, r, _ => do
    check .hang
    return ([], r)
  | fuel + 1, r, data => do
    match ← r.handleOne nowMs data with
    | (none, r) => return ([], r)
    | (some callbacks, r) =>
      if 0 < r.session.frame.buffer.length then
        let (callbacks', r) ← handleFrames nowMs fuel r []
        return (callbacks ++ callbacks', r)
      else return (callbacks, r)

/--
A frame takes at least two bytes.
-/
def handleFrame (nowMs : Int) (r : WsReceiver) (data : List UInt8)
    : Checked WsCheck (List WsCallback × WsReceiver) :=
  handleFrames nowMs (r.session.frame.buffer.length + data.length + 1) r data

/--
Reads one after the other, each with the time it takes place at.
-/
def run (r : WsReceiver) : List (Int × List UInt8) → Checked WsCheck (List WsCallback × WsReceiver)
  | [] => return ([], r)
  | (nowMs, data) :: reads => do
    let (callbacks, r) ← r.handleFrame nowMs data
    let (callbacks', r) ← r.run reads
    return (callbacks ++ callbacks', r)

end WsReceiver

/--
The buffers received, and the opcode that goes with them.
-/
structure WsMessages where
  recvBufferVec : List (List UInt8)
  lastOpCode : UInt8

namespace WsMessages

/--
What comes of the buffers received at a frame that is the last one of a message.
-/
def dispatch (m : WsMessages) (opcode : UInt8) : List WsCallback :=
  if opcode = wsOpPingType then m.recvBufferVec.map (.sendWsFrame · wsOpPongType)
  else if opcode = wsOpPongType then []
  else if opcode = wsOpCloseType then m.recvBufferVec.map .handleWsClose
  else if opcode = wsOpContinueType then
    m.recvBufferVec.flatMap (WebSocketSessionBase.handleWsData · m.lastOpCode)
  else if opcode = wsOpTextType ∨ opcode = wsOpBinType then
    m.recvBufferVec.flatMap (WebSocketSessionBase.handleWsData · opcode)
  else []

def receive (m : WsMessages) (frame : WsFrame) : List WsCallback × WsMessages :=
  let m : WsMessages :=
    { recvBufferVec := m.recvBufferVec ++ [frame.payload]
      lastOpCode :=
        if frame.opcode = wsOpTextType ∨ frame.opcode = wsOpBinType then frame.opcode else m.lastOpCode }
  if frame.fin then (m.dispatch frame.opcode, { m with recvBufferVec := [] }) else ([], m)

def receiveAll (m : WsMessages) : List WsFrame → List WsCallback × WsMessages
  | [] => ([], m)
  | frame :: frames =>
    let (callbacks, m) := m.receive frame
    let (callbacks', m) := m.receiveAll frames
    (callbacks ++ callbacks', m)

theorem receiveAll_cons (m : WsMessages) (frame : WsFrame) (frames : List WsFrame)
    : m.receiveAll (frame :: frames)
        = ((m.receive frame).1 ++ ((m.receive frame).2.receiveAll frames).1,
            ((m.receive frame).2.receiveAll frames).2) := rfl

theorem receiveAll_append (m : WsMessages) (frames frames' : List WsFrame)
    : m.receiveAll (frames ++ frames')
        = ((m.receiveAll frames).1 ++ ((m.receiveAll frames).2.receiveAll frames').1,
            ((m.receiveAll frames).2.receiveAll frames').2) := by
  induction frames generalizing m with
  | nil => rfl
  | cons frame frames ih =>
    rw [List.cons_append, receiveAll_cons, receiveAll_cons, ih, List.append_assoc]

end WsMessages

def WebSocketSessionBase.messages (s : WebSocketSessionBase) : WsMessages := ⟨s.recvBufferVec, s.lastOpCode⟩

theorem WebSocketSessionBase.dispatch_spec (s : WebSocketSessionBase) (nowMs : Int)
    : (s.dispatch nowMs).1 = s.messages.dispatch s.frame.opcode ∧ (s.dispatch nowMs).2.frame = s.frame
      ∧ (s.dispatch nowMs).2.messages = s.messages := by
  unfold WebSocketSessionBase.dispatch WsMessages.dispatch
  simp only
  split
  . exact ⟨rfl, rfl, rfl⟩
  . split
    . exact ⟨rfl, rfl, rfl⟩
    . split
      . exact ⟨rfl, rfl, rfl⟩
      . split
        . exact ⟨rfl, rfl, rfl⟩
        . split
          all_goals exact ⟨rfl, rfl, rfl⟩

namespace WsReceiver

theorem finish_spec (nowMs : Int) (s : WebSocketSessionBase)
    : (finish nowMs s).1 = (if s.frame.fin then s.messages.dispatch s.frame.opcode else [])
      ∧ (finish nowMs s).2.frame = s.frame
      ∧ (finish nowMs s).2.messages
        = { s.messages with recvBufferVec := if s.frame.fin then [] else s.recvBufferVec } := by
  obtain ⟨hcallbacks, hframe, hmessages⟩ := s.dispatch_spec nowMs
  unfold finish
  cases s.frame.fin with
  | true =>
    refine ⟨hcallbacks, hframe, ?_⟩
    have hlast := congrArg WsMessages.lastOpCode hmessages
    exact congrArg (WsMessages.mk []) hlast
  | false => exact ⟨rfl, rfl, rfl⟩

end WsReceiver

namespace DataBuffer

/--
A buffer of `n` bytes whose sizes fit in an `int`.
-/
structure Room (b : DataBuffer) (n : Nat) : Prop where
  dataLen : b.dataLen = n
  le : n ≤ b.end_
  reserve : preReserveHeaderSize ≤ b.bufferSize
  bufferSize : b.bufferSize < 2 ^ 31
  lt : n < 2 ^ 31

/--
`AppendData` does not ask for more than an `int` counts.
-/
def Admits (b : DataBuffer) (data : List UInt8) : Prop :=
  b.Grows data → b.dataLen + data.length ≤ WebSocketSessionBase.maxFrameLen

section Room

variable {b : DataBuffer} {data : List UInt8} {n : Nat}

theorem checkedAppend_passes : (b.checkedAppend data).Passes WsCheck.Holds ↔ b.Admits data := by
  unfold checkedAppend Admits
  by_cases hgrows : b.Grows data
  . rw [if_pos hgrows]
    simp [hgrows, WsCheck.Holds]
  . rw [if_neg hgrows]
    simp [hgrows]

theorem checkedAppend_value : (b.checkedAppend data).value = (b.appendData data).1 := by
  unfold checkedAppend
  split
  all_goals rfl

theorem room_new : (new extraLen).Room 0 := by
  constructor
  . rfl
  . apply Nat.zero_le
  all_goals decide

theorem getNewSize_lt {newLen : Nat} (hlt : newLen + 10 * 1024 < 2 ^ 31) : getNewSize newLen < 2 ^ 31 := by
  unfold getNewSize
  split_ifs
  all_goals omega

theorem Room.limit (hroom : b.Room n) : b.limit + preReserveHeaderSize = b.bufferSize := by
  have := hroom.reserve
  have := hroom.bufferSize
  unfold DataBuffer.limit
  unfold preReserveHeaderSize at *
  omega

theorem appendData_nil : (b.appendData []).1 = b := by
  rw [appendData, if_pos rfl]

theorem Room.append (hroom : b.Room n) (hadmits : b.Admits data)
    : (b.appendData data).1.Room (n + data.length) := by
  have hlimit := hroom.limit
  obtain ⟨hdataLen, hle, hreserve, hbufferSize, hlt⟩ := hroom
  unfold Admits Grows WebSocketSessionBase.maxFrameLen at hadmits
  unfold appendData
  by_cases hnil : data = []
  . rw [if_pos hnil, hnil, List.length_nil]
    exact ⟨hdataLen, hle, hreserve, hbufferSize, hlt⟩
  . rw [if_neg hnil]
    by_cases hend : b.limit < b.end_ + data.length
    . rw [if_pos hend]
      by_cases hfull : b.limit ≤ b.dataLen + data.length
      . have hsize := hadmits ⟨hnil, hend, hfull⟩
        rw [if_pos hfull, ← hdataLen]
        have hnew : b.dataLen + data.length + extraLen + 10 * 1024 < 2 ^ 31 := by
          unfold extraLen
          omega
        have hnewSize := le_getNewSize (b.dataLen + data.length + extraLen)
        constructor
        . rfl
        . apply Nat.le_add_left
        . simp only [grow]
          unfold extraLen preReserveHeaderSize at *
          omega
        . simp only [grow]
          apply getNewSize_lt hnew
        . omega
      . rw [if_neg hfull, ← hdataLen]
        exact ⟨rfl, Nat.le_add_left _ _, hreserve, hbufferSize, by omega⟩
    . rw [if_neg hend]
      constructor
      . simp only [extend, hdataLen]
      . simp only [extend]
        omega
      . exact hreserve
      . exact hbufferSize
      . omega

theorem consumeData_of_le {len : Nat} (hle : len ≤ b.dataLen)
    : (b.consumeData len).2 = { b with start := b.start + len, dataLen := b.dataLen - len } := by
  unfold consumeData
  rw [if_neg (by omega), if_neg (by omega)]
  have hstart : ((b.start : Int) + len).toNat = b.start + len := by omega
  have hdataLen : ((b.dataLen : Int) - len).toNat = b.dataLen - len := by omega
  simp only [hstart, hdataLen]

theorem Room.consume (hroom : b.Room n) {len : Nat} (hle : len ≤ n) : (b.consumeData len).2.Room (n - len) := by
  obtain ⟨hdataLen, hend, hreserve, hbufferSize, hlt⟩ := hroom
  rw [consumeData_of_le (by omega)]
  exact ⟨by rw [hdataLen], by simp only; omega, hreserve, hbufferSize, by omega⟩

theorem consumeData_consumeData {len len' : Nat} (hle : len + len' ≤ b.dataLen)
    : ((b.consumeData len).2.consumeData len').2 = (b.consumeData (len + len' : Nat)).2 := by
  rw [consumeData_of_le (show len ≤ b.dataLen by omega), consumeData_of_le (by simp only; omega),
    consumeData_of_le hle]
  simp only [Nat.add_assoc, Nat.sub_sub]

theorem consumeData_zero : (b.consumeData (0 : Nat)).2 = b := by
  rw [consumeData_of_le (Nat.zero_le _)]
  rfl

end Room

end DataBuffer

namespace WebSocketFrame

section Received

variable {frame : WebSocketFrame} {h : WsHeader} {bytes : List UInt8}

theorem Received.payloadIsReady (hreceived : frame.Received h bytes) (hsize : bytes.length < 2 ^ 31)
    : frame.payloadIsReady = true := by
  have hle := hreceived.le
  rw [WebSocketFrame.payloadIsReady, hreceived.payloadLen, hreceived.payloadStart, hreceived.length,
    castInt_of_lt hsize, castInt_of_lt (by omega), decide_eq_true_eq]
  omega

theorem Received.castSize_payloadLen (hreceived : frame.Received h bytes) (hsize : bytes.length < 2 ^ 31)
    : castSize frame.payloadLen = h.payloadLen := by
  have hle := hreceived.le
  rw [hreceived.payloadLen]
  apply castSize_of_lt
  omega

theorem Received.amount (hreceived : frame.Received h bytes) (hsize : bytes.length < 2 ^ 31)
    : castInt (castSize (castInt64 (frame.payloadStart + frame.payloadLen)))
        = (h.payloadStart + h.payloadLen : Nat) := by
  have hle := hreceived.le
  have hsum : (frame.payloadStart : Int) + frame.payloadLen = (h.payloadStart + h.payloadLen : Nat) := by
    rw [hreceived.payloadStart, hreceived.payloadLen, Int.natCast_add]
  rw [hsum, (castInt64_eq_iff (h.payloadStart + h.payloadLen) (by omega)).mpr (by omega),
    castSize_of_lt (by omega), castInt_of_lt (by omega)]

theorem Received.consume (hreceived : frame.Received h bytes)
    : frame.consume (h.payloadStart + h.payloadLen)
        = { frame with buffer := bytes.drop (h.payloadStart + h.payloadLen) } := by
  rw [WebSocketFrame.consume, if_pos (by rw [hreceived.length]; exact hreceived.le), hreceived.rest]

theorem Received.frameAt (hreceived : frame.Received h bytes)
    : WsFrame.frameAt bytes
        = some (⟨h.fin, h.opcode, h.payload bytes⟩, bytes.drop (h.payloadStart + h.payloadLen)) :=
  WsFrame.frameAt_eq_some.mpr ⟨h, hreceived.decode, hreceived.le, rfl, rfl⟩

end Received

end WebSocketFrame

namespace WsReceiver

open WsFrame

structure Inv (r : WsReceiver) : Prop where
  tracks : r.session.frame.Tracks
  room : r.room.Room r.session.frame.buffer.length

/--
What comes of bytes in a buffer: the frames in front are handled, the rest stays.
-/
def Handles (m : WsMessages) (room : DataBuffer) (bytes : List UInt8)
    (result : List WsCallback × WsReceiver) : Prop :=
  ∃ frames rest, frameReader.drain bytes = (frames, some rest) ∧ rest.length ≤ bytes.length
    ∧ result.2.Inv ∧ result.2.session.frame.buffer = rest
    ∧ result.2.room = (room.consumeData (bytes.length - rest.length : Nat)).2
    ∧ m.receiveAll frames = (result.1, result.2.session.messages)

section Handle

variable {nowMs : Int} {r : WsReceiver} {data bytes rest : List UInt8} {room : DataBuffer}

theorem step_none (h : frameAt bytes = none) : frameReader.step bytes = .stall bytes := by
  change WsFrame.step bytes = _
  rw [WsFrame.step, h]

theorem step_some {frame : WsFrame} (h : frameAt bytes = some (frame, rest))
    : frameReader.step bytes = .next rest [frame] := by
  change WsFrame.step bytes = _
  rw [WsFrame.step, h]

theorem handles_none {s : WebSocketSessionBase} (hnone : frameAt bytes = none) (htracks : s.frame.Tracks)
    (hbuffer : s.frame.buffer = bytes) (hroom : room.Room bytes.length)
    : Handles s.messages room bytes ([], ⟨s, room⟩) := by
  refine ⟨[], bytes, frameReader.drain_stall (step_none hnone), Nat.le_refl _, ⟨htracks, ?_⟩, hbuffer, ?_, rfl⟩
  . rw [hbuffer]
    exact hroom
  . rw [Nat.sub_self, DataBuffer.consumeData_zero]

theorem handles_nil {s : WebSocketSessionBase} (htracks : s.frame.Tracks) (hbuffer : s.frame.buffer = [])
    (hroom : room.Room 0) : Handles s.messages room [] ([], ⟨s, room⟩) :=
  handles_none rfl htracks hbuffer hroom

theorem Handles.next {m : WsMessages} {frame : WsFrame} {result : List WsCallback × WsReceiver}
    (h : Handles (m.receive frame).2 (room.consumeData (bytes.length - rest.length : Nat)).2 rest result)
    (hroom : room.Room bytes.length) (hframe : frameAt bytes = some (frame, rest))
    : Handles m room bytes ((m.receive frame).1 ++ result.1, result.2) := by
  obtain ⟨frames, last, hdrain, hle, hinv, hbuffer, hroom', hmessages⟩ := h
  have hlen := frameAt_length hframe
  refine ⟨frame :: frames, last, ?_, by omega, hinv, hbuffer, ?_, ?_⟩
  . rw [frameReader.drain_next (step_some hframe), Result.andThen_some, hdrain]
    rfl
  . rw [hroom', DataBuffer.consumeData_consumeData]
    . congr 2
      omega
    . rw [hroom.dataLen]
      omega
  . rw [WsMessages.receiveAll_cons, hmessages]

/--
What one turn of the loop comes to.
-/
def Turns (m : WsMessages) (room : DataBuffer) (bytes : List UInt8)
    (result : Option (List WsCallback) × WsReceiver) : Prop :=
  (frameAt bytes = none ∧ result.1 = none ∧ Handles m room bytes ([], result.2))
    ∨ ∃ frame rest, frameAt bytes = some (frame, rest) ∧ result.1 = some (m.receive frame).1
      ∧ result.2.Inv ∧ result.2.session.frame.buffer = rest
      ∧ result.2.room = (room.consumeData (bytes.length - rest.length : Nat)).2
      ∧ result.2.session.messages = (m.receive frame).2

theorem takePayload_spec (s : WebSocketSessionBase) {h : WsHeader} (hreceived : s.frame.Received h bytes)
    (hroom : room.Room bytes.length) {m : WsMessages} {frame : WsFrame}
    (hframe : frame = ⟨h.fin, h.opcode, h.payload bytes⟩) (hvec : m.recvBufferVec = s.recvBufferVec)
    (hlast : s.lastOpCode
      = if frame.opcode = wsOpTextType ∨ frame.opcode = wsOpBinType then frame.opcode else m.lastOpCode)
    : (takePayload nowMs s room h.payloadLen (h.payloadStart + h.payloadLen : Nat)).Passes WsCheck.Holds
      ∧ Turns m room bytes (takePayload nowMs s room h.payloadLen (h.payloadStart + h.payloadLen : Nat)).value := by
  have hle := hreceived.le
  have hstart := (WsHeader.decode_le hreceived.decode).left
  unfold takePayload
  rw [hreceived.payloadStart]
  constructor
  . rw [passes_bind, readAt_passes, passes_bind, passes_check, WsCheck.Holds, hreceived.length]
    exact ⟨hle, by omega, passes_pure _⟩
  . rw [value_bind, readAt_value, hreceived.payload, value_bind, Int.toNat_natCast, hreceived.consume]
    have hfinish := finish_spec nowMs
      { s with
        recvBufferVec := s.recvBufferVec ++ [h.payload bytes]
        frame := WebSocketFrame.reset { s.frame with buffer := bytes.drop (h.payloadStart + h.payloadLen) } }
    generalize finish nowMs _ = result at hfinish ⊢
    obtain ⟨callbacks, s'⟩ := result
    obtain ⟨hcallbacks, hframe', hmessages⟩ := hfinish
    simp only at hcallbacks hframe' hmessages
    have hbuffer : s'.frame.buffer = bytes.drop (h.payloadStart + h.payloadLen) := by
      rw [hframe']
      rfl
    have htracks : s'.frame.Tracks := by
      apply WebSocketFrame.tracks_of_not_ready
      rw [hframe']
      rfl
    have hamount : bytes.length - (bytes.drop (h.payloadStart + h.payloadLen)).length
        = h.payloadStart + h.payloadLen := by
      rw [List.length_drop]
      omega
    have hreceive : m.receive frame = (callbacks, s'.messages) := by
      rw [hcallbacks, hmessages]
      simp only [WebSocketSessionBase.messages, WebSocketFrame.reset, hreceived.fin, hreceived.opcode]
      rw [WsMessages.receive, ← hlast, hvec, hframe]
      cases h.fin with
      | true => rfl
      | false => rfl
    refine Or.inr ⟨frame, _, hframe ▸ hreceived.frameAt, ?_, ⟨htracks, ?_⟩, hbuffer, ?_, ?_⟩
    . rw [hreceive]
      rfl
    . have hroom' := hroom.consume hle
      rw [value_pure, hbuffer, List.length_drop]
      exact hroom'
    . rw [hamount]
      rfl
    . rw [hreceive]
      rfl

theorem takeFrame_spec (nowMs : Int) {s : WebSocketSessionBase} {h : WsHeader} (hreceived : s.frame.Received h bytes)
    (hroom : room.Room bytes.length)
    : (takeFrame nowMs s room).Passes WsCheck.Holds
      ∧ Turns s.messages room bytes (takeFrame nowMs s room).value := by
  unfold takeFrame
  simp only
  rw [if_pos (hreceived.payloadIsReady hroom.lt), hreceived.castSize_payloadLen hroom.lt,
    hreceived.amount hroom.lt]
  apply takePayload_spec
    { s with
      lastOpCode :=
        if s.frame.opcode = wsOpTextType ∨ s.frame.opcode = wsOpBinType then s.frame.opcode else s.lastOpCode }
    hreceived hroom rfl rfl
  simp only [hreceived.opcode]
  rfl

theorem handleOne_spec (nowMs : Int) (data : List UInt8) (hinv : r.Inv)
    : ((r.handleOne nowMs data).Passes WsCheck.Holds
        ↔ r.room.Admits data ∧ LenFits (r.session.frame.buffer ++ data))
      ∧ (r.room.Admits data → LenFits (r.session.frame.buffer ++ data) →
        Turns r.session.messages (r.room.appendData data).1 (r.session.frame.buffer ++ data)
          (r.handleOne nowMs data).value) := by
  generalize hbytes : r.session.frame.buffer ++ data = bytes
  rw [handleOne, passes_bind, DataBuffer.checkedAppend_passes, value_bind, DataBuffer.checkedAppend_value]
  by_cases hadmits : r.room.Admits data
  . have hroom := hinv.room.append hadmits
    rw [← List.length_append, hbytes] at hroom
    generalize (r.room.appendData data).1 = room at hroom
    obtain ⟨hpasses, hparses⟩ := hinv.tracks.checkedParse data (by rw [hbytes]; exact hroom.lt)
    rw [hbytes] at hpasses hparses
    rw [passes_bind, value_bind, hpasses]
    by_cases hfits : LenFits bytes
    . generalize (r.session.frame.checkedParse data).value = parsed at hparses
      obtain ⟨ready, frame⟩ := parsed
      rcases hparses hfits with ⟨hnone, hready, htracks, hbuffer⟩ | ⟨h, hready, hreceived⟩
      . simp only at hready htracks hbuffer
        simp only [hready, Bool.false_eq_true, if_false]
        refine ⟨iff_of_true ⟨hadmits, hfits, passes_pure _⟩ ⟨hadmits, hfits⟩, fun _ _ => Or.inl ⟨hnone, rfl, ?_⟩⟩
        exact handles_none (s := { r.session with frame }) hnone htracks hbuffer hroom
      . simp only at hready hreceived
        have htake := takeFrame_spec nowMs (s := { r.session with frame }) hreceived hroom
        simp only [hready, if_true]
        exact ⟨iff_of_true ⟨hadmits, hfits, htake.left⟩ ⟨hadmits, hfits⟩, fun _ _ => htake.right⟩
    . exact ⟨iff_of_false (fun h => hfits h.right.left) (fun h => hfits h.right), fun _ h => absurd h hfits⟩
  . exact ⟨iff_of_false (fun h => hadmits h.left) (fun h => hadmits h.left), fun h => absurd h hadmits⟩

theorem handleFrames_spec (nowMs : Int) (fuel : Nat)
    : ∀ {r : WsReceiver} {data : List UInt8}, r.Inv → (r.session.frame.buffer ++ data).length < fuel →
        ((handleFrames nowMs fuel r data).Passes WsCheck.Holds
            ↔ r.room.Admits data ∧ frameReader.Safe (r.session.frame.buffer ++ data))
          ∧ (r.room.Admits data → frameReader.Safe (r.session.frame.buffer ++ data) →
            Handles r.session.messages (r.room.appendData data).1 (r.session.frame.buffer ++ data)
              (handleFrames nowMs fuel r data).value) := by
  induction fuel with
  | zero =>
    intro r data _ hlt
    omega
  | succ fuel ih =>
    intro r data hinv hlt
    obtain ⟨hpasses, hturns⟩ := handleOne_spec nowMs data hinv
    have hroom (hadmits : r.room.Admits data) := hinv.room.append hadmits
    rw [← List.length_append] at hroom
    generalize r.session.frame.buffer ++ data = bytes at hlt hpasses hturns hroom
    rw [handleFrames, passes_bind, value_bind, hpasses]
    by_cases hadmits : r.room.Admits data
    . by_cases hfits : LenFits bytes
      . have hturns := hturns hadmits hfits
        have hroom := hroom hadmits
        generalize (r.room.appendData data).1 = room at hturns hroom
        generalize (r.handleOne nowMs data).value = turn at hturns
        obtain ⟨callbacks, r'⟩ := turn
        rcases hturns with ⟨hnone, hcallbacks, hhandles⟩ | ⟨frame, rest, hframe, hcallbacks, hturn⟩
        . simp only at hcallbacks
          subst hcallbacks
          have hsafe : frameReader.Safe bytes := .stall hfits (step_none hnone)
          exact ⟨iff_of_true ⟨⟨hadmits, hfits⟩, passes_pure _⟩ ⟨hadmits, hsafe⟩, fun _ _ => hhandles⟩
        . obtain ⟨hinv', hrest, hroom', hmessages⟩ := hturn
          simp only at hcallbacks hinv' hrest hroom' hmessages
          subst hcallbacks
          have hlen := frameAt_length hframe
          have hsafe : frameReader.Safe bytes ↔ frameReader.Safe rest :=
            ⟨fun h => h.of_next (step_some hframe), fun h => .next hfits (step_some hframe) h⟩
          simp only [hadmits, hfits, true_and, true_implies, hsafe]
          obtain ⟨hpasses', hhandles'⟩ := @ih r' [] hinv' (by rw [List.append_nil, hrest]; omega)
          rw [List.append_nil, hrest] at hpasses' hhandles'
          have hadmits' : r'.room.Admits [] := fun hgrows => absurd rfl hgrows.left
          simp only [hadmits', true_and, true_implies] at hpasses' hhandles'
          by_cases hempty : 0 < rest.length
          . rw [if_pos (by rw [hrest]; exact hempty), passes_bind, hpasses']
            refine ⟨⟨And.left, fun h => ⟨h, passes_pure _⟩⟩, fun h => ?_⟩
            have hhandles := hhandles' h
            rw [hmessages, DataBuffer.appendData_nil, hroom'] at hhandles
            exact hhandles.next hroom hframe
          . obtain rfl : rest = [] := List.eq_nil_of_length_eq_zero (by omega)
            have hnil : frameReader.Safe [] := .stall (WebSocketFrame.lenFits_of_none rfl) (step_none rfl)
            have hhandles : Handles (r.session.messages.receive frame).2
                (room.consumeData (bytes.length - ([] : List UInt8).length : Nat)).2 [] ([], r') := by
              rw [← hmessages, ← hroom']
              apply handles_nil hinv'.tracks hrest
              have hroom := hinv'.room
              rw [hrest] at hroom
              exact hroom
            have hnext := hhandles.next hroom hframe
            rw [List.append_nil] at hnext
            rw [if_neg (by rw [hrest]; exact hempty)]
            exact ⟨iff_of_true (passes_pure _) hnil, fun _ => hnext⟩
      . have hnot : ¬frameReader.Safe bytes := fun hsafe => hfits hsafe.fits
        exact ⟨iff_of_false (fun h => hfits h.left.right) (fun h => hnot h.right), fun _ h => absurd h hnot⟩
    . exact ⟨iff_of_false (fun h => hadmits h.left.left) (fun h => hadmits h.left), fun h => absurd h hadmits⟩

/--
No read needs a buffer that is larger than an `int` counts. `pending` are the bytes in the buffer before it.
-/
def ReadsFit (room : DataBuffer) (pending : List UInt8) : List (List UInt8) → Prop
  | [] => True
  | data :: reads =>
    room.Admits data
      ∧ match (frameReader.drain (pending ++ data)).2 with
        | some rest =>
          ReadsFit ((room.appendData data).1.consumeData ((pending ++ data).length - rest.length : Nat)).2 rest reads
        | none => True

/--
The frames of all reads are handled, and what is left waits for more.
-/
def Receives (m : WsMessages) (bytes : List UInt8) (result : List WsCallback × WsReceiver) : Prop :=
  ∃ frames rest, frameReader.drain bytes = (frames, some rest) ∧ result.2.session.frame.buffer = rest
    ∧ m.receiveAll frames = (result.1, result.2.session.messages)

theorem run_spec (reads : List (Int × List UInt8))
    : ∀ {r : WsReceiver}, r.Inv → frameReader.Drains r.session.frame.buffer [] r.session.frame.buffer →
        ((r.run reads).Passes WsCheck.Holds
            ↔ frameReader.Safe (r.session.frame.buffer ++ (reads.map Prod.snd).flatten)
              ∧ ReadsFit r.room r.session.frame.buffer (reads.map Prod.snd))
          ∧ ((r.run reads).Passes WsCheck.Holds →
            Receives r.session.messages (r.session.frame.buffer ++ (reads.map Prod.snd).flatten)
              (r.run reads).value) := by
  induction reads with
  | nil =>
    intro r _ hquiet
    rw [List.map_nil, List.flatten_nil, List.append_nil]
    exact ⟨iff_of_true (passes_pure _) ⟨hquiet.1, trivial⟩, fun _ => ⟨[], _, hquiet.2, rfl, rfl⟩⟩
  | cons read reads ih =>
    intro r hinv hquiet
    obtain ⟨nowMs, data⟩ := read
    have hlt : (r.session.frame.buffer ++ data).length < r.session.frame.buffer.length + data.length + 1 := by
      rw [List.length_append]
      omega
    obtain ⟨hpasses, hhandles⟩ := handleFrames_spec nowMs _ hinv hlt
    rw [List.map_cons, List.flatten_cons, ← List.append_assoc, run, passes_bind, value_bind, handleFrame, hpasses,
      ReadsFit]
    generalize r.session.frame.buffer ++ data = bytes at hlt hpasses hhandles ⊢
    generalize (reads.map Prod.snd).flatten = flat at ih ⊢
    by_cases hsafe : frameReader.Safe bytes
    . by_cases hadmits : r.room.Admits data
      . have hhandles := hhandles hadmits hsafe
        generalize (handleFrames nowMs _ r data).value = result at hhandles ⊢
        obtain ⟨callbacks, r'⟩ := result
        obtain ⟨frames, rest, hdrain, -, hinv', hrest, hroom, hmessages⟩ := hhandles
        simp only at hinv' hrest hroom hmessages
        have hquiet' := hsafe.drains_rest hdrain
        have hall : frameReader.Safe (bytes ++ flat) ↔ frameReader.Safe (rest ++ flat) :=
          ⟨fun h => (frameReader.safe_of_feed bytes flat h).2 _ _ hdrain, fun h => hsafe.feed hdrain h⟩
        rw [← hrest] at hquiet'
        obtain ⟨hpasses', hreceives⟩ := ih hinv' hquiet'
        rw [hrest] at hpasses' hreceives
        simp only [hadmits, hsafe, true_and, hall, hdrain, ← hroom]
        rw [passes_bind]
        refine ⟨⟨fun h => hpasses'.mp h.left, fun h => ⟨hpasses'.mpr h, passes_pure _⟩⟩, fun h => ?_⟩
        obtain ⟨frames', last, hdrain', hlast, hmessages'⟩ := hreceives h.left
        refine ⟨frames ++ frames', last, ?_, hlast, ?_⟩
        . change frameReader.drain (frameReader.feed bytes flat) = _
          rw [frameReader.drain_feed bytes flat hsafe, hdrain, Result.andThen_some]
          change (frames ++ (frameReader.drain (rest ++ flat)).1, (frameReader.drain (rest ++ flat)).2) = _
          rw [hdrain']
        . rw [WsMessages.receiveAll_append, hmessages, hmessages']
          rfl
      . exact ⟨iff_of_false (fun h => hadmits h.left.left) (fun h => hadmits h.right.left),
          fun h => absurd h.left.left hadmits⟩
    . have hnot : ¬frameReader.Safe (bytes ++ flat) := fun h => hsafe (frameReader.safe_of_feed bytes flat h).1
      exact ⟨iff_of_false (fun h => hsafe h.left.right) (fun h => hnot h.left), fun h => absurd h.left.right hsafe⟩

theorem inv_new : ({} : WsReceiver).Inv where
  tracks := WebSocketFrame.tracks_of_not_ready {} rfl
  room := DataBuffer.room_new

theorem drains_nil : frameReader.Drains [] [] [] :=
  Reader.Drains.stall (WebSocketFrame.lenFits_of_none rfl) (step_none rfl)

/--
A stream is handled without a fault, however it is cut, if and only if the lengths of its frames fit in an
`int64_t` and those of the buffers that hold it in an `int`.
-/
theorem run_passes_iff (reads : List (Int × List UInt8))
    : (({} : WsReceiver).run reads).Passes WsCheck.Holds
        ↔ frameReader.Safe (reads.map Prod.snd).flatten ∧ ReadsFit (.new extraLen) [] (reads.map Prod.snd) :=
  (run_spec reads inv_new drains_nil).left

/--
The payload has a negative length.
-/
theorem not_run_passes
    : ¬∀ reads : List (Int × List UInt8), (({} : WsReceiver).run reads).Passes WsCheck.Holds := by
  intro h
  have hfield := h [(5, [0x82, 0x7f, 0xff, 0xff, 0xff, 0xff, 0xff, 0xff, 0xff, 0xff])]
    (.lenField (2 ^ 64 - 1) (-1)) (by decide)
  revert hfield
  decide

end Handle

end WsReceiver
