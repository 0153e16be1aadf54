import CppStreamer.Basic.Incremental
import CppStreamer.Net.Http.WebSocketFrame

/-!
This module contains the frames of WebSocket as they follow each other in a stream of bytes.
-/

open ByteStream Incremental

structure WsHeader where
  fin : Bool
  opcode : UInt8
  maskingKey : Option MaskingKey
  payloadLen : Nat
  payloadStart : Nat
  deriving DecidableEq, Repr

structure WsFrame where
  fin : Bool
  opcode : UInt8
  payload : List UInt8
  deriving DecidableEq, Repr

namespace WsHeader

/--
The length of the payload, and where its field ends. `none` as long as it has not arrived.
-/
def decodeLen (bytes : List UInt8) : Option (Nat × Nat) :=
  let len := (bytes.getD 1 0 &&& 0x7f).toNat
  if bytes.length < 2 then none
  else if len = 127 then
    if bytes.length < 10 then none else some (read8Bytes (bytes.drop 2), 10)
  else if len = 126 then
    if bytes.length < 4 then none else some (read2Bytes (bytes.drop 2), 4)
  else some (len, 2)

def isMasked (bytes : List UInt8) : Bool := bytes.getD 1 0 >>> 7 = 1

def decode (bytes : List UInt8) : Option WsHeader :=
  match decodeLen bytes with
  | none => none
  | some (payloadLen, start) =>
    let fin := bytes.getD 0 0 >>> 7 = 1
    let opcode := bytes.getD 0 0 &&& 0x0f
    if isMasked bytes then
      if bytes.length < start + 4 then none
      else
        some
          { fin, opcode, maskingKey := some (MaskingKey.read (bytes.drop start)), payloadLen
            payloadStart := start + 4 }
    else some { fin, opcode, maskingKey := none, payloadLen, payloadStart := start }

def payload (h : WsHeader) (bytes : List UInt8) : List UInt8 :=
  let data := (bytes.drop h.payloadStart).take h.payloadLen
  match h.maskingKey with
  | some key => key.mask data
  | none => data

variable {bytes : List UInt8} {h : WsHeader}

theorem getD_append_of_lt {n : Nat} (hn : n < bytes.length) (x : List UInt8)
    : (bytes ++ x).getD n 0 = bytes.getD n 0 := by
  rw [List.getD_eq_getElem?_getD, List.getD_eq_getElem?_getD, List.getElem?_append_left hn]

theorem read_append (hlen : 4 ≤ bytes.length) (x : List UInt8)
    : MaskingKey.read (bytes ++ x) = MaskingKey.read bytes := by
  match bytes, hlen with
  | _ :: _ :: _ :: _ :: _, _ => rfl

theorem decodeLen_le {payloadLen start : Nat} (h : decodeLen bytes = some (payloadLen, start))
    : 2 ≤ start ∧ start ≤ bytes.length := by
  unfold decodeLen at h
  simp only at h
  split at h
  . cases h
  . split at h
    . split at h
      . cases h
      . cases h
        omega
    . split at h
      . split at h
        . cases h
        . cases h
          omega
      . cases h
        omega

theorem decodeLen_append {result : Nat × Nat} (h : decodeLen bytes = some result) (x : List UInt8)
    : decodeLen (bytes ++ x) = some result := by
  unfold decodeLen at h ⊢
  simp only at h ⊢
  by_cases htwo : bytes.length < 2
  . rw [if_pos htwo] at h
    cases h
  . rw [if_neg htwo] at h
    rw [if_neg (by rw [List.length_append]; omega), getD_append_of_lt (by omega)]
    split at h
    . next hlong =>
      rw [if_pos hlong]
      split at h
      . cases h
      . next hten =>
        rw [if_neg (by rw [List.length_append]; omega), List.drop_append_of_le_length (by omega),
          read8Bytes_append _ _ (by rw [List.length_drop]; omega)]
        exact h
    . next hlong =>
      rw [if_neg hlong]
      split at h
      . next hmedium =>
        rw [if_pos hmedium]
        split at h
        . cases h
        . next hfour =>
          rw [if_neg (by rw [List.length_append]; omega), List.drop_append_of_le_length (by omega),
            read2Bytes_append _ _ (by rw [List.length_drop]; omega)]
          exact h
      . next hmedium =>
        rw [if_neg hmedium]
        exact h

theorem decodeLen_length {result : Nat × Nat} (h : decodeLen bytes = some result) : 2 ≤ bytes.length := by
  have := @decodeLen_le bytes result.1 result.2 h
  omega

theorem isMasked_append (hlen : 2 ≤ bytes.length) (x : List UInt8) : isMasked (bytes ++ x) = isMasked bytes := by
  unfold isMasked
  rw [getD_append_of_lt (by omega)]

theorem decode_le (hdecode : decode bytes = some h) : 2 ≤ h.payloadStart ∧ h.payloadStart ≤ bytes.length := by
  unfold decode at hdecode
  split at hdecode
  . cases hdecode
  . next hlen =>
    have := decodeLen_le hlen
    simp only at hdecode
    split at hdecode
    . split at hdecode
      . cases hdecode
      . cases hdecode
        simp only
        omega
    . cases hdecode
      exact this

theorem decode_append (hdecode : decode bytes = some h) (x : List UInt8) : decode (bytes ++ x) = some h := by
  unfold decode at hdecode ⊢
  cases hlen : decodeLen bytes with
  | none =>
    rw [hlen] at hdecode
    cases hdecode
  | some result =>
    obtain ⟨payloadLen, start⟩ := result
    have htwo := decodeLen_length hlen
    rw [hlen] at hdecode
    rw [decodeLen_append hlen x]
    simp only at hdecode ⊢
    rw [isMasked_append htwo, getD_append_of_lt (by omega)]
    split at hdecode
    . next hmask =>
      rw [if_pos hmask]
      split at hdecode
      . cases hdecode
      . next hkey =>
        rw [if_neg (by rw [List.length_append]; omega), List.drop_append_of_le_length (by omega),
          read_append (by rw [List.length_drop]; omega)]
        exact hdecode
    . next hmask =>
      rw [if_neg hmask]
      exact hdecode

theorem decodeLen_of_decode (hdecode : decode bytes = some h)
    : ∃ start, decodeLen bytes = some (h.payloadLen, start) := by
  unfold decode at hdecode
  split at hdecode
  . cases hdecode
  . next payloadLen start hlen =>
    refine ⟨start, ?_⟩
    simp only at hdecode
    split at hdecode
    . split at hdecode
      . cases hdecode
      . cases hdecode
        exact hlen
    . cases hdecode
      exact hlen

end WsHeader

namespace WsFrame

open WsHeader

/--
The first frame and what follows it, once it has arrived.
-/
def frameAt (bytes : List UInt8) : Option (WsFrame × List UInt8) :=
  match decode bytes with
  | none => none
  | some h =>
    if bytes.length < h.payloadStart + h.payloadLen then none
    else some (⟨h.fin, h.opcode, h.payload bytes⟩, bytes.drop (h.payloadStart + h.payloadLen))

/--
The length field is that of an `int64_t`, and so is the length of the frame.
-/
structure LenFits (bytes : List UInt8) : Prop where
  payloadLen : ∀ len start, decodeLen bytes = some (len, start) → len < 2 ^ 63
  frameLen : ∀ h, decode bytes = some h → h.payloadStart + h.payloadLen < 2 ^ 63

variable {bytes rest : List UInt8} {frame : WsFrame}

theorem frameAt_eq_some
    : frameAt bytes = some (frame, rest) ↔ ∃ h, decode bytes = some h
        ∧ h.payloadStart + h.payloadLen ≤ bytes.length ∧ frame = ⟨h.fin, h.opcode, h.payload bytes⟩
        ∧ rest = bytes.drop (h.payloadStart + h.payloadLen) := by
  unfold frameAt
  cases decode bytes with
  | none => simp
  | some h =>
    simp only [Option.some.injEq, exists_eq_left']
    by_cases hlen : bytes.length < h.payloadStart + h.payloadLen
    . rw [if_pos hlen]
      simp only [reduceCtorEq, false_iff]
      omega
    . rw [if_neg hlen, Option.some.injEq, Prod.mk.injEq]
      constructor
      . rintro ⟨rfl, rfl⟩
        exact ⟨Nat.le_of_not_lt hlen, rfl, rfl⟩
      . rintro ⟨_, rfl, rfl⟩
        exact ⟨rfl, rfl⟩

theorem frameAt_append (h : frameAt bytes = some (frame, rest)) (x : List UInt8)
    : frameAt (bytes ++ x) = some (frame, rest ++ x) := by
  obtain ⟨header, hdecode, hlen, rfl, rfl⟩ := frameAt_eq_some.mp h
  refine frameAt_eq_some.mpr ⟨header, decode_append hdecode x, ?_, ?_, ?_⟩
  . rw [List.length_append]
    omega
  . have hdata : ((bytes ++ x).drop header.payloadStart).take header.payloadLen
        = (bytes.drop header.payloadStart).take header.payloadLen := by
      rw [List.drop_append_of_le_length (by omega), List.take_append_of_le_length]
      rw [List.length_drop]
      omega
    unfold WsHeader.payload
    rw [hdata]
  . rw [List.drop_append_of_le_length hlen]

theorem frameAt_length (h : frameAt bytes = some (frame, rest)) : rest.length + 2 ≤ bytes.length := by
  obtain ⟨header, hdecode, hlen, -, rfl⟩ := frameAt_eq_some.mp h
  have := (decode_le hdecode).left
  rw [List.length_drop]
  omega

def step (bytes : List UInt8) : Step (List UInt8) WsFrame :=
  match frameAt bytes with
  | none => .stall bytes
  | some (frame, rest) => .next rest [frame]

theorem step_eq_next {out : List WsFrame} (h : step bytes = .next rest out)
    : ∃ frame, frameAt bytes = some (frame, rest) ∧ out = [frame] := by
  unfold step at h
  split at h
  . cases h
  . next frame _ heq =>
    cases h
    exact ⟨frame, heq, rfl⟩

theorem step_eq_stall (h : step bytes = .stall rest) : frameAt bytes = none ∧ rest = bytes := by
  unfold step at h
  split at h
  . next heq =>
    cases h
    exact ⟨heq, rfl⟩
  . cases h

/--
The frames of a stream, as far as their lengths fit.
-/
def frameReader : Reader (List UInt8) UInt8 WsFrame where
  feed bytes x := bytes ++ x
  step := step
  rank := List.length
  fits := LenFits
  feed_nil := List.append_nil
  feed_append bytes x y := (List.append_assoc bytes x y).symm
  rank_lt bytes rest out h := by
    obtain ⟨frame, h, -⟩ := step_eq_next h
    have := frameAt_length h
    omega
  step_stall bytes rest x _ h := by
    rw [(step_eq_stall h).right]
  step_next bytes rest out x _ h := by
    obtain ⟨frame, hframe, rfl⟩ := step_eq_next h
    rw [step, frameAt_append hframe x]
  step_fail bytes out x _ h := by
    unfold step at h
    split at h
    all_goals cases h
  fits_of_feed bytes x h := by
    constructor
    . intro len start hlen
      exact h.payloadLen len start (decodeLen_append hlen x)
    . intro header hdecode
      exact h.frameLen header (decode_append hdecode x)
  fits_stall bytes rest x _ h := by
    rw [(step_eq_stall h).right]
  fits_next bytes rest out x hfits h := by
    obtain ⟨frame, h, -⟩ := step_eq_next h
    obtain ⟨header, hdecode, -⟩ := frameAt_eq_some.mp h
    obtain ⟨start, hlen⟩ := decodeLen_of_decode hdecode
    constructor
    . intro len start' hlen'
      rw [decodeLen_append hlen x] at hlen'
      cases hlen'
      exact hfits.payloadLen _ _ hlen
    . intro header' hdecode'
      rw [decode_append hdecode x] at hdecode'
      cases hdecode'
      exact hfits.frameLen header hdecode
  fits_fail bytes out x _ h := by
    unfold step at h
    split at h
    all_goals cases h

end WsFrame
