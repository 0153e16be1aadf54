import CppStreamer.Basic.Checked
import CppStreamer.Net.Http.WsFrames
import CppStreamer.Net.Http.WsSessionBase
import CppStreamer.Utils.DataBuffer

/-!
This module contains `WebSocketFrame` and `WebSocketSessionBase` with the bytes they access and the integers they
compute, and the inputs for which all of these are right.
-/

open ByteStream Incremental Checked

/--
What the code relies on: the size that `AppendData` computes, the bytes of the buffer that are accessed, what is
kept of a length field, the sum of the length and the start of a payload, and the amount that is consumed. The
last one is noted down by a loop that does not end.
-/
inductive WsCheck where
  | grow (size : Nat)
  | access (offset len total : Nat)
  | lenField (field : Nat) (value : Int)
  | frameLen (payloadStart : Nat) (payloadLen value : Int)
  | consume (amount : Int) (total : Nat)
  | hang
  deriving DecidableEq, Repr

def WsCheck.Holds : WsCheck → Prop
  | grow size => size ≤ WebSocketSessionBase.maxFrameLen
  | access offset len total => offset + len ≤ total
  | lenField field value => value = field
  | frameLen payloadStart payloadLen value => value = payloadStart + payloadLen
  | consume amount total => 0 < amount ∧ amount ≤ total
  | hang => False

instance : DecidablePred WsCheck.Holds := fun c => by
  cases c
  all_goals
    unfold WsCheck.Holds
    infer_instance

def castInt64 (n : Int) : Int := n.bmod (2 ^ 64)

def castSize (n : Int) : Nat := (n % 2 ^ 64).toNat

namespace DataBuffer

def checkedAppend (b : DataBuffer) (input : List UInt8) : Checked WsCheck DataBuffer := do
  if b.Grows input then check (.grow (b.dataLen + input.length))
  return (b.appendData input).1

end DataBuffer

/--
Access bytes of the buffer.
-/
def readAt (buffer : List UInt8) (offset len : Nat) : Checked WsCheck (List UInt8) := do
  check (.access offset len buffer.length)
  return (buffer.drop offset).take len

theorem readAt_value (bytes : List UInt8) (offset len : Nat)
    : (readAt bytes offset len).value = (bytes.drop offset).take len := rfl

theorem readAt_passes (bytes : List UInt8) (offset len : Nat)
    : (readAt bytes offset len).Passes WsCheck.Holds ↔ offset + len ≤ bytes.length := by
  simp [readAt, WsCheck.Holds]

namespace WebSocketFrame

def checkedParseMask (frame : WebSocketFrame) (maskEnable : Bool) : Checked WsCheck (Bool × WebSocketFrame) := do
  let frame := { frame with maskEnable }
  if maskEnable then
    if castInt frame.buffer.length < frame.payloadStart + 4 then return (false, frame)
    else
      let key ← readAt frame.buffer frame.payloadStart 4
      return (true,
        { frame with
          payloadStart := frame.payloadStart + 4
          maskingKey := MaskingKey.read key
          headerReady := true })
  else return (true, { frame with headerReady := true })

def checkedParseHeader (frame : WebSocketFrame) : Checked WsCheck (Bool × WebSocketFrame) := do
  let header ← readAt frame.buffer 0 2
  let b0 := header.getD 0 0
  let b1 := header.getD 1 0
  let len := (b1 &&& 0x7f).toNat
  let maskEnable := b1 >>> 7 = 1
  let frame :=
    { frame with payloadLen := len, payloadStart := 2, fin := b0 >>> 7 = 1, opcode := b0 &&& 0x0f }
  if len = 127 then
    if frame.buffer.length < 10 then return (false, frame)
    else
      let extLen ← readAt frame.buffer 2 8
      let payloadLen := castInt64 (read8Bytes extLen)
      check (.lenField (read8Bytes extLen) payloadLen)
      checkedParseMask { frame with payloadLen, payloadStart := 10 } maskEnable
  else if len = 126 then
    if frame.buffer.length < 4 then return (false, frame)
    else
      let extLen ← readAt frame.buffer 2 2
      checkedParseMask { frame with payloadLen := read2Bytes extLen, payloadStart := 4 } maskEnable
  else checkedParseMask frame maskEnable

def checkedParsePayload (frame : WebSocketFrame) : Checked WsCheck (Bool × WebSocketFrame) := do
  let frameLen := castInt64 (frame.payloadStart + frame.payloadLen)
  check (.frameLen frame.payloadStart frame.payloadLen frameLen)
  if castInt frame.buffer.length < frameLen then return (false, frame)
  else
    if frame.maskEnable then
      check (.access frame.payloadStart (castSize frame.payloadLen) frame.buffer.length)
    return (true, frame.unmask)

def checkedParse (frame : WebSocketFrame) (data : List UInt8) : Checked WsCheck (Bool × WebSocketFrame) := do
  let frame := { frame with buffer := frame.buffer ++ data }
  if frame.buffer.length < 2 then return (false, frame)
  else if frame.headerReady then checkedParsePayload frame
  else
    let (ready, frame) ← frame.checkedParseHeader
    if ready then checkedParsePayload frame else return (false, frame)

open WsHeader WsFrame

/--
What has been read of a header.
-/
structure HasHeader (frame : WebSocketFrame) (h : WsHeader) : Prop where
  decode : decode frame.buffer = some h
  ready : frame.headerReady = true
  fin : frame.fin = h.fin
  opcode : frame.opcode = h.opcode
  payloadStart : frame.payloadStart = h.payloadStart
  payloadLen : frame.payloadLen = h.payloadLen
  maskEnable : frame.maskEnable = h.maskingKey.isSome
  maskingKey : ∀ key, h.maskingKey = some key → frame.maskingKey = key

/--
The state between two calls of `Parse`.
-/
structure Tracks (frame : WebSocketFrame) : Prop where
  header : frame.headerReady = true → ∃ h, frame.HasHeader h
  fits : frame.headerReady = true → LenFits frame.buffer

section Parse

variable {frame : WebSocketFrame} {h : WsHeader} {bytes : List UInt8} {len start : Nat}

theorem read_take (bytes : List UInt8) : MaskingKey.read (bytes.take 4) = MaskingKey.read bytes := by
  match bytes with
  | [] | [_] | [_, _] | [_, _, _] => rfl
  | _ :: _ :: _ :: _ :: _ => rfl

/--
The header is read, or it is not there yet and nothing is lost.
-/
def ReadsHeader (frame : WebSocketFrame) (result : Bool × WebSocketFrame) : Prop :=
  result.2.buffer = frame.buffer
    ∧ (decode frame.buffer = none ∧ result.1 = false ∧ result.2.headerReady = false
      ∨ ∃ h, result.1 = true ∧ result.2.HasHeader h)

theorem checkedParseMask_spec (frame' : WebSocketFrame) (hbuffer : frame'.buffer = frame.buffer)
    (hsize : frame.buffer.length < 2 ^ 31) (hready : frame'.headerReady = false)
    (hlen : decodeLen frame.buffer = some (len, frame'.payloadStart)) (hpayload : frame'.payloadLen = len)
    (hfin : frame'.fin = decide (frame.buffer.getD 0 0 >>> 7 = 1))
    (hopcode : frame'.opcode = frame.buffer.getD 0 0 &&& 0x0f) {maskEnable : Bool}
    (hmask : isMasked frame.buffer = maskEnable)
    : (frame'.checkedParseMask maskEnable).Passes WsCheck.Holds
      ∧ frame.ReadsHeader (frame'.checkedParseMask maskEnable).value := by
  have hcast : castInt frame'.buffer.length = frame.buffer.length := by
    rw [hbuffer]
    exact castInt_of_lt hsize
  unfold ReadsHeader checkedParseMask
  cases maskEnable with
  | false =>
    have hdecode : decode frame'.buffer = some
        { fin := frame.buffer.getD 0 0 >>> 7 = 1, opcode := frame.buffer.getD 0 0 &&& 0x0f, maskingKey := none
          payloadLen := len, payloadStart := frame'.payloadStart } := by
      rw [hbuffer, decode, hlen]
      simp [hmask]
    refine ⟨passes_pure _, hbuffer, Or.inr ⟨_, rfl, hdecode, rfl, hfin, hopcode, rfl, hpayload, rfl, ?_⟩⟩
    rintro key ⟨⟩
  | true =>
    simp only [if_true, hcast]
    by_cases hkey : frame.buffer.length < frame'.payloadStart + 4
    . rw [if_pos (by omega)]
      refine ⟨passes_pure _, hbuffer, Or.inl ⟨?_, rfl, hready⟩⟩
      rw [decode, hlen]
      simp only [hmask, if_true]
      rw [if_pos hkey]
    . have hdecode : decode frame'.buffer = some
          { fin := frame.buffer.getD 0 0 >>> 7 = 1, opcode := frame.buffer.getD 0 0 &&& 0x0f
            maskingKey := some (MaskingKey.read (frame'.buffer.drop frame'.payloadStart))
            payloadLen := len, payloadStart := frame'.payloadStart + 4 } := by
        rw [hbuffer, decode, hlen]
        simp only [hmask, if_true]
        rw [if_neg hkey]
      rw [if_neg (by omega)]
      refine ⟨?_, hbuffer, Or.inr ⟨_, rfl, hdecode, rfl, hfin, hopcode, rfl, hpayload, rfl, ?_⟩⟩
      . simp only [passes_bind, passes_pure, and_true, readAt_passes, hbuffer]
        omega
      . rintro key ⟨⟩
        apply read_take

/--
What is known of a frame once the length of its payload is.
-/
def started (frame : WebSocketFrame) (payloadLen : Int) (payloadStart : Nat) : WebSocketFrame :=
  { frame with
    payloadLen, payloadStart
    fin := frame.buffer.getD 0 0 >>> 7 = 1
    opcode := frame.buffer.getD 0 0 &&& 0x0f }

theorem header_getD (bytes : List UInt8) : ((bytes.drop 0).take 2).getD 0 0 = bytes.getD 0 0
    ∧ ((bytes.drop 0).take 2).getD 1 0 = bytes.getD 1 0 := by
  match bytes with
  | [] | [_] => exact ⟨rfl, rfl⟩
  | _ :: _ :: _ => exact ⟨rfl, rfl⟩

theorem read8Bytes_lt (bytes : List UInt8) : read8Bytes bytes < 2 ^ 64 := by
  have h1 := read4Bytes_lt bytes
  have h2 := read4Bytes_lt (bytes.drop 4)
  unfold read8Bytes
  omega

theorem castInt64_eq_iff (n : Nat) (h : n < 2 ^ 64) : castInt64 n = n ↔ n < 2 ^ 63 := by
  unfold castInt64
  rw [Int.bmod_def]
  split
  all_goals omega

theorem read8Bytes_take (bytes : List UInt8) (h : 8 ≤ bytes.length) : read8Bytes (bytes.take 8) = read8Bytes bytes := by
  have := read8Bytes_append (bytes.take 8) (bytes.drop 8) (by rw [List.length_take]; omega)
  rw [List.take_append_drop] at this
  exact this.symm

theorem read2Bytes_take (bytes : List UInt8) : read2Bytes (bytes.take 2) = read2Bytes bytes := by
  match bytes with
  | [] | [_] => rfl
  | _ :: _ :: _ => rfl

theorem decode_of_decodeLen (h : decodeLen bytes = none) : decode bytes = none := by
  rw [decode, h]

theorem decodeLen_lt (h : decodeLen bytes = some (len, start)) (hshort : (bytes.getD 1 0 &&& 0x7f).toNat ≠ 127)
    : len < 2 ^ 63 := by
  have hlt := read2Bytes_lt (bytes.drop 2)
  have hfield : (bytes.getD 1 0 &&& 0x7f).toNat < 2 ^ 8 := UInt8.toNat_lt _
  unfold decodeLen at h
  simp only [hshort, if_false] at h
  split at h
  . cases h
  . split at h
    . split at h
      . cases h
      . cases h
        omega
    . cases h
      omega

theorem checkedParseHeader_none (hlen : 2 ≤ frame.buffer.length) (hready : frame.headerReady = false)
    (hnone : decodeLen frame.buffer = none)
    : frame.checkedParseHeader.Passes WsCheck.Holds ∧ frame.ReadsHeader frame.checkedParseHeader.value := by
  obtain ⟨-, hb1⟩ := header_getD frame.buffer
  have htwo : (readAt frame.buffer 0 2).Passes WsCheck.Holds := (readAt_passes _ _ _).mpr (by omega)
  have hdecode := decode_of_decodeLen hnone
  unfold decodeLen at hnone
  simp only [Nat.not_lt.mpr hlen, if_false] at hnone
  unfold checkedParseHeader
  rw [passes_bind, value_bind, readAt_value]
  simp only [htwo, true_and, hb1]
  split at hnone
  . next hlong =>
    rw [if_pos hlong]
    split at hnone
    . next hten =>
      rw [if_pos hten]
      exact ⟨passes_pure _, rfl, Or.inl ⟨hdecode, rfl, hready⟩⟩
    . cases hnone
  . next hlong =>
    rw [if_neg hlong]
    split at hnone
    . next hmedium =>
      rw [if_pos hmedium]
      split at hnone
      . next hfour =>
        rw [if_pos hfour]
        exact ⟨passes_pure _, rfl, Or.inl ⟨hdecode, rfl, hready⟩⟩
      . cases hnone
    . cases hnone

theorem checkedParseHeader_some (hlen : 2 ≤ frame.buffer.length) (hsize : frame.buffer.length < 2 ^ 31)
    (hready : frame.headerReady = false) (hsome : decodeLen frame.buffer = some (len, start))
    : (frame.checkedParseHeader.Passes WsCheck.Holds ↔ len < 2 ^ 63)
      ∧ (len < 2 ^ 63 → frame.ReadsHeader frame.checkedParseHeader.value) := by
  obtain ⟨hb0, hb1⟩ := header_getD frame.buffer
  have htwo : (readAt frame.buffer 0 2).Passes WsCheck.Holds := (readAt_passes _ _ _).mpr (by omega)
  have hmask (payloadLen : Int) (hpayload : payloadLen = len)
      : ((frame.started payloadLen start).checkedParseMask (isMasked frame.buffer)).Passes WsCheck.Holds
        ∧ frame.ReadsHeader ((frame.started payloadLen start).checkedParseMask (isMasked frame.buffer)).value :=
    checkedParseMask_spec (frame.started payloadLen start) rfl hsize hready hsome hpayload rfl rfl rfl
  have hlt := decodeLen_lt hsome
  unfold decodeLen at hsome
  simp only [Nat.not_lt.mpr hlen, if_false] at hsome
  unfold checkedParseHeader
  rw [passes_bind, value_bind, readAt_value]
  simp only [htwo, true_and, hb0, hb1]
  split at hsome
  . next hlong =>
    rw [if_pos hlong]
    split at hsome
    . cases hsome
    . next hten =>
      have hread : (readAt frame.buffer 2 8).Passes WsCheck.Holds := (readAt_passes _ _ _).mpr (by omega)
      have htake := read8Bytes_take (frame.buffer.drop 2) (by rw [List.length_drop]; omega)
      have hcast := castInt64_eq_iff _ (read8Bytes_lt (frame.buffer.drop 2))
      rw [if_neg hten]
      rw [Option.some.injEq, Prod.mk.injEq] at hsome
      obtain ⟨rfl, rfl⟩ := hsome
      simp only [passes_bind, value_bind, readAt_value, hread, true_and, htake, passes_check, WsCheck.Holds, hcast]
      generalize castInt64 (read8Bytes (frame.buffer.drop 2)) = payloadLen at hcast ⊢
      refine ⟨⟨And.left, fun h => ⟨h, (hmask _ (hcast.mpr h)).left⟩⟩, fun h => (hmask _ (hcast.mpr h)).right⟩
  . next hlong =>
    have hlt := hlt hlong
    rw [if_neg hlong]
    split at hsome
    . next hmedium =>
      rw [if_pos hmedium]
      split at hsome
      . cases hsome
      . next hfour =>
        have hread : (readAt frame.buffer 2 2).Passes WsCheck.Holds := (readAt_passes _ _ _).mpr (by omega)
        rw [if_neg hfour]
        rw [Option.some.injEq, Prod.mk.injEq] at hsome
        obtain ⟨rfl, rfl⟩ := hsome
        simp only [passes_bind, value_bind, readAt_value, hread, true_and, read2Bytes_take]
        exact ⟨iff_of_true (hmask _ rfl).left hlt, fun _ => (hmask _ rfl).right⟩
    . next hmedium =>
      rw [if_neg hmedium]
      rw [Option.some.injEq, Prod.mk.injEq] at hsome
      obtain ⟨rfl, rfl⟩ := hsome
      exact ⟨iff_of_true (hmask _ rfl).left hlt, fun _ => (hmask _ rfl).right⟩

theorem HasHeader.le (hheader : frame.HasHeader h) : 2 ≤ h.payloadStart ∧ h.payloadStart ≤ frame.buffer.length :=
  decode_le hheader.decode

theorem HasHeader.append (hheader : frame.HasHeader h) (data : List UInt8)
    : HasHeader { frame with buffer := frame.buffer ++ data } h where
  decode := decode_append hheader.decode data
  ready := hheader.ready
  fin := hheader.fin
  opcode := hheader.opcode
  payloadStart := hheader.payloadStart
  payloadLen := hheader.payloadLen
  maskEnable := hheader.maskEnable
  maskingKey := hheader.maskingKey

/--
A frame whose payload is there, with all the bytes that have been received.
-/
structure Received (frame : WebSocketFrame) (h : WsHeader) (bytes : List UInt8) : Prop where
  decode : decode bytes = some h
  le : h.payloadStart + h.payloadLen ≤ bytes.length
  fin : frame.fin = h.fin
  opcode : frame.opcode = h.opcode
  payloadStart : frame.payloadStart = h.payloadStart
  payloadLen : frame.payloadLen = h.payloadLen
  length : frame.buffer.length = bytes.length
  payload : (frame.buffer.drop h.payloadStart).take h.payloadLen = h.payload bytes
  rest : frame.buffer.drop (h.payloadStart + h.payloadLen) = bytes.drop (h.payloadStart + h.payloadLen)

theorem HasHeader.received (hheader : frame.HasHeader h)
    (hle : h.payloadStart + h.payloadLen ≤ frame.buffer.length)
    : frame.unmask.Received h frame.buffer := by
  obtain ⟨hdecode, -, hfin, hopcode, hstart, hlen, hmask, hkey⟩ := hheader
  unfold unmask
  cases hsome : h.maskingKey with
  | none =>
    rw [hsome, Option.isSome_none] at hmask
    rw [hmask, if_neg Bool.false_ne_true]
    refine ⟨hdecode, hle, hfin, hopcode, hstart, hlen, rfl, ?_, rfl⟩
    rw [WsHeader.payload, hsome]
  | some key =>
    rw [hsome, Option.isSome_some] at hmask
    have hkey := hkey key hsome
    rw [hmask, if_pos rfl]
    simp only [hstart, hlen, hkey, Int.toNat_natCast]
    generalize hhead : frame.buffer.take h.payloadStart = head
    generalize hdata : (frame.buffer.drop h.payloadStart).take h.payloadLen = data
    generalize hrest : (frame.buffer.drop h.payloadStart).drop h.payloadLen = rest
    have hheadLen : head.length = h.payloadStart := by
      rw [← hhead, List.length_take]
      omega
    have hdataLen : (key.mask data).length = h.payloadLen := by
      rw [MaskingKey.length_mask, ← hdata, List.length_take, List.length_drop]
      omega
    refine ⟨hdecode, hle, hfin, hopcode, rfl, rfl, ?_, ?_, ?_⟩
    . simp only [List.length_append, hheadLen, hdataLen]
      rw [← hrest, List.length_drop, List.length_drop]
      omega
    . simp only
      rw [List.drop_left' hheadLen, List.take_left' hdataLen, WsHeader.payload, hsome, hdata]
    . simp only
      rw [← List.drop_drop, List.drop_left' hheadLen, List.drop_left' hdataLen, ← List.drop_drop, hrest]

theorem castSize_of_lt {n : Nat} (h : n < 2 ^ 64) : castSize n = n := by
  have hlt : (n : Int) < 2 ^ 64 := by exact_mod_cast h
  rw [castSize, Int.emod_eq_of_lt (Int.natCast_nonneg n) hlt, Int.toNat_natCast]

theorem checkedParsePayload_spec (hheader : frame.HasHeader h) (hsize : frame.buffer.length < 2 ^ 31)
    (hlen : h.payloadLen < 2 ^ 63)
    : (frame.checkedParsePayload.Passes WsCheck.Holds ↔ h.payloadStart + h.payloadLen < 2 ^ 63)
      ∧ (h.payloadStart + h.payloadLen < 2 ^ 63 → frame.checkedParsePayload.value
          = if frame.buffer.length < h.payloadStart + h.payloadLen then (false, frame) else (true, frame.unmask)) := by
  have hle := hheader.le.right
  have hsum : (frame.payloadStart : Int) + frame.payloadLen = (h.payloadStart + h.payloadLen : Nat) := by
    rw [hheader.payloadStart, hheader.payloadLen, Int.natCast_add]
  have hsize' : castSize frame.payloadLen = h.payloadLen := by
    rw [hheader.payloadLen]
    apply castSize_of_lt
    omega
  have hcast := castInt64_eq_iff (h.payloadStart + h.payloadLen) (by omega)
  unfold checkedParsePayload
  simp only [hsum, castInt_of_lt hsize]
  generalize castInt64 ((h.payloadStart + h.payloadLen : Nat) : Int) = frameLen at hcast ⊢
  rw [passes_bind, value_bind, passes_check, WsCheck.Holds, hsum, hcast]
  refine ⟨⟨And.left, fun hfits => ⟨hfits, ?_⟩⟩, fun hfits => ?_⟩
  . obtain rfl := hcast.mpr hfits
    by_cases hshort : frame.buffer.length < h.payloadStart + h.payloadLen
    . rw [if_pos (Int.ofNat_lt.mpr hshort)]
      apply passes_pure
    . rw [if_neg (mt Int.ofNat_lt.mp hshort)]
      split
      . rw [passes_bind, passes_check, WsCheck.Holds, hheader.payloadStart, hsize']
        exact ⟨Nat.le_of_not_lt hshort, passes_pure _⟩
      . apply passes_pure
  . obtain rfl := hcast.mpr hfits
    by_cases hshort : frame.buffer.length < h.payloadStart + h.payloadLen
    . rw [if_pos (Int.ofNat_lt.mpr hshort), if_pos hshort]
      rfl
    . rw [if_neg (mt Int.ofNat_lt.mp hshort), if_neg hshort]
      split
      all_goals rfl

theorem lenFits_iff (hdecode : WsHeader.decode bytes = some h)
    : LenFits bytes ↔ h.payloadStart + h.payloadLen < 2 ^ 63 := by
  obtain ⟨start, hlen⟩ := decodeLen_of_decode hdecode
  constructor
  . intro hfits
    exact hfits.frameLen h hdecode
  . intro hlt
    constructor
    . intro len' start' hlen'
      rw [hlen, Option.some.injEq, Prod.mk.injEq] at hlen'
      omega
    . intro h' hdecode'
      rw [hdecode, Option.some.injEq] at hdecode'
      exact hdecode' ▸ hlt

theorem lenFits_of_none (hnone : decodeLen bytes = none) : LenFits bytes where
  payloadLen len start hlen := by
    rw [hnone] at hlen
    cases hlen
  frameLen h hdecode := by
    rw [decode_of_decodeLen hnone] at hdecode
    cases hdecode

/--
The frame is there, or it is not and nothing is lost.
-/
def Parses (bytes : List UInt8) (result : Bool × WebSocketFrame) : Prop :=
  (frameAt bytes = none ∧ result.1 = false ∧ result.2.Tracks ∧ result.2.buffer = bytes)
    ∨ ∃ h, result.1 = true ∧ result.2.Received h bytes

theorem HasHeader.checkedParsePayload (hheader : frame.HasHeader h) (hsize : frame.buffer.length < 2 ^ 31)
    (hlen : h.payloadLen < 2 ^ 63)
    : (frame.checkedParsePayload.Passes WsCheck.Holds ↔ LenFits frame.buffer)
      ∧ (LenFits frame.buffer → Parses frame.buffer frame.checkedParsePayload.value) := by
  have hiff := lenFits_iff hheader.decode
  obtain ⟨hpasses, hvalue⟩ := checkedParsePayload_spec hheader hsize hlen
  refine ⟨hpasses.trans hiff.symm, fun hfits => ?_⟩
  rw [hvalue (hiff.mp hfits)]
  by_cases hshort : frame.buffer.length < h.payloadStart + h.payloadLen
  . rw [if_pos hshort]
    refine Or.inl ⟨?_, rfl, ⟨fun _ => ⟨h, hheader⟩, fun _ => hfits⟩, rfl⟩
    rw [frameAt, hheader.decode]
    exact if_pos hshort
  . rw [if_neg hshort]
    exact Or.inr ⟨h, rfl, hheader.received (Nat.le_of_not_lt hshort)⟩

theorem frameAt_of_decode (hdecode : WsHeader.decode bytes = none) : frameAt bytes = none := by
  rw [frameAt, hdecode]

theorem tracks_of_not_ready (frame : WebSocketFrame) (hready : frame.headerReady = false) : frame.Tracks := by
  constructor
  all_goals
    intro h
    rw [hready] at h
    cases h

theorem checkedParse_new {data : List UInt8} (hready : frame.headerReady = false)
    (hlen : 2 ≤ (frame.buffer ++ data).length) (hsize : (frame.buffer ++ data).length < 2 ^ 31)
    : ((frame.checkedParse data).Passes WsCheck.Holds ↔ LenFits (frame.buffer ++ data))
      ∧ (LenFits (frame.buffer ++ data) → Parses (frame.buffer ++ data) (frame.checkedParse data).value) := by
  have hnot : ¬frame.headerReady = true := by
    rw [hready]
    exact Bool.false_ne_true
  unfold WebSocketFrame.checkedParse
  simp only
  rw [if_neg (Nat.not_lt.mpr hlen), if_neg hnot]
  generalize hframe : { frame with buffer := frame.buffer ++ data } = frame'
  have hbuffer : frame'.buffer = frame.buffer ++ data := by rw [← hframe]
  have hready' : frame'.headerReady = false := by
    rw [← hframe]
    exact hready
  rw [← hbuffer] at hlen hsize ⊢
  rw [passes_bind, value_bind]
  cases hfield : decodeLen frame'.buffer with
  | none =>
    obtain ⟨hpasses, hvalue, hstall⟩ := checkedParseHeader_none hlen hready' hfield
    rcases hstall with ⟨hdecode, hresult, hnot⟩ | ⟨h, -, hheader⟩
    . simp only [hresult, Bool.false_eq_true, if_false]
      refine ⟨iff_of_true ⟨hpasses, passes_pure _⟩ (lenFits_of_none hfield), fun _ => Or.inl ?_⟩
      exact ⟨frameAt_of_decode hdecode, rfl, tracks_of_not_ready _ hnot, hvalue⟩
    . have hdecode := hheader.decode
      rw [hvalue, decode_of_decodeLen hfield] at hdecode
      cases hdecode
  | some field =>
    obtain ⟨len, start⟩ := field
    obtain ⟨hpasses, hvalue⟩ := checkedParseHeader_some hlen hsize hready' hfield
    rw [hpasses]
    by_cases hlt : len < 2 ^ 63
    . obtain ⟨hvalue, ⟨hdecode, hresult, hnot⟩ | ⟨h, hresult, hheader⟩⟩ := hvalue hlt
      . simp only [hresult, Bool.false_eq_true, if_false]
        refine ⟨iff_of_true ⟨hlt, passes_pure _⟩ ?_, fun _ => Or.inl ?_⟩
        . constructor
          . intro len' start' hfield'
            rw [hfield, Option.some.injEq, Prod.mk.injEq] at hfield'
            exact hfield'.left ▸ hlt
          . intro h hdecode'
            rw [hdecode] at hdecode'
            cases hdecode'
        . exact ⟨frameAt_of_decode hdecode, rfl, tracks_of_not_ready _ hnot, hvalue⟩
      . simp only [hresult, if_true, hlt, true_and]
        rw [← hvalue] at hsize ⊢
        obtain ⟨start', hfield'⟩ := decodeLen_of_decode hheader.decode
        rw [hvalue, hfield, Option.some.injEq, Prod.mk.injEq] at hfield'
        exact hheader.checkedParsePayload hsize (hfield'.left ▸ hlt)
    . have hnot : ¬LenFits frame'.buffer := fun hfits => hlt (hfits.payloadLen _ _ hfield)
      refine ⟨iff_of_false (fun h => hlt h.left) hnot, fun hfits => absurd hfits hnot⟩

theorem Tracks.checkedParse (htracks : frame.Tracks) (data : List UInt8)
    (hsize : (frame.buffer ++ data).length < 2 ^ 31)
    : ((frame.checkedParse data).Passes WsCheck.Holds ↔ LenFits (frame.buffer ++ data))
      ∧ (LenFits (frame.buffer ++ data) → Parses (frame.buffer ++ data) (frame.checkedParse data).value) := by
  cases hready : frame.headerReady with
  | false =>
    by_cases htwo : (frame.buffer ++ data).length < 2
    . have hnone : decodeLen (frame.buffer ++ data) = none := by
        rw [decodeLen]
        exact if_pos htwo
      unfold WebSocketFrame.checkedParse
      simp only [htwo, if_true]
      refine ⟨iff_of_true (passes_pure _) (lenFits_of_none hnone), fun _ => Or.inl ⟨?_, rfl, ?_, rfl⟩⟩
      . apply frameAt_of_decode (decode_of_decodeLen hnone)
      . exact tracks_of_not_ready { frame with buffer := frame.buffer ++ data } hready
    . apply checkedParse_new hready (Nat.le_of_not_lt htwo) hsize
  | true =>
    obtain ⟨h, hheader⟩ := htracks.header hready
    have hle := hheader.le
    have hlen : ¬(frame.buffer ++ data).length < 2 := by
      rw [List.length_append]
      omega
    obtain ⟨start, hfield⟩ := decodeLen_of_decode hheader.decode
    unfold WebSocketFrame.checkedParse
    simp only
    rw [if_neg hlen, if_pos hready]
    exact (hheader.append data).checkedParsePayload hsize ((htracks.fits hready).payloadLen _ _ hfield)

end Parse

end WebSocketFrame
