import CppStreamer.Utils.ByteStream

/-!
This module contains the frames of WebSocket: how the two ends of a connection write them and how
`WebSocketFrame` reads them. The buffer of a frame is the queue of the bytes received and not consumed.
-/

open ByteStream

def wsMaxHeaderLen : Nat := 10

def wsOpContinueType : UInt8 := 0x00
def wsOpTextType : UInt8 := 0x01
def wsOpBinType : UInt8 := 0x02
def wsOpCloseType : UInt8 := 0x08
def wsOpPingType : UInt8 := 0x09
def wsOpPongType : UInt8 := 0x0a

structure MaskingKey where
  k0 : UInt8 := 0
  k1 : UInt8 := 0
  k2 : UInt8 := 0
  k3 : UInt8 := 0
  deriving DecidableEq, Repr

namespace MaskingKey

def bytes (key : MaskingKey) : List UInt8 := [key.k0, key.k1, key.k2, key.k3]

def read : List UInt8 → MaskingKey
  | k0 :: k1 :: k2 :: k3 :: _ => ⟨k0, k1, k2, k3⟩
  | _ => {}

/--
The loop over blocks of four bytes, and the one over what is left.
-/
def mask (key : MaskingKey) : List UInt8 → List UInt8
  | b0 :: b1 :: b2 :: b3 :: data =>
    (b0 ^^^ key.k0) :: (b1 ^^^ key.k1) :: (b2 ^^^ key.k2) :: (b3 ^^^ key.k3) :: mask key data
  | [b0, b1, b2] => [b0 ^^^ key.k0, b1 ^^^ key.k1, b2 ^^^ key.k2]
  | [b0, b1] => [b0 ^^^ key.k0, b1 ^^^ key.k1]
  | [b0] => [b0 ^^^ key.k0]
  | [] => []

@[simp]
theorem length_mask (key : MaskingKey) (data : List UInt8) : (key.mask data).length = data.length := by
  fun_induction mask key data with
  | case1 b0 b1 b2 b3 data ih => simp [ih]
  | case2 | case3 | case4 | case5 => rfl

theorem mask_mask (key : MaskingKey) (data : List UInt8) : key.mask (key.mask data) = data := by
  have hxor (b k : UInt8) : b ^^^ k ^^^ k = b := by
    rw [UInt8.xor_assoc, UInt8.xor_self, UInt8.xor_zero]
  fun_induction mask key data with
  | case1 b0 b1 b2 b3 data ih => simp [mask, hxor, ih]
  | case2 | case3 | case4 => simp [mask, hxor]
  | case5 => rfl

theorem read_bytes (key : MaskingKey) (rest : List UInt8) : read (key.bytes ++ rest) = key := rfl

end MaskingKey

section Send

/--
The header of a masked frame: the bit fields `fin` and `opcode`, then `mask` and `payload_len`, then the
length where it needs more than 7 bits.
-/
def wsHeader (len : Nat) (opCode : UInt8) : List UInt8 :=
  let first := 0x80 ||| (opCode &&& 0x0f)
  if 126 ≤ len then
    if 65535 < len then [first, 0x80 ||| 127] ++ write8Bytes len
    else [first, 0x80 ||| 126] ++ write2Bytes len
  else [first, 0x80 ||| UInt8.ofNat len]

/--
The client sends a frame at once.
-/
def WebSocketClient.sendWsFrame (data : List UInt8) (opCode : UInt8) (maskingKey : MaskingKey)
    : List (List UInt8) :=
  [wsHeader data.length opCode ++ maskingKey.bytes ++ maskingKey.mask data]

/--
The session of the server sends a frame in three writes.
-/
def WebSocketSession.sendWsFrame (data : List UInt8) (opCode : UInt8) (maskingKey : MaskingKey)
    : List (List UInt8) :=
  [wsHeader data.length opCode, maskingKey.bytes, maskingKey.mask data]

/--
The two ends of a connection.
-/
inductive WsPeer where
  | client
  | server
  deriving DecidableEq, Repr

def WsPeer.sendWsFrame : WsPeer → List UInt8 → UInt8 → MaskingKey → List (List UInt8)
  | .client => WebSocketClient.sendWsFrame
  | .server => WebSocketSession.sendWsFrame

theorem flatten_sendWsFrame (peer : WsPeer) (data : List UInt8) (opCode : UInt8) (key : MaskingKey)
    : (peer.sendWsFrame data opCode key).flatten
        = wsHeader data.length opCode ++ (key.bytes ++ key.mask data) := by
  cases peer with
  | client => simp [WsPeer.sendWsFrame, WebSocketClient.sendWsFrame]
  | server => simp [WsPeer.sendWsFrame, WebSocketSession.sendWsFrame]

end Send

/--
A value that is cast to `int`.
-/
def castInt (n : Int) : Int := n.bmod (2 ^ 32)

theorem castInt_of_lt {n : Nat} (h : n < 2 ^ 31) : castInt n = n := by
  apply Int.bmod_eq_of_le
  . omega
  . omega

structure WebSocketFrame where
  buffer : List UInt8 := []
  payloadStart : Nat := 0
  payloadLen : Int := 0
  opcode : UInt8 := 0
  maskEnable : Bool := false
  fin : Bool := false
  headerReady : Bool := false
  maskingKey : MaskingKey := {}
  deriving DecidableEq, Repr

namespace WebSocketFrame

/--
The mask bit and the key. The first component is `false` if more bytes are needed.
-/
def parseMask (frame : WebSocketFrame) (maskEnable : Bool) : Bool × WebSocketFrame :=
  let frame := { frame with maskEnable }
  if maskEnable then
    if castInt frame.buffer.length < frame.payloadStart + 4 then (false, frame)
    else
      (true,
        { frame with
          payloadStart := frame.payloadStart + 4
          maskingKey := MaskingKey.read (frame.buffer.drop frame.payloadStart)
          headerReady := true })
  else (true, { frame with headerReady := true })

/--
What is done while `header_ready_` is not set, with the first two bytes of the buffer.
-/
def parseHeader (frame : WebSocketFrame) (b0 b1 : UInt8) : Bool × WebSocketFrame :=
  let len := (b1 &&& 0x7f).toNat
  let maskEnable := b1 >>> 7 = 1
  let frame :=
    { frame with payloadLen := len, payloadStart := 2, fin := b0 >>> 7 = 1, opcode := b0 &&& 0x0f }
  if len = 127 then
    if frame.buffer.length < 10 then (false, frame)
    else
      parseMask
        { frame with
          payloadLen := (read8Bytes (frame.buffer.drop 2) : Int).bmod (2 ^ 64), payloadStart := 10 }
        maskEnable
  else if len = 126 then
    if frame.buffer.length < 4 then (false, frame)
    else
      parseMask { frame with payloadLen := read2Bytes (frame.buffer.drop 2), payloadStart := 4 } maskEnable
  else parseMask frame maskEnable

/--
The bytes of the payload are unmasked in place.
-/
def unmask (frame : WebSocketFrame) : WebSocketFrame :=
  if frame.maskEnable then
    let payload := frame.buffer.drop frame.payloadStart
    { frame with
      buffer := frame.buffer.take frame.payloadStart
        ++ (frame.maskingKey.mask (payload.take frame.payloadLen.toNat)
          ++ payload.drop frame.payloadLen.toNat) }
  else frame

/--
What is done once the header is ready. A length that is negative, or too large for the sum with
`payload_start_`, makes the code run out of its buffer, which is `none`.
-/
def parsePayload (frame : WebSocketFrame) : Option (Bool × WebSocketFrame) :=
  if frame.payloadLen < 0 ∨ 2 ^ 63 ≤ frame.payloadStart + frame.payloadLen then none
  else if castInt frame.buffer.length < frame.payloadStart + frame.payloadLen then some (false, frame)
  else some (true, frame.unmask)

/--
`false` stands for the return value 1.
-/
def parse (frame : WebSocketFrame) (data : List UInt8) : Option (Bool × WebSocketFrame) :=
  let frame := { frame with buffer := frame.buffer ++ data }
  match frame.buffer with
  | b0 :: b1 :: _ =>
    match if frame.headerReady then (true, frame) else frame.parseHeader b0 b1 with
    | (false, frame) => some (false, frame)
    | (true, frame) => frame.parsePayload
  | _ => some (false, frame)

def payloadIsReady (frame : WebSocketFrame) : Bool :=
  castInt frame.payloadLen ≤ castInt frame.buffer.length - frame.payloadStart

def payload (frame : WebSocketFrame) : List UInt8 :=
  (frame.buffer.drop frame.payloadStart).take frame.payloadLen.toNat

def consume (frame : WebSocketFrame) (len : Nat) : WebSocketFrame :=
  if len ≤ frame.buffer.length then { frame with buffer := frame.buffer.drop len } else frame

def reset (frame : WebSocketFrame) : WebSocketFrame :=
  { frame with payloadStart := 0, payloadLen := 0, headerReady := false }

section Parse

variable {header data : List UInt8} {key : MaskingKey} {n : Nat}

theorem take_header {m : Nat} (hm : header.length ≤ m)
    : (header ++ data).take m = header ++ data.take (m - header.length) := by
  rw [List.take_append, List.take_of_length_le hm]

theorem parseMask_take {frame : WebSocketFrame}
    (hbuffer : frame.buffer = (header ++ (key.bytes ++ data)).take n)
    (hstart : frame.payloadStart = header.length) (hle : header.length ≤ n)
    (hn : n ≤ header.length + 4 + data.length) (hfits : n < 2 ^ 31)
    : frame.parseMask true =
        if n < header.length + 4 then (false, { frame with maskEnable := true })
        else
          (true,
            { frame with
              maskEnable := true
              payloadStart := header.length + 4
              maskingKey := key
              headerReady := true }) := by
  have hlen : frame.buffer.length = n := by
    rw [hbuffer, List.length_take, List.length_append, List.length_append]
    have : key.bytes.length = 4 := rfl
    omega
  have hcast : castInt frame.buffer.length = n := by
    rw [hlen]
    exact castInt_of_lt hfits
  rw [parseMask]
  simp only [if_true]
  rw [hcast, hstart]
  by_cases hlt : n < header.length + 4
  . rw [if_pos hlt, if_pos (by omega)]
  . rw [if_neg hlt, if_neg (by omega)]
    have hkey : MaskingKey.read (frame.buffer.drop header.length) = key := by
      have hfour : key.bytes.length ≤ n - header.length := by
        change 4 ≤ n - header.length
        omega
      rw [hbuffer, take_header hle, List.drop_left, take_header hfour]
      apply MaskingKey.read_bytes
    rw [hkey]

/--
The frame once its header has been read.
-/
def readyFrame (key : MaskingKey) (opCode : UInt8) (payload buffer : List UInt8) : WebSocketFrame where
  buffer := buffer
  payloadStart := (wsHeader payload.length opCode).length + 4
  payloadLen := payload.length
  opcode := opCode
  maskEnable := true
  fin := true
  headerReady := true
  maskingKey := key

/--
The bytes that are sent for a frame.
-/
def wsBytes (key : MaskingKey) (opCode : UInt8) (payload : List UInt8) : List UInt8 :=
  wsHeader payload.length opCode ++ (key.bytes ++ key.mask payload)

variable {opCode : UInt8} {payload : List UInt8}

theorem length_wsBytes (key : MaskingKey) (opCode : UInt8) (payload : List UInt8)
    : (wsBytes key opCode payload).length = (wsHeader payload.length opCode).length + 4 + payload.length := by
  rw [wsBytes, List.length_append, List.length_append, MaskingKey.length_mask, ← Nat.add_assoc]
  rfl

theorem wsHeader_first (opCode : UInt8)
    : (0x80 ||| (opCode &&& 0x0f)) >>> 7 = 1 ∧ (0x80 ||| (opCode &&& 0x0f)) &&& 0x0f = opCode &&& 0x0f := by
  apply forall_of_bitVec
    (P := fun b => (0x80 ||| (b &&& 0x0f)) >>> 7 = 1 ∧ (0x80 ||| (b &&& 0x0f)) &&& 0x0f = b &&& 0x0f)
  decide

theorem wsHeader_second {len : Nat} (h : len < 128)
    : (0x80 ||| UInt8.ofNat len) >>> 7 = 1 ∧ ((0x80 ||| UInt8.ofNat len) &&& 0x7f).toNat = len := by
  have hbits := forall_of_bitVec
    (P := fun b => b.toNat < 128 → (0x80 ||| b) >>> 7 = 1 ∧ ((0x80 ||| b) &&& 0x7f).toNat = b.toNat)
    (by decide) (UInt8.ofNat len)
  rw [UInt8.toNat_ofNat', Nat.mod_eq_of_lt (by omega)] at hbits
  exact hbits h

/--
The length that a header gives, by how it is written.
-/
inductive LenField (len : Nat) : UInt8 → List UInt8 → Prop where
  | short (h : len < 126) : LenField len (0x80 ||| UInt8.ofNat len) []
  | medium (hle : 126 ≤ len) (hlt : len ≤ 65535) : LenField len (0x80 ||| 126) (write2Bytes len)
  | long (h : 65535 < len) : LenField len (0x80 ||| 127) (write8Bytes len)

theorem wsHeader_eq (len : Nat) (opCode : UInt8)
    : ∃ second lenBytes, LenField len second lenBytes
        ∧ wsHeader len opCode = (0x80 ||| (opCode &&& 0x0f)) :: second :: lenBytes := by
  by_cases hlong : 65535 < len
  . refine ⟨_, _, LenField.long hlong, ?_⟩
    simp only [wsHeader]
    rw [if_pos (by omega), if_pos hlong]
    rfl
  . by_cases hmedium : 126 ≤ len
    . refine ⟨_, _, LenField.medium hmedium (by omega), ?_⟩
      simp only [wsHeader]
      rw [if_pos hmedium, if_neg hlong]
      rfl
    . refine ⟨_, _, LenField.short (by omega), ?_⟩
      simp only [wsHeader]
      rw [if_neg hmedium]

/--
The frame when the length has been read.
-/
def lenFrame (frame : WebSocketFrame) (opCode : UInt8) (lenBytes : List UInt8) (len : Nat)
    : WebSocketFrame :=
  { frame with payloadLen := len, payloadStart := lenBytes.length + 2, fin := true, opcode := opCode }

theorem parseHeader_len (hop : opCode &&& 0x0f = opCode) {frame : WebSocketFrame} {second : UInt8}
    {lenBytes rest : List UInt8} {len : Nat} (hfield : LenField len second lenBytes) (hlen : len < 2 ^ 63)
    (hbuffer : frame.buffer = (0x80 ||| opCode) :: second :: (lenBytes ++ rest).take n)
    (hn : n ≤ (lenBytes ++ rest).length)
    : (n < lenBytes.length ∧ ∃ frame', frame.parseHeader (0x80 ||| opCode) second = (false, frame')
          ∧ frame'.buffer = frame.buffer ∧ frame'.headerReady = frame.headerReady)
      ∨ (lenBytes.length ≤ n ∧ frame.parseHeader (0x80 ||| opCode) second
          = (lenFrame frame opCode lenBytes len).parseMask true) := by
  have hfirst := wsHeader_first opCode
  rw [hop] at hfirst
  have hsize : frame.buffer.length = n + 2 := by
    rw [hbuffer, List.length_cons, List.length_cons, List.length_take]
    omega
  have hdrop : lenBytes.length ≤ n → ∃ rest', frame.buffer.drop 2 = lenBytes ++ rest' := by
    intro hle
    refine ⟨rest.take (n - lenBytes.length), ?_⟩
    rw [hbuffer, ← take_header hle]
    rfl
  rw [parseHeader]
  simp only [hfirst.left, hfirst.right, hsize]
  cases hfield with
  | short h =>
    have hlt : len < 128 := by omega
    have hsecond := wsHeader_second hlt
    right
    simp only [hsecond.left, hsecond.right]
    rw [if_neg (by omega), if_neg (by omega)]
    exact ⟨Nat.zero_le _, rfl⟩
  | medium hle hlt =>
    have hsecond : (0x80 ||| 126 : UInt8) >>> 7 = 1 ∧ ((0x80 ||| 126 : UInt8) &&& 0x7f).toNat = 126 := by
      decide
    simp only [hsecond.left, hsecond.right]
    rw [if_neg (by omega), if_pos trivial]
    by_cases hshort : n < 2
    . left
      rw [if_pos (by omega)]
      exact ⟨hshort, _, rfl, rfl, rfl⟩
    . right
      obtain ⟨rest', hdrop⟩ := hdrop (by rw [length_write2Bytes]; omega)
      rw [if_neg (by omega), hdrop, read2Bytes_write2Bytes, Nat.mod_eq_of_lt (by omega)]
      exact ⟨by rw [length_write2Bytes]; omega, rfl⟩
  | long h =>
    have hsecond : (0x80 ||| 127 : UInt8) >>> 7 = 1 ∧ ((0x80 ||| 127 : UInt8) &&& 0x7f).toNat = 127 := by
      decide
    have hlength : (write8Bytes len).length = 8 := rfl
    simp only [hsecond.left, hsecond.right]
    rw [if_pos trivial]
    by_cases hshort : n < 8
    . left
      rw [if_pos (by omega)]
      exact ⟨by omega, _, rfl, rfl, rfl⟩
    . right
      obtain ⟨rest', hdrop⟩ := hdrop (by omega)
      have hlen64 : ((len : Nat) : Int).bmod (2 ^ 64) = len := by
        apply Int.bmod_eq_of_le
        . omega
        . omega
      rw [if_neg (by omega), hdrop, read8Bytes_write8Bytes_append, Nat.mod_eq_of_lt (by omega), hlen64]
      exact ⟨by omega, rfl⟩

theorem parseHeader_take (hop : opCode &&& 0x0f = opCode) {frame : WebSocketFrame} {b0 b1 : UInt8}
    {rest : List UInt8} (hbuffer : frame.buffer = (wsBytes key opCode payload).take n)
    (hcons : frame.buffer = b0 :: b1 :: rest) (hn : n ≤ (wsBytes key opCode payload).length)
    (hfits : (wsBytes key opCode payload).length < 2 ^ 31)
    : (n < (wsHeader payload.length opCode).length + 4
        ∧ ∃ frame', frame.parseHeader b0 b1 = (false, frame')
          ∧ frame'.buffer = frame.buffer ∧ frame'.headerReady = frame.headerReady)
      ∨ ((wsHeader payload.length opCode).length + 4 ≤ n
        ∧ frame.parseHeader b0 b1 = (true, readyFrame key opCode payload frame.buffer)) := by
  have hlen := length_wsBytes key opCode payload
  obtain ⟨second, lenBytes, hfield, hheader⟩ := wsHeader_eq payload.length opCode
  rw [hop] at hheader
  have hlength := congrArg List.length hheader
  simp only [List.length_cons] at hlength
  obtain ⟨m, rfl⟩ : ∃ m, n = m + 2 := by
    have hsize := congrArg List.length (hbuffer.symm.trans hcons)
    simp only [List.length_take, List.length_cons] at hsize
    exact ⟨n - 2, by omega⟩
  have hbytes : frame.buffer
      = (0x80 ||| opCode) :: second :: (lenBytes ++ (key.bytes ++ key.mask payload)).take m := by
    rw [hbuffer, wsBytes, hheader]
    rfl
  obtain ⟨rfl, hb⟩ := List.cons.inj (hcons.symm.trans hbytes)
  obtain ⟨rfl, -⟩ := List.cons.inj hb
  have hm : m ≤ (lenBytes ++ (key.bytes ++ key.mask payload)).length := by
    rw [List.length_append, List.length_append, MaskingKey.length_mask]
    change m ≤ lenBytes.length + (4 + payload.length)
    omega
  rcases parseHeader_len hop hfield (by omega) hbytes hm with ⟨hlt, hstall⟩ | ⟨hle, heq⟩
  . exact Or.inl ⟨by omega, hstall⟩
  . have hbuffer' : (lenFrame frame opCode lenBytes payload.length).buffer
        = (wsHeader payload.length opCode ++ (key.bytes ++ key.mask payload)).take (m + 2) := hbuffer
    have hstart : (lenFrame frame opCode lenBytes payload.length).payloadStart
        = (wsHeader payload.length opCode).length := hlength.symm
    have hmask := parseMask_take hbuffer' hstart (by omega) (by rw [MaskingKey.length_mask]; omega) (by omega)
    rw [heq, hmask]
    by_cases hkey : m + 2 < (wsHeader payload.length opCode).length + 4
    . rw [if_pos hkey]
      exact Or.inl ⟨hkey, _, rfl, rfl, rfl⟩
    . rw [if_neg hkey]
      exact Or.inr ⟨by omega, rfl⟩

/--
A frame of which the first `n` bytes have arrived.
-/
structure Receives (key : MaskingKey) (opCode : UInt8) (payload : List UInt8) (n : Nat)
    (frame : WebSocketFrame) : Prop where
  le : n ≤ (wsBytes key opCode payload).length
  buffer : frame.buffer = (wsBytes key opCode payload).take n
  ready : frame.headerReady = true →
    (wsHeader payload.length opCode).length + 4 ≤ n ∧ frame = readyFrame key opCode payload frame.buffer

theorem length_wsHeader (len : Nat) (opCode : UInt8) : 2 ≤ (wsHeader len opCode).length := by
  obtain ⟨_, _, _, hheader⟩ := wsHeader_eq len opCode
  rw [hheader]
  simp

theorem Receives.length {frame : WebSocketFrame} (h : frame.Receives key opCode payload n)
    : frame.buffer.length = n := by
  rw [h.buffer, List.length_take]
  have := h.le
  omega

theorem Receives.append {frame : WebSocketFrame} (h : frame.Receives key opCode payload n)
    {input rest : List UInt8} (hinput : (wsBytes key opCode payload).drop n = input ++ rest)
    : { frame with buffer := frame.buffer ++ input }.Receives key opCode payload (n + input.length) := by
  have hsum := congrArg List.length hinput
  rw [List.length_drop, List.length_append] at hsum
  have hle := h.le
  constructor
  . omega
  . simp only
    rw [h.buffer, List.take_add, hinput, List.take_left]
  . intro hready
    obtain ⟨hhead, heq⟩ := h.ready hready
    refine ⟨by omega, ?_⟩
    rw [heq]
    rfl

/--
Whether or not the header had been read before.
-/
theorem Receives.headerRead {frame : WebSocketFrame} (h : frame.Receives key opCode payload n)
    (hop : opCode &&& 0x0f = opCode) (hfits : (wsBytes key opCode payload).length < 2 ^ 31)
    {b0 b1 : UInt8} {tail : List UInt8} (hcons : frame.buffer = b0 :: b1 :: tail)
    : (n < (wsBytes key opCode payload).length
        ∧ ∃ frame', (if frame.headerReady then (true, frame) else frame.parseHeader b0 b1) = (false, frame')
          ∧ frame'.Receives key opCode payload n)
      ∨ ((wsHeader payload.length opCode).length + 4 ≤ n
        ∧ (if frame.headerReady then (true, frame) else frame.parseHeader b0 b1)
          = (true, readyFrame key opCode payload frame.buffer)) := by
  cases hready : frame.headerReady with
  | true =>
    obtain ⟨hhead, heq⟩ := h.ready hready
    exact Or.inr ⟨hhead, congrArg (Prod.mk true) heq⟩
  | false =>
    rcases parseHeader_take hop h.buffer hcons h.le hfits with ⟨hlt, frame', heq, hbuffer, hready'⟩ | hdone
    . left
      have hlen := length_wsBytes key opCode payload
      refine ⟨by omega, frame', heq, h.le, hbuffer.trans h.buffer, ?_⟩
      intro htrue
      rw [hready', hready] at htrue
      cases htrue
    . exact Or.inr hdone

theorem parsePayload_readyFrame {buffer : List UInt8} (hle : buffer.length ≤ (wsBytes key opCode payload).length)
    (hfits : (wsBytes key opCode payload).length < 2 ^ 31)
    : (readyFrame key opCode payload buffer).parsePayload =
        if buffer.length < (wsBytes key opCode payload).length then
          some (false, readyFrame key opCode payload buffer)
        else some (true, (readyFrame key opCode payload buffer).unmask) := by
  have hlen := length_wsBytes key opCode payload
  have hgood : ¬((readyFrame key opCode payload buffer).payloadLen < 0
      ∨ 2 ^ 63 ≤ (readyFrame key opCode payload buffer).payloadStart
        + (readyFrame key opCode payload buffer).payloadLen) := by
    simp only [readyFrame]
    omega
  have hlt : castInt (readyFrame key opCode payload buffer).buffer.length
      < (readyFrame key opCode payload buffer).payloadStart
        + (readyFrame key opCode payload buffer).payloadLen
      ↔ buffer.length < (wsBytes key opCode payload).length := by
    simp only [readyFrame]
    rw [castInt_of_lt (by omega)]
    omega
  rw [parsePayload, if_neg hgood]
  simp only [hlt]

theorem Receives.parse {frame : WebSocketFrame} (h : frame.Receives key opCode payload n)
    (hop : opCode &&& 0x0f = opCode) (hfits : (wsBytes key opCode payload).length < 2 ^ 31)
    {input rest : List UInt8} (hinput : (wsBytes key opCode payload).drop n = input ++ rest)
    : (rest ≠ [] ∧ ∃ frame', frame.parse input = some (false, frame')
          ∧ frame'.Receives key opCode payload (n + input.length))
      ∨ (rest = [] ∧ frame.parse input
          = some (true, (readyFrame key opCode payload (wsBytes key opCode payload)).unmask)) := by
  have hlen := length_wsBytes key opCode payload
  have hpos := length_wsHeader payload.length opCode
  have hafter := h.append hinput
  have hsize : (frame.buffer ++ input).length = n + input.length := hafter.length
  have hsum := congrArg List.length hinput
  rw [List.length_drop, List.length_append] at hsum
  have hle := h.le
  have hrest : rest ≠ [] ↔ n + input.length < (wsBytes key opCode payload).length := by
    rw [← List.length_pos_iff]
    omega
  rw [WebSocketFrame.parse]
  simp only
  split
  . next b0 b1 tail hcons =>
    rcases hafter.headerRead hop hfits hcons with ⟨hlt, frame', heq, hframe⟩ | ⟨hhead, heq⟩
    . rw [heq]
      exact Or.inl ⟨hrest.mpr hlt, frame', rfl, hframe⟩
    . rw [heq]
      simp only
      rw [parsePayload_readyFrame (by omega) hfits, hsize]
      by_cases hlt : n + input.length < (wsBytes key opCode payload).length
      . rw [if_pos hlt]
        refine Or.inl ⟨hrest.mpr hlt, _, rfl, hafter.le, hafter.buffer, fun _ => ⟨hhead, rfl⟩⟩
      . rw [if_neg hlt]
        have hall : frame.buffer ++ input = wsBytes key opCode payload :=
          hafter.buffer.trans (List.take_of_length_le (by omega))
        refine Or.inr ⟨by_contra fun hne => hlt (hrest.mp hne), ?_⟩
        rw [hall]
  . next hshort =>
    have hsmall : (frame.buffer ++ input).length < 2 := by
      match hbuffer : frame.buffer ++ input with
      | [] => exact Nat.zero_lt_two
      | [_] => exact Nat.one_lt_two
      | b0 :: b1 :: tail => exact absurd hbuffer (hshort b0 b1 tail)
    exact Or.inl ⟨hrest.mpr (by omega), _, rfl, hafter⟩

theorem unmask_readyFrame
    : (readyFrame key opCode payload (wsBytes key opCode payload)).unmask
        = readyFrame key opCode payload (wsHeader payload.length opCode ++ (key.bytes ++ payload)) := by
  have hstart : (wsHeader payload.length opCode ++ key.bytes).length
      = (wsHeader payload.length opCode).length + 4 := List.length_append
  have hmask : (key.mask payload).length ≤ payload.length :=
    Nat.le_of_eq (MaskingKey.length_mask key payload)
  unfold unmask readyFrame wsBytes
  simp only [if_true]
  rw [← List.append_assoc (wsHeader payload.length opCode) key.bytes (key.mask payload)]
  rw [List.take_left' hstart, List.drop_left' hstart, Int.toNat_natCast,
    List.take_of_length_le hmask, List.drop_of_length_le hmask, MaskingKey.mask_mask, List.append_nil,
    List.append_assoc]

end Parse

end WebSocketFrame
