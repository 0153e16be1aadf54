import CppStreamer.Utils.ByteCrypto

/-!
This module contains the STUN packets that are sent and received for ICE: binding requests are serialised,
any packet is parsed.
-/

open ByteStream ByteCrypto

namespace Stun

def stunHeaderSize : Nat := 20

def magicCookie : List UInt8 := [0x21, 0x12, 0xa4, 0x42]

def username : Nat := 0x0006
def messageIntegrity : Nat := 0x0008
def errorCode : Nat := 0x0009
def xorMappedAddress : Nat := 0x0020
def priority : Nat := 0x0024
def useCandidate : Nat := 0x0025
def fingerprint : Nat := 0x8028
def iceControlled : Nat := 0x8029
def iceControlling : Nat := 0x802a

def fingerprintXor : BitVec 32 := 0x5354554e#32

end Stun

/--
What a socket address is filled with: whether it is an IPv4 address, the port and the address.
-/
structure XorAddress where
  isIpv4 : Bool
  port : Nat
  addr : Nat
  deriving DecidableEq

/--
A packet that has been parsed. The message integrity points into the data.
-/
structure StunPacket where
  data : List UInt8
  stunClass : UInt8 := 0
  stunMethod : UInt16 := 0
  transactionId : List UInt8 := []
  messageIntegrity : Option Nat := none
  username : List UInt8 := []
  fingerprint : Nat := 0
  priority : Nat := 0
  iceControlling : Nat := 0
  iceControlled : Nat := 0
  errorCode : Nat := 0
  xorAddress : Option XorAddress := none
  hasUseCandidate : Bool := false
  hasFingerprint : Bool := false
  deriving DecidableEq

namespace StunPacket

def isStun (data : List UInt8) : Bool :=
  Stun.stunHeaderSize ≤ data.length ∧ data.getD 0 0 < 3 ∧ (data.drop 4).take 4 = Stun.magicCookie

/--
What is kept between the attributes.
-/
structure ParseState where
  packet : StunPacket
  hasFingerprint : Bool := false
  hasMessageIntegrity : Bool := false
  fingerprintPos : Nat := 0

/--
The address in front of which its family stands, both hidden by the magic cookie.
-/
def readXorAddress (value : List UInt8) : XorAddress where
  isIpv4 := read2Bytes value = 1
  port := read2Bytes (List.zipWith (· ^^^ ·) (value.drop 2) Stun.magicCookie)
  addr := read4Bytes (List.zipWith (· ^^^ ·) (value.drop 4) Stun.magicCookie)

/--
An attribute with this value at a position of the data, `none` if it has the wrong length.
-/
def parseAttribute (s : ParseState) (attrType : Nat) (value : List UInt8) (pos : Nat) : Option ParseState :=
  if attrType = Stun.username then
    some { s with packet := { s.packet with username := value } }
  else if attrType = Stun.priority then
    if value.length ≠ 4 then none
    else some { s with packet := { s.packet with priority := read4Bytes value } }
  else if attrType = Stun.iceControlling then
    if value.length ≠ 8 then none
    else some { s with packet := { s.packet with iceControlling := read8Bytes value } }
  else if attrType = Stun.iceControlled then
    if value.length ≠ 8 then none
    else some { s with packet := { s.packet with iceControlled := read8Bytes value } }
  else if attrType = Stun.useCandidate then
    if value.length ≠ 0 then none
    else some { s with packet := { s.packet with hasUseCandidate := true } }
  else if attrType = Stun.messageIntegrity then
    if value.length ≠ 20 then none
    else some { s with
      hasMessageIntegrity := true
      packet := { s.packet with messageIntegrity := some pos } }
  else if attrType = Stun.fingerprint then
    if value.length ≠ 4 then none
    else some { s with
      hasFingerprint := true
      fingerprintPos := pos - 4
      packet := { s.packet with fingerprint := read4Bytes value } }
  else if attrType = Stun.errorCode then
    if value.length ≠ 4 then none
    else some { s with packet := { s.packet with
      errorCode := (value.getD 2 0).toNat * 100 + (value.getD 3 0).toNat } }
  else if attrType = Stun.xorMappedAddress then
    if value.length ≠ 8 then none
    else some { s with packet := { s.packet with xorAddress := some (readXorAddress value) } }
  else
    some s

/--
The loop over the attributes, with the position behind the last one.
-/
def parseAttributes (data : List UInt8) (p : Nat) (s : ParseState) : Option (Nat × ParseState) :=
  if p + 4 < data.length then
    let attrType := read2Bytes (data.drop p)
    let attrLen := read2Bytes (data.drop (p + 2))
    if data.length < p + 4 + attrLen then none
    else if s.hasFingerprint then none
    else if s.hasMessageIntegrity ∧ attrType ≠ Stun.fingerprint then none
    else
      match parseAttribute s attrType ((data.drop (p + 4)).take attrLen) (p + 4) with
      | none => none
      | some s => parseAttributes data (p + 4 + (padTo4Bytes (.ofNat attrLen)).toNat) s
  else
    some (p, s)
termination_by data.length - p

def msgMethod (msgType : UInt16) : UInt16 :=
  (msgType &&& 0x000f) ||| (msgType &&& 0x00e0) >>> (1 : UInt16) ||| (msgType &&& 0x3e00) >>> (2 : UInt16)

def msgClass (first second : UInt8) : UInt8 :=
  (first &&& 0x01) <<< (1 : UInt8) ||| (second &&& 0x10) >>> (4 : UInt8)

/--
`none` for an exception.
-/
def parse (data : List UInt8) : Option StunPacket :=
  if isStun data then
    let msgType := read2Bytes data
    let msgLen := read2Bytes (data.drop 2)
    if msgLen ≠ data.length - 20 ∨ msgLen % 4 ≠ 0 then none
    else
      match parseAttributes data 20 {
        packet := {
          data := data
          stunMethod := msgMethod (.ofNat msgType)
          stunClass := msgClass (data.getD 0 0) (data.getD 1 0)
          transactionId := (data.drop 8).take 12 } } with
      | none => none
      | some (p, s) =>
        if p ≠ data.length then none
        else if s.hasFingerprint then
          if s.packet.fingerprint ≠ (getCrc32 (data.take s.fingerprintPos) ^^^ Stun.fingerprintXor).toNat then
            none
          else
            some { s.packet with hasFingerprint := true }
        else
          some s.packet
  else
    none

end StunPacket

/--
What is put into a packet before it is serialised.
-/
structure BindingRequest where
  transactionId : { id : List UInt8 // id.length = 12 }
  username : List UInt8 := []
  password : List UInt8 := []
  priority : UInt32 := 0
  hasUseCandidate : Bool := false
  addMsgIntegrity : Bool := false

/--
The function of a library that computes the message integrity, from a key and data.
-/
abbrev HmacSha1 := List UInt8 → List UInt8 → { hash : List UInt8 // hash.length = 20 }

namespace BindingRequest

def userNamePadLen (pkt : BindingRequest) : Nat := (padTo4Bytes (.ofNat pkt.username.length)).toNat

def dataLen (pkt : BindingRequest) : Nat :=
  Stun.stunHeaderSize + (if pkt.username ≠ [] then 4 + pkt.userNamePadLen else 0)
    + (if pkt.priority ≠ 0 then 4 + 4 else 0) + (if pkt.hasUseCandidate then 4 else 0)
    + (if pkt.addMsgIntegrity then 4 + 20 else 0) + (4 + 4)

def setLength (data : List UInt8) (len : Nat) : List UInt8 :=
  data.take 2 ++ (write2Bytes len ++ data.drop 4)

/--
The bytes up to the attributes that are computed. The buffer is all zeros at first.
-/
def serializeFront (pkt : BindingRequest) : List UInt8 :=
  let data := write2Bytes 1 ++ write2Bytes 0 ++ Stun.magicCookie ++ pkt.transactionId.val
  let data := if pkt.username ≠ [] then
      data ++ write2Bytes Stun.username ++ write2Bytes pkt.username.length
        ++ pkt.username.rightpad pkt.userNamePadLen 0
    else data
  let data := if pkt.priority ≠ 0 then
      data ++ write2Bytes Stun.priority ++ write2Bytes 4 ++ write4Bytes pkt.priority.toNat
    else data
  if pkt.hasUseCandidate then data ++ write2Bytes Stun.useCandidate ++ write2Bytes 0 else data

/--
The first `data_len_` bytes of the buffer.
-/
def serialize (getHmacSha1 : HmacSha1) (pkt : BindingRequest) : List UInt8 :=
  let data := pkt.serializeFront
  let data := if pkt.addMsgIntegrity then
      let data := setLength data (pkt.dataLen - 20 - 8)
      let caculateMsgIntegrity := getHmacSha1 pkt.password data
      let data := data ++ write2Bytes Stun.messageIntegrity ++ write2Bytes 20 ++ caculateMsgIntegrity.val
      setLength data (pkt.dataLen - Stun.stunHeaderSize)
    else data
  let caculateFingerprint := getCrc32 data ^^^ Stun.fingerprintXor
  let data := data ++ write2Bytes Stun.fingerprint ++ write2Bytes 4
    ++ write4Bytes caculateFingerprint.toNat
  let data := setLength data (pkt.dataLen - Stun.stunHeaderSize)
  (data.rightpad pkt.dataLen 0).take pkt.dataLen

end BindingRequest

/-!
The format: a header and attributes that are padded to four bytes.
-/

structure StunAttribute where
  type : Nat
  value : List UInt8

namespace StunAttribute

def pad (a : StunAttribute) : List UInt8 := List.replicate ((a.value.length + 3) / 4 * 4 - a.value.length) 0

def bytes (a : StunAttribute) : List UInt8 :=
  write2Bytes a.type ++ write2Bytes a.value.length ++ a.value ++ a.pad

end StunAttribute

namespace BindingRequest

variable (getHmacSha1 : HmacSha1)

/--
The header of a message with so many bytes behind it.
-/
def header (pkt : BindingRequest) (len : Nat) : List UInt8 :=
  write2Bytes 1 ++ write2Bytes len ++ Stun.magicCookie ++ pkt.transactionId.val

def plainAttributes (pkt : BindingRequest) : List StunAttribute :=
  (if pkt.username ≠ [] then [⟨Stun.username, pkt.username⟩] else [])
    ++ (if pkt.priority ≠ 0 then [⟨Stun.priority, write4Bytes pkt.priority.toNat⟩] else [])
    ++ (if pkt.hasUseCandidate then [⟨Stun.useCandidate, []⟩] else [])

/--
The message integrity is computed over the bytes in front of it, with a length that ends behind it.
-/
def integrityAttributes (pkt : BindingRequest) : List StunAttribute :=
  let front := pkt.plainAttributes.flatMap (·.bytes)
  if pkt.addMsgIntegrity then
    [⟨Stun.messageIntegrity, (getHmacSha1 pkt.password (pkt.header (front.length + 24) ++ front)).val⟩]
  else
    []

/--
The fingerprint is computed over the bytes in front of it, with the length of the whole message.
-/
def fingerprintAttribute (pkt : BindingRequest) : StunAttribute :=
  let front := (pkt.plainAttributes ++ pkt.integrityAttributes getHmacSha1).flatMap (·.bytes)
  ⟨Stun.fingerprint,
    write4Bytes (getCrc32 (pkt.header (front.length + 8) ++ front) ^^^ Stun.fingerprintXor).toNat⟩

def attributes (pkt : BindingRequest) : List StunAttribute :=
  pkt.plainAttributes ++ pkt.integrityAttributes getHmacSha1 ++ [pkt.fingerprintAttribute getHmacSha1]

/--
The bytes written are a message of the format with these attributes, and they are parsed to what the
request was made of.
-/
structure RoundTrips (pkt : BindingRequest) : Prop where
  bytes : pkt.serialize getHmacSha1
    = pkt.header ((pkt.serialize getHmacSha1).length - 20)
      ++ (pkt.attributes getHmacSha1).flatMap (·.bytes)
  aligned : ∀ a ∈ pkt.attributes getHmacSha1, 4 ∣ a.bytes.length
  parse : ∃ packet, StunPacket.parse (pkt.serialize getHmacSha1) = some packet
    ∧ packet.stunClass = 0 ∧ packet.stunMethod = 1 ∧ packet.transactionId = pkt.transactionId.val
    ∧ packet.username = pkt.username ∧ packet.priority = pkt.priority.toNat
    ∧ packet.hasUseCandidate = pkt.hasUseCandidate

end BindingRequest

theorem StunAttribute.length_bytes (a : StunAttribute)
    : a.bytes.length = 4 + (a.value.length + 3) / 4 * 4 := by
  simp only [bytes, pad, List.length_append, length_write2Bytes, List.length_replicate]
  omega

namespace StunPacket

variable {data front back : List UInt8} {s s' : ParseState} {a : StunAttribute}

theorem parseAttributes_attribute (hdata : data = front ++ (a.bytes ++ back)) (htype : a.type < 2 ^ 16)
    (hlen : a.value.length + 3 < 2 ^ 16) (hmore : 4 < (a.bytes ++ back).length)
    (hlast : s.hasFingerprint = false)
    (hintegrity : s.hasMessageIntegrity = true → a.type = Stun.fingerprint)
    (hparse : parseAttribute s a.type a.value (front.length + 4) = some s')
    : parseAttributes data front.length s = parseAttributes data (front ++ a.bytes).length s' := by
  have hdrop : data.drop front.length = write2Bytes a.type ++ (write2Bytes a.value.length
      ++ (a.value ++ (a.pad ++ back))) := by
    rw [hdata, List.drop_left]
    simp only [StunAttribute.bytes, List.append_assoc]
  have hdrop2 : data.drop (front.length + 2) = write2Bytes a.value.length
      ++ (a.value ++ (a.pad ++ back)) := by
    rw [← List.drop_drop, hdrop, List.drop_left' (length_write2Bytes _)]
  have hdrop4 : data.drop (front.length + 4) = a.value ++ (a.pad ++ back) := by
    rw [show front.length + 4 = front.length + 2 + 2 from rfl, ← List.drop_drop, hdrop2,
      List.drop_left' (length_write2Bytes _)]
  have hlength := congrArg List.length hdata
  rw [List.length_append, List.length_append, a.length_bytes] at hlength
  rw [List.length_append, a.length_bytes] at hmore
  have hpad : (padTo4Bytes (.ofNat a.value.length)).toNat = (a.value.length + 3) / 4 * 4 := by
    have hnat : (UInt16.ofNat a.value.length).toNat = a.value.length := by
      rw [UInt16.toNat_ofNat', Nat.mod_eq_of_lt (by omega)]
    rw [toNat_padTo4Bytes (by rw [hnat]; exact hlen), hnat]
  rw [parseAttributes, if_pos (by omega)]
  simp only
  rw [hdrop, hdrop2, hdrop4, read2Bytes_write2Bytes, read2Bytes_write2Bytes, Nat.mod_eq_of_lt htype,
    Nat.mod_eq_of_lt (by omega), List.take_left, if_neg (by omega), hlast, hparse, hpad, List.length_append,
    a.length_bytes, ← Nat.add_assoc]
  simp only [Bool.false_eq_true, if_false]
  rw [if_neg]
  rintro ⟨hset, hne⟩
  exact hne (hintegrity hset)

variable (s s') in
theorem parseAttributes_optional {c : Prop} [Decidable c]
    (hdata : data = front ++ ((if c then [a] else []).flatMap (·.bytes) ++ back)) (htype : a.type < 2 ^ 16)
    (hlen : a.value.length + 3 < 2 ^ 16) (hmore : 0 < back.length) (hlast : s.hasFingerprint = false)
    (hintegrity : s.hasMessageIntegrity = false)
    (hparse : c → parseAttribute s a.type a.value (front.length + 4) = some s') (hskip : ¬ c → s' = s)
    : parseAttributes data front.length s
      = parseAttributes data (front ++ (if c then [a] else []).flatMap (·.bytes)).length s' := by
  by_cases hc : c
  . rw [if_pos hc] at hdata ⊢
    rw [List.flatMap_singleton] at hdata ⊢
    apply parseAttributes_attribute hdata htype hlen
    . rw [List.length_append, a.length_bytes]
      omega
    . exact hlast
    . intro hset
      rw [hintegrity] at hset
      cases hset
    . exact hparse hc
  . rw [if_neg hc, hskip hc, List.flatMap_nil, List.append_nil]

theorem parseAttributes_end (s : ParseState) : parseAttributes data data.length s = some (data.length, s) := by
  rw [parseAttributes, if_neg (by omega)]

end StunPacket

namespace BindingRequest

variable {getHmacSha1 : HmacSha1} {pkt : BindingRequest}

/--
The data fits in `data_`.
-/
def Fits (getHmacSha1 : HmacSha1) (pkt : BindingRequest) : Prop :=
  Stun.stunHeaderSize + ((pkt.attributes getHmacSha1).flatMap (·.bytes)).length ≤ 8192

theorem length_header (pkt : BindingRequest) (len : Nat) : (pkt.header len).length = 20 := by
  simp [header, Stun.magicCookie, pkt.transactionId.property]

theorem setLength_header (pkt : BindingRequest) (len len' : Nat) (rest : List UInt8)
    : setLength (pkt.header len ++ rest) len' = pkt.header len' ++ rest := by
  simp only [header, List.append_assoc]
  rfl

theorem append_optional (c : Prop) [Decidable c] (data : List UInt8) (a : StunAttribute)
    : (if c then data ++ a.bytes else data) = data ++ (if c then [a] else []).flatMap (·.bytes) := by
  by_cases hc : c
  . rw [if_pos hc, if_pos hc, List.flatMap_singleton]
  . rw [if_neg hc, if_neg hc, List.flatMap_nil, List.append_nil]

theorem bytes_of_mod {a : StunAttribute} (h : a.value.length % 4 = 0)
    : a.bytes = write2Bytes a.type ++ write2Bytes a.value.length ++ a.value := by
  have hpad : a.pad = [] := by
    unfold StunAttribute.pad
    rw [show (a.value.length + 3) / 4 * 4 - a.value.length = 0 by omega]
    rfl
  rw [StunAttribute.bytes, hpad, List.append_nil]

theorem userNamePadLen_eq (hlen : pkt.username.length + 3 < 2 ^ 16)
    : pkt.userNamePadLen = (pkt.username.length + 3) / 4 * 4 := by
  have hnat : (UInt16.ofNat pkt.username.length).toNat = pkt.username.length := by
    rw [UInt16.toNat_ofNat', Nat.mod_eq_of_lt (by omega)]
  unfold userNamePadLen
  rw [toNat_padTo4Bytes (by rw [hnat]; exact hlen), hnat]

theorem serializeFront_eq (hlen : pkt.username.length + 3 < 2 ^ 16)
    : pkt.serializeFront = pkt.header 0 ++ pkt.plainAttributes.flatMap (·.bytes) := by
  have husername (data : List UInt8) : data ++ write2Bytes Stun.username
      ++ write2Bytes pkt.username.length ++ pkt.username.rightpad pkt.userNamePadLen 0
      = data ++ (StunAttribute.mk Stun.username pkt.username).bytes := by
    rw [StunAttribute.bytes, StunAttribute.pad, List.rightpad, userNamePadLen_eq hlen]
    simp only [List.append_assoc]
  have hpriority (data : List UInt8) : data ++ write2Bytes Stun.priority ++ write2Bytes 4
      ++ write4Bytes pkt.priority.toNat
      = data ++ (StunAttribute.mk Stun.priority (write4Bytes pkt.priority.toNat)).bytes := by
    rw [bytes_of_mod (by rw [length_write4Bytes])]
    simp only [List.append_assoc]
    rfl
  have hcandidate (data : List UInt8) : data ++ write2Bytes Stun.useCandidate ++ write2Bytes 0
      = data ++ (StunAttribute.mk Stun.useCandidate []).bytes := by
    rw [bytes_of_mod rfl]
    simp only [List.append_assoc]
    rfl
  unfold serializeFront plainAttributes
  simp only [husername, hpriority, hcandidate]
  rw [append_optional, append_optional, append_optional]
  simp only [List.flatMap_append, List.append_assoc]
  rfl

theorem length_optional (c : Prop) [Decidable c] (a : StunAttribute)
    : ((if c then [a] else []).flatMap (·.bytes)).length = if c then a.bytes.length else 0 := by
  by_cases hc : c
  . rw [if_pos hc, if_pos hc, List.flatMap_singleton]
  . rw [if_neg hc, if_neg hc, List.flatMap_nil, List.length_nil]

theorem dataLen_eq (hlen : pkt.username.length + 3 < 2 ^ 16)
    : pkt.dataLen = 20 + (pkt.plainAttributes.flatMap (·.bytes)).length
      + (if pkt.addMsgIntegrity then 24 else 0) + 8 := by
  unfold dataLen plainAttributes
  rw [List.flatMap_append, List.flatMap_append, List.length_append, List.length_append, length_optional,
    length_optional, length_optional]
  simp only [StunAttribute.length_bytes, userNamePadLen_eq hlen, length_write4Bytes, List.length_nil,
    Stun.stunHeaderSize, Nat.reduceAdd, Nat.reduceDiv, Nat.reduceMul, Nat.add_zero]
  omega

theorem serialize_eq (hlen : pkt.username.length + 3 < 2 ^ 16)
    : pkt.serialize getHmacSha1
      = pkt.header (pkt.dataLen - 20)
        ++ ((pkt.plainAttributes ++ pkt.integrityAttributes getHmacSha1).flatMap (·.bytes)
        ++ (StunAttribute.mk Stun.fingerprint (write4Bytes (getCrc32 (pkt.header
            (if pkt.addMsgIntegrity then pkt.dataLen - 20 else 0)
          ++ (pkt.plainAttributes ++ pkt.integrityAttributes getHmacSha1).flatMap (·.bytes))
          ^^^ Stun.fingerprintXor).toNat)).bytes) := by
  have hdataLen := dataLen_eq hlen
  have hintegrity : (if pkt.addMsgIntegrity then setLength (setLength pkt.serializeFront (pkt.dataLen - 20 - 8)
        ++ write2Bytes Stun.messageIntegrity ++ write2Bytes 20
        ++ (getHmacSha1 pkt.password (setLength pkt.serializeFront (pkt.dataLen - 20 - 8))).val)
        (pkt.dataLen - Stun.stunHeaderSize) else pkt.serializeFront)
      = pkt.header (if pkt.addMsgIntegrity then pkt.dataLen - 20 else 0)
        ++ (pkt.plainAttributes ++ pkt.integrityAttributes getHmacSha1).flatMap (·.bytes) := by
    unfold integrityAttributes
    rw [serializeFront_eq hlen, List.flatMap_append]
    cases hadd : pkt.addMsgIntegrity with
    | false => simp
    | true =>
      rw [hadd, if_pos rfl] at hdataLen
      rw [setLength_header, show pkt.dataLen - 20 - 8 = (pkt.plainAttributes.flatMap (·.bytes)).length + 24 by
        omega]
      simp only [if_true, List.flatMap_singleton]
      rw [bytes_of_mod (by rw [(getHmacSha1 _ _).property])]
      simp only [List.append_assoc, (getHmacSha1 _ _).property]
      rw [setLength_header]
      rfl
  have hlength : ((pkt.plainAttributes ++ pkt.integrityAttributes getHmacSha1).flatMap (·.bytes)).length + 28
      = pkt.dataLen := by
    unfold integrityAttributes
    rw [hdataLen, List.flatMap_append, List.length_append, length_optional, StunAttribute.length_bytes,
      (getHmacSha1 _ _).property]
    simp only [Nat.reduceAdd, Nat.reduceDiv, Nat.reduceMul]
    omega
  unfold serialize
  simp only
  rw [hintegrity]
  generalize (pkt.plainAttributes ++ pkt.integrityAttributes getHmacSha1).flatMap (·.bytes) = front at hlength ⊢
  generalize hcrc : (getCrc32 (pkt.header (if pkt.addMsgIntegrity then pkt.dataLen - 20 else 0) ++ front)
    ^^^ Stun.fingerprintXor).toNat = crc
  rw [bytes_of_mod (by rw [length_write4Bytes])]
  simp only [List.append_assoc, setLength_header, length_write4Bytes]
  have htotal : (pkt.header (pkt.dataLen - Stun.stunHeaderSize) ++ (front ++ (write2Bytes Stun.fingerprint
      ++ (write2Bytes 4 ++ write4Bytes crc)))).length = pkt.dataLen := by
    simp only [List.length_append, length_header, length_write2Bytes, length_write4Bytes]
    omega
  rw [List.rightpad, htotal, Nat.sub_self, List.replicate_zero, List.append_nil,
    List.take_of_length_le (Nat.le_of_eq htotal)]
  rfl

variable (getHmacSha1) in
/--
The length of the integrity attribute and of the fingerprint does not depend on what is computed.
-/
theorem length_attributes (hlen : pkt.username.length + 3 < 2 ^ 16)
    : 20 + ((pkt.attributes getHmacSha1).flatMap (·.bytes)).length = pkt.dataLen := by
  unfold attributes integrityAttributes fingerprintAttribute
  rw [dataLen_eq hlen, List.flatMap_append, List.flatMap_append, List.length_append, List.length_append,
    List.flatMap_singleton, length_optional, StunAttribute.length_bytes, StunAttribute.length_bytes,
    (getHmacSha1 _ _).property, length_write4Bytes]
  simp only [Nat.reduceAdd, Nat.reduceDiv, Nat.reduceMul]
  omega

theorem Fits.username (h : pkt.Fits getHmacSha1) : pkt.username.length + 3 < 2 ^ 16 := by
  unfold Fits attributes plainAttributes at h
  simp only [List.flatMap_append, List.length_append, length_optional, StunAttribute.length_bytes] at h
  by_cases hempty : pkt.username = []
  . rw [hempty]
    decide
  . rw [if_pos hempty] at h
    omega

theorem bytes_attributes (getHmacSha1 : HmacSha1) (pkt : BindingRequest)
    : (pkt.attributes getHmacSha1).flatMap (·.bytes)
      = (pkt.plainAttributes ++ pkt.integrityAttributes getHmacSha1).flatMap (·.bytes)
        ++ (pkt.fingerprintAttribute getHmacSha1).bytes := by
  unfold attributes
  rw [List.flatMap_append, List.flatMap_singleton]

/--
The checksum depends on the length in the header.
-/
theorem header_inj {len len' : Nat} {rest : List UInt8}
    (h : getCrc32 (pkt.header len ++ rest) = getCrc32 (pkt.header len' ++ rest))
    : len % 2 ^ 16 = len' % 2 ^ 16 := by
  have hheader (len : Nat) : pkt.header len ++ rest
      = [0, 1] ++ byteAt len 1 :: byteAt len 0 :: (Stun.magicCookie ++ (pkt.transactionId.val ++ rest)) := by
    simp only [header, List.append_assoc]
    rfl
  rw [hheader, hheader] at h
  have hbytes := getCrc32_inj h
  have hread := congrArg read2Bytes (show write2Bytes len = write2Bytes len' by
    rw [write2Bytes, write2Bytes, hbytes.1, hbytes.2])
  have hlen := read2Bytes_write2Bytes len []
  have hlen' := read2Bytes_write2Bytes len' []
  rw [List.append_nil] at hlen hlen'
  rw [← hlen, ← hlen', hread]

theorem serialize_of_addMsgIntegrity (hfits : pkt.Fits getHmacSha1) (hadd : pkt.addMsgIntegrity = true)
    : pkt.serialize getHmacSha1
      = pkt.header (pkt.dataLen - 20) ++ (pkt.attributes getHmacSha1).flatMap (·.bytes) := by
  have hlen := hfits.username
  have hattributes := length_attributes getHmacSha1 hlen
  rw [bytes_attributes, List.length_append, StunAttribute.length_bytes] at hattributes
  unfold fingerprintAttribute at hattributes
  simp only [length_write4Bytes, Nat.reduceAdd, Nat.reduceDiv, Nat.reduceMul] at hattributes
  rw [serialize_eq hlen, bytes_attributes, if_pos hadd]
  unfold fingerprintAttribute
  simp only
  rw [show pkt.dataLen - 20
    = ((pkt.plainAttributes ++ pkt.integrityAttributes getHmacSha1).flatMap (·.bytes)).length + 8 by omega]

end BindingRequest

namespace StunPacket

variable {data : List UInt8} {s : ParseState} {value : List UInt8} {pos : Nat}

theorem parseAttribute_username : parseAttribute s Stun.username value pos
    = some { s with packet := { s.packet with username := value } } := rfl

theorem parseAttribute_priority (hlen : value.length = 4) : parseAttribute s Stun.priority value pos
    = some { s with packet := { s.packet with priority := read4Bytes value } } := by
  show (if value.length ≠ 4 then none else _) = _
  rw [if_neg (by simpa using hlen)]

theorem parseAttribute_useCandidate : parseAttribute s Stun.useCandidate [] pos
    = some { s with packet := { s.packet with hasUseCandidate := true } } := rfl

theorem parseAttribute_messageIntegrity (hlen : value.length = 20)
    : parseAttribute s Stun.messageIntegrity value pos = some { s with
      hasMessageIntegrity := true
      packet := { s.packet with messageIntegrity := some pos } } := by
  show (if value.length ≠ 20 then none else _) = _
  rw [if_neg (by simpa using hlen)]

theorem parseAttribute_fingerprint (hlen : value.length = 4)
    : parseAttribute s Stun.fingerprint value pos = some { s with
      hasFingerprint := true
      fingerprintPos := pos - 4
      packet := { s.packet with fingerprint := read4Bytes value } } := by
  show (if value.length ≠ 4 then none else _) = _
  rw [if_neg (by simpa using hlen)]

end StunPacket

namespace BindingRequest

variable {getHmacSha1 : HmacSha1} {pkt : BindingRequest}

open StunPacket (ParseState parseAttributes parseAttributes_optional parseAttributes_attribute)

/--
What is known before the message integrity.
-/
def plainState (pkt : BindingRequest) (s : ParseState) : ParseState :=
  { s with packet := { s.packet with
    username := pkt.username
    priority := pkt.priority.toNat
    hasUseCandidate := pkt.hasUseCandidate } }

theorem parseAttributes_plain {data : List UInt8} (front : List UInt8) {back : List UInt8} {s : ParseState}
    (hlen : pkt.username.length + 3 < 2 ^ 16)
    (hdata : data = front ++ (pkt.plainAttributes.flatMap (·.bytes) ++ back)) (hmore : 0 < back.length)
    (hfingerprint : s.hasFingerprint = false) (hintegrity : s.hasMessageIntegrity = false)
    (husername : s.packet.username = []) (hpriority : s.packet.priority = 0)
    (hcandidate : s.packet.hasUseCandidate = false)
    : parseAttributes data front.length s
      = parseAttributes data (front ++ pkt.plainAttributes.flatMap (·.bytes)).length (pkt.plainState s) := by
  unfold plainAttributes at hdata ⊢
  simp only [List.flatMap_append, List.append_assoc] at hdata ⊢
  have hfirst := parseAttributes_optional s
    { s with packet := { s.packet with username := pkt.username } } hdata
    (show Stun.username < 2 ^ 16 by decide) hlen (by
      simp only [List.length_append]
      omega) hfingerprint hintegrity (fun _ => StunPacket.parseAttribute_username) (by
      intro hskip
      rw [not_not.mp hskip, ← husername])
  rw [← List.append_assoc] at hdata
  have hsecond := parseAttributes_optional { s with packet := { s.packet with username := pkt.username } }
    { s with packet := { s.packet with username := pkt.username, priority := pkt.priority.toNat } }
    hdata (show Stun.priority < 2 ^ 16 by decide) (by rw [length_write4Bytes]; decide) (by
      simp only [List.length_append]
      omega) hfingerprint hintegrity (by
      intro _
      rw [StunPacket.parseAttribute_priority (length_write4Bytes _),
        read4Bytes_write4Bytes_of_lt pkt.priority.toNat_lt]) (by
      intro hskip
      rw [not_not.mp hskip, show (0 : UInt32).toNat = s.packet.priority from hpriority.symm])
  rw [← List.append_assoc] at hdata
  have hthird := parseAttributes_optional
    { s with packet := { s.packet with username := pkt.username, priority := pkt.priority.toNat } }
    (pkt.plainState s) hdata (by decide) (by decide) hmore hfingerprint hintegrity (by
      intro hset
      rw [StunPacket.parseAttribute_useCandidate, plainState, hset]) (by
      intro hskip
      rw [plainState, Bool.eq_false_iff.mpr hskip, ← hcandidate])
  rw [hfirst, hsecond, hthird, List.append_assoc, List.append_assoc]

theorem parseAttributes_serialize {data value : List UInt8} {s : ParseState} {n : Nat}
    (hlen : pkt.username.length + 3 < 2 ^ 16) (hvalue : value.length = 4)
    (hdata : data = pkt.header n
      ++ ((pkt.plainAttributes ++ pkt.integrityAttributes getHmacSha1).flatMap (·.bytes)
      ++ (StunAttribute.mk Stun.fingerprint value).bytes))
    (hfingerprint : s.hasFingerprint = false) (hintegrity : s.hasMessageIntegrity = false)
    (hposition : s.packet.messageIntegrity = none) (husername : s.packet.username = [])
    (hpriority : s.packet.priority = 0) (hcandidate : s.packet.hasUseCandidate = false)
    : ∃ p, parseAttributes data 20 s = some (data.length, {
        packet := { (pkt.plainState s).packet with
          messageIntegrity := p
          fingerprint := read4Bytes value }
        hasFingerprint := true
        hasMessageIntegrity := pkt.addMsgIntegrity
        fingerprintPos := (pkt.header n
          ++ (pkt.plainAttributes ++ pkt.integrityAttributes getHmacSha1).flatMap (·.bytes)).length }) := by
  have hlast : (StunAttribute.mk Stun.fingerprint value).bytes.length = 8 := by
    rw [StunAttribute.length_bytes, hvalue]
  unfold integrityAttributes at hdata ⊢
  simp only [List.flatMap_append, List.append_assoc] at hdata ⊢
  generalize getHmacSha1 pkt.password _ = hash at hdata ⊢
  have hplain := parseAttributes_plain (pkt.header n) hlen hdata (by
      rw [List.length_append, hlast]
      omega) hfingerprint hintegrity husername hpriority hcandidate
  rw [length_header] at hplain
  rw [← List.append_assoc] at hdata
  have hmi := parseAttributes_optional (pkt.plainState s)
    ({ pkt.plainState s with
      hasMessageIntegrity := pkt.addMsgIntegrity
      packet := { (pkt.plainState s).packet with
        messageIntegrity := if pkt.addMsgIntegrity
          then some ((pkt.header n ++ pkt.plainAttributes.flatMap (·.bytes)).length + 4)
          else none } })
    hdata (show Stun.messageIntegrity < 2 ^ 16 by decide) (by
      simp only [hash.property]
      decide) (by
      rw [hlast]
      decide) hfingerprint hintegrity (by
      intro hadd
      rw [hadd]
      exact StunPacket.parseAttribute_messageIntegrity hash.property) (by
      intro hskip
      rw [Bool.eq_false_iff.mpr hskip, if_neg (by decide), ← hintegrity, ← hposition]
      rfl)
  rw [← List.append_assoc, ← List.append_nil (StunAttribute.mk _ _).bytes] at hdata
  have hfp := parseAttributes_attribute (s := { pkt.plainState s with
      hasMessageIntegrity := pkt.addMsgIntegrity
      packet := { (pkt.plainState s).packet with
        messageIntegrity := if pkt.addMsgIntegrity
          then some ((pkt.header n ++ pkt.plainAttributes.flatMap (·.bytes)).length + 4)
          else none } }) hdata (show Stun.fingerprint < 2 ^ 16 by decide) (by
      rw [hvalue]
      decide) (by
      rw [List.append_nil, hlast]
      decide) hfingerprint (fun _ => rfl) (StunPacket.parseAttribute_fingerprint hvalue)
  rw [List.append_nil] at hdata
  rw [hplain, hmi, hfp, ← hdata, StunPacket.parseAttributes_end, Nat.add_sub_cancel]
  simp only [List.append_assoc]
  exact ⟨_, rfl⟩

variable (pkt) in
theorem isStun_header (n : Nat) (rest : List UInt8) : StunPacket.isStun (pkt.header n ++ rest) = true := by
  have hlen : Stun.stunHeaderSize ≤ (pkt.header n ++ rest).length := by
    rw [List.length_append, length_header]
    exact Nat.le_add_right _ _
  have hcookie : ((pkt.header n ++ rest).drop 4).take 4 = Stun.magicCookie := by
    simp only [header, List.append_assoc]
    rfl
  have hfirst : (pkt.header n ++ rest).getD 0 0 < 3 := by
    simp only [header, List.append_assoc]
    show byteAt 1 1 < 3
    decide
  unfold StunPacket.isStun
  rw [decide_eq_true_eq]
  exact ⟨hlen, hfirst, hcookie⟩

variable (pkt) in
theorem header_fields (n : Nat) (rest : List UInt8)
    : read2Bytes (pkt.header n ++ rest) = 1 ∧ read2Bytes ((pkt.header n ++ rest).drop 2) = n % 2 ^ 16
      ∧ (pkt.header n ++ rest).getD 0 0 = 0 ∧ (pkt.header n ++ rest).getD 1 0 = 1
      ∧ ((pkt.header n ++ rest).drop 8).take 12 = pkt.transactionId.val := by
  have hheader : pkt.header n ++ rest
      = write2Bytes 1 ++ (write2Bytes n ++ (Stun.magicCookie ++ (pkt.transactionId.val ++ rest))) := by
    simp only [header, List.append_assoc]
  rw [hheader]
  refine ⟨read2Bytes_write2Bytes 1 _, read2Bytes_write2Bytes n _, rfl, rfl, ?_⟩
  exact List.take_left' pkt.transactionId.property

theorem dvd_length_bytes (attributes : List StunAttribute) : 4 ∣ (attributes.flatMap (·.bytes)).length := by
  induction attributes with
  | nil => exact Nat.dvd_zero 4
  | cons a attributes ih =>
    rw [List.flatMap_cons, List.length_append, a.length_bytes]
    omega

theorem parse_message {data value : List UInt8} (hfits : pkt.Fits getHmacSha1) (hvalue : value.length = 4)
    (hdata : data = pkt.header (pkt.dataLen - 20)
      ++ ((pkt.plainAttributes ++ pkt.integrityAttributes getHmacSha1).flatMap (·.bytes)
      ++ (StunAttribute.mk Stun.fingerprint value).bytes))
    : ∃ packet, StunPacket.parse data
        = (if read4Bytes value = (getCrc32 (pkt.header (pkt.dataLen - 20)
          ++ (pkt.plainAttributes ++ pkt.integrityAttributes getHmacSha1).flatMap (·.bytes))
          ^^^ Stun.fingerprintXor).toNat then some packet else none)
      ∧ packet.stunClass = 0 ∧ packet.stunMethod = 1 ∧ packet.transactionId = pkt.transactionId.val
      ∧ packet.username = pkt.username ∧ packet.priority = pkt.priority.toNat
      ∧ packet.hasUseCandidate = pkt.hasUseCandidate := by
  have hlen := hfits.username
  have hattributes := length_attributes getHmacSha1 hlen
  have hdvd := dvd_length_bytes (pkt.attributes getHmacSha1)
  have hsize := hfits
  unfold Fits Stun.stunHeaderSize at hsize
  have hlength : data.length = pkt.dataLen := by
    rw [bytes_attributes, List.length_append, StunAttribute.length_bytes,
      show (pkt.fingerprintAttribute getHmacSha1).value.length = 4 from length_write4Bytes _] at hattributes
    rw [hdata, List.length_append, length_header, List.length_append, StunAttribute.length_bytes, hvalue]
    exact hattributes
  have hstun := isStun_header pkt (pkt.dataLen - 20)
    ((pkt.plainAttributes ++ pkt.integrityAttributes getHmacSha1).flatMap (·.bytes)
      ++ (StunAttribute.mk Stun.fingerprint value).bytes)
  have hfields := header_fields pkt (pkt.dataLen - 20)
    ((pkt.plainAttributes ++ pkt.integrityAttributes getHmacSha1).flatMap (·.bytes)
      ++ (StunAttribute.mk Stun.fingerprint value).bytes)
  rw [← hdata] at hstun hfields
  rcases parseAttributes_serialize (s := {
      packet := {
        data := data
        stunMethod := StunPacket.msgMethod (.ofNat 1)
        stunClass := StunPacket.msgClass 0 1
        transactionId := pkt.transactionId.val } }) hlen hvalue hdata rfl rfl rfl rfl rfl rfl
    with ⟨p, hparse⟩
  have hcrc : data.take (pkt.header (pkt.dataLen - 20)
      ++ (pkt.plainAttributes ++ pkt.integrityAttributes getHmacSha1).flatMap (·.bytes)).length
      = pkt.header (pkt.dataLen - 20)
        ++ (pkt.plainAttributes ++ pkt.integrityAttributes getHmacSha1).flatMap (·.bytes) := by
    conv => lhs; rw [hdata, ← List.append_assoc]
    exact List.take_left
  unfold StunPacket.parse
  rw [if_pos hstun, hfields.1, hfields.2.1, hfields.2.2.1, hfields.2.2.2.1, hfields.2.2.2.2,
    Nat.mod_eq_of_lt (by omega), if_neg (by omega)]
  simp only
  rw [hparse]
  simp only [hcrc, ne_eq, not_true_eq_false, if_false, if_true, ite_not]
  refine ⟨_, rfl, ?_, ?_, rfl, rfl, rfl, rfl⟩
  . show StunPacket.msgClass 0 1 = 0
    decide
  . show StunPacket.msgMethod (.ofNat 1) = 1
    decide

theorem parse_serialize (hfits : pkt.Fits getHmacSha1) (hadd : pkt.addMsgIntegrity = true)
    : ∃ packet, StunPacket.parse (pkt.serialize getHmacSha1) = some packet
      ∧ packet.stunClass = 0 ∧ packet.stunMethod = 1 ∧ packet.transactionId = pkt.transactionId.val
      ∧ packet.username = pkt.username ∧ packet.priority = pkt.priority.toNat
      ∧ packet.hasUseCandidate = pkt.hasUseCandidate := by
  rcases parse_message hfits (length_write4Bytes _) (serialize_eq hfits.username) with ⟨packet, hparse, hpacket⟩
  rw [if_pos hadd, if_pos (read4Bytes_write4Bytes_of_lt (BitVec.isLt _))] at hparse
  exact ⟨packet, hparse, hpacket⟩

theorem parse_serialize_eq_none (hfits : pkt.Fits getHmacSha1) (hadd : pkt.addMsgIntegrity = false)
    : StunPacket.parse (pkt.serialize getHmacSha1) = none := by
  rcases parse_message hfits (length_write4Bytes _) (serialize_eq hfits.username) with ⟨packet, hparse, _⟩
  rw [hparse, if_neg]
  rw [read4Bytes_write4Bytes_of_lt (BitVec.isLt _), hadd, if_neg (by decide)]
  intro hvalue
  have hzero := header_inj ((BitVec.xor_left_inj _).mp (BitVec.eq_of_toNat_eq hvalue))
  have hdataLen := dataLen_eq hfits.username
  have hattributes := length_attributes getHmacSha1 hfits.username
  have hsize := hfits
  unfold Fits Stun.stunHeaderSize at hsize
  omega

/--
The bytes of a binding request are parsed to what it was made of exactly if it has a message integrity.
-/
theorem stunRoundTrips_iff (hfits : pkt.Fits getHmacSha1)
    : pkt.RoundTrips getHmacSha1 ↔ pkt.addMsgIntegrity = true := by
  constructor
  . intro h
    cases hadd : pkt.addMsgIntegrity with
    | true => rfl
    | false =>
      rcases h.parse with ⟨packet, hparse, _⟩
      rw [parse_serialize_eq_none hfits hadd] at hparse
      cases hparse
  . intro hadd
    have hbytes := serialize_of_addMsgIntegrity hfits hadd
    have hattributes := length_attributes getHmacSha1 hfits.username
    refine ⟨?_, ?_, parse_serialize hfits hadd⟩
    . have hlength := congrArg List.length hbytes
      rw [List.length_append, length_header, hattributes] at hlength
      rw [hlength, hbytes]
    . intro a _
      rw [a.length_bytes]
      omega

/--
A request with a user name and a priority.
-/
def bindingSample (addMsgIntegrity : Bool) : BindingRequest where
  transactionId := ⟨[1, 2, 3, 4, 5, 6, 7, 8, 9, 10, 11, 12], rfl⟩
  username := [0x61, 0x3a, 0x62]
  password := [0x63]
  priority := 9
  addMsgIntegrity := addMsgIntegrity

def hashSample : HmacSha1 := fun _ _ => ⟨List.replicate 20 0, rfl⟩

theorem fits_bindingSample (addMsgIntegrity : Bool) : (bindingSample addMsgIntegrity).Fits hashSample := by
  have hlen : (bindingSample addMsgIntegrity).username.length + 3 < 2 ^ 16 := by
    show 3 + 3 < 2 ^ 16
    decide
  unfold Fits
  rw [Stun.stunHeaderSize, length_attributes _ hlen, dataLen_eq hlen]
  cases addMsgIntegrity with
  | true => decide
  | false => decide

theorem stunRoundTrips_sample : (bindingSample true).RoundTrips hashSample ↔ (bindingSample true).addMsgIntegrity = true :=
  stunRoundTrips_iff (fits_bindingSample true)

theorem not_stunRoundTrips : (bindingSample false).Fits hashSample
    ∧ StunPacket.parse ((bindingSample false).serialize hashSample) = none
    ∧ ¬ (bindingSample false).RoundTrips hashSample := by
  have hfits := fits_bindingSample false
  have hparse := parse_serialize_eq_none hfits rfl
  refine ⟨hfits, hparse, ?_⟩
  intro h
  rcases h.parse with ⟨packet, hpacket, _⟩
  rw [hparse] at hpacket
  cases hpacket

end BindingRequest
