import CppStreamer.Basic.Filling
import CppStreamer.Utils.ByteStream

/-!
This module contains the handshake with a digest: `MakeC0C1` and `ParseC1` of `C1S1Handle`, and the offsets for which
the one makes what the other one accepts. HMAC-SHA256 and the values of `random` are parameters.
-/

open ByteStream Checked

namespace Rtmp

def rtmpHandshakeVersion : UInt8 := 0x03

def rtmpSimpleHandshake : Int := 2

inductive HandshakeSchema where
  | init
  | schema0
  | schema1
  deriving DecidableEq, Repr

def genuineFlashPlayerKey : List UInt8 :=
  [0x47, 0x65, 0x6E, 0x75, 0x69, 0x6E, 0x65, 0x20,
    0x41, 0x64, 0x6F, 0x62, 0x65, 0x20, 0x46, 0x6C,
    0x61, 0x73, 0x68, 0x20, 0x50, 0x6C, 0x61, 0x79,
    0x65, 0x72, 0x20, 0x30, 0x30, 0x31,
    0xF0, 0xEE, 0xC2, 0x4A, 0x80, 0x68, 0xBE, 0xE8,
    0x2E, 0x00, 0xD0, 0xD1, 0x02, 0x9E, 0x7E, 0x57,
    0x6E, 0xEC, 0x5D, 0x2D, 0x29, 0x80, 0x6F, 0xAB,
    0x93, 0xB8, 0xE6, 0x36, 0xCF, 0xEB, 0x31, 0xAE]

/--
What HMAC-SHA256 gives.
-/
abbrev Digest := { digest : List UInt8 // digest.length = 32 }

/--
The bytes that are made from the values of `random`, the first of which is the one of the given call.
-/
def rtmpRandomGenerate (random : Nat → Nat) (calls size : Nat) : List UInt8 :=
  (List.range size).map fun i => UInt8.ofNat (0x0f + random (calls + i) % (256 - 0x0f - 0x0f))

def sumBytes (offset : Nat) : Nat :=
  (byteAt offset 0).toNat + (byteAt offset 1).toNat + (byteAt offset 2).toNat + (byteAt offset 3).toNat

def calcValidDigestOffset (offset : Nat) : Nat := sumBytes offset % (764 - 32 - 4)

def calcValidKeyOffset (offset : Nat) : Nat := sumBytes offset % (764 - 128 - 4)

/--
The parts of a C1. A null pointer is `none`.
-/
structure C1S1Handle where
  schema : HandshakeSchema := .init
  c1Data : List UInt8 := []
  c1Time : Nat := 0
  c1Version : Nat := 0
  keyRandom0 : Option (List UInt8) := none
  keyRandom1 : Option (List UInt8) := none
  keyRandom0Size : Nat := 0
  keyRandom1Size : Nat := 0
  c1KeyOffset : Nat := 0
  c1KeyData : List UInt8 := []
  c1DigestOffset : Nat := 0
  digestRandom0 : Option (List UInt8) := none
  digestRandom1 : Option (List UInt8) := none
  digestRandom0Size : Nat := 0
  digestRandom1Size : Nat := 0
  digestData : List UInt8 := []
  deriving DecidableEq, Repr

namespace C1S1Handle

section Parse

def parseKey (h : C1S1Handle) (c1 : List UInt8) (data : Nat) : Checked CopyCheck C1S1Handle := do
  let offset ← copyBytes c1 (data + 764 - 4) 4
  let c1KeyOffset := read4Bytes offset
  let realOffset := calcValidKeyOffset c1KeyOffset
  check (.assertion (realOffset < 764 - 4))
  let keyRandom0 ← copyBytes c1 data realOffset
  let c1KeyData ← copyBytes c1 (data + realOffset) 128
  let keyRandom1Size := (2 ^ 32 + (764 - 128 - 4) - realOffset) % 2 ^ 32
  check (.assertion (keyRandom1Size < 764 - 4))
  let keyRandom1 ← copyBytes c1 (data + realOffset + 128) keyRandom1Size
  check (.assertion (data + realOffset + 128 + keyRandom1Size + 4 == data + 764))
  return { h with
    c1KeyOffset
    keyRandom0Size := realOffset
    keyRandom0 := some keyRandom0
    c1KeyData
    keyRandom1Size
    keyRandom1 := some keyRandom1 }

def parseDigest (h : C1S1Handle) (c1 : List UInt8) (data : Nat) : Checked CopyCheck C1S1Handle := do
  let offset ← copyBytes c1 data 4
  let c1DigestOffset := read4Bytes offset
  let realOffset := calcValidDigestOffset c1DigestOffset
  check (.assertion (realOffset < 764 - 4))
  let digestRandom0 ← copyBytes c1 (data + 4) realOffset
  let digestData ← copyBytes c1 (data + 4 + realOffset) 32
  let digestRandom1Size := (2 ^ 32 + (764 - 4 - 32) - realOffset) % 2 ^ 32
  check (.assertion (digestRandom1Size < 764 - 4))
  let digestRandom1 ← copyBytes c1 (data + 4 + realOffset + 32) digestRandom1Size
  check (.assertion (data + 4 + realOffset + 32 + digestRandom1Size == data + 764))
  return { h with
    c1DigestOffset
    digestRandom0Size := realOffset
    digestRandom0 := some digestRandom0
    digestData
    digestRandom1Size
    digestRandom1 := some digestRandom1 }

def trySchema0 (h : C1S1Handle) (c1 : List UInt8) (data : Nat) : Checked CopyCheck C1S1Handle := do
  let h ← h.parseKey c1 data
  h.parseDigest c1 (data + 764)

def trySchema1 (h : C1S1Handle) (c1 : List UInt8) (data : Nat) : Checked CopyCheck C1S1Handle := do
  let h ← h.parseDigest c1 data
  h.parseKey c1 (data + 764)

variable (hmacSha256 : List UInt8 → List UInt8 → Digest)

/--
Whether the digest is the one of the C1 without its 32 bytes, which are behind the first part.
-/
def checkDigestBehind (h : C1S1Handle) (firstPartLen : Nat) : Checked CopyCheck Bool := do
  let secondPartLen := (2 ^ 64 + (1536 - 32) - firstPartLen) % 2 ^ 64
  let p : Filling := { size := 1536 - 32 }
  let p ← p.memcpy h.c1Data 0 firstPartLen
  let p ← p.memcpy h.c1Data (firstPartLen + 32) secondPartLen
  check (.assertion (firstPartLen + secondPartLen == 1536 - 32))
  let inputData ← copyBytes p.written 0 (1536 - 32)
  let key ← copyBytes genuineFlashPlayerKey 0 30
  let c1Digest := (hmacSha256 key inputData).val
  check (.assertion (c1Digest.length == 32))
  let digestData ← copyBytes h.digestData 0 32
  return digestData == c1Digest

/--
The error code for a schema that is not known counts as true.
-/
def checkDigestValid (h : C1S1Handle) : HandshakeSchema → Checked CopyCheck Bool
  | .schema0 => h.checkDigestBehind hmacSha256 (8 + 764 + 4 + h.digestRandom0Size)
  | .schema1 => h.checkDigestBehind hmacSha256 (8 + 4 + h.digestRandom0Size)
  | .init => return true

def parseC1 (h : C1S1Handle) (c1 : List UInt8) : Checked CopyCheck (C1S1Handle × Int) := do
  let c1Data ← copyBytes c1 0 1536
  let time ← copyBytes c1 0 4
  let version ← copyBytes c1 4 4
  let h := { h with c1Data, c1Time := read4Bytes time, c1Version := read4Bytes version }
  let h ← h.trySchema1 c1 8
  let isValid ← h.checkDigestValid hmacSha256 .schema1
  if isValid then return ({ h with schema := .schema1 }, 0)
  else
    let h ← h.trySchema0 c1 8
    let isValid ← h.checkDigestValid hmacSha256 .schema0
    if isValid then return ({ h with schema := .schema0 }, 0)
    else return ({ h with schema := .schema0 }, rtmpSimpleHandshake)

end Parse

section Make

variable (random : Nat → Nat)

def prepareDigest (h : C1S1Handle) (calls : Nat) : C1S1Handle × Nat :=
  let c1DigestOffset := random calls % 2 ^ 32
  let realOffset := calcValidDigestOffset c1DigestOffset
  let digestRandom1Size := (2 ^ 32 + (764 - 4 - 32) - realOffset) % 2 ^ 32
  ({ h with
    c1DigestOffset
    digestRandom0Size := realOffset
    digestRandom0 := some (rtmpRandomGenerate random (calls + 1) realOffset)
    digestData := rtmpRandomGenerate random (calls + 1 + realOffset) 32
    digestRandom1Size
    digestRandom1 := some (rtmpRandomGenerate random (calls + 1 + realOffset + 32) digestRandom1Size) },
    calls + 1 + realOffset + 32 + digestRandom1Size)

def prepareKey (h : C1S1Handle) (calls : Nat) : C1S1Handle :=
  let c1KeyOffset := random calls % 2 ^ 32
  let realOffset := calcValidKeyOffset c1KeyOffset
  let keyRandom1Size := (2 ^ 32 + (764 - 128 - 4) - realOffset) % 2 ^ 32
  { h with
    c1KeyOffset
    keyRandom0Size := realOffset
    keyRandom0 := some (rtmpRandomGenerate random (calls + 1) realOffset)
    c1KeyData := rtmpRandomGenerate random (calls + 1 + realOffset) 128
    keyRandom1Size
    keyRandom1 := some (rtmpRandomGenerate random (calls + 1 + realOffset + 128) keyRandom1Size) }

/--
The C1 without its digest.
-/
def joinedData (h : C1S1Handle) : Checked CopyCheck (List UInt8) := do
  let p : Filling := { size := 1536 - 32 }
  let p ← p.put (write4Bytes h.c1Time)
  let p ← p.put (write4Bytes h.c1Version)
  let p ← p.put (write4Bytes h.c1DigestOffset)
  let p ← p.memcpy (h.digestRandom0.getD []) 0 h.digestRandom0Size
  let p ← p.memcpy (h.digestRandom1.getD []) 0 h.digestRandom1Size
  let p ← p.memcpy (h.keyRandom0.getD []) 0 h.keyRandom0Size
  let p ← p.memcpy h.c1KeyData 0 128
  let p ← p.memcpy (h.keyRandom1.getD []) 0 h.keyRandom1Size
  let p ← p.put (write4Bytes h.c1KeyOffset)
  check (.assertion (p.written.length == 1536 - 32))
  copyBytes p.written 0 (1536 - 32)

variable (hmacSha256 : List UInt8 → List UInt8 → Digest)

def makeC1Scheme1Digest (h : C1S1Handle) (calls now : Nat) : Checked CopyCheck (C1S1Handle × List UInt8) := do
  let prepared := h.prepareDigest random calls
  let h := prepared.1.prepareKey random prepared.2
  let h := { h with c1Time := now % 2 ^ 32, c1Version := 0x80000702 }
  let data ← h.joinedData
  let key ← copyBytes genuineFlashPlayerKey 0 30
  return (h, (hmacSha256 key data).val)

/--
The bytes of C0 and C1 for a digest, `none` if the code gives up.
-/
def writeC0C1 (h : C1S1Handle) (c1Digest : List UInt8) : Checked CopyCheck (Option (List UInt8)) := do
  let p : Filling := { size := 1536 + 1 }
  let p ← p.put [rtmpHandshakeVersion]
  let p ← p.put (write4Bytes h.c1Time)
  let p ← p.put (write4Bytes h.c1Version)
  let p ← p.put (write4Bytes h.c1DigestOffset)
  if h.digestRandom0 = none ∨ h.digestRandom0Size = 0 then return none
  else
    let p ← p.memcpy (h.digestRandom0.getD []) 0 h.digestRandom0Size
    let p ← p.memcpy c1Digest 0 32
    if h.digestRandom1 = none ∨ h.digestRandom1Size = 0 then return none
    else
      let p ← p.memcpy (h.digestRandom1.getD []) 0 h.digestRandom1Size
      let p ← p.memcpy (h.keyRandom0.getD []) 0 h.keyRandom0Size
      let p ← p.memcpy h.c1KeyData 0 128
      let p ← p.memcpy (h.keyRandom1.getD []) 0 h.keyRandom1Size
      let p ← p.put (write4Bytes h.c1KeyOffset)
      check (.assertion (p.written.length == 1 + 1536))
      return some p.written

/--
`MakeC0C1`, with the digest that is written and the parts that it is written with.
-/
def makeC0C1 (h : C1S1Handle) (calls now : Nat)
    : Checked CopyCheck ((C1S1Handle × List UInt8) × Option (List UInt8)) := do
  let made ← h.makeC1Scheme1Digest random hmacSha256 calls now
  let c0c1 ← made.1.writeC0C1 made.2
  return (made, c0c1)

end Make

end C1S1Handle

theorem calcValidDigestOffset_lt (offset : Nat) : calcValidDigestOffset offset < 728 :=
  Nat.mod_lt _ (by decide)

theorem calcValidKeyOffset_lt (offset : Nat) : calcValidKeyOffset offset < 632 :=
  Nat.mod_lt _ (by decide)

@[simp]
theorem length_rtmpRandomGenerate (random : Nat → Nat) (calls size : Nat)
    : (rtmpRandomGenerate random calls size).length = size := by
  unfold rtmpRandomGenerate
  rw [List.length_map, List.length_range]

theorem length_digest (digest : Digest) : digest.val.length = 32 := digest.property

theorem length_genuineFlashPlayerKey : genuineFlashPlayerKey.length = 62 := rfl

/--
What is left of the 764 bytes of a part. The offset is too small for the subtraction to wrap.
-/
theorem restSize_eq {size offset : Nat} (hoffset : offset ≤ size) (hsize : size < 2 ^ 32)
    : (2 ^ 32 + size - offset) % 2 ^ 32 = size - offset := by
  omega

namespace C1S1Handle

section Parse

variable {h : C1S1Handle} {c1 : List UInt8} {data : Nat}

theorem parseKey_passes (hlen : data + 764 ≤ c1.length) : (h.parseKey c1 data).Passes CopyCheck.Holds := by
  have hoffset := calcValidKeyOffset_lt (read4Bytes ((c1.drop (data + 764 - 4)).take 4))
  unfold parseKey
  simp only [passes_bind, passes_check, CopyCheck.Holds, passes_pure, decide_eq_true_eq, beq_iff_eq, and_true]
  simp only [copyBytes_passes, copyBytes_value]
  generalize calcValidKeyOffset _ = offset at hoffset
  rw [restSize_eq (by omega) (by decide)]
  omega

theorem parseDigest_passes (hlen : data + 764 ≤ c1.length)
    : (h.parseDigest c1 data).Passes CopyCheck.Holds := by
  have hoffset := calcValidDigestOffset_lt (read4Bytes ((c1.drop data).take 4))
  unfold parseDigest
  simp only [passes_bind, passes_check, CopyCheck.Holds, passes_pure, decide_eq_true_eq, beq_iff_eq, and_true]
  simp only [copyBytes_passes, copyBytes_value]
  generalize calcValidDigestOffset _ = offset at hoffset
  rw [restSize_eq (by omega) (by decide)]
  omega

theorem trySchema0_passes (hlen : data + 1528 ≤ c1.length)
    : (h.trySchema0 c1 data).Passes CopyCheck.Holds := by
  unfold trySchema0
  rw [passes_bind]
  constructor
  . apply parseKey_passes
    omega
  . apply parseDigest_passes
    omega

theorem trySchema1_passes (hlen : data + 1528 ≤ c1.length)
    : (h.trySchema1 c1 data).Passes CopyCheck.Holds := by
  unfold trySchema1
  rw [passes_bind]
  constructor
  . apply parseDigest_passes
    omega
  . apply parseKey_passes
    omega

/--
A C1 whose digest has been cut out of it.
-/
structure Parsed (h : C1S1Handle) : Prop where
  data : h.c1Data.length = 1536
  digest : h.digestData.length = 32
  random0 : h.digestRandom0Size < 728

theorem parseDigest_parsed (hlen : data + 764 ≤ c1.length) (hdata : h.c1Data.length = 1536)
    : (h.parseDigest c1 data).value.Parsed where
  data := hdata
  digest := by
    have hoffset := calcValidDigestOffset_lt (read4Bytes ((c1.drop data).take 4))
    apply length_copyBytes
    omega
  random0 := calcValidDigestOffset_lt _

theorem trySchema0_parsed (hlen : data + 1528 ≤ c1.length) (hdata : h.c1Data.length = 1536)
    : (h.trySchema0 c1 data).value.Parsed := by
  unfold trySchema0
  rw [value_bind]
  apply parseDigest_parsed
  . omega
  . exact hdata

theorem trySchema1_parsed (hlen : data + 1528 ≤ c1.length) (hdata : h.c1Data.length = 1536)
    : (h.trySchema1 c1 data).value.Parsed := by
  have hparsed : (h.parseDigest c1 data).value.Parsed := parseDigest_parsed (by omega) hdata
  exact ⟨hparsed.data, hparsed.digest, hparsed.random0⟩

variable {hmacSha256 : List UInt8 → List UInt8 → Digest} {firstPartLen : Nat}

theorem checkDigestBehind_passes (hparsed : h.Parsed) (hfirst : firstPartLen ≤ 1504)
    : (h.checkDigestBehind hmacSha256 firstPartLen).Passes CopyCheck.Holds := by
  have hdata := hparsed.data
  have hdigest := hparsed.digest
  unfold checkDigestBehind
  simp only [passes_bind, Filling.memcpy_passes, Filling.memcpy_value, copyBytes_passes, copyBytes_value,
    passes_check, CopyCheck.Holds, passes_pure, beq_iff_eq, and_true, true_and, List.nil_append, List.length_append,
    List.length_take, List.length_drop, List.length_nil, length_genuineFlashPlayerKey, length_digest]
  have hrest : (2 ^ 64 + (1536 - 32) - firstPartLen) % 2 ^ 64 = 1504 - firstPartLen := by omega
  rw [hrest]
  omega

theorem checkDigestBehind_value (hfirst : firstPartLen ≤ 1504)
    : (h.checkDigestBehind hmacSha256 firstPartLen).value
        = (h.digestData.take 32 == (hmacSha256 (genuineFlashPlayerKey.take 30)
            ((h.c1Data.take firstPartLen ++ (h.c1Data.drop (firstPartLen + 32)).take (1504 - firstPartLen)).take
              1504)).val) := by
  have hrest : (2 ^ 64 + (1536 - 32) - firstPartLen) % 2 ^ 64 = 1504 - firstPartLen := by omega
  unfold checkDigestBehind
  simp only [value_bind, Filling.memcpy_value, copyBytes_value, value_pure, hrest, List.drop_zero, List.nil_append]

theorem checkDigestValid_passes (hparsed : h.Parsed) (schema : HandshakeSchema)
    : (h.checkDigestValid hmacSha256 schema).Passes CopyCheck.Holds := by
  have hrandom0 := hparsed.random0
  cases schema with
  | init => exact passes_pure true
  | schema0 =>
    apply checkDigestBehind_passes hparsed
    omega
  | schema1 =>
    apply checkDigestBehind_passes hparsed
    omega

/--
A C1 is parsed inside of its buffers, whatever its bytes are.
-/
theorem parseC1_passes (hlen : c1.length = 1536) : (h.parseC1 hmacSha256 c1).Passes CopyCheck.Holds := by
  have hbound : 8 + 1528 ≤ c1.length := Nat.le_of_eq hlen.symm
  unfold parseC1
  simp only [passes_bind, copyBytes_passes, copyBytes_value, List.drop_zero]
  generalize hstart : ({ h with c1Data := c1.take 1536, c1Time := _, c1Version := _ } : C1S1Handle) = start
  have hdata : start.c1Data.length = 1536 := by
    subst hstart
    simp [hlen]
  have hparsed1 := trySchema1_parsed hbound hdata
  refine ⟨by omega, by omega, by omega, trySchema1_passes hbound, checkDigestValid_passes hparsed1 _, ?_⟩
  split
  . exact passes_pure _
  . have hparsed0 := trySchema0_parsed hbound hparsed1.data
    rw [passes_bind, passes_bind]
    refine ⟨trySchema0_passes hbound, checkDigestValid_passes hparsed0 _, ?_⟩
    split
    . exact passes_pure _
    . exact passes_pure _

end Parse

section Make

/--
The parts of a C1 have the sizes that belong to its offsets.
-/
structure Prepared (h : C1S1Handle) : Prop where
  digestOffset_lt : h.c1DigestOffset < 2 ^ 32
  digestRandom0Size : h.digestRandom0Size = calcValidDigestOffset h.c1DigestOffset
  digestRandom1Size : h.digestRandom1Size = 728 - calcValidDigestOffset h.c1DigestOffset
  digestRandom0 : (h.digestRandom0.getD []).length = h.digestRandom0Size
  digestRandom1 : (h.digestRandom1.getD []).length = h.digestRandom1Size
  digestRandom0_ne : h.digestRandom0 ≠ none
  digestRandom1_ne : h.digestRandom1 ≠ none
  keyOffset_lt : h.c1KeyOffset < 2 ^ 32
  keyRandom0Size : h.keyRandom0Size = calcValidKeyOffset h.c1KeyOffset
  keyRandom1Size : h.keyRandom1Size = 632 - calcValidKeyOffset h.c1KeyOffset
  keyRandom0 : (h.keyRandom0.getD []).length = h.keyRandom0Size
  keyRandom1 : (h.keyRandom1.getD []).length = h.keyRandom1Size
  keyData : h.c1KeyData.length = 128

/--
A C1 up to its digest.
-/
def front (h : C1S1Handle) : List UInt8 :=
  write4Bytes h.c1Time ++ (write4Bytes h.c1Version ++ (write4Bytes h.c1DigestOffset ++ h.digestRandom0.getD []))

/--
A C1 behind its digest.
-/
def back (h : C1S1Handle) : List UInt8 :=
  h.digestRandom1.getD [] ++ (h.keyRandom0.getD [] ++ (h.c1KeyData ++ (h.keyRandom1.getD []
    ++ write4Bytes h.c1KeyOffset)))

theorem prepare_prepared (random : Nat → Nat) (h : C1S1Handle) (calls keyCalls : Nat)
    : Prepared ((h.prepareDigest random calls).1.prepareKey random keyCalls) := by
  have hdigest := calcValidDigestOffset_lt (random calls % 2 ^ 32)
  have hkey := calcValidKeyOffset_lt (random keyCalls % 2 ^ 32)
  have hdigestRest : (2 ^ 32 + (764 - 4 - 32) - calcValidDigestOffset (random calls % 2 ^ 32)) % 2 ^ 32
      = 728 - calcValidDigestOffset (random calls % 2 ^ 32) := restSize_eq (Nat.le_of_lt hdigest) (by decide)
  have hkeyRest : (2 ^ 32 + (764 - 128 - 4) - calcValidKeyOffset (random keyCalls % 2 ^ 32)) % 2 ^ 32
      = 632 - calcValidKeyOffset (random keyCalls % 2 ^ 32) := restSize_eq (Nat.le_of_lt hkey) (by decide)
  exact {
    digestOffset_lt := Nat.mod_lt _ (Nat.two_pow_pos 32)
    digestRandom0Size := rfl
    digestRandom1Size := hdigestRest
    digestRandom0 := length_rtmpRandomGenerate _ _ _
    digestRandom1 := length_rtmpRandomGenerate _ _ _
    digestRandom0_ne := Option.some_ne_none _
    digestRandom1_ne := Option.some_ne_none _
    keyOffset_lt := Nat.mod_lt _ (Nat.two_pow_pos 32)
    keyRandom0Size := rfl
    keyRandom1Size := hkeyRest
    keyRandom0 := length_rtmpRandomGenerate _ _ _
    keyRandom1 := length_rtmpRandomGenerate _ _ _
    keyData := length_rtmpRandomGenerate _ _ _ }

namespace Prepared

variable {h : C1S1Handle}

theorem length_front (hp : h.Prepared) : h.front.length = 12 + h.digestRandom0Size := by
  unfold front
  simp only [List.length_append, length_write4Bytes, hp.digestRandom0]
  omega

theorem length_back (hp : h.Prepared) : h.back.length = 1492 - h.digestRandom0Size := by
  have hdigest := calcValidDigestOffset_lt h.c1DigestOffset
  have hkey := calcValidKeyOffset_lt h.c1KeyOffset
  unfold back
  simp only [List.length_append, length_write4Bytes, hp.digestRandom1, hp.keyRandom0, hp.keyRandom1, hp.keyData,
    hp.digestRandom0Size, hp.digestRandom1Size, hp.keyRandom0Size, hp.keyRandom1Size]
  omega

theorem random0_lt (hp : h.Prepared) : h.digestRandom0Size < 728 := by
  rw [hp.digestRandom0Size]
  exact calcValidDigestOffset_lt _

theorem joinedData_spec (hp : h.Prepared)
    : h.joinedData.Passes CopyCheck.Holds ∧ h.joinedData.value = h.front ++ h.back := by
  have hdigest := calcValidDigestOffset_lt h.c1DigestOffset
  have hkey := calcValidKeyOffset_lt h.c1KeyOffset
  have htake {bytes : List UInt8} {size : Nat} (hlen : bytes.length = size) : bytes.take size = bytes := by
    rw [← hlen, List.take_length]
  have hlength : (h.front ++ h.back).length = 1504 := by
    have hrandom0 := hp.random0_lt
    rw [List.length_append, hp.length_front, hp.length_back]
    omega
  unfold joinedData
  simp only [passes_bind, value_bind, Filling.put_passes, Filling.put_value, Filling.memcpy_passes,
    Filling.memcpy_value, copyBytes_passes, copyBytes_value, passes_check, CopyCheck.Holds, beq_iff_eq,
    List.drop_zero, List.nil_append, List.append_assoc, htake hp.digestRandom0, htake hp.digestRandom1,
    htake hp.keyRandom0, htake hp.keyRandom1, htake hp.keyData]
  constructor
  . simp only [List.length_append, length_write4Bytes, List.length_nil, hp.digestRandom0, hp.digestRandom1,
      hp.keyRandom0, hp.keyRandom1, hp.keyData, hp.digestRandom0Size, hp.digestRandom1Size, hp.keyRandom0Size,
      hp.keyRandom1Size]
    omega
  . have hjoined : write4Bytes h.c1Time ++ (write4Bytes h.c1Version ++ (write4Bytes h.c1DigestOffset
        ++ (h.digestRandom0.getD [] ++ h.back))) = h.front ++ h.back := by
      simp only [front, List.append_assoc]
    change List.take 1504 (write4Bytes h.c1Time ++ (write4Bytes h.c1Version ++ (write4Bytes h.c1DigestOffset
      ++ (h.digestRandom0.getD [] ++ h.back)))) = _
    rw [hjoined]
    exact htake hlength

theorem writeC0C1_spec (hp : h.Prepared) {c1Digest : List UInt8} (hdigest : c1Digest.length = 32)
    : (h.writeC0C1 c1Digest).Passes CopyCheck.Holds
      ∧ (h.writeC0C1 c1Digest).value
        = if h.digestRandom0Size = 0 then none
          else some (rtmpHandshakeVersion :: (h.front ++ (c1Digest ++ h.back))) := by
  have hrandom0 := calcValidDigestOffset_lt h.c1DigestOffset
  have hkey := calcValidKeyOffset_lt h.c1KeyOffset
  have hrandom1 : h.digestRandom1Size ≠ 0 := by
    rw [hp.digestRandom1Size]
    omega
  unfold writeC0C1
  simp only [hp.digestRandom0_ne, hp.digestRandom1_ne, hrandom1, false_or]
  by_cases hzero : h.digestRandom0Size = 0
  . simp only [hzero, if_true, if_false, passes_bind, value_bind, Filling.put_passes, Filling.put_value, passes_pure,
      value_pure]
    simp
  . simp only [hzero, if_false, passes_bind, value_bind, Filling.put_passes, Filling.put_value,
      Filling.memcpy_passes, Filling.memcpy_value, passes_check, CopyCheck.Holds, beq_iff_eq, passes_pure, and_true,
      value_pure, List.drop_zero, List.nil_append, List.append_assoc, List.take_of_length_le (Nat.le_of_eq hdigest),
      List.take_of_length_le (Nat.le_of_eq hp.digestRandom0), List.take_of_length_le (Nat.le_of_eq hp.digestRandom1),
      List.take_of_length_le (Nat.le_of_eq hp.keyRandom0), List.take_of_length_le (Nat.le_of_eq hp.keyRandom1),
      List.take_of_length_le (Nat.le_of_eq hp.keyData)]
    constructor
    . simp only [List.length_append, length_write4Bytes, List.length_cons, List.length_nil, hdigest, hp.digestRandom0,
        hp.digestRandom1, hp.keyRandom0, hp.keyRandom1, hp.keyData, hp.digestRandom0Size, hp.digestRandom1Size,
        hp.keyRandom0Size, hp.keyRandom1Size]
      omega
    . simp only [front, back, List.append_assoc, List.cons_append, List.nil_append]

/--
The C1 for a digest is taken apart into the digest and the key.
-/
theorem trySchema1_made (hp : h.Prepared) {c1Digest : List UInt8} (hdigest : c1Digest.length = 32)
    (receiver : C1S1Handle)
    : (receiver.trySchema1 (h.front ++ (c1Digest ++ h.back)) 8).value.digestRandom0Size = h.digestRandom0Size
      ∧ (receiver.trySchema1 (h.front ++ (c1Digest ++ h.back)) 8).value.digestData = c1Digest
      ∧ (receiver.trySchema1 (h.front ++ (c1Digest ++ h.back)) 8).value.c1KeyData = h.c1KeyData := by
  have hfront := hp.length_front
  have hkey := calcValidKeyOffset_lt h.c1KeyOffset
  have hrandom0 := hp.random0_lt
  have hrandom1 : h.digestRandom1Size = 728 - h.digestRandom0Size := by
    rw [hp.digestRandom1Size, hp.digestRandom0Size]
  have hkeyRandom0 := hp.keyRandom0Size
  have hkeyRandom1 := hp.keyRandom1Size
  generalize hc1 : h.front ++ (c1Digest ++ h.back) = c1
  have hdigestField : (c1.drop 8).take 4 = write4Bytes h.c1DigestOffset := by
    apply copyBytes_append (write4Bytes h.c1Time ++ write4Bytes h.c1Version)
      (h.digestRandom0.getD [] ++ (c1Digest ++ h.back))
    . simp only [← hc1, C1S1Handle.front, List.append_assoc]
    . rfl
    . rfl
  have hdigestData : (c1.drop (12 + h.digestRandom0Size)).take 32 = c1Digest :=
    copyBytes_append h.front h.back hc1.symm hfront.symm hdigest.symm
  have hkeyField : (c1.drop 1532).take 4 = write4Bytes h.c1KeyOffset := by
    apply copyBytes_append (h.front ++ c1Digest ++ h.digestRandom1.getD [] ++ h.keyRandom0.getD [] ++ h.c1KeyData
      ++ h.keyRandom1.getD []) []
    . simp only [← hc1, C1S1Handle.back, List.append_assoc, List.append_nil]
    . simp only [List.length_append, hfront, hdigest, hp.digestRandom1, hp.keyRandom0, hp.keyData, hp.keyRandom1]
      omega
    . rfl
  have hkeyData : (c1.drop (772 + h.keyRandom0Size)).take 128 = h.c1KeyData := by
    apply copyBytes_append (h.front ++ c1Digest ++ h.digestRandom1.getD [] ++ h.keyRandom0.getD [])
      (h.keyRandom1.getD [] ++ write4Bytes h.c1KeyOffset)
    . simp only [← hc1, C1S1Handle.back, List.append_assoc]
    . simp only [List.length_append, hfront, hdigest, hp.digestRandom1, hp.keyRandom0]
      omega
    . exact hp.keyData.symm
  refine ⟨?_, ?_, ?_⟩
  . change calcValidDigestOffset (read4Bytes ((c1.drop 8).take 4)) = _
    rw [hdigestField, read4Bytes_write4Bytes_of_lt hp.digestOffset_lt, hp.digestRandom0Size]
  . change (c1.drop (8 + 4 + calcValidDigestOffset (read4Bytes ((c1.drop 8).take 4)))).take 32 = _
    rw [hdigestField, read4Bytes_write4Bytes_of_lt hp.digestOffset_lt, ← hp.digestRandom0Size]
    exact hdigestData
  . change (c1.drop (8 + 764 + calcValidKeyOffset (read4Bytes ((c1.drop 1532).take 4)))).take 128 = _
    rw [hkeyField, read4Bytes_write4Bytes_of_lt hp.keyOffset_lt, ← hp.keyRandom0Size]
    exact hkeyData

/--
A C1 without its digest.
-/
theorem cutDigest {front c1Digest back : List UInt8} {random0Size : Nat} (hfront : front.length = 12 + random0Size)
    (hdigest : c1Digest.length = 32) (hback : back.length = 1492 - random0Size) (hrandom0 : random0Size < 728)
    : ((front ++ (c1Digest ++ back)).take (8 + 4 + random0Size)
        ++ ((front ++ (c1Digest ++ back)).drop (8 + 4 + random0Size + 32)).take
          (1504 - (8 + 4 + random0Size))).take 1504
      = front ++ back := by
  have htake : (front ++ (c1Digest ++ back)).take (8 + 4 + random0Size) = front := List.take_left' hfront
  have hdrop : (front ++ (c1Digest ++ back)).drop (8 + 4 + random0Size + 32) = back := by
    rw [← List.append_assoc]
    apply List.drop_left'
    rw [List.length_append]
    omega
  have hrest : back.take (1504 - (8 + 4 + random0Size)) = back := List.take_of_length_le (by omega)
  rw [htake, hdrop, hrest]
  apply List.take_of_length_le
  rw [List.length_append]
  omega

/--
A C1 with the digest of its other bytes is accepted.
-/
theorem parseC1_made (hp : h.Prepared) (hmacSha256 : List UInt8 → List UInt8 → Digest) (receiver : C1S1Handle)
    {c1Digest : List UInt8}
    (hdigest : c1Digest = (hmacSha256 (genuineFlashPlayerKey.take 30) (h.front ++ h.back)).val)
    : (receiver.parseC1 hmacSha256 (h.front ++ (c1Digest ++ h.back))).value.2 = 0
      ∧ (receiver.parseC1 hmacSha256 (h.front ++ (c1Digest ++ h.back))).value.1.schema = .schema1
      ∧ (receiver.parseC1 hmacSha256 (h.front ++ (c1Digest ++ h.back))).value.1.digestData = c1Digest
      ∧ (receiver.parseC1 hmacSha256 (h.front ++ (c1Digest ++ h.back))).value.1.c1KeyData = h.c1KeyData := by
  have hlen : c1Digest.length = 32 := by
    rw [hdigest]
    exact length_digest _
  have hfront := hp.length_front
  have hback := hp.length_back
  have hrandom0 := hp.random0_lt
  have hwhole : (h.front ++ (c1Digest ++ h.back)).take 1536 = h.front ++ (c1Digest ++ h.back) := by
    apply List.take_of_length_le
    simp only [List.length_append, hlen, hfront, hback]
    omega
  generalize hstart : ({ receiver with
    c1Data := h.front ++ (c1Digest ++ h.back)
    c1Time := read4Bytes ((h.front ++ (c1Digest ++ h.back)).take 4)
    c1Version := read4Bytes (((h.front ++ (c1Digest ++ h.back)).drop 4).take 4) } : C1S1Handle) = start
  obtain ⟨hsize, hdata, hkey⟩ := hp.trySchema1_made hlen start
  have hc1Data : (start.trySchema1 (h.front ++ (c1Digest ++ h.back)) 8).value.c1Data
      = h.front ++ (c1Digest ++ h.back) := by
    subst hstart
    rfl
  have hvalid : ((start.trySchema1 (h.front ++ (c1Digest ++ h.back)) 8).value.checkDigestValid hmacSha256
      .schema1).value = true := by
    unfold checkDigestValid
    simp only
    rw [checkDigestBehind_value (by omega), hsize, hdata, hc1Data, cutDigest hfront hlen hback hrandom0,
      List.take_of_length_le (Nat.le_of_eq hlen), ← hdigest]
    exact beq_self_eq_true c1Digest
  unfold parseC1
  simp only [value_bind, copyBytes_value, List.drop_zero, hwhole, hstart, hvalid, if_true, value_pure]
  exact ⟨trivial, trivial, hdata, hkey⟩

end Prepared

variable (hmacSha256 : List UInt8 → List UInt8 → Digest) (random : Nat → Nat)

/--
The bytes that are made have the length of C0 and C1, and every receiver accepts them and gets the digest and the key
that they have been made with.
-/
structure Agrees (h : C1S1Handle) (calls now : Nat) : Prop where
  makes : (h.makeC0C1 random hmacSha256 calls now).Passes CopyCheck.Holds
  accepted : ∃ c0c1, (h.makeC0C1 random hmacSha256 calls now).value.2 = some c0c1 ∧ c0c1.length = 1 + 1536
    ∧ ∀ receiver : C1S1Handle,
      (receiver.parseC1 hmacSha256 (c0c1.drop 1)).value.2 = 0
        ∧ (receiver.parseC1 hmacSha256 (c0c1.drop 1)).value.1.schema = .schema1
        ∧ (receiver.parseC1 hmacSha256 (c0c1.drop 1)).value.1.digestData
          = (h.makeC0C1 random hmacSha256 calls now).value.1.2
        ∧ (receiver.parseC1 hmacSha256 (c0c1.drop 1)).value.1.c1KeyData
          = (h.makeC0C1 random hmacSha256 calls now).value.1.1.c1KeyData

/--
The handle after the digest and the key have been prepared.
-/
def prepared (h : C1S1Handle) (calls now : Nat) : C1S1Handle :=
  { (h.prepareDigest random calls).1.prepareKey random (h.prepareDigest random calls).2 with
    c1Time := now % 2 ^ 32
    c1Version := 0x80000702 }

theorem prepared_spec (h : C1S1Handle) (calls now : Nat) : (h.prepared random calls now).Prepared := by
  have hp := prepare_prepared random h calls (h.prepareDigest random calls).2
  exact { hp with }

theorem makeC1Scheme1Digest_spec (h : C1S1Handle) (calls now : Nat)
    : (h.makeC1Scheme1Digest random hmacSha256 calls now).Passes CopyCheck.Holds
      ∧ (h.makeC1Scheme1Digest random hmacSha256 calls now).value
        = (h.prepared random calls now, (hmacSha256 (genuineFlashPlayerKey.take 30)
          ((h.prepared random calls now).front ++ (h.prepared random calls now).back)).val) := by
  obtain ⟨hpasses, hvalue⟩ := (prepared_spec random h calls now).joinedData_spec
  unfold makeC1Scheme1Digest
  simp only [passes_bind, value_bind, copyBytes_passes, copyBytes_value, passes_pure, value_pure, and_true]
  change (((h.prepared random calls now).joinedData.Passes CopyCheck.Holds) ∧ _)
    ∧ (h.prepared random calls now, (hmacSha256 (genuineFlashPlayerKey.take 30)
      (h.prepared random calls now).joinedData.value).val) = _
  rw [hvalue]
  exact ⟨⟨hpasses, by decide⟩, rfl⟩

theorem makeC0C1_spec (h : C1S1Handle) (calls now : Nat)
    : (h.makeC0C1 random hmacSha256 calls now).Passes CopyCheck.Holds
      ∧ (h.makeC0C1 random hmacSha256 calls now).value.1
        = (h.makeC1Scheme1Digest random hmacSha256 calls now).value
      ∧ (h.makeC0C1 random hmacSha256 calls now).value.2
        = if calcValidDigestOffset (random calls % 2 ^ 32) = 0 then none
          else some (rtmpHandshakeVersion :: ((h.prepared random calls now).front
            ++ ((h.makeC1Scheme1Digest random hmacSha256 calls now).value.2
              ++ (h.prepared random calls now).back))) := by
  obtain ⟨hpasses, hvalue⟩ := makeC1Scheme1Digest_spec hmacSha256 random h calls now
  obtain ⟨hwrites, hwritten⟩ := (prepared_spec random h calls now).writeC0C1_spec
    (length_digest (hmacSha256 (genuineFlashPlayerKey.take 30)
      ((h.prepared random calls now).front ++ (h.prepared random calls now).back)))
  unfold makeC0C1
  simp only [passes_bind, value_bind, passes_pure, value_pure, and_true]
  rw [hvalue]
  exact ⟨⟨hpasses, hwrites⟩, trivial, hwritten⟩

/--
The handshake agrees with itself if there is a random byte in front of the digest, and only then. What is parsed is
inside of its buffers in any case.
-/
theorem agrees_iff (h : C1S1Handle) (calls now : Nat)
    : ((∀ (receiver : C1S1Handle) (c1 : List UInt8), c1.length = 1536 →
          (receiver.parseC1 hmacSha256 c1).Passes CopyCheck.Holds)
        ∧ h.Agrees hmacSha256 random calls now)
      ↔ calcValidDigestOffset (random calls % 2 ^ 32) ≠ 0 := by
  obtain ⟨hpasses, hmade, hwritten⟩ := makeC0C1_spec hmacSha256 random h calls now
  obtain ⟨-, hdigest⟩ := makeC1Scheme1Digest_spec hmacSha256 random h calls now
  have hp := prepared_spec random h calls now
  constructor
  . rintro ⟨-, hagrees⟩ hzero
    obtain ⟨c0c1, hsome, -⟩ := hagrees.accepted
    rw [hwritten, if_pos hzero] at hsome
    cases hsome
  . intro hne
    rw [if_neg hne] at hwritten
    refine ⟨fun receiver c1 hlen => parseC1_passes hlen, hpasses, _, hwritten, ?_, ?_⟩
    . have hlength := length_digest (hmacSha256 (genuineFlashPlayerKey.take 30)
        ((h.prepared random calls now).front ++ (h.prepared random calls now).back))
      have hrandom0 := hp.random0_lt
      rw [hdigest]
      simp only [List.length_cons, List.length_append, hp.length_front, hp.length_back, hlength]
      omega
    . intro receiver
      rw [hmade, hdigest]
      exact hp.parseC1_made hmacSha256 receiver rfl

/--
Offsets of 0.
-/
theorem not_agrees
    : ¬∀ (hmacSha256 : List UInt8 → List UInt8 → Digest) (random : Nat → Nat) (calls now : Nat),
        ({} : C1S1Handle).Agrees hmacSha256 random calls now := by
  intro h
  obtain ⟨c0c1, hsome, -⟩ := (h (fun _ _ => ⟨List.replicate 32 0, rfl⟩) (fun _ => 0) 0 0).accepted
  obtain ⟨-, -, hnone⟩ := makeC0C1_spec (fun _ _ => ⟨List.replicate 32 0, rfl⟩) (fun _ => 0) {} 0 0
  rw [hnone, if_pos (by decide)] at hsome
  cases hsome

end Make

end C1S1Handle

end Rtmp
