import CppStreamer.Basic.Filling
import CppStreamer.Format.MpegTs.InputPacket

/-!
This module contains the caches of parameter sets, how they are filled from the records of AVC and HEVC, and the record
that `get_video_extradata` makes of them. A record is read from a memory that goes on behind its end.
-/

open ByteStream Checked

/--
An array with the bytes that it holds, and how many of them belong to the parameter set.
-/
structure ParameterSet where
  array : List UInt8
  len : Int
  deriving DecidableEq, Repr

namespace ParameterSet

/--
An array that nothing has been written to.
-/
def empty (size : Nat) (len : Int) : ParameterSet := ⟨List.replicate size 0, len⟩

def copy (s : ParameterSet) (bytes : List UInt8) : Checked CopyCheck ParameterSet := do
  check (.inside 0 bytes.length s.array.length)
  return ⟨bytes ++ s.array.drop bytes.length, bytes.length⟩

/--
The array has its size, and the parameter set is within it.
-/
structure Within (s : ParameterSet) (size : Nat) : Prop where
  length : s.array.length = size
  len_le : s.len ≤ size

theorem within_empty (size : Nat) {len : Int} (hlen : len ≤ size) : (empty size len).Within size :=
  ⟨List.length_replicate, hlen⟩

variable {s : ParameterSet} {size : Nat}

theorem copy_passes (h : s.array.length = size) (bytes : List UInt8)
    : (s.copy bytes).Passes CopyCheck.Holds ↔ bytes.length ≤ size := by
  unfold copy
  simp [CopyCheck.Holds, h]

theorem copy_within (h : s.array.length = size) {bytes : List UInt8} (hlen : bytes.length ≤ size)
    : (s.copy bytes).value.Within size where
  length := by
    change (bytes ++ s.array.drop bytes.length).length = size
    rw [List.length_append, List.length_drop]
    omega
  len_le := by
    change (bytes.length : Int) ≤ size
    omega

end ParameterSet

/--
The size of the array that the callers have for the record.
-/
def extraDataSize : Nat := 1024

def getVideoExtradata (pps sps : ParameterSet) : Checked CopyCheck (List UInt8) := do
  let body : Filling := { size := extraDataSize }
  let body ← body.put [0x01, sps.array.getD 1 0, sps.array.getD 2 0, sps.array.getD 3 0, 0xff, 0xe1]
  let body ← body.put (write2Bytes sps.len.toNat)
  let body ← body.memcpy sps.array 0 sps.len.toNat
  let body ← body.put [0x01]
  let body ← body.put (write2Bytes pps.len.toNat)
  let body ← body.memcpy pps.array 0 pps.len.toNat
  return body.written

theorem getVideoExtradata_passes {pps sps : ParameterSet} {size : Nat} (hpps : pps.Within size)
    (hsps : sps.Within size)
    : (getVideoExtradata pps sps).Passes CopyCheck.Holds ↔ sps.len.toNat + pps.len.toNat ≤ 1013 := by
  have hppsLen := hpps.len_le
  have hspsLen := hsps.len_le
  unfold getVideoExtradata
  simp only [passes_bind, Filling.put_passes, Filling.put_value, Filling.memcpy_passes, Filling.memcpy_value,
    passes_pure, and_true, List.length_append, List.length_cons, List.length_nil, length_write2Bytes, List.length_take,
    List.length_drop, hpps.length, hsps.length, extraDataSize]
  omega

namespace ParameterSets

/--
The bytes of a range of the memory.
-/
def readAt (mem : Nat → UInt8) (offset len : Nat) : List UInt8 :=
  (List.range len).map fun i => mem (offset + i)

@[simp]
theorem length_readAt (mem : Nat → UInt8) (offset len : Nat) : (readAt mem offset len).length = len := by
  simp [readAt]

section Avc

/--
The caches for the PPS and the SPS are filled from a record, `none` if it is refused.
-/
def getSpsPpsFromExtraData (mem : Nat → UInt8) (extraLen : Nat) (pps sps : ParameterSet)
    : Checked CopyCheck (Option (ParameterSet × ParameterSet)) :=
  if extraLen = 0 then return none
  else if 4 < extraLen ∧ (mem 4 ≠ 0xff ∨ mem 5 ≠ 0xe1) then return none
  else do
    let spsLen := read2Bytes (readAt mem 6 2)
    let sps ← sps.copy (readAt mem 8 spsLen)
    let index := 8 + spsLen + 1
    let ppsLen := read2Bytes (readAt mem index 2)
    let pps ← pps.copy (readAt mem (index + 2) ppsLen)
    return some (pps, sps)

/--
The loop of `Avcc2Nalus`, `none` if it meets a NALU that is too long.
-/
def avccNalus (mem : Nat → UInt8) (pos : Nat) (dataLen : Int) : Option (List (List UInt8)) :=
  if dataLen ≤ 0 then some []
  else
    let naluLen := read4Bytes (readAt mem pos 4)
    if Flv.kMaxLen < naluLen then none
    else
      (avccNalus mem (pos + 4 + naluLen) (dataLen - 4 - naluLen)).map
        ((H264.startCode ++ readAt mem (pos + 4) naluLen) :: ·)
termination_by dataLen.toNat
decreasing_by
  omega

def avcc2Nalus (mem : Nat → UInt8) (len : Nat) : Option (List (List UInt8)) :=
  if len < 4 then none else avccNalus mem 0 len

/--
A record that is refused, or whose parameter sets are not longer than the arrays.
-/
def AvcFits (mem : Nat → UInt8) (extraLen size : Nat) : Prop :=
  extraLen = 0 ∨ (4 < extraLen ∧ (mem 4 ≠ 0xff ∨ mem 5 ≠ 0xe1))
    ∨ (read2Bytes (readAt mem 6 2) ≤ size
      ∧ read2Bytes (readAt mem (8 + read2Bytes (readAt mem 6 2) + 1) 2) ≤ size)

theorem getSpsPpsFromExtraData_passes {mem : Nat → UInt8} {extraLen size : Nat} {pps sps : ParameterSet}
    (hpps : pps.array.length = size) (hsps : sps.array.length = size)
    : (getSpsPpsFromExtraData mem extraLen pps sps).Passes CopyCheck.Holds ↔ AvcFits mem extraLen size := by
  unfold getSpsPpsFromExtraData AvcFits
  simp only [passes_ite, passes_pure, passes_bind, ParameterSet.copy_passes hpps, ParameterSet.copy_passes hsps,
    length_readAt, implies_true, true_and, and_true]
  by_cases hzero : extraLen = 0
  . simp [hzero]
  . by_cases hmark : 4 < extraLen ∧ (mem 4 ≠ 0xff ∨ mem 5 ≠ 0xe1)
    . simp [hmark]
    . simp [hzero, hmark]

theorem getSpsPpsFromExtraData_length {mem : Nat → UInt8} {extraLen size : Nat} {pps sps pps' sps' : ParameterSet}
    (hpps : pps.array.length = size) (hsps : sps.array.length = size) (hfits : AvcFits mem extraLen size)
    (h : (getSpsPpsFromExtraData mem extraLen pps sps).value = some (pps', sps'))
    : pps'.array.length = size ∧ sps'.array.length = size := by
  unfold getSpsPpsFromExtraData at h
  split at h
  . cases h
  . next hzero =>
    split at h
    . cases h
    . next hmark =>
      obtain hfits | hfits | ⟨hspsLen, hppsLen⟩ := hfits
      . exact absurd hfits hzero
      . exact absurd hfits hmark
      . simp only [value_bind, value_pure, Option.some.injEq, Prod.mk.injEq] at h
        obtain ⟨rfl, rfl⟩ := h
        constructor
        . apply (ParameterSet.copy_within hpps _).length
          rw [length_readAt]
          exact hppsLen
        . apply (ParameterSet.copy_within hsps _).length
          rw [length_readAt]
          exact hspsLen

end Avc

section Hevc

open MpegTs

/--
The NALUs of one array and the position behind them, `none` if one leads behind the end.
-/
def hevcNaluData (mem : Nat → UInt8) (endPos : Nat) : Nat → Nat → Option (List (List UInt8) × Nat)
  | 0, p => some ([], p)
  | count + 1, p =>
    let len := read2Bytes (readAt mem p 2)
    if endPos < p + 2 + len then none
    else (hevcNaluData mem endPos count (p + 2 + len)).map fun (nalus, p') => (readAt mem (p + 2) len :: nalus, p')

def hevcUnits (mem : Nat → UInt8) (endPos : Nat) : Nat → Nat → Option (List HevcNalUnit)
  | 0, _ => some []
  | count + 1, p =>
    if endPos < p + 5 then none
    else do
      let (nalDataVec, p') ← hevcNaluData mem endPos (read2Bytes (readAt mem (p + 1) 2)) (p + 3)
      let units ← hevcUnits mem endPos count p'
      pure (⟨mem p &&& 0x3f, nalDataVec⟩ :: units)

def getHevcDecInfoFromExtradata (mem : Nat → UInt8) (extraLen : Nat) : Option (List HevcNalUnit) :=
  if mem 0 ≠ 1 then none else hevcUnits mem extraLen (mem 22).toNat 23

/--
The caches of a muxer.
-/
structure Caches where
  vps : ParameterSet
  sps : ParameterSet
  pps : ParameterSet

/--
The first NALU of an array goes to the cache of its type. There has to be one.
-/
def Caches.copyUnit (c : Caches) (unit : HevcNalUnit) : Checked CopyCheck Caches :=
  if unit.nalUnitType = naluTypeVps then do
    check (.inside 0 1 unit.nalDataVec.length)
    let vps ← c.vps.copy (unit.nalDataVec.headD [])
    return { c with vps }
  else if unit.nalUnitType = naluTypeHevcSps then do
    check (.inside 0 1 unit.nalDataVec.length)
    let sps ← c.sps.copy (unit.nalDataVec.headD [])
    return { c with sps }
  else if unit.nalUnitType = naluTypeHevcPps then do
    check (.inside 0 1 unit.nalDataVec.length)
    let pps ← c.pps.copy (unit.nalDataVec.headD [])
    return { c with pps }
  else return c

def Caches.cleared (c : Caches) : Caches :=
  ⟨{ c.vps with len := 0 }, { c.sps with len := 0 }, { c.pps with len := 0 }⟩

def Caches.getVpsSpsPps (c : Caches) (units : List HevcNalUnit) : Checked CopyCheck Caches :=
  Checked.run Caches.copyUnit c.cleared units

/--
The arrays have their size.
-/
structure Caches.Sized (c : Caches) (size : Nat) : Prop where
  vps : c.vps.array.length = size
  sps : c.sps.array.length = size
  pps : c.pps.array.length = size

theorem Caches.Sized.cleared {c : Caches} {size : Nat} (h : c.Sized size) : c.cleared.Sized size :=
  ⟨h.vps, h.sps, h.pps⟩

/--
An array of parameter sets has a first NALU, and it is not longer than the array it goes to.
-/
def UnitFits (size : Nat) (unit : HevcNalUnit) : Prop :=
  unit.nalUnitType = naluTypeVps ∨ unit.nalUnitType = naluTypeHevcSps ∨ unit.nalUnitType = naluTypeHevcPps →
    ∃ nalu nalus, unit.nalDataVec = nalu :: nalus ∧ nalu.length ≤ size

theorem unitFits_iff (size : Nat) (nalDataVec : List (List UInt8))
    : (1 ≤ nalDataVec.length ∧ (nalDataVec.headD []).length ≤ size)
        ↔ ∃ nalu nalus, nalDataVec = nalu :: nalus ∧ nalu.length ≤ size := by
  cases nalDataVec with
  | nil => simp
  | cons nalu nalus => simp

theorem copyUnit_passes {c : Caches} {size : Nat} (h : c.Sized size) (unit : HevcNalUnit)
    : (c.copyUnit unit).Passes CopyCheck.Holds ↔ UnitFits size unit := by
  unfold Caches.copyUnit UnitFits
  simp only [passes_ite, passes_bind, passes_check, CopyCheck.Holds, passes_pure, and_true, implies_true,
    ParameterSet.copy_passes h.vps, ParameterSet.copy_passes h.sps, ParameterSet.copy_passes h.pps, Nat.zero_add,
    unitFits_iff]
  by_cases hvps : unit.nalUnitType = naluTypeVps
  . simp [hvps]
  . by_cases hsps : unit.nalUnitType = naluTypeHevcSps
    . simp [hsps]
    . simp [hvps, hsps]

theorem copyUnit_sized {c : Caches} {size : Nat} (h : c.Sized size) {unit : HevcNalUnit} (hfits : UnitFits size unit)
    : (c.copyUnit unit).value.Sized size := by
  have hcopy {s : ParameterSet} (hs : s.array.length = size) (hlen : (unit.nalDataVec.headD []).length ≤ size)
      : (s.copy (unit.nalDataVec.headD [])).value.array.length = size := (ParameterSet.copy_within hs hlen).length
  unfold Caches.copyUnit
  unfold UnitFits at hfits
  rw [← unitFits_iff] at hfits
  split
  . next hvps => exact ⟨hcopy h.vps (hfits (.inl hvps)).2, h.sps, h.pps⟩
  . split
    . next hsps => exact ⟨h.vps, hcopy h.sps (hfits (.inr (.inl hsps))).2, h.pps⟩
    . split
      . next hpps => exact ⟨h.vps, h.sps, hcopy h.pps (hfits (.inr (.inr hpps))).2⟩
      . exact h

theorem getVpsSpsPps_passes {c : Caches} {size : Nat} (h : c.Sized size) (units : List HevcNalUnit)
    : (c.getVpsSpsPps units).Passes CopyCheck.Holds ↔ ∀ unit ∈ units, UnitFits size unit := by
  unfold Caches.getVpsSpsPps
  rw [run_passes_iff_runMeets (Caches.Sized · size) (fun _ => UnitFits size) (fun c unit hc => copyUnit_passes hc unit)
    (fun c unit hc hfits => copyUnit_sized hc hfits) h.cleared, runMeets_iff_forall]

theorem getVpsSpsPps_sized {c : Caches} {size : Nat} (h : c.Sized size) {units : List HevcNalUnit}
    (hfits : ∀ unit ∈ units, UnitFits size unit)
    : (c.getVpsSpsPps units).value.Sized size := by
  exact run_keeps (Caches.Sized · size) (fun _ => UnitFits size) (fun c unit hc hunit => copyUnit_sized hc hunit)
    h.cleared (runMeets_iff_forall.mpr hfits)

end Hevc

end ParameterSets
