import CppStreamer.Format.HevcRecord
import Mathlib.Data.Nat.Bitwise

/-!
This module contains `GetLHevcDecInfoFromExtradata` and the records whose fields it decodes as they are written.
-/

open ByteStream Checked Reading

namespace Hevc

/--
The configuration of a decoder for L-HEVC.
-/
structure LHevcDecConfRecord where
  configurationVersion : UInt8
  reserved1 : Nat := 0
  minSpatialSegmentationIdc : Nat
  reserved2 : UInt8 := 0
  parallelismType : UInt8
  reserved3 : UInt8 := 0
  numTemporalLayers : UInt8
  temporalIdNested : UInt8
  lengthSizeMinusOne : UInt8
  numOfArrays : UInt8
  naluVec : List HevcNaluUnit
  deriving DecidableEq, Repr

/--
The fields of the byte with the layers. Two of them are compared with a number.
-/
def numTemporalLayersOf (layers : UInt8) : UInt8 := if 3 < layers &&& 0x38 then 1 else 0

def temporalIdNestedOf (layers : UInt8) : UInt8 := if 2 < layers &&& 0x04 then 1 else 0

/--
Whether 0 is returned, and the record. The length is only looked at in front of the arrays.
-/
def getLHevcDecInfoFromExtradata (mem : Nat → UInt8) (extraLen : Nat) : Checked Span (Bool × LHevcDecConfRecord) := do
  let configurationVersion ← readByte mem 0
  let segmentationHigh ← readByte mem 1
  let segmentationLow ← readByte mem 2
  let parallelism ← readByte mem 3
  let layers ← readByte mem 4
  let numOfArrays ← readByte mem 5
  let units ← unitsFrom mem extraLen numOfArrays.toNat 6
  return (units.1, {
    configurationVersion
    minSpatialSegmentationIdc := (segmentationHigh &&& 0x0f).toNat <<< 8 ||| (segmentationLow &&& 0xff).toNat
    parallelismType := parallelism &&& 0x03
    numTemporalLayers := numTemporalLayersOf layers
    temporalIdNested := temporalIdNestedOf layers
    lengthSizeMinusOne := layers &&& 0x03
    numOfArrays
    naluVec := units.2
  })

/--
A record as it is written, with any bytes in front of its arrays.
-/
structure LRecordBytes where
  version : UInt8
  segmentationHigh : UInt8
  segmentationLow : UInt8
  parallelism : UInt8
  layers : UInt8
  arrays : List HevcArray
  count_lt : arrays.length < 256

namespace LRecordBytes

def bytes (r : LRecordBytes) : List UInt8 :=
  [r.version, r.segmentationHigh, r.segmentationLow, r.parallelism, r.layers]
    ++ UInt8.ofNat r.arrays.length :: r.arrays.flatMap HevcArray.bytes

/--
The fields at their positions: 12 bits of the second and the third byte, 2 bits of the fourth one, and 3 bits, 1 bit and
2 bits of the fifth one. Reserved bits have no value.
-/
def fields (r : LRecordBytes) : LHevcDecConfRecord where
  configurationVersion := r.version
  minSpatialSegmentationIdc := r.segmentationHigh.toNat % 2 ^ 4 * 2 ^ 8 + r.segmentationLow.toNat
  parallelismType := r.parallelism &&& 0x03
  numTemporalLayers := r.layers >>> 3 &&& 0x07
  temporalIdNested := r.layers >>> 2 &&& 0x01
  lengthSizeMinusOne := r.layers &&& 0x03
  numOfArrays := UInt8.ofNat r.arrays.length
  naluVec := r.arrays.map HevcArray.unit

end LRecordBytes

section Fields

theorem numTemporalLayersOf_eq (layers : UInt8)
    : numTemporalLayersOf layers = layers >>> 3 &&& 0x07 ↔ layers >>> 3 &&& 0x07 ≤ 1 := by
  revert layers
  apply forall_of_bitVec
  decide

theorem temporalIdNestedOf_eq (layers : UInt8) : temporalIdNestedOf layers = layers >>> 2 &&& 0x01 := by
  revert layers
  apply forall_of_bitVec
  decide

theorem and_0f_toNat (b : UInt8) : (b &&& 0x0f).toNat = b.toNat % 2 ^ 4 := by
  revert b
  apply forall_of_bitVec
  decide

theorem minSpatialSegmentationIdc_eq (high low : UInt8)
    : (high &&& 0x0f).toNat <<< 8 ||| (low &&& 0xff).toNat = high.toNat % 2 ^ 4 * 2 ^ 8 + low.toNat := by
  have hlow : low &&& 0xff = low := by
    revert low
    apply forall_of_bitVec
    decide
  rw [hlow, and_0f_toNat, ← Nat.shiftLeft_add_eq_or_of_lt low.toNat_lt, Nat.shiftLeft_eq]

end Fields

section Decode

variable {mem : Nat → UInt8} {r : LRecordBytes}

theorem LRecordBytes.length_bytes (r : LRecordBytes)
    : 6 + (r.arrays.flatMap HevcArray.bytes).length = r.bytes.length := by
  rw [bytes, List.length_append, List.length_cons]
  simp only [List.length_cons, List.length_nil]
  omega

theorem getLHevcDecInfoFromExtradata_value (hmem : HoldsAt mem 0 r.bytes)
    : (getLHevcDecInfoFromExtradata mem r.bytes.length).value
        = ((unitsFrom mem r.bytes.length r.arrays.length 6).value.1,
          { r.fields with
            numTemporalLayers := numTemporalLayersOf r.layers
            naluVec := (unitsFrom mem r.bytes.length r.arrays.length 6).value.2 }) := by
  have hlen := r.length_bytes
  have hbyte (i : Nat) (hi : i < r.bytes.length) : mem i = r.bytes[i] := by
    rw [← hmem i hi, Nat.zero_add]
  have hversion : mem 0 = r.version := hbyte 0 (by omega)
  have hhigh : mem 1 = r.segmentationHigh := hbyte 1 (by omega)
  have hlow : mem 2 = r.segmentationLow := hbyte 2 (by omega)
  have hparallelism : mem 3 = r.parallelism := hbyte 3 (by omega)
  have hlayers : mem 4 = r.layers := hbyte 4 (by omega)
  have harrays : mem 5 = UInt8.ofNat r.arrays.length := hbyte 5 (by omega)
  have hcount : (UInt8.ofNat r.arrays.length).toNat = r.arrays.length := by
    rw [UInt8.toNat_ofNat']
    exact Nat.mod_eq_of_lt r.count_lt
  unfold getLHevcDecInfoFromExtradata
  simp only [value_bind, value_pure, readByte_value, hversion, hhigh, hlow, hparallelism, hlayers, harrays, hcount,
    minSpatialSegmentationIdc_eq, temporalIdNestedOf_eq]
  rfl

/--
The record is decoded as it is written if its number of layers is at most 1 and its last array has a NALU.
-/
theorem getLHevcDecInfoFromExtradata_iff (hmem : HoldsAt mem 0 r.bytes)
    : (getLHevcDecInfoFromExtradata mem r.bytes.length).value = (true, r.fields)
        ↔ r.layers >>> 3 &&& 0x07 ≤ 1 ∧ LastHasNalu r.arrays := by
  have harrays : HoldsAt mem 6 (r.arrays.flatMap HevcArray.bytes) := by
    unfold LRecordBytes.bytes at hmem
    have hright : HoldsAt mem 5 (UInt8.ofNat r.arrays.length :: r.arrays.flatMap HevcArray.bytes) := hmem.right rfl
    exact hright.tail
  rw [getLHevcDecInfoFromExtradata_value hmem, ← unitsFrom_arrays harrays r.length_bytes, ← numTemporalLayersOf_eq]
  simp only [Prod.mk.injEq, LHevcDecConfRecord.mk.injEq, LRecordBytes.fields, true_and]
  constructor
  . rintro ⟨hok, hlayers, hunits⟩
    exact ⟨hlayers, hok, hunits⟩
  . rintro ⟨hlayers, hok, hunits⟩
    exact ⟨hok, hlayers, hunits⟩

/--
There are all fields, and no array that ends within the length of a NALU.
-/
def LReadsInside (data : List UInt8) : Prop :=
  6 ≤ data.length ∧ ¬CutInArray (data.getD 5 0).toNat (data.drop 6)

theorem getLHevcDecInfoFromExtradata_passes {data : List UInt8} (hmem : HoldsAt mem 0 data)
    : (getLHevcDecInfoFromExtradata mem data.length).Passes (Span.Within data.length) ↔ LReadsInside data := by
  unfold getLHevcDecInfoFromExtradata LReadsInside
  simp only [passes_bind, readByte_passes, readByte_value, passes_pure, and_true]
  constructor
  . rintro ⟨-, -, -, -, -, hlen, hunits⟩
    have hcount : mem 5 = data.getD 5 0 := by
      rw [← hmem.getD hlen, Nat.zero_add]
    rw [hcount, unitsFrom_passes (hmem.behind 6) (by rw [List.length_drop]; omega)] at hunits
    exact ⟨hlen, hunits⟩
  . rintro ⟨hlen, hcut⟩
    have hcount : mem 5 = data.getD 5 0 := by
      rw [← hmem.getD hlen, Nat.zero_add]
    refine ⟨by omega, by omega, by omega, by omega, by omega, hlen, ?_⟩
    rw [hcount, unitsFrom_passes (hmem.behind 6) (by rw [List.length_drop]; omega)]
    exact hcut

/--
Arrays that are all there do not end within one of them.
-/
theorem not_cutInArray (arrays : List HevcArray) : ¬CutInArray arrays.length (arrays.flatMap HevcArray.bytes) := by
  suffices hpasses : ∀ (mem : Nat → UInt8) (p endPos : Nat), HoldsAt mem p (arrays.flatMap HevcArray.bytes)
      → p + (arrays.flatMap HevcArray.bytes).length = endPos
      → (unitsFrom mem endPos arrays.length p).Passes (Span.Within endPos) by
    have hmem := holdsAt_getD (arrays.flatMap HevcArray.bytes) 0
    exact (unitsFrom_passes hmem rfl).mp (hpasses _ _ _ hmem rfl)
  induction arrays with
  | nil => exact fun _ _ _ _ _ => passes_pure _
  | cons a arrays ih =>
    intro mem p endPos hmem hend
    rw [List.flatMap_cons] at hmem hend
    by_cases hlen : 5 ≤ (a.bytes ++ arrays.flatMap HevcArray.bytes).length
    . rw [List.length_cons, (unitsFrom_array a hmem hend hlen arrays.length).right]
      exact ih _ _ _ (hmem.right rfl) (end_right hend)
    . exact (unitsFrom_short hend (by omega)).right

theorem RecordBytes.readsInside (r : RecordBytes) : ReadsInside r.bytes := by
  have hfields := r.length_fields
  have hcount : (r.bytes.getD 22 0).toNat = r.arrays.length := by
    rw [RecordBytes.bytes, List.getD_cons_succ, List.getD_append_right _ _ _ _ (by omega), hfields, Nat.sub_self,
      List.getD_cons_zero, UInt8.toNat_ofNat']
    exact Nat.mod_eq_of_lt r.count_lt
  have hdrop : r.bytes.drop 23 = r.arrays.flatMap HevcArray.bytes := by
    rw [RecordBytes.bytes, List.drop_succ_cons, List.drop_append, List.drop_eq_nil_of_le (by omega), List.nil_append,
      hfields]
    rfl
  refine ⟨List.cons_ne_nil _ _, fun _ => ⟨?_, ?_⟩⟩
  . rw [RecordBytes.bytes, List.length_cons, List.length_append, List.length_cons, hfields]
    omega
  . rw [hcount, hdrop]
    exact not_cutInArray r.arrays

theorem LRecordBytes.readsInside (r : LRecordBytes) : LReadsInside r.bytes := by
  have hlen := r.length_bytes
  have hcount : (r.bytes.getD 5 0).toNat = r.arrays.length := by
    change (UInt8.ofNat r.arrays.length).toNat = r.arrays.length
    rw [UInt8.toNat_ofNat']
    exact Nat.mod_eq_of_lt r.count_lt
  refine ⟨by omega, ?_⟩
  rw [hcount]
  exact not_cutInArray r.arrays

end Decode

/--
Records without an array, with one temporal layer and with three of them.
-/
def layersRecord (layers : UInt8) : LRecordBytes := ⟨1, 0xf0, 0, 0xfc, layers, [], noArrays_lt⟩

theorem getLHevcDecInfoFromExtradata_one
    : (getLHevcDecInfoFromExtradata ((layersRecord 0x0b).bytes.getD · 0) (layersRecord 0x0b).bytes.length).value
        = (true, (layersRecord 0x0b).fields) := by
  apply (getLHevcDecInfoFromExtradata_iff (holdsAt_getD _ _)).mpr
  refine ⟨by decide, ?_⟩
  rintro a ⟨⟩

theorem getLHevcDecInfoFromExtradata_three
    : (getLHevcDecInfoFromExtradata ((layersRecord 0x1b).bytes.getD · 0) (layersRecord 0x1b).bytes.length).value
        ≠ (true, (layersRecord 0x1b).fields) := by
  rw [getLHevcDecInfoFromExtradata_value (holdsAt_getD _ _)]
  intro h
  have hlayers := congrArg (LHevcDecConfRecord.numTemporalLayers ∘ Prod.snd) h
  exact absurd hlayers (by decide)

end Hevc
