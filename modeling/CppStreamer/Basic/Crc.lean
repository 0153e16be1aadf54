import Mathlib.Algebra.Order.Ring.Int
import Mathlib.Data.List.Basic

/-!
This module contains cyclic redundancy checks of any width and polynomial, with the most significant bit first: a table
for whole bytes does the same as bit after bit, and the check over some bytes and the checksum behind them is zero.
-/

namespace Crc

variable {w : Nat} (poly : BitVec w)

def shiftBit (s : BitVec w) : BitVec w := if s.msb then (s <<< 1) ^^^ poly else s <<< 1

def shiftBits : Nat → BitVec w → BitVec w
  | 0, s => s
  | n + 1, s => shiftBits n (shiftBit poly s)

/--
A byte at the most significant place.
-/
def ofByte (b : UInt8) : BitVec w := b.toBitVec.setWidth w <<< (w - 8)

def crcByte (s : BitVec w) (b : UInt8) : BitVec w := shiftBits poly 8 (s ^^^ ofByte b)

def crc (s : BitVec w) (bytes : List UInt8) : BitVec w := bytes.foldl (crcByte poly) s

/--
Bytes from the most significant place on.
-/
def word : List UInt8 → BitVec w
  | [] => 0#w
  | b :: bytes => ofByte b ^^^ (word bytes >>> 8)

def topByte (s : BitVec w) : UInt8 := ⟨(s >>> (w - 8)).setWidth 8⟩

section Shift

variable {poly}

theorem xor_xor_xor_cancel (x y p : BitVec w) : (x ^^^ p) ^^^ (y ^^^ p) = x ^^^ y := by
  rw [BitVec.xor_comm y p, BitVec.xor_assoc, ← BitVec.xor_assoc p p y, BitVec.xor_self, BitVec.zero_xor]

theorem shiftBit_xor (x y : BitVec w) : shiftBit poly (x ^^^ y) = shiftBit poly x ^^^ shiftBit poly y := by
  unfold shiftBit
  rw [BitVec.msb_xor, BitVec.shiftLeft_xor_distrib]
  cases x.msb
  . cases y.msb
    . rfl
    . exact BitVec.xor_assoc _ _ _
  . cases y.msb
    . change (x <<< 1 ^^^ y <<< 1) ^^^ poly = (x <<< 1 ^^^ poly) ^^^ y <<< 1
      rw [BitVec.xor_assoc, BitVec.xor_assoc, BitVec.xor_comm poly]
    . exact (xor_xor_xor_cancel _ _ _).symm

theorem shiftBits_xor (n : Nat) (x y : BitVec w)
    : shiftBits poly n (x ^^^ y) = shiftBits poly n x ^^^ shiftBits poly n y := by
  induction n generalizing x y with
  | zero => rfl
  | succ n ih => rw [shiftBits, shiftBits, shiftBits, shiftBit_xor, ih]

theorem shiftBits_add (m n : Nat) (s : BitVec w) : shiftBits poly (m + n) s = shiftBits poly n (shiftBits poly m s) := by
  induction m generalizing s with
  | zero => rw [Nat.zero_add, shiftBits]
  | succ m ih => rw [Nat.add_right_comm, shiftBits, shiftBits, ih]

@[simp]
theorem shiftBits_zero (n : Nat) : shiftBits poly n 0#w = 0#w := by
  induction n with
  | zero => rfl
  | succ n ih =>
    rw [shiftBits]
    simpa [shiftBit] using ih

/--
Nothing but zeros is shifted out.
-/
theorem shiftBits_of_clear {n : Nat} {s : BitVec w} (h : ∀ i < n, s.getMsbD i = false) : shiftBits poly n s = s <<< n := by
  induction n generalizing s with
  | zero => simp [shiftBits]
  | succ n ih =>
    have hmsb : s.msb = false := h 0 (Nat.succ_pos n)
    rw [shiftBits, shiftBit, hmsb]
    simp only [Bool.false_eq_true, if_false]
    rw [ih, Nat.add_comm, BitVec.shiftLeft_add]
    intro i hi
    rw [BitVec.getMsbD_shiftLeft]
    apply h
    omega

/--
The lowest bit tells whether the polynomial has been added.
-/
theorem shiftBit_injective (hodd : poly.getLsbD 0 = true) {s : BitVec w} (h : shiftBit poly s = 0#w) : s = 0#w := by
  apply BitVec.eq_of_getLsbD_eq
  intro i hi
  have hbit (j : Nat) : (shiftBit poly s).getLsbD j = false := by rw [h, BitVec.getLsbD_zero]
  unfold shiftBit at hbit
  cases hmsb : s.msb with
  | true =>
    have hlow := hbit 0
    rw [hmsb] at hlow
    simp [hodd] at hlow
  | false =>
    rw [BitVec.getLsbD_zero]
    by_cases hlast : i + 1 < w
    . have hnext := hbit (i + 1)
      rw [hmsb] at hnext
      simpa [hlast, BitVec.getLsbD_eq_getElem hi] using hnext
    . rw [BitVec.msb_eq_getLsbD_last] at hmsb
      have hi' : i = w - 1 := by omega
      rw [hi', hmsb]

theorem shiftBits_eq_zero_iff (hodd : poly.getLsbD 0 = true) (n : Nat) (s : BitVec w)
    : shiftBits poly n s = 0#w ↔ s = 0#w := by
  constructor
  . intro h
    induction n generalizing s with
    | zero => exact h
    | succ n ih => exact shiftBit_injective hodd (ih _ h)
  . rintro rfl
    apply shiftBits_zero

end Shift

section Bytes

variable {poly}

theorem crc_append (s : BitVec w) (bytes bytes' : List UInt8) : crc poly s (bytes ++ bytes') = crc poly (crc poly s bytes) bytes' :=
  List.foldl_append

/--
The bits of a word end with its bytes.
-/
theorem getLsbD_word {bytes : List UInt8} {i : Nat} (h : i + 8 * bytes.length < w) : (word bytes : BitVec w).getLsbD i = false := by
  induction bytes generalizing i with
  | nil => simp [word]
  | cons b bytes ih =>
    rw [List.length_cons] at h
    rw [word, BitVec.getLsbD_xor, BitVec.getLsbD_ushiftRight, ih (by omega), ofByte, BitVec.getLsbD_shiftLeft]
    simp
    omega

/--
What has come from the most significant byte goes back.
-/
theorem shiftBits_ushiftRight {s : BitVec w} (h : ∀ i < 8, s.getLsbD i = false) : shiftBits poly 8 (s >>> 8) = s := by
  rw [shiftBits_of_clear]
  . apply BitVec.eq_of_getLsbD_eq
    intro i hi
    rw [BitVec.getLsbD_shiftLeft, BitVec.getLsbD_ushiftRight]
    by_cases hlow : i < 8
    . simp [hlow, h i hlow]
    . have hadd : 8 + (i - 8) = i := by omega
      simp [hlow, hi, hadd]
  . intro i hi
    rw [BitVec.getMsbD_eq_getLsbD, BitVec.getLsbD_ushiftRight]
    by_cases hw : i < w
    . rw [BitVec.getLsbD_of_ge _ _ (by omega), Bool.and_false]
    . simp [hw]

/--
The bytes may as well be added to the state beforehand.
-/
theorem crc_eq_shiftBits (s : BitVec w) {bytes : List UInt8} (h : 8 * bytes.length ≤ w)
    : crc poly s bytes = shiftBits poly (8 * bytes.length) (s ^^^ word bytes) := by
  induction bytes generalizing s with
  | nil => simp [crc, word, shiftBits]
  | cons b bytes ih =>
    rw [List.length_cons] at h
    have hstep : crc poly s (b :: bytes) = crc poly (crcByte poly s b) bytes := rfl
    rw [hstep, ih _ (by omega), List.length_cons, Nat.mul_succ, Nat.add_comm, shiftBits_add, word, crcByte,
      ← BitVec.xor_assoc, shiftBits_xor 8 (s ^^^ ofByte b), shiftBits_ushiftRight]
    intro i hi
    apply getLsbD_word
    omega

/--
The check is zero behind the bytes of the state, and behind no other ones.
-/
theorem crc_eq_zero_iff (hodd : poly.getLsbD 0 = true) (s : BitVec w) {bytes : List UInt8} (h : 8 * bytes.length ≤ w)
    : crc poly s bytes = 0#w ↔ s = word bytes := by
  rw [crc_eq_shiftBits s h, shiftBits_eq_zero_iff hodd, BitVec.xor_eq_zero_iff]

theorem ofByte_xor (b b' : UInt8) : (ofByte (b ^^^ b') : BitVec w) = ofByte b ^^^ ofByte b' := by
  unfold ofByte
  rw [UInt8.toBitVec_xor, BitVec.setWidth_xor, BitVec.shiftLeft_xor_distrib]

theorem topByte_split (hw : 8 ≤ w) (s : BitVec w) : s = ofByte (topByte s) ^^^ (s <<< 8 >>> 8) := by
  apply BitVec.eq_of_getLsbD_eq
  intro i hi
  rw [BitVec.getLsbD_xor, ofByte, topByte, BitVec.getLsbD_shiftLeft, BitVec.getLsbD_setWidth, BitVec.getLsbD_setWidth,
    BitVec.getLsbD_ushiftRight, BitVec.getLsbD_ushiftRight, BitVec.getLsbD_shiftLeft]
  by_cases htop : i < w - 8
  . have hback : 8 + i - 8 = i := by omega
    simp [htop, hback]
    omega
  . have hback : w - 8 + (i - (w - 8)) = i := by omega
    have hbehind : ¬8 + i < w := by omega
    have hbyte : i - (w - 8) < 8 := by omega
    have hwidth : i - (w - 8) < w := by omega
    simp [htop, hback, hi, hbehind, hbyte, hwidth]

/--
A table for the byte that is shifted out.
-/
theorem crcByte_eq_table (hw : 8 ≤ w) (s : BitVec w) (b : UInt8)
    : crcByte poly s b = crcByte poly 0#w (topByte s ^^^ b) ^^^ (s <<< 8) := by
  have hlow : ∀ i < 8, (s <<< 8).getLsbD i = false := by
    intro i hi
    simp [hi]
  unfold crcByte
  rw [BitVec.zero_xor, ofByte_xor, ← shiftBits_ushiftRight hlow, ← shiftBits_xor]
  congr 1
  rw [BitVec.xor_assoc, BitVec.xor_comm (ofByte b), ← BitVec.xor_assoc, ← topByte_split hw]

end Bytes

end Crc
