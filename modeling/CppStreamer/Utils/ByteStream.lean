import Mathlib.Algebra.Order.Ring.Int
import Mathlib.Data.Nat.Bits
import Mathlib.Data.List.Basic

/-!
This module contains the big endian integers of `byte_stream.hpp` and the round trips between reading
and writing them. Bytes are read from the front of a list, a caller checks the length beforehand.
-/

namespace ByteStream

/--
Byte `i` of an integer, counted from the least significant one.
-/
def byteAt (value : Nat) (i : Nat) : UInt8 := UInt8.ofNat (value / 256 ^ i)

theorem forall_of_bitVec {P : UInt8 → Prop} (h : ∀ b : BitVec 8, P (UInt8.ofBitVec b)) (b : UInt8)
    : P b := h b.toBitVec

theorem byteAt_toNat (value i : Nat) : (byteAt value i).toNat = value / 256 ^ i % 256 := by
  rw [byteAt, UInt8.toNat_ofNat']

def read2Bytes : List UInt8 → Nat
  | b1 :: b0 :: _ => b1.toNat * 256 + b0.toNat
  | _ => 0

def read3Bytes : List UInt8 → Nat
  | b2 :: b1 :: b0 :: _ => (b2.toNat * 256 + b1.toNat) * 256 + b0.toNat
  | _ => 0

def read4Bytes : List UInt8 → Nat
  | b3 :: b2 :: b1 :: b0 :: _ => ((b3.toNat * 256 + b2.toNat) * 256 + b1.toNat) * 256 + b0.toNat
  | _ => 0

def read8Bytes (data : List UInt8) : Nat := read4Bytes data * 2 ^ 32 + read4Bytes (data.drop 4)

def write2Bytes (value : Nat) : List UInt8 := [byteAt value 1, byteAt value 0]

def write3Bytes (value : Nat) : List UInt8 := [byteAt value 2, byteAt value 1, byteAt value 0]

def write4Bytes (value : Nat) : List UInt8 :=
  [byteAt value 3, byteAt value 2, byteAt value 1, byteAt value 0]

def write8Bytes (value : Nat) : List UInt8 := write4Bytes (value / 2 ^ 32) ++ write4Bytes value

@[simp]
theorem length_write2Bytes (value : Nat) : (write2Bytes value).length = 2 := rfl

@[simp]
theorem length_write3Bytes (value : Nat) : (write3Bytes value).length = 3 := rfl

@[simp]
theorem length_write4Bytes (value : Nat) : (write4Bytes value).length = 4 := rfl

theorem read2Bytes_lt (data : List UInt8) : read2Bytes data < 2 ^ 16 := by
  unfold read2Bytes
  split
  . next b1 b0 _ =>
    have := b1.toNat_lt
    have := b0.toNat_lt
    omega
  . omega

theorem read3Bytes_lt (data : List UInt8) : read3Bytes data < 2 ^ 24 := by
  unfold read3Bytes
  split
  . next b2 b1 b0 _ =>
    have := b2.toNat_lt
    have := b1.toNat_lt
    have := b0.toNat_lt
    omega
  . omega

theorem read4Bytes_lt (data : List UInt8) : read4Bytes data < 2 ^ 32 := by
  unfold read4Bytes
  split
  . next b3 b2 b1 b0 _ =>
    have := b3.toNat_lt
    have := b2.toNat_lt
    have := b1.toNat_lt
    have := b0.toNat_lt
    omega
  . omega

theorem read2Bytes_write2Bytes (value : Nat) (rest : List UInt8)
    : read2Bytes (write2Bytes value ++ rest) = value % 2 ^ 16 := by
  simp only [write2Bytes, List.cons_append, List.nil_append, read2Bytes, byteAt_toNat]
  omega

theorem write3Bytes_mod (value : Nat) : write3Bytes (value % 2 ^ 24) = write3Bytes value := by
  have hbyte (i : Nat) (hi : i ≤ 2) : byteAt (value % 2 ^ 24) i = byteAt value i := by
    apply UInt8.toNat_inj.mp
    rw [byteAt_toNat, byteAt_toNat]
    match i, hi with
    | 0, _ => omega
    | 1, _ => omega
    | 2, _ => omega
  unfold write3Bytes
  rw [hbyte 2 (Nat.le_refl 2), hbyte 1 (by omega), hbyte 0 (by omega)]

theorem read3Bytes_write3Bytes (value : Nat) (rest : List UInt8)
    : read3Bytes (write3Bytes value ++ rest) = value % 2 ^ 24 := by
  simp only [write3Bytes, List.cons_append, List.nil_append, read3Bytes, byteAt_toNat]
  omega

theorem read4Bytes_write4Bytes (value : Nat) (rest : List UInt8)
    : read4Bytes (write4Bytes value ++ rest) = value % 2 ^ 32 := by
  simp only [write4Bytes, List.cons_append, List.nil_append, read4Bytes, byteAt_toNat]
  omega

theorem read4Bytes_write4Bytes_of_lt {value : Nat} (h : value < 2 ^ 32)
    : read4Bytes (write4Bytes value) = value := by
  have hread := read4Bytes_write4Bytes value []
  rw [List.append_nil] at hread
  omega

theorem read2Bytes_write2Bytes_of_lt {value : Nat} (h : value < 2 ^ 16)
    : read2Bytes (write2Bytes value) = value := by
  have hread := read2Bytes_write2Bytes value []
  rw [List.append_nil] at hread
  omega

theorem read8Bytes_write8Bytes_append (value : Nat) (rest : List UInt8)
    : read8Bytes (write8Bytes value ++ rest) = value % 2 ^ 64 := by
  unfold read8Bytes write8Bytes
  rw [List.append_assoc, read4Bytes_write4Bytes, List.drop_left' (length_write4Bytes _),
    read4Bytes_write4Bytes]
  omega

theorem read8Bytes_write8Bytes {value : Nat} (h : value < 2 ^ 64)
    : read8Bytes (write8Bytes value) = value := by
  have hread := read8Bytes_write8Bytes_append value []
  rw [List.append_nil] at hread
  omega

theorem byteAt_eq {value i : Nat} {b : UInt8} (h : value / 256 ^ i % 256 = b.toNat)
    : byteAt value i = b := by
  rw [← UInt8.toNat_inj, byteAt_toNat, h]

theorem write2Bytes_read2Bytes {data : List UInt8} (h : data.length = 2)
    : write2Bytes (read2Bytes data) = data := by
  match data, h with
  | [b1, b0], _ =>
    have := b0.toNat_lt
    have := b1.toNat_lt
    rw [write2Bytes, read2Bytes, byteAt_eq (b := b1) (by omega), byteAt_eq (b := b0) (by omega)]

theorem write4Bytes_of_mod {value : Nat} {data : List UInt8} (h : data.length = 4)
    (hmod : value % 2 ^ 32 = read4Bytes data)
    : write4Bytes value = data := by
  match data, h with
  | [b3, b2, b1, b0], _ =>
    rw [read4Bytes] at hmod
    have := b0.toNat_lt
    have := b1.toNat_lt
    have := b2.toNat_lt
    have := b3.toNat_lt
    rw [write4Bytes, byteAt_eq (b := b3) (by omega), byteAt_eq (b := b2) (by omega),
      byteAt_eq (b := b1) (by omega), byteAt_eq (b := b0) (by omega)]

theorem write4Bytes_read4Bytes {data : List UInt8} (h : data.length = 4)
    : write4Bytes (read4Bytes data) = data :=
  write4Bytes_of_mod h (Nat.mod_eq_of_lt (read4Bytes_lt data))

theorem write8Bytes_read8Bytes {data : List UInt8} (h : data.length = 8)
    : write8Bytes (read8Bytes data) = data := by
  have htake : read4Bytes (data.take 4) = read4Bytes data := by
    match data, h with
    | _ :: _ :: _ :: _ :: _, _ => rfl
  have hlow := read4Bytes_lt (data.drop 4)
  have hhigh := read4Bytes_lt data
  have hfirst : write4Bytes ((read4Bytes data * 2 ^ 32 + read4Bytes (data.drop 4)) / 2 ^ 32) = data.take 4 := by
    apply write4Bytes_of_mod
    . rw [List.length_take]
      omega
    . omega
  have hsecond : write4Bytes (read4Bytes data * 2 ^ 32 + read4Bytes (data.drop 4)) = data.drop 4 := by
    apply write4Bytes_of_mod
    . rw [List.length_drop]
      omega
    . omega
  rw [write8Bytes, read8Bytes, hfirst, hsecond, List.take_append_drop]

theorem read2Bytes_append (data rest : List UInt8) (h : 2 ≤ data.length)
    : read2Bytes (data ++ rest) = read2Bytes data := by
  match data, h with
  | _ :: _ :: _, _ => rfl

theorem read3Bytes_append (data rest : List UInt8) (h : 3 ≤ data.length)
    : read3Bytes (data ++ rest) = read3Bytes data := by
  match data, h with
  | _ :: _ :: _ :: _, _ => rfl

theorem read4Bytes_append (data rest : List UInt8) (h : 4 ≤ data.length)
    : read4Bytes (data ++ rest) = read4Bytes data := by
  match data, h with
  | _ :: _ :: _ :: _ :: _, _ => rfl

theorem read8Bytes_append (data rest : List UInt8) (h : 8 ≤ data.length)
    : read8Bytes (data ++ rest) = read8Bytes data := by
  unfold read8Bytes
  rw [List.drop_append_of_le_length (by omega), read4Bytes_append _ _ (by omega),
    read4Bytes_append _ _ (by rw [List.length_drop]; omega)]

def padTo4Bytes (size : UInt16) : UInt16 :=
  if size &&& 0x03 ≠ 0 then (size &&& 0xfffc) + 4 else size

theorem and_fffc {n : Nat} (hn : n < 2 ^ 16) : n &&& 0xfffc = n / 4 * 4 := by
  have hmask : (0xfffc : Nat) = (2 ^ 14 - 1) <<< 2 := rfl
  have hshift : n / 4 * 4 = (n >>> 2) <<< 2 := by
    rw [Nat.shiftRight_eq_div_pow, Nat.shiftLeft_eq]
  apply Nat.eq_of_testBit_eq
  intro i
  rw [hshift, hmask, Nat.testBit_and, Nat.testBit_shiftLeft, Nat.testBit_shiftLeft,
    Nat.testBit_two_pow_sub_one, Nat.testBit_shiftRight]
  by_cases hi : 2 ≤ i
  . rw [show 2 + (i - 2) = i by omega]
    by_cases hlt : i - 2 < 14
    . simp [hi, hlt]
    . have hbit : n.testBit i = false :=
        Nat.testBit_lt_two_pow (Nat.lt_of_lt_of_le hn (Nat.pow_le_pow_right (by omega) (by omega)))
      simp [hbit]
  . simp [hi]

theorem toNat_padTo4Bytes {size : UInt16} (h : size.toNat + 3 < 2 ^ 16)
    : (padTo4Bytes size).toNat = (size.toNat + 3) / 4 * 4 := by
  have hlow : (size &&& 0x03).toNat = size.toNat % 4 := by
    rw [UInt16.toNat_and]
    exact Nat.and_two_pow_sub_one_eq_mod size.toNat 2
  have hhigh : (size &&& 0xfffc).toNat = size.toNat / 4 * 4 := by
    rw [UInt16.toNat_and]
    exact and_fffc size.toNat_lt
  unfold padTo4Bytes
  by_cases hzero : size &&& 0x03 = 0
  . rw [hzero] at hlow
    have hmod : size.toNat % 4 = 0 := hlow.symm
    rw [if_neg (by simpa using hzero)]
    omega
  . have hmod : size.toNat % 4 ≠ 0 := by
      intro hmod
      apply hzero
      rw [← UInt16.toNat_inj, hlow, hmod]
      rfl
    rw [if_pos hzero, UInt16.toNat_add, hhigh, show (4 : UInt16).toNat = 4 from rfl]
    omega

end ByteStream
