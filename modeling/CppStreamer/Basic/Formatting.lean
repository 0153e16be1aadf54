import Mathlib.Data.List.TakeWhile
import CppStreamer.Basic.Filling

/-!
This module contains arrays of `char` that texts are formatted into with `snprintf`, one behind the other, and what a
string function reads out of them.
-/

open Checked

/--
The string that `c_str` or an array gives to a function that stops at the first zero.
-/
def cStr (s : List UInt8) : List UInt8 := s.takeWhile fun c => c ≠ 0

/--
An array with whatever it contains, and the sum of what `snprintf` has returned, an `int`.
-/
structure CharArray where
  bytes : List UInt8
  len : Nat := 0
  deriving DecidableEq, Repr

namespace CharArray

/--
The bytes from an offset on, as far as they are in the array.
-/
def overwrite (bytes : List UInt8) (offset : Nat) (written : List UInt8) : List UInt8 :=
  (bytes.take offset ++ written ++ bytes.drop (offset + written.length)).take bytes.length

/--
`len += snprintf(array + len, sizeof(array) - len, ...)`, where the text has been formatted. The size is a `size_t`.
-/
def snprintf (a : CharArray) (text : List UInt8) : Checked CopyCheck CharArray := do
  check (.assertion (a.len + text.length < 2 ^ 31))
  let size := (a.bytes.length + 2 ^ 64 - a.len) % 2 ^ 64
  let written := if size = 0 then [] else text.take (size - 1) ++ [0]
  check (.inside a.len written.length a.bytes.length)
  return { bytes := overwrite a.bytes a.len written, len := a.len + text.length }

/--
The array as a string. It has to have an end.
-/
def string (a : CharArray) : Checked CopyCheck (List UInt8) := do
  check (.assertion (0 ∈ a.bytes))
  return cStr a.bytes

section Rules

variable {a : CharArray} {s text : List UInt8}

theorem length_overwrite (bytes : List UInt8) (offset : Nat) (written : List UInt8)
    : (overwrite bytes offset written).length = bytes.length := by
  unfold overwrite
  simp only [List.length_take, List.length_append, List.length_drop]
  omega

theorem cStr_of_not_mem (h : 0 ∉ s) : cStr s = s := by
  apply List.takeWhile_eq_self_iff.mpr
  intro c hc
  rw [decide_eq_true_eq]
  rintro rfl
  apply h hc

theorem cStr_append_zero (h : 0 ∉ s) (rest : List UInt8) : cStr (s ++ 0 :: rest) = s := by
  unfold cStr
  rw [List.takeWhile_append_of_pos]
  . simp
  . intro c hc
    rw [decide_eq_true_eq]
    rintro rfl
    apply h hc

theorem length_cStr_lt {bytes : List UInt8} (h : 0 ∈ bytes) : (cStr bytes).length < bytes.length := by
  obtain ⟨front, rest, rfl⟩ := List.append_of_mem h
  have hle : (cStr (front ++ 0 :: rest)).length ≤ front.length := by
    unfold cStr
    rw [List.takeWhile_append]
    split
    . simp
    . apply (List.takeWhile_sublist _).length_le
  rw [List.length_append, List.length_cons]
  omega

@[simp]
theorem length_snprintf (a : CharArray) (text : List UInt8)
    : (a.snprintf text).value.bytes.length = a.bytes.length := by
  apply length_overwrite

@[simp]
theorem string_passes : a.string.Passes CopyCheck.Holds ↔ 0 ∈ a.bytes := by
  simp [string, CopyCheck.Holds]

@[simp]
theorem string_value : a.string.value = cStr a.bytes := rfl

/--
The texts that have been formatted are in front.
-/
structure Filled (a : CharArray) (s : List UInt8) : Prop where
  len : a.len = s.length
  front : s <+: a.bytes

/--
The texts that have been formatted are in front, and there is a zero behind them.
-/
structure Ended (a : CharArray) (s : List UInt8) : Prop where
  len : a.len = s.length
  front : s ++ [0] <+: a.bytes

theorem Ended.filled (h : a.Ended s) : a.Filled s := ⟨h.len, (List.prefix_append _ _).trans h.front⟩

theorem filled_nil (bytes : List UInt8) : Filled { bytes } [] := ⟨rfl, List.nil_prefix⟩

theorem Filled.snprintf_fits (h : a.Filled s) (text : List UInt8) (hroom : s.length + text.length < a.bytes.length)
    (hint : a.bytes.length < 2 ^ 31)
    : (a.snprintf text).Passes CopyCheck.Holds ∧ (a.snprintf text).value.Ended (s ++ text) := by
  have hsize : (a.bytes.length + 2 ^ 64 - a.len) % 2 ^ 64 = a.bytes.length - s.length := by
    rw [h.len]
    omega
  have hwritten : (if (a.bytes.length + 2 ^ 64 - a.len) % 2 ^ 64 = 0 then []
      else text.take ((a.bytes.length + 2 ^ 64 - a.len) % 2 ^ 64 - 1) ++ [0]) = text ++ [0] := by
    rw [hsize, if_neg (by omega), List.take_of_length_le (by omega)]
  have hfront : a.bytes.take s.length = s := by
    obtain ⟨rest, hrest⟩ := h.front
    rw [← hrest, List.take_left]
  constructor
  . simp only [snprintf, hwritten, passes_bind, passes_check, passes_pure, and_true, CopyCheck.Holds, decide_eq_true_eq,
      List.length_append, List.length_singleton]
    rw [h.len]
    omega
  . constructor
    . change a.len + text.length = _
      rw [h.len, List.length_append]
    . simp only [snprintf, hwritten, value_bind, value_pure, overwrite]
      rw [h.len, hfront, List.prefix_take_iff]
      constructor
      . rw [List.append_assoc]
        apply List.prefix_append
      . simp only [List.length_append, List.length_singleton]
        omega

theorem string_of_ended (h : a.Ended s) (hs : 0 ∉ s) : a.string.Passes CopyCheck.Holds ∧ a.string.value = s := by
  obtain ⟨rest, hrest⟩ := h.front
  rw [List.append_assoc, List.singleton_append] at hrest
  rw [string_passes, string_value, ← hrest]
  exact ⟨by simp, cStr_append_zero hs rest⟩

end Rules

end CharArray
