import Mathlib.Data.Rat.Floor
import Mathlib.Tactic.Linarith
import Mathlib.Tactic.NormNum
import Mathlib.Tactic.Positivity
import Mathlib.Tactic.Ring

/-!
This module contains arithmetic of floating point numbers as it is over the rationals: rounding, and the
smoothing of a series of numbers.
-/

namespace Numeric

section Rounding

/--
To the nearest integer, and halves away from zero.
-/
def round (x : ℚ) : Int := if 0 ≤ x then ⌊x + 1 / 2⌋ else -⌊-x + 1 / 2⌋

theorem abs_round_sub_le (x : ℚ) : |(round x : ℚ) - x| ≤ 1 / 2 := by
  have hnear (y : ℚ) : |((⌊y + 1 / 2⌋ : Int) : ℚ) - y| ≤ 1 / 2 := by
    have hle := Int.floor_le (y + 1 / 2)
    have hlt := Int.lt_floor_add_one (y + 1 / 2)
    rw [abs_le]
    constructor <;> linarith
  unfold round
  split
  . apply hnear
  . have hneg := hnear (-x)
    rw [abs_sub_comm] at hneg
    push_cast
    rw [show -(⌊-x + 1 / 2⌋ : ℚ) - x = -x - ⌊-x + 1 / 2⌋ by ring]
    exact hneg

theorem round_nonneg_iff (x : ℚ) : 0 ≤ round x ↔ -1 / 2 < x := by
  unfold round
  split
  next hpos =>
    have hfloor : 0 ≤ ⌊x + 1 / 2⌋ := by
      apply Int.floor_nonneg.mpr
      linarith
    constructor
    . intro _
      linarith
    . intro _
      exact hfloor
  next hneg =>
    rw [Int.neg_nonneg, Int.floor_le_iff]
    push_cast
    constructor
    . intro h
      linarith
    . intro h
      linarith

theorem round_le_iff {n : Int} (hn : 0 ≤ n) (x : ℚ) : round x ≤ n ↔ x < n + 1 / 2 := by
  have hcast : (0 : ℚ) ≤ n := by exact_mod_cast hn
  unfold round
  split
  next hpos =>
    rw [Int.floor_le_iff]
    constructor
    . intro h
      linarith
    . intro h
      linarith
  next hneg =>
    have hfloor : 0 ≤ ⌊-x + 1 / 2⌋ := by
      apply Int.floor_nonneg.mpr
      linarith
    constructor
    . intro _
      linarith
    . intro _
      omega

/--
A number within the bounds is as near to what is cut to them as it is to the number itself.
-/
theorem abs_sub_clamp_le {v x lo hi d : ℚ} (hlo : lo ≤ v) (hhi : v ≤ hi) (h : |v - x| ≤ d)
    : |v - min hi (max lo x)| ≤ d := by
  rw [abs_le] at h ⊢
  constructor
  . have hmin := min_le_right hi (max lo x)
    have hmax : max lo x ≤ v + d := max_le (by linarith) (by linarith)
    linarith
  . have hmin : v - d ≤ min hi (max lo x) := by
      apply le_min
      . linarith
      . apply le_max_of_le_right
        linarith
    linarith

end Rounding

section Smoothing

variable {K : Type} [Field K] {weight avg : K}

/--
The averages behind each number, which moves the average towards itself by its part.
-/
def smoothed (weight avg : K) : List K → List K
  | [] => []
  | x :: xs =>
    let avg := avg + (x - avg) / weight
    avg :: smoothed weight avg xs

/--
No number is forgotten.
-/
theorem smoothed_inj (hweight : weight ≠ 0) {xs ys : List K}
    : smoothed weight avg xs = smoothed weight avg ys ↔ xs = ys := by
  induction xs generalizing avg ys with
  | nil =>
    cases ys with
    | nil => simp
    | cons y ys => simp [smoothed]
  | cons x xs ih =>
    cases ys with
    | nil => simp [smoothed]
    | cons y ys =>
      have hstep : avg + (x - avg) / weight = avg + (y - avg) / weight ↔ x = y := by
        rw [add_right_inj, div_left_inj' hweight, sub_left_inj]
      simp only [smoothed, List.cons.injEq]
      constructor
      . intro ⟨hhead, htail⟩
        rw [hhead, ih] at htail
        exact ⟨hstep.mp hhead, htail⟩
      . intro ⟨hhead, htail⟩
        rw [hhead, htail]
        exact ⟨rfl, rfl⟩

theorem smoothed_replicate_zero (weight : K) (n : Nat)
    : smoothed weight 0 (List.replicate n 0) = List.replicate n 0 := by
  induction n with
  | zero => rfl
  | succ n ih =>
    rw [List.replicate_succ, smoothed, sub_zero, zero_div, add_zero, ih]

theorem length_smoothed (xs : List K) : (smoothed weight avg xs).length = xs.length := by
  induction xs generalizing avg with
  | nil => rfl
  | cons x xs ih =>
    rw [smoothed, List.length_cons, List.length_cons, ih]

theorem smoothed_eq_zero_iff (hweight : weight ≠ 0) (xs : List K)
    : (∀ y ∈ smoothed weight 0 xs, y = 0) ↔ ∀ x ∈ xs, x = 0 := by
  have hzero (ys : List K) : (∀ y ∈ ys, y = 0) ↔ ys = List.replicate ys.length 0 := by
    rw [List.eq_replicate_iff]
    simp
  have hsmoothed := smoothed_replicate_zero weight xs.length
  rw [hzero, hzero, length_smoothed]
  constructor
  . intro h
    rw [← hsmoothed] at h
    exact (smoothed_inj hweight).mp h
  . intro h
    rw [h, List.length_replicate]
    exact hsmoothed

end Smoothing

end Numeric
