import Mathlib.Algebra.Order.BigOperators.Group.List
import Mathlib.Data.List.Basic

/-!
This module contains lists that are coded as runs of equal values.
-/

namespace RunLength

variable {α : Type} {runs front back : List (Nat × α)} {n count : Nat} {a : α}

/--
The values of the runs, each as often as its run says.
-/
def expand (runs : List (Nat × α)) : List α := runs.flatMap fun run => List.replicate run.1 run.2

/--
The number of values up to the end of each run, with the value of the run.
-/
def ends (start : Nat) : List (Nat × α) → List (Nat × α)
  | [] => []
  | run :: runs => (start + run.1, run.2) :: ends (start + run.1) runs

theorem expand_cons (run : Nat × α) (runs : List (Nat × α))
    : expand (run :: runs) = List.replicate run.1 run.2 ++ expand runs := rfl

theorem length_expand_cons (run : Nat × α) (runs : List (Nat × α))
    : (expand (run :: runs)).length = run.1 + (expand runs).length := by
  rw [expand_cons, List.length_append, List.length_replicate]

theorem getElem?_expand_lt (h : n < count) : (expand ((count, a) :: runs))[n]? = some a := by
  rw [expand_cons, List.getElem?_append_left (by rwa [List.length_replicate]), List.getElem?_replicate_of_lt h]

theorem getElem?_expand_ge (h : count ≤ n) : (expand ((count, a) :: runs))[n]? = (expand runs)[n - count]? := by
  rw [expand_cons, List.getElem?_append_right (by rwa [List.length_replicate]), List.length_replicate]

theorem le_of_mem_ends {start : Nat} {e : Nat × α} (h : e ∈ ends start runs) : start ≤ e.1 := by
  induction runs generalizing start with
  | nil => cases h
  | cons run runs ih =>
    rcases List.mem_cons.mp h with rfl | h
    . exact Nat.le_add_right _ _
    . exact Nat.le_trans (Nat.le_add_right _ _) (ih h)

end RunLength
