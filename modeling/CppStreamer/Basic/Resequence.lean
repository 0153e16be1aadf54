import Mathlib.Algebra.Order.BigOperators.Group.List
import Mathlib.Algebra.Order.Ring.Nat
import Mathlib.Data.Nat.Find

/-!
This module contains what it means to put numbered items back in order: which numbers have gone out, and which are held
back, after items have arrived in whatever order.
-/

namespace Resequence

variable {first next n m : Nat} {arrived held run rest : List Nat}

theorem exists_missing (first : Nat) (arrived : List Nat) : ∃ n, first ≤ n ∧ n ∉ arrived := by
  refine ⟨first + arrived.sum + 1, by omega, ?_⟩
  intro hmem
  have hle := List.single_le_sum (fun n _ => Nat.zero_le n) _ hmem
  omega

/--
The first number that has not arrived.
-/
def frontier (first : Nat) (arrived : List Nat) : Nat := Nat.find (exists_missing first arrived)

theorem le_frontier (first : Nat) (arrived : List Nat) : first ≤ frontier first arrived :=
  (Nat.find_spec (exists_missing first arrived)).left

theorem frontier_notMem (first : Nat) (arrived : List Nat) : frontier first arrived ∉ arrived :=
  (Nat.find_spec (exists_missing first arrived)).right

theorem mem_of_lt_frontier (hle : first ≤ n) (hlt : n < frontier first arrived) : n ∈ arrived := by
  by_contra hnot
  exact Nat.find_min (exists_missing first arrived) hlt ⟨hle, hnot⟩

theorem frontier_eq (hle : first ≤ n) (hnot : n ∉ arrived) (hall : ∀ m, first ≤ m → m < n → m ∈ arrived)
    : frontier first arrived = n := by
  unfold frontier
  rw [Nat.find_eq_iff]
  refine ⟨⟨hle, hnot⟩, ?_⟩
  rintro m hlt ⟨hm, hmissing⟩
  exact hmissing (hall m hm hlt)

theorem frontier_congr {arrived' : List Nat} (h : ∀ n, n ∈ arrived ↔ n ∈ arrived')
    : frontier first arrived = frontier first arrived' := by
  apply frontier_eq (le_frontier first arrived')
  . rw [h]
    apply frontier_notMem
  . intro m hle hlt
    rw [h]
    apply mem_of_lt_frontier hle hlt

/--
Everything in front of the next number has gone out, and what has arrived from there on is held back in order.
-/
structure Keeps (first : Nat) (arrived : List Nat) (next : Nat) (held : List Nat) : Prop where
  next_eq : next = frontier first arrived
  sorted : held.Pairwise (· < ·)
  mem_held : ∀ n, n ∈ held ↔ n ∈ arrived ∧ next ≤ n

namespace Keeps

theorem start (first : Nat) : Keeps first [first] (first + 1) [] := by
  refine ⟨(frontier_eq ?_ ?_ ?_).symm, List.Pairwise.nil, ?_⟩
  . omega
  . rw [List.mem_singleton]
    omega
  . intro m hle hlt
    rw [List.mem_singleton]
    omega
  . intro n
    rw [List.mem_singleton]
    constructor
    . intro h
      cases h
    . omega

theorem le (h : Keeps first arrived next held) : first ≤ next := by
  rw [h.next_eq]
  apply le_frontier

theorem notMem (h : Keeps first arrived next held) : next ∉ arrived := by
  rw [h.next_eq]
  apply frontier_notMem

theorem mem (h : Keeps first arrived next held) (hle : first ≤ n) (hlt : n < next) : n ∈ arrived := by
  apply mem_of_lt_frontier hle
  rw [← h.next_eq]
  exact hlt

theorem lt (h : Keeps first arrived next held) (hn : n ∈ held) : next < n := by
  obtain ⟨hmem, hle⟩ := (h.mem_held n).mp hn
  apply Nat.lt_of_le_of_ne hle
  rintro rfl
  exact h.notMem hmem

theorem old (h : Keeps first arrived next held) (hlt : n < next) : Keeps first (n :: arrived) next held := by
  refine ⟨(frontier_eq h.le ?_ ?_).symm, h.sorted, ?_⟩
  . rw [List.mem_cons, not_or]
    exact ⟨by omega, h.notMem⟩
  . intro m hle hm
    exact List.mem_cons_of_mem _ (h.mem hle hm)
  . intro m
    rw [h.mem_held, List.mem_cons]
    constructor
    . rintro ⟨hm, hle⟩
      exact ⟨Or.inr hm, hle⟩
    . rintro ⟨rfl | hm, hle⟩
      . omega
      . exact ⟨hm, hle⟩

/--
An item behind a gap is held back.
-/
theorem hold (h : Keeps first arrived next held) (hlt : next < n) {held' : List Nat}
    (hsorted : held'.Pairwise (· < ·)) (hmem : ∀ m, m ∈ held' ↔ m = n ∨ m ∈ held)
    : Keeps first (n :: arrived) next held' := by
  refine ⟨(frontier_eq h.le ?_ ?_).symm, hsorted, ?_⟩
  . rw [List.mem_cons, not_or]
    exact ⟨by omega, h.notMem⟩
  . intro m hle hm
    exact List.mem_cons_of_mem _ (h.mem hle hm)
  . intro m
    rw [hmem, h.mem_held, List.mem_cons]
    constructor
    . rintro (rfl | ⟨hm, hle⟩)
      . exact ⟨Or.inl rfl, by omega⟩
      . exact ⟨Or.inr hm, hle⟩
    . rintro ⟨rfl | hm, hle⟩
      . exact Or.inl rfl
      . exact Or.inr ⟨hm, hle⟩

/--
The item that closes the gap goes out, with all that is held back directly behind it.
-/
theorem release (h : Keeps first arrived next (run ++ rest)) (hrun : run = List.range' (next + 1) run.length)
    (hstop : next + 1 + run.length ∉ rest) : Keeps first (next :: arrived) (next + 1 + run.length) rest := by
  have hmemRun (m : Nat) : m ∈ run ↔ next < m ∧ m < next + 1 + run.length := by
    rw [hrun, List.mem_range'_1, List.length_range']
    omega
  have hcut := List.pairwise_append.mp h.sorted
  -- nothing behind the run is in front of its end
  have hrest (m : Nat) (hm : m ∈ rest) : next + 1 + run.length ≤ m := by
    by_contra hlt
    have hnext := h.lt (List.mem_append_right _ hm)
    exact absurd (hcut.right.right m ((hmemRun m).mpr ⟨hnext, by omega⟩) m hm) (Nat.lt_irrefl m)
  refine ⟨(frontier_eq ?_ ?_ ?_).symm, hcut.right.left, ?_⟩
  . have hle := h.le
    omega
  . rw [List.mem_cons, not_or]
    refine ⟨by omega, ?_⟩
    intro hmem
    rcases List.mem_append.mp ((h.mem_held _).mpr ⟨hmem, by omega⟩) with hmem | hmem
    . exact absurd ((hmemRun _).mp hmem).right (Nat.lt_irrefl _)
    . exact hstop hmem
  . intro m hle hlt
    rw [List.mem_cons]
    by_cases hm : m < next
    . exact Or.inr (h.mem hle hm)
    . by_cases heq : m = next
      . exact Or.inl heq
      . exact Or.inr ((h.mem_held m).mp (List.mem_append_left _ ((hmemRun m).mpr ⟨by omega, hlt⟩))).left
  . intro m
    constructor
    . intro hm
      exact ⟨List.mem_cons_of_mem _ ((h.mem_held m).mp (List.mem_append_right _ hm)).left, hrest m hm⟩
    . rintro ⟨hm, hle⟩
      rcases List.mem_cons.mp hm with rfl | hm
      . omega
      . rcases List.mem_append.mp ((h.mem_held m).mpr ⟨hm, by omega⟩) with hmem | hmem
        . have hlt := ((hmemRun m).mp hmem).right
          omega
        . exact hmem

/--
When all the numbers of a range have arrived, and no others, all of them have gone out.
-/
theorem complete (h : Keeps first arrived next held) (hle : first ≤ n)
    (hall : ∀ m, first ≤ m → m < n → m ∈ arrived) (honly : ∀ m ∈ arrived, m < n) : next = n ∧ held = [] := by
  have hnext : next = n := by
    rw [h.next_eq]
    exact frontier_eq hle (fun hmem => Nat.lt_irrefl n (honly n hmem)) hall
  refine ⟨hnext, List.eq_nil_iff_forall_not_mem.mpr ?_⟩
  intro m hm
  have hlt := honly m ((h.mem_held m).mp hm).left
  have hgt := h.lt hm
  omega

end Keeps

end Resequence
