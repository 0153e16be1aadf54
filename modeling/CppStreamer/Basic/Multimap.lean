import Mathlib.Data.List.Sort

/-!
This module contains maps that may hold several values for a key, as the list of their values in the order of the keys.
Values of one key stand in the order in which they came.
-/

namespace Multimap

variable {α κ : Type} [LinearOrder κ] (key : α → κ) {m : List α}

/--
`std::multimap::insert`: the value comes behind all others that do not have a greater key.
-/
def insert (m : List α) (a : α) : List α := m.orderedInsert (fun x y => key x < key y) a

def ofList (as : List α) : List α := as.foldl (insert key) []

theorem perm_insert (m : List α) (a : α) : (insert key m a).Perm (a :: m) := List.perm_orderedInsert _ a m

theorem sorted_insert (h : m.Pairwise fun x y => key x ≤ key y) (a : α)
    : (insert key m a).Pairwise fun x y => key x ≤ key y := by
  induction m with
  | nil => exact List.pairwise_singleton _ a
  | cons b m ih =>
    obtain ⟨hb, hm⟩ := List.pairwise_cons.mp h
    rw [insert, List.orderedInsert_cons]
    by_cases hlt : key a < key b
    . rw [if_pos hlt]
      apply List.pairwise_cons.mpr
      refine ⟨?_, h⟩
      rw [List.forall_mem_cons]
      exact ⟨hlt.le, fun x hx => hlt.le.trans (hb x hx)⟩
    . rw [if_neg hlt]
      apply List.pairwise_cons.mpr
      refine ⟨?_, ih hm⟩
      intro x hx
      rcases List.mem_cons.mp ((perm_insert key m a).mem_iff.mp hx) with rfl | hx
      . exact not_lt.mp hlt
      . exact hb x hx

theorem foldl_insert_perm (as m : List α) : (as.foldl (insert key) m).Perm (as ++ m) := by
  induction as generalizing m with
  | nil => exact List.Perm.refl m
  | cons a as ih =>
    have hfront := (perm_insert key m a).append_left as
    exact ((ih (insert key m a)).trans hfront).trans List.perm_middle

theorem ofList_perm (as : List α) : (ofList key as).Perm as := by
  have h := foldl_insert_perm key as []
  rwa [List.append_nil] at h

theorem foldl_insert_sorted (as : List α) (h : m.Pairwise fun x y => key x ≤ key y)
    : (as.foldl (insert key) m).Pairwise fun x y => key x ≤ key y := by
  induction as generalizing m with
  | nil => exact h
  | cons a as ih => exact ih (sorted_insert key h a)

theorem ofList_sorted (as : List α) : (ofList key as).Pairwise fun x y => key x ≤ key y :=
  foldl_insert_sorted key as List.Pairwise.nil

end Multimap
