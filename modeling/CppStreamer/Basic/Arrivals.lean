import CppStreamer.Basic.KeyedMap
import Mathlib.Data.List.Infix

/-!
This module contains places that values arrive at one after the other: those that keep the last value, the first one,
every new one, or the last one of each key. The question is when it does not matter which of two groups comes first.
-/

namespace Arrivals

variable {α : Type}

/--
There are no two different values.
-/
def Agrees (x y : Option α) : Prop := ∀ a ∈ x, ∀ b ∈ y, a = b

instance [DecidableEq α] (x y : Option α) : Decidable (Agrees x y) :=
  inferInstanceAs (Decidable (∀ a ∈ x, ∀ b ∈ y, a = b))

theorem Agrees.or_comm {x y : Option α} (h : Agrees x y) : x.or y = y.or x := by
  cases x with
  | none => rw [Option.none_or, Option.or_none]
  | some a =>
    cases y with
    | none => rfl
    | some b => rw [Option.some_or, Option.some_or, h a rfl b rfl]

section Last

variable {xs ys : List α}

theorem foldl_last (xs : List α) (s : α) : xs.foldl (fun _ x => x) s = xs.getLast?.getD s := by
  induction xs generalizing s with
  | nil => rfl
  | cons x xs ih => rw [List.foldl_cons, ih, List.getLast?_cons, Option.getD_some]

theorem foldl_last_comm (h : Agrees xs.getLast? ys.getLast?) (s : α)
    : (xs ++ ys).foldl (fun _ x => x) s = (ys ++ xs).foldl (fun _ x => x) s := by
  rw [foldl_last, foldl_last, List.getLast?_append, List.getLast?_append, h.or_comm]

end Last

section First

variable [DecidableEq α] {unset : α} {xs ys : List α}

/--
A value that is set is not set again.
-/
def keep (unset old new : α) : α := if old ≠ unset then old else new

theorem foldl_keep (xs : List α) (s : α)
    : xs.foldl (keep unset) s = ((s :: xs).find? fun x => x ≠ unset).getD unset := by
  induction xs generalizing s with
  | nil =>
    by_cases hs : s = unset
    . rw [List.find?_cons_of_neg (by simpa using hs), List.find?_nil, Option.getD_none, List.foldl_nil, hs]
    . rw [List.find?_cons_of_pos (by simpa using hs), Option.getD_some, List.foldl_nil]
  | cons x xs ih =>
    rw [List.foldl_cons, ih, keep]
    by_cases hs : s = unset
    . have hskip : (s :: x :: xs).find? (fun x => x ≠ unset) = (x :: xs).find? fun x => x ≠ unset :=
        List.find?_cons_of_neg (by simpa using hs)
      rw [if_neg (not_not.mpr hs), hskip]
    . rw [if_pos hs, List.find?_cons_of_pos (by simpa using hs), List.find?_cons_of_pos (by simpa using hs)]

theorem foldl_keep_comm (h : Agrees (xs.find? fun x => x ≠ unset) (ys.find? fun x => x ≠ unset)) (s : α)
    : (xs ++ ys).foldl (keep unset) s = (ys ++ xs).foldl (keep unset) s := by
  rw [foldl_keep, foldl_keep, List.find?_cons, List.find?_cons, List.find?_append, List.find?_append, h.or_comm]

end First

section New

variable [DecidableEq α] {xs ys s : List α}

def addNew (s : List α) (x : α) : List α := if x ∈ s then s else s ++ [x]

theorem mem_addNew {x y : α} : x ∈ addNew s y ↔ x ∈ s ∨ x = y := by
  rw [addNew]
  split
  next hy =>
    constructor
    . exact Or.inl
    . rintro (hx | rfl)
      . exact hx
      . exact hy
  next => rw [List.mem_append, List.mem_singleton]

theorem mem_foldl_addNew {x : α} : x ∈ xs.foldl addNew s ↔ x ∈ s ∨ x ∈ xs := by
  induction xs generalizing s with
  | nil => simp
  | cons y xs ih => rw [List.foldl_cons, ih, mem_addNew, List.mem_cons, or_assoc]

theorem foldl_addNew_of_mem (h : ∀ x ∈ xs, x ∈ s) : xs.foldl addNew s = s := by
  induction xs with
  | nil => rfl
  | cons x xs ih =>
    rw [List.foldl_cons, addNew, if_pos (h x List.mem_cons_self), ih fun y hy => h y (List.mem_cons_of_mem _ hy)]

theorem foldl_addNew_append_self (xs zs s : List α)
    : (xs ++ zs ++ xs).foldl addNew s = (xs ++ (xs ++ zs)).foldl addNew s := by
  rw [List.foldl_append, foldl_addNew_of_mem, List.foldl_append, List.foldl_append, List.foldl_append,
    foldl_addNew_of_mem fun x hx => mem_foldl_addNew.mpr (Or.inr hx)]
  intro x hx
  exact mem_foldl_addNew.mpr (Or.inr (List.mem_append_left _ hx))

theorem foldl_addNew_comm (h : xs <+: ys ∨ ys <+: xs) (s : List α)
    : (xs ++ ys).foldl addNew s = (ys ++ xs).foldl addNew s := by
  rcases h with ⟨zs, rfl⟩ | ⟨zs, rfl⟩
  . exact (foldl_addNew_append_self xs zs s).symm
  . exact foldl_addNew_append_self ys zs s

end New

section Keyed

variable {κ : Type} [LinearOrder κ] {key : α → κ} {xs ys : List α}

theorem find?_foldl_insert (xs : List α) (m : KeyedMap key) (k : κ)
    : (xs.foldl KeyedMap.insert m).find? k = (xs.filter fun a => key a = k).getLast?.or (m.find? k) := by
  induction xs generalizing m with
  | nil => rfl
  | cons a xs ih =>
    rw [List.foldl_cons, ih, KeyedMap.find?_insert]
    by_cases ha : key a = k
    . rw [if_pos ha, List.filter_cons_of_pos (by simpa using ha), List.getLast?_cons, Option.or_some, Option.some_or]
    . rw [if_neg ha, List.filter_cons_of_neg (by simpa using ha)]

theorem foldl_insert_comm
    (h : ∀ k, Agrees (xs.filter fun a => key a = k).getLast? (ys.filter fun a => key a = k).getLast?)
    (m : KeyedMap key)
    : (xs ++ ys).foldl KeyedMap.insert m = (ys ++ xs).foldl KeyedMap.insert m := by
  apply KeyedMap.ext_find?
  intro k
  rw [find?_foldl_insert, find?_foldl_insert, List.filter_append, List.filter_append, List.getLast?_append,
    List.getLast?_append, (h k).or_comm]

end Keyed

end Arrivals
