import Mathlib.Logic.Function.Basic

/-!
This module contains allocations by their addresses, and what allocating one and changing one leave alone.
-/

/--
What is at each address. Those from `next` on have not been given out yet.
-/
structure Heap (α : Type) where
  contents : Nat → α
  next : Nat

namespace Heap

variable {α : Type} (h : Heap α) {p : Nat}

def alloc (a : α) : Heap α where
  contents := Function.update h.contents h.next a
  next := h.next + 1

def set (p : Nat) (a : α) : Heap α := { h with contents := Function.update h.contents p a }

@[simp]
theorem contents_alloc (a : α) : (h.alloc a).contents h.next = a := Function.update_self _ _ _

theorem contents_alloc_of_lt (a : α) (hp : p < h.next) : (h.alloc a).contents p = h.contents p :=
  Function.update_of_ne (Nat.ne_of_lt hp) _ _

@[simp]
theorem next_alloc (a : α) : (h.alloc a).next = h.next + 1 := rfl

@[simp]
theorem contents_set (p : Nat) (a : α) : (h.set p a).contents p = a := Function.update_self _ _ _

theorem contents_set_of_ne (a : α) {p' : Nat} (hp : p' ≠ p) : (h.set p a).contents p' = h.contents p' :=
  Function.update_of_ne hp _ _

@[simp]
theorem next_set (p : Nat) (a : α) : (h.set p a).next = h.next := rfl

end Heap
