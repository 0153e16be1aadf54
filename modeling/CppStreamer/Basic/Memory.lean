import Mathlib.Algebra.Order.Ring.Int
import Mathlib.Data.List.Basic

/-!
This module contains flat memory: reading and writing of ranges, what a write leaves alone, and when
the copy of a range is within its allocation and free of overlap.
-/

/--
The contents of an allocation by offset. What has not been written yet is `none`.
-/
abbrev Memory (α : Type) := Nat → Option α

namespace Memory

variable {α : Type}

def read (mem : Memory α) (offset len : Nat) : List (Option α) :=
  (List.range len).map (fun i => mem (offset + i))

def write (mem : Memory α) (offset : Nat) (cells : List (Option α)) : Memory α :=
  fun i => if i < offset then mem i else (cells[i - offset]?).getD (mem i)

@[simp]
theorem length_read (mem : Memory α) (offset len : Nat) : (mem.read offset len).length = len := by
  simp [read]

theorem getElem?_read (mem : Memory α) (offset : Nat) {len i : Nat} (h : i < len)
    : (mem.read offset len)[i]? = some (mem (offset + i)) := by
  simp [read, h]

theorem write_of_lt (mem : Memory α) {offset i : Nat} (cells : List (Option α)) (h : i < offset)
    : mem.write offset cells i = mem i := by
  unfold write
  rw [if_pos h]

theorem write_add (mem : Memory α) (offset : Nat) {cells : List (Option α)} {i : Nat} {x : Option α}
    (h : cells[i]? = some x)
    : mem.write offset cells (offset + i) = x := by
  unfold write
  rw [if_neg (by omega), Nat.add_sub_cancel_left, h]
  rfl

/--
Whether the cells from an offset on are the given ones, as far as these are known.
-/
def Holds (mem : Memory α) (offset : Nat) (cells : List (Option α)) : Prop :=
  ∀ i x, cells[i]? = some (some x) → mem (offset + i) = some x

theorem Holds.append {mem : Memory α} {offset : Nat} {left right : List (Option α)}
    (hleft : mem.Holds offset left) (hright : mem.Holds (offset + left.length) right)
    : mem.Holds offset (left ++ right) := by
  intro i x h
  by_cases hi : i < left.length
  . rw [List.getElem?_append_left hi] at h
    apply hleft _ _ h
  . rw [List.getElem?_append_right (by omega)] at h
    have := hright _ _ h
    rwa [show offset + left.length + (i - left.length) = offset + i by omega] at this

theorem Holds.drop {mem : Memory α} {offset : Nat} {cells : List (Option α)}
    (h : mem.Holds offset cells) (len : Nat)
    : mem.Holds (offset + len) (cells.drop len) := by
  intro i x hi
  rw [List.getElem?_drop] at hi
  rw [Nat.add_assoc]
  apply h _ _ hi

theorem Holds.write_self (mem : Memory α) (offset : Nat) (cells : List (Option α))
    : (mem.write offset cells).Holds offset cells := by
  intro i x h
  apply write_add mem offset h

theorem Holds.write {mem : Memory α} {offset : Nat} {cells : List (Option α)}
    (h : mem.Holds offset cells) {at_ : Nat} (other : List (Option α))
    (hat : offset + cells.length ≤ at_)
    : (mem.write at_ other).Holds offset cells := by
  intro i x hi
  have hlt : i < cells.length := by
    by_contra hge
    rw [List.getElem?_eq_none (by omega)] at hi
    cases hi
  rw [write_of_lt mem other (by omega)]
  apply h _ _ hi

theorem Holds.copy {mem : Memory α} {offset : Nat} {cells : List (Option α)}
    (h : mem.Holds offset cells) (target : Memory α) (at_ : Nat)
    : (target.write at_ (mem.read offset cells.length)).Holds at_ cells := by
  intro i x hi
  have hlt : i < cells.length := by
    by_contra hge
    rw [List.getElem?_eq_none (by omega)] at hi
    cases hi
  rw [write_add target at_ (mem.getElem?_read offset hlt)]
  apply h _ _ hi

/--
A copy of `len` cells into an allocation of `size` cells. The source has an offset if it is the same
allocation.
-/
structure Copy where
  size : Nat
  dst : Nat
  src : Option Nat
  len : Nat
  deriving DecidableEq, Repr

namespace Copy

def InBounds (c : Copy) : Prop := c.dst + c.len ≤ c.size

def Disjoint (c : Copy) : Prop :=
  ∀ src, c.src = some src → c.len = 0 ∨ src + c.len ≤ c.dst ∨ c.dst + c.len ≤ src

theorem disjoint_of_none {size dst len : Nat} : (Copy.mk size dst none len).Disjoint := by
  intro src h
  cases h

end Copy

end Memory
