import CppStreamer.Basic.Checked

/-!
This module contains code that reads a memory at offsets of its own, and what it reads there as long as the memory holds
some data from a position on. What is behind the data is not known.
-/

namespace Reading

variable {β : Type}

/--
A range of the memory that is read.
-/
structure Span where
  offset : Nat
  len : Nat
  deriving DecidableEq, Repr

/--
The range ends within the first `total` bytes.
-/
def Span.Within (total : Nat) (span : Span) : Prop := span.offset + span.len ≤ total

def bytesAt (mem : Nat → β) (offset len : Nat) : List β := (List.range len).map fun i => mem (offset + i)

def readBytes (mem : Nat → β) (offset len : Nat) : Checked Span (List β) := do
  Checked.check ⟨offset, len⟩
  return bytesAt mem offset len

def readByte (mem : Nat → β) (offset : Nat) : Checked Span β := do
  Checked.check ⟨offset, 1⟩
  return mem offset

/--
The memory holds the data from a position on.
-/
def HoldsAt (mem : Nat → β) (pos : Nat) (data : List β) : Prop :=
  ∀ i (h : i < data.length), mem (pos + i) = data[i]

section Rules

variable {mem : Nat → β} {pos offset len total : Nat} {data front rest : List β}

@[simp]
theorem length_bytesAt : (bytesAt mem offset len).length = len := by
  unfold bytesAt
  rw [List.length_map, List.length_range]

@[simp]
theorem readBytes_value : (readBytes mem offset len).value = bytesAt mem offset len := rfl

@[simp]
theorem readByte_value : (readByte mem offset).value = mem offset := rfl

@[simp]
theorem readBytes_passes : (readBytes mem offset len).Passes (Span.Within total) ↔ offset + len ≤ total := by
  simp [readBytes, Span.Within]

@[simp]
theorem readByte_passes : (readByte mem offset).Passes (Span.Within total) ↔ offset + 1 ≤ total := by
  simp [readByte, Span.Within]

theorem HoldsAt.right (h : HoldsAt mem pos (front ++ rest)) (hpos : offset = pos + front.length)
    : HoldsAt mem offset rest := by
  intro i hi
  have hbyte := h (front.length + i) (by rw [List.length_append]; omega)
  rw [List.getElem_append_right (Nat.le_add_right _ _)] at hbyte
  simp only [Nat.add_sub_cancel_left] at hbyte
  rw [hpos, Nat.add_assoc]
  exact hbyte

theorem HoldsAt.left (h : HoldsAt mem pos (front ++ rest)) : HoldsAt mem pos front := by
  intro i hi
  have hbyte := h i (by rw [List.length_append]; omega)
  rwa [List.getElem_append_left hi] at hbyte

theorem HoldsAt.drop (h : HoldsAt mem pos data) (len : Nat) : HoldsAt mem (pos + len) (data.drop len) := by
  intro i hi
  rw [List.length_drop] at hi
  rw [List.getElem_drop, Nat.add_assoc]
  exact h (len + i) (by omega)

theorem HoldsAt.behind (h : HoldsAt mem 0 data) (len : Nat) : HoldsAt mem len (data.drop len) := by
  have hdrop := h.drop len
  rwa [Nat.zero_add] at hdrop

theorem HoldsAt.getD {i : Nat} (h : HoldsAt mem pos data) (hi : i < data.length) (b : β)
    : mem (pos + i) = data.getD i b := by
  rw [h i hi, List.getElem_eq_getD b]

theorem HoldsAt.head {b : β} (h : HoldsAt mem pos (b :: data)) : mem pos = b := h 0 (Nat.succ_pos _)

theorem HoldsAt.tail {b : β} (h : HoldsAt mem pos (b :: data)) : HoldsAt mem (pos + 1) data :=
  h.drop 1

theorem bytesAt_eq (h : HoldsAt mem pos data) : bytesAt mem pos data.length = data := by
  apply List.ext_getElem
  . exact length_bytesAt
  . intro i _ hi
    simp only [bytesAt, List.getElem_map, List.getElem_range]
    exact h i hi

/--
The data that is read is in front of the rest.
-/
theorem bytesAt_append (h : HoldsAt mem pos (front ++ rest)) (hlen : len = front.length)
    : bytesAt mem pos len = front := by
  rw [hlen]
  exact bytesAt_eq h.left

theorem bytesAt_take (h : HoldsAt mem pos data) (hlen : len ≤ data.length) : bytesAt mem pos len = data.take len := by
  rw [← List.take_append_drop len data] at h
  apply bytesAt_append h
  rw [List.length_take]
  omega

theorem end_right (h : pos + (front ++ rest).length = total) : pos + front.length + rest.length = total := by
  rw [← h, List.length_append, Nat.add_assoc]

/--
A memory that holds the data in front of it.
-/
theorem holdsAt_getD (data : List β) (b : β) : HoldsAt (data.getD · b) 0 data := by
  intro i hi
  simp only [Nat.zero_add]
  exact (List.getElem_eq_getD b).symm

end Rules

end Reading
