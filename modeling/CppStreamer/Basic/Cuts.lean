import Mathlib.Algebra.Order.Ring.Int
import Mathlib.Data.List.Basic

/-!
This module contains a stream that is cut into pieces: what is left of the pieces behind its beginning, and
pieces that are held back until there is enough of them. With each piece goes the time of its arrival.
-/

namespace Cuts

variable {τ β : Type}

def stream (cuts : List (τ × List β)) : List β := (cuts.map Prod.snd).flatten

@[simp]
theorem stream_nil : stream ([] : List (τ × List β)) = [] := rfl

@[simp]
theorem stream_cons (t : τ) (data : List β) (cuts : List (τ × List β))
    : stream ((t, data) :: cuts) = data ++ stream cuts := rfl

/--
The first piece, nothing if there is none.
-/
def first : List (τ × List β) → List β
  | [] => []
  | (_, data) :: _ => data

theorem stream_eq_first_append (cuts : List (τ × List β)) : stream cuts = first cuts ++ stream cuts.tail := by
  cases cuts
  all_goals rfl

/--
The pieces behind the first `n` elements. The one in which these end is the first, even if nothing is left of it.
-/
def behind (n : Nat) : List (τ × List β) → List (τ × List β)
  | [] => []
  | (t, data) :: cuts => if n ≤ data.length then (t, data.drop n) :: cuts else behind (n - data.length) cuts

theorem stream_behind (n : Nat) (cuts : List (τ × List β)) : stream (behind n cuts) = (stream cuts).drop n := by
  induction cuts generalizing n with
  | nil => rw [behind, stream_nil, List.drop_nil]
  | cons cut cuts ih =>
    obtain ⟨t, data⟩ := cut
    rw [behind, stream_cons]
    split
    . next hle => rw [stream_cons, List.drop_append_of_le_length hle]
    . next hlt =>
      have hnil : data.drop n = [] := List.drop_eq_nil_of_le (by omega)
      rw [ih, List.drop_append, hnil, List.nil_append]

/--
Pieces are put together until there are `n` elements. What does not reach this number is left out.
-/
def gather (n : Int) (held : List β) : List (τ × List β) → List (τ × List β)
  | [] => []
  | (t, data) :: cuts =>
    if n ≤ (held ++ data).length then (t, held ++ data) :: gather n [] cuts else gather n (held ++ data) cuts

theorem gather_of_nonpos {n : Int} (hn : n ≤ 0) (cuts : List (τ × List β)) : gather n [] cuts = cuts := by
  induction cuts with
  | nil => rfl
  | cons cut cuts ih =>
    obtain ⟨t, data⟩ := cut
    rw [gather, if_pos (by omega), ih, List.nil_append]

theorem gather_cons_of_le {n : Int} {held : List β} (hle : n ≤ held.length) (t : τ) (cuts : List (τ × List β))
    : gather n [] ((t, held) :: cuts) = (t, held) :: gather n [] cuts := by
  rw [gather, List.nil_append, if_pos hle]

/--
A piece that does not suffice is put in front of the next one.
-/
theorem gather_cons_of_lt {n : Int} {held : List β} (hlt : ¬n ≤ held.length) (t : τ) (cuts : List (τ × List β))
    : gather n [] ((t, held) :: cuts) = gather n held cuts := by
  rw [gather, List.nil_append, if_neg hlt]

theorem gather_cons_append (n : Int) (held data : List β) (t : τ) (cuts : List (τ × List β))
    : gather n held ((t, data) :: cuts) = gather n [] ((t, held ++ data) :: cuts) := by
  rw [gather, gather, List.nil_append]

theorem le_length_of_mem_gather {n : Int} {held : List β} {cuts : List (τ × List β)}
    : ∀ cut ∈ gather n held cuts, n ≤ cut.2.length := by
  induction cuts generalizing held with
  | nil =>
    intro cut hcut
    cases hcut
  | cons cut cuts ih =>
    obtain ⟨t, data⟩ := cut
    rw [gather]
    split
    . next hle =>
      rw [List.forall_mem_cons]
      exact ⟨hle, ih⟩
    . exact ih

/--
The pieces, each with how much of the stream there is by then.
-/
def placed (pos : Nat) : List (τ × List β) → List (τ × Nat × List β)
  | [] => []
  | (t, data) :: cuts => (t, pos + data.length, data) :: placed (pos + data.length) cuts

def cuts (pieces : List (τ × Nat × List β)) : List (τ × List β) := pieces.map fun (t, _, data) => (t, data)

@[simp]
theorem cuts_placed (pos : Nat) (pieces : List (τ × List β)) : cuts (placed pos pieces) = pieces := by
  induction pieces generalizing pos with
  | nil => rfl
  | cons piece pieces ih =>
    obtain ⟨t, data⟩ := piece
    exact congrArg ((t, data) :: ·) (ih (pos + data.length))

end Cuts
