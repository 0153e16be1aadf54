import Mathlib.Algebra.Order.Ring.Int
import Mathlib.Data.List.Basic
import Mathlib.Data.List.Perm.Basic
import Mathlib.Logic.Function.Basic

/-!
This module contains runs of labelled transition systems, and systems that consist of one copy of a
smaller system for every key: their runs are the interleavings of the runs of the copies.
-/

namespace Interleave

variable {κ β σ : Type}

/--
The runs of a transition system from one state to another, along a list of labels.
-/
inductive Run (step : σ → β → σ → Prop) : σ → List β → σ → Prop where
  | nil (s : σ) : Run step s [] s
  | cons {s t u : σ} {b : β} {bs : List β} (h : step s b t) (hrun : Run step t bs u)
      : Run step s (b :: bs) u

variable {step : σ → β → σ → Prop}

theorem Run.eq_of_nil {s t : σ} (h : Run step s [] t) : s = t := by
  cases h
  rfl

theorem Run.append {s t u : σ} {bs cs : List β} (h : Run step s bs t) (h' : Run step t cs u)
    : Run step s (bs ++ cs) u := by
  induction h with
  | nil => exact h'
  | cons hstep _ ih => exact .cons hstep (ih h')

theorem Run.of_append {s u : σ} {bs cs : List β} (h : Run step s (bs ++ cs) u)
    : ∃ t, Run step s bs t ∧ Run step t cs u := by
  induction bs generalizing s with
  | nil => exact ⟨s, .nil s, h⟩
  | cons b bs ih =>
    cases h with
    | cons hstep hrun =>
      rcases ih hrun with ⟨t, hbs, hcs⟩
      exact ⟨t, .cons hstep hbs, hcs⟩

theorem Run.invariant {P : σ → Prop} (hstep : ∀ s b t, P s → step s b t → P t) {s t : σ}
    {bs : List β} (h : Run step s bs t) (hs : P s)
    : P t := by
  induction h with
  | nil => exact hs
  | cons hb _ ih =>
    apply ih
    apply hstep _ _ _ hs hb

section Prefix

variable {P : List β → β → Prop} {b : β} {bs : List β}

/--
What holds of no label of an empty run.
-/
theorem forall_prefix_nil : ∀ before c, before ++ [c] <+: [] → P before c := by
  intro before c hfront
  have hlength := hfront.length_le
  simp at hlength

/--
What holds of each label of a run, with the labels before it, holds of the first one and of those behind it.
-/
theorem forall_prefix_cons (hfirst : P [] b) (hrest : ∀ before c, before ++ [c] <+: bs → P (b :: before) c)
    : ∀ before c, before ++ [c] <+: b :: bs → P before c := by
  intro before c hfront
  cases before with
  | nil =>
    rw [List.nil_append, List.cons_prefix_cons] at hfront
    rw [hfront.left]
    exact hfirst
  | cons b' before =>
    rw [List.cons_append, List.cons_prefix_cons] at hfront
    rw [hfront.left]
    apply hrest before c hfront.right

end Prefix

section Lift

variable [DecidableEq κ] (key : β → κ)

/--
One copy of a system for every key, a label concerns the copy of its key.
-/
def lift (step : σ → β → σ → Prop) (f : κ → σ) (b : β) (f' : κ → σ) : Prop :=
  ∃ t, step (f (key b)) b t ∧ f' = Function.update f (key b) t

theorem run_lift {f f' : κ → σ} {bs : List β}
    (h : ∀ k, Run step (f k) (bs.filter fun b => key b = k) (f' k))
    : Run (lift key step) f bs f' := by
  induction bs generalizing f with
  | nil =>
    have : f = f' := by
      funext k
      exact (h k).eq_of_nil
    rw [this]
    exact .nil f'
  | cons b bs ih =>
    have hb := h (key b)
    rw [List.filter_cons_of_pos (by simp)] at hb
    cases hb with
    | @cons _ t _ _ _ hstep hrun =>
      refine .cons ⟨t, hstep, rfl⟩ (ih ?_)
      intro k
      by_cases hk : k = key b
      . rw [hk, Function.update_self]
        exact hrun
      . have := h k
        rw [List.filter_cons_of_neg (by simpa using Ne.symm hk)] at this
        rw [Function.update_of_ne hk]
        exact this

/--
Two lists with the same elements in the same order under every key are rearrangements of each other.
-/
theorem perm_of_filter_eq {bs cs : List β}
    (h : ∀ k, (bs.filter fun b => key b = k) = cs.filter fun b => key b = k) : bs.Perm cs := by
  classical
  rw [List.perm_iff_count]
  intro a
  have hcount (l : List β) : (l.filter fun b => key b = key a).count a = l.count a :=
    List.count_filter (by simp)
  rw [← hcount bs, ← hcount cs, h]

end Lift

end Interleave
