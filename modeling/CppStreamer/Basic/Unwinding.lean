import Mathlib.Data.List.Basic
import Mathlib.Data.Option.Basic

/-!
This module contains runs of machines whose actions belong to different parties, seen by one of them. Where the actions
of the others do not change what the party sees, and it can tell from that what its own ones do, the view at the end of
a run depends on its own actions only.
-/

namespace Unwinding

variable {σ α ν : Type} {step : σ → α → Option σ} {ok ok' : σ → α → Prop} {view : σ → ν} {own : α → Bool}
variable {s s' t t' : σ} {as bs : List α}

/--
Every action of a run is taken in a state that it is fit for.
-/
def Along (step : σ → α → Option σ) (ok : σ → α → Prop) : σ → List α → Prop
  | _, [] => True
  | s, a :: as => ok s a ∧ ∀ s' ∈ step s a, Along step ok s' as

instance Along.decide [∀ s a, Decidable (ok s a)] (s : σ) (as : List α) : Decidable (Along step ok s as) :=
  match as with
  | [] => inferInstanceAs (Decidable True)
  | a :: as =>
    have : ∀ s', Decidable (Along step ok s' as) := fun s' => Along.decide s' as
    inferInstanceAs (Decidable (ok s a ∧ ∀ s' ∈ step s a, Along step ok s' as))

theorem foldlM_cons_iff {a : α}
    : (a :: as).foldlM step s = some t ↔ ∃ s', step s a = some s' ∧ as.foldlM step s' = some t := by
  rw [List.foldlM_cons]
  exact Option.bind_eq_some_iff

theorem foldlM_append_iff
    : (as ++ bs).foldlM step s = some t ↔ ∃ s', as.foldlM step s = some s' ∧ bs.foldlM step s' = some t := by
  rw [List.foldlM_append]
  exact Option.bind_eq_some_iff

theorem Along.append_iff
    : Along step ok s (as ++ bs)
      ↔ Along step ok s as ∧ ∀ s', as.foldlM step s = some s' → Along step ok s' bs := by
  induction as generalizing s with
  | nil =>
    constructor
    . rintro h
      refine ⟨trivial, ?_⟩
      rintro s' hs'
      cases hs'
      exact h
    . rintro ⟨-, h⟩
      exact h s rfl
  | cons a as ih =>
    simp only [List.cons_append, Along, foldlM_cons_iff, ih, Option.mem_def]
    constructor
    . rintro ⟨hok, h⟩
      refine ⟨⟨hok, fun s' hs' => (h s' hs').left⟩, ?_⟩
      rintro t ⟨s', hs', hrun⟩
      exact (h s' hs').right t hrun
    . rintro ⟨⟨hok, has⟩, hbs⟩
      exact ⟨hok, fun s' hs' => ⟨has s' hs', fun t hrun => hbs t ⟨s', hs', hrun⟩⟩⟩

theorem Along.imp (h : Along step ok s as) (himp : ∀ s, ∀ a ∈ as, ok s a → ok' s a) : Along step ok' s as := by
  induction as generalizing s with
  | nil => trivial
  | cons a as ih =>
    obtain ⟨hok, hrest⟩ := h
    refine ⟨himp s a List.mem_cons_self hok, ?_⟩
    intro s' hs'
    exact ih (hrest s' hs') fun s b hb => himp s b (List.mem_cons_of_mem _ hb)

/--
The conditions on one step that the view of a party is its own under.
-/
structure Unwinds (step : σ → α → Option σ) (ok : σ → α → Prop) (view : σ → ν) (own : α → Bool) : Prop where
  respects : ∀ {s s' a}, own a = false → ok s a → step s a = some s' → view s' = view s
  consistent : ∀ {s s' t t' a}, own a = true → ok s a → ok t a → step s a = some s' → step t a = some t'
    → view s = view t → view s' = view t'

theorem Unwinds.view_of_others (h : Unwinds step ok view own) (hok : Along step ok s as)
    (hrun : as.foldlM step s = some s') (hothers : ∀ a ∈ as, own a = false)
    : view s' = view s := by
  induction as generalizing s with
  | nil =>
    cases hrun
    rfl
  | cons a as ih =>
    obtain ⟨s₁, hstep, hrun⟩ := foldlM_cons_iff.mp hrun
    obtain ⟨ha, hok⟩ := hok
    have hrest := ih (hok s₁ hstep) hrun fun b hb => hothers b (List.mem_cons_of_mem _ hb)
    rw [hrest]
    exact h.respects (hothers a List.mem_cons_self) ha hstep

/--
Two runs with the same actions of a party end in the same view of it.
-/
theorem Unwinds.view_eq (h : Unwinds step ok view own) (hs : Along step ok s as) (ht : Along step ok t bs)
    (hruns : as.foldlM step s = some s') (hrunt : bs.foldlM step t = some t')
    (hown : as.filter own = bs.filter own) (hview : view s = view t)
    : view s' = view t' := by
  induction as generalizing s t bs with
  | nil =>
    cases hruns
    have hothers : ∀ b ∈ bs, own b = false := by
      intro b hb
      exact eq_false_of_ne_true (List.filter_eq_nil_iff.mp hown.symm b hb)
    rw [hview, h.view_of_others ht hrunt hothers]
  | cons a as ih =>
    obtain ⟨s₁, hstep, hruns⟩ := foldlM_cons_iff.mp hruns
    obtain ⟨ha, hs⟩ := hs
    cases hcase : own a with
    | false =>
      rw [List.filter_cons_of_neg (by simp [hcase])] at hown
      exact ih (hs s₁ hstep) ht hruns hrunt hown ((h.respects hcase ha hstep).trans hview)
    | true =>
      -- The other run does some actions of others, and then the same one.
      rw [List.filter_cons_of_pos hcase] at hown
      obtain ⟨front, back, rfl, hothers, -, hback⟩ := List.filter_eq_cons_iff.mp hown.symm
      obtain ⟨t₁, hfront, hrunt⟩ := foldlM_append_iff.mp hrunt
      obtain ⟨t₂, hstep', hrunt⟩ := foldlM_cons_iff.mp hrunt
      obtain ⟨htfront, htback⟩ := Along.append_iff.mp ht
      obtain ⟨ha', ht⟩ := htback t₁ hfront
      have hview₁ := h.view_of_others htfront hfront fun b hb => eq_false_of_ne_true (hothers b hb)
      have hview₂ := h.consistent hcase ha ha' hstep hstep' (hview.trans hview₁.symm)
      exact ih (hs s₁ hstep) (ht t₂ hstep') hruns hrunt hback.symm hview₂

end Unwinding
