import Mathlib.Algebra.Order.Ring.Int
import Mathlib.Control.Monad.Writer
import Mathlib.Data.List.Basic

/-!
This module contains computations that note down what they rely on, and the rules for showing that they
rely on nothing wrong. A computation goes on behind a check that fails, what it comes to there has no meaning.
-/

variable {κ α β : Type}

abbrev Checked (κ α : Type) : Type := Writer (List κ) α

namespace Checked

/--
Note down one check.
-/
def check (c : κ) : Checked κ Unit := tell [c]

def log (m : Checked κ α) : List κ := m.run.2

def value (m : Checked κ α) : α := m.run.1

/--
Every check that is noted down holds.
-/
def Passes (P : κ → Prop) (m : Checked κ α) : Prop := ∀ c ∈ m.log, P c

section Rules

variable {P : κ → Prop} {m : Checked κ α} {f : α → Checked κ β}

@[simp]
theorem value_pure (a : α) : (pure a : Checked κ α).value = a := rfl

@[simp]
theorem value_bind : (m >>= f).value = (f m.value).value := rfl

@[simp]
theorem value_check (c : κ) : (check c).value = () := rfl

theorem log_bind : (m >>= f).log = m.log ++ (f m.value).log := rfl

@[simp]
theorem passes_pure (a : α) : (pure a : Checked κ α).Passes P := by
  intro c hc
  cases hc

@[simp]
theorem passes_bind : (m >>= f).Passes P ↔ m.Passes P ∧ (f m.value).Passes P := by
  unfold Passes
  rw [log_bind, List.forall_mem_append]

@[simp]
theorem passes_check (c : κ) : (check c).Passes P ↔ P c := by
  unfold Passes
  change (∀ c' ∈ [c], P c') ↔ _
  rw [List.forall_mem_singleton]

@[simp]
theorem passes_ite {p : Prop} [Decidable p] {m' : Checked κ α}
    : (if p then m else m').Passes P ↔ (p → m.Passes P) ∧ (¬p → m'.Passes P) := by
  split
  . next h => simp [h]
  . next h => simp [h]

end Rules

section Run

variable {σ : Type} {P : κ → Prop} {step : σ → α → Checked κ σ}

/--
The inputs one after the other.
-/
def run (step : σ → α → Checked κ σ) : σ → List α → Checked κ σ
  | s, [] => pure s
  | s, a :: as => step s a >>= fun s => run step s as

/--
Every input meets the condition, in the state in which it comes.
-/
def RunMeets (step : σ → α → Checked κ σ) (meets : σ → α → Prop) : σ → List α → Prop
  | _, [] => True
  | s, a :: as => meets s a ∧ RunMeets step meets (step s a).value as

theorem runMeets_iff_forall {p : α → Prop} {s : σ} {as : List α}
    : RunMeets step (fun _ => p) s as ↔ ∀ a ∈ as, p a := by
  induction as generalizing s with
  | nil => simp [RunMeets]
  | cons a as ih => simp [RunMeets, ih]

/--
What every step does to the state, the run does.
-/
theorem run_related (R : σ → σ → Prop) (hrefl : ∀ s, R s s) (htrans : ∀ s s' s'', R s s' → R s' s'' → R s s'')
    {s : σ} {as : List α} (h : RunMeets step (fun s a => R s (step s a).value) s as)
    : R s (run step s as).value := by
  induction as generalizing s with
  | nil => exact hrefl s
  | cons a as ih => exact htrans _ _ _ h.left (ih h.right)

theorem run_map (f : β → α) (s : σ) (bs : List β) : run step s (bs.map f) = run (fun s b => step s (f b)) s bs := by
  induction bs generalizing s with
  | nil => rfl
  | cons b bs ih =>
    rw [List.map_cons, run, run]
    congr 1
    funext s
    apply ih

theorem run_append_value (s : σ) (as as' : List α)
    : (run step s (as ++ as')).value = (run step (run step s as).value as').value := by
  induction as generalizing s with
  | nil => rfl
  | cons a as ih =>
    rw [List.cons_append, run, run, value_bind, value_bind]
    apply ih

theorem run_append_passes (s : σ) (as as' : List α)
    : (run step s (as ++ as')).Passes P
        ↔ (run step s as).Passes P ∧ (run step (run step s as).value as').Passes P := by
  induction as generalizing s with
  | nil => exact (and_iff_right (passes_pure s)).symm
  | cons a as ih => rw [List.cons_append, run, run, passes_bind, passes_bind, value_bind, ih, and_assoc]

/--
A run whose steps are runs themselves.
-/
theorem run_flatMap (parts : β → List α) (s : σ) (bs : List β)
    : ((run (fun s b => run step s (parts b)) s bs).Passes P ↔ (run step s (bs.flatMap parts)).Passes P)
        ∧ (run (fun s b => run step s (parts b)) s bs).value = (run step s (bs.flatMap parts)).value := by
  induction bs generalizing s with
  | nil => exact ⟨Iff.rfl, rfl⟩
  | cons b bs ih =>
    obtain ⟨hpasses, hvalue⟩ := ih (run step s (parts b)).value
    rw [List.flatMap_cons, run, passes_bind, value_bind, run_append_passes, run_append_value, hpasses, hvalue]
    exact ⟨Iff.rfl, rfl⟩

/--
What every step commutes with, the run does.
-/
theorem run_commutes (f : σ → σ) (hstep : ∀ s a, (step (f s) a).value = f (step s a).value) (s : σ) (as : List α)
    : (run step (f s) as).value = f (run step s as).value := by
  induction as generalizing s with
  | nil => rfl
  | cons a as ih =>
    rw [run, run, value_bind, value_bind, hstep]
    apply ih

theorem run_keeps (inv : σ → Prop) (meets : σ → α → Prop)
    (hkeep : ∀ s a, inv s → meets s a → inv (step s a).value) {s : σ} {as : List α} (hinv : inv s)
    (hmeets : RunMeets step meets s as)
    : inv (run step s as).value := by
  induction as generalizing s with
  | nil => exact hinv
  | cons a as ih => exact ih (hkeep s a hinv hmeets.left) hmeets.right

/--
A run passes if each input meets the condition for a step to pass. The invariant is only kept by such steps.
-/
theorem run_passes_iff_runMeets (inv : σ → Prop) (meets : σ → α → Prop)
    (hstep : ∀ s a, inv s → ((step s a).Passes P ↔ meets s a))
    (hkeep : ∀ s a, inv s → meets s a → inv (step s a).value) {s : σ} (hinv : inv s) (as : List α)
    : (run step s as).Passes P ↔ RunMeets step meets s as := by
  induction as generalizing s with
  | nil => exact iff_of_true (passes_pure s) trivial
  | cons a as ih =>
    rw [run, passes_bind, hstep s a hinv, RunMeets]
    apply and_congr_right
    intro hmeets
    exact ih (hkeep s a hinv hmeets)

end Run

end Checked
