import CppStreamer.Basic.Checked

/-!
This module contains computations that note down what they rely on, may throw an exception and may have loops that do not
end, and the rules for showing that they end and rely on nothing wrong.

A loop is given a number of turns. Where it needs more of them this is noted down as well, and a computation ends if
there is a number with which it does not come to this.
-/

variable {κ α β σ : Type}

/--
What has been noted down, where `none` is a loop whose turns are used up, and what is returned, which is `none` for an
exception.
-/
structure Attempt (κ α : Type) where
  value : Option α
  log : List (Option κ)

namespace Attempt

/--
What is noted down is a check that holds.
-/
def Held (P : κ → Prop) : Option κ → Prop
  | none => False
  | some c => P c

def Passes (P : Option κ → Prop) (m : Attempt κ α) : Prop := ∀ c ∈ m.log, P c

/--
No loop needs more turns than it has.
-/
def Whole (m : Attempt κ α) : Prop := m.Passes (· ≠ none)

def ret (a : α) : Attempt κ α := ⟨some a, []⟩

def throw : Attempt κ α := ⟨none, []⟩

def note (c : Option κ) (r : Option α) : Attempt κ α := ⟨r, [c]⟩

def bind (m : Attempt κ α) (f : α → Attempt κ β) : Attempt κ β :=
  match m.value with
  | none => ⟨none, m.log⟩
  | some a => ⟨(f a).value, m.log ++ (f a).log⟩

section Rules

variable {P : Option κ → Prop} {P' : κ → Prop} {m : Attempt κ α} {f f' : α → Attempt κ β} {a : α} {b : β}

@[simp]
theorem passes_ret : (ret a : Attempt κ α).Passes P := nofun

@[simp]
theorem passes_throw : (throw : Attempt κ α).Passes P := nofun

@[simp]
theorem passes_note {c : Option κ} {r : Option α} : (note c r).Passes P ↔ P c := List.forall_mem_singleton

@[simp]
theorem value_ret : (ret a : Attempt κ α).value = some a := rfl

@[simp]
theorem value_throw : (throw : Attempt κ α).value = none := rfl

@[simp]
theorem value_note {c : Option κ} {r : Option α} : (note c r).value = r := rfl

theorem bind_congr (h : ∀ a, m.value = some a → f a = f' a) : m.bind f = m.bind f' := by
  unfold bind
  split
  . rfl
  . next a ha => rw [h a ha]

theorem passes_bind : (m.bind f).Passes P ↔ m.Passes P ∧ ∀ a, m.value = some a → (f a).Passes P := by
  unfold bind
  cases m.value with
  | none => exact (and_iff_left nofun).symm
  | some a =>
    simp only [Option.some.injEq, forall_eq']
    exact List.forall_mem_append

theorem value_bind : (m.bind f).value = some b ↔ ∃ a, m.value = some a ∧ (f a).value = some b := by
  unfold bind
  cases m.value with
  | none =>
    apply iff_of_false nofun
    rintro ⟨_, ⟨⟩, -⟩
  | some a => simp only [Option.some.injEq, exists_eq_left']

theorem whole_of_held (h : m.Passes (Held P')) : m.Whole := by
  rintro c hc rfl
  exact h none hc

end Rules

end Attempt

/--
A computation as what it comes to with each number of turns. Turns that are not needed make no difference.
-/
structure Looping (κ α : Type) where
  attempt : Nat → Attempt κ α
  stable : ∀ turns, (attempt turns).Whole → attempt (turns + 1) = attempt turns

namespace Looping

open Attempt

def ret (a : α) : Looping κ α where
  attempt _ := .ret a
  stable _ _ := rfl

def throw : Looping κ α where
  attempt _ := .throw
  stable _ _ := rfl

def check (c : κ) : Looping κ Unit where
  attempt _ := .note (some c) (some ())
  stable _ _ := rfl

def bind (w : Looping κ α) (f : α → Looping κ β) : Looping κ β where
  attempt turns := (w.attempt turns).bind fun a => (f a).attempt turns
  stable turns h := by
    unfold Attempt.Whole at h
    rw [Attempt.passes_bind] at h
    rw [w.stable turns h.left]
    apply Attempt.bind_congr
    intro a ha
    exact (f a).stable turns (h.right a ha)

instance : Monad (Looping κ) where
  pure := ret
  bind := bind

/--
What a computation without loops notes down and returns.
-/
def lift {κ' : Type} (note : κ' → κ) (m : Checked κ' α) : Looping κ α where
  attempt _ := ⟨some m.value, m.log.map fun c => some (note c)⟩
  stable _ _ := rfl

/--
A loop with a number of turns. Each turn leaves the rest of them to the loops that it has itself.
-/
def turnsOf (more : σ → Bool) (body : σ → Looping κ σ) : Nat → σ → Attempt κ σ
  | 0, _ => .note none none
  | turns + 1, s => if more s then ((body s).attempt turns).bind (turnsOf more body turns) else .ret s

theorem turnsOf_stable (more : σ → Bool) (body : σ → Looping κ σ) (turns : Nat) (s : σ)
    (h : (turnsOf more body turns s).Whole)
    : turnsOf more body (turns + 1) s = turnsOf more body turns s := by
  induction turns generalizing s with
  | zero => exact absurd rfl (h none List.mem_cons_self)
  | succ turns ih =>
    rw [turnsOf] at h
    rw [turnsOf, turnsOf]
    split
    . next hmore =>
      rw [if_pos hmore] at h
      unfold Attempt.Whole at h
      rw [Attempt.passes_bind] at h
      rw [(body s).stable turns h.left]
      apply Attempt.bind_congr
      intro s' hs'
      exact ih s' (h.right s' hs')
    . rfl

/--
A `while` loop.
-/
def loop (more : σ → Bool) (body : σ → Looping κ σ) (s : σ) : Looping κ σ where
  attempt turns := turnsOf more body turns s
  stable turns := turnsOf_stable more body turns s

/--
A `for` loop with a counter.
-/
def times (body : σ → Looping κ σ) : Nat → σ → Looping κ σ
  | 0, s => ret s
  | count + 1, s => bind (body s) (times body count)

/--
With some number of turns the computation ends, every check that it has noted down holds, and so does `Q` for what it
returns, unless it throws.
-/
def Ends (P : κ → Prop) (w : Looping κ α) (Q : α → Prop) : Prop :=
  ∃ turns, (w.attempt turns).Passes (Held P) ∧ ∀ a, (w.attempt turns).value = some a → Q a

/--
With some number of turns the computation returns `a`, and every check that it has noted down holds.
-/
def Returns (P : κ → Prop) (w : Looping κ α) (a : α) : Prop :=
  ∃ turns, (w.attempt turns).Passes (Held P) ∧ (w.attempt turns).value = some a

section Rules

variable {P : κ → Prop} {Q R : α → Prop} {w : Looping κ α} {f : α → Looping κ β} {S : β → Prop}

theorem attempt_eq {turns more : Nat} (h : (w.attempt turns).Passes (Held P)) (hle : turns ≤ more)
    : w.attempt more = w.attempt turns := by
  induction hle with
  | refl => rfl
  | @step more _ ih =>
    rw [w.stable more, ih]
    rw [ih]
    exact Attempt.whole_of_held h

theorem Ends.mono (h : w.Ends P Q) (hQR : ∀ a, Q a → R a) : w.Ends P R := by
  obtain ⟨turns, hpasses, hvalue⟩ := h
  exact ⟨turns, hpasses, fun a ha => hQR a (hvalue a ha)⟩

theorem Returns.ends {a : α} (h : w.Returns P a) : w.Ends P (· = a) := by
  obtain ⟨turns, hpasses, hvalue⟩ := h
  refine ⟨turns, hpasses, ?_⟩
  intro a' ha'
  rw [hvalue] at ha'
  exact (Option.some.inj ha').symm

theorem returns_of_ends_iff {a : α} (h : ∀ Q, w.Ends P Q ↔ Q a) : w.Returns P a := by
  obtain ⟨turns, hpasses, hvalue⟩ := (h (· = a)).mpr rfl
  refine ⟨turns, hpasses, ?_⟩
  cases hr : (w.attempt turns).value with
  | none =>
    refine ((h fun _ => False).mp ⟨turns, hpasses, ?_⟩).elim
    intro a' ha'
    rw [hr] at ha'
    cases ha'
  | some a' => rw [hvalue a' hr]

@[simp]
theorem ends_pure (a : α) : (pure a : Looping κ α).Ends P Q ↔ Q a := by
  constructor
  . rintro ⟨turns, -, hvalue⟩
    exact hvalue a rfl
  . intro h
    refine ⟨0, Attempt.passes_ret, ?_⟩
    rintro _ ⟨⟩
    exact h

@[simp]
theorem ends_throw : (throw : Looping κ α).Ends P Q :=
  ⟨0, Attempt.passes_throw, nofun⟩

@[simp]
theorem ends_check (c : κ) {Q : Unit → Prop} : (check c).Ends P Q ↔ P c ∧ Q () := by
  constructor
  . rintro ⟨turns, hpasses, hvalue⟩
    exact ⟨hpasses _ List.mem_cons_self, hvalue () rfl⟩
  . rintro ⟨hc, hq⟩
    refine ⟨0, ?_, fun _ _ => hq⟩
    intro c' hc'
    cases List.mem_singleton.mp hc'
    exact hc

@[simp]
theorem ends_lift {κ' : Type} (note : κ' → κ) (m : Checked κ' α)
    : (lift note m).Ends P Q ↔ m.Passes (fun c => P (note c)) ∧ Q m.value := by
  constructor
  . rintro ⟨turns, hpasses, hvalue⟩
    refine ⟨?_, hvalue _ rfl⟩
    intro c hc
    exact hpasses _ (List.mem_map_of_mem hc)
  . rintro ⟨hpasses, hq⟩
    refine ⟨0, ?_, ?_⟩
    . intro c hc
      obtain ⟨c, hmem, rfl⟩ := List.mem_map.mp hc
      exact hpasses c hmem
    . rintro _ ⟨⟩
      exact hq

theorem ends_bind' : (bind w f).Ends P S ↔ w.Ends P fun a => (f a).Ends P S := by
  constructor
  . rintro ⟨turns, hpasses, hvalue⟩
    obtain ⟨hw, hf⟩ := Attempt.passes_bind.mp hpasses
    refine ⟨turns, hw, fun a ha => ⟨turns, hf a ha, ?_⟩⟩
    intro b hb
    exact hvalue b (Attempt.value_bind.mpr ⟨a, ha, hb⟩)
  . rintro ⟨turns, hw, hf⟩
    cases hr : (w.attempt turns).value with
    | none =>
      refine ⟨turns, Attempt.passes_bind.mpr ⟨hw, ?_⟩, ?_⟩
      . intro a ha
        rw [hr] at ha
        cases ha
      . intro b hb
        obtain ⟨a, ha, -⟩ := Attempt.value_bind.mp hb
        rw [hr] at ha
        cases ha
    | some a =>
      obtain ⟨turns', hfa, hvalue⟩ := hf a hr
      -- both parts end with the larger one of the two numbers
      have hw' := attempt_eq hw (Nat.le_max_left turns turns')
      have hf' := attempt_eq hfa (Nat.le_max_right turns turns')
      refine ⟨max turns turns', ?_, ?_⟩
      . refine Attempt.passes_bind.mpr ⟨hw' ▸ hw, ?_⟩
        intro a' ha'
        rw [hw', hr] at ha'
        cases ha'
        rw [hf']
        exact hfa
      . intro b hb
        obtain ⟨a', ha', hb⟩ := Attempt.value_bind.mp hb
        rw [hw', hr] at ha'
        cases ha'
        rw [hf'] at hb
        exact hvalue b hb

@[simp]
theorem ends_bind : (w >>= f).Ends P S ↔ w.Ends P fun a => (f a).Ends P S := ends_bind'

@[simp]
theorem ends_ite {p : Prop} [Decidable p] {w' : Looping κ α}
    : (if p then w else w').Ends P Q ↔ if p then w.Ends P Q else w'.Ends P Q := by
  split
  . rfl
  . rfl

end Rules

section Loops

variable {P : κ → Prop} {Q : σ → Prop} {more : σ → Bool} {body : σ → Looping κ σ}

/--
A loop is its first turn and the loop behind it.
-/
theorem ends_loop {s : σ}
    : (loop more body s).Ends P Q
        ↔ if more s then (body s).Ends P fun s' => (loop more body s').Ends P Q else Q s := by
  split
  . next hmore =>
    constructor
    . rintro ⟨turns, hpasses, hvalue⟩
      cases turns with
      | zero => exact absurd rfl (Attempt.whole_of_held hpasses none List.mem_cons_self)
      | succ turns =>
        change Attempt.Passes _ (turnsOf more body (turns + 1) s) at hpasses
        change ∀ a, Attempt.value (turnsOf more body (turns + 1) s) = some a → Q a at hvalue
        rw [turnsOf, if_pos hmore] at hpasses hvalue
        obtain ⟨hbody, hrest⟩ := Attempt.passes_bind.mp hpasses
        refine ⟨turns, hbody, fun s' hs' => ⟨turns, hrest s' hs', ?_⟩⟩
        intro s'' hs''
        exact hvalue s'' (Attempt.value_bind.mpr ⟨s', hs', hs''⟩)
    . intro h
      obtain ⟨turns, hpasses, hvalue⟩ := ends_bind'.mpr h
      refine ⟨turns + 1, ?_, ?_⟩
      . change Attempt.Passes _ (turnsOf more body (turns + 1) s)
        rw [turnsOf, if_pos hmore]
        exact hpasses
      . change ∀ a, Attempt.value (turnsOf more body (turns + 1) s) = some a → Q a
        rw [turnsOf, if_pos hmore]
        exact hvalue
  . next hmore =>
    constructor
    . rintro ⟨turns, hpasses, hvalue⟩
      cases turns with
      | zero => exact absurd rfl (Attempt.whole_of_held hpasses none List.mem_cons_self)
      | succ turns =>
        apply hvalue
        change Attempt.value (turnsOf more body (turns + 1) s) = some s
        rw [turnsOf, if_neg hmore]
        rfl
    . intro hq
      refine ⟨1, ?_, ?_⟩
      . change Attempt.Passes _ (turnsOf more body 1 s)
        rw [turnsOf, if_neg hmore]
        exact Attempt.passes_ret
      . change ∀ a, Attempt.value (turnsOf more body 1 s) = some a → Q a
        rw [turnsOf, if_neg hmore]
        rintro _ ⟨⟩
        exact hq

/--
The turns of a loop that ends: each of them is as `turn` says and leads to one from which the loop ends.
-/
inductive Chain (more : σ → Bool) (turn : σ → (σ → Prop) → Prop) (Q : σ → Prop) : σ → Prop where
  | done {s : σ} (hmore : more s = false) (hq : Q s) : Chain more turn Q s
  | next {s : σ} (R : σ → Prop) (hmore : more s = true) (hturn : turn s R) (hrest : ∀ s', R s' → Chain more turn Q s')
    : Chain more turn Q s

theorem chain_of_not_more {turn : σ → (σ → Prop) → Prop} {s : σ} (hmore : more s = false)
    : Chain more turn Q s ↔ Q s := by
  constructor
  . intro h
    cases h with
    | done _ hq => exact hq
    | next R hnot _ _ =>
      rw [hmore] at hnot
      cases hnot
  . exact .done hmore

theorem chain_step {turn : σ → (σ → Prop) → Prop} {s : σ} (s' : σ) (hmore : more s = true) (hturn : ∀ R, turn s R ↔ R s')
    : Chain more turn Q s ↔ Chain more turn Q s' := by
  constructor
  . intro h
    cases h with
    | done hnot _ =>
      rw [hmore] at hnot
      cases hnot
    | next R _ hs hrest => exact hrest s' ((hturn R).mp hs)
  . intro h
    refine .next (· = s') hmore ((hturn _).mpr rfl) ?_
    rintro _ rfl
    exact h

/--
A loop that comes back to a state does not end.
-/
theorem not_chain_of_back {turn : σ → (σ → Prop) → Prop} {s : σ} (hmore : more s = true) (hback : ∀ R, turn s R → R s)
    : ¬Chain more turn Q s := by
  intro h
  have hne (s' : σ) (h : Chain more turn Q s') : s' ≠ s := by
    induction h with
    | done hnot _ =>
      rintro rfl
      rw [hmore] at hnot
      cases hnot
    | next R _ hturn _ ih =>
      rintro rfl
      exact ih _ (hback R hturn) rfl
  exact hne s h rfl

theorem ends_loop_of_chain {turn : σ → (σ → Prop) → Prop} (hbody : ∀ s R, turn s R → (body s).Ends P R) {s : σ}
    (h : Chain more turn Q s)
    : (loop more body s).Ends P Q := by
  induction h with
  | done hmore hq =>
    rw [ends_loop, hmore]
    exact hq
  | next R hmore hturn _ ih =>
    rw [ends_loop, if_pos hmore]
    exact (hbody _ R hturn).mono ih

theorem chain_of_ends_loop {turn : σ → (σ → Prop) → Prop} (hbody : ∀ s R, (body s).Ends P R → turn s R) {s : σ}
    (h : (loop more body s).Ends P Q)
    : Chain more turn Q s := by
  obtain ⟨turns, hpasses, hvalue⟩ := h
  induction turns generalizing s with
  | zero => exact absurd rfl (Attempt.whole_of_held hpasses none List.mem_cons_self)
  | succ turns ih =>
    change Attempt.Passes _ (turnsOf more body (turns + 1) s) at hpasses
    change ∀ a, Attempt.value (turnsOf more body (turns + 1) s) = some a → Q a at hvalue
    rw [turnsOf] at hpasses hvalue
    cases hmore : more s with
    | false =>
      rw [hmore] at hvalue
      exact .done hmore (hvalue s rfl)
    | true =>
      rw [if_pos hmore] at hpasses hvalue
      obtain ⟨hturn, hrest⟩ := Attempt.passes_bind.mp hpasses
      refine .next (fun s' => ((body s).attempt turns).value = some s') hmore ?_ ?_
      . exact hbody s _ ⟨turns, hturn, fun _ hs' => hs'⟩
      . intro s' hs'
        apply ih (hrest s' hs')
        intro s'' hs''
        exact hvalue s'' (Attempt.value_bind.mpr ⟨s', hs', hs''⟩)

theorem ends_loop_iff_chain {turn : σ → (σ → Prop) → Prop} (hbody : ∀ s R, (body s).Ends P R ↔ turn s R) {s : σ}
    : (loop more body s).Ends P Q ↔ Chain more turn Q s :=
  ⟨chain_of_ends_loop fun s R => (hbody s R).mp, ends_loop_of_chain fun s R => (hbody s R).mpr⟩

/--
The turns of a loop with a counter, each as `turn` says.
-/
def Times (turn : σ → (σ → Prop) → Prop) (Q : σ → Prop) : Nat → σ → Prop
  | 0, s => Q s
  | count + 1, s => turn s (Times turn Q count)

theorem ends_times_zero {s : σ} : (times body 0 s).Ends P Q ↔ Q s := ends_pure s

theorem ends_times_succ {count : Nat} {s : σ}
    : (times body (count + 1) s).Ends P Q ↔ (body s).Ends P fun s' => (times body count s').Ends P Q :=
  ends_bind'

theorem ends_times_iff {turn : σ → (σ → Prop) → Prop} (hbody : ∀ s R, (body s).Ends P R ↔ turn s R) {count : Nat} {s : σ}
    : (times body count s).Ends P Q ↔ Times turn Q count s := by
  induction count generalizing s with
  | zero => exact ends_times_zero
  | succ count ih =>
    have hrest : (fun s' => (times body count s').Ends P Q) = Times turn Q count := funext fun s' => propext ih
    rw [ends_times_succ, hbody, hrest]
    rfl

end Loops

end Looping
