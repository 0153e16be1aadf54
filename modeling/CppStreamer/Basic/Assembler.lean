import Mathlib.Algebra.Order.Ring.Int
import Mathlib.Data.List.Chain

/-!
This module contains machines that put the pieces of a unit together in one place, whatever sender they come
from. The units of several senders are kept apart where the pieces of each one come right behind each other.
-/

namespace Assemble

variable {κ β γ σ : Type}

/--
A step gives the deliveries. A piece that opens a unit gives what is pending of the unit before it.
-/
structure Assembler (κ β γ σ : Type) where
  step : σ → β → Option (σ × List γ)
  pending : σ → List γ
  key : β → κ
  opens : β → Prop
  label : γ → κ

namespace Assembler

variable (m : Assembler κ β γ σ)

def run : σ → List β → Option (σ × List γ)
  | s, [] => some (s, [])
  | s, b :: bs => do
    let (s, out) ← m.step s b
    let (s, outs) ← run s bs
    pure (s, out ++ outs)

/--
The pieces are valid ones. In a state that serves a sender nothing of another one is pending, and states that
are the same go on in the same way.
-/
structure Lawful (Valid : β → Prop) (Same : σ → σ → Prop) (Serves : κ → σ → Prop) : Prop where
  same_refl : ∀ s, Same s s
  pending_same : ∀ {s t}, Same s t → m.pending s = m.pending t
  pending_label : ∀ {k s}, Serves k s → ∀ c ∈ m.pending s, m.label c = k
  opening : ∀ {b}, Valid b → m.opens b → ∃ own, (∀ c ∈ own, m.label c = m.key b)
    ∧ ∀ {k l s t}, Serves k s → Serves l t → ∃ s' t',
        m.step s b = some (s', m.pending s ++ own) ∧ m.step t b = some (t', m.pending t ++ own)
          ∧ Same s' t' ∧ Serves (m.key b) s' ∧ Serves (m.key b) t'
  continuing : ∀ {b}, Valid b → ¬ m.opens b → ∀ {s t}, Same s t → Serves (m.key b) s →
    Serves (m.key b) t → ∃ s' t' out, m.step s b = some (s', out) ∧ m.step t b = some (t', out)
      ∧ (∀ c ∈ out, m.label c = m.key b)
      ∧ Same s' t' ∧ Serves (m.key b) s' ∧ Serves (m.key b) t'

/--
The pieces of a unit come right behind each other.
-/
def Contiguous (bs : List β) : Prop := bs.IsChain fun a b => m.opens b ∨ m.key a = m.key b

section Run

variable {m}

theorem run_concat {s t : σ} {bs : List β} {out : List γ} (h : m.run s bs = some (t, out)) (b : β)
    : m.run s (bs ++ [b]) = (m.step t b).map fun (u, outs) => (u, out ++ outs) := by
  induction bs generalizing s out with
  | nil =>
    cases h
    rw [List.nil_append, run]
    cases m.step t b with
    | none => rfl
    | some next => simp [run]
  | cons a bs ih =>
    rw [run] at h
    rw [List.cons_append, run]
    cases hstep : m.step s a with
    | none =>
      rw [hstep] at h
      cases h
    | some next =>
      simp only [hstep, Option.bind_eq_bind, Option.bind_some] at h ⊢
      cases hrun : m.run next.1 bs with
      | none =>
        rw [hrun] at h
        cases h
      | some rest =>
        simp only [hrun, Option.bind_some, pure, Option.some.injEq, Prod.mk.injEq] at h
        rcases h with ⟨rfl, rfl⟩
        rw [ih hrun]
        cases m.step rest.1 b with
        | none => rfl
        | some last => simp

theorem serves_concat {Serves : κ → σ → Prop} {bs : List β} {b : β} {s : σ}
    (h : Serves (m.key b) s) (l : κ) (hl : ∀ a ∈ (bs ++ [b]).getLast?, m.key a = l)
    : Serves l s := by
  rw [← hl b List.getLast?_concat]
  exact h

end Run

section Apart

variable [DecidableEq κ] (Same : σ → σ → Prop) (Serves : κ → σ → Prop)

/--
The pieces of a sender and its deliveries, behind the pieces of all of them.
-/
structure Apart (s₀ : σ) (bs : List β) (s : σ) (out : List γ) (k : κ) (t : σ) (alone : List γ)
    : Prop where
  run : m.run s₀ (bs.filter fun b => m.key b = k) = some (t, alone)
  serves : Serves k t
  last : (∀ b ∈ bs.getLast?, m.key b = k) →
    Same s t ∧ (out.filter fun c => m.label c = k) = alone
  others : (∀ b ∈ bs.getLast?, m.key b ≠ k) →
    (out.filter fun c => m.label c = k) = alone ++ m.pending t

/--
What holds behind the pieces of all senders.
-/
structure Keeps (s₀ : σ) (bs : List β) (s : σ) (out : List γ) : Prop where
  run : m.run s₀ bs = some (s, out)
  serves : ∀ l, (∀ b ∈ bs.getLast?, m.key b = l) → Serves l s
  empty : bs = [] → m.pending s = []
  apart : ∀ k, ∃ t alone, m.Apart Same Serves s₀ bs s out k t alone

variable {m Same Serves} {Valid : β → Prop} {s₀ : σ}

theorem filter_label_eq {cs : List γ} {k : κ} (h : ∀ c ∈ cs, m.label c = k)
    : (cs.filter fun c => m.label c = k) = cs := by
  rw [List.filter_eq_self]
  intro c hc
  exact decide_eq_true (h c hc)

theorem filter_label_ne {cs : List γ} {k l : κ} (h : ∀ c ∈ cs, m.label c = l) (hne : l ≠ k)
    : (cs.filter fun c => m.label c = k) = [] := by
  rw [List.filter_eq_nil_iff]
  intro c hc hk
  rw [decide_eq_true_eq, h c hc] at hk
  exact hne hk

theorem Apart.filter_pending (hm : m.Lawful Valid Same Serves) {bs : List β} {s t : σ}
    {out alone : List γ} {k l : κ} (h : m.Apart Same Serves s₀ bs s out k t alone)
    (hl : ∀ b ∈ bs.getLast?, m.key b = l) (hserves : Serves l s) (hempty : bs = [] → m.pending s = [])
    : ((out ++ m.pending s).filter fun c => m.label c = k) = alone ++ m.pending t := by
  rw [List.filter_append]
  by_cases hk : l = k
  . subst hk
    rcases h.last hl with ⟨hsame, hout⟩
    rw [hout, filter_label_eq (hm.pending_label hserves), hm.pending_same hsame]
  . rw [filter_label_ne (hm.pending_label hserves) hk, List.append_nil]
    cases hb : bs.getLast? with
    | none =>
      rw [List.getLast?_eq_none_iff] at hb
      subst hb
      rcases h.last (fun _ hnone => nomatch hnone) with ⟨hsame, hout⟩
      rw [hout, ← hm.pending_same hsame, hempty rfl, List.append_nil]
    | some b =>
      apply h.others
      intro a ha
      rw [hl a ha]
      exact hk

theorem Apart.concat {bs : List β} {b : β} {s s' t : σ} {out outs alone : List γ} {k : κ}
    (h : m.Apart Same Serves s₀ bs s out k t alone) (hne : m.key b ≠ k)
    (hout : ((out ++ outs).filter fun c => m.label c = k) = alone ++ m.pending t)
    : m.Apart Same Serves s₀ (bs ++ [b]) s' (out ++ outs) k t alone where
  run := by
    rw [List.filter_append, List.filter_cons_of_neg (by simpa using hne), List.filter_nil,
      List.append_nil]
    exact h.run
  serves := h.serves
  last := by
    intro hlast
    exact absurd (hlast b List.getLast?_concat) hne
  others := fun _ => hout

theorem Apart.concat_own {bs : List β} {b : β} {s s' t t' : σ} {out outs alone alones : List γ}
    (h : m.Apart Same Serves s₀ bs s out (m.key b) t alone)
    (hstep : m.step t b = some (t', alones)) (hsame : Same s' t')
    (ht : Serves (m.key b) t')
    (hout : ((out ++ outs).filter fun c => m.label c = m.key b) = alone ++ alones)
    : m.Apart Same Serves s₀ (bs ++ [b]) s' (out ++ outs) (m.key b) t' (alone ++ alones) where
  run := by
    rw [List.filter_append, List.filter_cons_of_pos (by simp), List.filter_nil, run_concat h.run,
      hstep]
    rfl
  serves := ht
  last := fun _ => ⟨hsame, hout⟩
  others := by
    intro hothers
    exact absurd rfl (hothers b List.getLast?_concat)

theorem Keeps.opening (hm : m.Lawful Valid Same Serves) {bs : List β} {b : β} {s : σ} {out : List γ}
    (h : m.Keeps Same Serves s₀ bs s out) (hb : Valid b) (hopens : m.opens b)
    : ∃ s' out', m.Keeps Same Serves s₀ (bs ++ [b]) s' out' := by
  rcases hm.opening hb hopens with ⟨own, hown, hopen⟩
  rcases h.apart (m.key b) with ⟨t, alone, hself⟩
  obtain ⟨l, hl⟩ : ∃ l, ∀ a ∈ bs.getLast?, m.key a = l := by
    cases bs.getLast? with
    | none => exact ⟨m.key b, fun _ hnone => nomatch hnone⟩
    | some a => exact ⟨m.key a, by rintro _ ⟨⟩; rfl⟩
  have hs := h.serves l hl
  rcases hopen hs hself.serves with ⟨s', t', hstep, halone, hsame, hs', ht'⟩
  refine ⟨s', out ++ (m.pending s ++ own), ?_, serves_concat hs', by simp, ?_⟩
  . rw [run_concat h.run, hstep]
    rfl
  . intro k
    by_cases hk : m.key b = k
    . subst hk
      refine ⟨t', alone ++ (m.pending t ++ own), hself.concat_own halone hsame ht' ?_⟩
      rw [← List.append_assoc, List.filter_append, hself.filter_pending hm hl hs h.empty,
        filter_label_eq hown, List.append_assoc]
    . rcases h.apart k with ⟨u, others, hother⟩
      refine ⟨u, others, hother.concat hk ?_⟩
      rw [← List.append_assoc, List.filter_append, hother.filter_pending hm hl hs h.empty,
        filter_label_ne hown hk, List.append_nil]

theorem Keeps.continuing (hm : m.Lawful Valid Same Serves) {bs : List β} {b : β} {s : σ}
    {out : List γ} (h : m.Keeps Same Serves s₀ bs s out) (hb : Valid b) (hopens : ¬ m.opens b)
    (hl : ∀ a ∈ bs.getLast?, m.key a = m.key b)
    : ∃ s' out', m.Keeps Same Serves s₀ (bs ++ [b]) s' out' := by
  rcases h.apart (m.key b) with ⟨t, alone, hself⟩
  have hs := h.serves (m.key b) hl
  rcases hself.last hl with ⟨hsame, hout⟩
  rcases hm.continuing hb hopens hsame hs hself.serves with
    ⟨s', t', outs, hstep, halone, houts, hsame', hs', ht'⟩
  refine ⟨s', out ++ outs, ?_, serves_concat hs', by simp, ?_⟩
  . rw [run_concat h.run, hstep]
    rfl
  . intro k
    by_cases hk : m.key b = k
    . subst hk
      refine ⟨t', alone ++ outs, hself.concat_own halone hsame' ht' ?_⟩
      rw [List.filter_append, hout, filter_label_eq houts]
    . rcases h.apart k with ⟨u, others, hother⟩
      -- what is pending belongs to the sender of the piece
      have hkept := hother.filter_pending hm hl hs h.empty
      rw [List.filter_append, filter_label_ne (hm.pending_label hs) hk, List.append_nil] at hkept
      refine ⟨u, others, hother.concat hk ?_⟩
      rw [List.filter_append, hkept, filter_label_ne houts hk, List.append_nil]

theorem run_contiguous (hm : m.Lawful Valid Same Serves) (hempty : m.pending s₀ = [])
    (hserves : ∀ k, Serves k s₀) {bs : List β} (hvalid : ∀ b ∈ bs, Valid b) (h : m.Contiguous bs)
    : ∃ s out, m.Keeps Same Serves s₀ bs s out := by
  induction bs using List.reverseRecOn with
  | nil =>
    refine ⟨s₀, [], rfl, fun l _ => hserves l, fun _ => hempty, ?_⟩
    intro k
    refine ⟨s₀, [], rfl, hserves k, fun _ => ⟨hm.same_refl s₀, rfl⟩, ?_⟩
    intro _
    rw [hempty]
    rfl
  | append_singleton bs b ih =>
    unfold Contiguous at h
    rw [List.isChain_append] at h
    rcases h with ⟨hchain, _, hnext⟩
    rcases ih (fun a ha => hvalid a (List.mem_append_left _ ha)) hchain with ⟨s, out, hkeeps⟩
    have hb := hvalid b (List.mem_append_right _ List.mem_cons_self)
    by_cases hopens : m.opens b
    . exact hkeeps.opening hm hb hopens
    . apply hkeeps.continuing hm hb hopens
      intro a ha
      exact (hnext a ha b rfl).resolve_left hopens

/--
At a piece of a sender everything that has been delivered for it is what is delivered of its pieces alone.
-/
theorem filter_run_concat (hm : m.Lawful Valid Same Serves) (hempty : m.pending s₀ = [])
    (hserves : ∀ k, Serves k s₀) {bs : List β} {b : β} (hvalid : ∀ a ∈ bs ++ [b], Valid a)
    (h : m.Contiguous (bs ++ [b]))
    : ∃ s t out alone, m.run s₀ (bs ++ [b]) = some (s, out)
        ∧ m.run s₀ ((bs ++ [b]).filter fun a => m.key a = m.key b) = some (t, alone)
        ∧ (out.filter fun c => m.label c = m.key b) = alone := by
  rcases run_contiguous hm hempty hserves hvalid h with ⟨s, out, hkeeps⟩
  rcases hkeeps.apart (m.key b) with ⟨t, alone, hapart⟩
  refine ⟨s, t, out, alone, hkeeps.run, hapart.run, (hapart.last ?_).2⟩
  rintro a ha
  rw [List.getLast?_concat] at ha
  cases ha
  rfl

end Apart

end Assembler

end Assemble
