import Mathlib.Data.List.Basic
import Mathlib.Data.List.Forall2

/-!
This module contains what a computation that may fail comes to when it is done for each value of a list.
-/

namespace Traverse

variable {α β : Type} {f : α → Option β} {as : List α} {bs : List β}

theorem mapM_eq_some_iff : as.mapM f = some bs ↔ List.Forall₂ (fun a b => f a = some b) as bs := by
  induction as generalizing bs with
  | nil =>
    rw [List.mapM_nil, List.forall₂_nil_left_iff]
    exact ⟨fun h => (Option.some.inj h).symm, fun h => congrArg some h.symm⟩
  | cons a as ih =>
    rw [List.mapM_cons, List.forall₂_cons_left_iff]
    constructor
    . intro h
      obtain ⟨b, hb, h⟩ := Option.bind_eq_some_iff.mp h
      obtain ⟨rest, hrest, h⟩ := Option.bind_eq_some_iff.mp h
      exact ⟨b, rest, hb, ih.mp hrest, (Option.some.inj h).symm⟩
    . rintro ⟨b, rest, hb, hrest, rfl⟩
      rw [hb, ih.mpr hrest]
      rfl

theorem exists_of_forall₂ {R : α → β → Prop} (h : List.Forall₂ R as bs) {a : α} (ha : a ∈ as)
    : ∃ b ∈ bs, R a b := by
  induction h with
  | nil => cases ha
  | cons hfirst _ ih =>
    rcases List.mem_cons.mp ha with rfl | ha
    . exact ⟨_, List.mem_cons_self, hfirst⟩
    . obtain ⟨b, hb, hR⟩ := ih ha
      exact ⟨b, List.mem_cons_of_mem _ hb, hR⟩

theorem exists_of_mem (h : as.mapM f = some bs) {a : α} (ha : a ∈ as) : ∃ b ∈ bs, f a = some b :=
  exists_of_forall₂ (mapM_eq_some_iff.mp h) ha

theorem mem_of_mapM (h : as.mapM f = some bs) {a : α} {b : β} (ha : a ∈ as) (hb : f a = some b) : b ∈ bs := by
  obtain ⟨b', hmem, hb'⟩ := exists_of_mem h ha
  rw [hb] at hb'
  cases hb'
  exact hmem

theorem of_mem (h : as.mapM f = some bs) {b : β} (hb : b ∈ bs) : ∃ a ∈ as, f a = some b :=
  exists_of_forall₂ (mapM_eq_some_iff.mp h).flip hb

theorem exists_mapM (h : ∀ a ∈ as, (f a).isSome) : ∃ bs, as.mapM f = some bs := by
  induction as with
  | nil => exact ⟨[], rfl⟩
  | cons a as ih =>
    rw [List.forall_mem_cons] at h
    obtain ⟨b, hb⟩ := Option.isSome_iff_exists.mp h.left
    obtain ⟨bs, hbs⟩ := ih h.right
    refine ⟨b :: bs, ?_⟩
    rw [List.mapM_cons, hb, hbs]
    rfl

/--
The results are the values again, by their keys, if each one is.
-/
theorem exists_mapM_iff {γ : Type} {key : α → γ} {key' : β → γ}
    : (∃ bs, as.mapM f = some bs ∧ bs.map key' = as.map key) ↔ ∀ a ∈ as, ∃ b, f a = some b ∧ key' b = key a := by
  induction as with
  | nil => exact ⟨(fun _ _ ha => nomatch ha), fun _ => ⟨[], rfl, rfl⟩⟩
  | cons a as ih =>
    rw [List.forall_mem_cons, ← ih]
    simp only [mapM_eq_some_iff, List.forall₂_cons_left_iff]
    constructor
    . rintro ⟨_, ⟨b, bs, hb, hbs, rfl⟩, hkeys⟩
      rw [List.map_cons, List.map_cons, List.cons.injEq] at hkeys
      exact ⟨⟨b, hb, hkeys.left⟩, bs, hbs, hkeys.right⟩
    . rintro ⟨⟨b, hb, hkey⟩, bs, hbs, hkeys⟩
      exact ⟨_, ⟨b, bs, hb, hbs, rfl⟩, by rw [List.map_cons, List.map_cons, hkey, hkeys]⟩

end Traverse
