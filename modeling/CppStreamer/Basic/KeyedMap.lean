import Mathlib.Order.Lattice
import Mathlib.Data.List.Nodup

/-!
This module contains maps whose values have their keys as a field. Such a map is the list of its values, in the order of
the keys.
-/

structure KeyedMap {α κ : Type} [LinearOrder κ] (key : α → κ) where
  infos : List α
  sorted : infos.Pairwise fun a b => key a < key b

namespace KeyedMap

variable {α κ : Type} [LinearOrder κ] {key : α → κ} {a b : α} {infos : List α} {m m' : KeyedMap key}

def empty : KeyedMap key := ⟨[], List.Pairwise.nil⟩

instance : Inhabited (KeyedMap key) := ⟨empty⟩

instance [DecidableEq α] : DecidableEq (KeyedMap key) := fun m m' =>
  decidable_of_iff (m.infos = m'.infos) (by cases m; cases m'; simp)

def find? (m : KeyedMap key) (k : κ) : Option α := m.infos.find? fun a => key a = k

def insertInfo (key : α → κ) (a : α) : List α → List α
  | [] => [a]
  | b :: infos =>
    if key a < key b then a :: b :: infos
    else if key a = key b then a :: infos
    else b :: insertInfo key a infos

theorem mem_insertInfo (h : b ∈ insertInfo key a infos) : b = a ∨ b ∈ infos := by
  induction infos with
  | nil => exact Or.inl (List.mem_singleton.mp h)
  | cons c infos ih =>
    rw [insertInfo] at h
    split at h
    . exact List.mem_cons.mp h
    . split at h
      . rcases List.mem_cons.mp h with h | h
        . exact Or.inl h
        . exact Or.inr (List.mem_cons_of_mem _ h)
      . rcases List.mem_cons.mp h with h | h
        . exact Or.inr (h ▸ List.mem_cons_self)
        . rcases ih h with h | h
          . exact Or.inl h
          . exact Or.inr (List.mem_cons_of_mem _ h)

theorem insertInfo_sorted (a : α) (h : infos.Pairwise fun a b => key a < key b)
    : (insertInfo key a infos).Pairwise fun a b => key a < key b := by
  induction infos with
  | nil => exact List.pairwise_singleton _ _
  | cons c infos ih =>
    rw [List.pairwise_cons] at h
    rw [insertInfo]
    split
    next hlt =>
      rw [List.pairwise_cons, List.pairwise_cons]
      refine ⟨?_, h⟩
      intro b hb
      rcases List.mem_cons.mp hb with rfl | hb
      . exact hlt
      . exact lt_trans hlt (h.left b hb)
    next hlt =>
      split
      next heq =>
        rw [List.pairwise_cons]
        refine ⟨?_, h.right⟩
        intro b hb
        rw [heq]
        exact h.left b hb
      next hne =>
        rw [List.pairwise_cons]
        refine ⟨?_, ih h.right⟩
        intro b hb
        rcases mem_insertInfo hb with rfl | hb
        . exact lt_of_le_of_ne (not_lt.mp hlt) (Ne.symm hne)
        . exact h.left b hb

/--
A value takes the place of the one with its key.
-/
def insert (m : KeyedMap key) (a : α) : KeyedMap key where
  infos := insertInfo key a m.infos
  sorted := insertInfo_sorted a m.sorted

theorem ext_infos (h : m.infos = m'.infos) : m = m' := by
  cases m
  cases m'
  cases h
  rfl

theorem key_of_find? {k : κ} (h : m.find? k = some a) : key a = k := by
  have hkey := List.find?_some h
  rwa [decide_eq_true_eq] at hkey

theorem find?_eq_some_iff {k : κ} : m.find? k = some a ↔ a ∈ m.infos ∧ key a = k := by
  constructor
  . intro h
    exact ⟨List.mem_of_find?_eq_some h, key_of_find? h⟩
  . rintro ⟨hmem, rfl⟩
    obtain ⟨infos, hsorted⟩ := m
    simp only [find?] at hmem ⊢
    induction infos with
    | nil => cases hmem
    | cons b infos ih =>
      rw [List.pairwise_cons] at hsorted
      rcases List.mem_cons.mp hmem with rfl | hmem
      . rw [List.find?_cons_of_pos (by simp)]
      . rw [List.find?_cons_of_neg]
        . exact ih hsorted.right hmem
        . rw [decide_eq_true_eq]
          exact ne_of_lt (hsorted.left a hmem)

@[simp]
theorem find?_empty (k : κ) : (empty : KeyedMap key).find? k = none := rfl

theorem find?_insert (m : KeyedMap key) (a : α) (k : κ)
    : (m.insert a).find? k = if key a = k then some a else m.find? k := by
  obtain ⟨infos, hsorted⟩ := m
  simp only [find?, insert]
  induction infos with
  | nil => simp only [insertInfo, List.find?_singleton, List.find?_nil, decide_eq_true_eq]
  | cons b infos ih =>
    rw [List.pairwise_cons] at hsorted
    rw [insertInfo]
    split
    . rw [List.find?_cons]
      by_cases hk : key a = k <;> simp [hk]
    . split
      next heq =>
        simp only [List.find?_cons, heq]
        by_cases hk : key b = k <;> simp [hk]
      next hne =>
        rw [List.find?_cons, List.find?_cons, ih hsorted.right]
        by_cases hk : key b = k
        . have hak : key a ≠ k := fun h => hne (h.trans hk.symm)
          simp [hk, hak]
        . simp [hk]

theorem find?_insert_of_ne {k : κ} (hne : key a ≠ k) : (m.insert a).find? k = m.find? k := by
  rw [find?_insert, if_neg hne]

theorem nodup_infos (m : KeyedMap key) : m.infos.Nodup :=
  m.sorted.imp fun hlt heq => ne_of_lt hlt (congrArg key heq)

theorem mem_filter_find? {p : α → Bool} {k : κ}
    : (m.find? k).filter p = some a ↔ a ∈ m.infos.filter p ∧ key a = k := by
  rw [Option.filter_eq_some_iff, find?_eq_some_iff, List.mem_filter]
  constructor
  . rintro ⟨⟨hmem, hkey⟩, hp⟩
    exact ⟨⟨hmem, hp⟩, hkey⟩
  . rintro ⟨⟨hmem, hp⟩, hkey⟩
    exact ⟨⟨hmem, hkey⟩, hp⟩

/--
Two maps have the same values of a kind if every key has the same one of them.
-/
theorem filter_infos_eq_iff {p : α → Bool}
    : m.infos.filter p = m'.infos.filter p ↔ ∀ k, (m.find? k).filter p = (m'.find? k).filter p := by
  constructor
  . intro h k
    apply Option.ext
    intro a
    rw [mem_filter_find?, mem_filter_find?, h]
  . intro h
    have hmem : ∀ a, a ∈ m.infos.filter p ↔ a ∈ m'.infos.filter p := by
      intro a
      have hiff : (m.find? (key a)).filter p = some a ↔ (m'.find? (key a)).filter p = some a := by rw [h]
      rw [mem_filter_find?, mem_filter_find?] at hiff
      simpa using hiff
    have hperm := (List.perm_ext_iff_of_nodup (m.nodup_infos.filter p) (m'.nodup_infos.filter p)).mpr hmem
    apply hperm.eq_of_pairwise _ (m.sorted.filter p) (m'.sorted.filter p)
    intro a b _ _ hab hba
    exact absurd hab (not_lt_of_gt hba)

theorem ext_find? (h : ∀ k, m.find? k = m'.find? k) : m = m' := by
  apply ext_infos
  rw [← List.filter_true m.infos, ← List.filter_true m'.infos]
  exact filter_infos_eq_iff.mpr fun k => congrArg (Option.filter fun _ => true) (h k)

theorem insertInfo_of_last (h : ∀ b ∈ infos, key b < key a) : insertInfo key a infos = infos ++ [a] := by
  induction infos with
  | nil => rfl
  | cons b infos ih =>
    have hb := h b List.mem_cons_self
    rw [insertInfo, if_neg (not_lt_of_gt hb), if_neg (ne_of_gt hb), ih fun c hc => h c (List.mem_cons_of_mem _ hc),
      List.cons_append]

/--
The values of a map, put in one after the other, are there in their order.
-/
theorem infos_foldl_insert (m : KeyedMap key) (infos : List α)
    (h : (m.infos ++ infos).Pairwise fun a b => key a < key b)
    : (infos.foldl insert m).infos = m.infos ++ infos := by
  induction infos generalizing m with
  | nil => rw [List.foldl_nil, List.append_nil]
  | cons a infos ih =>
    have hcut : m.infos ++ a :: infos = (m.infos ++ [a]) ++ infos := by simp
    have hlast : (m.insert a).infos = m.infos ++ [a] := by
      apply insertInfo_of_last
      intro b hb
      exact (List.pairwise_append.mp h).2.2 b hb a List.mem_cons_self
    rw [List.foldl_cons, ih, hlast, hcut]
    rwa [hlast, ← hcut]

/--
A map comes out of its values again if nothing happens to them on the way.
-/
theorem foldl_insert_eq_iff {f : α → α} (hkey : ∀ a, key (f a) = key a) (m : KeyedMap key)
    : m.infos.foldl (fun map a => map.insert (f a)) empty = m ↔ ∀ a ∈ m.infos, f a = a := by
  have hinfos : (m.infos.foldl (fun map a => map.insert (f a)) (empty : KeyedMap key)).infos = m.infos.map f := by
    have hsorted : ((empty : KeyedMap key).infos ++ m.infos.map f).Pairwise fun a b => key a < key b := by
      change (m.infos.map f).Pairwise _
      rw [List.pairwise_map]
      simpa only [hkey] using m.sorted
    have hfoldl := infos_foldl_insert (empty : KeyedMap key) (m.infos.map f) hsorted
    rwa [List.foldl_map] at hfoldl
  have hmap : m.infos.map f = m.infos ↔ ∀ a ∈ m.infos, f a = a := by
    conv_lhs => rhs; rw [← List.map_id m.infos]
    exact List.map_inj_left
  rw [← hmap, ← hinfos]
  exact ⟨congrArg infos, ext_infos⟩

end KeyedMap
