import Mathlib.Algebra.Order.Ring.Int
import Mathlib.Data.List.Basic

/-!
This module contains blocks of elements with an identifier, a length and a value, between which there may be
padding: what a walk over a block finds, and what it finds once a value has been replaced.
-/

namespace Tlv

variable {ι β : Type}

/--
What begins at a position of a block.
-/
inductive Head (ι : Type) where
  | stop
  | pad
  | element (id : ι) (len : Nat)

/--
How elements are written. What begins at a position can be told from the header, and from how many bytes are left.
-/
structure Format (ι β : Type) where
  headerLen : Nat
  head : List β → Head ι
  headerLen_pos : 0 < headerLen
  headerLen_le : ∀ {l id len}, head l = .element id len → headerLen ≤ l.length
  pad_congr : ∀ {b rest rest'}, rest'.length = rest.length → head (b :: rest) = .pad → head (b :: rest') = .pad
  element_congr : ∀ {l l' id len}, l'.length = l.length → l'.take headerLen = l.take headerLen →
    head l = .element id len → head l' = .element id len

structure Element (ι β : Type) where
  pos : Nat
  id : ι
  value : List β
  deriving DecidableEq, Repr

namespace Format

variable (f : Format ι β) (size : Nat)

/--
The elements of the rest of a block of `size` bytes, `none` if one of them goes beyond the end.
-/
def walk : List β → Option (List (Element ι β))
  | [] => some []
  | b :: rest =>
    match f.head (b :: rest) with
    | .stop => some []
    | .pad => walk rest
    | .element id len =>
      if (b :: rest).length < f.headerLen + len then none
      else
        (walk ((b :: rest).drop (f.headerLen + len))).map fun es =>
          ⟨size - (b :: rest).length, id, ((b :: rest).drop f.headerLen).take len⟩ :: es
termination_by l => l.length
decreasing_by
  . simp
  . have := f.headerLen_pos
    simp only [List.length_drop, List.length_cons]
    omega

theorem walk_nil : f.walk size [] = some [] := by
  unfold walk
  rfl

theorem walk_pad {b : β} {rest : List β} (h : f.head (b :: rest) = .pad)
    : f.walk size (b :: rest) = f.walk size rest := by
  rw [walk, h]

theorem walk_element {l : List β} {id : ι} {len : Nat} (h : f.head l = .element id len)
    (hlen : f.headerLen + len ≤ l.length)
    : f.walk size l = (f.walk size (l.drop (f.headerLen + len))).map fun es =>
        ⟨size - l.length, id, (l.drop f.headerLen).take len⟩ :: es := by
  cases l with
  | nil =>
    have := f.headerLen_pos
    rw [List.length_nil] at hlen
    omega
  | cons b rest =>
    rw [walk, h]
    simp only
    rw [if_neg (by omega)]

theorem walk_element_of_lt {l : List β} {id : ι} {len : Nat} (h : f.head l = .element id len)
    (hlen : l.length < f.headerLen + len)
    : f.walk size l = none := by
  have hpos := Nat.lt_of_lt_of_le f.headerLen_pos (f.headerLen_le h)
  cases l with
  | nil => exact absurd hpos (Nat.not_lt_zero _)
  | cons b rest =>
    rw [walk, h]
    simp only
    rw [if_pos hlen]

/--
Bytes that are padding wherever they are can be left out.
-/
theorem walk_dropWhile {p : β → Bool} (hp : ∀ b rest, p b = true → f.walk size (b :: rest) = f.walk size rest)
    (l : List β)
    : f.walk size (l.dropWhile p) = f.walk size l := by
  induction l with
  | nil => rfl
  | cons b rest ih =>
    rw [List.dropWhile_cons]
    split
    . next hb => rw [ih, hp b rest hb]
    . rfl

theorem walk_append {p : β → Bool} (hp : ∀ b rest, p b = true → f.walk size (b :: rest) = f.walk size rest)
    {pads : List β} (hpads : ∀ b ∈ pads, p b = true) (l : List β)
    : f.walk size (pads ++ l) = f.walk size l := by
  induction pads with
  | nil => rfl
  | cons b pads ih =>
    rw [List.cons_append, hp b _ (hpads b List.mem_cons_self), ih fun b hb => hpads b (List.mem_cons_of_mem _ hb)]

/--
The walk comes from one position to another one and finds these elements on the way.
-/
inductive Reaches : List β → List (Element ι β) → List β → Prop where
  | refl (l : List β) : Reaches l [] l
  | pad {b : β} {rest l' : List β} {es : List (Element ι β)} (h : f.head (b :: rest) = .pad)
      (hrest : Reaches rest es l') : Reaches (b :: rest) es l'
  | element {l l' : List β} {es : List (Element ι β)} {id : ι} {len : Nat} (h : f.head l = .element id len)
      (hlen : f.headerLen + len ≤ l.length) (hrest : Reaches (l.drop (f.headerLen + len)) es l')
      : Reaches l (⟨size - l.length, id, (l.drop f.headerLen).take len⟩ :: es) l'

variable {f size}

theorem Reaches.walk {l l' : List β} {es : List (Element ι β)} (h : f.Reaches size l es l')
    : f.walk size l = (f.walk size l').map (es ++ ·) := by
  induction h with
  | refl l => simp
  | pad h _ ih => rw [walk_pad f size h, ih]
  | element h hlen _ ih =>
    rw [walk_element f size h hlen, ih, Option.map_map]
    rfl

theorem Reaches.suffix {l l' : List β} {es : List (Element ι β)} (h : f.Reaches size l es l') : l' <:+ l := by
  induction h with
  | refl l => apply List.suffix_rfl
  | pad _ _ ih => exact ih.trans (List.suffix_cons _ _)
  | element _ _ _ ih => exact ih.trans (List.drop_suffix _ _)

/--
What is behind the position that is reached does not matter.
-/
theorem Reaches.congr {l l' : List β} {es : List (Element ι β)} (h : f.Reaches size l es l') {before l'' : List β}
    (hl : l = before ++ l') (hlen : l''.length = l'.length)
    : f.Reaches size (before ++ l'') es l'' := by
  induction h generalizing before with
  | refl l =>
    rw [List.self_eq_append_left] at hl
    rw [hl]
    apply Reaches.refl
  | @pad b rest l' es h hrest ih =>
    cases before with
    | nil =>
      -- the position that is reached cannot be in front of where the walk goes on
      have hle := hrest.suffix.length_le
      have := congrArg List.length hl
      simp only [List.nil_append, List.length_cons] at this
      omega
    | cons b' before =>
      rw [List.cons_append, List.cons.injEq] at hl
      rcases hl with ⟨rfl, rfl⟩
      apply Reaches.pad _ (ih rfl hlen)
      apply f.pad_congr _ h
      simp [hlen]
  | @element l l' es id len h hfits hrest ih =>
    subst hl
    have hle := hrest.suffix.length_le
    rw [List.length_drop, List.length_append] at hle
    have hbefore : f.headerLen + len ≤ before.length := by
      rw [List.length_append] at hfits
      omega
    have hlength : (before ++ l'').length = (before ++ l').length := by
      rw [List.length_append, List.length_append, hlen]
    have hvalue (rest : List β)
        : ((before ++ rest).drop f.headerLen).take len = (before.drop f.headerLen).take len := by
      rw [List.drop_append_of_le_length (by omega), List.take_append_of_le_length (by rw [List.length_drop]; omega)]
    have hhead : f.head (before ++ l'') = .element id len := by
      apply f.element_congr hlength _ h
      rw [List.take_append_of_le_length (by omega), List.take_append_of_le_length (by omega)]
    have hnext : f.Reaches size ((before ++ l'').drop (f.headerLen + len)) es l'' := by
      rw [List.drop_append_of_le_length hbefore] at hrest ih ⊢
      exact ih rfl hlen
    have := Reaches.element hhead (by rw [hlength]; exact hfits) hnext
    rwa [hlength, hvalue, ← hvalue l'] at this

/--
An element that the walk finds, with the position at which it does.
-/
theorem exists_reaches {l : List β} {before after : List (Element ι β)} {e : Element ι β}
    (h : f.walk size l = some (before ++ e :: after))
    : ∃ l', f.Reaches size l before l' ∧ f.head l' = .element e.id e.value.length
      ∧ f.headerLen + e.value.length ≤ l'.length ∧ e.pos = size - l'.length
      ∧ e.value = (l'.drop f.headerLen).take e.value.length
      ∧ f.walk size (l'.drop (f.headerLen + e.value.length)) = some after := by
  fun_induction walk f size l generalizing before with
  | case1 => simp at h
  | case2 => simp at h
  | case3 b rest hhead =>
    rename_i ih
    rcases ih h with ⟨l', hreaches, hfound⟩
    exact ⟨l', .pad hhead hreaches, hfound⟩
  | case4 => cases h
  | case5 b rest id len hhead hfits =>
    rename_i ih
    rw [Option.map_eq_some_iff] at h
    rcases h with ⟨es, hes, heq⟩
    cases before with
    | nil =>
      rw [List.nil_append, List.cons.injEq] at heq
      rcases heq with ⟨rfl, rfl⟩
      have hlen : (((b :: rest).drop f.headerLen).take len).length = len := by
        rw [List.length_take, List.length_drop]
        omega
      refine ⟨b :: rest, .refl _, ?_, ?_, rfl, ?_, ?_⟩
      all_goals simp only [hlen]
      . exact hhead
      . omega
      . exact hes
    | cons e' before =>
      rw [List.cons_append, List.cons.injEq] at heq
      rcases heq with ⟨rfl, rfl⟩
      rcases ih hes with ⟨l', hreaches, hfound⟩
      exact ⟨l', .element hhead (by omega) hreaches, hfound⟩

/--
Every element lies inside the block with its header.
-/
theorem inside_of_mem_walk {l : List β} {es : List (Element ι β)} (h : f.walk l.length l = some es)
    {e : Element ι β} (he : e ∈ es)
    : e.pos + f.headerLen + e.value.length ≤ l.length
      ∧ (l.drop (e.pos + f.headerLen)).take e.value.length = e.value := by
  rcases List.append_of_mem he with ⟨before, after, rfl⟩
  rcases exists_reaches h with ⟨l', hreaches, _, hfits, hpos, hvalue, _⟩
  rcases hreaches.suffix with ⟨skipped, rfl⟩
  rw [List.length_append] at *
  have hskipped : e.pos = skipped.length := by omega
  refine ⟨by omega, ?_⟩
  rw [hskipped, List.drop_length_add_append, ← hvalue]

theorem le_pos_of_mem_walk {l : List β} {es : List (Element ι β)} (h : f.walk size l = some es)
    {e : Element ι β} (he : e ∈ es)
    : size - l.length ≤ e.pos := by
  rcases List.append_of_mem he with ⟨before, after, rfl⟩
  rcases exists_reaches h with ⟨l', hreaches, _, _, hpos, _⟩
  have := hreaches.suffix.length_le
  omega

section Room

variable (f)

/--
How many bytes of padding there are in front.
-/
def pads : List β → Nat
  | [] => 0
  | b :: rest =>
    match f.head (b :: rest) with
    | .pad => pads rest + 1
    | _ => 0

/--
No element follows the padding.
-/
def Ends (l : List β) : Prop := ∀ id len, f.head (l.drop (f.pads l)) ≠ .element id len

variable {f}

theorem walk_drop_pads {l : List β} {d : Nat} (hd : d ≤ f.pads l) : f.walk size (l.drop d) = f.walk size l := by
  induction l generalizing d with
  | nil => rw [List.drop_nil]
  | cons b rest ih =>
    cases d with
    | zero => rfl
    | succ d =>
      unfold pads at hd
      split at hd
      . next hpad => rw [List.drop_succ_cons, ih (by omega), walk_pad f size hpad]
      . omega

theorem head_drop_pads (l : List β) : f.head (l.drop (f.pads l)) ≠ .pad ∨ l.drop (f.pads l) = [] := by
  induction l with
  | nil => exact .inr rfl
  | cons b rest ih =>
    unfold pads
    split
    . exact ih
    . next hpad => exact .inl hpad

/--
The element that begins at a position is the first one that is found from there on.
-/
theorem walk_of_head {l : List β} {es : List (Element ι β)} (h : f.walk size l = some es) {id : ι} {len : Nat}
    (hhead : f.head l = .element id len)
    : ∃ e rest, es = e :: rest ∧ e.pos = size - l.length := by
  by_cases hfits : f.headerLen + len ≤ l.length
  . rw [walk_element f size hhead hfits, Option.map_eq_some_iff] at h
    rcases h with ⟨rest, _, rfl⟩
    exact ⟨_, rest, rfl, rfl⟩
  . rw [walk_element_of_lt f size hhead (by omega)] at h
    cases h

theorem ends_iff {l : List β} : f.Ends l ↔ f.walk size l = some [] := by
  rw [← walk_drop_pads (Nat.le_refl _)]
  constructor
  . intro hends
    have hhead := head_drop_pads (f := f) l
    unfold Ends at hends
    generalize l.drop (f.pads l) = l' at *
    cases l' with
    | nil => apply walk_nil
    | cons b rest =>
      rcases hhead with hpad | hnil
      . unfold walk
        split
        . rfl
        . next h => exact absurd h hpad
        . next h => exact absurd h (hends _ _)
      . cases hnil
  . intro hwalk id len hhead
    rcases walk_of_head hwalk hhead with ⟨e, rest, hes, _⟩
    cases hes

/--
The same elements are found behind the first `d` bytes if these are padding, or if there are no elements anyway.
-/
theorem walk_drop_eq_iff {l : List β} {es : List (Element ι β)} (h : f.walk size l = some es)
    (hsize : l.length ≤ size) {d : Nat} (hd : d ≤ l.length)
    : f.walk size (l.drop d) = some es ↔ d ≤ f.pads l ∨ f.Ends l ∧ f.Ends (l.drop d) := by
  constructor
  . intro hdrop
    by_cases hpads : d ≤ f.pads l
    . exact .inl hpads
    . have hends : f.Ends l := by
        intro id len hhead
        have hwalk : f.walk size (l.drop (f.pads l)) = f.walk size l := walk_drop_pads (Nat.le_refl _)
        rw [h] at hwalk
        -- the first element begins in front of what the walk is left with
        rcases walk_of_head hwalk hhead with ⟨e, rest, rfl, hpos⟩
        have hle := le_pos_of_mem_walk hdrop List.mem_cons_self
        rw [List.length_drop] at hpos hle
        omega
      have hnil : some es = some [] := h.symm.trans (ends_iff.mp hends)
      rw [hnil] at hdrop
      exact .inr ⟨hends, ends_iff.mpr hdrop⟩
  . rintro (hpads | ⟨hends, hends'⟩)
    . rw [walk_drop_pads hpads, h]
    . rw [ends_iff.mp hends', ← h, ends_iff.mp hends]

end Room

end Format

end Tlv
