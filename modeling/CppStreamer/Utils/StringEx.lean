import Mathlib.Algebra.Order.Ring.Int
import Mathlib.Data.List.TakeWhile

/-!
This module contains the string functions that text protocols are parsed with, on the bytes of strings.
-/

namespace StringEx

/--
The bytes of a text in ASCII.
-/
def ascii (text : List Char) : List UInt8 := text.map Char.toUInt8

def utf8 (text : String) : List UInt8 := text.toUTF8.data.toList

/--
`std::string::find`.
-/
def find (pattern : List UInt8) : List UInt8 → Option Nat
  | [] => if pattern = [] then some 0 else none
  | c :: s => if pattern.isPrefixOf (c :: s) then some 0 else (find pattern s).map (· + 1)

/--
`std::string::rfind`.
-/
def rfind (pattern : List UInt8) : List UInt8 → Option Nat
  | [] => if pattern = [] then some 0 else none
  | c :: s =>
    match rfind pattern s with
    | some pos => some (pos + 1)
    | none => if pattern.isPrefixOf (c :: s) then some 0 else none

/--
`std::string::substr`, `none` for the exception.
-/
def substr (s : List UInt8) (pos : Nat) : Option (List UInt8) :=
  if s.length < pos then none else some (s.drop pos)

/--
`StringSplit` with a separator that is not empty.
-/
def stringSplit (first : UInt8) (sep : List UInt8) (input : List UInt8) : List (List UInt8) :=
  if input = [] then []
  else
    match find (first :: sep) input with
    | none => [input]
    | some pos => input.take pos :: stringSplit first sep (input.drop (pos + (first :: sep).length))
termination_by input.length
decreasing_by
  have hpos := List.length_pos_iff.mpr ‹¬input = []›
  simp only [List.length_drop, List.length_cons]
  omega

def string2Lower (s : List UInt8) : List UInt8 :=
  s.map fun c => if 65 ≤ c ∧ c ≤ 90 then c + 32 else c

def removeSubfix (data subfix : List UInt8) : List UInt8 :=
  match rfind subfix data with
  | none => data
  | some pos => if data.length - pos = subfix.length then data.take pos else data

def isSpace (c : UInt8) : Bool := (9 ≤ c ∧ c ≤ 13) ∨ c = 32

def isDigit (c : UInt8) : Bool := 48 ≤ c ∧ c ≤ 57

def decimal (digits : List UInt8) : Nat := digits.foldl (fun n c => 10 * n + (c.toNat - 48)) 0

/--
`atoi`, without the overflow.
-/
def atoi (s : List UInt8) : Int :=
  match s.dropWhile isSpace with
  | 45 :: digits => -decimal (digits.takeWhile isDigit)
  | 43 :: digits => decimal (digits.takeWhile isDigit)
  | digits => decimal (digits.takeWhile isDigit)

/--
`atoi` as the C library has it: what `strtol` gives, a `long` of 64 bits, as an `int`.
-/
def atoi32 (s : List UInt8) : Int32 := Int32.ofInt (max (-2 ^ 63) (min (atoi s) (2 ^ 63 - 1)))

def natText (n : Nat) : List UInt8 := ascii (Nat.toDigits 10 n)

def intText (n : Int) : List UInt8 := if n < 0 then 45 :: natText n.natAbs else natText n.natAbs

section Find

variable {first c : UInt8} {sep pattern s t : List UInt8} {n : Nat}

theorem find_append_of_prefix (hne : pattern ≠ []) (t : List UInt8) : find pattern (pattern ++ t) = some 0 := by
  cases pattern with
  | nil => exact absurd rfl hne
  | cons c pattern =>
    rw [List.cons_append, find, if_pos]
    rw [List.isPrefixOf_iff_prefix]
    exact ⟨t, rfl⟩

theorem find_cons_of_ne (hne : c ≠ first) (s : List UInt8)
    : find (first :: sep) (c :: s) = (find (first :: sep) s).map (· + 1) := by
  rw [find, if_neg]
  simp [List.isPrefixOf, hne.symm]

theorem find_append_of_not_mem (hs : first ∉ s) (t : List UInt8)
    : find (first :: sep) (s ++ t) = (find (first :: sep) t).map (· + s.length) := by
  induction s with
  | nil => simp
  | cons c s ih =>
    have hne : c ≠ first := fun h => hs (h ▸ List.mem_cons_self)
    have hrest : first ∉ s := fun h => hs (List.mem_cons_of_mem _ h)
    rw [List.cons_append, find_cons_of_ne hne, ih hrest, Option.map_map, List.length_cons]
    rfl

theorem find_append (hs : first ∉ s) (t : List UInt8)
    : find (first :: sep) (s ++ (first :: sep ++ t)) = some s.length := by
  rw [find_append_of_not_mem hs, find_append_of_prefix (List.cons_ne_nil _ _), Option.map_some, Nat.zero_add]

theorem find_of_not_mem (hs : first ∉ s) : find (first :: sep) s = none := by
  have hfind : find (first :: sep) (s ++ []) = _ := find_append_of_not_mem hs []
  rw [List.append_nil] at hfind
  rw [hfind]
  rfl

theorem find_eq_some (hfind : find pattern s = some n) : pattern <+: s.drop n := by
  induction s generalizing n with
  | nil =>
    rw [find] at hfind
    split at hfind
    next hnil =>
      rw [hnil]
      exact List.nil_prefix
    next => cases hfind
  | cons c s ih =>
    rw [find] at hfind
    split at hfind
    next hstart =>
      cases hfind
      exact List.isPrefixOf_iff_prefix.mp hstart
    next =>
      rcases Option.map_eq_some_iff.mp hfind with ⟨m, hm, rfl⟩
      exact ih hm

theorem find_eq_zero_iff : find pattern s = some 0 ↔ pattern.isPrefixOf s := by
  cases s with
  | nil =>
    rw [find]
    split
    next hnil => simp [hnil]
    next hne => cases pattern <;> simp_all [List.isPrefixOf]
  | cons c s =>
    rw [find]
    split
    next hstart => simp only [hstart]
    next hstart => simp [hstart]

theorem find_take (hne : pattern ≠ []) (hfind : find pattern s = some n) (k : Nat)
    : find pattern (s.take k) = if n + pattern.length ≤ k then some n else none := by
  induction s generalizing n k with
  | nil =>
    rw [find, if_neg hne] at hfind
    cases hfind
  | cons c s ih =>
    have hlen := List.length_pos_iff.mpr hne
    cases k with
    | zero =>
      rw [List.take_zero, find, if_neg hne, if_neg (by omega)]
    | succ k =>
      rw [List.take_succ_cons, find]
      rw [find] at hfind
      by_cases hstart : pattern <+: c :: s
      . rw [if_pos (List.isPrefixOf_iff_prefix.mpr hstart)] at hfind
        cases hfind
        rw [Nat.zero_add]
        by_cases hk : pattern.length ≤ k + 1
        . rw [if_pos hk, if_pos]
          rw [List.isPrefixOf_iff_prefix, ← List.take_succ_cons, List.prefix_take_iff]
          exact ⟨hstart, hk⟩
        . have hshort : ∀ i, ¬ pattern <+: (s.take k).drop i := by
            intro i hfront
            have hle := hfront.length_le
            rw [List.length_drop, List.length_take] at hle
            omega
          rw [if_neg hk, if_neg]
          . rw [Option.map_eq_none_iff, Option.eq_none_iff_forall_not_mem]
            intro i hi
            exact hshort i (find_eq_some hi)
          . intro hfront
            have hle := (List.isPrefixOf_iff_prefix.mp hfront).length_le
            rw [List.length_cons, List.length_take] at hle
            omega
      . rw [if_neg (fun h => hstart (List.isPrefixOf_iff_prefix.mp h))] at hfind
        rcases Option.map_eq_some_iff.mp hfind with ⟨m, hm, rfl⟩
        have hcut : ¬ pattern.isPrefixOf (c :: s.take k) = true := by
          intro hfront
          apply hstart
          rw [List.isPrefixOf_iff_prefix, ← List.take_succ_cons] at hfront
          exact hfront.trans (List.take_prefix _ _)
        rw [if_neg hcut, ih hm k]
        by_cases hk : m + pattern.length ≤ k
        . rw [if_pos hk, if_pos (by omega), Option.map_some]
        . rw [if_neg hk, if_neg (by omega), Option.map_none]

theorem find_of_append (hne : pattern ≠ []) (hfind : find pattern (s ++ t) = some n)
    : find pattern s = if n + pattern.length ≤ s.length then some n else none := by
  have htake := find_take hne hfind s.length
  rwa [List.take_left] at htake

end Find

section Suffix

variable {c : UInt8} {s : List UInt8}

theorem rfind_append_self (s : List UInt8) (c : UInt8) : rfind [c] (s ++ [c]) = some s.length := by
  induction s with
  | nil => simp [rfind, List.isPrefixOf]
  | cons d s ih => rw [List.cons_append, rfind, ih, List.length_cons]

theorem rfind_singleton {n : Nat} (h : rfind [c] s = some n) : s[n]? = some c := by
  induction s generalizing n with
  | nil =>
    rw [rfind, if_neg (List.cons_ne_nil _ _)] at h
    cases h
  | cons d s ih =>
    rw [rfind] at h
    split at h
    next pos hpos =>
      cases h
      exact ih hpos
    next =>
      split at h
      next hstart =>
        cases h
        rw [List.isPrefixOf_iff_prefix, List.cons_prefix_cons] at hstart
        rw [hstart.1]
        rfl
      next => cases h

@[simp]
theorem removeSubfix_append_self (s : List UInt8) (c : UInt8) : removeSubfix (s ++ [c]) [c] = s := by
  rw [removeSubfix, rfind_append_self]
  simp only
  rw [if_pos (by simp), List.take_left]

theorem removeSubfix_of_getLast (h : s.getLast? ≠ some c) : removeSubfix s [c] = s := by
  rw [removeSubfix]
  split
  next => rfl
  next pos hpos =>
    rw [if_neg]
    intro hend
    apply h
    have hlast : s.length - 1 = pos := by
      rw [List.length_singleton] at hend
      omega
    rw [List.getLast?_eq_getElem?, hlast, rfind_singleton hpos]

theorem removeSubfix_eq_self_iff : removeSubfix s [c] = s ↔ s.getLast? ≠ some c := by
  constructor
  . intro h hlast
    obtain ⟨t, rfl⟩ := List.getLast?_eq_some_iff.mp hlast
    rw [removeSubfix_append_self] at h
    exact absurd (congrArg List.length h) (by simp)
  . exact removeSubfix_of_getLast

/--
What is in front stays, if it does not end the same way itself.
-/
theorem removeSubfix_append {front : List UInt8} (hfront : front.getLast? ≠ some c) (s : List UInt8)
    : removeSubfix (front ++ s) [c] = front ++ removeSubfix s [c] := by
  rcases List.eq_nil_or_concat s with rfl | ⟨s, d, rfl⟩
  . rw [List.append_nil, removeSubfix_of_getLast hfront, removeSubfix_of_getLast (by simp), List.append_nil]
  . rw [List.concat_eq_append]
    by_cases hd : d = c
    . rw [hd, ← List.append_assoc, removeSubfix_append_self, removeSubfix_append_self]
    . rw [removeSubfix_of_getLast (by simpa using hd), removeSubfix_of_getLast (by simpa using hd)]

end Suffix

section Split

variable {first : UInt8} {sep s t : List UInt8}

theorem stringSplit_nil (first : UInt8) (sep : List UInt8) : stringSplit first sep [] = [] := by
  rw [stringSplit, if_pos rfl]

theorem stringSplit_of_not_mem (hs : first ∉ s) (hne : s ≠ []) : stringSplit first sep s = [s] := by
  rw [stringSplit, if_neg hne, find_of_not_mem hs]

theorem stringSplit_append (hs : first ∉ s) (t : List UInt8)
    : stringSplit first sep (s ++ (first :: sep ++ t)) = s :: stringSplit first sep t := by
  rw [stringSplit, if_neg (by simp), find_append hs]
  simp only
  rw [List.take_left, ← List.drop_drop, List.drop_left, List.drop_left]

theorem stringSplit_append_byte (hs : first ∉ s) (t : List UInt8)
    : stringSplit first [] (s ++ first :: t) = s :: stringSplit first [] t :=
  stringSplit_append hs t

/--
The pieces with the separator behind each of them. Here a piece may be empty.
-/
theorem stringSplit_flatMap {pieces : List (List UInt8)} (hpieces : ∀ s ∈ pieces, first ∉ s)
    : stringSplit first [] (pieces.flatMap fun s => s ++ [first]) = pieces := by
  induction pieces with
  | nil => exact stringSplit_nil first []
  | cons s pieces ih =>
    rw [List.flatMap_cons, List.append_assoc, List.singleton_append,
      stringSplit_append_byte (hpieces s List.mem_cons_self), ih fun t ht => hpieces t (List.mem_cons_of_mem _ ht)]

theorem mem_intercalate {pieces : List (List UInt8)} {c : UInt8} (hc : c ∈ List.intercalate sep pieces)
    : c ∈ sep ∨ ∃ s ∈ pieces, c ∈ s := by
  induction pieces with
  | nil => cases hc
  | cons s pieces ih =>
    cases pieces with
    | nil =>
      rw [List.intercalate_singleton] at hc
      exact Or.inr ⟨s, List.mem_cons_self, hc⟩
    | cons t pieces =>
      rw [List.intercalate_cons_cons, List.mem_append, List.mem_append] at hc
      rcases hc with (hc | hc) | hc
      . exact Or.inr ⟨s, List.mem_cons_self, hc⟩
      . exact Or.inl hc
      . rcases ih hc with hc | ⟨u, hu, hc⟩
        . exact Or.inl hc
        . exact Or.inr ⟨u, List.mem_cons_of_mem _ hu, hc⟩

theorem stringSplit_intercalate {pieces : List (List UInt8)}
    (hpieces : ∀ s ∈ pieces, s ≠ [] ∧ first ∉ s)
    : stringSplit first sep (List.intercalate (first :: sep) pieces) = pieces := by
  induction pieces with
  | nil => exact stringSplit_nil first sep
  | cons s pieces ih =>
    have hs := hpieces s List.mem_cons_self
    cases pieces with
    | nil =>
      rw [List.intercalate_singleton]
      exact stringSplit_of_not_mem hs.2 hs.1
    | cons t pieces =>
      rw [List.intercalate_cons_cons, List.append_assoc, stringSplit_append hs.2,
        ih (fun s hs => hpieces s (List.mem_cons_of_mem _ hs))]

end Split

theorem atoi_of_digits {digits : List UInt8} (hdigits : ∀ c ∈ digits, isDigit c) : atoi digits = decimal digits := by
  have htake : digits.takeWhile isDigit = digits := by
    rw [List.takeWhile_eq_self_iff]
    exact hdigits
  unfold atoi
  cases digits with
  | nil => rfl
  | cons c digits =>
    have hc : 48 ≤ c ∧ c ≤ 57 := by
      simpa [isDigit] using hdigits c List.mem_cons_self
    have hspace : isSpace c = false := by
      simp only [isSpace, UInt8.le_iff_toNat_le, ← UInt8.toNat_inj] at hc ⊢
      simp at hc ⊢
      omega
    rw [List.dropWhile_cons_of_neg (by simp [hspace])]
    split
    next h =>
      cases h
      simp at hc
    next h =>
      cases h
      simp at hc
    next => rw [htake]

section Numbers

theorem isDigit_toUInt8 {c : Char} (h : c.isDigit) : isDigit c.toUInt8 ∧ c.toUInt8.toNat = c.toNat := by
  have hc : 48 ≤ c.toNat ∧ c.toNat ≤ 57 := by
    simpa [Char.isDigit, UInt32.le_iff_toNat_le] using h
  have hnat : c.toUInt8.toNat = c.toNat := by
    rw [Char.toUInt8, UInt32.toNat_toUInt8]
    change c.toNat % 256 = c.toNat
    omega
  refine ⟨?_, hnat⟩
  simp only [isDigit, UInt8.le_iff_toNat_le, hnat]
  simpa using hc

theorem isDigit_of_mem_natText {n : Nat} {c : UInt8} (h : c ∈ natText n) : isDigit c := by
  rcases List.mem_map.mp h with ⟨d, hd, rfl⟩
  exact (isDigit_toUInt8 (Nat.isDigit_of_mem_toDigits (by omega) (by omega) hd)).1

theorem decimal_natText (n : Nat) : decimal (natText n) = n := by
  have hfold : ∀ (digits : List Char) (init : Nat), (∀ c ∈ digits, c.isDigit)
      → (ascii digits).foldl (fun n c => 10 * n + (c.toNat - 48)) init = Nat.ofDigitChars 10 digits init := by
    intro digits
    induction digits with
    | nil => exact fun init _ => rfl
    | cons c digits ih =>
      intro init hdigits
      have hc := (isDigit_toUInt8 (hdigits c List.mem_cons_self)).2
      rw [ascii, List.map_cons, List.foldl_cons, hc]
      exact ih _ fun d hd => hdigits d (List.mem_cons_of_mem _ hd)
  have hdigits : ∀ c ∈ Nat.toDigits 10 n, c.isDigit :=
    fun c hc => Nat.isDigit_of_mem_toDigits (by omega) (by omega) hc
  exact (hfold _ 0 hdigits).trans Nat.ofDigitChars_ten_toDigits

theorem natText_ne_nil (n : Nat) : natText n ≠ [] := by
  simp [natText, ascii, Nat.toDigits_ne_nil]

theorem intText_ne_nil (n : Int) : intText n ≠ [] := by
  unfold intText
  split
  . exact List.cons_ne_nil _ _
  . exact natText_ne_nil _

theorem atoi_natText (n : Nat) : atoi (natText n) = n := by
  rw [atoi_of_digits fun c hc => isDigit_of_mem_natText hc, decimal_natText]

theorem atoi_intText (n : Int) : atoi (intText n) = n := by
  unfold intText
  split
  next hneg =>
    have htake : (natText n.natAbs).takeWhile isDigit = natText n.natAbs := by
      rw [List.takeWhile_eq_self_iff]
      exact fun c hc => isDigit_of_mem_natText hc
    have hspace : (45 :: natText n.natAbs).dropWhile isSpace = 45 :: natText n.natAbs := rfl
    unfold atoi
    rw [hspace]
    simp only
    rw [htake, decimal_natText]
    omega
  next hpos =>
    rw [atoi_natText]
    omega

theorem atoi32_intText (n : Int32) : atoi32 (intText n.toInt) = n := by
  have hle := n.le_toInt
  have hlt := n.toInt_lt
  rw [atoi32, atoi_intText, min_eq_left (by omega), max_eq_right (by omega), Int32.ofInt_toInt]

theorem atoi32_natText (n : UInt32) : (atoi32 (natText n.toNat)).toUInt32 = n := by
  have hlt := n.toNat_lt
  rw [atoi32, atoi_natText, min_eq_left (by omega), max_eq_right (by omega), Int32.ofInt_eq_ofNat]
  exact UInt32.ofNat_toNat

theorem not_mem_intText {c : UInt8} (n : Int) (hdigit : isDigit c = false) (hc : c ≠ 45) : c ∉ intText n := by
  have hnat : c ∉ natText n.natAbs := by
    intro hmem
    rw [isDigit_of_mem_natText hmem] at hdigit
    cases hdigit
  unfold intText
  split
  . exact List.not_mem_cons_of_ne_of_not_mem hc hnat
  . exact hnat

end Numbers

end StringEx
