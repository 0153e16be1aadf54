import Mathlib.Algebra.Order.Ring.Int
import Mathlib.Data.List.Basic

/-!
This module contains scanners: code that walks through memory with a pointer and an `int` that counts the
bytes left, which it has to compare with what it reads on its own. A scanner logs its accesses, so that it
can be said which of them stay inside the bytes that were left at its start.
-/

namespace Scan

variable {α γ β : Type}

/--
The offset of the pointer and the number of bytes that are left behind it.
-/
structure Cursor where
  offset : Nat
  left : Int

inductive Access where
  | read (offset len : Nat)
  | move (c : Cursor)

/--
The accesses of a scanner, and what it returns unless it does not come back.
-/
def Scanner (α : Type) : Type := Cursor → List Access × Option (α × Cursor)

namespace Scanner

instance : Monad Scanner where
  pure a c := ([], some (a, c))
  bind m f c :=
    match m c with
    | (log, some (a, c)) => (log ++ (f a c).1, (f a c).2)
    | (log, none) => (log, none)

def stop : Scanner α := fun _ => ([], none)

def left : Scanner Int := fun c => ([], some (c.left, c))

/--
Read without going on.
-/
def peek (mem : Nat → β) (len : Nat) : Scanner (List β) :=
  fun c => ([.read c.offset len], some ((List.range len).map fun i => mem (c.offset + i), c))

/--
Go on by a number of bytes. The count is one of 32 bits.
-/
def advance (len : Nat) : Scanner Unit := fun c =>
  let c : Cursor := ⟨c.offset + len, Int.bmod (c.left - len) (2 ^ 32)⟩
  ([.move c], some ((), c))

def take (mem : Nat → β) (len : Nat) : Scanner (List β) := do
  let data ← peek mem len
  advance len
  pure data

end Scanner

/--
The access stays inside the first `total` bytes, and the pointer and the count agree.
-/
def Access.Within (total : Nat) : Access → Prop
  | read offset len => offset + len ≤ total
  | move c => 0 ≤ c.left ∧ c.offset + c.left = total

/--
Every access of the scanner stays inside.
-/
def Safe (total : Nat) (m : Scanner α) (c : Cursor) : Prop := ∀ access ∈ (m c).1, access.Within total

/--
The last bytes of the first `total` ones.
-/
structure Holds (mem : Nat → β) (total : Nat) (data : List β) : Prop where
  length_le : data.length ≤ total
  bytes : ∀ i (h : i < data.length), mem (total - data.length + i) = data[i]

/--
The cursor in front of the last bytes.
-/
def cursor (total : Nat) (data : List β) : Cursor := ⟨total - data.length, data.length⟩

section Rules

variable {mem : Nat → β} {total : Nat} {data : List β} {n : Nat}

theorem Holds.drop (h : Holds mem total data) (n : Nat) : Holds mem total (data.drop n) where
  length_le := by
    have := h.length_le
    rw [List.length_drop]
    omega
  bytes i hi := by
    have hle := h.length_le
    rw [List.length_drop] at hi ⊢
    rw [List.getElem_drop, ← h.bytes (n + i) (by omega)]
    congr 1
    omega

theorem Holds.take (h : Holds mem total data) (hn : n ≤ data.length)
    : (List.range n).map (fun i => mem (total - data.length + i)) = data.take n := by
  apply List.ext_getElem
  . simp only [List.length_map, List.length_range, List.length_take]
    omega
  . intro i hi _
    simp only [List.length_map, List.length_range] at hi
    rw [List.getElem_map, List.getElem_range, List.getElem_take, h.bytes i (by omega)]

theorem bind_some {m : Scanner α} {f : α → Scanner γ} {c c' : Cursor} {log : List Access} {a : α}
    (h : m c = (log, some (a, c'))) : (m >>= f) c = (log ++ (f a c').1, (f a c').2) := by
  simp only [bind, h]

theorem bind_none {m : Scanner α} {f : α → Scanner γ} {c : Cursor} {log : List Access}
    (h : m c = (log, none)) : (m >>= f) c = (log, none) := by
  simp only [bind, h]

theorem bind_outcome (m : Scanner α) (f : α → Scanner γ) (c : Cursor)
    : ((m >>= f) c).2 = (m c).2.bind fun out => (f out.1 out.2).2 := by
  rcases hm : m c with ⟨log, _ | ⟨a, c'⟩⟩
  . rw [bind_none hm]
    rfl
  . rw [bind_some hm]
    rfl

theorem peek_eq (h : Holds mem total data) (hn : n ≤ data.length)
    : Scanner.peek mem n (cursor total data)
      = ([.read (total - data.length) n], some (data.take n, cursor total data)) := by
  rw [← h.take hn]
  rfl

theorem advance_eq (h : Holds mem total data) (htotal : total < 2 ^ 31) (hn : n ≤ data.length)
    : Scanner.advance n (cursor total data)
      = ([.move (cursor total (data.drop n))], some ((), cursor total (data.drop n))) := by
  have hle := h.length_le
  have hcursor : Cursor.mk (total - data.length + n) (Int.bmod (data.length - n) (2 ^ 32))
      = cursor total (data.drop n) := by
    unfold cursor
    rw [List.length_drop, Int.bmod_eq_of_le (by omega) (by omega), Cursor.mk.injEq]
    omega
  unfold Scanner.advance
  simp only [cursor] at hcursor ⊢
  rw [hcursor]

theorem cursor_within (h : Holds mem total data) : (Access.move (cursor total data)).Within total := by
  have := h.length_le
  unfold cursor Access.Within
  simp only
  omega

theorem safe_pure (a : α) (c : Cursor) : Safe total (pure a : Scanner α) c := by
  intro access haccess
  cases haccess

theorem safe_stop (c : Cursor) : Safe total (Scanner.stop : Scanner α) c := by
  intro access haccess
  cases haccess

theorem safe_bind {m : Scanner α} {f : α → Scanner γ} {c : Cursor}
    : Safe total (m >>= f) c
      ↔ Safe total m c ∧ ∀ a c', (m c).2 = some (a, c') → Safe total (f a) c' := by
  unfold Safe
  rcases hm : m c with ⟨log, _ | ⟨a, c'⟩⟩
  . simp [bind_none hm]
  . simp only [bind_some hm, List.forall_mem_append, Option.some.injEq, Prod.mk.injEq, and_imp]
    constructor
    . rintro ⟨hlog, hf⟩
      refine ⟨hlog, ?_⟩
      rintro _ _ rfl rfl
      exact hf
    . rintro ⟨hlog, hf⟩
      exact ⟨hlog, hf a c' rfl rfl⟩

theorem safe_left_bind {f : Int → Scanner α}
    : Safe total (Scanner.left >>= f) (cursor total data)
      ↔ Safe total (f data.length) (cursor total data) := Iff.rfl

theorem safe_peek_bind (h : Holds mem total data) {f : List β → Scanner α}
    : Safe total (Scanner.peek mem n >>= f) (cursor total data)
      ↔ n ≤ data.length ∧ Safe total (f (data.take n)) (cursor total data) := by
  have hle := h.length_le
  rw [safe_bind]
  by_cases hn : n ≤ data.length
  . rw [peek_eq h hn]
    have hread : Safe total (Scanner.peek mem n) (cursor total data) := by
      unfold Safe
      rw [peek_eq h hn]
      simp only [List.mem_singleton, forall_eq, Access.Within]
      omega
    constructor
    . rintro ⟨_, hf⟩
      exact ⟨hn, hf _ _ rfl⟩
    . rintro ⟨_, hf⟩
      refine ⟨hread, ?_⟩
      rintro _ _ ⟨⟩
      exact hf
  . constructor
    . rintro ⟨hread, _⟩
      have hfirst := hread (.read (total - data.length) n) List.mem_cons_self
      unfold Access.Within at hfirst
      omega
    . rintro ⟨hle, _⟩
      exact absurd hle hn

theorem safe_advance_bind (h : Holds mem total data) (htotal : total < 2 ^ 31) (hsmall : n < 2 ^ 31)
    {f : Unit → Scanner α}
    : Safe total (Scanner.advance n >>= f) (cursor total data)
      ↔ n ≤ data.length ∧ Safe total (f ()) (cursor total (data.drop n)) := by
  have hle := h.length_le
  rw [safe_bind]
  by_cases hn : n ≤ data.length
  . rw [advance_eq h htotal hn]
    have hmove : Safe total (Scanner.advance n) (cursor total data) := by
      unfold Safe
      rw [advance_eq h htotal hn]
      simp only [List.mem_singleton, forall_eq]
      exact cursor_within (h.drop n)
    constructor
    . rintro ⟨_, hf⟩
      exact ⟨hn, hf _ _ rfl⟩
    . rintro ⟨_, hf⟩
      refine ⟨hmove, ?_⟩
      rintro _ _ ⟨⟩
      exact hf
  . constructor
    . rintro ⟨hmove, _⟩
      -- the count has become negative
      have hfirst := (hmove (.move ⟨_, Int.bmod (data.length - n) (2 ^ 32)⟩) List.mem_cons_self).1
      rw [Int.bmod_eq_of_le (by omega) (by omega)] at hfirst
      simp only at hfirst
      omega
    . rintro ⟨hle, _⟩
      exact absurd hle hn

theorem take_bind (mem : Nat → β) (n : Nat) (f : List β → Scanner α)
    : (Scanner.take mem n >>= f)
      = Scanner.peek mem n >>= fun data => Scanner.advance n >>= fun _ => f data := rfl

theorem safe_take_bind (h : Holds mem total data) (htotal : total < 2 ^ 31) {f : List β → Scanner α}
    : Safe total (Scanner.take mem n >>= f) (cursor total data)
      ↔ n ≤ data.length ∧ Safe total (f (data.take n)) (cursor total (data.drop n)) := by
  have hle := h.length_le
  rw [take_bind, safe_peek_bind h]
  constructor
  . rintro ⟨hn, hf⟩
    rw [safe_advance_bind h htotal (by omega)] at hf
    exact ⟨hn, hf.2⟩
  . rintro ⟨hn, hf⟩
    rw [safe_advance_bind h htotal (by omega)]
    exact ⟨hn, hn, hf⟩

end Rules

section Spec

/--
In front of `data` the scanner is safe, and its outcome satisfies `Q`: it does not come back, or it returns a
value in front of what is left then.
-/
structure Spec (mem : Nat → β) (total : Nat) (m : Scanner α) (data : List β)
    (Q : Option (α × List β) → Prop) : Prop where
  safe : Safe total m (cursor total data)
  stops : (m (cursor total data)).2 = none → Q none
  returns : ∀ a c, (m (cursor total data)).2 = some (a, c) →
    ∃ left, c = cursor total left ∧ Holds mem total left ∧ Q (some (a, left))

variable {mem : Nat → β} {total : Nat} {data : List β} {n : Nat} {Q : Option (α × List β) → Prop}

theorem Spec.pure {a : α} (h : Holds mem total data) (hq : Q (some (a, data)))
    : Spec mem total (Pure.pure a : Scanner α) data Q where
  safe := safe_pure a _
  stops := fun hnone => nomatch hnone
  returns := by
    rintro _ _ ⟨⟩
    exact ⟨data, rfl, h, hq⟩

theorem Spec.stop (hq : Q none) : Spec mem total (Scanner.stop : Scanner α) data Q where
  safe := safe_stop _
  stops := fun _ => hq
  returns := fun _ _ hsome => nomatch hsome

theorem Spec.bind {m : Scanner γ} {f : γ → Scanner α} {R : Option (γ × List β) → Prop}
    (hm : Spec mem total m data R) (hnone : R none → Q none)
    (hf : ∀ a left, Holds mem total left → R (some (a, left)) → Spec mem total (f a) left Q)
    : Spec mem total (m >>= f) data Q := by
  rcases hlog : m (cursor total data) with ⟨log, _ | ⟨a, c⟩⟩
  . constructor
    . rw [safe_bind]
      refine ⟨hm.safe, ?_⟩
      rw [hlog]
      rintro _ _ ⟨⟩
    . rw [bind_none hlog]
      intro _
      exact hnone (hm.stops (by rw [hlog]))
    . rw [bind_none hlog]
      rintro _ _ ⟨⟩
  . rcases hm.returns a c (by rw [hlog]) with ⟨left, rfl, hholds, hr⟩
    have hspec := hf a left hholds hr
    constructor
    . rw [safe_bind, hlog]
      refine ⟨hm.safe, ?_⟩
      rintro _ _ ⟨⟩
      exact hspec.safe
    . rw [bind_some hlog]
      exact hspec.stops
    . rw [bind_some hlog]
      exact hspec.returns

theorem Spec.bind_of_safe {m : Scanner γ} {f : γ → Scanner α} {R : Option (γ × List β) → Prop}
    (hm : Spec mem total m data R) (hsafe : Safe total (m >>= f) (cursor total data))
    (hnone : R none → Q none)
    (hf : ∀ a left, Holds mem total left → R (some (a, left)) → Safe total (f a) (cursor total left) →
      Spec mem total (f a) left Q)
    : Spec mem total (m >>= f) data Q := by
  rw [safe_bind] at hsafe
  rcases hlog : (m (cursor total data)).2 with _ | ⟨a, c⟩
  . apply Spec.bind (R := fun out => R out ∧ out = none)
    . constructor
      . exact hm.safe
      . intro hstops
        exact ⟨hm.stops hstops, rfl⟩
      . rw [hlog]
        rintro _ _ ⟨⟩
    . rintro ⟨hr, _⟩
      exact hnone hr
    . rintro _ _ _ ⟨_, ⟨⟩⟩
  . rcases hm.returns a c hlog with ⟨left, rfl, hholds, hr⟩
    apply Spec.bind (R := fun out => out = some (a, left))
    . constructor
      . exact hm.safe
      . rw [hlog]
        rintro ⟨⟩
      . rw [hlog]
        rintro _ _ ⟨⟩
        exact ⟨left, rfl, hholds, rfl⟩
    . rintro ⟨⟩
    . rintro _ _ hleft ⟨⟩
      exact hf a left hleft hr (hsafe.2 a _ hlog)

theorem Spec.left {f : Int → Scanner α} (h : Spec mem total (f data.length) data Q)
    : Spec mem total (Scanner.left >>= f) data Q := ⟨h.safe, h.stops, h.returns⟩

theorem Spec.peek {f : List β → Scanner α} (h : Holds mem total data) (hn : n ≤ data.length)
    (hf : Spec mem total (f (data.take n)) data Q) : Spec mem total (Scanner.peek mem n >>= f) data Q := by
  constructor
  . exact (safe_peek_bind h).mpr ⟨hn, hf.safe⟩
  . rw [bind_some (peek_eq h hn)]
    exact hf.stops
  . rw [bind_some (peek_eq h hn)]
    exact hf.returns

theorem Spec.advance {f : Unit → Scanner α} (h : Holds mem total data) (htotal : total < 2 ^ 31)
    (hn : n ≤ data.length) (hf : Spec mem total (f ()) (data.drop n) Q)
    : Spec mem total (Scanner.advance n >>= f) data Q := by
  have hle := h.length_le
  constructor
  . exact (safe_advance_bind h htotal (by omega)).mpr ⟨hn, hf.safe⟩
  . rw [bind_some (advance_eq h htotal hn)]
    exact hf.stops
  . rw [bind_some (advance_eq h htotal hn)]
    exact hf.returns

theorem Spec.take {f : List β → Scanner α} (h : Holds mem total data) (htotal : total < 2 ^ 31)
    (hn : n ≤ data.length) (hf : Spec mem total (f (data.take n)) (data.drop n) Q)
    : Spec mem total (Scanner.take mem n >>= f) data Q := by
  rw [take_bind]
  apply Spec.peek h hn
  exact .advance h htotal hn hf

theorem Spec.safe_of_bind {m : Scanner γ} {f : γ → Scanner α} {R : Option (γ × List β) → Prop}
    (hm : Spec mem total m data R) (hsafe : Safe total (m >>= f) (cursor total data))
    (hreturns : ¬ R none)
    : ∃ a left, Holds mem total left ∧ R (some (a, left)) ∧ Safe total (f a) (cursor total left) := by
  rcases hlog : m (cursor total data) with ⟨log, _ | ⟨a, c⟩⟩
  . exact absurd (hm.stops (by rw [hlog])) hreturns
  . rcases hm.returns a c (by rw [hlog]) with ⟨left, rfl, hholds, hr⟩
    rw [safe_bind] at hsafe
    exact ⟨a, left, hholds, hr, hsafe.2 a _ (by rw [hlog])⟩

end Spec

section Returns

variable {mem : Nat → β} {total : Nat} {data : List β} {n : Nat}

/--
The scanner stays inside and comes back.
-/
def Returns (total : Nat) (m : Scanner α) (c : Cursor) : Prop := Safe total m c ∧ (m c).2 ≠ none

theorem returns_pure (a : α) (c : Cursor) : Returns total (pure a : Scanner α) c :=
  ⟨safe_pure a c, Option.some_ne_none _⟩

theorem returns_bind {m : Scanner α} {f : α → Scanner γ} {c : Cursor}
    : Returns total (m >>= f) c
      ↔ Returns total m c ∧ ∀ a c', (m c).2 = some (a, c') → Returns total (f a) c' := by
  unfold Returns
  rw [safe_bind]
  rcases hm : m c with ⟨log, _ | ⟨a, c'⟩⟩
  . simp [bind_none hm]
  . simp only [bind_some hm, Option.some.injEq, Prod.mk.injEq, and_imp, ne_eq, reduceCtorEq, not_false_eq_true,
      and_true]
    constructor
    . rintro ⟨⟨hsafe, hrest⟩, hreturns⟩
      refine ⟨hsafe, ?_⟩
      rintro _ _ rfl rfl
      exact ⟨hrest a c' rfl rfl, hreturns⟩
    . rintro ⟨hsafe, hrest⟩
      refine ⟨⟨hsafe, ?_⟩, (hrest a c' rfl rfl).right⟩
      rintro _ _ rfl rfl
      exact (hrest a c' rfl rfl).left

theorem returns_left_bind {f : Int → Scanner α}
    : Returns total (Scanner.left >>= f) (cursor total data)
      ↔ Returns total (f data.length) (cursor total data) := Iff.rfl

theorem returns_peek_bind (h : Holds mem total data) {f : List β → Scanner α}
    : Returns total (Scanner.peek mem n >>= f) (cursor total data)
      ↔ n ≤ data.length ∧ Returns total (f (data.take n)) (cursor total data) := by
  unfold Returns
  rw [safe_peek_bind h]
  by_cases hn : n ≤ data.length
  . rw [bind_some (peek_eq h hn), and_assoc]
  . simp only [hn, false_and]

/--
Whatever the scanner returns satisfies `P`.
-/
def Yields (m : Scanner α) (P : α → Prop) : Prop := ∀ c a c', (m c).2 = some (a, c') → P a

variable {P : α → Prop}

theorem yields_pure {a : α} (h : P a) : Yields (pure a) P := by
  rintro c _ _ ⟨⟩
  exact h

theorem yields_stop : Yields Scanner.stop P := by
  rintro c _ _ ⟨⟩

theorem yields_bind {m : Scanner γ} {f : γ → Scanner α} (h : ∀ a, Yields (f a) P) : Yields (m >>= f) P := by
  intro c a c' hout
  rw [bind_outcome] at hout
  obtain ⟨⟨b, c''⟩, -, hout⟩ := Option.bind_eq_some_iff.mp hout
  exact h b c'' a c' hout

theorem yields_ite {p : Prop} [Decidable p] {m m' : Scanner α} (h : p → Yields m P) (h' : ¬p → Yields m' P)
    : Yields (if p then m else m') P := by
  split
  . next hp => exact h hp
  . next hp => exact h' hp

end Returns

section Loop

variable {σ : Type}

/--
A loop `while (left > 0)` ends: no turn of it that stays inside the first `total` bytes and comes back leaves as
many bytes as there were.
-/
inductive Ends (total : Nat) (turn : σ → Scanner σ) : σ → Cursor → Prop where
  | done {s : σ} {c : Cursor} (hleft : c.left ≤ 0) : Ends total turn s c
  | beyond {s : σ} {c : Cursor} (hleft : 0 < c.left) (h : ¬Safe total (turn s) c) : Ends total turn s c
  | stops {s : σ} {c : Cursor} (hleft : 0 < c.left) (hsafe : Safe total (turn s) c) (h : (turn s c).2 = none)
      : Ends total turn s c
  | next {s s' : σ} {c c' : Cursor} (hleft : 0 < c.left) (hsafe : Safe total (turn s) c)
      (h : (turn s c).2 = some (s', c')) (hlt : c'.left < c.left) (rest : Ends total turn s' c')
      : Ends total turn s c

end Loop

end Scan
