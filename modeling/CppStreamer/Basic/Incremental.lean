import Mathlib.Algebra.Order.Ring.Int
import Mathlib.Data.List.Basic

/-!
This module contains readers of a stream that arrives in pieces, and the proof that what such a
reader produces does not depend on where the stream was cut.
-/

namespace Incremental

variable {σ β ε δ : Type}

/--
What one attempt of a reader on the data it has buffered comes to.
-/
inductive Step (σ ε : Type) where
  /--
  The buffered data does not suffice, the reader waits in state `s`.
  -/
  | stall (s : σ)
  /--
  The reader made progress and produced `out`.
  -/
  | next (s : σ) (out : List ε)
  /--
  The reader produced `out` and gave up for good.
  -/
  | fail (out : List ε)

def Step.filterMap (f : ε → Option δ) : Step σ ε → Step σ δ
  | stall s => stall s
  | next s out => next s (out.filterMap f)
  | fail out => fail (out.filterMap f)

section FilterMap

variable {f : ε → Option δ} {st : Step σ ε} {s : σ} {out : List δ}

theorem Step.filterMap_eq_stall (h : st.filterMap f = .stall s) : st = .stall s := by
  cases st with
  | stall s' =>
    cases h
    rfl
  | next s' out' => cases h
  | fail out' => cases h

theorem Step.filterMap_eq_next (h : st.filterMap f = .next s out)
    : ∃ out', st = .next s out' ∧ out'.filterMap f = out := by
  cases st with
  | stall s' => cases h
  | next s' out' =>
    cases h
    exact ⟨out', rfl, rfl⟩
  | fail out' => cases h

theorem Step.filterMap_eq_fail (h : st.filterMap f = .fail out)
    : ∃ out', st = .fail out' ∧ out'.filterMap f = out := by
  cases st with
  | stall s' => cases h
  | next s' out' => cases h
  | fail out' =>
    cases h
    exact ⟨out', rfl, rfl⟩

end FilterMap

/--
A reader together with the laws that make it indifferent to fragmentation: an attempt that comes to
a decision comes to the same one when more data is buffered behind, and an attempt that had to wait
may be repeated from the state it waits in. The laws are asked of the states that fit only, so that
a reader which mistreats some inputs is still a reader on the others.
-/
structure Reader (σ β ε : Type) where
  feed : σ → List β → σ
  step : σ → Step σ ε
  rank : σ → Nat
  fits : σ → Prop
  feed_nil : ∀ s, feed s [] = s
  feed_append : ∀ s x y, feed s (x ++ y) = feed (feed s x) y
  rank_lt : ∀ s s' out, step s = .next s' out → rank s' < rank s
  step_stall : ∀ s s' x, fits s → step s = .stall s' → step (feed s' x) = step (feed s x)
  step_next : ∀ s s' out x, fits s → step s = .next s' out → step (feed s x) = .next (feed s' x) out
  step_fail : ∀ s out x, fits s → step s = .fail out → step (feed s x) = .fail out
  fits_of_feed : ∀ s x, fits (feed s x) → fits s
  fits_stall : ∀ s s' x, fits s → step s = .stall s' → (fits (feed s' x) ↔ fits (feed s x))
  fits_next : ∀ s s' out x, fits s → step s = .next s' out → fits (feed s x)
  fits_fail : ∀ s out x, fits s → step s = .fail out → fits (feed s x)

/--
The output of a reader so far, together with its state unless it gave up.
-/
abbrev Result (σ ε : Type) := List ε × Option σ

def Result.andThen (r : Result σ ε) (k : σ → Result σ ε) : Result σ ε :=
  match r.2 with
  | some s => (r.1 ++ (k s).1, (k s).2)
  | none => (r.1, none)

@[simp]
theorem Result.andThen_some (out : List ε) (s : σ) (k : σ → Result σ ε)
    : Result.andThen (out, some s) k = (out ++ (k s).1, (k s).2) := rfl

@[simp]
theorem Result.andThen_none (out : List ε) (k : σ → Result σ ε)
    : Result.andThen (out, none) k = (out, none) := rfl

theorem Result.eq_nil_of_andThen {r : Result σ ε} {k : σ → Result σ ε} (h : (r.andThen k).1 = [])
    : r.1 = [] := by
  rcases r with ⟨out, _ | s⟩
  . exact h
  . rw [andThen_some] at h
    exact (List.append_eq_nil_iff.mp h).left

theorem Result.andThen_assoc (r : Result σ ε) (k l : σ → Result σ ε)
    : (r.andThen k).andThen l = r.andThen (fun s => (k s).andThen l) := by
  rcases r with ⟨out, _ | s⟩
  . simp
  . rcases hk : k s with ⟨out', _ | s'⟩
    . simp [hk]
    . simp [hk]

namespace Reader

variable (R : Reader σ β ε)

/--
The same reader for a listener that understands a part of what it produces.
-/
def filterMap (f : ε → Option δ) : Reader σ β δ where
  feed := R.feed
  step s := (R.step s).filterMap f
  rank := R.rank
  fits := R.fits
  feed_nil := R.feed_nil
  feed_append := R.feed_append
  rank_lt s s' out h := by
    obtain ⟨out', h, -⟩ := Step.filterMap_eq_next h
    exact R.rank_lt s s' out' h
  step_stall s s' x hf h := by
    rw [R.step_stall s s' x hf (Step.filterMap_eq_stall h)]
  step_next s s' out x hf h := by
    obtain ⟨out', hstep, rfl⟩ := Step.filterMap_eq_next h
    rw [R.step_next s s' out' x hf hstep]
    rfl
  step_fail s out x hf h := by
    obtain ⟨out', hstep, rfl⟩ := Step.filterMap_eq_fail h
    rw [R.step_fail s out' x hf hstep]
    rfl
  fits_of_feed := R.fits_of_feed
  fits_stall s s' x hf h := R.fits_stall s s' x hf (Step.filterMap_eq_stall h)
  fits_next s s' out x hf h := by
    obtain ⟨out', h, -⟩ := Step.filterMap_eq_next h
    exact R.fits_next s s' out' x hf h
  fits_fail s out x hf h := by
    obtain ⟨out', h, -⟩ := Step.filterMap_eq_fail h
    exact R.fits_fail s out' x hf h

/--
Repeat attempts until one of them stalls or fails.
-/
def drain (s : σ) : Result σ ε :=
  go (R.rank s + 1) s
where
  go (fuel : Nat) (s : σ) : Result σ ε :=
    match fuel with
    | 0 => ([], some s)
    | fuel + 1 =>
      match R.step s with
      | .stall s' => ([], some s')
      | .next s' out => Result.andThen (out, some s') (go fuel)
      | .fail out => (out, none)

theorem drain.go_eq_go (n m : Nat) (s : σ) (hn : R.rank s < n) (hm : R.rank s < m)
    : go R n s = go R m s := by
  induction n generalizing s m with
  | zero => omega
  | succ n ih =>
    cases m with
    | zero => omega
    | succ m =>
      unfold go
      split
      . rfl
      . next s' out hstep =>
        have := R.rank_lt s s' out hstep
        simp only [Result.andThen_some]
        rw [ih m s' (by omega) (by omega)]
      . rfl

theorem drain_stall {s s' : σ} (h : R.step s = .stall s') : R.drain s = ([], some s') := by
  simp [drain, drain.go, h]

theorem drain_fail {s : σ} {out : List ε} (h : R.step s = .fail out)
    : R.drain s = (out, none) := by
  simp [drain, drain.go, h]

theorem drain_next {s s' : σ} {out : List ε} (h : R.step s = .next s' out)
    : R.drain s = Result.andThen (out, some s') R.drain := by
  have := R.rank_lt s s' out h
  rw [drain, drain.go, h]
  simp only [Result.andThen_some, drain]
  rw [drain.go_eq_go R _ (R.rank s' + 1) s' (by omega) (by omega)]

theorem drain_forall {P : ε → Prop} (hnext : ∀ s s' out, R.step s = .next s' out → ∀ e ∈ out, P e)
    (hfail : ∀ s out, R.step s = .fail out → ∀ e ∈ out, P e) (s : σ)
    : ∀ e ∈ (R.drain s).1, P e := by
  induction hn : R.rank s using Nat.strongRecOn generalizing s with
  | ind n ih =>
    intro e he
    cases hstep : R.step s with
    | stall s' => simp [R.drain_stall hstep] at he
    | next s' out =>
      rw [R.drain_next hstep, Result.andThen_some] at he
      have hlt := R.rank_lt s s' out hstep
      rcases List.mem_append.mp he with he | he
      . exact hnext s s' out hstep e he
      . exact ih _ (by omega) s' rfl e he
    | fail out =>
      rw [R.drain_fail hstep] at he
      exact hfail s out hstep e he

/--
Every state passed while draining from this one fits.
-/
inductive Safe : σ → Prop where
  | stall {s s' : σ} (hf : R.fits s) (h : R.step s = .stall s') : Safe s
  | next {s s' : σ} {out : List ε} (hf : R.fits s) (h : R.step s = .next s' out) (hs : Safe s')
      : Safe s
  | fail {s : σ} {out : List ε} (hf : R.fits s) (h : R.step s = .fail out) : Safe s

variable {R}

theorem Safe.fits {s : σ} (h : R.Safe s) : R.fits s := by
  cases h <;> assumption

theorem Safe.of_next {s s' : σ} {out : List ε} (h : R.Safe s) (hstep : R.step s = .next s' out)
    : R.Safe s' := by
  cases h with
  | stall _ h => rw [h] at hstep; contradiction
  | next _ h hs =>
    rw [h] at hstep
    simp only [Step.next.injEq] at hstep
    rw [← hstep.1]
    exact hs
  | fail _ h => rw [h] at hstep; contradiction

theorem Safe.congr {s t : σ} (h : R.Safe s) (hf : R.fits t) (hstep : R.step t = R.step s)
    : R.Safe t := by
  cases h with
  | stall _ h => exact .stall hf (hstep.trans h)
  | next _ h hs => exact .next hf (hstep.trans h) hs
  | fail _ h => exact .fail hf (hstep.trans h)

theorem safe_of_forall_fits (h : ∀ s, R.fits s) (s : σ) : R.Safe s := by
  induction hn : R.rank s using Nat.strongRecOn generalizing s with
  | ind n ih =>
    cases hstep : R.step s with
    | stall t => exact .stall (h s) hstep
    | next t out =>
      have hlt := R.rank_lt s t out hstep
      exact .next (h s) hstep (ih (R.rank t) (by omega) t rfl)
    | fail out => exact .fail (h s) hstep

variable (R)

/--
`P` holds of every state passed while draining from this one.
-/
inductive Along (P : σ → Prop) : σ → Prop where
  | stall {s s' : σ} (hp : P s) (h : R.step s = .stall s') : Along P s
  | next {s s' : σ} {out : List ε} (hp : P s) (h : R.step s = .next s' out) (hs : Along P s')
      : Along P s
  | fail {s : σ} {out : List ε} (hp : P s) (h : R.step s = .fail out) : Along P s

/--
An attempt in this state does not depend on what arrives later.
-/
structure Lawful (s : σ) : Prop where
  stall : ∀ s' x, R.step s = .stall s' → R.step (R.feed s' x) = R.step (R.feed s x)
  next : ∀ s' out x, R.step s = .next s' out → R.step (R.feed s x) = .next (R.feed s' x) out
  fail : ∀ out x, R.step s = .fail out → R.step (R.feed s x) = .fail out

variable {R}

theorem Along.mono {P Q : σ → Prop} (hpq : ∀ s, P s → Q s) {s : σ} (h : R.Along P s)
    : R.Along Q s := by
  induction h with
  | stall hp hstep => exact .stall (hpq _ hp) hstep
  | next hp hstep _ ih => exact .next (hpq _ hp) hstep ih
  | fail hp hstep => exact .fail (hpq _ hp) hstep

theorem lawful_of_fits {s : σ} (h : R.fits s) : R.Lawful s where
  stall := fun s' x => R.step_stall s s' x h
  next := fun s' out x => R.step_next s s' out x h
  fail := fun out x => R.step_fail s out x h

theorem Safe.along {s : σ} (h : R.Safe s) : R.Along R.Lawful s := by
  induction h with
  | stall hf hstep => exact .stall (lawful_of_fits hf) hstep
  | next hf hstep _ ih => exact .next (lawful_of_fits hf) hstep ih
  | fail hf hstep => exact .fail (lawful_of_fits hf) hstep

variable (R)

/--
Data that arrives behind a stretch the reader could already process does not change how it
processes this stretch.
-/
theorem drain_feed_of_along (s : σ) (x : List β) (hlawful : R.Along R.Lawful s)
    : R.drain (R.feed s x) = (R.drain s).andThen (fun s' => R.drain (R.feed s' x)) := by
  induction hlawful with
  | @stall s s' hp hstep =>
    rw [R.drain_stall hstep]
    have hsame := hp.stall s' x hstep
    cases hfeed : R.step (R.feed s x) with
    | stall t =>
      rw [R.drain_stall hfeed, Result.andThen_some, R.drain_stall (hsame.trans hfeed)]
      simp
    | next t out =>
      rw [R.drain_next hfeed, Result.andThen_some, Result.andThen_some,
        R.drain_next (hsame.trans hfeed)]
      simp
    | fail out =>
      rw [R.drain_fail hfeed, Result.andThen_some, R.drain_fail (hsame.trans hfeed)]
      simp
  | @next s s' out hp hstep hs ih =>
    rw [R.drain_next hstep, R.drain_next (hp.next s' out x hstep),
      Result.andThen_assoc, Result.andThen_some, Result.andThen_some]
    rw [ih]
  | @fail s out hp hstep =>
    rw [R.drain_fail hstep, R.drain_fail (hp.fail out x hstep), Result.andThen_none]

theorem drain_feed (s : σ) (x : List β) (hsafe : R.Safe s)
    : R.drain (R.feed s x) = (R.drain s).andThen (fun s' => R.drain (R.feed s' x)) :=
  R.drain_feed_of_along s x hsafe.along

theorem safe_of_feed (s : σ) (x : List β) (hsafe : R.Safe (R.feed s x))
    : R.Safe s ∧ ∀ out s', R.drain s = (out, some s') → R.Safe (R.feed s' x) := by
  induction hn : R.rank s using Nat.strongRecOn generalizing s with
  | ind n ih =>
    have hf := R.fits_of_feed s x hsafe.fits
    cases hstep : R.step s with
    | stall t =>
      refine ⟨.stall hf hstep, ?_⟩
      intro out s' hd
      rw [R.drain_stall hstep] at hd
      simp only [Prod.mk.injEq, Option.some.injEq] at hd
      rw [← hd.2]
      exact hsafe.congr ((R.fits_stall s t x hf hstep).mpr hsafe.fits) (R.step_stall s t x hf hstep)
    | next t o =>
      have hlt := R.rank_lt s t o hstep
      have := hsafe.of_next (R.step_next s t o x hf hstep)
      have := ih (R.rank t) (by omega) t this rfl
      refine ⟨.next hf hstep this.1, ?_⟩
      intro out s' hd
      rw [R.drain_next hstep, Result.andThen_some] at hd
      simp only [Prod.mk.injEq] at hd
      exact this.2 _ s' (Prod.ext rfl hd.2)
    | fail o =>
      refine ⟨.fail hf hstep, ?_⟩
      intro out s' hd
      rw [R.drain_fail hstep] at hd
      simp at hd

/--
A reader is quiet when it waits for data.
-/
def Quiet (s : σ) : Prop := R.step s = .stall s

theorem drain_of_quiet {s : σ} (h : R.Quiet s) : R.drain s = ([], some s) := R.drain_stall h

theorem quiet_of_along {s s' : σ} {out : List ε} (hlawful : R.Along R.Lawful s)
    (h : R.drain s = (out, some s'))
    : R.Quiet s' := by
  induction hlawful generalizing out with
  | @stall s t hp hstep =>
    rw [R.drain_stall hstep] at h
    simp only [Prod.mk.injEq, Option.some.injEq] at h
    have := hp.stall t [] hstep
    rw [R.feed_nil, R.feed_nil, hstep] at this
    rw [← h.2]
    exact this
  | @next s t o hf hstep hs ih =>
    rw [R.drain_next hstep, Result.andThen_some] at h
    simp only [Prod.mk.injEq] at h
    exact ih (Prod.ext rfl h.2)
  | @fail s o hf hstep =>
    rw [R.drain_fail hstep] at h
    simp at h

theorem quiet_of_drain {s s' : σ} {out : List ε} (hsafe : R.Safe s)
    (h : R.drain s = (out, some s'))
    : R.Quiet s' := R.quiet_of_along hsafe.along h

/--
Feed the pieces of a stream one after the other, draining the reader after each of them.
-/
def run (s : σ) : List (List β) → Result σ ε
  | [] => ([], some s)
  | x :: xs => (R.drain (R.feed s x)).andThen (fun s' => run s' xs)

theorem run_append (s : σ) (xs ys : List (List β))
    : R.run s (xs ++ ys) = (R.run s xs).andThen (fun s' => R.run s' ys) := by
  induction xs generalizing s with
  | nil => rfl
  | cons x xs ih =>
    rw [List.cons_append, run, run, Result.andThen_assoc]
    congr 1
    funext s'
    rw [ih]

theorem drain_invariant {P : σ → Prop} (hstall : ∀ s s', P s → R.step s = .stall s' → P s')
    (hnext : ∀ s s' out, P s → R.step s = .next s' out → P s') {s s' : σ} {out : List ε} (hs : P s)
    (h : R.drain s = (out, some s')) : P s' := by
  induction hn : R.rank s using Nat.strongRecOn generalizing s out with
  | ind n ih =>
    cases hstep : R.step s with
    | stall t =>
      rw [R.drain_stall hstep] at h
      cases h
      exact hstall s s' hs hstep
    | next t o =>
      rw [R.drain_next hstep, Result.andThen_some, Prod.mk.injEq] at h
      have hlt := R.rank_lt s t o hstep
      exact ih _ (by omega) (hnext s t o hs hstep) (Prod.ext rfl h.2) rfl
    | fail o =>
      rw [R.drain_fail hstep] at h
      cases h

theorem run_invariant {P : σ → Prop} (hfeed : ∀ s x, P s → P (R.feed s x))
    (hstall : ∀ s s', P s → R.step s = .stall s' → P s')
    (hnext : ∀ s s' out, P s → R.step s = .next s' out → P s') {s s' : σ} {out : List ε}
    {cuts : List (List β)} (hs : P s) (h : R.run s cuts = (out, some s')) : P s' := by
  induction cuts generalizing s out with
  | nil =>
    cases h
    exact hs
  | cons x xs ih =>
    rw [run] at h
    rcases hd : R.drain (R.feed s x) with ⟨out', _ | t⟩
    . rw [hd] at h
      cases h
    . rw [hd, Result.andThen_some, Prod.mk.injEq] at h
      exact ih (R.drain_invariant hstall hnext (hfeed s x hs) hd) (Prod.ext rfl h.2)

theorem run_singleton (s : σ) (x : List β) : R.run s [x] = R.drain (R.feed s x) := by
  unfold run
  rcases R.drain (R.feed s x) with ⟨out, _ | s'⟩
  . rfl
  . rw [Result.andThen_some, run, List.append_nil]

/--
What a reader produces does not depend on where its input is cut.
-/
theorem run_eq_drain (s : σ) (cuts : List (List β)) (hs : R.Quiet s)
    (hsafe : R.Safe (R.feed s cuts.flatten))
    : R.run s cuts = R.drain (R.feed s cuts.flatten) := by
  induction cuts generalizing s with
  | nil =>
    simp only [run, List.flatten_nil, R.feed_nil]
    rw [R.drain_of_quiet hs]
  | cons x xs ih =>
    rw [List.flatten_cons, R.feed_append] at hsafe ⊢
    have hx := R.safe_of_feed (R.feed s x) xs.flatten hsafe
    rw [run, R.drain_feed (R.feed s x) _ hx.1]
    rcases hd : R.drain (R.feed s x) with ⟨out, _ | s'⟩
    . simp
    . simp only [Result.andThen_some]
      rw [ih s' (R.quiet_of_drain hx.1 hd) (hx.2 out s' hd)]

/--
`P` holds of every state passed while the pieces of a stream are fed and drained.
-/
def RunAlong (P : σ → Prop) (s : σ) : List (List β) → Prop
  | [] => True
  | x :: xs =>
    R.Along P (R.feed s x)
      ∧ ∀ out s', R.drain (R.feed s x) = (out, some s') → RunAlong P s' xs

variable {R} in
theorem RunAlong.mono {P Q : σ → Prop} (hpq : ∀ s, P s → Q s) {s : σ} {cuts : List (List β)}
    (h : R.RunAlong P s cuts) : R.RunAlong Q s cuts := by
  induction cuts generalizing s with
  | nil => trivial
  | cons x xs ih =>
    refine ⟨h.1.mono hpq, ?_⟩
    intro out s' hdrain
    exact ih (h.2 out s' hdrain)

/--
Cuts that leave the reader in states it can go on from do not matter.
-/
theorem run_eq_drain_of_along (s : σ) (cuts : List (List β)) (hs : R.Quiet s)
    (hlawful : R.RunAlong R.Lawful s cuts)
    : R.run s cuts = R.drain (R.feed s cuts.flatten) := by
  have hquiet : R.drain (R.feed s []) = ([], some s) := by
    rw [R.feed_nil, R.drain_of_quiet hs]
  induction cuts generalizing s with
  | nil => exact hquiet.symm
  | cons x xs ih =>
    rw [List.flatten_cons, R.feed_append, run, R.drain_feed_of_along _ _ hlawful.1]
    rcases hd : R.drain (R.feed s x) with ⟨out, _ | s'⟩
    . rfl
    . have hs' := R.quiet_of_along hlawful.1 hd
      rw [Result.andThen_some, Result.andThen_some, ih s' hs' (hlawful.2 out s' hd)]
      rw [R.feed_nil, R.drain_of_quiet hs']

/--
`R.Drains s out s'` holds when the reader passes safely from `s` to `s'` and produces `out`.
-/
def Drains (s : σ) (out : List ε) (s' : σ) : Prop := R.Safe s ∧ R.drain s = (out, some s')

variable {R}

theorem Drains.stall {s s' : σ} (hf : R.fits s) (h : R.step s = .stall s') : R.Drains s [] s' :=
  ⟨.stall hf h, R.drain_stall h⟩

theorem Drains.next {s s' t : σ} {out out' : List ε} (hf : R.fits s)
    (h : R.step s = .next s' out) (hd : R.Drains s' out' t)
    : R.Drains s (out ++ out') t := by
  refine ⟨.next hf h hd.1, ?_⟩
  rw [R.drain_next h, Result.andThen_some, hd.2]

/--
Where a reader has drained its input it waits.
-/
theorem Safe.drains_rest {s t : σ} {out : List ε} (hs : R.Safe s) (hd : R.drain s = (out, some t))
    : R.Drains t [] t := by
  have hrest := (R.safe_of_feed s [] (by rw [R.feed_nil]; exact hs)).2 out t hd
  rw [R.feed_nil] at hrest
  exact ⟨hrest, R.drain_of_quiet (R.quiet_of_drain hs hd)⟩

theorem Safe.feed {s t : σ} {out : List ε} {y : List β} (hs : R.Safe s) (hd : R.drain s = (out, some t))
    (ht : R.Safe (R.feed t y)) : R.Safe (R.feed s y) := by
  induction hs generalizing out with
  | @stall s s' hf hstep =>
    rw [R.drain_stall hstep] at hd
    simp only [Prod.mk.injEq, Option.some.injEq] at hd
    rw [← hd.2] at ht
    exact ht.congr ((R.fits_stall s s' y hf hstep).mp ht.fits) (R.step_stall s s' y hf hstep).symm
  | @next s s' o hf hstep hs ih =>
    rw [R.drain_next hstep, Result.andThen_some] at hd
    simp only [Prod.mk.injEq] at hd
    exact .next (R.fits_next s s' o y hf hstep) (R.step_next s s' o y hf hstep)
      (ih (Prod.ext rfl hd.2))
  | @fail s o hf hstep =>
    rw [R.drain_fail hstep] at hd
    simp at hd

theorem Drains.append {s t u : σ} {out out' : List ε} {x y : List β}
    (hx : R.Drains (R.feed s x) out t) (hy : R.Drains (R.feed t y) out' u)
    : R.Drains (R.feed s (x ++ y)) (out ++ out') u := by
  rw [R.feed_append]
  generalize R.feed s x = s at hx
  refine ⟨hx.1.feed hx.2 hy.1, ?_⟩
  rw [R.drain_feed s y hx.1, hx.2, Result.andThen_some, hy.2]

/--
What a reader produces on a part of its input is the beginning of what it produces on the whole.
-/
theorem Drains.of_append {s u : σ} {out : List ε} {x y : List β}
    (h : R.Drains (R.feed s (x ++ y)) out u)
    : ∃ out₁ out₂ t, R.Drains (R.feed s x) out₁ t ∧ out = out₁ ++ out₂ := by
  rcases h with ⟨hsafe, hdrain⟩
  rw [R.feed_append] at hsafe hdrain
  have hx := (R.safe_of_feed (R.feed s x) y hsafe).1
  rw [R.drain_feed (R.feed s x) y hx] at hdrain
  rcases hd : R.drain (R.feed s x) with ⟨out₁, _ | t⟩
  . simp [hd] at hdrain
  . rw [hd, Result.andThen_some, Prod.mk.injEq] at hdrain
    exact ⟨out₁, _, t, ⟨hx, hd⟩, hdrain.1.symm⟩

theorem Drains.run_eq {s s' : σ} {out : List ε} {cuts : List (List β)} (hs : R.Quiet s)
    (h : R.Drains (R.feed s cuts.flatten) out s')
    : R.run s cuts = (out, some s') := by
  rw [R.run_eq_drain s cuts hs h.1, h.2]

end Reader

end Incremental
