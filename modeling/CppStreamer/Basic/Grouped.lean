import Mathlib.Data.List.Basic

/-!
This module contains computations that take a list in groups of one size, the last group may be short.
-/

namespace List

variable {α β : Type} {n m : Nat} {full last : List α → List β} {xs rest pending : List α}

/--
Values are collected until there are `n` of them. A whole group comes to `full`, what is left at the end to `last`.
-/
def grouped (n : Nat) (full last : List α → List β) (pending : List α) : List α → List β
  | [] => last pending
  | a :: rest =>
    if (pending ++ [a]).length = n then
      full (pending ++ [a]) ++ grouped n full last [] rest
    else
      grouped n full last (pending ++ [a]) rest

theorem grouped_short (h : (pending ++ xs).length < n) : grouped n full last pending xs = last (pending ++ xs) := by
  induction xs generalizing pending with
  | nil => rw [grouped, append_nil]
  | cons a xs ih =>
    have hassoc : pending ++ a :: xs = pending ++ [a] ++ xs := by
      simp
    rw [hassoc, length_append] at h
    rw [grouped, if_neg (by omega), ih (by rw [length_append]; exact h), hassoc]

theorem grouped_group (hpending : pending.length < n) (h : (pending ++ xs).length = n)
    : grouped n full last pending (xs ++ rest) = full (pending ++ xs) ++ grouped n full last [] rest := by
  induction xs generalizing pending with
  | nil =>
    rw [append_nil] at h
    omega
  | cons a xs ih =>
    have hassoc : pending ++ a :: xs = pending ++ [a] ++ xs := by
      simp
    rw [hassoc] at h ⊢
    rw [cons_append, grouped]
    by_cases hfull : (pending ++ [a]).length = n
    . have hxs : xs = [] := by
        rw [length_append] at h
        apply eq_nil_of_length_eq_zero
        omega
      rw [if_pos hfull, hxs, append_nil, nil_append]
    . rw [if_neg hfull]
      apply ih
      . rw [length_append] at hfull ⊢
        simp only [length_singleton] at hfull ⊢
        omega
      . exact h

/--
What is left behind the last whole group.
-/
def leftOver (n : Nat) (xs : List α) : List α := xs.drop (n * (xs.length / n))

theorem length_leftOver (n : Nat) (xs : List α) : (leftOver n xs).length = xs.length % n := by
  have hdiv := Nat.div_add_mod xs.length n
  rw [leftOver, length_drop]
  omega

theorem leftOver_short (h : xs.length < n) : leftOver n xs = xs := by
  rw [leftOver, Nat.div_eq_of_lt h, Nat.mul_zero, drop_zero]

theorem leftOver_group {g : List α} (hn : 0 < n) (hg : g.length = n) : leftOver n (g ++ rest) = leftOver n rest := by
  have hdiv : (g ++ rest).length / n = rest.length / n + 1 := by
    rw [length_append, hg, Nat.add_comm, Nat.add_div_right _ hn]
  rw [leftOver, hdiv, drop_append, drop_eq_nil_of_le (by rw [hg]; exact Nat.le_mul_of_pos_right n (Nat.succ_pos _)), hg,
    Nat.mul_add_one, Nat.add_sub_cancel, nil_append, leftOver]

@[elab_as_elim]
theorem groups_induction {motive : List α → Prop} (hn : 0 < n) (short : ∀ xs, xs.length < n → motive xs)
    (group : ∀ g rest, g.length = n → motive rest → motive (g ++ rest)) (xs : List α) : motive xs := by
  induction hlen : xs.length using Nat.strongRecOn generalizing xs with
  | ind len ih =>
    by_cases hshort : xs.length < n
    . exact short xs hshort
    . rw [← take_append_drop n xs]
      apply group
      . rw [length_take]
        omega
      . apply ih (xs.drop n).length _ _ rfl
        rw [length_drop]
        omega

/--
What is taken apart group by group is put together group by group.
-/
theorem grouped_grouped {full' last' : List β → List α} (hn : 0 < n)
    (hfull : ∀ g : List α, g.length = n → (full g).length = m ∧ full' (full g) = g)
    (hlast : ∀ g : List α, g.length < n → (last g).length < m ∧ last' (last g) = g) (xs : List α)
    : grouped m full' last' [] (grouped n full last [] xs) = xs := by
  induction xs using groups_induction hn with
  | short g hg =>
    have hout : grouped n full last [] g = last g := grouped_short hg
    rw [hout]
    exact (grouped_short (hlast g hg).left).trans (hlast g hg).right
  | group g rest hg ih =>
    have hm : 0 < m := Nat.pos_of_ne_zero fun hzero => by
      have hnil := (hlast [] hn).left
      omega
    have hout : grouped n full last [] (g ++ rest) = full g ++ grouped n full last [] rest := grouped_group hn hg
    rw [hout, grouped_group hm (hfull g hg).left, nil_append, ih, (hfull g hg).right]

theorem length_grouped (hn : 0 < n) (hfull : ∀ g : List α, g.length = n → (full g).length = m) (xs : List α)
    : (grouped n full last [] xs).length = m * (xs.length / n) + (last (leftOver n xs)).length := by
  induction xs using groups_induction hn with
  | short g hg =>
    have hout : grouped n full last [] g = last g := grouped_short hg
    rw [hout, leftOver_short hg, Nat.div_eq_of_lt hg, Nat.mul_zero, Nat.zero_add]
  | group g rest hg ih =>
    have hdiv : (g ++ rest).length / n = rest.length / n + 1 := by
      rw [length_append, hg, Nat.add_comm, Nat.add_div_right _ hn]
    have hout : grouped n full last [] (g ++ rest) = full g ++ grouped n full last [] rest := grouped_group hn hg
    rw [hout, length_append, ih, hdiv, leftOver_group hn hg, hfull g hg, Nat.mul_add_one, ← Nat.add_assoc, Nat.add_comm m]

theorem grouped_last_append {pad : List α → List β} (hn : 0 < n) (xs : List α)
    : grouped n full (fun g => last g ++ pad g) [] xs = grouped n full last [] xs ++ pad (leftOver n xs) := by
  induction xs using groups_induction hn with
  | short g hg =>
    rw [leftOver_short hg]
    exact (grouped_short hg).trans (congrArg (· ++ pad g) (grouped_short hg).symm)
  | group g rest hg ih =>
    have hout : ∀ last, grouped n full last [] (g ++ rest) = full g ++ grouped n full last [] rest :=
      fun _ => grouped_group hn hg
    rw [hout, hout, ih, leftOver_group hn hg, append_assoc]

theorem forall_mem_grouped {P : β → Prop} (hn : 0 < n) (hfull : ∀ g : List α, g.length = n → ∀ b ∈ full g, P b)
    (hlast : ∀ g : List α, g.length < n → ∀ b ∈ last g, P b) (xs : List α) : ∀ b ∈ grouped n full last [] xs, P b := by
  induction xs using groups_induction hn with
  | short g hg =>
    have hout : grouped n full last [] g = last g := grouped_short hg
    rw [hout]
    exact hlast g hg
  | group g rest hg ih =>
    have hout : grouped n full last [] (g ++ rest) = full g ++ grouped n full last [] rest := grouped_group hn hg
    rw [hout, forall_mem_append]
    exact ⟨hfull g hg, ih⟩

end List
