import CppStreamer.Basic.Numeric
import Mathlib.Data.UInt

/-!
This module contains the jitter of `RtcRecvStream`, and when it does not depend on where the times of a stream
begin.
-/

/--
`GenerateJitter` throws for another one.
-/
abbrev ClockRate := { clockRate : Int // 0 < clockRate ∧ clockRate < 2 ^ 31 }

/--
The smoothing is done over the rationals.
-/
structure RtcJitter where
  lastDiffMs : Int := 0
  jitter : ℚ := 0

namespace RtcJitter

variable (clockRate : ClockRate)

/--
The product and the quotient are of type `uint32_t`.
-/
def rtpMs (rtpTimestamp : UInt32) : Int := (rtpTimestamp * 1000).toNat / clockRate.val

def generateJitter (s : RtcJitter) (rtpTimestamp : UInt32) (recvPktMs : Int) : RtcJitter :=
  let diffT := recvPktMs - rtpMs clockRate rtpTimestamp
  if s.lastDiffMs = 0 then { s with lastDiffMs := diffT }
  else { s with jitter := s.jitter + (|diffT - s.lastDiffMs| - s.jitter) / 8 }

/--
The jitter behind each packet, for which its timestamp and the time of its arrival are given.
-/
def jitters (s : RtcJitter) : List (UInt32 × Int) → List ℚ
  | [] => []
  | pkt :: pkts =>
    let s := s.generateJitter clockRate pkt.fst pkt.snd
    s.jitter :: s.jitters pkts

def diff (pkt : UInt32 × Int) : Int := pkt.snd - rtpMs clockRate pkt.fst

/--
How far each difference is from the first one that is not 0. It is 0 up to that one.
-/
def deviations : List Int → List Int
  | [] => []
  | d :: ds => if d = 0 then 0 :: deviations ds else 0 :: ds.map (|· - d|)

/--
A packet of a paced stream, the time of which is a whole number of milliseconds behind the start.
-/
structure Paced where
  ticks : Nat
  ms : Nat
  whole : (ticks * 1000 : Int) = clockRate.val * ms

namespace Paced

variable {clockRate} (timestamp : UInt32) (recvMs : Int) (p : Paced clockRate)

/--
The packet of a stream with this timestamp and this time at its start.
-/
def pkt : UInt32 × Int := (timestamp + UInt32.ofNat p.ticks, recvMs + p.ms)

/--
How many times the product of the RTP time has wrapped.
-/
def wraps : Nat := (timestamp.toNat + p.ticks) * 1000 / 2 ^ 32

end Paced

variable {clockRate}

/--
From the first packet on that does not arrive at the very time that is computed for it, the product does not wrap.
-/
def SameWraps (timestamp : UInt32) (recvMs : Int) (ps : List (Paced clockRate)) : Prop :=
  let rest := ps.dropWhile fun p => diff clockRate (p.pkt timestamp recvMs) = 0
  ∀ p ∈ rest, ∀ p' ∈ rest, p.wraps timestamp = p'.wraps timestamp

section Deviations

theorem map_abs_eq_deviations_iff (ds : List Int) : ds.map (|·|) = deviations ds ↔ ∀ d ∈ ds, d = 0 := by
  induction ds with
  | nil => simp [deviations]
  | cons d ds ih =>
    unfold deviations
    split
    next hzero =>
      rw [List.map_cons, List.cons.injEq, ih, List.forall_mem_cons, abs_eq_zero]
    next hne => simp [hne]

theorem deviations_eq_zero_iff (ds : List Int)
    : (∀ d ∈ deviations ds, d = 0)
        ↔ ∀ d ∈ ds.dropWhile (· = 0), ∀ d' ∈ ds.dropWhile (· = 0), d = d' := by
  induction ds with
  | nil => simp [deviations]
  | cons d ds ih =>
    unfold deviations
    split
    next hzero =>
      rw [List.forall_mem_cons, ih, List.dropWhile_cons_of_pos (by simp [hzero])]
      simp
    next hne =>
      rw [List.forall_mem_cons, List.dropWhile_cons_of_neg (by simp [hne])]
      simp only [true_and, List.forall_mem_map, abs_eq_zero, sub_eq_zero]
      constructor
      . intro h x hx y hy
        have hsame (z : Int) (hz : z ∈ d :: ds) : z = d := by
          cases List.mem_cons.mp hz with
          | inl heq => exact heq
          | inr hmem => exact h z hmem
        rw [hsame x hx, hsame y hy]
      . intro h x hx
        exact h x (List.mem_cons_of_mem _ hx) d List.mem_cons_self

theorem forall_mem_eq_iff (d : Int) (ds : List Int)
    : (∀ x ∈ d :: ds, ∀ y ∈ d :: ds, x = y) ↔ ∀ x ∈ ds, x = d := by
  constructor
  . intro h x hx
    exact h x (List.mem_cons_of_mem _ hx) d List.mem_cons_self
  . intro h x hx y hy
    have hsame (z : Int) (hz : z ∈ d :: ds) : z = d := by
      cases List.mem_cons.mp hz with
      | inl heq => exact heq
      | inr hmem => exact h z hmem
    rw [hsame x hx, hsame y hy]

theorem deviations_cons_of_ne {d : Int} (h : d ≠ 0) (ds : List Int)
    : deviations (d :: ds) = 0 :: ds.map (|· - d|) := by
  rw [deviations, if_neg h]

/--
A constant moves all differences alike, unless one of them is taken for none.
-/
theorem deviations_add_iff (c : Int) (ds : List Int)
    : deviations (ds.map (· + c)) = deviations ds
        ↔ c = 0 ∨ (∀ d, ds.head? = some d → d ≠ 0 ∧ d ≠ -c) ∨ ∀ d ∈ ds, ∀ d' ∈ ds, d = d' := by
  cases ds with
  | nil => simp [deviations]
  | cons d ds =>
    rw [forall_mem_eq_iff, List.head?_cons, List.map_cons]
    by_cases hc : c = 0
    . simp [hc]
    . simp only [hc, false_or, Option.some.injEq, forall_eq']
      by_cases hzero : d = 0
      . have hmap : (ds.map (· + c)).map (|· - c|) = ds.map (|·|) := by
          simp
        rw [hzero, zero_add, deviations_cons_of_ne hc, hmap, deviations, if_pos rfl, List.cons.injEq,
          map_abs_eq_deviations_iff]
        simp
      . by_cases hmoved : d = -c
        . have hmap : ds.map (|· - -c|) = (ds.map (· + c)).map (|·|) := by
            simp
          rw [deviations_cons_of_ne hzero, hmoved, neg_add_cancel, hmap, deviations, if_pos rfl, List.cons.injEq,
            eq_comm (a := deviations _), map_abs_eq_deviations_iff]
          simp [← eq_neg_iff_add_eq_zero]
        . have hmap : (ds.map (· + c)).map (|· - (d + c)|) = ds.map (|· - d|) := by
            simp
          rw [deviations_cons_of_ne (by omega), deviations_cons_of_ne hzero, hmap]
          simp [hzero, hmoved]

end Deviations

section Smoothing

theorem jitters_set {s : RtcJitter} (h : s.lastDiffMs ≠ 0) (pkts : List (UInt32 × Int))
    : jitters clockRate s pkts
        = Numeric.smoothed 8 s.jitter (((pkts.map (diff clockRate)).map (|· - s.lastDiffMs|)).map Int.cast) := by
  induction pkts generalizing s with
  | nil => rfl
  | cons pkt pkts ih =>
    have hstep : s.generateJitter clockRate pkt.fst pkt.snd
        = { s with jitter := s.jitter + ((|diff clockRate pkt - s.lastDiffMs| : Int) - s.jitter) / 8 } := by
      unfold generateJitter
      rw [if_neg h]
      rfl
    rw [jitters, hstep]
    simp only [List.map_cons, Numeric.smoothed]
    rw [ih (by exact h)]

theorem jitters_eq {s : RtcJitter} (hlast : s.lastDiffMs = 0) (hjitter : s.jitter = 0) (pkts : List (UInt32 × Int))
    : jitters clockRate s pkts
        = Numeric.smoothed 8 0 ((deviations (pkts.map (diff clockRate))).map Int.cast) := by
  induction pkts generalizing s with
  | nil => rfl
  | cons pkt pkts ih =>
    have hstep : s.generateJitter clockRate pkt.fst pkt.snd = { s with lastDiffMs := diff clockRate pkt } := by
      unfold generateJitter
      rw [if_pos hlast]
      rfl
    rw [jitters, hstep, List.map_cons, deviations]
    by_cases hzero : diff clockRate pkt = 0
    . rw [if_pos hzero, List.map_cons, Numeric.smoothed, ih (by exact hzero) (by exact hjitter)]
      simp [hjitter]
    . rw [if_neg hzero, List.map_cons, Numeric.smoothed, jitters_set (by exact hzero)]
      simp [hjitter]

end Smoothing

section Paced

/--
A difference of a paced stream depends on the wraps alone.
-/
theorem diff_pkt (timestamp : UInt32) (recvMs : Int) (p : Paced clockRate)
    : diff clockRate (p.pkt timestamp recvMs)
        = recvMs - ((timestamp.toNat * 1000 : Int) - p.wraps timestamp * 2 ^ 32) / clockRate.val := by
  have hwhole := p.whole
  have hpos := clockRate.property.left
  have hproduct : (((timestamp + UInt32.ofNat p.ticks) * 1000).toNat : Int)
      = ((timestamp.toNat * 1000 : Int) - p.wraps timestamp * 2 ^ 32) + clockRate.val * p.ms := by
    rw [UInt32.toNat_mul, UInt32.toNat_add, UInt32.toNat_ofNat', ← hwhole]
    change (((timestamp.toNat + p.ticks % 2 ^ 32) % 2 ^ 32 * 1000 % 2 ^ 32 : Nat) : Int) = _
    unfold Paced.wraps
    omega
  unfold diff rtpMs Paced.pkt
  rw [hproduct, Int.add_mul_ediv_left _ _ (ne_of_gt hpos)]
  ring

/--
A wrap is longer than the clock rate.
-/
theorem ediv_wraps_inj {c x : Int} {m n : Nat} (hpos : 0 < c) (hlt : c < 2 ^ 31)
    (h : (x - m * 2 ^ 32) / c = (x - n * 2 ^ 32) / c)
    : m = n := by
  have hm := Int.mul_ediv_add_emod (x - m * 2 ^ 32) c
  have hn := Int.mul_ediv_add_emod (x - n * 2 ^ 32) c
  have hmLower := Int.emod_nonneg (x - m * 2 ^ 32) (ne_of_gt hpos)
  have hnLower := Int.emod_nonneg (x - n * 2 ^ 32) (ne_of_gt hpos)
  have hmUpper := Int.emod_lt_of_pos (x - m * 2 ^ 32) hpos
  have hnUpper := Int.emod_lt_of_pos (x - n * 2 ^ 32) hpos
  rw [h] at hm
  generalize c * ((x - n * 2 ^ 32) / c) = u at hm hn
  omega

theorem diff_pkt_inj (timestamp : UInt32) (recvMs : Int) (p p' : Paced clockRate)
    : diff clockRate (p.pkt timestamp recvMs) = diff clockRate (p'.pkt timestamp recvMs)
        ↔ p.wraps timestamp = p'.wraps timestamp := by
  obtain ⟨hpos, hlt⟩ := clockRate.property
  rw [diff_pkt, diff_pkt, sub_right_inj]
  constructor
  . intro h
    exact ediv_wraps_inj hpos hlt h
  . intro h
    rw [h]

theorem jitters_eq_zero_iff (pkts : List (UInt32 × Int))
    : (∀ j ∈ jitters clockRate {} pkts, j = 0) ↔ ∀ d ∈ deviations (pkts.map (diff clockRate)), d = 0 := by
  rw [jitters_eq rfl rfl, Numeric.smoothed_eq_zero_iff (by norm_num), List.forall_mem_map]
  simp only [Int.cast_eq_zero]

theorem jitters_eq_iff (pkts pkts' : List (UInt32 × Int))
    : jitters clockRate {} pkts = jitters clockRate {} pkts'
        ↔ deviations (pkts.map (diff clockRate)) = deviations (pkts'.map (diff clockRate)) := by
  rw [jitters_eq rfl rfl, jitters_eq rfl rfl, Numeric.smoothed_inj (by norm_num)]
  exact (List.map_injective_iff.mpr Int.cast_injective).eq_iff

theorem paced_iff (timestamp : UInt32) (recvMs : Int) (ps : List (Paced clockRate))
    : (∀ j ∈ jitters clockRate {} (ps.map (·.pkt timestamp recvMs)), j = 0) ↔ SameWraps timestamp recvMs ps := by
  rw [jitters_eq_zero_iff, deviations_eq_zero_iff, List.map_map, List.dropWhile_map]
  unfold SameWraps
  simp only [List.forall_mem_map, Function.comp_apply, diff_pkt_inj]
  rfl

theorem arrivals_iff (c : Int) (pkts : List (UInt32 × Int))
    : jitters clockRate {} (pkts.map fun pkt => (pkt.fst, pkt.snd + c)) = jitters clockRate {} pkts
        ↔ c = 0 ∨ (∀ pkt, pkts.head? = some pkt → diff clockRate pkt ≠ 0 ∧ diff clockRate pkt ≠ -c)
          ∨ ∀ pkt ∈ pkts, ∀ pkt' ∈ pkts, diff clockRate pkt = diff clockRate pkt' := by
  have hmap : (pkts.map fun pkt => (pkt.fst, pkt.snd + c)).map (diff clockRate)
      = (pkts.map (diff clockRate)).map (· + c) := by
    rw [List.map_map, List.map_map]
    apply List.map_congr_left
    intro pkt _
    simp only [Function.comp_apply, diff]
    ring
  rw [jitters_eq_iff, hmap, deviations_add_iff, List.head?_map]
  simp only [List.forall_mem_map, Option.map_eq_some_iff, forall_exists_index, and_imp, forall_apply_eq_imp_iff₂]

end Paced

/--
When a paced stream has no jitter, when a constant may be added to the times of arrival, and when to the RTP times.
-/
theorem ignoresStart_iff (clockRate : ClockRate)
    : (∀ timestamp recvMs (ps : List (Paced clockRate)),
        (∀ j ∈ jitters clockRate {} (ps.map (·.pkt timestamp recvMs)), j = 0) ↔ SameWraps timestamp recvMs ps)
      ∧ (∀ c pkts, jitters clockRate {} (pkts.map fun pkt => (pkt.fst, pkt.snd + c)) = jitters clockRate {} pkts
        ↔ c = 0 ∨ (∀ pkt, pkts.head? = some pkt → diff clockRate pkt ≠ 0 ∧ diff clockRate pkt ≠ -c)
          ∨ ∀ pkt ∈ pkts, ∀ pkt' ∈ pkts, diff clockRate pkt = diff clockRate pkt')
      ∧ ∀ c pkts, jitters clockRate {} (pkts.map fun pkt => (pkt.fst + c, pkt.snd)) = jitters clockRate {} pkts
        ↔ deviations (pkts.map fun pkt => diff clockRate (pkt.fst + c, pkt.snd))
          = deviations (pkts.map (diff clockRate)) := by
  refine ⟨paced_iff, arrivals_iff, ?_⟩
  intro c pkts
  rw [jitters_eq_iff, List.map_map]
  rfl

/--
Two packets of a video stream, between which the product wraps after 47.7 s.
-/
theorem not_ignoresStart
    : ¬∀ (clockRate : ClockRate) (timestamp : UInt32) (recvMs : Int) (ps : List (Paced clockRate)),
      ∀ j ∈ jitters clockRate {} (ps.map (·.pkt timestamp recvMs)), j = 0 := by
  intro h
  let clockRate : ClockRate := ⟨90000, by decide⟩
  let first : Paced clockRate := ⟨0, 0, rfl⟩
  let second : Paced clockRate := ⟨4320000, 48000, rfl⟩
  have hsame := (paced_iff 0 100 [first, second]).mp (h clockRate 0 100 _)
  have hrest : [first, second].dropWhile (fun p => diff clockRate (p.pkt 0 100) = 0) = [first, second] := by
    apply List.dropWhile_cons_of_neg
    decide
  unfold SameWraps at hsame
  rw [hrest] at hsame
  have hwraps := hsame first List.mem_cons_self second (List.mem_cons_of_mem _ List.mem_cons_self)
  exact absurd hwraps (by decide)

end RtcJitter
