import CppStreamer.Net.WebRtc.RtcSendStream
import CppStreamer.Utils.TimeEx
import Mathlib.Algebra.Order.Field.Rat
import Mathlib.Tactic.FieldSimp
import Mathlib.Tactic.Linarith
import Mathlib.Tactic.Positivity
import Mathlib.Tactic.Ring

/-!
This module contains the sender reports of `RtcSendStream`, and when their RTP times go with their NTP times
and with the timestamps of the packets.
-/

/--
What `RtcSendStream` keeps for its reports. The clock rate is of type `int`.
-/
structure RtcSrStream extends RtcSendStream where
  sentCount : UInt32 := 0
  sentBytes : UInt32 := 0
  lastSrTs : Nat := 0
  lastSrNtpTs : NtpTimestamp := ⟨0, 0⟩
  lastSrRtpTs : UInt32 := 0
  neg_le_clockRate : -2 ^ 31 ≤ clockRate
  clockRate_lt : clockRate < 2 ^ 31

structure RtcpSr where
  ssrc : UInt32
  ntp : NtpTimestamp
  rtpTimestamp : UInt32
  pktCount : UInt32
  bytesCount : UInt32
  deriving DecidableEq, Repr

namespace RtcSrStream

/--
`GetRtcpSr`, for a time after the epoch.
-/
def getRtcpSr (s : RtcSrStream) (nowMs : Nat) : RtcSrStream × RtcpSr :=
  let ntp := NtpTimestamp.ofMillisec nowMs
  let rtp := UInt32.ofInt ((nowMs / 1000 : Nat) * s.clockRate)
  ({ s with lastSrNtpTs := ntp, lastSrRtpTs := rtp },
   { ssrc := s.ssrc, ntp := ntp, rtpTimestamp := rtp, pktCount := s.sentCount, bytesCount := s.sentBytes })

/--
What `SendVideoRtpPacket` and `SendAudioRtpPacket` do for the reports when a packet of this length is sent.
-/
def sendRtpPacket (s : RtcSrStream) (len : UInt32) (nowMs : Nat) : RtcSrStream × Option RtcpSr :=
  let s := { s with sentCount := s.sentCount + 1, sentBytes := s.sentBytes + len }
  if s.lastSrTs = 0 then
    let (s, sr) := { s with lastSrTs := nowMs }.getRtcpSr nowMs
    (s, some sr)
  else
    (s, none)

def onTimer (s : RtcSrStream) (nowTs : Nat) : RtcSrStream × Option RtcpSr :=
  if (nowTs : Int) - s.lastSrTs > 500 then
    let (s, sr) := { s with lastSrTs := nowTs }.getRtcpSr nowTs
    (s, some sr)
  else
    (s, none)

inductive Call where
  | packet (len : UInt32)
  | timer

def call (s : RtcSrStream) (nowMs : Nat) : Call → RtcSrStream × Option RtcpSr
  | .packet len => s.sendRtpPacket len nowMs
  | .timer => s.onTimer nowMs

/--
The reports of a run, each with the time at which it is generated.
-/
def run (s : RtcSrStream) : List (Nat × Call) → List (Nat × RtcpSr)
  | [] => []
  | (nowMs, c) :: calls =>
    let (s, sr) := s.call nowMs c
    (sr.toList.map (nowMs, ·)) ++ s.run calls

end RtcSrStream

namespace NtpTimestamp

/--
The NTP time in seconds.
-/
def seconds (ntp : NtpTimestamp) : ℚ := ntp.ntpSec.toNat + ntp.ntpFrac.toNat / 2 ^ 32

end NtpTimestamp

namespace RtcpSr

/--
The RTP times are apart by what the clock does between the NTP times, modulo 2^32 and up to a millisecond, or
up to a tick of a clock that is slower.
-/
def Linear (clockRate : Int) (sr sr' : RtcpSr) : Prop :=
  ∃ k : Int, |((sr'.rtpTimestamp.toNat : ℚ) - sr.rtpTimestamp.toNat)
    - clockRate * (sr'.ntp.seconds - sr.ntp.seconds) - k * 2 ^ 32|
    ≤ max 1 (|(clockRate : ℚ)| / 1000) + |(clockRate : ℚ)| / 2 ^ 32

/--
The RTP time is the timestamp of a packet of this time.
-/
def Agrees (s : RtcSrStream) (nowMs : Nat) (sr : RtcpSr) : Prop := sr.rtpTimestamp = s.rtpTimestamp nowMs

end RtcpSr

namespace RtcSrStream

/--
A report for this clock rate at this time.
-/
structure IsReport (s : RtcSrStream) (nowMs : Nat) (sr : RtcpSr) : Prop where
  ntp : sr.ntp = NtpTimestamp.ofMillisec nowMs
  rtpTimestamp : sr.rtpTimestamp = UInt32.ofInt ((nowMs / 1000 : Nat) * s.clockRate)

theorem call_clockRate (s : RtcSrStream) (nowMs : Nat) (c : Call)
    : (s.call nowMs c).fst.clockRate = s.clockRate := by
  cases c with
  | packet len =>
    simp only [call, sendRtpPacket]
    split <;> rfl
  | timer =>
    simp only [call, onTimer]
    split <;> rfl

theorem call_isReport {s : RtcSrStream} {nowMs : Nat} {c : Call} {sr : RtcpSr}
    (h : (s.call nowMs c).snd = some sr)
    : s.IsReport nowMs sr := by
  cases c with
  | packet len =>
    simp only [call, sendRtpPacket] at h
    split at h
    . cases h
      exact ⟨rfl, rfl⟩
    . cases h
  | timer =>
    simp only [call, onTimer] at h
    split at h
    . cases h
      exact ⟨rfl, rfl⟩
    . cases h

theorem run_isReport {s : RtcSrStream} {calls : List (Nat × Call)} {nowMs : Nat} {sr : RtcpSr}
    (h : (nowMs, sr) ∈ s.run calls)
    : s.IsReport nowMs sr := by
  induction calls generalizing s with
  | nil => cases h
  | cons c calls ih =>
    rw [run, List.mem_append, List.mem_map] at h
    cases h with
    | inl hfirst =>
      obtain ⟨sr', hsr, heq⟩ := hfirst
      cases heq
      apply call_isReport
      exact Option.mem_toList.mp hsr
    | inr hrest =>
      have hreport := ih hrest
      have hrate := s.call_clockRate c.fst c.snd
      exact ⟨hreport.ntp, hrate ▸ hreport.rtpTimestamp⟩

end RtcSrStream

section Arithmetic

theorem intCast_toNat_ofInt (x : Int) : ((UInt32.ofInt x).toNat : Int) = x % 2 ^ 32 := by
  rw [toNat_ofInt]
  omega

theorem exists_toNat_ofInt (x : Int) : ∃ a : Int, ((UInt32.ofInt x).toNat : ℚ) = x - a * 2 ^ 32 := by
  refine ⟨x / 2 ^ 32, ?_⟩
  have hdiv : ((UInt32.ofInt x).toNat : Int) = x - x / 2 ^ 32 * 2 ^ 32 := by
    rw [intCast_toNat_ofInt]
    omega
  exact_mod_cast hdiv

/--
Whole seconds do not matter for the rounding of the product.
-/
theorem tdiv_seconds (nowMs : Nat) (c : Int)
    : ((nowMs : Int) * c).tdiv 1000 = (nowMs / 1000 : Nat) * c + ((nowMs % 1000 : Nat) * c).tdiv 1000 := by
  have hnat (m : Nat) : nowMs * m / 1000 = nowMs / 1000 * m + nowMs % 1000 * m / 1000 := by
    have hsplit : nowMs * m = 1000 * (nowMs / 1000 * m) + nowMs % 1000 * m := by
      rw [← Nat.mul_assoc, ← Nat.add_mul, Nat.div_add_mod]
    rw [hsplit, Nat.mul_add_div (by omega)]
  obtain ⟨m, hm⟩ := c.eq_nat_or_neg
  have hcast : ((nowMs : Int) * m).tdiv 1000
      = (nowMs / 1000 : Nat) * m + ((nowMs % 1000 : Nat) * (m : Int)).tdiv 1000 := by
    exact_mod_cast congrArg Int.ofNat (hnat m)
  cases hm with
  | inl hpos => rw [hpos, hcast]
  | inr hneg => rw [hneg, mul_neg, mul_neg, mul_neg, Int.neg_tdiv, Int.neg_tdiv, hcast, neg_add]

theorem ofInt_add_eq_iff {x y : Int} (hy : |y| < 2 ^ 32) : UInt32.ofInt x = UInt32.ofInt (x + y) ↔ y = 0 := by
  rw [abs_lt] at hy
  rw [← UInt32.toNat_inj, ← Int.ofNat_inj, intCast_toNat_ofInt, intCast_toNat_ofInt]
  omega

/--
Near a multiple of 2^32 is near zero, for what is far below 2^32.
-/
theorem near_multiple_iff {x t : ℚ} (ht : |x| + t < 2 ^ 32)
    : (∃ j : Int, |(j : ℚ) * 2 ^ 32 - x| ≤ t) ↔ |x| ≤ t := by
  constructor
  . intro ⟨j, hj⟩
    by_cases hzero : j = 0
    . simpa [hzero] using hj
    . have hone : (1 : ℚ) ≤ |(j : ℚ)| := by
        exact_mod_cast Int.one_le_abs hzero
      have hbelow := abs_sub_abs_le_abs_sub ((j : ℚ) * 2 ^ 32) x
      rw [abs_mul, abs_of_pos (by norm_num : (0 : ℚ) < 2 ^ 32)] at hbelow
      linarith
  . intro h
    exact ⟨0, by simpa using h⟩

end Arithmetic

namespace RtcSrStream

section Times

variable {s : RtcSrStream} {calls : List (Nat × Call)} {t t' : Nat} {sr sr' : RtcpSr}

theorem abs_tdiv (x : Int) : |x.tdiv 1000| = (x.natAbs / 1000 : Nat) := by
  rw [Int.abs_eq_natAbs, Int.natAbs_tdiv]
  rfl

theorem tdiv_eq_zero_iff (x : Int) : x.tdiv 1000 = 0 ↔ |x| < 1000 := by
  rw [← abs_eq_zero, abs_tdiv, Int.abs_eq_natAbs]
  omega

/--
The milliseconds past the full second are lost.
-/
theorem rtpTimestamp_agrees_iff (h : s.IsReport t sr)
    : sr.Agrees s t ↔ |((t % 1000 : Nat) : Int) * s.clockRate| < 1000 := by
  have hlower := s.neg_le_clockRate
  have hupper := s.clockRate_lt
  have hlost : |(((t % 1000 : Nat) : Int) * s.clockRate).tdiv 1000| < 2 ^ 32 := by
    have hrate : |s.clockRate| ≤ 2 ^ 31 := abs_le.mpr ⟨hlower, hupper.le⟩
    have hproduct : |((t % 1000 : Nat) : Int) * s.clockRate| ≤ 1000 * 2 ^ 31 := by
      rw [abs_mul, Nat.abs_cast]
      have hmilli : ((t % 1000 : Nat) : Int) ≤ 1000 := by omega
      exact mul_le_mul hmilli hrate (abs_nonneg _) (by omega)
    rw [abs_tdiv]
    rw [Int.abs_eq_natAbs] at hproduct
    omega
  rw [RtcpSr.Agrees, h.rtpTimestamp, RtcSendStream.rtpTimestamp, tdiv_seconds, ofInt_add_eq_iff hlost,
    tdiv_eq_zero_iff]

/--
How far the RTP times are from the NTP times, without the seconds of both.
-/
theorem linear_iff_near (h : s.IsReport t sr) (h' : s.IsReport t' sr')
    : sr.Linear s.clockRate sr' ↔ ∃ j : Int, |(j : ℚ) * 2 ^ 32
        - s.clockRate * ((t' % 1000 * 2 ^ 32 / 1000 : Nat) - (t % 1000 * 2 ^ 32 / 1000 : Nat)) / 2 ^ 32|
      ≤ max 1 (|(s.clockRate : ℚ)| / 1000) + |(s.clockRate : ℚ)| / 2 ^ 32 := by
  obtain ⟨a, ha⟩ := exists_toNat_ofInt ((t / 1000 : Nat) * s.clockRate)
  obtain ⟨a', ha'⟩ := exists_toNat_ofInt ((t' / 1000 : Nat) * s.clockRate)
  have hsec : ((t / 1000 % 2 ^ 32 : Nat) : ℚ) = (t / 1000 : Nat) - (t / 1000 / 2 ^ 32 : Nat) * 2 ^ 32 := by
    rw [eq_sub_iff_add_eq, mul_comm]
    exact_mod_cast Nat.mod_add_div (t / 1000) (2 ^ 32)
  have hsec' : ((t' / 1000 % 2 ^ 32 : Nat) : ℚ) = (t' / 1000 : Nat) - (t' / 1000 / 2 ^ 32 : Nat) * 2 ^ 32 := by
    rw [eq_sub_iff_add_eq, mul_comm]
    exact_mod_cast Nat.mod_add_div (t' / 1000) (2 ^ 32)
  rw [RtcpSr.Linear, h.rtpTimestamp, h'.rtpTimestamp, h.ntp, h'.ntp, NtpTimestamp.seconds, NtpTimestamp.seconds,
    NtpTimestamp.toNat_ntpSec, NtpTimestamp.toNat_ntpSec, NtpTimestamp.toNat_ntpFrac, NtpTimestamp.toNat_ntpFrac,
    ha, ha', hsec, hsec']
  -- the multiple of 2^32 that is left of the whole seconds
  let whole : Int := s.clockRate * ((t' / 1000 / 2 ^ 32 : Nat) - (t / 1000 / 2 ^ 32 : Nat)) - (a' - a)
  constructor
  . intro ⟨k, hk⟩
    refine ⟨whole - k, le_of_eq_of_le (congrArg abs ?_) hk⟩
    simp only [whole, Int.cast_sub, Int.cast_mul, Int.cast_natCast]
    ring
  . intro ⟨j, hj⟩
    refine ⟨whole - j, le_of_eq_of_le (congrArg abs ?_) hj⟩
    simp only [whole, Int.cast_sub, Int.cast_mul, Int.cast_natCast]
    ring

/--
A fraction of a second is cut by less than one of its units, so what is left of the difference is at most a
millisecond where that many milliseconds are.
-/
theorem scaled_le_iff {c d e : ℚ} (hc : |c| < 1000 → |c * d| ≤ 1000 ∨ 1001 ≤ |c * d|)
    (hd : |d| ≤ 1 ∨ 2 ≤ |d|) (he : |e - d * (2 ^ 32 / 1000)| ≤ 1)
    : |c * e / 2 ^ 32| ≤ max 1 (|c| / 1000) + |c| / 2 ^ 32 ↔ |c * d| ≤ max 1000 |c| := by
  have hpow : (0 : ℚ) < 2 ^ 32 := by norm_num
  have hcut : |c * e / 2 ^ 32 - c * d / 1000| ≤ |c| / 2 ^ 32 := by
    have heq : c * e / 2 ^ 32 - c * d / 1000 = c / 2 ^ 32 * (e - d * (2 ^ 32 / 1000)) := by
      field_simp
    rw [heq, abs_mul, abs_div, abs_of_pos hpow]
    exact mul_le_of_le_one_right (by positivity) he
  have hthousand : |c * d / 1000| = |c * d| / 1000 := by
    rw [abs_div, abs_of_pos (by norm_num : (0 : ℚ) < 1000)]
  by_cases hslow : |c| < 1000
  . rw [max_eq_left (by linarith), max_eq_left hslow.le]
    constructor
    . intro h
      have hbelow := abs_sub_abs_le_abs_sub (c * d / 1000) (c * e / 2 ^ 32)
      rw [abs_sub_comm] at hbelow
      apply (hc hslow).resolve_right
      linarith
    . intro h
      have hbelow := abs_sub_abs_le_abs_sub (c * e / 2 ^ 32) (c * d / 1000)
      linarith
  . rw [max_eq_right (by linarith), max_eq_right (by linarith), abs_mul c d]
    rw [abs_mul c d] at hthousand
    constructor
    . intro h
      have hbelow := abs_sub_abs_le_abs_sub (c * d / 1000) (c * e / 2 ^ 32)
      rw [abs_sub_comm] at hbelow
      have hone : |d| ≤ 1 := by
        apply hd.resolve_right
        intro htwo
        have hdouble : |c| * 2 ≤ |c| * |d| := mul_le_mul_of_nonneg_left htwo (abs_nonneg c)
        linarith
      exact mul_le_of_le_one_right (abs_nonneg c) hone
    . intro h
      have hbelow := abs_sub_abs_le_abs_sub (c * e / 2 ^ 32) (c * d / 1000)
      linarith

theorem cut_fraction (m : Nat)
    : ((m * 2 ^ 32 / 1000 : Nat) : ℚ) ≤ m * (2 ^ 32 / 1000)
      ∧ m * (2 ^ 32 / 1000) < (m * 2 ^ 32 / 1000 : Nat) + (1 : ℚ) := by
  have hnat : 1000 * (m * 2 ^ 32 / 1000) ≤ m * 2 ^ 32 ∧ m * 2 ^ 32 < 1000 * (m * 2 ^ 32 / 1000) + 1000 := by omega
  have hlower : (1000 : ℚ) * (m * 2 ^ 32 / 1000 : Nat) ≤ m * 2 ^ 32 := by exact_mod_cast hnat.left
  have hupper : (m : ℚ) * 2 ^ 32 < 1000 * (m * 2 ^ 32 / 1000 : Nat) + 1000 := by exact_mod_cast hnat.right
  constructor <;> linarith

/--
How far these fractions are apart depends on the milliseconds.
-/
theorem fractions_iff {c : Int} {m m' : Nat} {f f' : ℚ} (hrate : |(c : ℚ)| ≤ 2 ^ 31)
    (hm : (m : ℚ) ≤ 999) (hm' : (m' : ℚ) ≤ 999)
    (hcut : f ≤ m * (2 ^ 32 / 1000) ∧ m * (2 ^ 32 / 1000) < f + 1)
    (hcut' : f' ≤ m' * (2 ^ 32 / 1000) ∧ m' * (2 ^ 32 / 1000) < f' + 1)
    : (∃ j : Int, |(j : ℚ) * 2 ^ 32 - c * (f' - f) / 2 ^ 32| ≤ max 1 (|(c : ℚ)| / 1000) + |(c : ℚ)| / 2 ^ 32)
        ↔ |c * ((m' : Int) - m)| ≤ max 1000 |c| := by
  have hfrac : |f' - f| ≤ 2 ^ 32 := by
    rw [abs_le]
    constructor <;> linarith
  have hsmall : |c * (f' - f) / 2 ^ 32| ≤ 2 ^ 31 := by
    rw [abs_div, abs_mul, abs_of_pos (by norm_num : (0 : ℚ) < 2 ^ 32), div_le_iff₀ (by norm_num)]
    exact mul_le_mul hrate hfrac (abs_nonneg _) (by norm_num)
  have hmax : max 1 (|(c : ℚ)| / 1000) ≤ 2 ^ 31 / 1000 := by
    apply max_le
    . norm_num
    . linarith
  have hdiff : |(f' - f) - (((m' : Int) - m : Int) : ℚ) * (2 ^ 32 / 1000)| ≤ 1 := by
    rw [abs_le]
    push_cast
    constructor <;> linarith
  have hint (x : Int) (n : Int) : |(x : ℚ)| ≤ n ∨ ((n + 1 : Int) : ℚ) ≤ |(x : ℚ)| := by
    exact_mod_cast le_or_gt |x| n
  have hticks := hint (c * ((m' : Int) - m)) 1000
  rw [Int.cast_mul] at hticks
  rw [near_multiple_iff (by linarith), scaled_le_iff (fun _ => by exact_mod_cast hticks)
    (by exact_mod_cast hint ((m' : Int) - m) 1) hdiff]
  exact_mod_cast Iff.rfl

theorem linear_iff (h : s.IsReport t sr) (h' : s.IsReport t' sr')
    : sr.Linear s.clockRate sr'
        ↔ |s.clockRate * (((t' % 1000 : Nat) : Int) - (t % 1000 : Nat))| ≤ max 1000 |s.clockRate| := by
  have hrate : |(s.clockRate : ℚ)| ≤ 2 ^ 31 := by
    exact_mod_cast abs_le.mpr ⟨s.neg_le_clockRate, s.clockRate_lt.le⟩
  have hmilli (n : Nat) : ((n % 1000 : Nat) : ℚ) ≤ 999 := by
    norm_cast
    omega
  rw [linear_iff_near h h']
  exact fractions_iff hrate (hmilli t) (hmilli t') (cut_fraction _) (cut_fraction _)

theorem linear_agrees_iff (h : (t, sr) ∈ s.run calls) (h' : (t', sr') ∈ s.run calls)
    : sr.Linear s.clockRate sr' ∧ sr.Agrees s t ∧ sr'.Agrees s t'
        ↔ |((t % 1000 : Nat) : Int) * s.clockRate| < 1000 ∧ |((t' % 1000 : Nat) : Int) * s.clockRate| < 1000 := by
  have hreport := run_isReport h
  have hreport' := run_isReport h'
  rw [rtpTimestamp_agrees_iff hreport, rtpTimestamp_agrees_iff hreport', linear_iff hreport hreport']
  constructor
  . intro hboth
    exact hboth.right
  . intro hlost
    refine ⟨?_, hlost⟩
    rw [abs_lt, abs_lt] at hlost
    apply le_max_of_le_left
    rw [abs_le, mul_sub, mul_comm, mul_comm s.clockRate]
    -- both products have the sign of the clock rate
    cases le_total 0 s.clockRate with
    | inl hpos =>
      have hproduct (n : Nat) : 0 ≤ (n : Int) * s.clockRate := mul_nonneg (Int.natCast_nonneg n) hpos
      have hm := hproduct (t % 1000)
      have hm' := hproduct (t' % 1000)
      omega
    | inr hneg =>
      have hproduct (n : Nat) : (n : Int) * s.clockRate ≤ 0 :=
        mul_nonpos_of_nonneg_of_nonpos (Int.natCast_nonneg n) hneg
      have hm := hproduct (t % 1000)
      have hm' := hproduct (t' % 1000)
      omega

/--
The first report goes out with the first packet, the second one is sent by the timer.
-/
def sampleStream : RtcSrStream where
  ssrc := 7
  pt := 96
  clockRate := 90000
  neg_le_clockRate := by decide
  clockRate_lt := by decide

theorem run_sample (second : Nat) (hlater : 10500 < second)
    : sampleStream.run [(10000, .packet 100), (second, .timer)]
        = [(10000, ⟨7, .ofMillisec 10000, 900000, 1, 100⟩),
          (second, ⟨7, .ofMillisec second, UInt32.ofInt ((second / 1000 : Nat) * 90000), 1, 100⟩)] := by
  have htimer : 500 < (second : Int) - 10000 := by omega
  simp [run, call, sendRtpPacket, onTimer, getRtcpSr, sampleStream, htimer]
  rfl

theorem linear_agrees_sample
    : ∃ sr sr' : RtcpSr, (10000, sr) ∈ sampleStream.run [(10000, .packet 100), (11000, .timer)]
      ∧ (11000, sr') ∈ sampleStream.run [(10000, .packet 100), (11000, .timer)]
      ∧ sr.Linear sampleStream.clockRate sr' ∧ sr.Agrees sampleStream 10000
      ∧ sr'.Agrees sampleStream 11000 := by
  have hrun := run_sample 11000 (by decide)
  refine ⟨_, _, hrun ▸ List.mem_cons_self, hrun ▸ List.mem_cons_of_mem _ List.mem_cons_self, ?_⟩
  exact (linear_agrees_iff (hrun ▸ List.mem_cons_self) (hrun ▸ List.mem_cons_of_mem _ List.mem_cons_self)).mpr (by decide)

/--
Half a second is lost.
-/
theorem not_linear_agrees
    : ¬∀ (s : RtcSrStream) (calls : List (Nat × Call)) (t t' : Nat) (sr sr' : RtcpSr),
      (t, sr) ∈ s.run calls → (t', sr') ∈ s.run calls → t ≤ t' →
        sr.Linear s.clockRate sr' ∧ sr.Agrees s t ∧ sr'.Agrees s t' := by
  intro h
  have hrun := run_sample 10501 (by decide)
  have hreports := h sampleStream _ 10000 10501 _ _ (hrun ▸ List.mem_cons_self)
    (hrun ▸ List.mem_cons_of_mem _ List.mem_cons_self) (by decide)
  have hrtp : (900000 : UInt32) = 945090 := hreports.right.right
  exact absurd hrtp (by decide)

end Times

end RtcSrStream
