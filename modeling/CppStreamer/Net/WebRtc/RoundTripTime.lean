import CppStreamer.Utils.TimeEx
import Mathlib.Data.Rat.Floor
import Mathlib.Tactic.FieldSimp
import Mathlib.Tactic.Linarith
import Mathlib.Tactic.Ring

/-!
This module contains the round trip times of `RtcSendStream` and `RtcRecvStream`, from the reports that come
back to them, and when these are the time that has gone by without the delay.
-/

def rttDefault : Nat := 30

/--
A time that has gone by, in units of 1/65536 s.
-/
def compactDelay (diffMs : Int) : UInt32 :=
  (UInt32.ofInt (diffMs.tdiv 1000) <<< 16) ||| UInt32.ofInt ((diffMs.tmod 1000 * 65536).tdiv 1000)

/--
What `PeerConnection` keeps of the RRTs that it gets and of the DLRR blocks that it sends.
-/
structure XrDlrrSender where
  sendOnly : Bool
  lastSendXrDlrrMs : Int := -1
  lastXrNtp : NtpTimestamp
  lastXrMs : Int := -1

/--
The `lrr` and the `dlrr` of the block for each send stream, if blocks are sent.
-/
def XrDlrrSender.sendXrDlrr (s : XrDlrrSender) (nowMs : Int) : XrDlrrSender × Option (UInt32 × UInt32) :=
  if s.sendOnly = false then (s, none)
  else if s.lastSendXrDlrrMs ≤ 0 then ({ s with lastSendXrDlrrMs := nowMs }, none)
  else if nowMs - s.lastSendXrDlrrMs < 1000 then (s, none)
  else
    let s := { s with lastSendXrDlrrMs := nowMs }
    if s.lastXrMs ≤ 0 then (s, none)
    else if 5000 < nowMs - s.lastXrMs then (s, none)
    else (s, some (s.lastXrNtp.compact, compactDelay (nowMs - s.lastXrMs)))

/--
A compact time in milliseconds. The `float` arithmetic is that of the rationals here.
-/
def rttMillisec (rtt : UInt32) : ℚ :=
  (rtt >>> 16).toNat * 1000 + ((rtt &&& 0xffff).toNat / 65536) * 1000

/--
`rtt_` and `avg_rtt_` of `RtcSendStream`.
-/
structure SendRtt where
  rtt : ℚ := rttDefault
  avgRtt : ℚ := rttDefault

/--
The end of `RtcSendStream::HandleRtcpRr`.
-/
def SendRtt.handleRtcpRr (s : SendRtt) (lsr dlsr : UInt32) (nowMs : Nat) : SendRtt :=
  if lsr = 0 then { s with rtt := rttDefault }
  else
    let compactNtp := (NtpTimestamp.ofMillisec nowMs).compact
    let rtt := if lsr ≠ 0 ∧ dlsr ≠ 0 ∧ dlsr + lsr < compactNtp then compactNtp - dlsr - lsr else 0
    { s with
      rtt := rttMillisec rtt
      avgRtt := s.avgRtt + (rttMillisec rtt - s.avgRtt) / 4 }

/--
The time that `RtcRecvStream::HandleXrDlrr` computes, if it does not return first.
-/
def xrDlrrRtt (lrr dlrr : UInt32) (nowMs : Nat) : Option UInt32 :=
  let compoundNow := (NtpTimestamp.ofMillisec nowMs).compact
  if compoundNow < dlrr + lrr then none else some (compoundNow - dlrr - lrr)

/--
The new `avg_rtt_` of `RtcRecvStream`, which is an `int`.
-/
def handleXrDlrr (avgRtt : Int) (lrr dlrr : UInt32) (nowMs : Nat) : Int :=
  match xrDlrrRtt lrr dlrr nowMs with
  | none => avgRtt
  | some rtt => avgRtt + (⌊rttMillisec rtt⌋ - avgRtt).tdiv 5

/--
What has gone by since the last report and is not delay, modulo 2^32.
-/
def roundTrip (last delay : UInt32) (nowMs : Nat) : UInt32 := (NtpTimestamp.ofMillisec nowMs).compact - last - delay

/--
Both ways come to the round trip time.
-/
def ObtainRoundTrip (s : SendRtt) (last delay : UInt32) (nowMs : Nat) : Prop :=
  (s.handleRtcpRr last delay nowMs).rtt = rttMillisec (roundTrip last delay nowMs)
    ∧ xrDlrrRtt last delay nowMs = some (roundTrip last delay nowMs)

theorem toNat_compactDelay (diffMs : Nat) : (compactDelay diffMs).toNat = diffMs * 65536 / 1000 % 2 ^ 32 := by
  have hlow : diffMs % 1000 * 65536 / 1000 < 2 ^ 16 := by omega
  have hsec : (UInt32.ofInt ((diffMs : Int).tdiv 1000)).toNat = diffMs / 1000 % 2 ^ 32 := by
    rw [toNat_ofInt]
    change (((diffMs / 1000 : Nat) : Int) % 2 ^ 32).toNat = _
    omega
  have hfrac : (UInt32.ofInt (((diffMs : Int).tmod 1000 * 65536).tdiv 1000)).toNat
      = diffMs % 1000 * 65536 / 1000 := by
    rw [toNat_ofInt]
    change (((diffMs % 1000 * 65536 / 1000 : Nat) : Int) % 2 ^ 32).toNat = _
    omega
  have hhigh : diffMs / 1000 % 2 ^ 32 * 2 ^ 16 % 2 ^ 32 = 2 ^ 16 * (diffMs / 1000 % 2 ^ 16) := by omega
  have hsum : diffMs * 65536 / 1000 = 2 ^ 16 * (diffMs / 1000) + diffMs % 1000 * 65536 / 1000 := by omega
  unfold compactDelay
  rw [UInt32.toNat_or, UInt32.toNat_shiftLeft, hsec, hfrac, Nat.shiftLeft_eq]
  change (diffMs / 1000 % 2 ^ 32 * 2 ^ 16 % 2 ^ 32) ||| _ = _
  rw [hhigh, ← Nat.two_pow_add_eq_or_of_lt hlow, hsum]
  omega

/--
A block that is sent has the time since the last RRT to the unit, if the clock has not gone back.
-/
theorem sendXrDlrr_dlrr {s : XrDlrrSender} {nowMs : Int} {lrr dlrr : UInt32} (hclock : s.lastXrMs ≤ nowMs)
    (h : (s.sendXrDlrr nowMs).snd = some (lrr, dlrr))
    : lrr = s.lastXrNtp.compact ∧ dlrr.toNat = (nowMs - s.lastXrMs).toNat * 65536 / 1000 := by
  unfold XrDlrrSender.sendXrDlrr at h
  simp only at h
  split at h
  . cases h
  split at h
  . cases h
  split at h
  . cases h
  split at h
  . cases h
  split at h
  . cases h
  next hrecent =>
  cases h
  have hdelay := toNat_compactDelay (nowMs - s.lastXrMs).toNat
  rw [Int.toNat_of_nonneg (by omega)] at hdelay
  refine ⟨rfl, ?_⟩
  rw [hdelay, Nat.mod_eq_of_lt (by omega)]

theorem rttMillisec_eq (rtt : UInt32) : rttMillisec rtt = rtt.toNat * 1000 / 65536 := by
  have hhigh : (rtt >>> 16).toNat = rtt.toNat / 65536 := by
    rw [UInt32.toNat_shiftRight, Nat.shiftRight_eq_div_pow]
    rfl
  have hlow : (rtt &&& 0xffff).toNat = rtt.toNat % 65536 := by
    rw [UInt32.toNat_and]
    exact Nat.and_two_pow_sub_one_eq_mod _ 16
  have hsplit : (rtt.toNat : ℚ) = 65536 * (rtt.toNat / 65536 : Nat) + (rtt.toNat % 65536 : Nat) := by
    exact_mod_cast (Nat.div_add_mod rtt.toNat 65536).symm
  unfold rttMillisec
  rw [hhigh, hlow, hsplit]
  ring

theorem rttMillisec_inj {a b : UInt32} : rttMillisec a = rttMillisec b ↔ a = b := by
  constructor
  . intro h
    rw [rttMillisec_eq, rttMillisec_eq] at h
    have hnat : (a.toNat : ℚ) = b.toNat := by linarith
    exact UInt32.toNat_inj.mp (Nat.cast_injective hnat)
  . intro h
    rw [h]

/--
The default is no time in units of 1/65536 s.
-/
theorem rttMillisec_ne_default (rtt : UInt32) : rttMillisec rtt ≠ rttDefault := by
  intro h
  rw [rttMillisec_eq, div_eq_iff (by norm_num)] at h
  unfold rttDefault at h
  norm_num at h
  have hnat : rtt.toNat * 1000 = 1966080 := by exact_mod_cast h
  omega

theorem roundTrip_eq (last delay : UInt32) (nowMs : Nat)
    : (NtpTimestamp.ofMillisec nowMs).compact - delay - last = roundTrip last delay nowMs := by
  unfold roundTrip
  apply sub_right_comm

theorem roundTrip_eq_zero_iff {last delay : UInt32} {nowMs : Nat}
    : roundTrip last delay nowMs = 0 ↔ (NtpTimestamp.ofMillisec nowMs).compact = delay + last := by
  rw [← roundTrip_eq, sub_sub, sub_eq_zero]

theorem handleRtcpRr_rtt_iff (s : SendRtt) (last delay : UInt32) (nowMs : Nat)
    : (s.handleRtcpRr last delay nowMs).rtt = rttMillisec (roundTrip last delay nowMs)
        ↔ last ≠ 0 ∧ ((NtpTimestamp.ofMillisec nowMs).compact = delay + last
          ∨ delay ≠ 0 ∧ delay + last < (NtpTimestamp.ofMillisec nowMs).compact) := by
  unfold SendRtt.handleRtcpRr
  by_cases hlast : last = 0
  . rw [if_pos hlast]
    apply iff_of_false
    . intro h
      exact rttMillisec_ne_default _ h.symm
    . intro ⟨hne, _⟩
      exact hne hlast
  . rw [if_neg hlast]
    simp only [ne_eq, hlast, not_false_eq_true, true_and, rttMillisec_inj]
    split
    . next hcounted =>
      rw [roundTrip_eq]
      exact iff_of_true rfl (.inr hcounted)
    . next hzero =>
      rw [eq_comm, roundTrip_eq_zero_iff]
      exact (or_iff_left hzero).symm

theorem xrDlrrRtt_iff (last delay : UInt32) (nowMs : Nat)
    : xrDlrrRtt last delay nowMs = some (roundTrip last delay nowMs)
        ↔ delay + last ≤ (NtpTimestamp.ofMillisec nowMs).compact := by
  unfold xrDlrrRtt
  simp only
  split
  . next hlt =>
    apply iff_of_false
    . intro h
      cases h
    . exact UInt32.not_le.mpr hlt
  . next hle =>
    rw [roundTrip_eq]
    exact iff_of_true rfl (UInt32.not_lt.mp hle)

/--
Both ways come to the round trip time if and only if there is a last report, its time with the delay added in
32 bits is not behind the time now, and a time without a delay is the time now.
-/
theorem obtainRoundTrip_iff (s : SendRtt) (last delay : UInt32) (nowMs : Nat)
    : ObtainRoundTrip s last delay nowMs
        ↔ last ≠ 0 ∧ delay + last ≤ (NtpTimestamp.ofMillisec nowMs).compact
          ∧ (delay = 0 → (NtpTimestamp.ofMillisec nowMs).compact = last) := by
  unfold ObtainRoundTrip
  rw [handleRtcpRr_rtt_iff, xrDlrrRtt_iff, and_assoc]
  apply and_congr_right
  intro _
  generalize (NtpTimestamp.ofMillisec nowMs).compact = now
  constructor
  . intro ⟨hrr, hle⟩
    refine ⟨hle, ?_⟩
    rintro rfl
    rcases hrr with heq | ⟨hne, _⟩
    . rw [heq, zero_add]
    . exact absurd rfl hne
  . intro ⟨hle, hzero⟩
    refine ⟨?_, hle⟩
    by_cases hdelay : delay = 0
    . left
      rw [hzero hdelay, hdelay, zero_add]
    . by_cases heq : now = delay + last
      . exact .inl heq
      . exact .inr ⟨hdelay, UInt32.lt_of_le_of_ne hle (Ne.symm heq)⟩

/--
The report went out half a second before the lower 16 bits of the seconds wrapped, and came back half a
second after, a quarter of which is delay.
-/
theorem not_obtainRoundTrip
    : ¬∀ (s : SendRtt) (last delay : UInt32) (nowMs : Nat),
      (roundTrip last delay nowMs).toNat < 2 ^ 31 → ObtainRoundTrip s last delay nowMs := by
  intro h
  have hobtain := (obtainRoundTrip_iff {} 0xffff8000 0x4000 65536500).mp (h _ _ _ _ (by decide))
  have hbehind : ¬(0x4000 : UInt32) + 0xffff8000 ≤ (NtpTimestamp.ofMillisec 65536500).compact := by
    decide
  exact hbehind hobtain.right.left
