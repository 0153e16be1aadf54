import CppStreamer.Basic.Numeric
import CppStreamer.Net.WebRtc.RtcRecvStream

/-!
This module contains the fraction of the packets that `RtcRecvStream` reports to be lost, and the runs in which
it is the one of the packets since the report before.
-/

/--
`fracLost` is the number before it is converted to an `uint8_t`, which one below 0 or above 255 does not fit.
-/
structure RtcRrStream extends RtcRecvStream where
  fracLost : Int := 0

namespace RtcRrStream

def handleRtpPacket (s : RtcRrStream) (seq : UInt16) : RtcRrStream :=
  { s with toRtcRecvStream := s.toRtcRecvStream.handleRtpPacket seq }

/--
The fraction of the report block.
-/
def getRtcpRr (s : RtcRrStream) : RtcRrStream × Int :=
  let expectedInterval := s.getExpectedPackets - s.expectRecv
  let recvInterval := (s.recvCount : Int) - s.lastRecv
  let fracLost :=
    if s.lastRecv ≤ 0 then s.fracLost
    else if expectedInterval ≤ 0 ∨ recvInterval ≤ 0 then 0
    else Numeric.round ((((expectedInterval - recvInterval) * 256 : Int) : ℚ) / expectedInterval)
  ({ toRtcRecvStream := s.toRtcRecvStream.getRtcpRr.fst, fracLost := fracLost }, fracLost)

def fractions (s : RtcRrStream) : List RtcRecvStream.RecvStep → List Int
  | [] => []
  | .packet index :: steps => (s.handleRtpPacket (SeqState.ofIndex index)).fractions steps
  | .rr :: steps =>
    let (s, fracLost) := s.getRtcpRr
    fracLost :: s.fractions steps

end RtcRrStream

namespace RtcRecvStream

/--
The index of the first packet, what had arrived at the last report, and what has arrived now.
-/
structure History where
  first : Nat
  last : Option Arrivals
  now : Arrivals
  deriving DecidableEq, Repr

namespace History

/--
The packets may be reordered, and there may be duplicates.
-/
def arrive : Option History → Nat → History
  | none, index => ⟨index, none, ⟨index, 1⟩⟩
  | some h, index => { h with now := ⟨max h.now.highest index, h.now.arrived + 1⟩ }

def report (h : History) : History := { h with last := some h.now }

/--
The packets that were sent since the last report, or since the first packet.
-/
def expected (h : History) : Int :=
  match h.last with
  | none => (h.now.highest : Int) - h.first + 1
  | some last => (h.now.highest : Int) - last.highest

def received (h : History) : Int :=
  match h.last with
  | none => h.now.arrived
  | some last => (h.now.arrived : Int) - last.arrived

/--
The lost packets among them in units of 1/256, at most 255. There are none where none was sent.
-/
def fraction : Option History → ℚ
  | none => 0
  | some h => min 255 (256 * max 0 (h.expected - h.received : ℚ) / h.expected)

def Proper (h : Option History) (fracLost : Int) : Prop :=
  0 ≤ fracLost ∧ fracLost ≤ 255 ∧ |(fracLost : ℚ) - fraction h| ≤ 1

/--
What the code counts the packets with, from the second cycle of the sequence numbers on.
-/
def count (h : History) (arrivals : Arrivals) : Int :=
  ((arrivals.highest : Int) - (h.first / rtpSeqMod + 1 : Nat) * rtpSeqMod) % 2 ^ 32

/--
The first report does not miss a loss that is more than a unit. After it, either no packet was sent, or the count
has grown and the packets are not so few or so many that the fraction leaves a byte, or the count has wrapped and
no loss of more than a unit is missed.
-/
def ReportOk : Option History → Prop
  | none => True
  | some h =>
    match h.last with
    | none => 256 * (h.expected - h.received) ≤ h.expected
    | some last =>
      h.expected < 2 ^ 32
        ∧ (h.expected = 0
          ∨ if h.count last < h.count h.now then
              h.expected < 512 * h.received ∧ 512 * h.received < 513 * h.expected
            else 256 * (h.expected - h.received) ≤ h.expected)

end History

/--
The history at each report.
-/
def histories (h : Option History) : List RecvStep → List (Option History)
  | [] => []
  | .packet index :: steps => histories (some (History.arrive h index)) steps
  | .rr :: steps => h :: histories (h.map History.report) steps

/--
Each packet is one that `UpdateSeq` takes for a packet in order or for a reordered one.
-/
def InWindow (h : Option History) : List RecvStep → Prop
  | [] => True
  | .packet index :: steps =>
    (∀ before, h = some before →
        index < before.now.highest + maxDropout ∧ before.now.highest < index + maxMisorder)
      ∧ InWindow (some (History.arrive h index)) steps
  | .rr :: steps => InWindow (h.map History.report) steps

section Fraction

variable {e r : Int}

theorem max_div_eq (he : 0 < e)
    : 256 * max 0 (e - r : ℚ) / e = max 0 ((((e - r) * 256 : Int) : ℚ) / e) := by
  have hpos : (0 : ℚ) < e := by exact_mod_cast he
  rw [mul_max_of_nonneg _ _ (by norm_num), mul_zero, ← max_div_div_right hpos.le, zero_div, mul_comm]
  push_cast
  rfl

/--
Nothing is reported.
-/
theorem zero_near_iff (he : 0 < e)
    : |((0 : Int) : ℚ) - min 255 (256 * max 0 (e - r : ℚ) / e)| ≤ 1 ↔ 256 * (e - r) ≤ e := by
  have hpos : (0 : ℚ) < e := by exact_mod_cast he
  rw [max_div_eq he, Int.cast_zero, zero_sub, abs_neg, abs_of_nonneg (le_min (by norm_num) (le_max_left _ _)),
    min_le_iff, max_le_iff, div_le_iff₀ hpos, one_mul, mul_comm 256]
  norm_num
  exact_mod_cast Iff.rfl

theorem round_nonneg_iff (he : 0 < e)
    : 0 ≤ Numeric.round ((((e - r) * 256 : Int) : ℚ) / e) ↔ 512 * r < 513 * e := by
  have hpos : (0 : ℚ) < e := by exact_mod_cast he
  have hcast : (512 * r < 513 * e) ↔ (512 * r : ℚ) < 513 * e := by exact_mod_cast Iff.rfl
  rw [Numeric.round_nonneg_iff, lt_div_iff₀ hpos, hcast]
  push_cast
  constructor
  . intro h
    linarith
  . intro h
    linarith

theorem round_le_iff (he : 0 < e)
    : Numeric.round ((((e - r) * 256 : Int) : ℚ) / e) ≤ 255 ↔ e < 512 * r := by
  have hpos : (0 : ℚ) < e := by exact_mod_cast he
  have hcast : (e < 512 * r) ↔ (e : ℚ) < 512 * r := by exact_mod_cast Iff.rfl
  rw [Numeric.round_le_iff (by norm_num), div_lt_iff₀ hpos, hcast]
  push_cast
  constructor
  . intro h
    linarith
  . intro h
    linarith

/--
The rounded fraction is near whenever it is in a byte.
-/
theorem round_near (he : 0 < e) (hlow : 0 ≤ Numeric.round ((((e - r) * 256 : Int) : ℚ) / e))
    (hhigh : Numeric.round ((((e - r) * 256 : Int) : ℚ) / e) ≤ 255)
    : |(Numeric.round ((((e - r) * 256 : Int) : ℚ) / e) : ℚ) - min 255 (256 * max 0 (e - r : ℚ) / e)| ≤ 1 := by
  rw [max_div_eq he]
  apply (Numeric.abs_sub_clamp_le (d := 1 / 2) _ _ (Numeric.abs_round_sub_le _)).trans
  . norm_num
  . exact_mod_cast hlow
  . exact_mod_cast hhigh

end Fraction

section Run

theorem updateSeq_inWindow {s : SeqState} {first highest n : Nat} (h : s.Follows first highest)
    (hahead : n < highest + maxDropout) (hbehind : highest < n + maxMisorder)
    : (s.updateSeq (SeqState.ofIndex n)).fst.Follows first (max highest n)
        ∧ (s.updateSeq (SeqState.ofIndex n)).fst.badSeq = s.badSeq := by
  constructor
  . obtain ⟨s', hupdate, hfollows⟩ := h.updateSeq hahead hbehind
    rw [hupdate]
    exact hfollows
  . have hseq := SeqState.toNat_ofIndex n
    have hmax := h.maxSeq
    by_cases horder : highest ≤ n
    . apply updateSeq_badSeq
      rw [hseq, hmax]
      unfold rtpSeqMod maxDropout at *
      omega
    . rw [SeqState.updateSeq_of_gt]
      rw [hseq, hmax]
      unfold rtpSeqMod maxMisorder at *
      omega

/--
The state behind the packets that have arrived.
-/
structure Receives (s : RtcRecvStream) (h : History) : Prop where
  firstPkt : s.firstPkt = true
  recvCount : s.recvCount = h.now.arrived
  arrived : 0 < h.now.arrived
  seq : s.seq.Follows h.first h.now.highest
  badSeq : s.seq.badSeq = rtpSeqMod + 1

theorem receives_first (s : RtcRecvStream) (index : Nat) (hfirst : s.firstPkt = false) (hcount : s.recvCount = 0)
    : (s.handleRtpPacket (SeqState.ofIndex index)).Receives (History.arrive none index) := by
  unfold handleRtpPacket
  rw [hfirst]
  constructor
  . rfl
  . exact congrArg (· + 1) hcount
  . exact Nat.one_pos
  . exact SeqState.follows_initSeq index
  . rfl

/--
What the state keeps when it counts one packet more.
-/
theorem receives_counted {s : RtcRecvStream} {h : History} {index : Nat} (hfirst : s.firstPkt = true)
    (hcount : s.recvCount = h.now.arrived) (hseq : s.seq.Follows h.first (max h.now.highest index))
    (hbad : s.seq.badSeq = rtpSeqMod + 1)
    : ({ s with recvCount := s.recvCount + 1 } : RtcRecvStream).Receives (History.arrive (some h) index) := by
  constructor
  . exact hfirst
  . exact congrArg (· + 1) hcount
  . exact Nat.succ_pos _
  . exact hseq
  . exact hbad

theorem Receives.packet {s : RtcRecvStream} {h : History} {index : Nat} (hs : s.Receives h)
    (hahead : index < h.now.highest + maxDropout) (hbehind : h.now.highest < index + maxMisorder)
    : (s.handleRtpPacket (SeqState.ofIndex index)).Receives (History.arrive (some h) index) := by
  rcases updateSeq_inWindow hs.seq hahead hbehind with ⟨hfollows, hbad⟩
  rw [← updateSeq_seq] at hfollows hbad
  rcases s.updateSeq_frame (SeqState.ofIndex index) with ⟨_, _, _, hframe⟩
  unfold handleRtpPacket
  rw [if_pos hs.firstPkt]
  apply receives_counted
  . rw [hframe]
    exact hs.firstPkt
  . rw [hframe]
    exact hs.recvCount
  . exact hfollows
  . exact hbad.trans hs.badSeq

theorem Receives.getExpectedPackets {s : RtcRecvStream} {h : History} (hs : s.Receives h)
    : s.getExpectedPackets = h.count h.now := getExpectedPackets_follows hs.seq hs.badSeq

end Run

end RtcRecvStream

namespace RtcRrStream

open RtcRecvStream

/--
What the last report has left.
-/
structure Reported (s : RtcRrStream) (h : History) (last : Arrivals) : Prop where
  lastRecv : s.lastRecv = last.arrived
  arrived : 0 < last.arrived
  expectRecv : s.expectRecv = h.count last
  highest : last.highest ≤ h.now.highest
  later : last = h.now ∨ last.arrived < h.now.arrived

def Tracks (s : RtcRrStream) : Option History → Prop
  | none => s.firstPkt = false ∧ s.recvCount = 0 ∧ s.lastRecv = 0 ∧ s.fracLost = 0
  | some h =>
    s.Receives h ∧ (h.last = none → s.lastRecv = 0 ∧ s.fracLost = 0)
      ∧ ∀ last, h.last = some last → s.Reported h last

theorem tracks_packet {s : RtcRrStream} {h : Option History} {index : Nat} {steps : List RecvStep} (hs : s.Tracks h)
    (hwindow : InWindow h (.packet index :: steps))
    : (s.handleRtpPacket (SeqState.ofIndex index)).Tracks (some (History.arrive h index)) := by
  obtain ⟨_, _, _, _, hframe⟩ := s.toRtcRecvStream.handleRtpPacket_frame (SeqState.ofIndex index)
  have hlast : (s.handleRtpPacket (SeqState.ofIndex index)).lastRecv = s.lastRecv
      ∧ (s.handleRtpPacket (SeqState.ofIndex index)).expectRecv = s.expectRecv := by
    unfold handleRtpPacket
    rw [hframe]
    exact ⟨rfl, rfl⟩
  cases h with
  | none =>
    obtain ⟨hfirst, hcount, hrecv, hfrac⟩ := hs
    refine ⟨receives_first _ index hfirst hcount, ?_, ?_⟩
    . intro _
      exact ⟨hlast.left.trans hrecv, hfrac⟩
    . intro last hnone
      cases hnone
  | some h =>
    obtain ⟨hreceives, hnone, hsome⟩ := hs
    obtain ⟨hahead, hbehind⟩ := hwindow.left h rfl
    refine ⟨hreceives.packet hahead hbehind, ?_, ?_⟩
    . intro hno
      exact ⟨hlast.left.trans (hnone hno).left, (hnone hno).right⟩
    . intro last hlast'
      have hreported := hsome last hlast'
      constructor
      . exact hlast.left.trans hreported.lastRecv
      . exact hreported.arrived
      . exact hlast.right.trans hreported.expectRecv
      . exact hreported.highest.trans (Nat.le_max_left _ _)
      . apply Or.inr
        change last.arrived < h.now.arrived + 1
        cases hreported.later with
        | inl heq => rw [heq]; omega
        | inr hlt => omega

theorem getRtcpRr_behindRr (s : RtcRecvStream) : ∃ totalLost, s.getRtcpRr.fst = s.behindRr totalLost := by
  unfold RtcRecvStream.getRtcpRr RtcRecvStream.getPacketLost
  simp only
  split
  . exact ⟨s.totalLost, rfl⟩
  split
  . exact ⟨s.totalLost, rfl⟩
  . exact ⟨_, rfl⟩

theorem fracLost_of_first {s : RtcRrStream} (h : s.lastRecv = 0) : s.getRtcpRr.snd = s.fracLost := by
  simp only [getRtcpRr, h, Int.le_refl, if_true]

theorem tracks_rr {s : RtcRrStream} {h : Option History} (hs : s.Tracks h)
    : s.getRtcpRr.fst.Tracks (h.map History.report) := by
  obtain ⟨totalLost, hbehind⟩ := getRtcpRr_behindRr s.toRtcRecvStream
  cases h with
  | none =>
    obtain ⟨hfirst, hcount, hrecv, hfrac⟩ := hs
    have hstream : s.getRtcpRr.fst.toRtcRecvStream = s.behindRr totalLost := hbehind
    refine ⟨?_, ?_, ?_, (fracLost_of_first hrecv).trans hfrac⟩
    . rw [hstream]
      exact hfirst
    . rw [hstream]
      exact hcount
    . rw [hstream]
      change (s.recvCount : Int) = 0
      rw [hcount]
      rfl
  | some h =>
    have hreceives := hs.left
    refine ⟨?_, ?_, ?_⟩
    . change (s.toRtcRecvStream.getRtcpRr.fst).Receives h.report
      rw [hbehind]
      exact ⟨hreceives.firstPkt, hreceives.recvCount, hreceives.arrived, hreceives.seq, hreceives.badSeq⟩
    . intro hnone
      cases hnone
    . intro last hlast
      cases hlast
      constructor
      . change s.toRtcRecvStream.getRtcpRr.fst.lastRecv = _
        rw [hbehind]
        exact congrArg Nat.cast hreceives.recvCount
      . exact hreceives.arrived
      . change s.toRtcRecvStream.getRtcpRr.fst.expectRecv = _
        rw [hbehind]
        exact hreceives.getExpectedPackets
      . apply Nat.le_refl
      . exact Or.inl rfl

section Report

variable {h : RtcRecvStream.History} {last : Arrivals}

/--
The count has grown by the number of packets, or it has wrapped.
-/
theorem count_sub (hlast : h.last = some last) (hle : last.highest ≤ h.now.highest) (hshort : h.expected < 2 ^ 32)
    : 0 ≤ h.expected
        ∧ (h.count last < h.count h.now → h.count h.now - h.count last = h.expected ∧ 0 < h.expected) := by
  unfold History.expected at *
  unfold History.count rtpSeqMod
  rw [hlast] at hshort ⊢
  simp only at hshort ⊢
  omega

/--
A report behind another one.
-/
theorem proper_later_iff {s : RtcRrStream} (hreceives : s.Receives h) (hlast : h.last = some last)
    (hreported : s.Reported h last) (hshort : h.expected < 2 ^ 32)
    : History.Proper (some h) s.getRtcpRr.snd ↔ History.ReportOk (some h) := by
  have hexpected := hreceives.getExpectedPackets
  have hlater : ¬s.lastRecv ≤ 0 := by
    have harrived := hreported.arrived
    rw [hreported.lastRecv]
    omega
  have hrecv : (s.recvCount : Int) - s.lastRecv = h.received := by
    unfold History.received
    rw [hlast, hreported.lastRecv, hreceives.recvCount]
  have hpos : 0 < h.expected → 0 < h.received := by
    unfold History.expected History.received
    rw [hlast]
    simp only
    cases hreported.later with
    | inl heq =>
      rw [heq]
      omega
    | inr hlt => omega
  obtain ⟨hnonneg, hsub⟩ := count_sub hlast hreported.highest hshort
  unfold getRtcpRr History.Proper History.fraction History.ReportOk
  simp only [hlast, hlater, if_false, hrecv, hexpected, hreported.expectRecv, hshort, true_and]
  by_cases hgrows : h.count last < h.count h.now
  . obtain ⟨hcount, he⟩ := hsub hgrows
    have hr := hpos he
    rw [hcount, if_neg (by omega), if_pos hgrows, round_nonneg_iff he, round_le_iff he]
    constructor
    . intro ⟨hlow, hhigh, _⟩
      exact Or.inr ⟨hhigh, hlow⟩
    . intro hok
      obtain ⟨hhigh, hlow⟩ := hok.resolve_left (by omega)
      exact ⟨hlow, hhigh, round_near he ((round_nonneg_iff he).mpr hlow) ((round_le_iff he).mpr hhigh)⟩
  . rw [if_pos (by omega), if_neg hgrows]
    by_cases hzero : h.expected = 0
    . simp [hzero]
    . rw [zero_near_iff (by omega)]
      constructor
      . intro hproper
        exact Or.inr hproper.right.right
      . intro hok
        exact ⟨by omega, by omega, hok.resolve_left hzero⟩

/--
A report is proper if and only if its history allows it, with fewer than 2^32 packets since the last one.
-/
theorem proper_iff {s : RtcRrStream} (hs : s.Tracks (some h))
    (hshort : ∀ last, h.last = some last → h.expected < 2 ^ 32)
    : History.Proper (some h) s.getRtcpRr.snd ↔ History.ReportOk (some h) := by
  obtain ⟨hreceives, hnone, hsome⟩ := hs
  cases hlast : h.last with
  | none =>
    obtain ⟨hrecv, hfrac⟩ := hnone hlast
    have hle := hreceives.seq.le
    have hpos : 0 < h.expected := by
      unfold History.expected
      rw [hlast]
      simp only
      omega
    rw [fracLost_of_first hrecv, hfrac]
    unfold History.Proper History.fraction History.ReportOk
    simp only [hlast]
    rw [zero_near_iff hpos]
    constructor
    . intro hproper
      exact hproper.right.right
    . intro hok
      exact ⟨by omega, by omega, hok⟩
  | some last => exact proper_later_iff hreceives hlast (hsome last hlast) (hshort last hlast)

end Report

/--
In every run of packets in order or reordered whose reports are all of that kind, they are proper.
-/
theorem fractions_proper_of_tracks {s : RtcRrStream} {h : Option History} {steps : List RecvStep} (hs : s.Tracks h)
    (hwindow : InWindow h steps) (hok : ∀ x ∈ histories h steps, History.ReportOk x)
    : List.Forall₂ History.Proper (histories h steps) (s.fractions steps) := by
  induction steps generalizing s h with
  | nil => exact List.Forall₂.nil
  | cons step steps ih =>
    cases step with
    | packet index => exact ih (tracks_packet hs hwindow) hwindow.right hok
    | rr =>
      have hhead := hok h List.mem_cons_self
      have htail := fun x hx => hok x (List.mem_cons_of_mem _ hx)
      apply List.Forall₂.cons _ (ih (tracks_rr hs) hwindow htail)
      change History.Proper h s.getRtcpRr.snd
      cases h with
      | none =>
        rw [fracLost_of_first hs.right.right.left, hs.right.right.right]
        simp [History.Proper, History.fraction]
      | some h =>
        apply (proper_iff hs _).mpr hhead
        intro last hlast
        unfold History.ReportOk at hhead
        simp only [hlast] at hhead
        exact hhead.left

theorem fractions_proper {steps : List RecvStep} (hwindow : InWindow none steps)
    (hok : ∀ x ∈ histories none steps, History.ReportOk x)
    : List.Forall₂ History.Proper (histories none steps) (fractions {} steps) :=
  fractions_proper_of_tracks ⟨rfl, rfl, rfl, rfl⟩ hwindow hok

/--
A packet is lost, and another one arrives twice.
-/
theorem fractions_proper_sample
    : List.Forall₂ History.Proper
        (histories none [.rr, .packet 65540, .rr, .packet 65542, .packet 65541, .packet 65544, .rr])
        (fractions {} [.rr, .packet 65540, .rr, .packet 65542, .packet 65541, .packet 65544, .rr]) := by
  apply fractions_proper
  . simp [InWindow, History.arrive, History.report, maxDropout, maxMisorder]
  . simp [histories, History.arrive, History.report, History.ReportOk, History.expected, History.received,
      History.count, rtpSeqMod]

/--
All but the last one of 2999 packets are lost.
-/
theorem not_fractions_proper
    : ¬∀ steps : List RecvStep, InWindow none steps →
      List.Forall₂ History.Proper (histories none steps) (fractions {} steps) := by
  intro h
  have hproper := h [.packet 65536, .rr, .packet 68535, .rr]
    (by simp [InWindow, History.arrive, History.report, maxDropout, maxMisorder])
  have hvalue : fractions {} [.packet 65536, .rr, .packet 68535, .rr] = [0, 256] := by decide +kernel
  rw [hvalue] at hproper
  cases hproper with
  | cons _ hrest =>
    cases hrest with
    | cons hlast _ => exact absurd hlast.right.left (by decide)

end RtcRrStream
