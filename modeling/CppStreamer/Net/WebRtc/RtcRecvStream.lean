import CppStreamer.Net.WebRtc.UpdateSeq
import CppStreamer.Utils.ByteStream

/-!
This module contains the sequence numbers and the losses of `RtcRecvStream`, and when the losses that it
reports are the packets that were skipped.
-/

open ByteStream

/--
The report block of a stream as far as it depends on the sequence numbers. The number of lost packets
has 3 bytes.
-/
structure RtcpRrBlock where
  cumulativeLost : List UInt8
  highestSeq : Nat
  deriving DecidableEq, Repr

def RtcpRrBlock.getCumulativeLost (block : RtcpRrBlock) : Nat := read3Bytes block.cumulativeLost

/--
`recvCount` is the count of `statics_`. The `int64_t` members are integers here.
-/
structure RtcRecvStream where
  firstPkt : Bool := false
  baseSeq : Nat := 0
  seq : SeqState := {}
  discardCount : Nat := 0
  expectRecv : Int := 0
  lastRecv : Int := 0
  totalLost : Int := 0
  recvCount : Nat := 0
  deriving DecidableEq, Repr

namespace RtcRecvStream

def initSeq (s : RtcRecvStream) (seq : UInt16) : RtcRecvStream :=
  { s with baseSeq := seq.toNat, seq := SeqState.initSeq seq }

def updateSeq (s : RtcRecvStream) (seq : UInt16) : RtcRecvStream :=
  let udelta := (seq.toNat + rtpSeqMod - s.seq.maxSeq) % rtpSeqMod
  if udelta < maxDropout then
    let cycles := if seq.toNat < s.seq.maxSeq then (s.seq.cycles + rtpSeqMod) % 2 ^ 32 else s.seq.cycles
    { s with seq := { s.seq with cycles := cycles, maxSeq := seq.toNat } }
  else if udelta ≤ rtpSeqMod - maxMisorder then
    if seq.toNat = s.seq.badSeq then s.initSeq seq
    else
      { s with
        seq := { s.seq with badSeq := (seq.toNat + 1) % rtpSeqMod }
        discardCount := s.discardCount + 1 }
  else s

/--
`HandleRtpPacket` from the sequence number on, which is the recovered one for a retransmission.
-/
def handleRtpPacket (s : RtcRecvStream) (seq : UInt16) : RtcRecvStream :=
  let s := if s.firstPkt then s.updateSeq seq else { s with firstPkt := true }.initSeq seq
  { s with recvCount := s.recvCount + 1 }

/--
The sum is an `uint32_t` before it is returned.
-/
def getExpectedPackets (s : RtcRecvStream) : Int :=
  ((s.seq.cycles : Int) + s.seq.maxSeq - s.seq.badSeq + 1) % 2 ^ 32

def getPacketLost (s : RtcRecvStream) : RtcRecvStream × Int :=
  let expected := s.getExpectedPackets
  let recvCount : Int := s.recvCount
  let expectedInterval := expected - s.expectRecv
  let recvInterval := recvCount - s.lastRecv
  let s' := { s with expectRecv := expected, lastRecv := recvCount }
  if s.lastRecv ≤ 0 then (s', 0)
  else if expectedInterval ≤ 0 ∨ recvInterval ≤ 0 then (s', s.totalLost)
  else
    let totalLost := s.totalLost + (expectedInterval - recvInterval)
    ({ s' with totalLost := totalLost }, totalLost)

def getRtcpRr (s : RtcRecvStream) : RtcRecvStream × RtcpRrBlock :=
  let highestSeq := (s.seq.maxSeq + s.seq.cycles) % 2 ^ 32
  let (s, totalLost) := s.getPacketLost
  (s, { cumulativeLost := write3Bytes (totalLost % 2 ^ 32).toNat, highestSeq := highestSeq })

/--
A packet with the index that its sequence number stands for, or a call of `GetRtcpRr`.
-/
inductive RecvStep where
  | packet (index : Nat)
  | rr
  deriving DecidableEq, Repr

/--
The losses and the highest number that each call reports.
-/
def reports (s : RtcRecvStream) : List RecvStep → List (Nat × Nat)
  | [] => []
  | .packet index :: steps => (s.handleRtpPacket (SeqState.ofIndex index)).reports steps
  | .rr :: steps =>
    let (s, block) := s.getRtcpRr
    (block.getCumulativeLost, block.highestSeq) :: s.reports steps

/--
What has arrived at a point of a run.
-/
structure Arrivals where
  highest : Nat
  arrived : Nat
  deriving DecidableEq, Repr

namespace Arrivals

def next : Option Arrivals → Nat → Arrivals
  | none, index => ⟨index, 1⟩
  | some now, index => ⟨index, now.arrived + 1⟩

/--
The packets that were skipped since then.
-/
def lost (since now : Arrivals) : Int :=
  ((now.highest : Int) - since.highest) - ((now.arrived : Int) - since.arrived)

/--
The number that the code counts the expected packets with.
-/
def expected (now : Arrivals) : Int := ((now.highest : Int) - rtpSeqMod) % 2 ^ 32

end Arrivals

/--
What the calls should report, with the first call behind a packet. An index is 65536 times the number
of wraps plus the sequence number.
-/
def truths (first now : Option Arrivals) : List RecvStep → List (Nat × Nat)
  | [] => []
  | .packet index :: steps => truths first (some (Arrivals.next now index)) steps
  | .rr :: steps =>
    match now with
    | none => (0, 0) :: truths first now steps
    | some now =>
      let first := first.getD now
      ((first.lost now % 2 ^ 24).toNat, now.highest % 2 ^ 32) :: truths (some first) (some now) steps

/--
The packets arrive in order, each at most 2999 ahead of the one before. The first is of the first cycle.
-/
def InOrder (now : Option Arrivals) : List RecvStep → Prop
  | [] => True
  | .packet index :: steps =>
    (match now with
      | none => index < rtpSeqMod
      | some now => now.highest < index ∧ index < now.highest + maxDropout)
      ∧ InOrder (some (Arrivals.next now index)) steps
  | .rr :: steps => InOrder now steps

/--
Between two calls one behind the other the number of expected packets grows, or no packet is skipped.
-/
def Accounted (last now : Option Arrivals) : List RecvStep → Prop
  | [] => True
  | .packet index :: steps => Accounted last (some (Arrivals.next now index)) steps
  | .rr :: steps =>
    match last, now with
    | some last, some now =>
      (last.expected < now.expected ∨ last.lost now % 2 ^ 24 = 0) ∧ Accounted (some now) (some now) steps
    | _, _ => Accounted now now steps

section Run

/--
The state behind the packets.
-/
def Seen (s : RtcRecvStream) : Option Arrivals → Prop
  | none => s.firstPkt = false ∧ s.recvCount = 0 ∧ s.seq.maxSeq = 0 ∧ s.seq.cycles = 0
  | some now => s.firstPkt = true ∧ s.recvCount = now.arrived ∧ 0 < now.arrived
      ∧ s.seq.Follows 0 now.highest ∧ s.seq.badSeq = rtpSeqMod + 1

theorem updateSeq_seq (s : RtcRecvStream) (seq : UInt16)
    : (s.updateSeq seq).seq = (s.seq.updateSeq seq).fst := by
  unfold updateSeq SeqState.updateSeq
  simp only
  split
  . rfl
  split
  . split
    . rfl
    . rfl
  . rfl

/--
What `UpdateSeq` leaves alone.
-/
theorem updateSeq_frame (s : RtcRecvStream) (seq : UInt16)
    : ∃ baseSeq seqState discardCount, s.updateSeq seq
        = { s with baseSeq := baseSeq, seq := seqState, discardCount := discardCount } := by
  unfold updateSeq
  simp only
  split
  . exact ⟨_, _, _, rfl⟩
  split
  . split
    . exact ⟨_, _, _, rfl⟩
    . exact ⟨_, _, _, rfl⟩
  . exact ⟨_, _, _, rfl⟩

theorem updateSeq_badSeq {s : SeqState} {seq : UInt16}
    (h : (seq.toNat + rtpSeqMod - s.maxSeq) % rtpSeqMod < maxDropout)
    : (s.updateSeq seq).fst.badSeq = s.badSeq := by
  unfold SeqState.updateSeq
  simp only [h, if_true]

/--
What the state keeps when it counts one packet more.
-/
theorem seen_counted {s : RtcRecvStream} {now : Arrivals} {index : Nat} (hfirst : s.firstPkt = true)
    (hcount : s.recvCount = now.arrived) (hfollows : s.seq.Follows 0 index) (hbad : s.seq.badSeq = rtpSeqMod + 1)
    : ({ s with recvCount := s.recvCount + 1 } : RtcRecvStream).Seen (some (Arrivals.next (some now) index)) :=
  ⟨hfirst, congrArg (· + 1) hcount, Nat.succ_pos _, hfollows, hbad⟩

theorem seen_packet {s : RtcRecvStream} {now : Option Arrivals} {index : Nat} {steps : List RecvStep}
    (h : s.Seen now) (horder : InOrder now (.packet index :: steps))
    : (s.handleRtpPacket (SeqState.ofIndex index)).Seen (some (Arrivals.next now index)) := by
  cases now with
  | none =>
    obtain ⟨hfirst, hcount, _⟩ := h
    have hlt : index < rtpSeqMod := horder.left
    unfold handleRtpPacket
    rw [hfirst]
    refine ⟨rfl, congrArg (· + 1) hcount, Nat.one_pos, ?_, rfl⟩
    have hfollows := SeqState.follows_initSeq index
    constructor
    . apply Nat.zero_le
    . exact hfollows.maxSeq
    . change 0 = (index / rtpSeqMod - 0) * rtpSeqMod % 2 ^ 32
      rw [Nat.div_eq_of_lt hlt]
      rfl
  | some now =>
    obtain ⟨hfirst, hcount, hpos, hfollows, hbad⟩ := h
    obtain ⟨hlt, hahead⟩ := horder.left
    have hbehind : now.highest < index + maxMisorder := Nat.lt_add_right _ hlt
    obtain ⟨s', hupdate, hfollows'⟩ := hfollows.updateSeq hahead hbehind
    have hudelta : ((SeqState.ofIndex index).toNat + rtpSeqMod - s.seq.maxSeq) % rtpSeqMod < maxDropout := by
      rw [SeqState.toNat_ofIndex, hfollows.maxSeq]
      unfold rtpSeqMod maxDropout at *
      omega
    have hseq := s.updateSeq_seq (SeqState.ofIndex index)
    have hbad' := updateSeq_badSeq hudelta
    rw [hupdate] at hseq hbad'
    rw [Nat.max_eq_right (Nat.le_of_lt hlt)] at hfollows'
    unfold handleRtpPacket
    rw [if_pos hfirst]
    obtain ⟨_, _, _, hframe⟩ := s.updateSeq_frame (SeqState.ofIndex index)
    apply seen_counted
    . rw [hframe]
      exact hfirst
    . rw [hframe]
      exact hcount
    . rw [hseq]
      exact hfollows'
    . rw [hseq]
      exact hbad'.trans hbad

/--
What the last call behind a packet has left.
-/
def Reported (s : RtcRecvStream) : Option Arrivals → Prop
  | none => s.lastRecv = 0 ∧ s.totalLost = 0
  | some last => s.lastRecv = last.arrived ∧ 0 < last.arrived ∧ s.expectRecv = last.expected

/--
What a packet leaves alone.
-/
theorem handleRtpPacket_frame (s : RtcRecvStream) (seq : UInt16)
    : ∃ firstPkt baseSeq seqState discardCount, s.handleRtpPacket seq
        = { s with
            firstPkt := firstPkt, baseSeq := baseSeq, seq := seqState
            discardCount := discardCount, recvCount := s.recvCount + 1 } := by
  unfold handleRtpPacket
  simp only
  split
  . obtain ⟨_, _, _, hframe⟩ := s.updateSeq_frame seq
    rw [hframe]
    exact ⟨_, _, _, _, rfl⟩
  . exact ⟨_, _, _, _, rfl⟩

theorem reported_packet {s : RtcRecvStream} {last : Option Arrivals} (h : s.Reported last) (seq : UInt16)
    : (s.handleRtpPacket seq).Reported last
        ∧ (s.handleRtpPacket seq).totalLost = s.totalLost := by
  obtain ⟨_, _, _, _, hframe⟩ := s.handleRtpPacket_frame seq
  rw [hframe]
  constructor
  . cases last with
    | none => exact h
    | some last => exact h
  . rfl

theorem getExpectedPackets_follows {s : RtcRecvStream} {first highest : Nat} (hfollows : s.seq.Follows first highest)
    (hbad : s.seq.badSeq = rtpSeqMod + 1)
    : s.getExpectedPackets = ((highest : Int) - (first / rtpSeqMod + 1 : Nat) * rtpSeqMod) % 2 ^ 32 := by
  have hsplit := Nat.div_add_mod highest rtpSeqMod
  have hle : first / rtpSeqMod ≤ highest / rtpSeqMod := Nat.div_le_div_right hfollows.le
  unfold getExpectedPackets
  rw [hbad, hfollows.maxSeq, hfollows.cycles, Int.natCast_mod, Int.add_sub_assoc, Int.add_assoc]
  generalize highest / rtpSeqMod = cycles at *
  generalize first / rtpSeqMod = start at *
  change (_ % (2 ^ 32 : Int) + _) % 2 ^ 32 = _
  -- what is left has no remainder in it
  rw [Int.emod_add_emod]
  congr 1
  generalize highest % rtpSeqMod = seq at *
  rw [← hsplit]
  unfold rtpSeqMod
  omega

theorem getExpectedPackets_seen {s : RtcRecvStream} {now : Arrivals} (h : s.Seen (some now))
    : s.getExpectedPackets = now.expected := by
  rcases h with ⟨_, _, _, hfollows, hbad⟩
  rw [getExpectedPackets_follows hfollows hbad, Nat.zero_div]
  rfl

theorem highestSeq_seen {s : RtcRecvStream} {now : Arrivals} (h : s.Seen (some now))
    : (s.seq.maxSeq + s.seq.cycles) % 2 ^ 32 = now.highest % 2 ^ 32 := by
  obtain ⟨_, _, _, hfollows, _⟩ := h
  have hmax := hfollows.maxSeq
  have hcycles := hfollows.cycles
  rw [hmax, hcycles]
  unfold rtpSeqMod
  omega

theorem getCumulativeLost_write (totalLost : Int) (highestSeq : Nat)
    : (RtcpRrBlock.mk (write3Bytes (totalLost % 2 ^ 32).toNat) highestSeq).getCumulativeLost
        = (totalLost % 2 ^ 24).toNat := by
  have hread := read3Bytes_write3Bytes (totalLost % 2 ^ 32).toNat []
  rw [List.append_nil] at hread
  unfold RtcpRrBlock.getCumulativeLost
  rw [hread]
  omega

/--
The losses up to the last call are those since the first one, if there was one.
-/
def Totals (s : RtcRecvStream) : Option Arrivals → Option Arrivals → Prop
  | none, none => True
  | some first, some last => s.totalLost % 2 ^ 24 = first.lost last % 2 ^ 24
  | _, _ => False

structure Tracks (s : RtcRecvStream) (first last now : Option Arrivals) : Prop where
  seen : s.Seen now
  reported : s.Reported last
  totals : s.Totals first last
  -- the last call is behind what has arrived, or saw all of it
  behind : ∀ b, last = some b → ∃ a, now = some a ∧ (b = a ∨ b.arrived < a.arrived)

theorem tracks_start : ({} : RtcRecvStream).Tracks none none none where
  seen := ⟨rfl, rfl, rfl, rfl⟩
  reported := ⟨rfl, rfl⟩
  totals := trivial
  behind := by
    intro b h
    cases h

theorem Tracks.packet {s : RtcRecvStream} {first last now : Option Arrivals} {index : Nat}
    {steps : List RecvStep} (h : s.Tracks first last now) (horder : InOrder now (.packet index :: steps))
    : (s.handleRtpPacket (SeqState.ofIndex index)).Tracks first last (some (Arrivals.next now index)) := by
  obtain ⟨hreported, htotal⟩ := reported_packet h.reported (SeqState.ofIndex index)
  have htotals := h.totals
  constructor
  . exact seen_packet h.seen horder
  . exact hreported
  . unfold Totals at *
    rw [htotal]
    exact htotals
  . intro b hb
    obtain ⟨a, rfl, hle⟩ := h.behind b hb
    refine ⟨_, rfl, Or.inr ?_⟩
    change b.arrived < a.arrived + 1
    rcases hle with rfl | hlt
    . apply Nat.lt_succ_self
    . exact Nat.lt_succ_of_lt hlt

/--
A call in front of the first packet.
-/
theorem Tracks.rr_none {s : RtcRecvStream} {first last : Option Arrivals} (h : s.Tracks first last none)
    : ∃ s', s.getRtcpRr = (s', ⟨write3Bytes 0, 0⟩) ∧ s'.Tracks none none none ∧ first = none
        ∧ last = none := by
  have hlast : last = none := by
    cases hlast : last with
    | none => rfl
    | some b =>
      obtain ⟨_, hnow, _⟩ := h.behind b hlast
      cases hnow
  subst hlast
  have hfirst : first = none := by
    cases hfirst : first with
    | none => rfl
    | some f =>
      have htotals := h.totals
      rw [hfirst] at htotals
      exact htotals.elim
  obtain ⟨hpkt, hcount, hmax, hcycles⟩ := h.seen
  obtain ⟨hrecv, htotal⟩ := h.reported
  have hrr : s.getRtcpRr
      = ({ s with expectRecv := s.getExpectedPackets, lastRecv := s.recvCount }, ⟨write3Bytes 0, 0⟩) := by
    unfold getRtcpRr getPacketLost
    simp only [hrecv, hmax, hcycles, Int.le_refl, if_true]
    rfl
  refine ⟨_, hrr, ⟨⟨hpkt, hcount, hmax, hcycles⟩, ⟨?_, htotal⟩, trivial, ?_⟩, hfirst, rfl⟩
  . change (s.recvCount : Int) = 0
    rw [hcount]
    rfl
  . intro b hb
    cases hb

/--
What any call leaves.
-/
def behindRr (s : RtcRecvStream) (totalLost : Int) : RtcRecvStream :=
  { s with expectRecv := s.getExpectedPackets, lastRecv := s.recvCount, totalLost := totalLost }

theorem tracks_rr {s : RtcRecvStream} {now : Arrivals} {first : Arrivals} (hseen : s.Seen (some now))
    {totalLost : Int} (htotal : totalLost % 2 ^ 24 = first.lost now % 2 ^ 24)
    : (s.behindRr totalLost).Tracks (some first) (some now) (some now) := by
  have hexpected := getExpectedPackets_seen hseen
  obtain ⟨hpkt, hcount, hpos, hfollows, hbad⟩ := hseen
  constructor
  . exact ⟨hpkt, hcount, hpos, hfollows, hbad⟩
  . exact ⟨congrArg Nat.cast hcount, hpos, hexpected⟩
  . exact htotal
  . intro b hb
    cases hb
    exact ⟨_, rfl, Or.inl rfl⟩

/--
The first call behind a packet.
-/
theorem Tracks.rr_first {s : RtcRecvStream} {first : Option Arrivals} {now : Arrivals}
    (h : s.Tracks first none (some now))
    : ∃ s', s.getRtcpRr = (s', ⟨write3Bytes 0, now.highest % 2 ^ 32⟩)
        ∧ s'.Tracks (some now) (some now) (some now) ∧ first = none := by
  have hfirst : first = none := by
    cases hfirst : first with
    | none => rfl
    | some f =>
      have htotals := h.totals
      rw [hfirst] at htotals
      exact htotals.elim
  obtain ⟨hrecv, htotal⟩ := h.reported
  have hrr : s.getRtcpRr = (s.behindRr s.totalLost, ⟨write3Bytes 0, now.highest % 2 ^ 32⟩) := by
    unfold getRtcpRr getPacketLost
    simp only [hrecv, highestSeq_seen h.seen, Int.le_refl, if_true]
    rfl
  refine ⟨_, hrr, ?_, hfirst⟩
  have hzero : s.totalLost % 2 ^ 24 = now.lost now % 2 ^ 24 := by
    unfold Arrivals.lost
    omega
  exact tracks_rr h.seen hzero

/--
A later call: it reports the losses since the first one if and only if those since the last one are
counted, or are none.
-/
theorem Tracks.rr_later {s : RtcRecvStream} {first last now : Arrivals}
    (h : s.Tracks (some first) (some last) (some now))
    : ∃ s' totalLost, s.getRtcpRr
          = (s', ⟨write3Bytes (totalLost % 2 ^ 32).toNat, now.highest % 2 ^ 32⟩)
        ∧ (totalLost % 2 ^ 24 = first.lost now % 2 ^ 24
            ↔ last.expected < now.expected ∨ last.lost now % 2 ^ 24 = 0)
        ∧ (totalLost % 2 ^ 24 = first.lost now % 2 ^ 24 →
            s'.Tracks (some first) (some now) (some now)) := by
  obtain ⟨hrecv, hpos, hexpect⟩ := h.reported
  have htotals : s.totalLost % 2 ^ 24 = first.lost last % 2 ^ 24 := h.totals
  have hexpected := getExpectedPackets_seen h.seen
  have hhighest := highestSeq_seen h.seen
  obtain ⟨_, hcount, _⟩ := h.seen
  have hlater : ¬s.lastRecv ≤ 0 := by
    rw [hrecv]
    omega
  -- the losses add up
  have hsum : first.lost now = first.lost last + last.lost now := by
    unfold Arrivals.lost
    omega
  by_cases hskip : s.getExpectedPackets - s.expectRecv ≤ 0 ∨ (s.recvCount : Int) - s.lastRecv ≤ 0
  . refine ⟨s.behindRr s.totalLost, s.totalLost, ?_, ?_, tracks_rr h.seen⟩
    . unfold getRtcpRr getPacketLost
      simp only [hlater, if_false, hskip, if_true, hhighest]
      rfl
    . rw [hexpected, hexpect, hcount, hrecv] at hskip
      rw [htotals, hsum]
      have hnone : ¬last.expected < now.expected ∨ last.lost now = 0 := by
        obtain ⟨a, hnow, hle⟩ := h.behind last rfl
        cases hnow
        rcases hle with rfl | hlt
        . unfold Arrivals.lost
          omega
        . omega
      omega
  . let totalLost := s.totalLost + (s.getExpectedPackets - s.expectRecv - ((s.recvCount : Int) - s.lastRecv))
    refine ⟨s.behindRr totalLost, totalLost, ?_, ?_, tracks_rr h.seen⟩
    . unfold getRtcpRr getPacketLost
      simp only [hlater, if_false, hskip, hhighest]
      rfl
    . simp only [totalLost]
      rw [hexpected, hexpect, hcount, hrecv] at hskip ⊢
      have hgrows : last.expected < now.expected := by omega
      simp only [hgrows, true_or, iff_true]
      rw [hsum]
      -- the number of expected packets is right modulo 2^32
      unfold Arrivals.expected Arrivals.lost rtpSeqMod at *
      omega

theorem toNat_emod_inj {a b : Int} : (a % 2 ^ 24).toNat = (b % 2 ^ 24).toNat ↔ a % 2 ^ 24 = b % 2 ^ 24 := by
  omega

theorem Tracks.reports_iff (steps : List RecvStep)
    : ∀ {s : RtcRecvStream} {first last now : Option Arrivals}, s.Tracks first last now →
        InOrder now steps →
        (s.reports steps = truths first now steps ↔ Accounted last now steps) := by
  induction steps with
  | nil =>
    intro s first last now _ _
    simp only [reports, truths, Accounted]
  | cons step steps ih =>
    intro s first last now h horder
    cases step with
    | packet index =>
      rw [reports, truths, Accounted]
      exact ih (h.packet horder) horder.right
    | rr =>
      rw [reports]
      cases now with
      | none =>
        obtain ⟨s', hrr, htracks, rfl, rfl⟩ := h.rr_none
        have hblock := getCumulativeLost_write 0 0
        change (RtcpRrBlock.mk (write3Bytes 0) 0).getCumulativeLost = 0 at hblock
        change _ = (0, 0) :: truths none none steps ↔ Accounted none none steps
        rw [hrr, ← ih htracks horder]
        simp only [hblock, List.cons.injEq, true_and]
      | some now =>
        cases last with
        | none =>
          obtain ⟨s', hrr, htracks, rfl⟩ := h.rr_first
          have hblock := getCumulativeLost_write 0 (now.highest % 2 ^ 32)
          change (RtcpRrBlock.mk (write3Bytes 0) _).getCumulativeLost = 0 at hblock
          have hzero : (now.lost now % 2 ^ 24).toNat = 0 := by
            unfold Arrivals.lost
            omega
          change _ = ((now.lost now % 2 ^ 24).toNat, now.highest % 2 ^ 32)
              :: truths (some now) (some now) steps
            ↔ Accounted (some now) (some now) steps
          rw [hrr, ← ih htracks horder]
          simp only [hblock, hzero, List.cons.injEq, true_and]
        | some last =>
          cases first with
          | none => exact h.totals.elim
          | some first =>
            obtain ⟨s', totalLost, hrr, hcounted, htracks⟩ := h.rr_later
            change _ = ((first.lost now % 2 ^ 24).toNat, now.highest % 2 ^ 32)
                :: truths (some first) (some now) steps
              ↔ (last.expected < now.expected ∨ last.lost now % 2 ^ 24 = 0)
                ∧ Accounted (some now) (some now) steps
            rw [hrr, ← hcounted]
            simp only [getCumulativeLost_write, List.cons.injEq, Prod.mk.injEq, and_true, toNat_emod_inj]
            apply and_congr_right
            intro htotal
            exact ih (htracks htotal) horder

/--
The calls report the skipped packets if and only if the losses between them are counted.
-/
theorem reports_truths_iff (steps : List RecvStep) (horder : InOrder none steps)
    : reports {} steps = truths none none steps ↔ Accounted none none steps :=
  Tracks.reports_iff steps tracks_start horder

theorem reports_truths_sample
    : reports {} [.rr, .packet 65530, .rr, .packet 65533, .rr]
        = truths none none [.rr, .packet 65530, .rr, .packet 65533, .rr] := by
  apply (reports_truths_iff _ ?_).mpr
  . refine ⟨Or.inl ?_, trivial⟩
    decide
  . refine ⟨by decide, ⟨by decide, by decide⟩, trivial⟩

/--
Two packets are lost across the first wrap, and none of them is reported.
-/
theorem not_reports_truths
    : let steps : List RecvStep := [.packet 65534, .rr, .packet 65537, .rr]
      InOrder none steps ∧ reports {} steps ≠ truths none none steps := by
  refine ⟨⟨by decide, ⟨by decide, by decide⟩, trivial⟩, ?_⟩
  decide

end Run

end RtcRecvStream
