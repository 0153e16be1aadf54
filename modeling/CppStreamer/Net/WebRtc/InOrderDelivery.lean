import CppStreamer.Basic.Resequence
import CppStreamer.Net.WebRtc.JitterBuffer

/-!
This module contains what `JitterBuffer` is for: packets that arrive in whatever order, some of them more than once, go
out in order and without a gap, as far as none of them is missing.
-/

open Resequence (Keeps)

namespace JitterBuffer

/--
A packet in the buffer is the one with its extended number, whenever it has been cloned.
-/
def IsPacket (packet : Nat → Option RtpPacket) (p : RtpPacketInfo) : Prop :=
  ∃ pkt, packet p.extendSeq = some pkt ∧ p.pkt = pkt.clone p.pkt.localMs

structure Outputs (packet : Nat → Option RtpPacket) (first next : Nat) (infos : List RtpPacketInfo) : Prop where
  numbers : infos.map (·.extendSeq) = List.range' first infos.length
  next_eq : first + infos.length = next
  packets : ∀ p ∈ infos, IsPacket packet p

/--
A number that is taken for what it is: less than 3000 ahead of the highest one before it and less than 100 behind, and
of its cycle.
-/
structure Near (highest n : Nat) : Prop where
  ahead : n < highest + maxDropout
  behind : highest < n + maxMisorder
  cycle : n / rtpSeqMod = max highest n / rtpSeqMod
  lt : max highest n < 2 ^ 32

structure Ordered (packet : Nat → Option RtpPacket) (first highest : Nat) (arrived : List Nat) (b : JitterBuffer)
    : Prop where
  initFlag : b.initFlag = true
  follows : b.toSeqState.Follows first highest
  keeps : Keeps first arrived (b.outputSeq + 1) (b.packetsMap.map (·.extendSeq))
  held : ∀ p ∈ b.packetsMap, IsPacket packet p

variable {packet : Nat → Option RtpPacket} {first next highest n : Nat} {arrived : List Nat} {b : JitterBuffer}
  {infos infos' map : List RtpPacketInfo} {pkt : RtpPacket} {info : RtpPacketInfo} {now localMs clockRate : Int}

theorem Outputs.nil (packet : Nat → Option RtpPacket) (first : Nat) : Outputs packet first first [] where
  numbers := rfl
  next_eq := rfl
  packets := by
    intro p hp
    cases hp

theorem Outputs.append (h : Outputs packet first n infos) (h' : Outputs packet n next infos')
    : Outputs packet first next (infos ++ infos') := by
  refine ⟨?_, ?_, ?_⟩
  . rw [List.map_append, h.numbers, h'.numbers, ← h.next_eq, List.range'_append_1, List.length_append]
  . rw [List.length_append, ← h'.next_eq, ← h.next_eq]
    omega
  . intro p hp
    rcases List.mem_append.mp hp with hp | hp
    . exact h.packets p hp
    . exact h'.packets p hp

section Loops

theorem outputContinued_eq (hsorted : map.Pairwise (·.extendSeq < ·.extendSeq))
    (habove : ∀ p ∈ map, b.outputSeq < p.extendSeq)
    : ∃ run rest, map = run ++ rest ∧ run.map (·.extendSeq) = List.range' (b.outputSeq + 1) run.length
        ∧ b.outputSeq + 1 + run.length ∉ rest.map (·.extendSeq)
        ∧ b.outputContinued map
          = ({ b with outputSeq := b.outputSeq + run.length, packetsMap := rest }, run.map .output) := by
  induction map generalizing b with
  | nil => exact ⟨[], [], rfl, rfl, List.not_mem_nil, rfl⟩
  | cons p map ih =>
    rw [List.pairwise_cons] at hsorted
    by_cases hnext : b.outputSeq + 1 = p.extendSeq
    . obtain ⟨run, rest, rfl, hrun, hstop, hcontinued⟩ := ih (b := (b.outputPacket p).1) hsorted.right hsorted.left
      have hseq : (b.outputPacket p).1.outputSeq = b.outputSeq + 1 := hnext.symm
      have hlen : b.outputSeq + (run.length + 1) = b.outputSeq + 1 + run.length := by omega
      rw [hseq] at hrun hstop hcontinued
      refine ⟨p :: run, rest, rfl, ?_, ?_, ?_⟩
      . rw [List.map_cons, List.length_cons, List.range'_succ, hrun, hnext]
      . rw [List.length_cons, show b.outputSeq + 1 + (run.length + 1) = b.outputSeq + 1 + 1 + run.length by omega]
        exact hstop
      . unfold outputContinued
        rw [if_pos hnext]
        simp only [hcontinued, List.length_cons, hlen]
        rfl
    . refine ⟨[], p :: map, rfl, rfl, ?_, ?_⟩
      . intro hmem
        obtain ⟨q, hq, heq⟩ := List.mem_map.mp hmem
        have hp := habove p List.mem_cons_self
        rcases List.mem_cons.mp hq with rfl | hq
        . exact hnext heq.symm
        . have hlt := hsorted.left q hq
          simp only [List.length_nil] at heq
          omega
      . unfold outputContinued
        rw [if_neg hnext]
        rfl

theorem numbers_insertPacket (hsorted : map.Pairwise (·.extendSeq < ·.extendSeq)) (m : Nat)
    : m ∈ (insertPacket info map).map (·.extendSeq) ↔ m = info.extendSeq ∨ m ∈ map.map (·.extendSeq) := by
  induction map with
  | nil =>
    rw [List.map_nil, insertPacket, List.takeWhile_nil, List.dropWhile_nil, List.nil_append, List.map_singleton,
      List.mem_singleton]
    exact (or_iff_left List.not_mem_nil).symm
  | cons p map ih =>
    rw [List.pairwise_cons] at hsorted
    rw [insertPacket_cons]
    split
    . rw [List.map_cons, List.mem_cons, ih hsorted.right, List.map_cons, List.mem_cons]
      exact or_left_comm
    . next hge =>
      by_cases heq : p.extendSeq ≤ info.extendSeq
      . -- the packet takes the place of one with its number
        have hsame : p.extendSeq = info.extendSeq := by omega
        have hkept : map.dropWhile (fun q => q.extendSeq ≤ info.extendSeq) = map := by
          cases map with
          | nil => rfl
          | cons q map =>
            have hlt := hsorted.left q List.mem_cons_self
            exact List.dropWhile_cons_of_neg (by rw [decide_eq_true_eq]; omega)
        rw [List.dropWhile_cons_of_pos (by rw [decide_eq_true_eq]; exact heq), hkept, List.map_cons, List.mem_cons, List.map_cons,
          List.mem_cons, hsame, or_self_left]
      . rw [List.dropWhile_cons_of_neg (by rw [decide_eq_true_eq]; exact heq), List.map_cons, List.mem_cons]

end Loops

variable (packet) in
theorem ordered_first (hinit : b.initFlag = false) (hmap : b.packetsMap = []) (hfirst : first < rtpSeqMod)
    (hpkt : packet first = some pkt) (hseq : pkt.seq = SeqState.ofIndex first)
    : ∃ infos, (b.inputRtpPacket clockRate (pkt.clone localMs) localMs now).2.filterMap JitterEvent.output? = infos
        ∧ Outputs packet first (first + 1) infos
        ∧ Ordered packet first first [first] (b.inputRtpPacket clockRate (pkt.clone localMs) localMs now).1
        ∧ (b.inputRtpPacket clockRate (pkt.clone localMs) localMs now).1.outputSeq = first
        ∧ (b.inputRtpPacket clockRate (pkt.clone localMs) localMs now).1.bufferTimeout = b.bufferTimeout := by
  have hnumber : (pkt.clone localMs).seq.toNat = first := by
    rw [show (pkt.clone localMs).seq = pkt.seq from rfl, hseq, SeqState.toNat_ofIndex, Nat.mod_eq_of_lt hfirst]
  unfold inputRtpPacket acceptPacket
  rw [hinit]
  simp only [Bool.false_eq_true, if_false]
  obtain ⟨ts, events, hlost, hevents⟩ := reportLost_eq
    { b with toSeqState := .initSeq (pkt.clone localMs).seq, initFlag := true } now
    ⟨b.mediaType, (pkt.clone localMs).clone localMs, (pkt.clone localMs).seq.toNat, clockRate⟩
  simp only [hlost, outputPacket, List.filterMap_append, hevents, List.nil_append]
  refine ⟨_, rfl, ?_, ?_, hnumber, trivial⟩
  . refine ⟨congrArg (fun m => [m]) hnumber, rfl, ?_⟩
    intro p hp
    rw [List.mem_singleton.mp hp]
    refine ⟨pkt, ?_, rfl⟩
    simp only [hnumber, hpkt]
  . refine ⟨rfl, ?_, ?_, ?_⟩
    . change (SeqState.initSeq pkt.seq).Follows first first
      rw [hseq]
      apply SeqState.follows_initSeq
    . change Keeps first [first] ((pkt.clone localMs).seq.toNat + 1) (b.packetsMap.map (·.extendSeq))
      rw [hnumber, hmap]
      apply Keeps.start
    . rw [hmap]
      intro p hp
      cases hp

namespace Ordered

theorem acceptPacket (h : Ordered packet first highest arrived b) (hfirst : first < rtpSeqMod)
    (hseq : pkt.seq = SeqState.ofIndex n) (hnear : Near highest n)
    : ∃ s, b.acceptPacket clockRate (pkt.clone localMs) localMs
          = ({ b with toSeqState := s }, some (⟨b.mediaType, pkt.clone localMs, n, clockRate⟩, false))
        ∧ s.Follows first (max highest n) := by
  obtain ⟨s, hupdate, hfollows⟩ := h.follows.updateSeq hnear.ahead hnear.behind
  have hzero : first / rtpSeqMod = 0 := Nat.div_eq_of_lt hfirst
  have hmod : first % rtpSeqMod = first := Nat.mod_eq_of_lt hfirst
  have hbehind : max highest n < n + maxMisorder := by
    have hlt := hnear.behind
    unfold maxMisorder at *
    omega
  have hextend : s.extendSeq (SeqState.ofIndex n) = n := by
    have hiff := hfollows.extendSeq_iff (Nat.le_max_right highest n) hbehind
    rw [hmod, Int.sub_self, Int.add_zero, Int.ofNat_inj] at hiff
    apply hiff.mpr
    have hlt := hnear.lt
    refine ⟨hnear.cycle, ?_⟩
    rw [hzero]
    unfold rtpSeqMod
    omega
  refine ⟨s, ?_, hfollows⟩
  unfold JitterBuffer.acceptPacket JitterBuffer.updateSeq
  rw [h.initFlag, show (pkt.clone localMs).seq = pkt.seq from rfl, hseq]
  simp only [hupdate, hextend, if_true]
  rfl

theorem sorted (h : Ordered packet first highest arrived b) : b.packetsMap.Pairwise (·.extendSeq < ·.extendSeq) :=
  List.pairwise_map.mp h.keeps.sorted

theorem above (h : Ordered packet first highest arrived b) : ∀ p ∈ b.packetsMap, b.outputSeq + 1 < p.extendSeq := by
  intro p hp
  exact h.keeps.lt (List.mem_map_of_mem hp)

/--
A step lemma: behind a packet that arrives in time, what goes out are the next packets without a gap.
-/
theorem input (h : Ordered packet first highest arrived b) (hfirst : first < rtpSeqMod) (hpkt : packet n = some pkt)
    (hseq : pkt.seq = SeqState.ofIndex n) (hnear : Near highest n) (hnow : now - localMs ≤ b.bufferTimeout)
    (htime : ∀ p ∈ b.packetsMap, b.timedOut now p = false)
    : ∃ infos, (b.inputRtpPacket clockRate (pkt.clone localMs) localMs now).2.filterMap JitterEvent.output? = infos
        ∧ Outputs packet (b.outputSeq + 1)
          ((b.inputRtpPacket clockRate (pkt.clone localMs) localMs now).1.outputSeq + 1) infos
        ∧ Ordered packet first (max highest n) (n :: arrived)
          (b.inputRtpPacket clockRate (pkt.clone localMs) localMs now).1
        ∧ (b.inputRtpPacket clockRate (pkt.clone localMs) localMs now).1.bufferTimeout = b.bufferTimeout := by
  obtain ⟨s, haccept, hfollows⟩ := h.acceptPacket hfirst hseq hnear
  have hinfo : IsPacket packet ⟨b.mediaType, pkt.clone localMs, n, clockRate⟩ := ⟨pkt, hpkt, rfl⟩
  unfold inputRtpPacket
  rw [haccept]
  simp only
  by_cases hnext : b.outputSeq + 1 = n
  . rw [if_pos hnext]
    simp only [outputPacket]
    have habove : ∀ p ∈ b.packetsMap, n < p.extendSeq := by
      rw [← hnext]
      exact h.above
    obtain ⟨run, rest, hmap, hrun, hstop, hcontinued⟩ := outputContinued_eq
      (b := { b with toSeqState := s, outputSeq := n }) h.sorted habove
    simp only at hrun hstop hcontinued
    rw [hcontinued]
    refine ⟨⟨b.mediaType, pkt.clone localMs, n, clockRate⟩ :: run, ?_, ?_, ?_, rfl⟩
    . simp only [List.cons_append, List.nil_append, List.filterMap_cons, JitterEvent.output?, List.filterMap_map]
      congr 1
      apply List.filterMap_some
    . refine ⟨?_, ?_, ?_⟩
      . rw [List.map_cons, hrun, List.length_cons, List.range'_succ, hnext]
      . rw [List.length_cons, hnext]
        change n + (run.length + 1) = n + run.length + 1
        omega
      . intro p hp
        rcases List.mem_cons.mp hp with rfl | hp
        . exact hinfo
        . apply h.held p
          rw [hmap]
          exact List.mem_append_left _ hp
    . refine ⟨h.initFlag, hfollows, ?_, ?_⟩
      . have hkeeps := h.keeps
        rw [hmap, List.map_append, hnext] at hkeeps
        have hrelease := hkeeps.release (by rw [List.length_map]; exact hrun) (by rw [List.length_map]; exact hstop)
        rw [List.length_map] at hrelease
        rw [show n + run.length + 1 = n + 1 + run.length by omega]
        exact hrelease
      . intro p hp
        apply h.held p
        rw [hmap]
        exact List.mem_append_right _ hp
  . rw [if_neg hnext]
    by_cases hold : n ≤ b.outputSeq
    . rw [if_pos hold]
      refine ⟨[], rfl, .nil packet _, ⟨h.initFlag, hfollows, ?_, h.held⟩, rfl⟩
      exact h.keeps.old (by omega)
    . rw [if_neg hold]
      have hgt : b.outputSeq + 1 < n := by omega
      have hlate : ∀ p ∈ insertPacket ⟨b.mediaType, pkt.clone localMs, n, clockRate⟩ b.packetsMap,
          timedOut { b with
            toSeqState := s
            packetsMap := insertPacket ⟨b.mediaType, pkt.clone localMs, n, clockRate⟩ b.packetsMap } now p = false := by
        intro p hp
        rcases mem_insertPacket hp with rfl | hp
        . exact decide_eq_false (Int.not_lt.mpr hnow)
        . exact htime p hp
      have hkept : ∀ p ∈ insertPacket ⟨b.mediaType, pkt.clone localMs, n, clockRate⟩ b.packetsMap,
          b.outputSeq + 1 ≠ p.extendSeq := by
        intro p hp
        rcases mem_insertPacket hp with rfl | hp
        . exact hnext
        . exact Nat.ne_of_lt (h.above p hp)
      unfold checkTimeout
      rw [checkTimeoutLoop_of_kept hlate hkept]
      refine ⟨[], rfl, .nil packet _, ⟨h.initFlag, hfollows, ?_, ?_⟩, rfl⟩
      . apply h.keeps.hold hgt
        . exact List.pairwise_map.mpr (sorted_insertPacket h.sorted)
        . exact numbers_insertPacket h.sorted
      . intro p hp
        rcases mem_insertPacket hp with rfl | hp
        . exact hinfo
        . exact h.held p hp

theorem onTimer (h : Ordered packet first highest arrived b) (htime : ∀ p ∈ b.packetsMap, b.timedOut now p = false)
    : b.onTimer now = (b, []) :=
  checkTimeoutLoop_of_kept htime fun p hp => Nat.ne_of_lt (h.above p hp)

end Ordered

section Runs

inductive Arrival where
  | packet (n : Nat) (localMs now : Int)
  | timer (now : Int)
  deriving DecidableEq, Repr

namespace Arrival

def number? : Arrival → Option Nat
  | .packet n _ _ => some n
  | .timer _ => none

def raise (highest : Nat) : Arrival → Nat
  | .packet n _ _ => max highest n
  | .timer _ => highest

end Arrival

/--
A packet comes with a number that is taken for what it is, and no packet has waited for too long.
-/
def InTime (highest : Nat) (b : JitterBuffer) : Arrival → Prop
  | .packet n localMs now =>
    Near highest n ∧ now - localMs ≤ b.bufferTimeout ∧ ∀ p ∈ b.packetsMap, b.timedOut now p = false
  | .timer now => ∀ p ∈ b.packetsMap, b.timedOut now p = false

variable (packet : Nat → RtpPacket) (clockRate : Int)

def arrive (b : JitterBuffer) : Arrival → JitterBuffer × List JitterEvent
  | .packet n localMs now => b.inputRtpPacket clockRate ((packet n).clone localMs) localMs now
  | .timer now => b.onTimer now

def arrivals (b : JitterBuffer) : List Arrival → JitterBuffer × List JitterEvent
  | [] => (b, [])
  | arrival :: rest =>
    let (b, events) := b.arrive packet clockRate arrival
    let (b, behind) := b.arrivals rest
    (b, events ++ behind)

def Timely (highest : Nat) (b : JitterBuffer) : List Arrival → Prop
  | [] => True
  | arrival :: rest =>
    b.InTime highest arrival ∧ (b.arrive packet clockRate arrival).1.Timely (arrival.raise highest) rest

instance (highest n : Nat) : Decidable (Near highest n) :=
  decidable_of_iff (n < highest + maxDropout ∧ highest < n + maxMisorder ∧ n / rtpSeqMod = max highest n / rtpSeqMod
      ∧ max highest n < 2 ^ 32)
    ⟨fun h => ⟨h.1, h.2.1, h.2.2.1, h.2.2.2⟩, fun h => ⟨h.ahead, h.behind, h.cycle, h.lt⟩⟩

instance (highest : Nat) (b : JitterBuffer) : (arrival : Arrival) → Decidable (b.InTime highest arrival)
  | .packet n localMs now => inferInstanceAs (Decidable (Near highest n ∧ now - localMs ≤ b.bufferTimeout
      ∧ ∀ p ∈ b.packetsMap, b.timedOut now p = false))
  | .timer now => inferInstanceAs (Decidable (∀ p ∈ b.packetsMap, b.timedOut now p = false))

instance decidableTimely (highest : Nat) (b : JitterBuffer)
    : (rest : List Arrival) → Decidable (b.Timely packet clockRate highest rest)
  | [] => inferInstanceAs (Decidable True)
  | arrival :: rest =>
    have := decidableTimely (arrival.raise highest) (b.arrive packet clockRate arrival).1 rest
    inferInstanceAs (Decidable (b.InTime highest arrival
      ∧ (b.arrive packet clockRate arrival).1.Timely packet clockRate (arrival.raise highest) rest))

variable {packet : Nat → RtpPacket} {clockRate : Int}

/--
A run lemma: what has gone out behind any arrivals is a range of packets without a gap.
-/
theorem Ordered.arrivals {rest : List Arrival} (hseq : ∀ n, (packet n).seq = SeqState.ofIndex n)
    (hfirst : first < rtpSeqMod) (h : Ordered (fun n => some (packet n)) first highest arrived b)
    (htimely : b.Timely packet clockRate highest rest)
    : ∃ highest', Ordered (fun n => some (packet n)) first highest'
          ((rest.filterMap Arrival.number?).reverse ++ arrived) (b.arrivals packet clockRate rest).1
        ∧ Outputs (fun n => some (packet n)) (b.outputSeq + 1) ((b.arrivals packet clockRate rest).1.outputSeq + 1)
          ((b.arrivals packet clockRate rest).2.filterMap JitterEvent.output?) := by
  induction rest generalizing b highest arrived with
  | nil => exact ⟨highest, h, .nil _ _⟩
  | cons arrival rest ih =>
    obtain ⟨hnow, htimely⟩ := htimely
    unfold JitterBuffer.arrivals
    simp only [List.filterMap_append]
    cases arrival with
    | packet n localMs now =>
      obtain ⟨hnear, hrecent, htime⟩ := hnow
      obtain ⟨infos, hinfos, houtputs, hordered, _⟩ := h.input hfirst rfl (hseq n) hnear
        hrecent htime
      obtain ⟨highest', hrest, hbehind⟩ := ih hordered htimely
      refine ⟨highest', ?_, ?_⟩
      . rw [List.filterMap_cons_some (by rfl), List.reverse_cons, List.append_assoc]
        exact hrest
      . rw [← hinfos] at houtputs
        exact houtputs.append hbehind
    | timer now =>
      have hsame : b.arrive packet clockRate (.timer now) = (b, []) := h.onTimer hnow
      rw [hsame] at htimely ⊢
      obtain ⟨highest', hrest, hbehind⟩ := ih h htimely
      exact ⟨highest', hrest, hbehind⟩

theorem Outputs.contents {infos : List RtpPacketInfo} (h : Outputs (fun n => some (packet n)) first next infos)
    : infos.map (fun p => (p.extendSeq, p.pkt.clone 0))
        = (List.range' first (next - first)).map fun n => (n, (packet n).clone 0) := by
  have hnumbers := h.numbers
  have hcontent : ∀ p ∈ infos, p.pkt.clone 0 = (packet p.extendSeq).clone 0 := by
    intro p hp
    obtain ⟨pkt, hpkt, hclone⟩ := h.packets p hp
    cases hpkt
    rw [hclone]
    rfl
  rw [← h.next_eq, Nat.add_sub_cancel_left, ← hnumbers, List.map_map]
  apply List.map_congr_left
  intro p hp
  simp only [Function.comp_def, hcontent p hp]

/--
As long as no packet waits for too long, what has gone out is all that has arrived up to the first packet that is
missing: in order, without a gap, and each packet once, however the packets have been put out of order and doubled.
-/
theorem arrivals_contiguous {mediaType : MediaPktType} {start : JitterBuffer} (hnew : new mediaType = some start)
    (hseq : ∀ n, (packet n).seq = SeqState.ofIndex n) (hfirst : first < rtpSeqMod) (localMs now : Int)
    (rest : List Arrival)
    (htimely : (start.arrive packet clockRate (.packet first localMs now)).1.Timely packet clockRate first rest)
    : ((start.arrivals packet clockRate (.packet first localMs now :: rest)).2.filterMap JitterEvent.output?).map
          (fun p => (p.extendSeq, p.pkt.clone 0))
        = (List.range' first (Resequence.frontier first (first :: rest.filterMap Arrival.number?) - first)).map
          fun n => (n, (packet n).clone 0) := by
  have hfresh : start.initFlag = false ∧ start.packetsMap = [] := by
    unfold new at hnew
    split at hnew
    all_goals cases hnew
    all_goals exact ⟨rfl, rfl⟩
  obtain ⟨infos, hinfos, houtputs, hordered, hout, _⟩ := ordered_first (fun n => some (packet n)) hfresh.left
    hfresh.right hfirst rfl (hseq first)
  obtain ⟨highest, hrest, hbehind⟩ := hordered.arrivals hseq hfirst htimely
  rw [hout, ← hinfos] at *
  have hall := houtputs.append hbehind
  have hnext := hrest.keeps.next_eq
  rw [Resequence.frontier_congr] at hnext
  . unfold JitterBuffer.arrivals
    simp only [List.filterMap_append]
    rw [← hnext]
    exact hall.contents
  . intro n
    simp only [List.mem_append, List.mem_reverse, List.mem_cons, List.not_mem_nil, or_false]
    exact Or.comm

def numberedSample (n : Nat) : RtpPacket := samplePacket (SeqState.ofIndex n)

def arrivalsSample : List Arrival :=
  [.packet 12 5 5, .packet 12 6 6, .packet 14 9 9, .timer 100, .packet 11 210 210, .packet 13 220 220]

theorem arrivals_contiguous_sample
    : ((sampleVideo.arrivals numberedSample 90000 (.packet 10 0 0 :: arrivalsSample)).2.filterMap
          JitterEvent.output?).map (fun p => (p.extendSeq, p.pkt.clone 0))
        = (List.range' 10 (Resequence.frontier 10 (10 :: arrivalsSample.filterMap Arrival.number?) - 10)).map
          fun n => (n, (numberedSample n).clone 0) :=
  arrivals_contiguous (show JitterBuffer.new .video = some sampleVideo from rfl) (fun _ => rfl) (by decide) 0 0 arrivalsSample (by decide)

end Runs

end JitterBuffer
