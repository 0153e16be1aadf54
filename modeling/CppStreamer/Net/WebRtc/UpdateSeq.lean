import CppStreamer.Net.RtpRtcp.RtpPacket

/-!
This module contains the sequence number part of `JitterBuffer`, and when the numbers it extends are
the true ones up to a constant.
-/

def maxDropout : Nat := 3000

def maxMisorder : Nat := 100

/--
`maxSeq` is a `uint16_t`, `badSeq` and `cycles` are `uint32_t`.
-/
structure SeqState where
  maxSeq : Nat := 0
  badSeq : Nat := rtpSeqMod + 1
  cycles : Nat := 0
  deriving DecidableEq, Repr

namespace SeqState

def initSeq (seq : UInt16) : SeqState where
  maxSeq := seq.toNat
  badSeq := rtpSeqMod + 1
  cycles := 0

def extendSeq (s : SeqState) (seq : UInt16) : Nat := (s.cycles + seq.toNat) % 2 ^ 32

/--
The extended sequence number and whether there was a reset, `none` for a bad packet.
-/
def updateSeq (s : SeqState) (seq : UInt16) : SeqState × Option (Nat × Bool) :=
  let udelta := (seq.toNat + rtpSeqMod - s.maxSeq) % rtpSeqMod
  if udelta < maxDropout then
    let cycles := if seq.toNat < s.maxSeq then (s.cycles + rtpSeqMod) % 2 ^ 32 else s.cycles
    let s := { s with cycles := cycles, maxSeq := seq.toNat }
    (s, some (s.extendSeq seq, false))
  else if udelta ≤ rtpSeqMod - maxMisorder then
    if seq.toNat = s.badSeq then
      let s := initSeq seq
      (s, some (s.extendSeq seq, true))
    else
      ({ s with badSeq := (seq.toNat + 1) % rtpSeqMod }, none)
  else
    (s, some (s.extendSeq seq, false))

/--
The extended sequence numbers of packets one after the other.
-/
def extendSeqs (s : SeqState) : List UInt16 → List (Option Nat)
  | [] => []
  | seq :: seqs =>
    let (s', res) := s.updateSeq seq
    res.map Prod.fst :: s'.extendSeqs seqs

/--
Each packet is less than 3000 ahead of the highest index before it and less than 100 behind.
-/
def InWindow (highest : Nat) : List Nat → Prop
  | [] => True
  | n :: ns => n < highest + maxDropout ∧ highest < n + maxMisorder ∧ InWindow (max highest n) ns

/--
No packet arrives behind the first one of a later cycle, and the cycles fit in 16 bits.
-/
def InCycle (first highest : Nat) : List Nat → Prop
  | [] => True
  | n :: ns =>
    n / rtpSeqMod = max highest n / rtpSeqMod
      ∧ max highest n / rtpSeqMod < first / rtpSeqMod + 2 ^ 16
      ∧ InCycle first (max highest n) ns

def ofIndex (n : Nat) : UInt16 := UInt16.ofNat n

/--
The state behind packets with a given first and highest index.
-/
structure Follows (s : SeqState) (first highest : Nat) : Prop where
  le : first ≤ highest
  maxSeq : s.maxSeq = highest % rtpSeqMod
  cycles : s.cycles = (highest / rtpSeqMod - first / rtpSeqMod) * rtpSeqMod % 2 ^ 32

theorem toNat_ofIndex (n : Nat) : (ofIndex n).toNat = n % rtpSeqMod := by
  unfold ofIndex
  simp [rtpSeqMod]

theorem follows_initSeq (first : Nat) : (initSeq (ofIndex first)).Follows first first := by
  constructor
  . apply Nat.le_refl
  . apply toNat_ofIndex
  . simp [initSeq]

theorem updateSeq_of_lt {s : SeqState} {seq : UInt16}
    (h : (seq.toNat + rtpSeqMod - s.maxSeq) % rtpSeqMod < maxDropout)
    : ∃ s', s.updateSeq seq = (s', some (s'.extendSeq seq, false)) ∧ s'.maxSeq = seq.toNat
      ∧ s'.cycles
        = if seq.toNat < s.maxSeq then (s.cycles + rtpSeqMod) % 2 ^ 32 else s.cycles := by
  unfold updateSeq
  rw [if_pos h]
  exact ⟨_, rfl, rfl, rfl⟩

theorem updateSeq_of_gt {s : SeqState} {seq : UInt16}
    (h : rtpSeqMod - maxMisorder < (seq.toNat + rtpSeqMod - s.maxSeq) % rtpSeqMod)
    : s.updateSeq seq = (s, some (s.extendSeq seq, false)) := by
  have hlt : maxDropout < rtpSeqMod - maxMisorder := by decide
  unfold updateSeq
  rw [if_neg (by omega), if_neg (by omega)]

theorem Follows.updateSeq {s : SeqState} {first highest n : Nat} (h : s.Follows first highest)
    (hahead : n < highest + maxDropout) (hbehind : highest < n + maxMisorder)
    : ∃ s', s.updateSeq (ofIndex n) = (s', some (s'.extendSeq (ofIndex n), false))
      ∧ s'.Follows first (max highest n) := by
  have hle := h.le
  have hmax := h.maxSeq
  have hcycles := h.cycles
  have hseq := toNat_ofIndex n
  unfold maxDropout at hahead
  unfold maxMisorder at hbehind
  unfold rtpSeqMod at hmax hcycles hseq
  by_cases hnew : highest ≤ n
  . have hudelta : ((ofIndex n).toNat + rtpSeqMod - s.maxSeq) % rtpSeqMod < maxDropout := by
      unfold rtpSeqMod maxDropout
      omega
    rcases updateSeq_of_lt hudelta with ⟨s', hupdate, hmax', hcycles'⟩
    refine ⟨s', hupdate, ?_⟩
    rw [Nat.max_eq_right hnew]
    constructor
    . omega
    . rw [hmax', toNat_ofIndex]
    . -- the number has wrapped around if and only if there is a new cycle
      rw [hcycles', hseq, hmax, hcycles]
      clear hcycles' hmax' hupdate hudelta hcycles hmax hseq
      unfold rtpSeqMod
      split
      next => omega
      next => omega
  . have hudelta : rtpSeqMod - maxMisorder
        < ((ofIndex n).toNat + rtpSeqMod - s.maxSeq) % rtpSeqMod := by
      unfold rtpSeqMod maxMisorder
      omega
    refine ⟨s, updateSeq_of_gt hudelta, ?_⟩
    rw [Nat.max_eq_left (by omega)]
    exact h

theorem Follows.extendSeq_iff {s : SeqState} {first highest n : Nat} (h : s.Follows first highest)
    (hle : n ≤ highest) (hbehind : highest < n + maxMisorder)
    : (s.extendSeq (ofIndex n) : Int) = n + ((first % rtpSeqMod : Nat) - first : Int)
      ↔ n / rtpSeqMod = highest / rtpSeqMod
        ∧ highest / rtpSeqMod < first / rtpSeqMod + 2 ^ 16 := by
  have hfirst := h.le
  have hcycles := h.cycles
  have hseq := toNat_ofIndex n
  unfold extendSeq
  unfold maxMisorder at hbehind
  unfold rtpSeqMod at *
  rw [hseq, hcycles]
  omega

theorem Follows.extendSeqs_iff {s : SeqState} {first highest : Nat} {ns : List Nat}
    (h : s.Follows first highest) (hwindow : InWindow highest ns)
    : ((s.extendSeqs (ns.map ofIndex)).map (Option.map Int.ofNat)
        = ns.map fun n => some (n + ((first % rtpSeqMod : Nat) - first : Int)))
      ↔ InCycle first highest ns := by
  induction ns generalizing s highest with
  | nil =>
    unfold InCycle
    simp [extendSeqs]
  | cons n ns ih =>
    rcases hwindow with ⟨hahead, hbehind, hwindow⟩
    rcases h.updateSeq hahead hbehind with ⟨s', hupdate, hfollows⟩
    have hiff := hfollows.extendSeq_iff (n := n) (by omega) (by unfold maxMisorder at *; omega)
    unfold InCycle
    rw [← ih hfollows hwindow, ← and_assoc, ← hiff]
    simp [extendSeqs, hupdate]

/--
The extended numbers are the true indices up to a constant if and only if no packet arrives late across
a wrap and the cycles since the first packet fit in the counter.
-/
theorem extendSeqs_stable_iff (first : Nat) (ns : List Nat) (hwindow : InWindow first ns)
    : (∃ c : Int, ((ofIndex first).toNat : Int) = first + c
        ∧ ((initSeq (ofIndex first)).extendSeqs (ns.map ofIndex)).map (Option.map Int.ofNat)
          = ns.map fun n => some (n + c))
      ↔ InCycle first first ns := by
  rw [← (follows_initSeq first).extendSeqs_iff hwindow, toNat_ofIndex]
  constructor
  . rintro ⟨c, hfirst, hall⟩
    have hc : c = ((first % rtpSeqMod : Nat) - first : Int) := by omega
    rw [← hc]
    exact hall
  . intro hall
    refine ⟨((first % rtpSeqMod : Nat) - first : Int), by omega, hall⟩

theorem extendSeqs_stable_sample
    : ∃ c : Int, ((ofIndex 65534).toNat : Int) = 65534 + c
      ∧ ((initSeq (ofIndex 65534)).extendSeqs ([65536, 65538, 65537].map ofIndex)).map
          (Option.map Int.ofNat)
        = [65536, 65538, 65537].map fun n => some ((n : Nat) + c) := by
  apply (extendSeqs_stable_iff 65534 [65536, 65538, 65537] ?_).mpr ?_
  . simp [InWindow, maxDropout, maxMisorder]
  . simp [InCycle, rtpSeqMod]

/--
A packet from before the wrap that arrives behind it is counted in the new cycle.
-/
theorem extendSeqs_late
    : InWindow 65534 [65536, 65535]
      ∧ (initSeq (ofIndex 65534)).extendSeqs ([65536, 65535].map ofIndex) = [some 65536, some 131071]
      ∧ ¬∃ c : Int, ((ofIndex 65534).toNat : Int) = 65534 + c
        ∧ ((initSeq (ofIndex 65534)).extendSeqs ([65536, 65535].map ofIndex)).map
            (Option.map Int.ofNat)
          = [65536, 65535].map fun n => some ((n : Nat) + c) := by
  have hseqs : (initSeq (ofIndex 65534)).extendSeqs ([65536, 65535].map ofIndex)
      = [some 65536, some 131071] := by decide
  refine ⟨?_, hseqs, ?_⟩
  . simp [InWindow, maxDropout, maxMisorder]
  . rintro ⟨c, hfirst, hall⟩
    rw [hseqs] at hall
    simp only [List.map_cons, List.map_nil, Option.map_some, List.cons.injEq, Option.some.injEq]
      at hall
    rw [toNat_ofIndex] at hfirst
    simp [rtpSeqMod] at hfirst hall
    omega

end SeqState
