import CppStreamer.Basic.Interleave
import CppStreamer.Net.WebRtc.UpdateSeq
import Mathlib.Data.List.Perm.Subperm

/-!
This module contains the model of `JitterBuffer`, and the order in which it emits packets.
-/

def jitterBufferAudioTimeout : Int := 100

def jitterBufferVideoTimeout : Int := 400

/--
The calls of `RtpPacketOutput` and `RtpPacketReset`.
-/
inductive JitterEvent where
  | output (pkt : RtpPacketInfo)
  | reset (pkt : RtpPacketInfo)
  deriving DecidableEq, Repr

def JitterEvent.output? : JitterEvent → Option RtpPacketInfo
  | .output pkt => some pkt
  | .reset _ => none

/--
`packetsMap` lists the packets of the map in the order of their keys, which are their extended numbers.
-/
structure JitterBuffer extends SeqState where
  mediaType : MediaPktType
  bufferTimeout : Int
  initFlag : Bool := false
  packetsMap : List RtpPacketInfo := []
  outputSeq : Nat := 0
  reportLostTs : Int := -1
  deriving DecidableEq, Repr

namespace JitterBuffer

/--
The constructor throws for other media types.
-/
def new (mediaType : MediaPktType) : Option JitterBuffer :=
  match mediaType with
  | .video => some { mediaType, bufferTimeout := jitterBufferVideoTimeout }
  | .audio => some { mediaType, bufferTimeout := jitterBufferAudioTimeout }
  | _ => none

def insertPacket (pkt : RtpPacketInfo) (map : List RtpPacketInfo) : List RtpPacketInfo :=
  map.takeWhile (fun p => p.extendSeq < pkt.extendSeq)
    ++ pkt :: map.dropWhile (fun p => p.extendSeq ≤ pkt.extendSeq)

def reportLost (b : JitterBuffer) (now : Int) (pkt : RtpPacketInfo)
    : JitterBuffer × List JitterEvent :=
  if 500 < now - b.reportLostTs then ({ b with reportLostTs := now }, [.reset pkt]) else (b, [])

def outputPacket (b : JitterBuffer) (pkt : RtpPacketInfo) : JitterBuffer × List JitterEvent :=
  ({ b with outputSeq := pkt.extendSeq }, [.output pkt])

def timedOut (b : JitterBuffer) (now : Int) (pkt : RtpPacketInfo) : Bool :=
  b.bufferTimeout < now - pkt.pkt.localMs

/--
The loop of `CheckTimeout` over the rest of the map.
-/
def checkTimeoutLoop (now : Int) (b : JitterBuffer) : List RtpPacketInfo →
    JitterBuffer × List JitterEvent
  | [] => ({ b with packetsMap := [] }, [])
  | pkt :: pkts =>
    if b.timedOut now pkt then
      let (b, output) := b.outputPacket pkt
      let (b, lost) := b.reportLost now pkt
      let (b, events) := b.checkTimeoutLoop now pkts
      (b, output ++ lost ++ events)
    else if b.outputSeq + 1 = pkt.extendSeq then
      let (b, output) := b.outputPacket pkt
      let (b, events) := b.checkTimeoutLoop now pkts
      (b, output ++ events)
    else
      let (b, events) := b.checkTimeoutLoop now pkts
      ({ b with packetsMap := pkt :: b.packetsMap }, events)

def checkTimeout (b : JitterBuffer) (now : Int) : JitterBuffer × List JitterEvent :=
  b.checkTimeoutLoop now b.packetsMap

def onTimer (b : JitterBuffer) (now : Int) : JitterBuffer × List JitterEvent := b.checkTimeout now

/--
The loop behind a packet that was output directly.
-/
def outputContinued (b : JitterBuffer) : List RtpPacketInfo → JitterBuffer × List JitterEvent
  | [] => ({ b with packetsMap := [] }, [])
  | pkt :: pkts =>
    if b.outputSeq + 1 = pkt.extendSeq then
      let (b, output) := b.outputPacket pkt
      let (b, events) := b.outputContinued pkts
      (b, output ++ events)
    else
      ({ b with packetsMap := pkt :: pkts }, [])

def updateSeq (b : JitterBuffer) (seq : UInt16) : JitterBuffer × Option (Nat × Bool) :=
  let (s, res) := b.toSeqState.updateSeq seq
  ({ b with toSeqState := s }, res)

/--
`InputRtpPacket` up to the creation of the `RtpPacketInfo`, which clones the packet at `localMs`. The
flag says that the packet is the first one or that `UpdateSeq` has set `reset`.
-/
def acceptPacket (b : JitterBuffer) (clockRate : Int) (pkt : RtpPacket) (localMs : Int)
    : JitterBuffer × Option (RtpPacketInfo × Bool) :=
  let info (extendSeq : Nat) : RtpPacketInfo := ⟨b.mediaType, pkt.clone localMs, extendSeq, clockRate⟩
  if b.initFlag then
    match b.updateSeq pkt.seq with
    | (b, none) => (b, none)
    | (b, some (extendSeq, reset)) =>
      (if reset then { b with initFlag := false } else b, some (info extendSeq, reset))
  else
    ({ b with toSeqState := .initSeq pkt.seq, initFlag := true }, some (info pkt.seq.toNat, true))

def inputRtpPacket (b : JitterBuffer) (clockRate : Int) (pkt : RtpPacket) (localMs now : Int)
    : JitterBuffer × List JitterEvent :=
  match b.acceptPacket clockRate pkt localMs with
  | (b, none) => (b, [])
  | (b, some (info, true)) =>
    let (b, lost) := b.reportLost now info
    let (b, output) := b.outputPacket info
    (b, lost ++ output)
  | (b, some (info, false)) =>
    if b.outputSeq + 1 = info.extendSeq then
      let (b, output) := b.outputPacket info
      let (b, events) := b.outputContinued b.packetsMap
      (b, output ++ events)
    else if info.extendSeq ≤ b.outputSeq then (b, [])
    else { b with packetsMap := insertPacket info b.packetsMap }.checkTimeout now

inductive Call where
  | input (clockRate : Int) (pkt : RtpPacket) (localMs now : Int)
  | timer (now : Int)

/--
The buffer with the packets it has accepted and emitted, and the extended numbers emitted since the
last reset.
-/
structure History where
  buffer : JitterBuffer
  accepted : List RtpPacketInfo := []
  outputs : List RtpPacketInfo := []
  period : List Nat := []

def History.emit (s : History) (res : JitterBuffer × List JitterEvent) : History :=
  let out := res.2.filterMap JitterEvent.output?
  { s with
    buffer := res.1
    outputs := s.outputs ++ out
    period := s.period ++ out.map RtpPacketInfo.extendSeq }

/--
An accepted packet, with which a new period begins if it is a reset.
-/
def History.accept (s : History) (info : RtpPacketInfo) (reset : Bool) : History :=
  { s with
    accepted := s.accepted ++ [info]
    period := if reset then [] else s.period }

def History.next (s : History) : Call → History
  | .input clockRate pkt localMs now =>
    let s' := match (s.buffer.acceptPacket clockRate pkt localMs).2 with
      | none => s
      | some (info, reset) => s.accept info reset
    s'.emit (s.buffer.inputRtpPacket clockRate pkt localMs now)
  | .timer now => s.emit (s.buffer.onTimer now)

/--
Every packet in front of one that has timed out goes out before it: it has timed out as well, or it
follows the output or a packet of the map directly.
-/
def TimeoutInOrder (b : JitterBuffer) (now : Int) (map : List RtpPacketInfo) : Prop :=
  ∀ late ∈ map, b.timedOut now late = true → ∀ p ∈ map, p.extendSeq < late.extendSeq →
    b.timedOut now p = true ∨ p.extendSeq = b.outputSeq + 1 ∨ ∃ q ∈ map, q.extendSeq + 1 = p.extendSeq

/--
The accepted packets that keep the order: behind a reset no packet of the old numbers is left, a packet
that goes out directly is not in the map, and behind one that is stored timeouts are in order.
-/
def CanOutput (b : JitterBuffer) (now : Int) : Option (RtpPacketInfo × Bool) → Prop
  | none => True
  | some (info, true) => ∀ p ∈ b.packetsMap, info.extendSeq < p.extendSeq
  | some (info, false) =>
    if b.outputSeq + 1 = info.extendSeq then ∀ p ∈ b.packetsMap, p.extendSeq ≠ info.extendSeq
    else b.outputSeq < info.extendSeq → b.TimeoutInOrder now (insertPacket info b.packetsMap)

def Can (b : JitterBuffer) : Call → Prop
  | .input clockRate pkt localMs now => b.CanOutput now (b.acceptPacket clockRate pkt localMs).2
  | .timer now => b.TimeoutInOrder now b.packetsMap

instance (b : JitterBuffer) (now : Int) (map : List RtpPacketInfo)
    : Decidable (b.TimeoutInOrder now map) :=
  inferInstanceAs (Decidable (∀ late ∈ map, b.timedOut now late = true → ∀ p ∈ map,
    p.extendSeq < late.extendSeq → b.timedOut now p = true ∨ p.extendSeq = b.outputSeq + 1
      ∨ ∃ q ∈ map, q.extendSeq + 1 = p.extendSeq))

instance (b : JitterBuffer) (now : Int) : (res : Option (RtpPacketInfo × Bool)) →
    Decidable (b.CanOutput now res)
  | none => inferInstanceAs (Decidable True)
  | some (info, true) => inferInstanceAs (Decidable (∀ p ∈ b.packetsMap, info.extendSeq < p.extendSeq))
  | some (info, false) =>
    inferInstanceAs (Decidable (if b.outputSeq + 1 = info.extendSeq
      then ∀ p ∈ b.packetsMap, p.extendSeq ≠ info.extendSeq
      else b.outputSeq < info.extendSeq → b.TimeoutInOrder now (insertPacket info b.packetsMap)))

instance (b : JitterBuffer) : (call : Call) → Decidable (b.Can call)
  | .input clockRate pkt localMs now =>
    inferInstanceAs (Decidable (b.CanOutput now (b.acceptPacket clockRate pkt localMs).2))
  | .timer now => inferInstanceAs (Decidable (b.TimeoutInOrder now b.packetsMap))

def History.Step (s : History) (call : Call) (s' : History) : Prop :=
  s.buffer.Can call ∧ s' = s.next call

/--
The packets emitted are the first ones of the map, the others stay.
-/
structure Emits (outputSeq : Nat) (map : List RtpPacketInfo)
    (res : JitterBuffer × List JitterEvent) : Prop where
  map : map = res.2.filterMap JitterEvent.output? ++ res.1.packetsMap
  outputSeq : res.1.outputSeq
    = (res.2.filterMap JitterEvent.output?).foldl (fun _ p => p.extendSeq) outputSeq

section Loops

variable {b : JitterBuffer} {now : Int} {pkt : RtpPacketInfo} {map : List RtpPacketInfo}

theorem reportLost_eq (b : JitterBuffer) (now : Int) (pkt : RtpPacketInfo)
    : ∃ ts events, b.reportLost now pkt = ({ b with reportLostTs := ts }, events)
      ∧ events.filterMap JitterEvent.output? = [] := by
  unfold reportLost
  split
  next => exact ⟨_, _, rfl, rfl⟩
  next => exact ⟨b.reportLostTs, _, rfl, rfl⟩

theorem Emits.cons {outputSeq : Nat} {events : List JitterEvent}
    {res : JitterBuffer × List JitterEvent} (h : Emits pkt.extendSeq map res)
    (hevents : events.filterMap JitterEvent.output? = [pkt])
    : Emits outputSeq (pkt :: map) (res.1, events ++ res.2) := by
  constructor
  . rw [List.filterMap_append, hevents, List.append_assoc, ← h.map]
    rfl
  . rw [List.filterMap_append, hevents, h.outputSeq]
    rfl

theorem checkTimeoutLoop_of_kept (hlate : ∀ p ∈ map, b.timedOut now p = false)
    (habove : ∀ p ∈ map, b.outputSeq + 1 ≠ p.extendSeq)
    : b.checkTimeoutLoop now map = ({ b with packetsMap := map }, []) := by
  induction map with
  | nil => rfl
  | cons p map ih =>
    have hp := hlate p (List.mem_cons_self ..)
    have hne := habove p (List.mem_cons_self ..)
    have hrest := ih (fun q hq => hlate q (List.mem_cons_of_mem _ hq))
      (fun q hq => habove q (List.mem_cons_of_mem _ hq))
    unfold checkTimeoutLoop
    simp [hp, hne, hrest]

theorem emits_checkTimeoutLoop (hsorted : map.Pairwise (fun p q => p.extendSeq < q.extendSeq))
    (habove : ∀ p ∈ map, b.outputSeq < p.extendSeq) (horder : b.TimeoutInOrder now map)
    : Emits b.outputSeq map (b.checkTimeoutLoop now map) := by
  induction map generalizing b with
  | nil => exact ⟨rfl, rfl⟩
  | cons p map ih =>
    rw [List.pairwise_cons] at hsorted
    have hp := habove p (List.mem_cons_self ..)
    -- behind the output of `p` the rest of the map is in order again
    have hrest (ts : Int) (hout : b.timedOut now p = true ∨ b.outputSeq + 1 = p.extendSeq)
        : Emits p.extendSeq map
            ({ b with outputSeq := p.extendSeq, reportLostTs := ts }.checkTimeoutLoop now map) := by
      refine @ih { b with outputSeq := p.extendSeq, reportLostTs := ts } hsorted.2 hsorted.1 ?_
      intro late hlate htimedOut q hq hlt
      have hpq := hsorted.1 q hq
      rcases horder late (List.mem_cons_of_mem _ hlate) htimedOut q (List.mem_cons_of_mem _ hq) hlt with
        hq' | hq' | ⟨r, hr, hq'⟩
      . exact Or.inl hq'
      . omega
      . right
        rcases List.mem_cons.mp hr with rfl | hr
        . left
          simp only
          omega
        . right
          exact ⟨r, hr, hq'⟩
    unfold checkTimeoutLoop
    split
    next htimedOut =>
      rcases reportLost_eq { b with outputSeq := p.extendSeq } now p with ⟨ts, events, hlost, hevents⟩
      simp only [outputPacket, hlost]
      apply (hrest ts (Or.inl htimedOut)).cons
      simp [JitterEvent.output?, hevents]
    next hkept =>
      split
      next hnext =>
        apply (hrest b.reportLostTs (Or.inr hnext)).cons
        rfl
      next hnext =>
        have hnone : ∀ q ∈ map, b.timedOut now q = false := by
          intro q hq
          by_contra htimedOut
          rw [Bool.not_eq_false] at htimedOut
          rcases horder q (List.mem_cons_of_mem _ hq) htimedOut p (List.mem_cons_self ..)
            (hsorted.1 q hq) with hp' | hp' | ⟨r, hr, hp'⟩
          . exact hkept hp'
          . omega
          . rcases List.mem_cons.mp hr with rfl | hr
            . omega
            . have := hsorted.1 r hr
              omega
        have hrest := checkTimeoutLoop_of_kept hnone (fun q hq => by
          have := hsorted.1 q hq
          omega)
        rw [hrest]
        exact ⟨rfl, rfl⟩

theorem emits_outputContinued (b : JitterBuffer) (map : List RtpPacketInfo)
    : Emits b.outputSeq map (b.outputContinued map) := by
  induction map generalizing b with
  | nil => exact ⟨rfl, rfl⟩
  | cons p map ih =>
    unfold outputContinued
    split
    next =>
      have hrest := ih { b with outputSeq := p.extendSeq }
      apply hrest.cons
      rfl
    next => exact ⟨rfl, rfl⟩

end Loops

section Insert

variable {pkt : RtpPacketInfo} {map : List RtpPacketInfo}

theorem mem_insertPacket {p : RtpPacketInfo} (h : p ∈ insertPacket pkt map) : p = pkt ∨ p ∈ map := by
  unfold insertPacket at h
  rw [List.mem_append, List.mem_cons] at h
  rcases h with h | rfl | h
  . exact Or.inr ((List.takeWhile_sublist _).mem h)
  . exact Or.inl rfl
  . exact Or.inr ((List.dropWhile_sublist _).mem h)

theorem insertPacket_cons (p : RtpPacketInfo)
    : insertPacket pkt (p :: map)
      = if p.extendSeq < pkt.extendSeq then p :: insertPacket pkt map
        else pkt :: (p :: map).dropWhile (fun p => p.extendSeq ≤ pkt.extendSeq) := by
  unfold insertPacket
  split
  next hlt =>
    rw [List.takeWhile_cons_of_pos (by simpa using hlt), List.dropWhile_cons_of_pos (by simp; omega)]
    rfl
  next hge =>
    rw [List.takeWhile_cons_of_neg (by simpa using hge)]
    rfl

theorem sorted_insertPacket (h : map.Pairwise (fun p q => p.extendSeq < q.extendSeq))
    : (insertPacket pkt map).Pairwise (fun p q => p.extendSeq < q.extendSeq) := by
  induction map with
  | nil => simp [insertPacket]
  | cons p map ih =>
    rw [insertPacket_cons]
    have htail := (List.pairwise_cons.mp h).1
    split
    next hlt =>
      apply List.pairwise_cons.mpr ⟨?_, ih (List.pairwise_cons.mp h).2⟩
      intro q hq
      rcases mem_insertPacket hq with rfl | hq
      . exact hlt
      . exact htail q hq
    next hge =>
      apply List.pairwise_cons.mpr ⟨?_, h.sublist (List.dropWhile_sublist _)⟩
      intro q hq
      by_cases heq : p.extendSeq ≤ pkt.extendSeq
      . rw [List.dropWhile_cons_of_pos (by simpa using heq)] at hq
        have := htail q ((List.dropWhile_sublist _).mem hq)
        omega
      . rw [List.dropWhile_cons_of_neg (by simpa using heq)] at hq
        rcases List.mem_cons.mp hq with rfl | hq
        . omega
        . have := htail q hq
          omega

theorem insertPacket_subperm : (insertPacket pkt map).Subperm (pkt :: map) := by
  induction map with
  | nil => exact List.Subperm.refl _
  | cons p map ih =>
    rw [insertPacket_cons]
    split
    next =>
      apply ((List.subperm_cons p).mpr ih).trans
      apply (List.Perm.swap pkt p map).subperm
    next =>
      apply (List.subperm_cons pkt).mpr
      apply (List.dropWhile_sublist _).subperm

end Insert

theorem acceptPacket_frame (b : JitterBuffer) (clockRate : Int) (pkt : RtpPacket) (localMs : Int)
    : ∃ s flag, (b.acceptPacket clockRate pkt localMs).1
        = { b with toSeqState := s, initFlag := flag } := by
  unfold acceptPacket
  split
  next =>
    unfold updateSeq
    rcases b.toSeqState.updateSeq pkt.seq with ⟨s, _ | ⟨extendSeq, reset⟩⟩
    . exact ⟨s, b.initFlag, rfl⟩
    . cases reset with
      | true => exact ⟨s, false, rfl⟩
      | false => exact ⟨s, b.initFlag, rfl⟩
  next => exact ⟨_, _, rfl⟩

namespace History

/--
The map is in front of the buffer, and what went out or will go out was accepted, each packet once.
-/
structure Inv (s : History) : Prop where
  sorted : s.buffer.packetsMap.Pairwise (fun p q => p.extendSeq < q.extendSeq)
  above : ∀ p ∈ s.buffer.packetsMap, s.buffer.outputSeq < p.extendSeq
  period : s.period.Pairwise (· < ·)
  period_le : ∀ n ∈ s.period, n ≤ s.buffer.outputSeq
  once : (s.outputs ++ s.buffer.packetsMap).Subperm s.accepted

theorem foldl_extendSeq {out : List RtpPacketInfo} {outputSeq : Nat}
    (hsorted : out.Pairwise (fun p q => p.extendSeq < q.extendSeq))
    (habove : ∀ p ∈ out, outputSeq < p.extendSeq)
    : outputSeq ≤ out.foldl (fun _ p => p.extendSeq) outputSeq
      ∧ ∀ p ∈ out, p.extendSeq ≤ out.foldl (fun _ p => p.extendSeq) outputSeq := by
  induction out generalizing outputSeq with
  | nil => simp
  | cons p out ih =>
    rw [List.pairwise_cons] at hsorted
    have hp := habove p (List.mem_cons_self ..)
    rcases ih hsorted.2 hsorted.1 with ⟨hle, hall⟩
    rw [List.foldl_cons, List.forall_mem_cons]
    exact ⟨by omega, hle, hall⟩

theorem foldl_extendSeq_lt {out kept : List RtpPacketInfo} {outputSeq : Nat}
    (hsorted : (out ++ kept).Pairwise (fun p q => p.extendSeq < q.extendSeq))
    (habove : ∀ p ∈ out ++ kept, outputSeq < p.extendSeq)
    : ∀ p ∈ kept, out.foldl (fun _ p => p.extendSeq) outputSeq < p.extendSeq := by
  induction out generalizing outputSeq with
  | nil => exact habove
  | cons p out ih =>
    rw [List.cons_append, List.pairwise_cons] at hsorted
    rw [List.foldl_cons]
    apply ih hsorted.2 hsorted.1

theorem Inv.emit {s : History} {res : JitterBuffer × List JitterEvent} (h : s.Inv)
    (hemits : Emits s.buffer.outputSeq s.buffer.packetsMap res)
    : (s.emit res).Inv := by
  have hsorted := h.sorted
  have habove := h.above
  have honce := h.once
  have hlast := hemits.outputSeq
  rw [hemits.map] at hsorted habove honce
  unfold History.emit
  generalize res.2.filterMap JitterEvent.output? = out at *
  have hkept := foldl_extendSeq_lt hsorted habove
  have hout := foldl_extendSeq (List.pairwise_append.mp hsorted).1
    (fun p hp => habove p (List.mem_append_left _ hp))
  rw [← hlast] at hkept hout
  constructor
  . exact (List.pairwise_append.mp hsorted).2.1
  . exact hkept
  . apply List.pairwise_append.mpr ⟨h.period, ?_, ?_⟩
    . rw [List.pairwise_map]
      exact (List.pairwise_append.mp hsorted).1
    . intro n hn m hm
      rcases List.mem_map.mp hm with ⟨p, hp, rfl⟩
      have := h.period_le n hn
      have := habove p (List.mem_append_left _ hp)
      omega
  . intro n hn
    rcases List.mem_append.mp hn with hn | hn
    . apply Nat.le_trans (h.period_le n hn) hout.1
    . rcases List.mem_map.mp hn with ⟨p, hp, rfl⟩
      exact hout.2 p hp
  . simpa using honce

theorem Inv.insert {s : History} (h : s.Inv) (info : RtpPacketInfo)
    (habove : s.buffer.outputSeq < info.extendSeq)
    : { s.accept info false with
        buffer := { s.buffer with packetsMap := insertPacket info s.buffer.packetsMap } }.Inv := by
  constructor
  . apply sorted_insertPacket h.sorted
  . intro p hp
    rcases mem_insertPacket hp with rfl | hp
    . exact habove
    . exact h.above p hp
  . exact h.period
  . exact h.period_le
  . have hinsert : (s.outputs ++ insertPacket info s.buffer.packetsMap).Subperm
        (s.outputs ++ info :: s.buffer.packetsMap) :=
      (List.subperm_append_left _).mpr insertPacket_subperm
    apply hinsert.trans
    apply (List.perm_middle.subperm).trans
    apply ((List.subperm_cons info).mpr h.once).trans
    apply (List.perm_append_singleton info s.accepted).symm.subperm

theorem Inv.accept {s : History} (h : s.Inv) (info : RtpPacketInfo) : (s.accept info false).Inv where
  sorted := h.sorted
  above := h.above
  period := h.period
  period_le := h.period_le
  once := h.once.trans (List.sublist_append_left ..).subperm

theorem Inv.push {s : History} (h : s.Inv) (info : RtpPacketInfo)
    (hnext : s.buffer.outputSeq + 1 = info.extendSeq)
    (hnew : ∀ p ∈ s.buffer.packetsMap, p.extendSeq ≠ info.extendSeq)
    : { s.accept info false with
        buffer := { s.buffer with packetsMap := info :: s.buffer.packetsMap } }.Inv := by
  constructor
  . apply List.pairwise_cons.mpr ⟨?_, h.sorted⟩
    intro p hp
    have := h.above p hp
    have := hnew p hp
    omega
  . intro p hp
    rcases List.mem_cons.mp hp with rfl | hp
    . simp only
      omega
    . exact h.above p hp
  . exact h.period
  . exact h.period_le
  . apply (List.perm_middle.subperm).trans
    apply ((List.subperm_cons info).mpr h.once).trans
    apply (List.perm_append_singleton info s.accepted).symm.subperm

theorem Inv.reset {s : History} {res : JitterBuffer × List JitterEvent} (h : s.Inv)
    (info : RtpPacketInfo) (habove : ∀ p ∈ s.buffer.packetsMap, info.extendSeq < p.extendSeq)
    (hmap : res.1.packetsMap = s.buffer.packetsMap) (hseq : res.1.outputSeq = info.extendSeq)
    (hout : res.2.filterMap JitterEvent.output? = [info])
    : ((s.accept info true).emit res).Inv := by
  unfold History.emit
  rw [hout]
  constructor
  . rw [hmap]
    exact h.sorted
  . rw [hmap, hseq]
    exact habove
  . simp [History.accept]
  . simp [History.accept, hseq]
  . rw [hmap, List.append_assoc]
    apply (List.perm_middle.subperm).trans
    apply ((List.subperm_cons info).mpr h.once).trans
    apply (List.perm_append_singleton info s.accepted).symm.subperm

theorem Inv.input {s : History} (h : s.Inv) (clockRate : Int) (pkt : RtpPacket) (localMs now : Int)
    (hcan : s.buffer.Can (.input clockRate pkt localMs now))
    : (s.next (.input clockRate pkt localMs now)).Inv := by
  rcases acceptPacket_frame s.buffer clockRate pkt localMs with ⟨seqState, flag, hframe⟩
  unfold Can CanOutput at hcan
  unfold next inputRtpPacket
  rcases hacc : s.buffer.acceptPacket clockRate pkt localMs with ⟨b, res⟩
  simp only [hacc] at hframe hcan ⊢
  subst hframe
  rcases res with _ | ⟨info, reset⟩
  . apply h.emit
    exact ⟨rfl, rfl⟩
  . cases reset with
    | true =>
      rcases reportLost_eq { s.buffer with toSeqState := seqState, initFlag := flag } now info with
        ⟨ts, events, hlost, hevents⟩
      simp only [hlost, outputPacket]
      apply h.reset info hcan rfl rfl
      rw [List.filterMap_append, hevents]
      rfl
    | false =>
      simp only at hcan ⊢
      split
      next hnext =>
        rw [if_pos hnext] at hcan
        apply (h.push info hnext hcan).emit
        have hrest := emits_outputContinued
          { s.buffer with toSeqState := seqState, initFlag := flag, outputSeq := info.extendSeq }
          s.buffer.packetsMap
        apply Emits.cons hrest
        rfl
      next hnext =>
        rw [if_neg hnext] at hcan
        split
        next =>
          apply (h.accept info).emit
          exact ⟨rfl, rfl⟩
        next hgt =>
          have hinsert := h.insert info (Nat.not_le.mp hgt)
          apply hinsert.emit
          exact @emits_checkTimeoutLoop { s.buffer with
            toSeqState := seqState
            initFlag := flag
            packetsMap := insertPacket info s.buffer.packetsMap } _ _ hinsert.sorted hinsert.above
            (hcan (Nat.not_le.mp hgt))

theorem inv_step (s : History) (call : Call) (s' : History) (h : s.Inv) (hstep : s.Step call s')
    : s'.Inv := by
  rcases hstep with ⟨hcan, rfl⟩
  cases call with
  | input clockRate pkt localMs now => apply h.input _ _ _ _ hcan
  | timer now =>
    apply h.emit
    apply emits_checkTimeoutLoop h.sorted h.above hcan

end History

/--
In every run of calls that keep the order, the extended numbers emitted since the last reset increase,
every accepted packet is emitted at most once, and the packets left are in front of the last output.
-/
theorem outputs_inOrder (mediaType : MediaPktType) (b : JitterBuffer) (hnew : new mediaType = some b)
    (calls : List Call) (s : History) (hrun : Interleave.Run History.Step { buffer := b } calls s)
    : s.period.Pairwise (· < ·) ∧ s.outputs.Subperm s.accepted
      ∧ ∀ p ∈ s.buffer.packetsMap, s.buffer.outputSeq < p.extendSeq := by
  have hmap : b.packetsMap = [] := by
    unfold new at hnew
    split at hnew
    all_goals cases hnew
    all_goals rfl
  have hinv : s.Inv := by
    apply hrun.invariant History.inv_step
    constructor
    all_goals simp [hmap]
  exact ⟨hinv.period, (List.sublist_append_left ..).subperm.trans hinv.once, hinv.above⟩

def samplePacket (seq : UInt16) : RtpPacket := ⟨true, 96, seq, 0, 1, [0x41], 0⟩

def sampleInput (seq : UInt16) (now : Int) : Call := .input 90000 (samplePacket seq) now now

def sampleVideo : JitterBuffer := { mediaType := .video, bufferTimeout := jitterBufferVideoTimeout }

def sampleRun (calls : List Call) : History := calls.foldl History.next { buffer := sampleVideo }

theorem outputs_inOrder_sample
    : (sampleRun [sampleInput 10 0, sampleInput 12 5, sampleInput 11 9]).period.Pairwise (· < ·)
      ∧ (sampleRun [sampleInput 10 0, sampleInput 12 5, sampleInput 11 9]).outputs.map
          RtpPacketInfo.extendSeq = [10, 11, 12] := by
  have hrun : Interleave.Run History.Step { buffer := sampleVideo }
      [sampleInput 10 0, sampleInput 12 5, sampleInput 11 9]
      (sampleRun [sampleInput 10 0, sampleInput 12 5, sampleInput 11 9]) := by
    refine .cons ⟨?_, rfl⟩ (.cons ⟨?_, rfl⟩ (.cons ⟨?_, rfl⟩ (.nil _)))
    all_goals decide
  have hall := outputs_inOrder .video sampleVideo rfl _ _ hrun
  exact ⟨hall.1, by decide⟩

/--
A packet that times out overtakes one in front of it, which stays behind and goes out later. A reset
leaves packets with numbers of before in the map.
-/
theorem outputs_overtake
    : (sampleRun [sampleInput 10 0, sampleInput 20 0, sampleInput 15 390, .timer 401]).buffer.outputSeq
        = 20
      ∧ (sampleRun [sampleInput 10 0, sampleInput 20 0, sampleInput 15 390, .timer 401]
          ).buffer.packetsMap.map RtpPacketInfo.extendSeq = [15]
      ∧ (sampleRun [sampleInput 10 0, sampleInput 20 0, sampleInput 15 390, .timer 401, .timer 800]
          ).period = [10, 20, 15]
      ∧ (sampleRun [sampleInput 10 0, sampleInput 12 0, sampleInput 20000 1, sampleInput 20001 1]
          ).buffer.outputSeq = 20001
      ∧ (sampleRun [sampleInput 10 0, sampleInput 12 0, sampleInput 20000 1, sampleInput 20001 1]
          ).buffer.packetsMap.map RtpPacketInfo.extendSeq = [12] := by
  decide

end JitterBuffer
