import CppStreamer.Basic.Interleave
import CppStreamer.Net.Rtmp.Publish

/-!
This module contains the queue of `RtmpPublish` with the threads that use it: sources that queue packets and notify the
loop, and the calls of `HandleMediaData`, which take one packet after the other under the mutex.
-/

open Checked

namespace Rtmp

namespace RtmpPublish

section Turn

def getMediaPacket (s : RtmpPublish) : RtmpPublish × Option Nat :=
  match s.packetQueue with
  | [] => (s, none)
  | ptr :: queue => ({ s with packetQueue := queue }, some ptr)

def IsFlv (pkts : Packets) (ptr : Nat) : Prop := (pkts[ptr]?.map fun p => p.fmtType) = some .flv

instance (pkts : Packets) (ptr : Nat) : Decidable (IsFlv pkts ptr) :=
  inferInstanceAs (Decidable ((pkts[ptr]?.map fun p => p.fmtType) = some .flv))

/--
One turn of the loop of `HandleMediaData`, with the packet that it takes, and whether there is another turn.
-/
def turn (s : RtmpPublish × Packets) : (RtmpPublish × Packets) × Option Nat × Bool :=
  match s.1.getMediaPacket with
  | (_, none) => (s, none, false)
  | (publish, some ptr) =>
    if IsFlv s.2 ptr then ((publish, s.2), some ptr, false) else ((handlePacket (publish, s.2) ptr).value, some ptr, true)

/--
The turns of a call that no source interrupts. It has one turn more than there are packets at most.
-/
def turns : Nat → RtmpPublish × Packets → RtmpPublish × Packets
  | 0, s => s
  | fuel + 1, s =>
    match turn s with
    | (s, _, false) => s
    | (s, _, true) => turns fuel s

/--
The queue is not looked at when a packet is handled.
-/
def withQueue (queue : List Nat) (s : RtmpPublish × Packets) : RtmpPublish × Packets :=
  ({ s.1 with packetQueue := queue }, s.2)

theorem sendDueSeqHdr_withQueue (queue : List Nat) (s : RtmpPublish × Packets) (naluType : UInt8) (p : SharedPacket)
    : (sendDueSeqHdr (withQueue queue s) naluType p).value = withQueue queue (sendDueSeqHdr s naluType p).value := by
  unfold sendDueSeqHdr
  change (if naluType = H264.naluTypeIdr ∨ ¬s.1.firstVideo then _ else _ : Checked _ _).value = _
  split
  . rfl
  . rfl

theorem handleNalu_withQueue (queue : List Nat) (p : SharedPacket) (s : RtmpPublish × Packets) (nalu : List UInt8)
    : (handleNalu p (withQueue queue s) nalu).value = withQueue queue (handleNalu p s nalu).value := by
  unfold handleNalu
  split
  . rfl
  . next pos _ =>
    simp only
    split
    . rfl
    . split
      . rfl
      . split
        . rfl
        . change (if s.1.pps.len < 0 ∨ s.1.sps.len < 0 then _ else _ : Checked _ _).value = _
          split
          . rfl
          . simp only [value_bind, value_pure, sendDueSeqHdr_withQueue]
            rfl

theorem handleVideoData_withQueue (queue : List Nat) (s : RtmpPublish × Packets) (ptr : Nat) (p : SharedPacket)
    : (handleVideoData (withQueue queue s) ptr p).value = withQueue queue (handleVideoData s ptr p).value := by
  unfold handleVideoData
  split
  . rfl
  . split
    . rfl
    . cases H264.annexB2Nalus p.data with
      | none => rfl
      | some nalus => apply run_commutes (withQueue queue) (handleNalu_withQueue queue p)

theorem handlePacket_withQueue (queue : List Nat) (s : RtmpPublish × Packets) (ptr : Nat)
    : (handlePacket (withQueue queue s) ptr).value = withQueue queue (handlePacket s ptr).value := by
  unfold handlePacket
  simp only [withQueue]
  cases s.2[ptr]? with
  | none => rfl
  | some p =>
    simp only
    split
    . cases p.avType with
      | video => apply handleVideoData_withQueue
      | audio | unknown | movbox | metadata => rfl
    . rfl

theorem handlePacket_packetQueue (s : RtmpPublish × Packets) (ptr : Nat)
    : (handlePacket s ptr).value.1.packetQueue = s.1.packetQueue := by
  have hqueue := handlePacket_withQueue s.1.packetQueue s ptr
  change (handlePacket s ptr).value = _ at hqueue
  rw [hqueue]
  rfl

/--
What a turn does.
-/
theorem turn_cases (s : RtmpPublish × Packets)
    : (s.1.packetQueue = [] ∧ turn s = (s, none, false))
        ∨ ∃ ptr queue, s.1.packetQueue = ptr :: queue ∧ (turn s).1.1.packetQueue = queue
            ∧ (turn s).2 = (some ptr, decide ¬IsFlv s.2 ptr) := by
  unfold turn getMediaPacket
  cases hqueue : s.1.packetQueue with
  | nil => exact Or.inl ⟨rfl, rfl⟩
  | cons ptr queue =>
    refine Or.inr ⟨ptr, queue, rfl, ?_⟩
    simp only
    split
    . next hflv => exact ⟨rfl, by simp [hflv]⟩
    . next hflv => exact ⟨handlePacket_packetQueue _ _, by simp [hflv]⟩

theorem handleMediaData_withQueue (queue' : List Nat) (queue : List Nat)
    : ∀ s : RtmpPublish × Packets,
        (handleMediaData (withQueue queue' s) queue).value = (handleMediaData s queue).value := by
  induction queue with
  | nil =>
    intro s
    rfl
  | cons ptr queue ih =>
    intro s
    rw [handleMediaData, handleMediaData]
    change (if IsFlv s.2 ptr then _ else _ : Checked _ _).value = (if IsFlv s.2 ptr then _ else _ : Checked _ _).value
    split
    . rfl
    . rw [value_bind, value_bind, handlePacket_withQueue, ih]

/--
Without a source that interrupts it, a call is the one over the packets that are in the queue.
-/
theorem turns_eq (queue : List Nat)
    : ∀ {s : RtmpPublish × Packets} {fuel : Nat}, s.1.packetQueue = queue → queue.length < fuel →
        turns fuel s = (handleMediaData s queue).value := by
  induction queue with
  | nil =>
    intro s fuel hqueue hfuel
    obtain ⟨fuel, rfl⟩ := Nat.exists_eq_add_of_lt hfuel
    simp only [turns, turn, getMediaPacket, hqueue]
    rw [handleMediaData, value_pure, ← hqueue]
  | cons ptr queue ih =>
    intro s fuel hqueue hfuel
    cases fuel with
    | zero => cases hfuel
    | succ fuel =>
      rw [handleMediaData]
      change _ = (if IsFlv s.2 ptr then _ else _ : Checked _ _).value
      by_cases hflv : IsFlv s.2 ptr
      . simp only [turns, turn, getMediaPacket, hqueue, if_pos hflv]
        rfl
      . simp only [turns, turn, getMediaPacket, hqueue, if_neg hflv]
        apply (ih (handlePacket_packetQueue _ _) (Nat.lt_of_succ_lt_succ hfuel)).trans
        have hpopped : (({ s.1 with packetQueue := queue }, s.2) : RtmpPublish × Packets) = withQueue queue s := rfl
        rw [value_bind, hpopped, handlePacket_withQueue, handleMediaData_withQueue]

end Turn

end RtmpPublish

/--
The publisher with the packets that there are, and whether a notification is pending. `call` is what had been queued when
the running call of `HandleMediaData` began, `queued` and `handled` are the packets of the whole run.
-/
structure PublishQueue where
  state : RtmpPublish × Packets
  pending : Bool := false
  call : Option (List Nat) := none
  queued : List Nat := []
  handled : List Nat := []

namespace PublishQueue

/--
`SourceData` queues a packet and then sends the notification, while other components do what they want with the packets.
-/
inductive Event where
  | queue (ptr : Nat)
  | asyncSend
  | others (pkts : Packets)
  | start
  | turn

def new (pkts : Packets) : PublishQueue where
  state := ({}, pkts)

def afterTurn (s : PublishQueue) : PublishQueue :=
  { s with
    state := (RtmpPublish.turn s.state).1
    call := if (RtmpPublish.turn s.state).2.2 then s.call else none
    handled := s.handled ++ (RtmpPublish.turn s.state).2.1.toList }

/--
Notifications that come before the call are one.
-/
def Step (s : PublishQueue) (e : Event) (s' : PublishQueue) : Prop :=
  match e with
  | .queue ptr => s' = { s with state := (s.state.1.sourceData ptr, s.state.2), queued := s.queued ++ [ptr] }
  | .asyncSend => s' = { s with pending := true }
  | .others pkts => s' = { s with state := (s.state.1, pkts) }
  | .start => s.pending = true ∧ s.call = none ∧ s' = { s with pending := false, call := some s.queued }
  | .turn => s.call ≠ none ∧ s' = s.afterTurn

/--
When a call ends, each packet that had been queued when it began has been handled once, and in their order.
-/
def Drains (pkts : Packets) (events : List Event) : Prop :=
  ∀ (before : List Event) (s : PublishQueue) (queued : List Nat), before ++ [.turn] <+: events →
    Interleave.Run Step (new pkts) before s → s.call = some queued → s.afterTurn.call = none →
      queued <+: s.afterTurn.handled ∧ s.afterTurn.handled <+: s.afterTurn.queued

/--
A packet that is FLV when a call takes it has none behind it that had been queued when the call began.
-/
def TurnsOk (pkts : Packets) (events : List Event) : Prop :=
  ∀ (before : List Event) (s : PublishQueue) (queued : List Nat), before ++ [.turn] <+: events →
    Interleave.Run Step (new pkts) before s → s.call = some queued →
      ∀ ptr queue, s.state.1.packetQueue = ptr :: queue → RtmpPublish.IsFlv s.state.2 ptr →
        queued.drop (s.handled.length + 1) = []

/--
What has been queued was handled or is in the queue, and so was what the running call began with.
-/
structure Inv (s : PublishQueue) : Prop where
  queued : s.queued = s.handled ++ s.state.1.packetQueue
  call : ∀ queued, s.call = some queued → queued <+: s.queued

section Run

variable {s s' : PublishQueue}

theorem Inv.afterTurn (h : s.Inv) : s.afterTurn.Inv := by
  constructor
  . rcases RtmpPublish.turn_cases s.state with ⟨_, hturn⟩ | ⟨ptr, queue, hqueue, hrest, hturn⟩
    . simp only [PublishQueue.afterTurn, hturn, Option.toList_none, List.append_nil]
      apply h.queued
    . simp only [PublishQueue.afterTurn, hturn, hrest, Option.toList_some]
      rw [h.queued, hqueue, List.append_assoc, List.singleton_append]
  . intro queued hcall
    simp only [PublishQueue.afterTurn] at hcall
    split at hcall
    . apply h.call queued hcall
    . cases hcall

theorem inv_step (s : PublishQueue) (e : Event) (s' : PublishQueue) (h : s.Inv) (hstep : s.Step e s') : s'.Inv := by
  cases e with
  | queue ptr =>
    cases hstep
    constructor
    . simp only [RtmpPublish.sourceData]
      rw [h.queued, List.append_assoc]
    . intro queued hcall
      apply (h.call queued hcall).trans (List.prefix_append _ _)
  | asyncSend =>
    cases hstep
    exact ⟨h.queued, h.call⟩
  | others pkts =>
    cases hstep
    exact ⟨h.queued, h.call⟩
  | start =>
    obtain ⟨_, _, rfl⟩ := hstep
    refine ⟨h.queued, ?_⟩
    intro queued hcall
    cases hcall
    apply List.prefix_rfl
  | turn =>
    obtain ⟨_, rfl⟩ := hstep
    apply h.afterTurn

theorem run_inv {pkts : Packets} {events : List Event} (h : Interleave.Run Step (new pkts) events s) : s.Inv := by
  apply h.invariant inv_step
  exact ⟨rfl, nofun⟩

/--
The turn that ends a call leaves nothing behind if and only if it is not one that takes an FLV packet too early.
-/
theorem turn_drains_iff (h : s.Inv) {queued : List Nat} (hcall : s.call = some queued)
    : (s.afterTurn.call = none → queued <+: s.afterTurn.handled ∧ s.afterTurn.handled <+: s.afterTurn.queued)
        ↔ ∀ ptr queue, s.state.1.packetQueue = ptr :: queue → RtmpPublish.IsFlv s.state.2 ptr →
            queued.drop (s.handled.length + 1) = [] := by
  have hinv := h.afterTurn.queued
  have hfront : queued <+: s.afterTurn.queued := h.call queued hcall
  have hhandled : s.afterTurn.handled <+: s.afterTurn.queued := by
    rw [hinv]
    apply List.prefix_append
  rcases RtmpPublish.turn_cases s.state with ⟨hqueue, hturn⟩ | ⟨ptr, queue, hqueue, hrest, hturn⟩
  . -- the queue is empty, so everything has been handled
    have hall : s.afterTurn.queued = s.afterTurn.handled := by
      rw [hinv]
      simp only [afterTurn, hturn, hqueue, List.append_nil]
    rw [hall] at hfront
    refine iff_of_true (fun _ => ⟨hfront, hhandled⟩) ?_
    intro ptr queue hcons
    rw [hqueue] at hcons
    cases hcons
  . have hlength : s.afterTurn.handled.length = s.handled.length + 1 := by
      simp [afterTurn, hturn]
    by_cases hflv : RtmpPublish.IsFlv s.state.2 ptr
    . have hends : s.afterTurn.call = none := by
        simp [afterTurn, hturn, hflv]
      have hdrained : queued <+: s.afterTurn.handled ↔ queued.drop (s.handled.length + 1) = [] := by
        rw [List.drop_eq_nil_iff, ← hlength]
        constructor
        . apply List.IsPrefix.length_le
        . apply List.prefix_of_prefix_length_le hfront hhandled
      rw [hends, ← hdrained, hqueue]
      constructor
      . intro hdrains _ _ _ _
        apply (hdrains rfl).left
      . intro hok _
        exact ⟨hok ptr queue rfl hflv, hhandled⟩
    . have hgoes : s.afterTurn.call = some queued := by
        simp [afterTurn, hturn, hflv, hcall]
      rw [hgoes, hqueue]
      refine iff_of_true nofun ?_
      intro ptr' queue' heq hflv'
      cases heq
      exact absurd hflv' hflv

theorem drains_iff (pkts : Packets) (events : List Event) : Drains pkts events ↔ TurnsOk pkts events := by
  constructor
  . intro h before s queued hfront hrun hcall
    apply (turn_drains_iff (run_inv hrun) hcall).mp
    apply h before s queued hfront hrun hcall
  . intro h before s queued hfront hrun hcall
    apply (turn_drains_iff (run_inv hrun) hcall).mpr
    apply h before s queued hfront hrun hcall

/--
An FLV packet and another one are queued, and one notification comes for both: the call handles the first one.
-/
theorem not_drains
    : ¬Drains [{ fmtType := .flv }, { fmtType := .raw }] [.queue 0, .queue 1, .asyncSend, .start, .turn] := by
  intro h
  have hrun : Interleave.Run Step (new [{ fmtType := .flv }, { fmtType := .raw }])
      [.queue 0, .queue 1, .asyncSend, .start]
      { state := ({ packetQueue := [0, 1] }, [{ fmtType := .flv }, { fmtType := .raw }]), call := some [0, 1],
        queued := [0, 1] } :=
    .cons rfl (.cons rfl (.cons rfl (.cons ⟨rfl, rfl, rfl⟩ (.nil _))))
  have hok := (turn_drains_iff (run_inv hrun) rfl).mp (h _ _ _ List.prefix_rfl hrun rfl) 0 [1] rfl rfl
  cases hok

end Run

end PublishQueue

end Rtmp
