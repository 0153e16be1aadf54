import Mathlib.Data.List.Induction
import CppStreamer.Net.WebRtc.JitterBuffer

/-!
This module contains what `JitterBuffer` outputs from a reset on, and when it goes on as a new buffer does.
-/

namespace JitterBuffer

section Calls

def call (b : JitterBuffer) : Call → JitterBuffer × List JitterEvent
  | .input clockRate pkt localMs now => b.inputRtpPacket clockRate pkt localMs now
  | .timer now => b.onTimer now

def runCalls (b : JitterBuffer) (calls : List Call) : JitterBuffer := calls.foldl (fun b c => (b.call c).1) b

def outputsOf (b : JitterBuffer) : List Call → List RtpPacketInfo
  | [] => []
  | c :: calls => (b.call c).2.filterMap JitterEvent.output? ++ (b.call c).1.outputsOf calls

def Call.IsInput : Call → Prop
  | .input _ _ _ _ => True
  | .timer _ => False

/--
`UpdateSeq` sets `reset` for the packet.
-/
def Resets (b : JitterBuffer) : Call → Prop
  | .input _ pkt _ _ => b.initFlag = true ∧ ∃ extendSeq, (b.updateSeq pkt.seq).2 = some (extendSeq, true)
  | .timer _ => False

/--
From a reset on the buffer outputs none of the packets that were in the map, and does as a new one that gets the same
calls.
-/
structure Resyncs (b : JitterBuffer) (calls : List Call) : Prop where
  dropped : ∀ (before after : List Call) (c : Call), calls = before ++ c :: after → (b.runCalls before).Resets c →
    ∀ p ∈ (b.runCalls before).packetsMap, p ∉ (b.runCalls before).outputsOf (c :: after)
  rebased : ∀ (before after : List Call) (c : Call), calls = before ++ c :: after → (b.runCalls before).Resets c →
    (b.runCalls before).outputsOf (c :: after) = b.outputsOf (c :: after)

/--
The packet is the one behind the last, without a wrap around.
-/
def Continues (b : JitterBuffer) : Call → Prop
  | .input _ pkt _ _ => pkt.seq.toNat = b.maxSeq + 1
  | .timer _ => True

instance (b : JitterBuffer) : (c : Call) → Decidable (b.Continues c)
  | .input _ pkt _ _ => inferInstanceAs (Decidable (pkt.seq.toNat = b.maxSeq + 1))
  | .timer _ => inferInstanceAs (Decidable True)

/--
A packet that makes `UpdateSeq` reset finds an empty map, and one behind it continues it.
-/
structure StepOk (b : JitterBuffer) (before : List Call) (c : Call) : Prop where
  cleared : (b.runCalls before).Resets c → (b.runCalls before).packetsMap = []
  continues : (∃ c ∈ before, c.IsInput) → (b.runCalls before).initFlag = false → (b.runCalls before).Continues c

end Calls

section Alike

/--
The same buffer and the same output, up to the time of the last report.
-/
def Same (res res' : JitterBuffer × List JitterEvent) : Prop :=
  (∃ ts, res'.1 = { res.1 with reportLostTs := ts })
    ∧ res.2.filterMap JitterEvent.output? = res'.2.filterMap JitterEvent.output?

theorem Same.append {res res' : JitterBuffer × List JitterEvent} (h : Same res res') {events events' : List JitterEvent}
    (hevents : events.filterMap JitterEvent.output? = events'.filterMap JitterEvent.output?)
    : Same (res.1, events ++ res.2) (res'.1, events' ++ res'.2) := by
  refine ⟨h.left, ?_⟩
  rw [List.filterMap_append, List.filterMap_append, hevents, h.right]

theorem same_checkTimeoutLoop (now : Int) (map : List RtpPacketInfo)
    : ∀ (b : JitterBuffer) (ts : Int),
        Same (b.checkTimeoutLoop now map) ({ b with reportLostTs := ts }.checkTimeoutLoop now map) := by
  induction map with
  | nil =>
    intro b ts
    exact ⟨⟨ts, rfl⟩, rfl⟩
  | cons p map ih =>
    intro b ts
    unfold checkTimeoutLoop
    change Same _ (if b.timedOut now p then _ else if b.outputSeq + 1 = p.extendSeq then _ else _)
    split
    . obtain ⟨lost, events, hlost, hevents⟩ := reportLost_eq { b with outputSeq := p.extendSeq } now p
      obtain ⟨lost', events', hlost', hevents'⟩ :=
        reportLost_eq { b with outputSeq := p.extendSeq, reportLostTs := ts } now p
      simp only [outputPacket, hlost, hlost']
      apply (ih { b with outputSeq := p.extendSeq, reportLostTs := lost } lost').append
      rw [List.filterMap_append, List.filterMap_append, hevents, hevents']
    . split
      . apply (ih { b with outputSeq := p.extendSeq } ts).append
        rfl
      . obtain ⟨⟨ts', hbuffer⟩, hevents⟩ := ih b ts
        refine ⟨⟨ts', ?_⟩, hevents⟩
        simp only [hbuffer]

theorem same_outputContinued (map : List RtpPacketInfo)
    : ∀ (b : JitterBuffer) (ts : Int), Same (b.outputContinued map) ({ b with reportLostTs := ts }.outputContinued map) := by
  induction map with
  | nil =>
    intro b ts
    exact ⟨⟨ts, rfl⟩, rfl⟩
  | cons p map ih =>
    intro b ts
    unfold outputContinued
    change Same _ (if b.outputSeq + 1 = p.extendSeq then _ else _)
    split
    . apply (ih { b with outputSeq := p.extendSeq } ts).append
      rfl
    . exact ⟨⟨ts, rfl⟩, rfl⟩

/--
A packet that begins a new numbering is output at once.
-/
theorem same_first (b : JitterBuffer) (ts now : Int) (info : RtpPacketInfo)
    : Same (let (b, lost) := b.reportLost now info
            let (b, output) := b.outputPacket info
            (b, lost ++ output))
        (let (b, lost) := { b with reportLostTs := ts }.reportLost now info
         let (b, output) := b.outputPacket info
         (b, lost ++ output)) := by
  obtain ⟨lost, events, hlost, hevents⟩ := reportLost_eq b now info
  obtain ⟨lost', events', hlost', hevents'⟩ := reportLost_eq { b with reportLostTs := ts } now info
  simp only [hlost, hlost', outputPacket]
  refine ⟨⟨lost', rfl⟩, ?_⟩
  rw [List.filterMap_append, List.filterMap_append, hevents, hevents']

theorem inputRtpPacket_first {b b' : JitterBuffer} {clockRate : Int} {pkt : RtpPacket} {localMs : Int} (now : Int)
    {info : RtpPacketInfo} (h : b.acceptPacket clockRate pkt localMs = (b', some (info, true)))
    : ∃ ts, (b.inputRtpPacket clockRate pkt localMs now).1
          = { b' with outputSeq := info.extendSeq, reportLostTs := ts }
        ∧ (b.inputRtpPacket clockRate pkt localMs now).2.filterMap JitterEvent.output? = [info] := by
  obtain ⟨lost, events, hlost, hevents⟩ := reportLost_eq b' now info
  unfold inputRtpPacket
  simp only [h, hlost, outputPacket]
  refine ⟨lost, rfl, ?_⟩
  rw [List.filterMap_append, hevents]
  rfl

theorem inputRtpPacket_next {b b' : JitterBuffer} {clockRate : Int} {pkt : RtpPacket} {localMs : Int} (now : Int)
    {info : RtpPacketInfo} (h : b.acceptPacket clockRate pkt localMs = (b', some (info, false)))
    (hnext : b'.outputSeq + 1 = info.extendSeq) (hmap : b'.packetsMap = [])
    : b.inputRtpPacket clockRate pkt localMs now = ({ b' with outputSeq := info.extendSeq }, [.output info]) := by
  unfold inputRtpPacket
  simp only [h, hnext, if_true, outputPacket, hmap, outputContinued, List.append_nil]

theorem acceptPacket_reportLostTs (b : JitterBuffer) (ts clockRate : Int) (pkt : RtpPacket) (localMs : Int)
    : { b with reportLostTs := ts }.acceptPacket clockRate pkt localMs
        = ({ (b.acceptPacket clockRate pkt localMs).1 with reportLostTs := ts },
            (b.acceptPacket clockRate pkt localMs).2) := by
  unfold acceptPacket updateSeq
  split
  . rcases b.toSeqState.updateSeq pkt.seq with ⟨s, _ | ⟨extendSeq, reset⟩⟩
    . rfl
    . cases reset with
      | true => rfl
      | false => rfl
  . rfl

theorem same_call (b : JitterBuffer) (ts : Int) (c : Call)
    : Same (b.call c) ({ b with reportLostTs := ts }.call c) := by
  cases c with
  | timer now => apply same_checkTimeoutLoop
  | input clockRate pkt localMs now =>
    unfold call inputRtpPacket
    simp only [acceptPacket_reportLostTs]
    rcases b.acceptPacket clockRate pkt localMs with ⟨b, _ | ⟨info, _ | _⟩⟩
    . exact ⟨⟨ts, rfl⟩, rfl⟩
    . change Same _ (if b.outputSeq + 1 = info.extendSeq then _ else if info.extendSeq ≤ b.outputSeq then _ else _)
      simp only
      split
      . apply (same_outputContinued b.packetsMap { b with outputSeq := info.extendSeq } ts).append
        rfl
      . split
        . exact ⟨⟨ts, rfl⟩, rfl⟩
        . apply same_checkTimeoutLoop
    . apply same_first

/--
The second buffer is the same, or has seen the packet of the reset as its first one, where the other one waits for it.
-/
inductive Follows (b b' : JitterBuffer) : Prop where
  | same (ts : Int) (heq : b' = { b with reportLostTs := ts })
  | reset (seq : UInt16) (ts : Int) (hflag : b.initFlag = false) (hseq : b.toSeqState = .initSeq seq)
    (hmap : b.packetsMap = []) (hout : b.outputSeq = seq.toNat)
    (heq : b' = { b with initFlag := true, reportLostTs := ts })

theorem updateSeq_next {seq next : UInt16} (h : next.toNat = seq.toNat + 1)
    : (SeqState.initSeq seq).updateSeq next = (SeqState.initSeq next, some (next.toNat, false)) := by
  have hnext := next.toNat_lt
  have hudelta : (next.toNat + rtpSeqMod - seq.toNat) % rtpSeqMod = 1 := by
    unfold rtpSeqMod
    omega
  unfold SeqState.updateSeq
  change (if (next.toNat + rtpSeqMod - seq.toNat) % rtpSeqMod < maxDropout then _ else _) = _
  rw [hudelta, if_pos (by decide)]
  change (SeqState.mk next.toNat (rtpSeqMod + 1) (if next.toNat < seq.toNat then _ else 0),
    some (((if next.toNat < seq.toNat then _ else 0) + next.toNat) % 2 ^ 32, false)) = _
  rw [if_neg (by omega), Nat.zero_add, Nat.mod_eq_of_lt (by omega)]
  rfl

theorem follows_call {b b' : JitterBuffer} (h : Follows b b') {c : Call}
    (hcontinues : b.initFlag = false → b.Continues c)
    : Follows (b.call c).1 (b'.call c).1
        ∧ (b.call c).2.filterMap JitterEvent.output? = (b'.call c).2.filterMap JitterEvent.output? := by
  cases h with
  | same ts heq =>
    obtain ⟨⟨ts', hbuffer⟩, hevents⟩ := same_call b ts c
    rw [heq]
    exact ⟨.same ts' hbuffer, hevents⟩
  | reset seq ts hflag hseq hmap hout heq =>
    cases c with
    | timer now =>
      -- there is nothing to time out
      have hbuffer : b.call (.timer now) = (b, []) := by
        simp only [call, onTimer, checkTimeout, hmap, checkTimeoutLoop]
        rw [← hmap]
      have hbuffer' : b'.call (.timer now) = (b', []) := by
        simp only [call, onTimer, checkTimeout, heq, hmap, checkTimeoutLoop]
      rw [hbuffer, hbuffer']
      exact ⟨.reset seq ts hflag hseq hmap hout heq, rfl⟩
    | input clockRate pkt localMs now =>
      have hnext : pkt.seq.toNat = seq.toNat + 1 := by
        have hnext := hcontinues hflag
        rw [Continues, hseq] at hnext
        exact hnext
      have haccept : b.acceptPacket clockRate pkt localMs
          = ({ b with toSeqState := .initSeq pkt.seq, initFlag := true },
              some (⟨b.mediaType, pkt.clone localMs, pkt.seq.toNat, clockRate⟩, true)) := by
        unfold acceptPacket
        simp [hflag]
      have haccept' : b'.acceptPacket clockRate pkt localMs
          = ({ b with toSeqState := .initSeq pkt.seq, initFlag := true, reportLostTs := ts },
              some (⟨b.mediaType, pkt.clone localMs, pkt.seq.toNat, clockRate⟩, false)) := by
        unfold acceptPacket updateSeq
        simp [heq, hseq, updateSeq_next hnext]
      obtain ⟨lost, hbuffer, hevents⟩ := inputRtpPacket_first now haccept
      have hcall' := inputRtpPacket_next now haccept' (by simp only [hout, hnext]) hmap
      change Follows (b.inputRtpPacket clockRate pkt localMs now).1 (b'.inputRtpPacket clockRate pkt localMs now).1 ∧ _
      constructor
      . rw [hbuffer, hcall']
        exact .same ts rfl
      . change (b.inputRtpPacket clockRate pkt localMs now).2.filterMap _
          = (b'.inputRtpPacket clockRate pkt localMs now).2.filterMap _
        rw [hevents, hcall']
        rfl

end Alike

section Run

theorem runCalls_snoc (b : JitterBuffer) (calls : List Call) (c : Call)
    : b.runCalls (calls ++ [c]) = ((b.runCalls calls).call c).1 := by
  rw [runCalls, List.foldl_append]
  rfl

theorem runCalls_append (b : JitterBuffer) (calls calls' : List Call)
    : b.runCalls (calls ++ calls') = (b.runCalls calls).runCalls calls' := by
  rw [runCalls, List.foldl_append]
  rfl

theorem outputsOf_follows (calls : List Call)
    : ∀ {b b' : JitterBuffer}, Follows b b' →
        (∀ before c, before ++ [c] <+: calls → (b.runCalls before).initFlag = false → (b.runCalls before).Continues c) →
          b.outputsOf calls = b'.outputsOf calls := by
  induction calls with
  | nil =>
    intro b b' _ _
    rfl
  | cons c calls ih =>
    intro b b' h hcontinues
    obtain ⟨hfollows, hevents⟩ := follows_call h (hcontinues [] c (List.prefix_append _ _))
    rw [outputsOf, outputsOf, hevents]
    congr 1
    apply ih hfollows
    intro before c' hfront
    apply hcontinues (c :: before) c'
    rw [List.cons_append]
    apply (List.prefix_cons_inj c).mpr hfront

/--
The settings that a call does not change.
-/
def SameSettings (b b' : JitterBuffer) : Prop := b'.mediaType = b.mediaType ∧ b'.bufferTimeout = b.bufferTimeout

theorem sameSettings_checkTimeoutLoop (now : Int) (map : List RtpPacketInfo)
    : ∀ b : JitterBuffer, SameSettings b (b.checkTimeoutLoop now map).1 := by
  induction map with
  | nil =>
    intro b
    exact ⟨rfl, rfl⟩
  | cons p map ih =>
    intro b
    unfold checkTimeoutLoop
    split
    . obtain ⟨lost, events, hlost, _⟩ := reportLost_eq { b with outputSeq := p.extendSeq } now p
      simp only [outputPacket, hlost]
      apply ih { b with outputSeq := p.extendSeq, reportLostTs := lost }
    . split
      . apply ih { b with outputSeq := p.extendSeq }
      . apply ih b

theorem sameSettings_outputContinued (map : List RtpPacketInfo)
    : ∀ b : JitterBuffer, SameSettings b (b.outputContinued map).1 := by
  induction map with
  | nil =>
    intro b
    exact ⟨rfl, rfl⟩
  | cons p map ih =>
    intro b
    unfold outputContinued
    split
    . apply ih { b with outputSeq := p.extendSeq }
    . exact ⟨rfl, rfl⟩

theorem sameSettings_call (b : JitterBuffer) (c : Call) : SameSettings b (b.call c).1 := by
  cases c with
  | timer now => apply sameSettings_checkTimeoutLoop
  | input clockRate pkt localMs now =>
    obtain ⟨seqState, flag, hframe⟩ := acceptPacket_frame b clockRate pkt localMs
    unfold call inputRtpPacket
    rcases hacc : b.acceptPacket clockRate pkt localMs with ⟨b', _ | ⟨info, _ | _⟩⟩
    . simp only [hacc] at hframe ⊢
      rw [hframe]
      exact ⟨rfl, rfl⟩
    . simp only [hacc] at hframe ⊢
      subst hframe
      split
      . apply sameSettings_outputContinued
      . split
        . exact ⟨rfl, rfl⟩
        . apply sameSettings_checkTimeoutLoop
    . simp only [hacc] at hframe ⊢
      obtain ⟨lost, events, hlost, _⟩ := reportLost_eq b' now info
      rw [hframe] at hlost
      simp only [hframe, hlost, outputPacket]
      exact ⟨rfl, rfl⟩

theorem sameSettings_runCalls (b : JitterBuffer) (calls : List Call) : SameSettings b (b.runCalls calls) := by
  induction calls using List.reverseRecOn with
  | nil => exact ⟨rfl, rfl⟩
  | append_singleton calls c ih =>
    rw [runCalls_snoc]
    obtain ⟨htype, htimeout⟩ := sameSettings_call (b.runCalls calls) c
    exact ⟨htype.trans ih.left, htimeout.trans ih.right⟩

theorem updateSeq_reset {s : SeqState} {seq : UInt16} {extendSeq : Nat}
    (h : (s.updateSeq seq).2 = some (extendSeq, true))
    : s.updateSeq seq = (.initSeq seq, some (seq.toNat, true)) := by
  have hseq := seq.toNat_lt
  unfold SeqState.updateSeq at h ⊢
  simp only at h ⊢
  split at h
  . cases h
  . next hdrop =>
    split at h
    . next hjump =>
      split at h
      . next hbad =>
        rw [if_neg hdrop, if_pos hjump, if_pos hbad]
        change (_, some ((0 + seq.toNat) % 2 ^ 32, true)) = _
        rw [Nat.zero_add, Nat.mod_eq_of_lt (by omega)]
      . cases h
    . cases h

/--
Behind a reset that finds an empty map, the buffer waits for the packet behind it as a new buffer that has seen it does.
-/
theorem follows_reset {b b' : JitterBuffer} (hsettings : SameSettings b' b) (hnew : b'.initFlag = false)
    (hmap' : b'.packetsMap = []) {c : Call} (h : b.Resets c) (hmap : b.packetsMap = [])
    : Follows (b.call c).1 (b'.call c).1
        ∧ (b.call c).2.filterMap JitterEvent.output? = (b'.call c).2.filterMap JitterEvent.output? := by
  cases c with
  | timer now => cases h
  | input clockRate pkt localMs now =>
    obtain ⟨hflag, extendSeq, hreset⟩ := h
    have hupdate : b.toSeqState.updateSeq pkt.seq = (.initSeq pkt.seq, some (pkt.seq.toNat, true)) := by
      apply @updateSeq_reset _ _ extendSeq
      apply hreset
    have haccept : b.acceptPacket clockRate pkt localMs
        = ({ b with toSeqState := .initSeq pkt.seq, initFlag := false },
            some (⟨b.mediaType, pkt.clone localMs, pkt.seq.toNat, clockRate⟩, true)) := by
      unfold acceptPacket updateSeq
      simp [hflag, hupdate]
    have haccept' : b'.acceptPacket clockRate pkt localMs
        = ({ b' with toSeqState := .initSeq pkt.seq, initFlag := true },
            some (⟨b.mediaType, pkt.clone localMs, pkt.seq.toNat, clockRate⟩, true)) := by
      unfold acceptPacket
      simp [hnew, hsettings.left]
    obtain ⟨ts, hbuffer, hevents⟩ := inputRtpPacket_first now haccept
    obtain ⟨ts', hbuffer', hevents'⟩ := inputRtpPacket_first now haccept'
    change Follows (b.inputRtpPacket clockRate pkt localMs now).1 (b'.inputRtpPacket clockRate pkt localMs now).1
      ∧ (b.inputRtpPacket clockRate pkt localMs now).2.filterMap _
        = (b'.inputRtpPacket clockRate pkt localMs now).2.filterMap _
    rw [hevents, hevents', hbuffer, hbuffer']
    refine ⟨.reset pkt.seq ts' rfl rfl hmap rfl ?_, rfl⟩
    simp [hsettings.left, hsettings.right, hmap, hmap']

/--
In a run whose steps are all fine the buffer goes on from a reset as a new one does.
-/
theorem resyncs_of_stepOk (mediaType : MediaPktType) (b : JitterBuffer) (hnew : new mediaType = some b)
    (calls : List Call) (hsteps : ∀ before c, before ++ [c] <+: calls → b.StepOk before c)
    : b.Resyncs calls := by
  have hstart : b.initFlag = false ∧ b.packetsMap = [] := by
    unfold new at hnew
    split at hnew
    . cases hnew
      exact ⟨rfl, rfl⟩
    . cases hnew
      exact ⟨rfl, rfl⟩
    . cases hnew
  constructor
  . intro before after c heq hreset p hmem
    have hok := hsteps before c (by simp [heq])
    rw [hok.cleared hreset] at hmem
    cases hmem
  . intro before after c heq hreset
    have hok := hsteps before c (by simp [heq])
    obtain ⟨hfollows, hevents⟩ :=
      follows_reset (sameSettings_runCalls b before) hstart.left hstart.right hreset (hok.cleared hreset)
    rw [outputsOf, outputsOf, hevents]
    congr 1
    apply outputsOf_follows after hfollows
    intro before' c' hfront hflag
    rw [← runCalls_snoc, ← runCalls_append] at hflag ⊢
    apply (hsteps (before ++ [c] ++ before') c' ?_).continues ?_ hflag
    . obtain ⟨rest, hrest⟩ := hfront
      refine ⟨rest, ?_⟩
      rw [heq, ← hrest]
      simp
    . refine ⟨c, by simp, ?_⟩
      cases c with
      | input => trivial
      | timer => cases hreset

end Run

/--
Packet 20001 makes the buffer reset, and is followed by 20002.
-/
theorem resyncs_sample
    : sampleVideo.Resyncs [sampleInput 10 0, sampleInput 20000 1, sampleInput 20001 1, sampleInput 20002 2] := by
  apply resyncs_of_stepOk .video sampleVideo rfl
  apply Interleave.forall_prefix_cons
  . exact ⟨fun _ => by decide, by simp⟩
  iterate 3
    apply Interleave.forall_prefix_cons
    . exact ⟨fun _ => by decide, fun _ => by decide⟩
  apply Interleave.forall_prefix_nil

/--
Packet 12 waits for 11 when packet 20001 makes the buffer reset, and is output behind it.
-/
theorem not_resyncs
    : ¬sampleVideo.Resyncs
        [sampleInput 10 0, sampleInput 12 0, sampleInput 20000 1, sampleInput 20001 1, .timer 500] := by
  intro h
  have hreset : (sampleVideo.runCalls [sampleInput 10 0, sampleInput 12 0, sampleInput 20000 1]).Resets
      (sampleInput 20001 1) := ⟨rfl, 20001, rfl⟩
  have hdropped := h.dropped [sampleInput 10 0, sampleInput 12 0, sampleInput 20000 1] [.timer 500]
    (sampleInput 20001 1) rfl hreset
  revert hdropped
  decide

end JitterBuffer
