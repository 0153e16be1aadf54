import CppStreamer.Format.H264H265Header
import CppStreamer.Net.WebRtc.PackHandleAudio
import Mathlib.Data.List.Chain

/-!
This module contains the way of received packets from the depacketizers to the callback of
`PeerConnection`, and when the times of the media packets there do not run backwards.
-/

/--
The receiving part. The clock rates are of type `int`, and a stream checks that its one is positive.
-/
structure PeerConnection where
  videoClockRate : Int
  audioClockRate : Int
  videoClockRate_pos : 0 < videoClockRate
  audioClockRate_pos : 0 < audioClockRate
  audioClockRate_lt : audioClockRate < 2 ^ 31
  h264Pack : PackHandleH264 := {}
  findKeyframe : Bool := false

namespace PeerConnection

/--
The time in milliseconds, `dts` and the clock rate are signed.
-/
def scale (dts clockRate : Int) : Int := (dts * 1000).tdiv clockRate

/--
The packet that is passed to the callback, if it is. The depacketizer has put a start code in front.
-/
def mediaPacketOutput (pc : PeerConnection) (pkt : MediaPacket) : PeerConnection × Option MediaPacket :=
  match pkt.avType with
  | .video =>
    let dts := scale pkt.dts pc.videoClockRate
    let pkt := { pkt with dts := dts, pts := dts }
    let header := pkt.data.getD ((H264.getNaluTypePos pkt.data).getD 0) 0
    if H264.nalType header = H264.naluTypeAud then (pc, none)
    else if pc.findKeyframe then
      if H264.nalType header = H264.naluTypeIdr then ({ pc with findKeyframe := false }, some pkt)
      else (pc, none)
    else (pc, some pkt)
  | .audio =>
    let dts := scale pkt.dts pc.audioClockRate
    (pc, some { pkt with dts := dts, pts := dts })
  | _ => (pc, none)

def onPackEvents (pc : PeerConnection) : List PackEvent → PeerConnection × List MediaPacket
  | [] => (pc, [])
  | .packHandleReset _ :: events => { pc with findKeyframe := true }.onPackEvents events
  | .mediaPacketOutput pkt :: events =>
    let (pc, passed) := pc.mediaPacketOutput pkt
    let (pc, rest) := pc.onPackEvents events
    (pc, passed.toList ++ rest)

/--
A packet of the jitter buffer.
-/
def rtpPacketOutput (pc : PeerConnection) (pkt : RtpPacketInfo) (now : Int)
    : PeerConnection × List MediaPacket :=
  match pkt.mediaType with
  | .video =>
    let (h264Pack, events) := pc.h264Pack.inputRtpPacket pkt now
    { pc with h264Pack := h264Pack }.onPackEvents events
  | .audio => pc.onPackEvents [PackHandleAudio.inputRtpPacket pkt]
  | _ => (pc, [])

/--
A packet with its true time, of which the timestamp has the lower 32 bits.
-/
structure TimedPacket where
  info : RtpPacketInfo
  time : Nat
  timestamp_eq : info.pkt.timestamp.toNat = time % 2 ^ 32

inductive Call where
  | rtp (pkt : TimedPacket) (now : Int)
  -- the timer of the H.264 depacketizer
  | timer (now : Int)

def call (pc : PeerConnection) : Call → PeerConnection × List MediaPacket
  | .rtp pkt now => pc.rtpPacketOutput pkt.info now
  | .timer now => ({ pc with h264Pack := pc.h264Pack.onTimer now }, [])

/--
What is passed to the callback.
-/
def run (pc : PeerConnection) : List Call → List MediaPacket
  | [] => []
  | c :: calls =>
    let (pc, passed) := pc.call c
    passed ++ pc.run calls

/--
The true times of the packets of a stream.
-/
def times (kind : MediaPktType) : List Call → List Nat
  | [] => []
  | .rtp pkt _ :: calls =>
    if pkt.info.mediaType = kind then pkt.time :: times kind calls else times kind calls
  | .timer _ :: calls => times kind calls

/--
The times of the media packets of a stream.
-/
def dtsOf (kind : MediaPktType) (passed : List MediaPacket) : List Int :=
  (passed.filter (·.avType = kind)).map (·.dts)

/--
The true time does not run backwards, and its steps are below 2^31.
-/
def Forwards (times : List Nat) : Prop := times.IsChain fun t t' => t ≤ t' ∧ t' < t + 2 ^ 31

/--
No step takes the timestamp across a wrap.
-/
def NoWrap (times : List Nat) : Prop := times.IsChain fun t t' => t / 2 ^ 32 = t' / 2 ^ 32

section Depacketizer

open PackHandleH264

/--
Only the last fragment of a NALU is marked as its end, and that one is not kept.
-/
def NoEnd (queue : List RtpPacketInfo) : Prop := ∀ p ∈ queue, getEndBit p.pkt.payload = false

theorem demuxFuaLoop_concat {queue : List RtpPacketInfo} {last : RtpPacketInfo} (hqueue : NoEnd queue)
    (hlast : getEndBit last.pkt.payload = true)
    : ∀ f : Fua, (demuxFuaLoop f (queue ++ [last])).fst = []
        ∧ ∀ nalu dts, (demuxFuaLoop f (queue ++ [last])).snd = some (nalu, dts) →
            dts = last.pkt.timestamp.toNat := by
  induction queue with
  | nil =>
    intro f
    rw [List.nil_append, demuxFuaLoop]
    simp only [hlast, if_true, true_and]
    intro nalu dts h
    have hdts : (f.push last.pkt).dts = last.pkt.timestamp.toNat := by
      unfold Fua.push
      simp only
      split
      . split
        . rfl
        . rfl
      . split
        . rfl
        . rfl
    split at h
    . cases h
      exact hdts
    . cases h
  | cons p queue ih =>
    intro f
    rw [List.cons_append, demuxFuaLoop]
    simp only [hqueue p (List.mem_cons_self ..), Bool.false_eq_true, if_false]
    exact ih (fun p hp => hqueue p (List.mem_cons_of_mem _ hp)) _

theorem demuxFuaLoop_noEnd {queue : List RtpPacketInfo} (hqueue : NoEnd queue)
    : ∀ f : Fua, demuxFuaLoop f queue = ([], none) := by
  induction queue with
  | nil =>
    intro f
    rfl
  | cons p queue ih =>
    intro f
    rw [demuxFuaLoop]
    simp only [hqueue p (List.mem_cons_self ..), Bool.false_eq_true, if_false]
    exact ih (fun p hp => hqueue p (List.mem_cons_of_mem _ hp)) _

/--
What a packet comes to: nothing that ends a NALU is left in the queue, and what is output has the time of
the packet.
-/
structure Current (pkt : RtpPacketInfo) (result : PackHandleH264 × List PackEvent) : Prop where
  noEnd : NoEnd result.fst.packetsQueue
  output : ∀ out, PackEvent.mediaPacketOutput out ∈ result.snd →
    out.avType = .video ∧ out.dts = pkt.pkt.timestamp.toNat

variable {h : PackHandleH264} {pkt : RtpPacketInfo}

theorem current_nil (hqueue : NoEnd h.packetsQueue) : Current pkt (h, []) where
  noEnd := hqueue
  output := by
    intro out hout
    cases hout

theorem current_reportLost (pkt : RtpPacketInfo) (hqueue : NoEnd h.packetsQueue) (now : Int)
    : Current pkt (h.reportLost pkt now) := by
  unfold reportLost
  split
  . constructor
    . exact hqueue
    . intro out hout
      cases List.mem_singleton.mp hout
  . exact current_nil hqueue

theorem noEnd_checkFuaTimeout (hqueue : NoEnd h.packetsQueue) (now : Int)
    : NoEnd (h.checkFuaTimeout now).packetsQueue := by
  intro p hp
  exact hqueue p ((List.dropWhile_sublist _).mem hp)

theorem noEnd_nil : NoEnd [] := by
  intro p hp
  cases hp

theorem current_outputFua {queue : List RtpPacketInfo} (hqueue : NoEnd queue)
    (heq : h.packetsQueue = queue ++ [pkt]) (now : Int)
    : Current pkt (h.outputFua pkt now) := by
  unfold outputFua
  rw [heq]
  cases hend : getEndBit pkt.pkt.payload with
  | true =>
    obtain ⟨hrest, hdts⟩ := demuxFuaLoop_concat hqueue hend {}
    cases hloop : demuxFuaLoop {} (queue ++ [pkt]) with
    | mk rest nalu =>
      rw [hloop] at hrest hdts
      simp only at hrest hdts
      subst hrest
      cases nalu with
      | none =>
        have hlost := current_reportLost (h := { h with packetsQueue := [] }) pkt noEnd_nil now
        exact ⟨hlost.noEnd, hlost.output⟩
      | some nalu =>
        constructor
        . exact noEnd_nil
        . intro out hout
          cases List.mem_singleton.mp hout
          exact ⟨rfl, hdts _ _ rfl⟩
  | false =>
    have hnone : NoEnd (queue ++ [pkt]) := by
      intro p hp
      rcases List.mem_append.mp hp with hp | hp
      . exact hqueue p hp
      . cases List.mem_singleton.mp hp
        exact hend
    rw [demuxFuaLoop_noEnd hnone]
    have hlost := current_reportLost (h := { h with packetsQueue := [] }) pkt noEnd_nil now
    exact ⟨hlost.noEnd, hlost.output⟩

theorem current_push {queue : List RtpPacketInfo} (hqueue : NoEnd queue)
    (heq : h.packetsQueue = queue ++ [pkt]) (hend : getEndBit pkt.pkt.payload = false) (now : Int)
    : Current pkt (h.checkFuaTimeout now, []) := by
  apply current_nil
  apply noEnd_checkFuaTimeout
  rw [heq]
  intro p hp
  rcases List.mem_append.mp hp with hp | hp
  . exact hqueue p hp
  . cases List.mem_singleton.mp hp
    exact hend

theorem current_inputFua (hqueue : NoEnd h.packetsQueue) (now : Int)
    : Current pkt (h.inputFua pkt now) := by
  have hreset := current_reportLost (h := h.resetRtpFua) pkt noEnd_nil now
  unfold inputFua
  cases hstart : getStartBit pkt.pkt.payload with
  | true =>
    cases hend : getEndBit pkt.pkt.payload with
    | true => exact hreset
    | false =>
      -- the first fragment, behind an empty queue
      simp only [Bool.false_eq_true, and_false, false_and, if_false, if_true, true_and]
      split
      . exact current_outputFua noEnd_nil rfl now
      . exact current_push noEnd_nil rfl hend now
  | false =>
    cases hend : getEndBit pkt.pkt.payload with
    | true =>
      simp only [Bool.false_eq_true, false_and, if_false, true_and, if_true]
      split
      . exact hreset
      . split
        . exact current_outputFua hqueue rfl now
        -- an end without a start has been sorted out
        . next hnot hboth => exact absurd ⟨by simpa using hnot, trivial⟩ hboth
    | false =>
      simp only [Bool.false_eq_true, false_and, if_false]
      split
      . exact current_outputFua hqueue rfl now
      . exact current_push hqueue rfl hend now

theorem current_stapALoop (payload : List UInt8) (dts : Int)
    : ∀ (offsets : List Nat) (out : MediaPacket),
        PackEvent.mediaPacketOutput out ∈ (demuxStapALoop payload dts offsets).fst →
        out.avType = .video ∧ out.dts = dts
  | [], out, hout => by cases hout
  | [_], out, hout => by cases hout
  | startOffset :: nextOffset :: offsets, out, hout => by
    rw [demuxStapALoop] at hout
    split at hout
    . cases hout
    . rcases List.mem_cons.mp hout with heq | hout
      . cases heq
        exact ⟨rfl, rfl⟩
      . exact current_stapALoop payload dts (nextOffset :: offsets) out hout

theorem current_demuxStapA (hqueue : NoEnd h.packetsQueue) (now : Int)
    : Current pkt (match demuxStapA pkt with
        | (events, true) => (h, events)
        | (events, false) =>
          let (h, lost) := h.reportLost pkt now
          (h, events ++ lost)) := by
  have houtput : ∀ out, PackEvent.mediaPacketOutput out ∈ (demuxStapA pkt).fst →
      out.avType = .video ∧ out.dts = pkt.pkt.timestamp.toNat := by
    intro out hout
    unfold demuxStapA at hout
    simp only at hout
    split at hout
    . cases hout
    . split at hout
      . cases hout
      . exact current_stapALoop _ _ _ out hout
  have hlost := current_reportLost (h := h) pkt hqueue now
  cases hdemux : demuxStapA pkt with
  | mk events ret =>
    rw [hdemux] at houtput
    cases ret with
    | true => exact ⟨hqueue, houtput⟩
    | false =>
      refine ⟨hlost.noEnd, ?_⟩
      intro out hout
      rcases List.mem_append.mp hout with hout | hout
      . exact houtput out hout
      . exact hlost.output out hout

theorem current_inputPayload (hqueue : NoEnd h.packetsQueue) (now : Int)
    : Current pkt (h.inputPayload pkt now) := by
  unfold inputPayload
  simp only
  split
  . constructor
    . exact hqueue
    . intro out hout
      cases List.mem_singleton.mp hout
      exact ⟨rfl, rfl⟩
  split
  . exact current_inputFua hqueue now
  split
  . exact current_demuxStapA hqueue now
  . exact current_nil hqueue

theorem current_inputRtpPacket (pkt : RtpPacketInfo) (hqueue : NoEnd h.packetsQueue) (now : Int)
    : Current pkt (h.inputRtpPacket pkt now) := by
  unfold inputRtpPacket
  split
  . let cleared := { h with packetsQueue := [], startFlag := false, endFlag := false }
    have hlost := current_reportLost (h := cleared) pkt noEnd_nil now
    exact ⟨hlost.noEnd, hlost.output⟩
  . exact current_inputPayload (h := { h with initFlag := true, lastExtendSeq := pkt.extendSeq }) hqueue now

end Depacketizer

section Callback

def clockRate (pc : PeerConnection) : MediaPktType → Int
  | .audio => pc.audioClockRate
  | _ => pc.videoClockRate

theorem clockRate_pos (pc : PeerConnection) (kind : MediaPktType) : 0 < pc.clockRate kind := by
  cases kind with
  | audio => exact pc.audioClockRate_pos
  | unknown | video | movbox | metadata => exact pc.videoClockRate_pos

theorem mediaPacketOutput_frame (pc : PeerConnection) (pkt : MediaPacket)
    : ∃ findKeyframe, (pc.mediaPacketOutput pkt).fst = { pc with findKeyframe := findKeyframe } := by
  unfold mediaPacketOutput
  split
  . simp only
    split
    . exact ⟨_, rfl⟩
    split
    . split
      . exact ⟨_, rfl⟩
      . exact ⟨_, rfl⟩
    . exact ⟨_, rfl⟩
  . exact ⟨_, rfl⟩
  . exact ⟨_, rfl⟩

theorem mediaPacketOutput_passed {pc : PeerConnection} {pkt passed : MediaPacket}
    (h : (pc.mediaPacketOutput pkt).snd = some passed)
    : passed.avType = pkt.avType ∧ passed.dts = scale pkt.dts (pc.clockRate pkt.avType) := by
  unfold mediaPacketOutput at h
  split at h
  . next hvideo =>
    rw [hvideo]
    simp only at h
    split at h
    . cases h
    split at h
    . split at h
      . cases h
        exact ⟨hvideo, rfl⟩
      . cases h
    . cases h
      exact ⟨hvideo, rfl⟩
  . next haudio =>
    rw [haudio]
    cases h
    exact ⟨haudio, rfl⟩
  . cases h

theorem onPackEvents_frame (events : List PackEvent)
    : ∀ pc : PeerConnection, ∃ findKeyframe,
        (pc.onPackEvents events).fst = { pc with findKeyframe := findKeyframe } := by
  induction events with
  | nil =>
    intro pc
    exact ⟨_, rfl⟩
  | cons event events ih =>
    intro pc
    cases event with
    | packHandleReset _ => exact ih { pc with findKeyframe := true }
    | mediaPacketOutput pkt =>
      obtain ⟨_, hframe⟩ := pc.mediaPacketOutput_frame pkt
      obtain ⟨findKeyframe, hrest⟩ := ih (pc.mediaPacketOutput pkt).fst
      rw [hframe] at hrest
      refine ⟨findKeyframe, ?_⟩
      change ((pc.mediaPacketOutput pkt).fst.onPackEvents events).fst = _
      rw [hframe]
      exact hrest

theorem onPackEvents_passed (events : List PackEvent)
    : ∀ (pc : PeerConnection) (passed : MediaPacket), passed ∈ (pc.onPackEvents events).snd →
        ∃ pkt, .mediaPacketOutput pkt ∈ events ∧ passed.avType = pkt.avType
          ∧ passed.dts = scale pkt.dts (pc.clockRate pkt.avType) := by
  induction events with
  | nil =>
    intro pc passed h
    cases h
  | cons event events ih =>
    intro pc passed h
    cases event with
    | packHandleReset _ =>
      obtain ⟨pkt, hmem, htype, hdts⟩ := ih { pc with findKeyframe := true } passed h
      exact ⟨pkt, List.mem_cons_of_mem _ hmem, htype, hdts⟩
    | mediaPacketOutput pkt =>
      change passed ∈ (pc.mediaPacketOutput pkt).snd.toList
        ++ ((pc.mediaPacketOutput pkt).fst.onPackEvents events).snd at h
      rcases List.mem_append.mp h with h | h
      . obtain ⟨htype, hdts⟩ := mediaPacketOutput_passed (Option.mem_toList.mp h)
        exact ⟨pkt, List.mem_cons_self .., htype, hdts⟩
      . obtain ⟨_, hframe⟩ := pc.mediaPacketOutput_frame pkt
        obtain ⟨pkt', hmem, htype, hdts⟩ := ih _ passed h
        rw [hframe] at hdts
        exact ⟨pkt', List.mem_cons_of_mem _ hmem, htype, hdts⟩

/--
What the calls keep: the clock rates, and a queue without an end.
-/
structure Keeps (pc pc' : PeerConnection) : Prop where
  clockRate : pc'.clockRate = pc.clockRate
  noEnd : NoEnd pc'.h264Pack.packetsQueue

theorem keeps_call {pc : PeerConnection} (hqueue : NoEnd pc.h264Pack.packetsQueue) (c : Call)
    : pc.Keeps (pc.call c).fst := by
  cases c with
  | timer now => exact ⟨rfl, noEnd_checkFuaTimeout hqueue now⟩
  | rtp pkt now =>
    unfold call rtpPacketOutput
    simp only
    split
    . have hcurrent := current_inputRtpPacket pkt.info hqueue now
      let pc' := { pc with h264Pack := (pc.h264Pack.inputRtpPacket pkt.info now).fst }
      obtain ⟨_, hframe⟩ := onPackEvents_frame (pc.h264Pack.inputRtpPacket pkt.info now).snd pc'
      change pc.Keeps (pc'.onPackEvents _).fst
      rw [hframe]
      exact ⟨rfl, hcurrent.noEnd⟩
    . obtain ⟨_, hframe⟩ := onPackEvents_frame [PackHandleAudio.inputRtpPacket pkt.info] pc
      rw [hframe]
      exact ⟨rfl, hqueue⟩
    . exact ⟨rfl, hqueue⟩

/--
What is passed on at a packet belongs to its stream and has its time.
-/
theorem passed_call {pc : PeerConnection} (hqueue : NoEnd pc.h264Pack.packetsQueue) {pkt : TimedPacket}
    {now : Int} {passed : MediaPacket} (h : passed ∈ (pc.call (.rtp pkt now)).snd)
    : passed.avType = pkt.info.mediaType
        ∧ passed.dts = scale (pkt.time % 2 ^ 32 : Nat) (pc.clockRate pkt.info.mediaType) := by
  unfold call rtpPacketOutput at h
  simp only at h
  split at h
  . next hvideo =>
    have hcurrent := current_inputRtpPacket pkt.info hqueue now
    obtain ⟨out, hmem, htype, hdts⟩ := onPackEvents_passed _ _ _ h
    obtain ⟨hout, htime⟩ := hcurrent.output out hmem
    rw [hout] at htype hdts
    rw [htime] at hdts
    rw [hvideo, ← pkt.timestamp_eq]
    exact ⟨htype, hdts⟩
  . next haudio =>
    obtain ⟨out, hmem, htype, hdts⟩ := onPackEvents_passed _ _ _ h
    cases List.mem_singleton.mp hmem
    rw [haudio, ← pkt.timestamp_eq]
    exact ⟨htype, hdts⟩
  . cases h

end Callback

section Order

theorem scale_eq (dts : Nat) {clockRate : Int} : scale dts clockRate = (dts * 1000 : Int) / clockRate := by
  unfold scale
  apply Int.tdiv_eq_ediv_of_nonneg
  omega

theorem scale_le {dts dts' : Nat} {clockRate : Int} (hpos : 0 < clockRate) (h : dts ≤ dts')
    : scale dts clockRate ≤ scale dts' clockRate := by
  rw [scale_eq, scale_eq]
  apply Int.ediv_le_ediv hpos
  omega

theorem dtsOf_append (kind : MediaPktType) (passed passed' : List MediaPacket)
    : dtsOf kind (passed ++ passed') = dtsOf kind passed ++ dtsOf kind passed' := by
  unfold dtsOf
  rw [List.filter_append, List.map_append]

theorem mem_dtsOf {kind : MediaPktType} {passed : List MediaPacket} {dts : Int}
    : dts ∈ dtsOf kind passed ↔ ∃ pkt ∈ passed, pkt.avType = kind ∧ pkt.dts = dts := by
  unfold dtsOf
  simp only [List.mem_map, List.mem_filter, decide_eq_true_eq, and_assoc]

/--
Each time that is passed on is that of a packet.
-/
theorem mem_dtsOf_run {kind : MediaPktType} (calls : List Call)
    : ∀ {pc : PeerConnection}, NoEnd pc.h264Pack.packetsQueue →
        ∀ {dts : Int}, dts ∈ dtsOf kind (pc.run calls) →
          ∃ time ∈ times kind calls, dts = scale (time % 2 ^ 32 : Nat) (pc.clockRate kind) := by
  induction calls with
  | nil =>
    intro pc _ dts h
    cases h
  | cons c calls ih =>
    intro pc hqueue dts h
    have hkeeps := keeps_call hqueue c
    change dts ∈ dtsOf kind ((pc.call c).snd ++ (pc.call c).fst.run calls) at h
    rw [dtsOf_append] at h
    rcases List.mem_append.mp h with h | h
    . obtain ⟨passed, hmem, htype, hdts⟩ := mem_dtsOf.mp h
      cases c with
      | timer now => cases hmem
      | rtp pkt now =>
        obtain ⟨hkind, htime⟩ := passed_call hqueue hmem
        rw [htype] at hkind
        rw [← hkind, hdts] at htime
        refine ⟨pkt.time, ?_, htime⟩
        rw [times, if_pos hkind.symm]
        apply List.mem_cons_self
    . obtain ⟨time, hmem, hdts⟩ := ih hkeeps.noEnd h
      rw [hkeeps.clockRate] at hdts
      refine ⟨time, ?_, hdts⟩
      cases c with
      | timer now => exact hmem
      | rtp pkt now =>
        rw [times]
        split
        . exact List.mem_cons_of_mem _ hmem
        . exact hmem

/--
Without a wrap the times of all packets are in order, also as timestamps.
-/
theorem pairwise_times {ts : List Nat} (hforwards : Forwards ts) (hwrap : NoWrap ts)
    : ts.Pairwise fun t t' => t % 2 ^ 32 ≤ t' % 2 ^ 32 := by
  have htrans : Trans (fun t t' : Nat => t / 2 ^ 32 = t' / 2 ^ 32)
      (fun t t' : Nat => t / 2 ^ 32 = t' / 2 ^ 32) (fun t t' : Nat => t / 2 ^ 32 = t' / 2 ^ 32) :=
    ⟨Eq.trans⟩
  have hle : ts.Pairwise (· ≤ ·) := (hforwards.imp fun _ _ h => h.left).pairwise
  have hcycle : ts.Pairwise fun t t' => t / 2 ^ 32 = t' / 2 ^ 32 := hwrap.pairwise
  apply (hle.and hcycle).imp
  intro t t' ⟨_, _⟩
  omega

theorem dts_pairwise {kind : MediaPktType} (calls : List Call)
    : ∀ {pc : PeerConnection}, NoEnd pc.h264Pack.packetsQueue →
        (times kind calls).Pairwise (fun t t' => t % 2 ^ 32 ≤ t' % 2 ^ 32) →
        (dtsOf kind (pc.run calls)).Pairwise (· ≤ ·) := by
  induction calls with
  | nil =>
    intro pc _ _
    exact List.Pairwise.nil
  | cons c calls ih =>
    intro pc hqueue htimes
    have hkeeps := keeps_call hqueue c
    change (dtsOf kind ((pc.call c).snd ++ (pc.call c).fst.run calls)).Pairwise (· ≤ ·)
    rw [dtsOf_append]
    cases c with
    | timer now => exact ih hkeeps.noEnd htimes
    | rtp pkt now =>
      rw [times] at htimes
      by_cases hkind : pkt.info.mediaType = kind
      . rw [if_pos hkind, List.pairwise_cons] at htimes
        -- all that is passed on at the packet has its time
        have hown : ∀ dts ∈ dtsOf kind (pc.call (.rtp pkt now)).snd,
            dts = scale (pkt.time % 2 ^ 32 : Nat) (pc.clockRate kind) := by
          intro dts hmem
          obtain ⟨passed, hmem, _, hdts⟩ := mem_dtsOf.mp hmem
          rw [← hdts, ← hkind]
          exact (passed_call hqueue hmem).right
        apply List.pairwise_append.mpr
        refine ⟨?_, ih hkeeps.noEnd htimes.right, ?_⟩
        . apply List.pairwise_of_forall_mem_list
          intro a ha b hb
          exact Int.le_of_eq ((hown a ha).trans (hown b hb).symm)
        . intro a ha b hb
          obtain ⟨time, hmem, hdts⟩ := mem_dtsOf_run calls hkeeps.noEnd hb
          rw [hown a ha, hdts, hkeeps.clockRate]
          exact scale_le (pc.clockRate_pos kind) (htimes.left time hmem)
      . rw [if_neg hkind] at htimes
        have hnone : dtsOf kind (pc.call (.rtp pkt now)).snd = [] := by
          apply List.eq_nil_iff_forall_not_mem.mpr
          intro dts hmem
          obtain ⟨passed, hmem, htype, _⟩ := mem_dtsOf.mp hmem
          exact hkind ((passed_call hqueue hmem).left.symm.trans htype)
        rw [hnone]
        exact ih hkeeps.noEnd htimes

/--
Each audio packet is passed on, with its time.
-/
theorem dtsOf_audio (calls : List Call)
    : ∀ {pc : PeerConnection}, NoEnd pc.h264Pack.packetsQueue →
        dtsOf .audio (pc.run calls)
          = (times .audio calls).map fun time => scale (time % 2 ^ 32 : Nat) pc.audioClockRate := by
  induction calls with
  | nil =>
    intro pc _
    rfl
  | cons c calls ih =>
    intro pc hqueue
    have hkeeps := keeps_call hqueue c
    have hrate : (pc.call c).fst.audioClockRate = pc.audioClockRate := congrFun hkeeps.clockRate .audio
    change dtsOf .audio ((pc.call c).snd ++ (pc.call c).fst.run calls) = _
    rw [dtsOf_append, ih hkeeps.noEnd, hrate]
    cases c with
    | timer now => rfl
    | rtp pkt now =>
      rw [times]
      by_cases hkind : pkt.info.mediaType = .audio
      . rw [if_pos hkind, List.map_cons, ← pkt.timestamp_eq]
        unfold call rtpPacketOutput
        simp only [hkind]
        rfl
      . rw [if_neg hkind]
        have hnone : dtsOf .audio (pc.call (.rtp pkt now)).snd = [] := by
          apply List.eq_nil_iff_forall_not_mem.mpr
          intro dts hmem
          obtain ⟨passed, hmem, htype, _⟩ := mem_dtsOf.mp hmem
          exact hkind ((passed_call hqueue hmem).left.symm.trans htype)
        rw [hnone]
        rfl

/--
A step across a wrap takes the time back: it is more than any clock rate.
-/
theorem scale_wrap {t t' : Nat} {clockRate : Int} (hpos : 0 < clockRate) (hlt : clockRate < 2 ^ 31)
    (hle : t ≤ t') (hstep : t' < t + 2 ^ 31) (hwrap : t / 2 ^ 32 ≠ t' / 2 ^ 32)
    : scale (t' % 2 ^ 32 : Nat) clockRate < scale (t % 2 ^ 32 : Nat) clockRate := by
  have hback : (t' % 2 ^ 32 : Nat) + 2 ^ 31 < (t % 2 ^ 32 : Nat) := by omega
  rw [scale_eq, scale_eq]
  apply Int.lt_of_add_one_le
  apply Int.le_ediv_of_mul_le hpos
  have hdiv := Int.ediv_mul_le ((t' % 2 ^ 32 : Nat) * 1000 : Int) (by omega : clockRate ≠ 0)
  rw [Int.add_mul]
  omega

theorem noWrap_of_scale {ts : List Nat} {clockRate : Int} (hpos : 0 < clockRate) (hlt : clockRate < 2 ^ 31)
    (hforwards : Forwards ts)
    (hscale : (ts.map fun time => scale (time % 2 ^ 32 : Nat) clockRate).Pairwise (· ≤ ·))
    : NoWrap ts := by
  have hchain := (List.isChain_map _).mp hscale.isChain
  apply List.isChain_iff_forall_rel_of_append_cons_cons.mpr
  intro t t' before behind heq
  obtain ⟨hle, hstep⟩ := List.isChain_iff_forall_rel_of_append_cons_cons.mp hforwards heq
  have horder := List.isChain_iff_forall_rel_of_append_cons_cons.mp hchain heq
  by_contra hwrap
  exact absurd horder (Int.not_le.mpr (scale_wrap hpos hlt hle hstep hwrap))

/--
The media time of a stream does not run backwards if no step takes its timestamps across a wrap, and for
audio only then.
-/
theorem dts_forwards (pc : PeerConnection) (hstart : pc.h264Pack.packetsQueue = []) (calls : List Call)
    : (∀ kind, Forwards (times kind calls) → NoWrap (times kind calls) →
        (dtsOf kind (pc.run calls)).Pairwise (· ≤ ·))
      ∧ (Forwards (times .audio calls) → (dtsOf .audio (pc.run calls)).Pairwise (· ≤ ·) →
        NoWrap (times .audio calls)) := by
  have hqueue : NoEnd pc.h264Pack.packetsQueue := by
    rw [hstart]
    exact noEnd_nil
  constructor
  . intro kind hforwards hwrap
    exact dts_pairwise calls hqueue (pairwise_times hforwards hwrap)
  . intro hforwards hdts
    rw [dtsOf_audio calls hqueue] at hdts
    exact noWrap_of_scale pc.audioClockRate_pos pc.audioClockRate_lt hforwards hdts

/--
Opus frames of 20 ms.
-/
def opusPacket (seq : Nat) (time : Nat) : TimedPacket where
  info :=
    { mediaType := .audio
      pkt :=
        { marker := true
          payloadType := 111
          seq := UInt16.ofNat seq
          timestamp := UInt32.ofNat time
          ssrc := 1
          payload := [0xfc, 0xff, 0xfe] }
      extendSeq := seq
      clockRate := 48000 }
  time := time
  timestamp_eq := UInt32.toNat_ofNat'

def sampleConnection : PeerConnection where
  videoClockRate := 90000
  audioClockRate := 48000
  videoClockRate_pos := by decide
  audioClockRate_pos := by decide
  audioClockRate_lt := by decide

theorem dts_forwards_sample
    : (dtsOf .audio (sampleConnection.run [.rtp (opusPacket 1 0) 0, .rtp (opusPacket 2 960) 20])).Pairwise
        (· ≤ ·) := by
  apply (dts_forwards sampleConnection rfl _).left
  . exact .cons_cons ⟨by decide, by decide⟩ (.singleton 960)
  . exact .cons_cons (by decide) (.singleton 960)

/--
The timestamp of the second frame is 0 again.
-/
theorem not_dts_forwards
    : let calls := [.rtp (opusPacket 1 (2 ^ 32 - 960)) 0, .rtp (opusPacket 2 (2 ^ 32)) 20]
      Forwards (times .audio calls)
        ∧ ¬(dtsOf .audio (sampleConnection.run calls)).Pairwise (· ≤ ·) := by
  refine ⟨.cons_cons ⟨by decide, by decide⟩ (.singleton _), ?_⟩
  rw [dtsOf_audio _ noEnd_nil]
  change ¬[scale ((2 ^ 32 - 960) % 2 ^ 32 : Nat) 48000, scale (2 ^ 32 % 2 ^ 32 : Nat) 48000].Pairwise (· ≤ ·)
  decide

end Order

end PeerConnection
