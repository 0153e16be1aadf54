import CppStreamer.Net.WebRtc.H264RoundTrip
import CppStreamer.Net.WebRtc.InOrderDelivery
import CppStreamer.Net.WebRtc.SendBuffer
import CppStreamer.Net.WebRtc.VideoReceiver

/-!
This module contains the way of a video stream as a whole: the packets of `RtcSendStream`, which arrive in whatever order
and some of them more than once, come out of `JitterBuffer` and `PackHandleH264` as the NALUs that were sent.
-/

open ByteStream RtpH264Pack
open JitterBuffer (IsPacket Outputs Ordered Near)

namespace RtpPacket

def fields (pkt : RtpPacket) : RtpFields where
  first := 0x80
  second := (if pkt.marker then 0x80 else 0) ||| (pkt.payloadType &&& 0x7f)
  seq := write2Bytes pkt.seq.toNat
  timestamp := write4Bytes pkt.timestamp.toNat
  ssrc := write4Bytes pkt.ssrc.toNat
  rest := []
  payload := pkt.payload
  length_seq := rfl
  length_timestamp := rfl
  length_ssrc := rfl

theorem bytes_fields (pkt : RtpPacket) : pkt.fields.bytes = pkt.bytes := by
  simp [RtpFields.bytes, RtpFields.header, RtpFields.fixed, fields, bytes]

theorem marker_second : ∀ type : UInt8, ((0x80 ||| (type &&& 0x7f)) &&& 0x80 ≠ 0)
    ∧ ¬((0 ||| (type &&& 0x7f)) &&& 0x80 ≠ 0) := by
  apply forall_of_bitVec
  decide

theorem type_second : ∀ type : UInt8, type < 0x80 → (0x80 ||| (type &&& 0x7f)) &&& 0x7f = type
    ∧ (0 ||| (type &&& 0x7f)) &&& 0x7f = type := by
  apply forall_of_bitVec
  decide

theorem type_fields (pkt : RtpPacket) (htype : pkt.payloadType < 0x80) : pkt.fields.second &&& 0x7f = pkt.payloadType := by
  have hsecond := type_second pkt.payloadType htype
  unfold fields
  cases pkt.marker with
  | true => exact hsecond.left
  | false => exact hsecond.right

theorem parse_eq (pkt : RtpPacket) (hfits : Fits pkt) (htype : pkt.payloadType < 0x80) (localMs : Int)
    : RtpPacket.parse pkt.bytes localMs = some (pkt.clone localMs) := by
  obtain ⟨hpos, hlen⟩ := hfits
  have hbytes : pkt.bytes.length ≤ rtpPacketMaxSize := by
    rw [length_bytes]
    unfold kPayloadMaxSize at hlen
    unfold rtpPacketMaxSize
    omega
  have hpayload : (⟨12, pkt.payload.length, 0⟩ : RtpLayout).payload = 12 + pkt.fields.rest.length := rfl
  have hdata := RtpFields.ofData_bytes (f := pkt.fields) [] hpayload rfl localMs
  rw [List.append_nil, bytes_fields] at hdata
  have hmarker := marker_second pkt.payloadType
  unfold parse
  rw [pkt.parse_bytes hpos hbytes, Option.map_some, hdata, pkt.type_fields htype]
  unfold fields clone
  simp only [read2Bytes_write2Bytes_of_lt pkt.seq.toNat_lt, read4Bytes_write4Bytes_of_lt pkt.timestamp.toNat_lt,
    read4Bytes_write4Bytes_of_lt pkt.ssrc.toNat_lt, UInt16.ofNat_toNat, UInt32.ofNat_toNat]
  cases hmark : pkt.marker with
  | true =>
    simp only [if_true, decide_eq_true hmarker.left]
  | false =>
    simp only [Bool.false_eq_true, if_false, decide_eq_false hmarker.right]

end RtpPacket

namespace RtcSendStream

structure Sends (s : RtcSendStream) (pkts : List RtpPacket) (s' : RtcSendStream) : Prop where
  seq : ∀ i pkt, pkts[i]? = some pkt → pkt.seq = s.seq + .ofNat i
  next : s'.seq = s.seq + .ofNat pkts.length
  ssrc : s'.ssrc = s.ssrc
  pt : s'.pt = s.pt
  clockRate : s'.clockRate = s.clockRate
  packets : ∀ pkt ∈ pkts, pkt.ssrc = s.ssrc ∧ pkt.payloadType = s.pt ∧ Fits pkt

variable {s s' s'' : RtcSendStream} {pkts pkts' : List RtpPacket}

theorem sends_nil (hseq : s'.seq = s.seq) (hssrc : s'.ssrc = s.ssrc) (hpt : s'.pt = s.pt)
    (hrate : s'.clockRate = s.clockRate) : s.Sends [] s' := by
  refine ⟨?_, ?_, hssrc, hpt, hrate, ?_⟩
  . intro i pkt hpkt
    cases hpkt
  . rw [hseq]
    exact (UInt16.add_zero s.seq).symm
  . intro pkt hpkt
    cases hpkt

theorem Sends.append (h : s.Sends pkts s') (h' : s'.Sends pkts' s'') : s.Sends (pkts ++ pkts') s'' := by
  refine ⟨?_, ?_, h'.ssrc.trans h.ssrc, h'.pt.trans h.pt, h'.clockRate.trans h.clockRate, ?_⟩
  . intro i pkt hpkt
    by_cases hlt : i < pkts.length
    . rw [List.getElem?_append_left hlt] at hpkt
      exact h.seq i pkt hpkt
    . rw [List.getElem?_append_right (by omega)] at hpkt
      rw [h'.seq _ pkt hpkt, h.next, UInt16.add_assoc, ← UInt16.ofNat_add]
      congr 2
      omega
  . rw [h'.next, h.next, List.length_append, UInt16.add_assoc, ← UInt16.ofNat_add]
  . intro pkt hpkt
    rcases List.mem_append.mp hpkt with hpkt | hpkt
    . exact h.packets pkt hpkt
    . rw [← h.ssrc, ← h.pt]
      exact h'.packets pkt hpkt

theorem sends_one (s : RtcSendStream) (ts : UInt32) {pkt : RtpPacket} (hfits : Fits pkt)
    : s.Sends [(s.sendVideoRtpPacket ts pkt).2] (s.sendVideoRtpPacket ts pkt).1 := by
  refine ⟨?_, rfl, rfl, rfl, rfl, ?_⟩
  . intro i sent hsent
    cases i with
    | zero =>
      cases hsent
      exact (UInt16.add_zero s.seq).symm
    | succ i => cases hsent
  . intro sent hsent
    rw [List.mem_singleton.mp hsent]
    exact ⟨rfl, rfl, hfits⟩

theorem sends_sendVideoRtpPackets (s : RtcSendStream) (ts : UInt32) {pkts : List RtpPacket}
    (hfits : ∀ pkt ∈ pkts, Fits pkt)
    : s.Sends (s.sendVideoRtpPackets ts pkts).2 (s.sendVideoRtpPackets ts pkts).1 := by
  induction pkts generalizing s with
  | nil => exact sends_nil rfl rfl rfl rfl
  | cons pkt pkts ih =>
    have hone := s.sends_one ts (hfits pkt List.mem_cons_self)
    exact hone.append (ih _ fun pkt hpkt => hfits pkt (List.mem_cons_of_mem _ hpkt))

theorem sends_saveParamSet (s : RtcSendStream) (header : UInt8) (nalu : List UInt8)
    : s.Sends [] (s.saveParamSet header nalu) := by
  unfold saveParamSet
  split
  . split
    all_goals split
    all_goals exact sends_nil rfl rfl rfl rfl
  . exact sends_nil rfl rfl rfl rfl

theorem sends_sendH264Packet {pkt : MediaPacket} (hsend : s.sendH264Packet pkt = some (s', pkts))
    : s.Sends pkts s' := by
  unfold sendH264Packet at hsend
  split at hsend
  . cases hsend
  . split at hsend
    . cases hsend
    . next header body _ =>
      simp only at hsend
      split at hsend
      . cases hsend
        exact sends_nil rfl rfl rfl rfl
      . split at hsend
        . cases hsend
          apply sends_saveParamSet
        . have hfits : ∀ sent ∈ s.stapAPackets pkt.isKeyFrame ++ naluPackets (header :: body), Fits sent := by
            intro sent hsent
            rcases List.mem_append.mp hsent with hsent | hsent
            . exact s.fits_stapAPackets _ sent hsent
            . exact fits_naluPackets (List.cons_ne_nil _ _) sent hsent
          have hsends := s.sends_sendVideoRtpPackets (s.rtpTimestamp pkt.dts) hfits
          rwa [Option.some.inj hsend] at hsends

end RtcSendStream

namespace PackHandleH264

variable {extendSeq : Nat} {pkts pkts' : List RtpPacket} {calls calls' : List Call}

instance (h : PackHandleH264) : (call : Call) → Decidable (h.FuaInTime call)
  | .input pkt now => inferInstanceAs (Decidable (H264.nalType (pkt.pkt.payload.getD 0 0) = kFuA →
      ∀ p ∈ h.packetsQueue ++ [pkt], now - p.pkt.localMs < packBufferTimeout))
  | .timer now => inferInstanceAs (Decidable (∀ p ∈ h.packetsQueue, now - p.pkt.localMs < packBufferTimeout))

instance decidableInTime (h : PackHandleH264) : (calls : List Call) → Decidable (h.InTime calls)
  | [] => inferInstanceAs (Decidable True)
  | call :: calls =>
    have := decidableInTime (h.call call).1 calls
    inferInstanceAs (Decidable (h.FuaInTime call ∧ (h.call call).1.InTime calls))

theorem Delivers.append (h : Delivers extendSeq pkts calls) (h' : Delivers (extendSeq + pkts.length) pkts' calls')
    : Delivers extendSeq (pkts ++ pkts') (calls ++ calls') := by
  induction h with
  | nil => exact h'
  | timer now _ ih => exact .timer now (ih h')
  | input info now localMs hpkt _ ih =>
    refine .input info now localMs hpkt (ih ?_)
    rw [Nat.add_assoc, Nat.add_comm 1]
    exact h'

theorem exists_early (queue : List RtpPacketInfo) : ∃ now, ∀ p ∈ queue, now - p.pkt.localMs < packBufferTimeout := by
  induction queue with
  | nil =>
    refine ⟨0, ?_⟩
    intro p hp
    cases hp
  | cons q queue ih =>
    obtain ⟨now, hnow⟩ := ih
    refine ⟨min now q.pkt.localMs, ?_⟩
    intro p hp
    unfold packBufferTimeout at *
    rcases List.mem_cons.mp hp with rfl | hp
    . omega
    . have hlt := hnow p hp
      omega

theorem exists_delivers (h : PackHandleH264) (extendSeq : Nat) (pkts : List RtpPacket)
    : ∃ calls, Delivers extendSeq pkts calls ∧ h.InTime calls := by
  induction pkts generalizing h extendSeq with
  | nil => exact ⟨[], .nil _, trivial⟩
  | cons pkt pkts ih =>
    obtain ⟨now, hnow⟩ := exists_early h.packetsQueue
    obtain ⟨calls, hdelivers, htime⟩ := ih (h.call (.input ⟨.video, pkt.clone now, extendSeq, 0⟩ now)).1 (extendSeq + 1)
    refine ⟨_, .input ⟨.video, pkt.clone now, extendSeq, 0⟩ now now rfl hdelivers, ?_, htime⟩
    intro _ p hp
    rcases List.mem_append.mp hp with hp | hp
    . exact hnow p hp
    . rw [List.mem_singleton.mp hp]
      change now - now < 600
      omega

theorem Receives.prefix {h : PackHandleH264} {out : List MediaPacket} {P : PackHandleH264 → Prop}
    (hreceives : h.Receives extendSeq ((pkts ++ pkts').map content) out P) (hdelivers : Delivers extendSeq pkts calls)
    (htime : h.InTime calls) : (h.run calls).2.filterMap PackEvent.output? <+: out := by
  obtain ⟨calls', hdelivers', htime'⟩ := exists_delivers (h.run calls).1 (extendSeq + pkts.length) pkts'
  obtain ⟨_, hout⟩ := hreceives _ _ rfl (hdelivers.append hdelivers') (inTime_append.mpr ⟨htime, htime'⟩)
  rw [← hout, run_append, List.filterMap_append]
  apply List.prefix_append

end PackHandleH264

namespace VideoReceiver

open PackHandleH264 (Delivers)

/--
The calls of `PackHandleH264` for the packets that `JitterBuffer` puts out.
-/
def packInputs (packNow : Nat → Int) : List RtpPacketInfo → List PackHandleH264.Call
  | [] => []
  | pkt :: pkts => .input pkt (packNow 0) :: packInputs (fun k => packNow (k + 1)) pkts

def jitterCall (b : JitterBuffer) : VideoCall → JitterBuffer × List JitterEvent
  | .input clockRate data localMs now _ =>
    if data.length < rtpPacketMaxSize then
      match RtpPacket.parse data localMs with
      | none => (b, [])
      | some pkt => b.inputRtpPacket clockRate pkt localMs now
    else
      (b, [])
  | .jitterTimer now _ => b.onTimer now
  | .packTimer _ => (b, [])

def packCalls (b : JitterBuffer) : VideoCall → List PackHandleH264.Call
  | .input clockRate data localMs now packNow =>
    packInputs packNow ((jitterCall b (.input clockRate data localMs now packNow)).2.filterMap JitterEvent.output?)
  | .jitterTimer now packNow => packInputs packNow ((b.onTimer now).2.filterMap JitterEvent.output?)
  | .packTimer now => [.timer now]

theorem rtpPacketOutput_eq (h : PackHandleH264) (packNow : Nat → Int) (pkts : List RtpPacketInfo)
    : rtpPacketOutput h packNow pkts = h.run (packInputs packNow pkts) := by
  induction pkts generalizing h packNow with
  | nil => rfl
  | cons pkt pkts ih =>
    unfold rtpPacketOutput packInputs PackHandleH264.run
    simp only [ih]
    rfl

inductive Arrival where
  | packet (n : Nat) (localMs now : Int) (packNow : Nat → Int)
  | jitterTimer (now : Int) (packNow : Nat → Int)
  | packTimer (now : Int)

namespace Arrival

variable (pkts : List RtpPacket) (clockRate : Int)

def call : Arrival → Option VideoCall
  | .packet n localMs now packNow =>
    pkts[n]?.map fun pkt => .input clockRate pkt.bytes localMs now packNow
  | .jitterTimer now packNow => some (.jitterTimer now packNow)
  | .packTimer now => some (.packTimer now)

def number? : Arrival → Option Nat
  | .packet n _ _ _ => some n
  | _ => none

def raise (highest : Option Nat) : Arrival → Option Nat
  | .packet n _ _ _ => some (highest.elim n (max · n))
  | _ => highest

end Arrival

/--
The first packet to arrive is the first one that was sent, the others come with numbers that are taken for what they
are, and no packet waits for too long in the jitter buffer.
-/
def JitterInTime (highest : Option Nat) (b : JitterBuffer) : Arrival → Prop
  | .packet n localMs now _ =>
    (match highest with
      | none => n = 0
      | some highest => Near highest n)
    ∧ now - localMs ≤ b.bufferTimeout ∧ ∀ p ∈ b.packetsMap, b.timedOut now p = false
  | .jitterTimer now _ => ∀ p ∈ b.packetsMap, b.timedOut now p = false
  | .packTimer _ => True

def Timely (pkts : List RtpPacket) (clockRate : Int) (highest : Option Nat) (s : VideoReceiver) : List Arrival → Prop
  | [] => True
  | arrival :: rest =>
    match arrival.call pkts clockRate with
    | none => False
    | some call =>
      JitterInTime highest s.jitter arrival ∧ s.pack.InTime (packCalls s.jitter call)
        ∧ Timely pkts clockRate (arrival.raise highest) (s.call call).1 rest

instance (highest : Option Nat) (b : JitterBuffer) : (arrival : Arrival) → Decidable (JitterInTime highest b arrival)
  | .packet n localMs now _ =>
    match highest with
    | none => inferInstanceAs (Decidable (n = 0 ∧ now - localMs ≤ b.bufferTimeout
        ∧ ∀ p ∈ b.packetsMap, b.timedOut now p = false))
    | some highest => inferInstanceAs (Decidable (Near highest n ∧ now - localMs ≤ b.bufferTimeout
        ∧ ∀ p ∈ b.packetsMap, b.timedOut now p = false))
  | .jitterTimer now _ => inferInstanceAs (Decidable (∀ p ∈ b.packetsMap, b.timedOut now p = false))
  | .packTimer _ => inferInstanceAs (Decidable True)

instance decidableTimely (pkts : List RtpPacket) (clockRate : Int) (highest : Option Nat) (s : VideoReceiver)
    : (rest : List Arrival) → Decidable (Timely pkts clockRate highest s rest)
  | [] => inferInstanceAs (Decidable True)
  | arrival :: rest =>
    match hcall : arrival.call pkts clockRate with
    | none => .isFalse (by
        unfold Timely
        rw [hcall]
        exact id)
    | some call =>
      have := decidableTimely pkts clockRate (arrival.raise highest) (s.call call).1 rest
      decidable_of_iff (JitterInTime highest s.jitter arrival ∧ s.pack.InTime (packCalls s.jitter call)
          ∧ Timely pkts clockRate (arrival.raise highest) (s.call call).1 rest) (by
        conv => rhs; unfold Timely
        rw [hcall])

theorem call_eq (s : VideoReceiver) (c : VideoCall)
    : s.call c = ({ jitter := (jitterCall s.jitter c).1, pack := (s.pack.run (packCalls s.jitter c)).1 },
        (s.pack.run (packCalls s.jitter c)).2) := by
  cases c with
  | input clockRate data localMs now packNow =>
    unfold call packCalls jitterCall
    by_cases hlen : data.length < rtpPacketMaxSize
    . simp only [if_pos hlen]
      cases RtpPacket.parse data localMs with
      | none => rfl
      | some pkt =>
        rw [← rtpPacketOutput_eq]
        rfl
    . simp only [if_neg hlen]
      rfl
  | jitterTimer now packNow =>
    unfold call packCalls jitterCall
    rw [← rtpPacketOutput_eq]
    rfl
  | packTimer now => rfl

section Deliver

/--
The packets of a stream that has begun with the number 0.
-/
def Numbered (pkts : List RtpPacket) : Prop :=
  ∀ n pkt, pkts[n]? = some pkt → pkt.seq = SeqState.ofIndex n ∧ Fits pkt ∧ pkt.payloadType < 0x80

inductive Reached (pkts : List RtpPacket) : Option Nat → List Nat → JitterBuffer → Nat → Prop where
  | start {b : JitterBuffer} (hinit : b.initFlag = false) (hmap : b.packetsMap = []) : Reached pkts none [] b 0
  | ordered {b : JitterBuffer} {highest : Nat} {arrived : List Nat}
      (h : Ordered (fun n => pkts[n]?) 0 highest arrived b) (hall : ∀ n ∈ arrived, n < pkts.length)
      : Reached pkts (some highest) arrived b (b.outputSeq + 1)

variable {pkts : List RtpPacket} {clockRate : Int} {highest : Option Nat} {arrived : List Nat} {b : JitterBuffer}
  {next next' : Nat} {arrival : Arrival} {c : VideoCall} {infos : List RtpPacketInfo}

theorem Reached.le (h : Reached pkts highest arrived b next) : next ≤ pkts.length := by
  cases h with
  | start => exact Nat.zero_le _
  | ordered h hall => exact hall _ (h.keeps.mem (Nat.zero_le _) (Nat.lt_succ_self _))

theorem Reached.complete (h : Reached pkts highest arrived b next) (hall : ∀ n < pkts.length, n ∈ arrived)
    : next = pkts.length := by
  cases h with
  | start =>
    by_contra hne
    exact List.not_mem_nil (hall 0 (by omega))
  | ordered h honly => exact (h.keeps.complete (Nat.zero_le _) (fun n _ hlt => hall n hlt) honly).left

theorem jitterCall_packet {pkt : RtpPacket} (hfits : Fits pkt) (htype : pkt.payloadType < 0x80)
    (localMs now : Int) (packNow : Nat → Int)
    : jitterCall b (.input clockRate pkt.bytes localMs now packNow)
        = b.inputRtpPacket clockRate (pkt.clone localMs) localMs now := by
  have hlen := (RtcSendBuffer.isVideoPacket_of_fits hfits).length_lt
  unfold jitterCall
  simp only [if_pos hlen, pkt.parse_eq hfits htype]

/--
A step lemma: what the jitter buffer puts out are the next packets.
-/
theorem Reached.step (h : Reached pkts highest arrived b next) (hpkts : Numbered pkts)
    (hcall : arrival.call pkts clockRate = some c) (htime : JitterInTime highest b arrival)
    : ∃ next', Reached pkts (arrival.raise highest) (arrival.number?.toList ++ arrived) (jitterCall b c).1 next'
        ∧ Outputs (fun n => pkts[n]?) next next' ((jitterCall b c).2.filterMap JitterEvent.output?) := by
  cases arrival with
  | packet n localMs now packNow =>
    obtain ⟨pkt, hpkt, rfl⟩ := Option.map_eq_some_iff.mp hcall
    obtain ⟨hseq, hfits, htype⟩ := hpkts n pkt hpkt
    have hn := (List.getElem?_eq_some_iff.mp hpkt).1
    rw [jitterCall_packet hfits htype]
    cases h with
    | start hinit hmap =>
      obtain ⟨hfirst, _, _⟩ := htime
      cases hfirst
      obtain ⟨infos, hinfos, houtputs, hordered, hout, _⟩ := JitterBuffer.ordered_first (fun n => pkts[n]?)
        hinit hmap (by decide) hpkt hseq
      have hreached := Reached.ordered hordered (by
        intro m hm
        rw [List.mem_singleton.mp hm]
        exact hn)
      rw [hout] at hreached
      rw [← hinfos] at houtputs
      exact ⟨1, hreached, houtputs⟩
    | ordered h hall =>
      obtain ⟨hnear, hnow, hlate⟩ := htime
      obtain ⟨infos, hinfos, houtputs, hordered, _⟩ := h.input (by decide) hpkt hseq hnear hnow
        hlate
      rw [← hinfos] at houtputs
      refine ⟨_, .ordered hordered ?_, houtputs⟩
      intro m hm
      rcases List.mem_cons.mp hm with rfl | hm
      . exact hn
      . exact hall m hm
  | jitterTimer now packNow =>
    cases hcall
    cases h with
    | start hinit hmap =>
      have htimer : jitterCall b (.jitterTimer now packNow) = (b, []) := JitterBuffer.checkTimeoutLoop_of_kept htime (by
        rw [hmap]
        intro p hp
        cases hp)
      rw [htimer]
      exact ⟨0, .start hinit hmap, .nil _ 0⟩
    | ordered h hall =>
      have htimer : jitterCall b (.jitterTimer now packNow) = (b, []) := h.onTimer htime
      rw [htimer]
      exact ⟨_, .ordered h hall, .nil _ _⟩
  | packTimer now =>
    cases hcall
    exact ⟨next, h, .nil _ next⟩

theorem delivers_packInputs (h : Outputs (fun n => pkts[n]?) next next' infos) (packNow : Nat → Int)
    : Delivers next ((pkts.drop next).take infos.length) (packInputs packNow infos) := by
  induction infos generalizing next packNow with
  | nil => exact .nil _
  | cons info infos ih =>
    have hnumbers := h.numbers
    rw [List.map_cons, List.length_cons, List.range'_succ, List.cons.injEq] at hnumbers
    obtain ⟨hnumber, hnumbers⟩ := hnumbers
    have hnext := h.next_eq
    rw [List.length_cons] at hnext
    have hrest : Outputs (fun n => pkts[n]?) (next + 1) next' infos :=
      ⟨hnumbers, by omega, fun p hp => h.packets p (List.mem_cons_of_mem _ hp)⟩
    obtain ⟨pkt, hpkt, hclone⟩ := h.packets info List.mem_cons_self
    simp only [hnumber] at hpkt
    have hdrop : pkts.drop next = pkt :: pkts.drop (next + 1) := by
      rw [List.drop_eq_getElem_cons (List.getElem?_eq_some_iff.mp hpkt).1, (List.getElem?_eq_some_iff.mp hpkt).2]
    have hbehind := ih hrest fun k => packNow (k + 1)
    rw [← hnumber] at hbehind
    have hall := Delivers.input info (packNow 0) info.pkt.localMs hclone hbehind
    rw [hdrop, List.length_cons, List.take_succ_cons, ← hnumber]
    exact hall

/--
A receiver that has put out the packets in front of the next one, and what came of these.
-/
structure Delivering (pkts : List RtpPacket) (highest : Option Nat) (arrived : List Nat) (s : VideoReceiver)
    (events : List PackEvent) (next : Nat) : Prop where
  jitter : Reached pkts highest arrived s.jitter next
  packed : ∃ calls, Delivers 0 (pkts.take next) calls ∧ PackHandleH264.InTime {} calls
    ∧ PackHandleH264.run {} calls = (s.pack, events)

theorem Delivering.step {s : VideoReceiver} {events : List PackEvent}
    (h : Delivering pkts highest arrived s events next) (hpkts : Numbered pkts)
    (hcall : arrival.call pkts clockRate = some c) (htime : JitterInTime highest s.jitter arrival)
    (hpack : s.pack.InTime (packCalls s.jitter c))
    : ∃ next', Delivering pkts (arrival.raise highest) (arrival.number?.toList ++ arrived) (s.call c).1
        (events ++ (s.call c).2) next' := by
  obtain ⟨next', hreached, houtputs⟩ := h.jitter.step hpkts hcall htime
  obtain ⟨calls, hdelivers, hintime, hrun⟩ := h.packed
  have hnext := houtputs.next_eq
  have hbehind : Delivers next ((pkts.drop next).take (next' - next)) (packCalls s.jitter c) := by
    have hlen : ((jitterCall s.jitter c).2.filterMap JitterEvent.output?).length = next' - next := by omega
    rw [← hlen]
    cases c with
    | input rate data localMs now packNow => exact delivers_packInputs houtputs packNow
    | jitterTimer now packNow => exact delivers_packInputs houtputs packNow
    | packTimer now => exact .timer now (.nil _)
  rw [call_eq]
  refine ⟨next', hreached, calls ++ packCalls s.jitter c, ?_, ?_, ?_⟩
  . have hsplit : pkts.take next' = pkts.take next ++ (pkts.drop next).take (next' - next) := by
      rw [← List.take_add]
      congr 1
      omega
    rw [hsplit]
    apply hdelivers.append
    rw [Nat.zero_add, List.length_take, Nat.min_eq_left h.jitter.le]
    exact hbehind
  . rw [PackHandleH264.inTime_append, hrun]
    exact ⟨hintime, hpack⟩
  . rw [PackHandleH264.run_append, hrun]

theorem Delivering.run {s : VideoReceiver} {events : List PackEvent} {rest : List Arrival} {calls : List VideoCall}
    (h : Delivering pkts highest arrived s events next) (hpkts : Numbered pkts)
    (hcalls : rest.map (·.call pkts clockRate) = calls.map some) (htimely : Timely pkts clockRate highest s rest)
    : ∃ highest' next', Delivering pkts highest' ((rest.filterMap Arrival.number?).reverse ++ arrived) (s.run calls).1
        (events ++ (s.run calls).2) next' := by
  induction rest generalizing s highest arrived events next calls with
  | nil =>
    rw [List.map_nil, eq_comm, List.map_eq_nil_iff] at hcalls
    subst hcalls
    exact ⟨highest, next, by simpa [VideoReceiver.run] using h⟩
  | cons arrival rest ih =>
    cases calls with
    | nil => cases hcalls
    | cons c calls =>
      rw [List.map_cons, List.map_cons, List.cons.injEq] at hcalls
      obtain ⟨hcall, hcalls⟩ := hcalls
      unfold Timely at htimely
      simp only [hcall] at htimely
      obtain ⟨htime, hpack, htimely⟩ := htimely
      obtain ⟨next₁, hstep⟩ := h.step hpkts hcall htime hpack
      obtain ⟨highest', next', hrest⟩ := ih hstep hcalls htimely
      refine ⟨highest', next', ?_⟩
      unfold VideoReceiver.run
      simp only
      rw [← List.append_assoc]
      cases hnumber : arrival.number? with
      | none =>
        rw [hnumber] at hrest
        rw [List.filterMap_cons_none hnumber]
        exact hrest
      | some n =>
        rw [hnumber] at hrest
        rw [List.filterMap_cons_some hnumber, List.reverse_cons, List.append_assoc]
        exact hrest

end Deliver

end VideoReceiver

/--
A packet with a NALU that is not sent for itself: parameter sets, which are sent with key frames, and SEI.
-/
structure SideNalu where
  longCode : Bool
  header : UInt8
  body : List UInt8
  isSeqHdr : Bool
  silent : H264.nalType header = H264.naluTypeSei ∨ isSeqHdr = true

inductive VideoInput where
  | nalu (n : Nalu)
  | side (n : SideNalu)

def SideNalu.packet (n : SideNalu) : MediaPacket where
  avType := .video
  codecType := .h264
  fmtType := .raw
  isSeqHdr := n.isSeqHdr
  data := (if n.longCode then H264.startCode else H264.shortStartCode) ++ n.header :: n.body

def VideoInput.packet : VideoInput → MediaPacket
  | .nalu n => n.packet
  | .side n => n.packet

namespace RtcSendStream

open PackHandleH264

def save (s : RtcSendStream) (n : SideNalu) : RtcSendStream :=
  if H264.nalType n.header = H264.naluTypeSei then s else s.saveParamSet n.header (n.header :: n.body)

/--
What should arrive for a stream: its NALUs, behind the parameter sets of key frames.
-/
def expectedAll (s : RtcSendStream) : List VideoInput → List MediaPacket
  | [] => []
  | .nalu n :: inputs => s.expected n ++ s.expectedAll inputs
  | .side n :: inputs => (s.save n).expectedAll inputs

/--
A NALU of 1201 bytes is sent as a single fragment, which the receiver drops.
-/
def Carried : VideoInput → Prop
  | .nalu n => n.data.length ≠ kPayloadMaxSize + 1
  | .side _ => True

instance : (input : VideoInput) → Decidable (Carried input)
  | .nalu n => inferInstanceAs (Decidable (n.data.length ≠ kPayloadMaxSize + 1))
  | .side _ => inferInstanceAs (Decidable True)

variable {s s' : RtcSendStream} {inputs : List VideoInput}

theorem sendH264Packet_side (s : RtcSendStream) (n : SideNalu) : s.sendH264Packet n.packet = some (s.save n, []) := by
  have hdrop : ∃ pos, H264.getNaluTypePos n.packet.data = some pos
      ∧ n.packet.data.drop pos = n.header :: n.body := by
    unfold SideNalu.packet
    cases n.longCode with
    | true => exact ⟨4, rfl, rfl⟩
    | false => exact ⟨3, rfl, rfl⟩
  obtain ⟨pos, hpos, hdrop⟩ := hdrop
  unfold sendH264Packet save
  simp only [hpos, hdrop]
  split
  . rfl
  . next hsei =>
    have hseq : n.packet.isSeqHdr = true := n.silent.resolve_left hsei
    rw [if_pos hseq]

theorem Same.save (h : s.Same s') (n : SideNalu) : (s.save n).Same (s'.save n) := by
  unfold RtcSendStream.save saveParamSet
  split
  . exact h
  . split
    . split
      all_goals split
      all_goals exact ⟨h.clockRate, by simp only [h.sps], by simp only [h.pps]⟩
    . exact h

theorem Same.expectedAll (h : s.Same s') (inputs : List VideoInput) : s'.expectedAll inputs = s.expectedAll inputs := by
  induction inputs generalizing s s' with
  | nil => rfl
  | cons input inputs ih =>
    cases input with
    | nalu n =>
      unfold RtcSendStream.expectedAll expected expectedParamSets rtpTimestamp
      rw [ih h, h.clockRate, h.sps, h.pps]
    | side n => exact ih (h.save n)

theorem receives_inputs {h : PackHandleH264} {extendSeq : Nat} (hready : h.Ready extendSeq) (s : RtcSendStream)
    (hcarried : ∀ input ∈ inputs, Carried input)
    : ∃ s' pkts, s.sendH264Packets (inputs.map VideoInput.packet) = some (s', pkts)
      ∧ h.Receives extendSeq (pkts.map content) (s.expectedAll inputs)
          fun h' => h'.Ready (extendSeq + pkts.length) := by
  induction inputs generalizing h extendSeq s with
  | nil => exact ⟨s, [], rfl, receives_nil hready⟩
  | cons input inputs ih =>
    rw [List.forall_mem_cons] at hcarried
    cases input with
    | nalu n =>
      obtain ⟨s₁, pkts₁, hsend, hsame, hreceives⟩ := receives_nalu hready s n
      have hexpected : s.arriving n = s.expected n := by
        unfold arriving expected
        rw [if_neg hcarried.left]
      -- what is sent does not depend on the state of the receiver
      have hstart : PackHandleH264.Ready {} (extendSeq + pkts₁.length) := ⟨fun h => absurd h (by decide), rfl, rfl, rfl⟩
      obtain ⟨s₂, pkts₂, hsend', _⟩ := ih hstart s₁ hcarried.right
      refine ⟨s₂, pkts₁ ++ pkts₂, ?_, ?_⟩
      . rw [List.map_cons, sendH264Packets, show (VideoInput.nalu n).packet = n.packet from rfl, hsend]
        simp only [hsend']
      . rw [List.map_append, expectedAll, ← hexpected]
        apply Receives.append
        intro pkts calls hpkts hdelivers htime
        obtain ⟨hready', hout⟩ := hreceives pkts calls hpkts hdelivers htime
        refine ⟨?_, hout⟩
        obtain ⟨_, _, hsend'', hrest⟩ := ih hready' s₁ hcarried.right
        rw [hsend'] at hsend''
        cases hsend''
        rw [List.length_map, ← hsame.expectedAll, List.length_append, ← Nat.add_assoc]
        exact hrest
    | side n =>
      obtain ⟨s', pkts, hsend, hreceives⟩ := ih hready (s.save n) hcarried.right
      refine ⟨s', pkts, ?_, hreceives⟩
      rw [List.map_cons, sendH264Packets, show (VideoInput.side n).packet = n.packet from rfl, sendH264Packet_side]
      simp only [hsend, List.nil_append]

theorem sends_sendH264Packets {media : List MediaPacket} {pkts : List RtpPacket}
    (hsend : s.sendH264Packets media = some (s', pkts)) : s.Sends pkts s' := by
  induction media generalizing s pkts with
  | nil =>
    cases hsend
    exact sends_nil rfl rfl rfl rfl
  | cons pkt media ih =>
    unfold sendH264Packets at hsend
    split at hsend
    . cases hsend
    . next hfirst =>
      split at hsend
      . cases hsend
      . next hrest =>
        cases hsend
        exact (sends_sendH264Packet hfirst).append (ih hrest)

theorem Sends.numbered {pkts : List RtpPacket} (h : s.Sends pkts s') (hseq : s.seq = 0) (hpt : s.pt < 0x80)
    : VideoReceiver.Numbered pkts := by
  intro n pkt hpkt
  obtain ⟨_, htype, hfits⟩ := h.packets pkt (List.mem_of_getElem? hpkt)
  rw [h.seq n pkt hpkt, htype, hseq]
  exact ⟨UInt16.zero_add _, hfits, hpt⟩

end RtcSendStream

namespace VideoReceiver

/--
However the packets of a stream arrive, what has come out are the first ones of the NALUs expected, and it is all of
them when each packet has arrived.
-/
theorem run_delivers {s s' : RtcSendStream} {inputs : List VideoInput} {pkts : List RtpPacket} {clockRate : Int}
    {rest : List Arrival} {calls : List VideoCall} {b : JitterBuffer} (hseq : s.seq = 0) (hpt : s.pt < 0x80)
    (hcarried : ∀ input ∈ inputs, RtcSendStream.Carried input)
    (hsend : s.sendH264Packets (inputs.map VideoInput.packet) = some (s', pkts)) (hinit : b.initFlag = false)
    (hmap : b.packetsMap = []) (hcalls : rest.map (·.call pkts clockRate) = calls.map some)
    (htimely : Timely pkts clockRate none { jitter := b } rest)
    : ((VideoReceiver.run { jitter := b } calls).2.filterMap PackEvent.output? <+: s.expectedAll inputs)
      ∧ ((∀ n < pkts.length, n ∈ rest.filterMap Arrival.number?) →
          (VideoReceiver.run { jitter := b } calls).2.filterMap PackEvent.output? = s.expectedAll inputs) := by
  have hpkts := (RtcSendStream.sends_sendH264Packets hsend).numbered hseq hpt
  have hready : PackHandleH264.Ready {} 0 := ⟨fun h => absurd h (by decide), rfl, rfl, rfl⟩
  obtain ⟨_, _, hsend', hreceives⟩ := RtcSendStream.receives_inputs hready s hcarried
  rw [hsend] at hsend'
  cases hsend'
  have hstart : Delivering pkts none [] { jitter := b } [] 0 :=
    ⟨.start hinit hmap, [], .nil 0, trivial, rfl⟩
  obtain ⟨highest, next, hdelivering⟩ := hstart.run hpkts hcalls htimely
  obtain ⟨packCalls, hdelivers, hintime, hrun⟩ := hdelivering.packed
  have hevents : (PackHandleH264.run {} packCalls).2 = (VideoReceiver.run { jitter := b } calls).2 := by
    rw [hrun]
    rfl
  rw [← hevents]
  constructor
  . rw [← List.take_append_drop next pkts] at hreceives
    exact hreceives.prefix hdelivers hintime
  . intro hall
    have hnext : next = pkts.length := by
      apply hdelivering.jitter.complete
      intro n hn
      rw [List.append_nil, List.mem_reverse]
      exact hall n hn
    rw [hnext, List.take_length] at hdelivers
    exact (hreceives pkts packCalls rfl hdelivers hintime).2

end VideoReceiver
