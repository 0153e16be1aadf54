import CppStreamer.Net.WebRtc.PackHandleH264
import CppStreamer.Net.WebRtc.RtcSendStream

/-!
This module contains the round trip of H.264 NALUs: the packets of `RtcSendStream`, delivered in order
to `PackHandleH264`.
-/

open ByteStream RtpH264Pack

/--
A NALU to send, with a start code of three or four bytes.
-/
structure Nalu where
  longCode : Bool
  header : UInt8
  body : List UInt8
  dts : Int
  isKeyFrame : Bool
  type_ge : 1 ≤ H264.nalType header
  type_le : H264.nalType header ≤ 23
  type_ne_sei : H264.nalType header ≠ H264.naluTypeSei
  body_ne_nil : body ≠ []

namespace Nalu

def data (n : Nalu) : List UInt8 := n.header :: n.body

def packet (n : Nalu) : MediaPacket where
  avType := .video
  codecType := .h264
  fmtType := .raw
  dts := n.dts
  pts := n.dts
  isKeyFrame := n.isKeyFrame
  data := (if n.longCode then H264.startCode else H264.shortStartCode) ++ n.data

end Nalu

namespace RtcSendStream

/--
What should arrive for the parameter sets in front of a NALU, and for the NALU.
-/
def expectedParamSets (s : RtcSendStream) (n : Nalu) : List MediaPacket :=
  if n.isKeyFrame = true ∧ 0 < s.sps.val.length ∧ 0 < s.pps.val.length then
    [h264Packet s.sps.val (s.rtpTimestamp n.dts).toNat,
      h264Packet s.pps.val (s.rtpTimestamp n.dts).toNat]
  else
    []

def expected (s : RtcSendStream) (n : Nalu) : List MediaPacket :=
  s.expectedParamSets n ++ [h264Packet n.data (s.rtpTimestamp n.dts).toNat]

end RtcSendStream

namespace PackHandleH264

inductive Call where
  | input (pkt : RtpPacketInfo) (now : Int)
  | timer (now : Int)

def call (h : PackHandleH264) : Call → PackHandleH264 × List PackEvent
  | .input pkt now => h.inputRtpPacket pkt now
  | .timer now => (h.onTimer now, [])

def run (h : PackHandleH264) : List Call → PackHandleH264 × List PackEvent
  | [] => (h, [])
  | call :: calls =>
    let (h, events) := h.call call
    let (h, rest) := h.run calls
    (h, events ++ rest)

/--
The packets arrive in order, between calls of the timer.
-/
inductive Delivers : Nat → List RtpPacket → List Call → Prop where
  | nil (extendSeq : Nat) : Delivers extendSeq [] []
  | timer {extendSeq : Nat} {pkts : List RtpPacket} {calls : List Call} (now : Int)
      (h : Delivers extendSeq pkts calls) : Delivers extendSeq pkts (.timer now :: calls)
  | input {pkt : RtpPacket} {pkts : List RtpPacket} {calls : List Call} (info : RtpPacketInfo)
      (now localMs : Int) (hpkt : info.pkt = pkt.clone localMs)
      (h : Delivers (info.extendSeq + 1) pkts calls)
      : Delivers info.extendSeq (pkt :: pkts) (.input info now :: calls)

/--
No fragment waits for too long.
-/
def FuaInTime (h : PackHandleH264) : Call → Prop
  | .input pkt now => H264.nalType (pkt.pkt.payload.getD 0 0) = kFuA →
    ∀ p ∈ h.packetsQueue ++ [pkt], now - p.pkt.localMs < packBufferTimeout
  | .timer now => ∀ p ∈ h.packetsQueue, now - p.pkt.localMs < packBufferTimeout

def InTime (h : PackHandleH264) : List Call → Prop
  | [] => True
  | call :: calls => h.FuaInTime call ∧ (h.call call).1.InTime calls

theorem run_append (h : PackHandleH264) (calls calls' : List Call)
    : h.run (calls ++ calls')
      = (((h.run calls).1.run calls').1, (h.run calls).2 ++ ((h.run calls).1.run calls').2) := by
  induction calls generalizing h with
  | nil => rfl
  | cons call calls ih => simp only [List.cons_append, run, ih, List.append_assoc]

theorem inTime_append {h : PackHandleH264} {calls calls' : List Call}
    : h.InTime (calls ++ calls') ↔ h.InTime calls ∧ (h.run calls).1.InTime calls' := by
  induction calls generalizing h with
  | nil => simp [InTime, run]
  | cons call calls ih => simp only [List.cons_append, InTime, run, ih, and_assoc]

theorem checkFuaTimeout_eq {h : PackHandleH264} {now : Int}
    (htime : ∀ p ∈ h.packetsQueue, now - p.pkt.localMs < packBufferTimeout)
    : h.checkFuaTimeout now = h := by
  have hkeep : h.packetsQueue.dropWhile (fun p => ¬(now - p.pkt.localMs < packBufferTimeout))
      = h.packetsQueue := by
    cases hqueue : h.packetsQueue with
    | nil => rfl
    | cons p queue =>
      rw [List.dropWhile_cons_of_neg]
      have := htime p (by rw [hqueue]; exact List.mem_cons_self ..)
      simpa using this
  unfold checkFuaTimeout
  rw [hkeep]

theorem call_timer {h : PackHandleH264} {now : Int} (htime : h.FuaInTime (.timer now))
    : h.call (.timer now) = (h, []) := by
  show (h.checkFuaTimeout now, []) = (h, [])
  rw [checkFuaTimeout_eq htime]

theorem Delivers.of_append {extendSeq : Nat} {pkts pkts' : List RtpPacket} {calls : List Call}
    (h : Delivers extendSeq (pkts ++ pkts') calls)
    : ∃ calls₁ calls₂, calls = calls₁ ++ calls₂ ∧ Delivers extendSeq pkts calls₁
      ∧ Delivers (extendSeq + pkts.length) pkts' calls₂ := by
  generalize hall : pkts ++ pkts' = all at h
  induction h generalizing pkts with
  | nil extendSeq =>
    rw [List.append_eq_nil_iff] at hall
    rw [hall.1, hall.2]
    exact ⟨[], [], rfl, .nil _, .nil _⟩
  | timer now _ ih =>
    rcases ih hall with ⟨calls₁, calls₂, rfl, h₁, h₂⟩
    exact ⟨.timer now :: calls₁, calls₂, rfl, .timer now h₁, h₂⟩
  | @input pkt rest calls info now localMs hpkt hrest ih =>
    cases pkts with
    | nil =>
      rw [List.nil_append] at hall
      rw [hall]
      exact ⟨[], _, rfl, .nil _, .input info now localMs hpkt hrest⟩
    | cons p pkts =>
      rw [List.cons_append, List.cons.injEq] at hall
      rcases hall with ⟨rfl, hall⟩
      rcases ih hall with ⟨calls₁, calls₂, rfl, h₁, h₂⟩
      refine ⟨.input info now :: calls₁, calls₂, rfl, .input info now localMs hpkt h₁, ?_⟩
      rwa [List.length_cons, Nat.add_comm pkts.length, ← Nat.add_assoc]

/--
What the receiver reads of a packet.
-/
def content (pkt : RtpPacket) : List UInt8 × UInt32 := (pkt.payload, pkt.timestamp)

/--
Packets with these contents, delivered in order, are put together to `out`.
-/
def Receives (h : PackHandleH264) (extendSeq : Nat) (contents : List (List UInt8 × UInt32))
    (out : List MediaPacket) (P : PackHandleH264 → Prop) : Prop :=
  ∀ pkts calls, pkts.map content = contents → Delivers extendSeq pkts calls → h.InTime calls →
    P (h.run calls).1 ∧ (h.run calls).2.filterMap PackEvent.output? = out

section Receives

variable {h : PackHandleH264} {extendSeq : Nat} {contents contents' : List (List UInt8 × UInt32)}
  {out out' : List MediaPacket} {P : PackHandleH264 → Prop}

theorem receives_nil (hP : P h) : h.Receives extendSeq [] [] P := by
  intro pkts calls hpkts hdelivers htime
  rw [List.map_eq_nil_iff] at hpkts
  subst hpkts
  generalize hnil : ([] : List RtpPacket) = pkts at hdelivers
  induction hdelivers with
  | nil => exact ⟨hP, rfl⟩
  | timer now _ ih =>
    rcases htime with ⟨hnow, htime⟩
    unfold run
    rw [call_timer hnow] at htime ⊢
    simpa using ih htime hnil
  | input => cases hnil

theorem receives_cons {payload : List UInt8} {ts : UInt32}
    (hstep : ∀ info now, info.extendSeq = extendSeq → info.pkt.payload = payload →
      info.pkt.timestamp = ts → h.FuaInTime (.input info now) →
      (h.inputRtpPacket info now).1.Receives (extendSeq + 1) contents out' P
        ∧ (h.inputRtpPacket info now).2.filterMap PackEvent.output? = out)
    : h.Receives extendSeq ((payload, ts) :: contents) (out ++ out') P := by
  intro pkts calls hpkts hdelivers htime
  induction hdelivers with
  | nil => cases hpkts
  | timer now _ ih =>
    rcases htime with ⟨hnow, htime⟩
    unfold run
    rw [call_timer hnow] at htime ⊢
    simpa using ih hstep hpkts htime
  | @input pkt pkts calls info now localMs hpkt hrest ih =>
    rw [List.map_cons, List.cons.injEq] at hpkts
    rcases hpkts with ⟨hcontent, hpkts⟩
    rw [content, Prod.mk.injEq] at hcontent
    rcases hstep info now rfl (by rw [hpkt, ← hcontent.1]; rfl) (by rw [hpkt, ← hcontent.2]; rfl)
      htime.1 with ⟨hreceives, hout⟩
    rcases hreceives pkts calls hpkts hrest htime.2 with ⟨hP, hout'⟩
    unfold run
    simp only [call, List.filterMap_append, hout, hout', and_true]
    exact hP

theorem Receives.append (hleft : h.Receives extendSeq contents out
      fun h' => h'.Receives (extendSeq + contents.length) contents' out' P)
    : h.Receives extendSeq (contents ++ contents') (out ++ out') P := by
  intro pkts calls hpkts hdelivers htime
  rcases List.map_eq_append_iff.mp hpkts with ⟨pkts₁, pkts₂, rfl, hpkts₁, hpkts₂⟩
  rcases hdelivers.of_append with ⟨calls₁, calls₂, rfl, hdelivers₁, hdelivers₂⟩
  rw [inTime_append] at htime
  rcases hleft pkts₁ calls₁ hpkts₁ hdelivers₁ htime.1 with ⟨hright, hout⟩
  have hlen : pkts₁.length = contents.length := by rw [← hpkts₁, List.length_map]
  rw [hlen] at hdelivers₂
  rcases hright pkts₂ calls₂ hpkts₂ hdelivers₂ htime.2 with ⟨hP, hout'⟩
  rw [run_append, List.filterMap_append, hout, hout']
  exact ⟨hP, rfl⟩

end Receives

/--
The receiver between two NALUs.
-/
structure Ready (h : PackHandleH264) (extendSeq : Nat) : Prop where
  next : h.initFlag = true → h.lastExtendSeq + 1 = extendSeq
  startFlag : h.startFlag = false
  endFlag : h.endFlag = false
  packetsQueue : h.packetsQueue = []

theorem inputRtpPacket_eq {h : PackHandleH264} {info : RtpPacketInfo}
    (hnext : h.initFlag = true → h.lastExtendSeq + 1 = info.extendSeq) (now : Int)
    : h.inputRtpPacket info now
      = { h with initFlag := true, lastExtendSeq := info.extendSeq }.inputPayload info now := by
  unfold inputRtpPacket
  rw [if_neg]
  rintro ⟨hinit, hne⟩
  exact hne (hnext hinit)

theorem inputPayload_single {h : PackHandleH264} {info : RtpPacketInfo}
    (hge : 1 ≤ H264.nalType (info.pkt.payload.getD 0 0))
    (hle : H264.nalType (info.pkt.payload.getD 0 0) ≤ 23) (now : Int)
    : h.inputPayload info now
      = (h, [.mediaPacketOutput (h264Packet info.pkt.payload info.pkt.timestamp.toNat)]) := by
  unfold inputPayload
  simp only
  rw [if_pos ⟨hge, hle⟩]

theorem Ready.receives_single {h : PackHandleH264} {extendSeq : Nat} (hready : h.Ready extendSeq)
    (header : UInt8) (body : List UInt8) (ts : UInt32)
    (hge : 1 ≤ H264.nalType header) (hle : H264.nalType header ≤ 23)
    : h.Receives extendSeq [(header :: body, ts)] [h264Packet (header :: body) ts.toNat]
        fun h' => h'.Ready (extendSeq + 1) := by
  rw [← List.append_nil [h264Packet _ _]]
  apply receives_cons
  intro info now hseq hpayload hts _
  rw [inputRtpPacket_eq (by rw [hseq]; exact hready.next)]
  rw [inputPayload_single (by rw [hpayload]; exact hge) (by rw [hpayload]; exact hle), hpayload, hts]
  refine ⟨receives_nil ?_, rfl⟩
  constructor
  . intro _
    simp only [hseq]
  . exact hready.startFlag
  . exact hready.endFlag
  . exact hready.packetsQueue

section StapA

def stapAOffsets (offset : Nat) : List (List UInt8) → List Nat
  | [] => []
  | nalu :: nalus => (offset + 2) :: stapAOffsets (offset + 2 + nalu.length) nalus

theorem nalType_stapA : ∀ header : UInt8, H264.nalType ((header &&& 0xe0) ||| kStapA) = 24 := by
  apply forall_of_bitVec
  decide

theorem parseStapAOffsets_eq (nalus : List (List UInt8)) (offset : Nat)
    (hlen : ∀ nalu ∈ nalus, nalu.length < 2 ^ 16)
    : parseStapAOffsets offset (nalus.flatMap stapAField) = some (stapAOffsets offset nalus) := by
  induction nalus generalizing offset with
  | nil =>
    unfold parseStapAOffsets
    rfl
  | cons nalu nalus ih =>
    have hnalu := hlen nalu (List.mem_cons_self ..)
    have hrest := ih (offset + 2 + nalu.length) (fun n hn => hlen n (List.mem_cons_of_mem _ hn))
    have hfield : (nalu :: nalus).flatMap stapAField
        = write2Bytes nalu.length ++ (nalu ++ nalus.flatMap stapAField) := by
      simp [stapAField]
    have hread : read2Bytes (write2Bytes nalu.length ++ (nalu ++ nalus.flatMap stapAField))
        = nalu.length := by
      rw [read2Bytes_write2Bytes, Nat.mod_eq_of_lt hnalu]
    have hdrop : (write2Bytes nalu.length ++ (nalu ++ nalus.flatMap stapAField)).drop
        (2 + nalu.length) = nalus.flatMap stapAField := by
      rw [← List.append_assoc]
      apply List.drop_left'
      simp
    rw [hfield]
    unfold parseStapAOffsets
    simp only [List.length_append, length_write2Bytes, hread, hdrop, hrest]
    rw [if_neg (by omega), if_neg (by omega), if_neg (by omega)]
    rfl

theorem demuxStapALoop_eq (payload : List UInt8) (dts : Int) (nalus : List (List UInt8))
    (offset : Nat) (hpayload : payload.drop offset = nalus.flatMap stapAField)
    (hoffset : offset ≤ payload.length) (hne : ∀ nalu ∈ nalus, nalu ≠ [])
    : demuxStapALoop payload dts (stapAOffsets offset nalus ++ [payload.length + 2])
      = (nalus.map fun nalu => .mediaPacketOutput (h264Packet nalu dts), true) := by
  induction nalus generalizing offset with
  | nil =>
    rfl
  | cons nalu nalus ih =>
    have hnalu := List.length_pos_iff.mpr (hne nalu (List.mem_cons_self ..))
    have hfield : payload.drop offset = write2Bytes nalu.length ++ (nalu ++ nalus.flatMap stapAField) := by
      rw [hpayload]
      simp [stapAField]
    have hlen := congrArg List.length hfield
    simp only [List.length_drop, List.length_append, length_write2Bytes] at hlen
    have hdrop : payload.drop (offset + 2) = nalu ++ nalus.flatMap stapAField := by
      rw [← List.drop_drop, hfield]
      rfl
    have hdrop' : payload.drop (offset + 2 + nalu.length) = nalus.flatMap stapAField := by
      rw [← List.drop_drop, hdrop, List.drop_left]
    have hrest := ih (offset + 2 + nalu.length) hdrop' (by omega)
      (fun n hn => hne n (List.mem_cons_of_mem _ hn))
    -- the next offset is two bytes behind the end of this NALU, also if it is the last one
    have hnext : ∃ offsets, stapAOffsets (offset + 2 + nalu.length) nalus ++ [payload.length + 2]
        = (offset + 2 + nalu.length + 2) :: offsets := by
      cases nalus with
      | nil =>
        simp only [List.flatMap_nil, List.length_nil] at hlen
        refine ⟨[], ?_⟩
        rw [show payload.length = offset + 2 + nalu.length by omega]
        rfl
      | cons => exact ⟨_, rfl⟩
    rcases hnext with ⟨offsets, hoffsets⟩
    rw [hoffsets] at hrest
    rw [stapAOffsets, List.cons_append, hoffsets]
    unfold demuxStapALoop
    simp only [hrest, hdrop]
    rw [if_neg (by omega), show offset + 2 + nalu.length + 2 - 2 - (offset + 2) = nalu.length by omega,
      List.take_left]
    rfl

theorem demuxStapA_generateStapAPackets {info : RtpPacketInfo} {nalus : List (List UInt8)}
    (hpayload : info.pkt.payload = (generateStapAPackets nalus).payload)
    (hlen : ∀ nalu ∈ nalus, nalu.length < 2 ^ 16) (hne : ∀ nalu ∈ nalus, nalu ≠ [])
    (hnalus : nalus ≠ [])
    : demuxStapA info
      = (nalus.map fun nalu => .mediaPacketOutput (h264Packet nalu info.pkt.timestamp.toNat), true) := by
  have hlong : ¬info.pkt.payload.length ≤ 3 := by
    rcases List.exists_cons_of_ne_nil hnalus with ⟨nalu, rest, rfl⟩
    have := List.length_pos_iff.mpr (hne nalu (List.mem_cons_self ..))
    rw [hpayload]
    simp [generateStapAPackets, makeRtpPacket, stapAField]
    omega
  have hdrop : info.pkt.payload.drop 1 = nalus.flatMap stapAField := by
    rw [hpayload]
    rfl
  unfold demuxStapA
  simp only
  rw [if_neg hlong, hdrop, parseStapAOffsets_eq nalus 1 hlen]
  apply demuxStapALoop_eq _ _ _ _ hdrop (by omega) hne

theorem inputPayload_stapA {h : PackHandleH264} {info : RtpPacketInfo} {nalus : List (List UInt8)}
    (hpayload : info.pkt.payload = (generateStapAPackets nalus).payload)
    (hlen : ∀ nalu ∈ nalus, nalu.length < 2 ^ 16) (hne : ∀ nalu ∈ nalus, nalu ≠ [])
    (hnalus : nalus ≠ []) (now : Int)
    : h.inputPayload info now
      = (h, nalus.map fun nalu => .mediaPacketOutput (h264Packet nalu info.pkt.timestamp.toNat)) := by
  have hdemux := demuxStapA_generateStapAPackets hpayload hlen hne hnalus
  have htype : H264.nalType (info.pkt.payload.getD 0 0) = 24 := by
    rw [hpayload]
    apply nalType_stapA
  unfold inputPayload
  simp only [htype, hdemux]
  rfl

theorem Ready.receives_stapA {h : PackHandleH264} {extendSeq : Nat} (hready : h.Ready extendSeq)
    (nalus : List (List UInt8)) (ts : UInt32) (hlen : ∀ nalu ∈ nalus, nalu.length < 2 ^ 16)
    (hne : ∀ nalu ∈ nalus, nalu ≠ []) (hnalus : nalus ≠ [])
    : h.Receives extendSeq [((generateStapAPackets nalus).payload, ts)]
        (nalus.map fun nalu => h264Packet nalu ts.toNat) fun h' => h'.Ready (extendSeq + 1) := by
  rw [← List.append_nil (nalus.map _)]
  apply receives_cons
  intro info now hseq hpayload hts _
  rw [inputRtpPacket_eq (by rw [hseq]; exact hready.next), inputPayload_stapA hpayload hlen hne hnalus, hts]
  refine ⟨receives_nil ?_, ?_⟩
  . constructor
    . intro _
      simp [hseq]
    . exact hready.startFlag
    . exact hready.endFlag
    . exact hready.packetsQueue
  . simp [List.filterMap_map, Function.comp_def, PackEvent.output?]

end StapA

section FuA

theorem nalType_fuIndicator : ∀ header : UInt8, H264.nalType (fuIndicator header) = kFuA := by
  apply forall_of_bitVec
  decide

theorem getStartBit_fuHeader : ∀ (header : UInt8) (start last : Bool),
    decide (fuHeader header start last &&& 0x80 ≠ 0) = start := by
  apply forall_of_bitVec
  decide

theorem getEndBit_fuHeader : ∀ (header : UInt8) (start last : Bool),
    decide (fuHeader header start last &&& 0x40 ≠ 0) = last := by
  apply forall_of_bitVec
  decide

theorem naluHeader_fuA : ∀ (header : UInt8) (start last : Bool),
    (fuIndicator header &&& 0xe0) ||| (fuHeader header start last &&& 0x1f) = header := by
  apply forall_of_bitVec
  decide

/--
The queue holds the front of a NALU, no fragment of it is the last.
-/
def Collects (queue : List RtpPacketInfo) (ts : UInt32) (data : List UInt8) : Prop :=
  ∀ rest, demuxFuaLoop {} (queue ++ rest)
    = demuxFuaLoop { first := false, hasStart := true, dts := ts.toNat, data := data } rest

/--
The receiver inside of a NALU.
-/
structure Collecting (h : PackHandleH264) (extendSeq : Nat) (ts : UInt32) (data : List UInt8)
    : Prop where
  next : h.initFlag = true → h.lastExtendSeq + 1 = extendSeq
  startFlag : h.startFlag = true
  endFlag : h.endFlag = false
  packetsQueue : Collects h.packetsQueue ts data

variable {h : PackHandleH264} {extendSeq : Nat} {info : RtpPacketInfo} {now : Int} {ts : UInt32}
  {data : List UInt8}

theorem inputRtpPacket_fuA {header : UInt8} {start last : Bool} {fragment : List UInt8}
    (hnext : h.initFlag = true → h.lastExtendSeq + 1 = info.extendSeq)
    (hpayload : info.pkt.payload = fuIndicator header :: fuHeader header start last :: fragment)
    : h.inputRtpPacket info now
        = { h with initFlag := true, lastExtendSeq := info.extendSeq }.inputFua info now
      ∧ getStartBit info.pkt.payload = start ∧ getEndBit info.pkt.payload = last := by
  rw [inputRtpPacket_eq hnext, hpayload]
  refine ⟨?_, getStartBit_fuHeader header start last, getEndBit_fuHeader header start last⟩
  unfold inputPayload
  simp only [hpayload, List.getD_cons_zero, nalType_fuIndicator]
  rfl

theorem inputFua_one (hstart : getStartBit info.pkt.payload = true)
    (hend : getEndBit info.pkt.payload = true)
    : h.inputFua info now = h.resetRtpFua.reportLost info now := by
  unfold inputFua
  simp only [hstart, hend, and_self, if_true]

theorem inputFua_first (hstart : getStartBit info.pkt.payload = true)
    (hend : getEndBit info.pkt.payload = false) (hflag : h.endFlag = false)
    : h.inputFua info now
      = ({ h with startFlag := true, packetsQueue := [info] }.checkFuaTimeout now, []) := by
  unfold inputFua
  simp only [hstart, hend, hflag, Bool.false_eq_true, and_false, false_and, if_false, if_true,
    List.nil_append]

theorem inputFua_middle (hstart : getStartBit info.pkt.payload = false)
    (hend : getEndBit info.pkt.payload = false) (hflag : h.endFlag = false)
    : h.inputFua info now
      = ({ h with packetsQueue := h.packetsQueue ++ [info] }.checkFuaTimeout now, []) := by
  unfold inputFua
  simp only [hstart, hend, hflag, Bool.false_eq_true, false_and, if_false, and_false]

theorem inputFua_last (hstart : getStartBit info.pkt.payload = false)
    (hend : getEndBit info.pkt.payload = true)
    : h.inputFua info now = if h.startFlag = true then
        { h with endFlag := true, packetsQueue := h.packetsQueue ++ [info] }.outputFua info now
      else h.resetRtpFua.reportLost info now := by
  unfold inputFua
  cases hflag : h.startFlag with
  | true => simp only [hstart, hend, hflag, Bool.false_eq_true, false_and, if_false, if_true,
      not_true_eq_false, and_false, and_self]
  | false => simp only [hstart, hend, hflag, Bool.false_eq_true, false_and, if_false, if_true,
      not_false_eq_true, and_self]

theorem length_generateFuALoop (header : UInt8) (start : Bool) (sizes : List Nat)
    (fragment : List UInt8)
    : (generateFuALoop header start sizes fragment).length = sizes.length := by
  induction sizes generalizing start fragment with
  | nil => rfl
  | cons size sizes ih => simp [generateFuALoop, ih]

theorem Collects.push_first {header : UInt8} {fragment : List UInt8}
    (hpayload : info.pkt.payload = fuIndicator header :: fuHeader header true false :: fragment)
    : Collects [info] info.pkt.timestamp (header :: fragment) := by
  have hstart : getStartBit info.pkt.payload = true := by
    rw [hpayload]
    apply getStartBit_fuHeader
  have hlast : getEndBit info.pkt.payload = false := by
    rw [hpayload]
    apply getEndBit_fuHeader
  intro rest
  rw [List.singleton_append]
  simp only [demuxFuaLoop, Fua.push, hstart, hlast]
  simp [hpayload, naluHeader_fuA]

theorem Collects.push {header : UInt8} {queue : List RtpPacketInfo} {fragment : List UInt8}
    (hqueue : Collects queue ts data) (hts : info.pkt.timestamp = ts)
    (hpayload : info.pkt.payload = fuIndicator header :: fuHeader header false false :: fragment)
    : Collects (queue ++ [info]) ts (data ++ fragment) := by
  have hlast : getEndBit info.pkt.payload = false := by
    rw [hpayload]
    apply getEndBit_fuHeader
  intro rest
  rw [List.append_assoc, hqueue, List.singleton_append]
  simp only [demuxFuaLoop, Fua.push, hlast]
  simp [hpayload, hts]

theorem Collects.output {header : UInt8} {queue : List RtpPacketInfo} {fragment : List UInt8}
    (hqueue : Collects queue ts data) (hts : info.pkt.timestamp = ts)
    (hpayload : info.pkt.payload = fuIndicator header :: fuHeader header false true :: fragment)
    : demuxFuaLoop {} (queue ++ [info]) = ([], some (data ++ fragment, (ts.toNat : Int))) := by
  have hlast : getEndBit info.pkt.payload = true := by
    rw [hpayload]
    apply getEndBit_fuHeader
  rw [hqueue]
  simp only [demuxFuaLoop, Fua.push, hlast]
  simp [hpayload, hts]

theorem Collecting.receives {header : UInt8} {sizes : List Nat} {fragment : List UInt8}
    (hcollecting : h.Collecting extendSeq ts data) (hne : sizes ≠ [])
    (hsum : sizes.sum = fragment.length)
    : h.Receives extendSeq
        ((generateFuALoop header false sizes fragment).map fun pkt => (pkt.payload, ts))
        [h264Packet (data ++ fragment) ts.toNat] fun h' => h'.Ready (extendSeq + sizes.length) := by
  induction sizes generalizing h extendSeq data fragment with
  | nil => exact absurd rfl hne
  | cons size sizes ih =>
    rw [generateFuALoop, List.map_cons]
    rw [List.sum_cons] at hsum
    have hstart := hcollecting.startFlag
    have hend := hcollecting.endFlag
    cases sizes with
    | nil =>
      rw [← List.append_nil [h264Packet _ _]]
      apply receives_cons
      intro info now hseq hpayload hts _
      rcases inputRtpPacket_fuA (by rw [hseq]; exact hcollecting.next) hpayload with
        ⟨hinput, hstartBit, hendBit⟩
      have houtput := Collects.output hcollecting.packetsQueue hts hpayload
      rw [List.sum_nil, Nat.add_zero] at hsum
      rw [List.take_of_length_le (Nat.le_of_eq hsum.symm)] at houtput
      simp only [List.isEmpty_nil] at hendBit
      rw [hinput, inputFua_last hstartBit hendBit, if_pos hstart]
      unfold outputFua
      simp only [houtput]
      refine ⟨receives_nil ?_, rfl⟩
      constructor
      . intro _
        simp only [hseq]
        rfl
      . rfl
      . rfl
      . rfl
    | cons size' sizes =>
      rw [← List.nil_append [h264Packet _ _]]
      apply receives_cons
      intro info now hseq hpayload hts htime
      rcases inputRtpPacket_fuA (by rw [hseq]; exact hcollecting.next) hpayload with
        ⟨hinput, hstartBit, hendBit⟩
      have htype : H264.nalType (info.pkt.payload.getD 0 0) = kFuA := by
        rw [hpayload]
        apply nalType_fuIndicator
      simp only [List.isEmpty_cons] at hendBit
      rw [hinput, inputFua_middle hstartBit hendBit (by exact hend),
        checkFuaTimeout_eq (htime htype)]
      have hnext := @ih { h with
          initFlag := true
          lastExtendSeq := info.extendSeq
          packetsQueue := h.packetsQueue ++ [info] } (extendSeq + 1) (data ++ fragment.take size)
          (fragment.drop size) ⟨fun _ => by rw [hseq], hstart, hend,
            Collects.push hcollecting.packetsQueue hts hpayload⟩
          (List.cons_ne_nil _ _) (by rw [List.length_drop]; omega)
      rw [List.append_assoc, List.take_append_drop] at hnext
      rw [show extendSeq + (size :: size' :: sizes).length
        = extendSeq + 1 + (size' :: sizes).length by simp; omega]
      exact ⟨hnext, rfl⟩

/--
A fragmented NALU comes out if it has two fragments at least. A single fragment is dropped.
-/
theorem Ready.receives_fuA (hready : h.Ready extendSeq) (header : UInt8) {body : List UInt8}
    (hbody : body ≠ []) (ts : UInt32)
    : h.Receives extendSeq ((generateFuAPackets (header :: body)).map fun pkt => (pkt.payload, ts))
        (if body.length ≤ kPayloadMaxSize then [] else [h264Packet (header :: body) ts.toNat])
        fun h' => h'.Ready (extendSeq + (generateFuAPackets (header :: body)).length) := by
  have hpos := List.length_pos_iff.mpr hbody
  unfold generateFuAPackets
  simp only [List.headD_cons, List.length_cons, Nat.add_sub_cancel, List.tail_cons]
  split
  next hle =>
    rw [splitNalu_of_le hpos hle]
    apply @receives_cons _ _ _ [] []
    intro info now hseq hpayload _ _
    rcases inputRtpPacket_fuA (by rw [hseq]; exact hready.next) hpayload with
      ⟨hinput, hstartBit, hendBit⟩
    rw [hinput, inputFua_one hstartBit hendBit]
    unfold reportLost
    split
    all_goals
      refine ⟨receives_nil ?_, rfl⟩
      constructor
      . intro _
        simp only [resetRtpFua, hseq]
        rfl
      . rfl
      . rfl
      . rfl
  next hgt =>
    have hsum := sum_splitNalu (body.length - kPayloadMaxSize)
    have hne : splitNalu (body.length - kPayloadMaxSize) ≠ [] := splitNalu_ne_nil (by omega)
    rw [splitNalu_of_gt (Nat.not_le.mp hgt), ← List.nil_append [h264Packet _ _]]
    generalize hsizes : splitNalu (body.length - kPayloadMaxSize) = sizes at hsum hne
    have hempty : sizes.isEmpty = false := by simpa using hne
    apply receives_cons
    intro info now hseq hpayload hts htime
    rw [hempty] at hpayload
    rcases inputRtpPacket_fuA (by rw [hseq]; exact hready.next) hpayload with
      ⟨hinput, hstartBit, hendBit⟩
    have htype : H264.nalType (info.pkt.payload.getD 0 0) = kFuA := by
      rw [hpayload]
      apply nalType_fuIndicator
    have hqueue := Collects.push_first hpayload
    have hin := htime htype
    rw [hready.packetsQueue, List.nil_append] at hin
    rw [hinput, inputFua_first hstartBit hendBit (by exact hready.endFlag), checkFuaTimeout_eq hin]
    have hnext := @Collecting.receives { h with
        initFlag := true
        startFlag := true
        lastExtendSeq := info.extendSeq
        packetsQueue := [info] } (extendSeq + 1) ts (header :: body.take kPayloadMaxSize) header sizes
        (body.drop kPayloadMaxSize)
        ⟨fun _ => by rw [hseq], rfl, hready.endFlag, by rw [← hts]; exact hqueue⟩
        hne (by rw [hsum, List.length_drop])
    rw [List.cons_append, List.take_append_drop] at hnext
    rw [length_generateFuALoop, List.length_cons, Nat.add_comm sizes.length, ← Nat.add_assoc]
    exact ⟨hnext, rfl⟩

end FuA

end PackHandleH264

open PackHandleH264

namespace RtcSendStream

/--
The streams agree on what goes into packets apart from the sequence numbers.
-/
structure Same (s s' : RtcSendStream) : Prop where
  clockRate : s'.clockRate = s.clockRate
  sps : s'.sps = s.sps
  pps : s'.pps = s.pps

theorem sendVideoRtpPackets_eq (s : RtcSendStream) (ts : UInt32) (pkts : List RtpPacket)
    : s.Same (s.sendVideoRtpPackets ts pkts).1
      ∧ (s.sendVideoRtpPackets ts pkts).2.map content = pkts.map fun pkt => (pkt.payload, ts) := by
  induction pkts generalizing s with
  | nil => exact ⟨⟨rfl, rfl, rfl⟩, rfl⟩
  | cons pkt pkts ih =>
    rcases ih (s.sendVideoRtpPacket ts pkt).1 with ⟨⟨hrate, hsps, hpps⟩, hcontent⟩
    unfold sendVideoRtpPackets
    refine ⟨⟨hrate, hsps, hpps⟩, ?_⟩
    simp only [List.map_cons, hcontent]
    rfl

theorem drop_packet (n : Nalu)
    : ∃ pos, H264.getNaluTypePos n.packet.data = some pos ∧ n.packet.data.drop pos = n.data := by
  unfold Nalu.packet
  cases n.longCode with
  | true => exact ⟨4, rfl, rfl⟩
  | false => exact ⟨3, rfl, rfl⟩

theorem sendH264Packet_nalu (s : RtcSendStream) (n : Nalu)
    : s.sendH264Packet n.packet = some (s.sendVideoRtpPackets (s.rtpTimestamp n.dts)
        (s.stapAPackets n.isKeyFrame ++ naluPackets n.data)) := by
  rcases drop_packet n with ⟨pos, hpos, hdrop⟩
  unfold sendH264Packet
  simp only [hpos, hdrop, Nalu.data]
  rw [if_neg n.type_ne_sei]
  rfl

/--
What does arrive for a NALU.
-/
def arriving (s : RtcSendStream) (n : Nalu) : List MediaPacket :=
  s.expectedParamSets n ++
    if n.data.length = kPayloadMaxSize + 1 then []
    else [h264Packet n.data (s.rtpTimestamp n.dts).toNat]

theorem receives_naluPackets {h : PackHandleH264} {extendSeq : Nat} (hready : h.Ready extendSeq)
    (n : Nalu) (ts : UInt32)
    : h.Receives extendSeq ((naluPackets n.data).map fun pkt => (pkt.payload, ts))
        (if n.data.length = kPayloadMaxSize + 1 then [] else [h264Packet n.data ts.toNat])
        fun h' => h'.Ready (extendSeq + (naluPackets n.data).length) := by
  have hlen : n.data.length = n.body.length + 1 := rfl
  unfold naluPackets
  by_cases hle : n.data.length ≤ kPayloadMaxSize
  . rw [if_pos hle, if_neg (by omega)]
    exact hready.receives_single n.header n.body ts n.type_ge n.type_le
  . rw [if_neg hle]
    have hfua := hready.receives_fuA n.header n.body_ne_nil ts
    have hiff : (n.body.length ≤ kPayloadMaxSize) = (n.data.length = kPayloadMaxSize + 1) := by
      rw [eq_iff_iff]
      omega
    simp only [hiff] at hfua
    exact hfua

theorem receives_stapAPackets {h : PackHandleH264} {extendSeq : Nat} (hready : h.Ready extendSeq)
    (s : RtcSendStream) (n : Nalu)
    : h.Receives extendSeq
        ((s.stapAPackets n.isKeyFrame).map fun pkt => (pkt.payload, s.rtpTimestamp n.dts))
        (s.expectedParamSets n)
        fun h' => h'.Ready (extendSeq + (s.stapAPackets n.isKeyFrame).length) := by
  unfold stapAPackets expectedParamSets
  split
  next hkey =>
    have hsps := s.sps.property
    have hpps := s.pps.property
    apply hready.receives_stapA [s.sps.val, s.pps.val] (s.rtpTimestamp n.dts)
    . simp
      omega
    . simp [← List.length_pos_iff, hkey.2]
    . simp
  next => exact receives_nil hready

theorem receives_nalu {h : PackHandleH264} {extendSeq : Nat} (hready : h.Ready extendSeq)
    (s : RtcSendStream) (n : Nalu)
    : ∃ s' pkts, s.sendH264Packet n.packet = some (s', pkts) ∧ s.Same s'
      ∧ h.Receives extendSeq (pkts.map content) (s.arriving n)
          fun h' => h'.Ready (extendSeq + pkts.length) := by
  rcases sendVideoRtpPackets_eq s (s.rtpTimestamp n.dts)
    (s.stapAPackets n.isKeyFrame ++ naluPackets n.data) with ⟨hsame, hcontent⟩
  refine ⟨_, _, sendH264Packet_nalu s n, hsame, ?_⟩
  have hlen := congrArg List.length hcontent
  simp only [List.length_map, List.length_append] at hlen
  rw [hcontent, hlen, List.map_append]
  apply Receives.append
  intro pkts calls hpkts hdelivers htime
  rcases receives_stapAPackets hready s n pkts calls hpkts hdelivers htime with ⟨hready', hout⟩
  refine ⟨?_, hout⟩
  rw [List.length_map, ← Nat.add_assoc]
  exact receives_naluPackets hready' n _

theorem Same.arriving {s s' : RtcSendStream} (h : s.Same s') (n : Nalu)
    : s'.arriving n = s.arriving n := by
  unfold RtcSendStream.arriving expectedParamSets rtpTimestamp
  rw [h.clockRate, h.sps, h.pps]

theorem receives_nalus {h : PackHandleH264} {extendSeq : Nat} (hready : h.Ready extendSeq)
    (s : RtcSendStream) (nalus : List Nalu)
    : ∃ s' pkts, s.sendH264Packets (nalus.map Nalu.packet) = some (s', pkts)
      ∧ h.Receives extendSeq (pkts.map content) (nalus.flatMap s.arriving)
          fun h' => h'.Ready (extendSeq + pkts.length) := by
  induction nalus generalizing h extendSeq s with
  | nil => exact ⟨s, [], rfl, receives_nil hready⟩
  | cons n nalus ih =>
    rcases receives_nalu hready s n with ⟨s₁, pkts₁, hsend, hsame, hreceives⟩
    -- what is sent does not depend on the state of the receiver, take the state it starts in
    have hrest (h' : PackHandleH264) (hready' : h'.Ready (extendSeq + pkts₁.length)) :=
      ih hready' s₁
    have hstart : PackHandleH264.Ready {} (extendSeq + pkts₁.length) :=
      ⟨fun h => absurd h (by decide), rfl, rfl, rfl⟩
    rcases hrest {} hstart with ⟨s₂, pkts₂, hsend', _⟩
    refine ⟨s₂, pkts₁ ++ pkts₂, ?_, ?_⟩
    . rw [List.map_cons, sendH264Packets, hsend]
      simp only [hsend']
    . rw [List.map_append, List.flatMap_cons]
      apply Receives.append
      intro pkts calls hpkts hdelivers htime
      rcases hreceives pkts calls hpkts hdelivers htime with ⟨hready', hout⟩
      refine ⟨?_, hout⟩
      rcases hrest _ hready' with ⟨s₃, pkts₃, hsend'', hreceives'⟩
      rw [hsend'] at hsend''
      cases hsend''
      have harriving : s₁.arriving = s.arriving := funext hsame.arriving
      rw [List.length_map, ← harriving, List.length_append, ← Nat.add_assoc]
      exact hreceives'

theorem flatMap_arriving_iff (s : RtcSendStream) (nalus : List Nalu)
    : nalus.flatMap s.arriving = nalus.flatMap s.expected
      ↔ ∀ n ∈ nalus, n.data.length ≠ kPayloadMaxSize + 1 := by
  have hle (nalus : List Nalu)
      : (nalus.flatMap s.arriving).length ≤ (nalus.flatMap s.expected).length := by
    induction nalus with
    | nil => apply Nat.le_refl
    | cons n nalus ih =>
      simp only [List.flatMap_cons, List.length_append, arriving, expected]
      split
      all_goals
        simp only [List.length_nil, List.length_singleton]
        omega
  induction nalus with
  | nil => simp
  | cons n nalus ih =>
    rw [List.forall_mem_cons, List.flatMap_cons, List.flatMap_cons]
    by_cases hlost : n.data.length = kPayloadMaxSize + 1
    . have hfewer : (s.arriving n).length < (s.expected n).length := by
        simp [arriving, expected, hlost]
      constructor
      . intro heq
        have := congrArg List.length heq
        have := hle nalus
        simp only [List.length_append] at *
        omega
      . rintro ⟨hne, _⟩
        exact absurd hlost hne
    . have hsame : s.arriving n = s.expected n := by
        simp [arriving, expected, hlost]
      rw [hsame, List.append_cancel_left_eq]
      constructor
      . intro heq
        exact ⟨hlost, ih.mp heq⟩
      . rintro ⟨_, hrest⟩
        exact ih.mpr hrest

/--
The NALUs sent come out as they were, behind the parameter sets of key frames, if and only if none of
them has 1201 bytes.
-/
theorem sendH264Packets_received_iff (s : RtcSendStream) (nalus : List Nalu)
    : ∃ s' pkts, s.sendH264Packets (nalus.map Nalu.packet) = some (s', pkts)
      ∧ ∀ extendSeq calls, Delivers extendSeq pkts calls → PackHandleH264.InTime {} calls →
          ((PackHandleH264.run {} calls).2.filterMap PackEvent.output? = nalus.flatMap s.expected
            ↔ ∀ n ∈ nalus, n.data.length ≠ kPayloadMaxSize + 1) := by
  have hstart (extendSeq : Nat) : PackHandleH264.Ready {} extendSeq :=
    ⟨fun h => absurd h (by decide), rfl, rfl, rfl⟩
  rcases receives_nalus (hstart 0) s nalus with ⟨s', pkts, hsend, _⟩
  refine ⟨s', pkts, hsend, fun extendSeq calls hdelivers htime => ?_⟩
  rcases receives_nalus (hstart extendSeq) s nalus with ⟨_, _, hsend', hreceives⟩
  rw [hsend] at hsend'
  cases hsend'
  rw [(hreceives pkts calls rfl hdelivers htime).2, flatMap_arriving_iff]

def sampleStream : RtcSendStream where
  ssrc := 1
  pt := 96
  clockRate := 90000
  sps := ⟨[0x67, 1], by decide⟩
  pps := ⟨[0x68, 2], by decide⟩

def sampleIdr : Nalu where
  longCode := true
  header := 0x65
  body := [3, 4]
  dts := 40
  isKeyFrame := true
  type_ge := by decide
  type_le := by decide
  type_ne_sei := by decide
  body_ne_nil := by decide

/--
The packets one after the other at time 0.
-/
def deliverAll (extendSeq : Nat) : List RtpPacket → List PackHandleH264.Call
  | [] => []
  | pkt :: pkts => .input ⟨.video, pkt.clone 0, extendSeq, 90000⟩ 0 :: deliverAll (extendSeq + 1) pkts

theorem delivers_deliverAll (extendSeq : Nat) (pkts : List RtpPacket)
    : Delivers extendSeq pkts (deliverAll extendSeq pkts) := by
  induction pkts generalizing extendSeq with
  | nil => exact .nil extendSeq
  | cons pkt pkts ih => exact .input ⟨.video, pkt.clone 0, extendSeq, 90000⟩ 0 0 rfl (ih _)

theorem sendH264Packets_received_sample
    : ∃ s' pkts, sampleStream.sendH264Packets [sampleIdr.packet] = some (s', pkts)
      ∧ (PackHandleH264.run {} (deliverAll 7 pkts)).2.filterMap PackEvent.output?
        = [h264Packet [0x67, 1] 3600, h264Packet [0x68, 2] 3600, h264Packet [0x65, 3, 4] 3600] := by
  rcases sendH264Packets_received_iff sampleStream [sampleIdr] with ⟨s', pkts, hsend, hall⟩
  refine ⟨s', pkts, hsend, ?_⟩
  have hiff := hall 7 (deliverAll 7 pkts) (delivers_deliverAll 7 pkts)
  have hsent : (sampleStream.sendH264Packets [sampleIdr.packet]).map Prod.snd = some pkts := by
    show (sampleStream.sendH264Packets ([sampleIdr].map Nalu.packet)).map Prod.snd = some pkts
    rw [hsend]
    rfl
  cases hsent
  apply (hiff ⟨fun h => absurd h (by decide), fun h => absurd h (by decide), trivial⟩).mpr
  intro n hn
  rw [List.mem_singleton.mp hn]
  decide

def sampleBody : List UInt8 := List.replicate 1200 0

theorem length_sampleBody : sampleBody.length = 1200 := List.length_replicate

def sampleSlice : Nalu where
  longCode := true
  header := 0x41
  body := sampleBody
  dts := 40
  isKeyFrame := false
  type_ge := by decide
  type_le := by decide
  type_ne_sei := by decide
  body_ne_nil := by
    rw [← List.length_pos_iff, length_sampleBody]
    decide

/--
A NALU of 1201 bytes goes out as one fragment, which is both the first and the last and is dropped.
-/
theorem sendH264Packets_lost
    : ∃ s' pkts, sampleStream.sendH264Packets [sampleSlice.packet] = some (s', pkts)
      ∧ Delivers 7 pkts (deliverAll 7 pkts) ∧ PackHandleH264.InTime {} (deliverAll 7 pkts)
      ∧ (PackHandleH264.run {} (deliverAll 7 pkts)).2.filterMap PackEvent.output? = []
      ∧ [sampleSlice].flatMap sampleStream.expected ≠ [] := by
  have hlength : sampleSlice.data.length = 1201 := congrArg (· + 1) length_sampleBody
  have hpkts : naluPackets sampleSlice.data = [fuAPacket 0x41 true true sampleBody] := by
    unfold naluPackets generateFuAPackets
    rw [hlength, if_neg (by decide), splitNalu_of_le (by decide) (by decide)]
    have htail : sampleSlice.data.tail = sampleBody := rfl
    rw [htail]
    simp only [generateFuALoop]
    rw [List.take_of_length_le (Nat.le_of_eq length_sampleBody)]
    rfl
  have hready (extendSeq : Nat) : PackHandleH264.Ready {} extendSeq :=
    ⟨fun h => absurd h (by decide), rfl, rfl, rfl⟩
  have hsend := sendH264Packet_nalu sampleStream sampleSlice
  rw [hpkts] at hsend
  rcases receives_nalus (hready 7) sampleStream [sampleSlice] with ⟨s', pkts, hsend', hreceives⟩
  have hdelivers := delivers_deliverAll 7 pkts
  have htime : PackHandleH264.InTime {} (deliverAll 7 pkts) := by
    rw [List.map_singleton, sendH264Packets, hsend] at hsend'
    cases hsend'
    refine ⟨fun _ p hp => ?_, trivial⟩
    rw [List.mem_singleton.mp hp]
    decide
  refine ⟨s', pkts, hsend', hdelivers, htime, ?_, by simp [expected]⟩
  rw [(hreceives pkts _ rfl hdelivers htime).2]
  simp only [List.flatMap_singleton, arriving, hlength]
  rfl

end RtcSendStream
