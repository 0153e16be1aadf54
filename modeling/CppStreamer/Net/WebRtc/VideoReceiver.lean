import CppStreamer.Net.RtpRtcp.RtpBuffer
import CppStreamer.Net.WebRtc.JitterBuffer
import CppStreamer.Net.WebRtc.PackHandleH264

/-!
This module contains the path of a video packet through `JitterBuffer` and `PackHandleH264` with its
bytes in buffers, and the same path with the packets as values.
-/

def bufferPoolSize : Nat := 2048

/--
`RtpPacketInfo` with a pointer to the packet that its constructor clones.
-/
structure RtpPacketInfoRef where
  mediaType : MediaPktType
  pkt : RtpPacketRef
  extendSeq : Nat
  clockRate : Int
  deriving DecidableEq, Repr

inductive JitterEventRef where
  | output (pkt : RtpPacketInfoRef)
  | reset (pkt : RtpPacketInfoRef)
  deriving DecidableEq, Repr

def JitterEventRef.output? : JitterEventRef → Option RtpPacketInfoRef
  | .output pkt => some pkt
  | .reset _ => none

structure JitterBufferRef extends SeqState where
  mediaType : MediaPktType
  bufferTimeout : Int
  initFlag : Bool := false
  packetsMap : List RtpPacketInfoRef := []
  outputSeq : Nat := 0
  reportLostTs : Int := -1
  bufferIndex : Nat := 0
  deriving DecidableEq, Repr

namespace JitterBufferRef

def new (mediaType : MediaPktType) : Option JitterBufferRef :=
  match mediaType with
  | .video => some { mediaType, bufferTimeout := jitterBufferVideoTimeout }
  | .audio => some { mediaType, bufferTimeout := jitterBufferAudioTimeout }
  | _ => none

def insertPacket (pkt : RtpPacketInfoRef) (map : List RtpPacketInfoRef) : List RtpPacketInfoRef :=
  map.takeWhile (fun p => p.extendSeq < pkt.extendSeq)
    ++ pkt :: map.dropWhile (fun p => p.extendSeq ≤ pkt.extendSeq)

def reportLost (b : JitterBufferRef) (now : Int) (pkt : RtpPacketInfoRef)
    : JitterBufferRef × List JitterEventRef :=
  if 500 < now - b.reportLostTs then ({ b with reportLostTs := now }, [.reset pkt]) else (b, [])

def outputPacket (b : JitterBufferRef) (pkt : RtpPacketInfoRef)
    : JitterBufferRef × List JitterEventRef :=
  ({ b with outputSeq := pkt.extendSeq }, [.output pkt])

def timedOut (b : JitterBufferRef) (now : Int) (pkt : RtpPacketInfoRef) : Bool :=
  b.bufferTimeout < now - pkt.pkt.localMs

def checkTimeoutLoop (now : Int) (b : JitterBufferRef) : List RtpPacketInfoRef →
    JitterBufferRef × List JitterEventRef
  | [] => ({ b with packetsMap := [] }, [])
  | pkt :: pkts =>
    if b.timedOut now pkt then
      let (b, output) := b.outputPacket pkt
      let (b, lost) := b.reportLost now pkt
      let (b, events) := b.checkTimeoutLoop now pkts
      (b, output ++ lost ++ events)
    else if b.outputSeq + 1 = pkt.extendSeq then
      let (b, output) := b.outputPacket pkt
      let (b, events) := b.checkTimeoutLoop now pkts
      (b, output ++ events)
    else
      let (b, events) := b.checkTimeoutLoop now pkts
      ({ b with packetsMap := pkt :: b.packetsMap }, events)

def checkTimeout (b : JitterBufferRef) (now : Int) : JitterBufferRef × List JitterEventRef :=
  b.checkTimeoutLoop now b.packetsMap

def onTimer (b : JitterBufferRef) (now : Int) : JitterBufferRef × List JitterEventRef :=
  b.checkTimeout now

def outputContinued (b : JitterBufferRef) : List RtpPacketInfoRef →
    JitterBufferRef × List JitterEventRef
  | [] => ({ b with packetsMap := [] }, [])
  | pkt :: pkts =>
    if b.outputSeq + 1 = pkt.extendSeq then
      let (b, output) := b.outputPacket pkt
      let (b, events) := b.outputContinued pkts
      (b, output ++ events)
    else
      ({ b with packetsMap := pkt :: pkts }, [])

def updateSeq (b : JitterBufferRef) (seq : UInt16) : JitterBufferRef × Option (Nat × Bool) :=
  let (s, res) := b.toSeqState.updateSeq seq
  ({ b with toSeqState := s }, res)

/--
The constructor of `RtpPacketInfo` clones the packet of the pool once more, to a buffer of its own.
-/
def makeInfo (b : JitterBufferRef) (m : RtpMemory) (clockRate : Int) (inputPkt : RtpPacketRef)
    (extendSeq : Nat) (localMs : Int) : RtpMemory × Option RtpPacketInfoRef :=
  match m.clone (m.getData inputPkt) none localMs with
  | (m, none) => (m, none)
  | (m, some pkt) => (m, some ⟨b.mediaType, pkt, extendSeq, clockRate⟩)

/--
`InputRtpPacket` of a packet with these bytes, up to the creation of the `RtpPacketInfo`.
-/
def acceptPacket (b : JitterBufferRef) (m : RtpMemory) (clockRate : Int) (data : List UInt8)
    (localMs : Int) : JitterBufferRef × RtpMemory × Option (RtpPacketInfoRef × Bool) :=
  let index := b.bufferIndex % rtpPacketMaxSize
  let b := { b with bufferIndex := b.bufferIndex + 1 }
  match m.clone data (some (.pool index)) localMs with
  | (m, none) => (b, m, none)
  | (m, some inputPkt) =>
    let seq := (m.load inputPkt).seq
    if b.initFlag then
      match b.updateSeq seq with
      | (b, none) => (b, m, none)
      | (b, some (extendSeq, reset)) =>
        let b := if reset then { b with initFlag := false } else b
        let (m, info) := b.makeInfo m clockRate inputPkt extendSeq localMs
        (b, m, info.map fun info => (info, reset))
    else
      let b := { b with toSeqState := .initSeq seq, initFlag := true }
      let (m, info) := b.makeInfo m clockRate inputPkt seq.toNat localMs
      (b, m, info.map fun info => (info, true))

/--
`InputRtpPacket` behind that.
-/
def handleInfo (b : JitterBufferRef) (now : Int)
    : Option (RtpPacketInfoRef × Bool) → JitterBufferRef × List JitterEventRef
  | none => (b, [])
  | some (info, true) =>
    let (b, lost) := b.reportLost now info
    let (b, output) := b.outputPacket info
    (b, lost ++ output)
  | some (info, false) =>
    if b.outputSeq + 1 = info.extendSeq then
      let (b, output) := b.outputPacket info
      let (b, events) := b.outputContinued b.packetsMap
      (b, output ++ events)
    else if info.extendSeq ≤ b.outputSeq then (b, [])
    else { b with packetsMap := insertPacket info b.packetsMap }.checkTimeout now

end JitterBufferRef

namespace RtpMemory

def loadInfo (m : RtpMemory) (p : RtpPacketInfoRef) : RtpPacketInfo :=
  ⟨p.mediaType, m.load p.pkt, p.extendSeq, p.clockRate⟩

def loadEvent (m : RtpMemory) : JitterEventRef → JitterEvent
  | .output pkt => .output (m.loadInfo pkt)
  | .reset pkt => .reset (m.loadInfo pkt)

end RtpMemory

/--
`PackHandleH264` reads the bytes of its packets from memory when it looks at them.
-/
structure PackHandleRef where
  initFlag : Bool := false
  startFlag : Bool := false
  endFlag : Bool := false
  lastExtendSeq : Nat := 0
  packetsQueue : List RtpPacketInfoRef := []
  reportLostTs : Int := -1
  deriving DecidableEq, Repr

namespace PackHandleRef

open PackHandleH264 (getStartBit getEndBit Fua demuxStapA)

def reportLost (h : PackHandleRef) (m : RtpMemory) (pkt : RtpPacketInfoRef) (now : Int)
    : PackHandleRef × List PackEvent :=
  if 500 < now - h.reportLostTs then
    ({ h with reportLostTs := now }, [.packHandleReset (m.loadInfo pkt)])
  else (h, [])

def checkFuaTimeout (h : PackHandleRef) (now : Int) : PackHandleRef :=
  { h with
    packetsQueue := h.packetsQueue.dropWhile fun p => ¬(now - p.pkt.localMs < packBufferTimeout) }

def onTimer (h : PackHandleRef) (now : Int) : PackHandleRef := h.checkFuaTimeout now

def resetRtpFua (h : PackHandleRef) : PackHandleRef :=
  { h with startFlag := false, endFlag := false, packetsQueue := [] }

def demuxFuaLoop (m : RtpMemory) (f : Fua) : List RtpPacketInfoRef →
    List RtpPacketInfoRef × Option (List UInt8 × Int)
  | [] => ([], none)
  | p :: queue =>
    let f := f.push (m.load p.pkt)
    if getEndBit (m.load p.pkt).payload then (queue, if f.hasStart then some (f.data, f.dts) else none)
    else demuxFuaLoop m f queue

def outputFua (h : PackHandleRef) (m : RtpMemory) (pkt : RtpPacketInfoRef) (now : Int)
    : PackHandleRef × List PackEvent :=
  let (queue, nalu) := demuxFuaLoop m {} h.packetsQueue
  let h := { h with packetsQueue := queue }
  let (h, events) := match nalu with
    | some (nalu, dts) => (h, [PackEvent.mediaPacketOutput (h264Packet nalu dts)])
    | none => h.reportLost m pkt now
  ({ h with startFlag := false, endFlag := false }, events)

def inputFua (h : PackHandleRef) (m : RtpMemory) (pkt : RtpPacketInfoRef) (now : Int)
    : PackHandleRef × List PackEvent :=
  let start := getStartBit (m.load pkt.pkt).payload
  let last := getEndBit (m.load pkt.pkt).payload
  if start ∧ last then h.resetRtpFua.reportLost m pkt now
  else
    let h := if start then { h with packetsQueue := [], startFlag := true } else h
    if last ∧ ¬h.startFlag then h.resetRtpFua.reportLost m pkt now
    else
      let h := if last then { h with endFlag := true } else h
      let h := { h with packetsQueue := h.packetsQueue ++ [pkt] }
      if h.startFlag ∧ h.endFlag then h.outputFua m pkt now else (h.checkFuaTimeout now, [])

def inputPayload (h : PackHandleRef) (m : RtpMemory) (pkt : RtpPacketInfoRef) (now : Int)
    : PackHandleRef × List PackEvent :=
  let rtp := m.load pkt.pkt
  let nalType := H264.nalType (rtp.payload.getD 0 0)
  if 1 ≤ nalType ∧ nalType ≤ 23 then
    (h, [.mediaPacketOutput (h264Packet rtp.payload rtp.timestamp.toNat)])
  else if nalType = 28 then h.inputFua m pkt now
  else if nalType = 24 then
    match demuxStapA (m.loadInfo pkt) with
    | (events, true) => (h, events)
    | (events, false) =>
      let (h, lost) := h.reportLost m pkt now
      (h, events ++ lost)
  else (h, [])

def inputRtpPacket (h : PackHandleRef) (m : RtpMemory) (pkt : RtpPacketInfoRef) (now : Int)
    : PackHandleRef × List PackEvent :=
  if h.initFlag ∧ h.lastExtendSeq + 1 ≠ pkt.extendSeq then
    let (h, events) := { h with
      packetsQueue := []
      startFlag := false
      endFlag := false }.reportLost m pkt now
    ({ h with lastExtendSeq := pkt.extendSeq }, events)
  else
    { h with initFlag := true, lastExtendSeq := pkt.extendSeq }.inputPayload m pkt now

end PackHandleRef

/--
The calls of a receiver. The clock of `PackHandleH264` is read at each packet that the jitter buffer
outputs.
-/
inductive VideoCall where
  | input (clockRate : Int) (data : List UInt8) (localMs now : Int) (packNow : Nat → Int)
  | jitterTimer (now : Int) (packNow : Nat → Int)
  | packTimer (now : Int)

/--
The receiver with its packets as values.
-/
structure VideoReceiver where
  jitter : JitterBuffer
  pack : PackHandleH264 := {}

namespace VideoReceiver

def rtpPacketOutput (h : PackHandleH264) (packNow : Nat → Int)
    : List RtpPacketInfo → PackHandleH264 × List PackEvent
  | [] => (h, [])
  | pkt :: pkts =>
    let (h, events) := h.inputRtpPacket pkt (packNow 0)
    let (h, rest) := rtpPacketOutput h (fun k => packNow (k + 1)) pkts
    (h, events ++ rest)

def handleJitter (s : VideoReceiver) (packNow : Nat → Int) (res : JitterBuffer × List JitterEvent)
    : VideoReceiver × List PackEvent :=
  let (pack, events) := rtpPacketOutput s.pack packNow (res.2.filterMap JitterEvent.output?)
  ({ jitter := res.1, pack := pack }, events)

/--
A packet that cannot be cloned is not received.
-/
def call (s : VideoReceiver) : VideoCall → VideoReceiver × List PackEvent
  | .input clockRate data localMs now packNow =>
    if data.length < rtpPacketMaxSize then
      match RtpPacket.parse data localMs with
      | none => (s, [])
      | some pkt => s.handleJitter packNow (s.jitter.inputRtpPacket clockRate pkt localMs now)
    else
      (s, [])
  | .jitterTimer now packNow => s.handleJitter packNow (s.jitter.onTimer now)
  | .packTimer now => ({ s with pack := s.pack.onTimer now }, [])

def run (s : VideoReceiver) : List VideoCall → VideoReceiver × List PackEvent
  | [] => (s, [])
  | call :: calls =>
    let (s, events) := s.call call
    let (s, rest) := s.run calls
    (s, events ++ rest)

end VideoReceiver

/--
A packet that is output has these bytes at that moment.
-/
inductive VideoEvent where
  | rtpOutput (pkt : RtpPacketInfoRef) (data : List UInt8)
  | pack (event : PackEvent)

def VideoEvent.pack? : VideoEvent → Option PackEvent
  | .rtpOutput _ _ => none
  | .pack event => some event

/--
The receiver with its packets in buffers.
-/
structure VideoReceiverRef where
  memory : RtpMemory
  jitter : JitterBufferRef
  pack : PackHandleRef := {}

namespace VideoReceiverRef

def rtpPacketOutput (h : PackHandleRef) (m : RtpMemory) (packNow : Nat → Int)
    : List RtpPacketInfoRef → PackHandleRef × List VideoEvent
  | [] => (h, [])
  | pkt :: pkts =>
    let (h, events) := h.inputRtpPacket m pkt (packNow 0)
    let (h, rest) := rtpPacketOutput h m (fun k => packNow (k + 1)) pkts
    (h, .rtpOutput pkt (m.getData pkt.pkt) :: events.map .pack ++ rest)

def handleJitter (h : PackHandleRef) (m : RtpMemory) (packNow : Nat → Int)
    (res : JitterBufferRef × List JitterEventRef) : VideoReceiverRef × List VideoEvent :=
  let (pack, events) := rtpPacketOutput h m packNow (res.2.filterMap JitterEventRef.output?)
  ({ memory := m, jitter := res.1, pack := pack }, events)

def call (s : VideoReceiverRef) : VideoCall → VideoReceiverRef × List VideoEvent
  | .input clockRate data localMs now packNow =>
    let (jitter, m, info) := s.jitter.acceptPacket s.memory clockRate data localMs
    handleJitter s.pack m packNow (jitter.handleInfo now info)
  | .jitterTimer now packNow => handleJitter s.pack s.memory packNow (s.jitter.onTimer now)
  | .packTimer now => ({ s with pack := s.pack.onTimer now }, [])

/--
The packets that are queued, to be output or to be put together.
-/
def held (s : VideoReceiverRef) : List RtpPacketInfoRef := s.jitter.packetsMap ++ s.pack.packetsQueue

end VideoReceiverRef

namespace RtpMemory

def loadJitter (m : RtpMemory) (b : JitterBufferRef) : JitterBuffer where
  toSeqState := b.toSeqState
  mediaType := b.mediaType
  bufferTimeout := b.bufferTimeout
  initFlag := b.initFlag
  packetsMap := b.packetsMap.map m.loadInfo
  outputSeq := b.outputSeq
  reportLostTs := b.reportLostTs

def loadPack (m : RtpMemory) (h : PackHandleRef) : PackHandleH264 where
  initFlag := h.initFlag
  startFlag := h.startFlag
  endFlag := h.endFlag
  lastExtendSeq := h.lastExtendSeq
  packetsQueue := h.packetsQueue.map m.loadInfo
  reportLostTs := h.reportLostTs

end RtpMemory

namespace VideoReceiverRef

def load (s : VideoReceiverRef) : VideoReceiver where
  jitter := s.memory.loadJitter s.jitter
  pack := s.memory.loadPack s.pack

end VideoReceiverRef

section Jitter

variable (m : RtpMemory) (b : JitterBufferRef) (now : Int) (pkt : RtpPacketInfoRef)
  (pkts : List RtpPacketInfoRef)

def RtpMemory.loadJitterRes (res : JitterBufferRef × List JitterEventRef)
    : JitterBuffer × List JitterEvent := (m.loadJitter res.1, res.2.map m.loadEvent)

namespace JitterBufferRef

theorem load_outputs (events : List JitterEventRef)
    : (events.map m.loadEvent).filterMap JitterEvent.output?
      = (events.filterMap JitterEventRef.output?).map m.loadInfo := by
  rw [List.filterMap_map, List.map_filterMap]
  apply List.filterMap_congr
  intro event _
  cases event with
  | output pkt => rfl
  | reset pkt => rfl

theorem load_insertPacket
    : (insertPacket pkt pkts).map m.loadInfo
      = JitterBuffer.insertPacket (m.loadInfo pkt) (pkts.map m.loadInfo) := by
  unfold insertPacket JitterBuffer.insertPacket
  rw [List.map_append, List.map_cons, List.takeWhile_map, List.dropWhile_map]
  rfl

theorem load_reportLost
    : (m.loadJitter b).reportLost now (m.loadInfo pkt) = m.loadJitterRes (b.reportLost now pkt) := by
  unfold JitterBuffer.reportLost reportLost
  by_cases hlate : 500 < now - b.reportLostTs
  . rw [if_pos hlate, if_pos (by exact hlate)]
    rfl
  . rw [if_neg hlate, if_neg (by exact hlate)]
    rfl

theorem load_checkTimeoutLoop
    : (m.loadJitter b).checkTimeoutLoop now (pkts.map m.loadInfo)
      = m.loadJitterRes (b.checkTimeoutLoop now pkts) := by
  induction pkts generalizing b with
  | nil => rfl
  | cons pkt pkts ih =>
    rw [List.map_cons]
    unfold JitterBuffer.checkTimeoutLoop checkTimeoutLoop
    by_cases htimedOut : b.timedOut now pkt = true
    . rw [if_pos htimedOut, if_pos (by exact htimedOut)]
      have hlost : ((m.loadJitter b).outputPacket (m.loadInfo pkt)).1.reportLost now (m.loadInfo pkt)
          = m.loadJitterRes ((b.outputPacket pkt).1.reportLost now pkt) :=
        load_reportLost m (b.outputPacket pkt).1 now pkt
      simp only [hlost, RtpMemory.loadJitterRes, ih, List.map_append]
      rfl
    . rw [if_neg htimedOut, if_neg (by exact htimedOut)]
      by_cases hnext : b.outputSeq + 1 = pkt.extendSeq
      . rw [if_pos hnext, if_pos (by exact hnext)]
        have hrest : ((m.loadJitter b).outputPacket (m.loadInfo pkt)).1.checkTimeoutLoop now
            (pkts.map m.loadInfo)
            = m.loadJitterRes ((b.outputPacket pkt).1.checkTimeoutLoop now pkts) :=
          ih (b.outputPacket pkt).1
        simp only [hrest, RtpMemory.loadJitterRes, List.map_append]
        rfl
      . rw [if_neg hnext, if_neg (by exact hnext)]
        simp only [ih]
        rfl

theorem load_outputContinued
    : (m.loadJitter b).outputContinued (pkts.map m.loadInfo)
      = m.loadJitterRes (b.outputContinued pkts) := by
  induction pkts generalizing b with
  | nil => rfl
  | cons pkt pkts ih =>
    rw [List.map_cons]
    unfold JitterBuffer.outputContinued outputContinued
    by_cases hnext : b.outputSeq + 1 = pkt.extendSeq
    . rw [if_pos hnext, if_pos (by exact hnext)]
      have hrest : ((m.loadJitter b).outputPacket (m.loadInfo pkt)).1.outputContinued
          (pkts.map m.loadInfo)
          = m.loadJitterRes ((b.outputPacket pkt).1.outputContinued pkts) :=
        ih (b.outputPacket pkt).1
      simp only [hrest, RtpMemory.loadJitterRes, List.map_append]
      rfl
    . rw [if_neg hnext, if_neg (by exact hnext)]
      rfl

end JitterBufferRef

end Jitter

section Pack

variable (m : RtpMemory) (h : PackHandleRef) (pkt : RtpPacketInfoRef) (now : Int)

def RtpMemory.loadPackRes (res : PackHandleRef × List PackEvent)
    : PackHandleH264 × List PackEvent := (m.loadPack res.1, res.2)

namespace PackHandleRef

open PackHandleH264 (getStartBit getEndBit Fua demuxStapA)

theorem load_reportLost
    : (m.loadPack h).reportLost (m.loadInfo pkt) now = m.loadPackRes (h.reportLost m pkt now) := by
  unfold PackHandleH264.reportLost reportLost
  by_cases hlate : 500 < now - h.reportLostTs
  . rw [if_pos hlate, if_pos (by exact hlate)]
    rfl
  . rw [if_neg hlate, if_neg (by exact hlate)]
    rfl

theorem load_checkFuaTimeout
    : (m.loadPack h).checkFuaTimeout now = m.loadPack (h.checkFuaTimeout now) := by
  unfold PackHandleH264.checkFuaTimeout checkFuaTimeout RtpMemory.loadPack
  simp only
  rw [List.dropWhile_map]
  rfl

theorem load_demuxFuaLoop (f : Fua) (queue : List RtpPacketInfoRef)
    : PackHandleH264.demuxFuaLoop f (queue.map m.loadInfo)
      = ((demuxFuaLoop m f queue).1.map m.loadInfo, (demuxFuaLoop m f queue).2) := by
  induction queue generalizing f with
  | nil => rfl
  | cons p queue ih =>
    rw [List.map_cons]
    unfold PackHandleH264.demuxFuaLoop demuxFuaLoop
    by_cases hend : getEndBit (m.load p.pkt).payload = true
    . simp only [hend, if_true]
      rw [if_pos (by exact hend)]
      rfl
    . simp only [hend]
      rw [if_neg (by exact hend)]
      apply ih

theorem load_outputFua
    : (m.loadPack h).outputFua (m.loadInfo pkt) now = m.loadPackRes (h.outputFua m pkt now) := by
  unfold PackHandleH264.outputFua outputFua
  have hqueue := load_demuxFuaLoop m {} h.packetsQueue
  rw [show (m.loadPack h).packetsQueue = h.packetsQueue.map m.loadInfo from rfl, hqueue]
  rcases demuxFuaLoop m {} h.packetsQueue with ⟨queue, nalu⟩
  cases nalu with
  | some nalu => rfl
  | none =>
    have hlost := load_reportLost m { h with packetsQueue := queue } pkt now
    simp only
    rw [show { m.loadPack h with packetsQueue := queue.map m.loadInfo }
      = m.loadPack { h with packetsQueue := queue } from rfl, hlost]
    rfl

theorem load_push
    : (let h' := { m.loadPack h with packetsQueue := (m.loadPack h).packetsQueue ++ [m.loadInfo pkt] }
        if h'.startFlag ∧ h'.endFlag then h'.outputFua (m.loadInfo pkt) now
        else (h'.checkFuaTimeout now, []))
      = m.loadPackRes (let h' := { h with packetsQueue := h.packetsQueue ++ [pkt] }
        if h'.startFlag ∧ h'.endFlag then h'.outputFua m pkt now else (h'.checkFuaTimeout now, [])) := by
  have hpush : { m.loadPack h with packetsQueue := (m.loadPack h).packetsQueue ++ [m.loadInfo pkt] }
      = m.loadPack { h with packetsQueue := h.packetsQueue ++ [pkt] } := by
    simp [RtpMemory.loadPack]
  simp only [hpush]
  by_cases hboth : h.startFlag = true ∧ h.endFlag = true
  . rw [if_pos hboth, if_pos (by exact hboth), load_outputFua]
  . rw [if_neg hboth, if_neg (by exact hboth), load_checkFuaTimeout]
    rfl

theorem load_inputFua
    : (m.loadPack h).inputFua (m.loadInfo pkt) now = m.loadPackRes (h.inputFua m pkt now) := by
  have hreset := load_reportLost m h.resetRtpFua pkt now
  unfold PackHandleH264.inputFua inputFua
  rw [show (m.loadInfo pkt).pkt = m.load pkt.pkt from rfl]
  cases getStartBit (m.load pkt.pkt).payload with
  | true =>
    cases getEndBit (m.load pkt.pkt).payload with
    | true => exact hreset
    | false => exact load_push m { h with packetsQueue := [], startFlag := true } pkt now
  | false =>
    cases getEndBit (m.load pkt.pkt).payload with
    | true =>
      rcases h with ⟨initFlag, startFlag, endFlag, lastExtendSeq, packetsQueue, reportLostTs⟩
      cases startFlag with
      | true => exact load_push m ⟨initFlag, true, true, lastExtendSeq, packetsQueue, reportLostTs⟩ pkt now
      | false => exact hreset
    | false => exact load_push m h pkt now

theorem load_inputPayload
    : (m.loadPack h).inputPayload (m.loadInfo pkt) now = m.loadPackRes (h.inputPayload m pkt now) := by
  unfold PackHandleH264.inputPayload inputPayload
  rw [show (m.loadInfo pkt).pkt = m.load pkt.pkt from rfl]
  simp only
  generalize H264.nalType ((m.load pkt.pkt).payload.getD 0 0) = nalType
  by_cases hsingle : 1 ≤ nalType ∧ nalType ≤ 23
  . rw [if_pos hsingle, if_pos hsingle]
    rfl
  . rw [if_neg hsingle, if_neg hsingle]
    by_cases hfua : nalType = 28
    . rw [if_pos hfua, if_pos hfua]
      apply load_inputFua
    . rw [if_neg hfua, if_neg hfua]
      by_cases hstapA : nalType = 24
      . rw [if_pos hstapA, if_pos hstapA]
        rcases demuxStapA (m.loadInfo pkt) with ⟨events, _ | _⟩
        . simp only [load_reportLost]
          rfl
        . rfl
      . rw [if_neg hstapA, if_neg hstapA]
        rfl

theorem load_inputRtpPacket
    : (m.loadPack h).inputRtpPacket (m.loadInfo pkt) now
      = m.loadPackRes (h.inputRtpPacket m pkt now) := by
  unfold PackHandleH264.inputRtpPacket inputRtpPacket
  by_cases hgap : h.initFlag = true ∧ h.lastExtendSeq + 1 ≠ pkt.extendSeq
  . rw [if_pos hgap, if_pos (by exact hgap)]
    have hlost := load_reportLost m { h with
      packetsQueue := []
      startFlag := false
      endFlag := false } pkt now
    rw [show { m.loadPack h with packetsQueue := [], startFlag := false, endFlag := false }
      = m.loadPack { h with packetsQueue := [], startFlag := false, endFlag := false } from rfl, hlost]
    rfl
  . rw [if_neg hgap, if_neg (by exact hgap)]
    exact load_inputPayload m { h with initFlag := true, lastExtendSeq := pkt.extendSeq } pkt now

end PackHandleRef

end Pack

namespace JitterBufferRef

variable {b : JitterBufferRef} {m : RtpMemory} {data : List UInt8} {layout : RtpLayout}

/--
The memory behind `InputRtpPacket`: if the packet was accepted, then its bytes are in a new buffer.
-/
structure Accepts (m : RtpMemory) (data : List UInt8) (m' : RtpMemory)
    (info : Option (RtpPacketInfoRef × Bool)) : Prop where
  memory : m.Extends m'
  allocated : m'.allocated = m.allocated + if info.isSome then 1 else 0
  buffer : ∀ p ∈ info, p.1.pkt.buffer = .heap m.allocated
  stores : ∀ p ∈ info, m'.Stores p.1.pkt data

theorem acceptPacket_of_exception
    (hparse : data.length < rtpPacketMaxSize → RtpLayout.parse data = none) (clockRate localMs : Int)
    : ∃ m', b.acceptPacket m clockRate data localMs
        = ({ b with bufferIndex := b.bufferIndex + 1 }, m', none)
      ∧ Accepts m data m' none := by
  unfold acceptPacket RtpMemory.clone
  by_cases hlen : data.length < rtpPacketMaxSize
  . simp only [if_pos hlen, hparse hlen]
    exact ⟨_, rfl, RtpMemory.extends_memcpy_pool .., rfl, by simp, by simp⟩
  . simp only [if_neg hlen]
    exact ⟨m, rfl, RtpMemory.Extends.refl m, rfl, by simp, by simp⟩

theorem makeInfo_eq (hlen : data.length < rtpPacketMaxSize)
    (hparse : RtpLayout.parse data = some layout) {inputPkt : RtpPacketRef}
    (hdata : m.getData inputPkt = data) (clockRate : Int) (extendSeq : Nat) (localMs : Int)
    : ∃ m' info, b.makeInfo m clockRate inputPkt extendSeq localMs = (m', some info)
      ∧ m'.loadInfo info = ⟨b.mediaType, .ofData data layout localMs, extendSeq, clockRate⟩
      ∧ ∀ reset, Accepts m data m' (some (info, reset)) := by
  unfold makeInfo
  simp only [hdata, RtpMemory.clone_heap hlen hparse]
  have hget (p : RtpPacketRef) (hbuffer : p.buffer = .heap m.allocated) (hdataLen : p.dataLen = data.length)
      : ({ m with allocated := m.allocated + 1 }.memcpy (.heap m.allocated) data).getData p = data := by
    unfold RtpMemory.getData
    rw [hbuffer, hdataLen, RtpMemory.data_memcpy_self, List.take_left]
  refine ⟨_, _, rfl, ?_, fun reset => ⟨RtpMemory.extends_memcpy_heap m data, rfl, ?_, ?_⟩⟩
  . unfold RtpMemory.loadInfo RtpMemory.load
    rw [hget _ rfl rfl]
  . rintro _ ⟨⟩
    rfl
  . rintro _ ⟨⟩
    exact ⟨hget _ rfl rfl, hparse⟩

theorem acceptPacket_of_parse (hlen : data.length < rtpPacketMaxSize)
    (hparse : RtpLayout.parse data = some layout) (clockRate localMs : Int)
    : ∃ b' m' info, b.acceptPacket m clockRate data localMs = (b', m', info)
      ∧ b'.packetsMap = b.packetsMap ∧ Accepts m data m' info
      ∧ ∀ m₀ : RtpMemory, (m₀.loadJitter b).acceptPacket clockRate (.ofData data layout localMs) localMs
          = (m₀.loadJitter b', info.map fun p => (m'.loadInfo p.1, p.2)) := by
  have hmemory := RtpMemory.extends_memcpy_pool m (b.bufferIndex % rtpPacketMaxSize) data
  unfold acceptPacket
  simp only [RtpMemory.clone_pool hlen hparse]
  generalize hm : m.memcpy (.pool (b.bufferIndex % rtpPacketMaxSize)) data = m₁ at hmemory
  have hallocated : m₁.allocated = m.allocated := by
    rw [← hm]
    rfl
  generalize hpkt : ({ layout with
    buffer := .pool (b.bufferIndex % rtpPacketMaxSize)
    dataLen := data.length
    localMs := localMs } : RtpPacketRef) = inputPkt
  have hdata : m₁.getData inputPkt = data := by
    unfold RtpMemory.getData
    rw [← hpkt, ← hm, RtpMemory.data_memcpy_self, List.take_left]
  have hload : m₁.load inputPkt = .ofData data layout localMs := by
    unfold RtpMemory.load
    rw [hdata, ← hpkt]
  have hlift {m' : RtpMemory} {info : Option (RtpPacketInfoRef × Bool)}
      (haccepts : Accepts m₁ data m' info) : Accepts m data m' info := by
    have hbuffer := haccepts.buffer
    have hcount := haccepts.allocated
    rw [hallocated] at hbuffer hcount
    exact ⟨hmemory.trans haccepts.memory, hcount, hbuffer, haccepts.stores⟩
  rw [hload]
  generalize hseq : (RtpPacket.ofData data layout localMs).seq = seq
  cases hinit : b.initFlag with
  | false =>
    rcases @makeInfo_eq { b with
      bufferIndex := b.bufferIndex + 1
      toSeqState := .initSeq seq
      initFlag := true } m₁ data layout hlen hparse inputPkt hdata clockRate seq.toNat localMs with
      ⟨m', info, hmake, hvalue, haccepts⟩
    simp only [Bool.false_eq_true, if_false, hmake]
    refine ⟨_, m', _, rfl, rfl, hlift (haccepts true), ?_⟩
    intro m₀
    unfold JitterBuffer.acceptPacket
    rw [show (m₀.loadJitter b).initFlag = false from hinit, hseq]
    simp only [Bool.false_eq_true, if_false, Option.map_some, hvalue]
    rfl
  | true =>
    unfold updateSeq
    rcases hupdate : b.toSeqState.updateSeq seq with ⟨state, _ | ⟨extendSeq, reset⟩⟩
    . simp only [if_true]
      refine ⟨_, m₁, none, rfl, rfl, ⟨hmemory, hallocated, by simp, by simp⟩, ?_⟩
      intro m₀
      unfold JitterBuffer.acceptPacket JitterBuffer.updateSeq
      rw [show (m₀.loadJitter b).initFlag = true from hinit, hseq,
        show (m₀.loadJitter b).toSeqState = b.toSeqState from rfl, hupdate]
      rfl
    . simp only [if_true]
      have hmake (b' : JitterBufferRef) :=
        @makeInfo_eq b' m₁ data layout hlen hparse inputPkt hdata clockRate extendSeq localMs
      cases reset with
      | true =>
        rcases hmake { b with
          bufferIndex := b.bufferIndex + 1
          toSeqState := state
          initFlag := false } with ⟨m', info, hmake, hvalue, haccepts⟩
        simp only [if_true, hmake]
        refine ⟨_, m', _, rfl, rfl, hlift (haccepts true), ?_⟩
        intro m₀
        unfold JitterBuffer.acceptPacket JitterBuffer.updateSeq
        rw [show (m₀.loadJitter b).initFlag = true from hinit, hseq,
          show (m₀.loadJitter b).toSeqState = b.toSeqState from rfl, hupdate]
        simp only [if_true, Option.map_some, hvalue]
        rfl
      | false =>
        rcases hmake { b with
          bufferIndex := b.bufferIndex + 1
          toSeqState := state
          initFlag := true } with ⟨m', info, hmake, hvalue, haccepts⟩
        simp only [Bool.false_eq_true, if_false, hmake]
        refine ⟨_, m', _, rfl, rfl, hlift (haccepts false), ?_⟩
        intro m₀
        unfold JitterBuffer.acceptPacket JitterBuffer.updateSeq
        rw [show (m₀.loadJitter b).initFlag = true from hinit, hseq,
          show (m₀.loadJitter b).toSeqState = b.toSeqState from rfl, hupdate]
        simp only [if_true, Bool.false_eq_true, if_false, Option.map_some, hvalue,
          RtpMemory.loadJitter, hinit]
        rfl

end JitterBufferRef

namespace JitterBufferRef

theorem acceptPacket_accepts (b : JitterBufferRef) (m : RtpMemory) (clockRate : Int)
    (data : List UInt8) (localMs : Int)
    : ∃ b' m' info, b.acceptPacket m clockRate data localMs = (b', m', info)
      ∧ b'.packetsMap = b.packetsMap ∧ Accepts m data m' info := by
  by_cases hparse : data.length < rtpPacketMaxSize → RtpLayout.parse data = none
  . rcases acceptPacket_of_exception hparse clockRate localMs with ⟨m', haccept, haccepts⟩
    exact ⟨_, m', none, haccept, rfl, haccepts⟩
  . rw [Classical.not_imp] at hparse
    rcases Option.ne_none_iff_exists'.mp hparse.2 with ⟨layout, hlayout⟩
    rcases acceptPacket_of_parse hparse.1 hlayout clockRate localMs with
      ⟨b', m', info, haccept, hmap, haccepts, _⟩
    exact ⟨b', m', info, haccept, hmap, haccepts⟩

theorem load_handleInfo {m : RtpMemory} {b : JitterBufferRef} {b₀ : JitterBuffer} {clockRate : Int}
    {pkt : RtpPacket} {localMs : Int} {info : Option (RtpPacketInfoRef × Bool)}
    (haccept : b₀.acceptPacket clockRate pkt localMs
      = (m.loadJitter b, info.map fun p => (m.loadInfo p.1, p.2))) (now : Int)
    : b₀.inputRtpPacket clockRate pkt localMs now = m.loadJitterRes (b.handleInfo now info) := by
  unfold JitterBuffer.inputRtpPacket handleInfo
  rw [haccept]
  rcases info with _ | ⟨info, _ | _⟩
  . rfl
  . simp only [Option.map_some]
    by_cases hnext : b.outputSeq + 1 = info.extendSeq
    . rw [if_pos hnext, if_pos (by exact hnext)]
      have hrest : ((m.loadJitter b).outputPacket (m.loadInfo info)).1.outputContinued
          ((m.loadJitter b).outputPacket (m.loadInfo info)).1.packetsMap
          = m.loadJitterRes ((b.outputPacket info).1.outputContinued b.packetsMap) :=
        load_outputContinued m (b.outputPacket info).1 b.packetsMap
      simp only [hrest, RtpMemory.loadJitterRes, List.map_append]
      rfl
    . rw [if_neg hnext, if_neg (by exact hnext)]
      by_cases hold : info.extendSeq ≤ b.outputSeq
      . rw [if_pos hold, if_pos (by exact hold)]
        rfl
      . rw [if_neg hold, if_neg (by exact hold)]
        have hinsert := load_insertPacket m info b.packetsMap
        have hrest := load_checkTimeoutLoop m
          { b with packetsMap := insertPacket info b.packetsMap } now (insertPacket info b.packetsMap)
        unfold JitterBuffer.checkTimeout checkTimeout
        rw [← hrest]
        simp only [RtpMemory.loadJitter, hinsert]
  . have hlost := load_reportLost m b now info
    simp only [Option.map_some, hlost, RtpMemory.loadJitterRes, List.map_append]
    rfl

/--
The packets that are output or kept were there before.
-/
def From (res : JitterBufferRef × List JitterEventRef) (pkts : List RtpPacketInfoRef) : Prop :=
  ∀ p, p ∈ res.1.packetsMap ∨ p ∈ res.2.filterMap JitterEventRef.output? → p ∈ pkts

theorem reportLost_outputs (b : JitterBufferRef) (now : Int) (pkt : RtpPacketInfoRef)
    : (b.reportLost now pkt).1.packetsMap = b.packetsMap
      ∧ (b.reportLost now pkt).2.filterMap JitterEventRef.output? = [] := by
  unfold reportLost
  split
  . exact ⟨rfl, rfl⟩
  . exact ⟨rfl, rfl⟩

theorem from_checkTimeoutLoop (now : Int) (b : JitterBufferRef) (pkts : List RtpPacketInfoRef)
    : From (b.checkTimeoutLoop now pkts) pkts := by
  induction pkts generalizing b with
  | nil => simp [From, checkTimeoutLoop]
  | cons pkt pkts ih =>
    intro p hp
    unfold checkTimeoutLoop at hp
    split at hp
    next =>
      have hlost := reportLost_outputs (b.outputPacket pkt).1 now pkt
      have hrest := ih ((b.outputPacket pkt).1.reportLost now pkt).1 p
      simp only [List.filterMap_append, hlost.2, List.append_nil, List.mem_append] at hp
      rcases hp with hp | hp | hp
      . exact List.mem_cons_of_mem _ (hrest (.inl hp))
      . rw [List.mem_singleton.mp hp]
        apply List.mem_cons_self
      . exact List.mem_cons_of_mem _ (hrest (.inr hp))
    next =>
      split at hp
      next =>
        have hrest := ih (b.outputPacket pkt).1 p
        simp only [List.filterMap_append, List.mem_append] at hp
        rcases hp with hp | hp | hp
        . exact List.mem_cons_of_mem _ (hrest (.inl hp))
        . rw [List.mem_singleton.mp hp]
          apply List.mem_cons_self
        . exact List.mem_cons_of_mem _ (hrest (.inr hp))
      next =>
        rcases hp with hp | hp
        . rcases List.mem_cons.mp hp with rfl | hp
          . apply List.mem_cons_self
          . exact List.mem_cons_of_mem _ (ih b p (.inl hp))
        . exact List.mem_cons_of_mem _ (ih b p (.inr hp))

theorem from_outputContinued (b : JitterBufferRef) (pkts : List RtpPacketInfoRef)
    : From (b.outputContinued pkts) pkts := by
  induction pkts generalizing b with
  | nil => simp [From, outputContinued]
  | cons pkt pkts ih =>
    intro p hp
    unfold outputContinued at hp
    split at hp
    next =>
      have hrest := ih (b.outputPacket pkt).1 p
      simp only [List.filterMap_append, List.mem_append] at hp
      rcases hp with hp | hp | hp
      . exact List.mem_cons_of_mem _ (hrest (.inl hp))
      . rw [List.mem_singleton.mp hp]
        apply List.mem_cons_self
      . exact List.mem_cons_of_mem _ (hrest (.inr hp))
    next => simpa using hp

theorem mem_insertPacket {p info : RtpPacketInfoRef} {map : List RtpPacketInfoRef}
    (hp : p ∈ insertPacket info map) : p ∈ map ∨ p = info := by
  unfold insertPacket at hp
  rcases List.mem_append.mp hp with hp | hp
  . exact .inl ((List.takeWhile_sublist _).subset hp)
  . rcases List.mem_cons.mp hp with hp | hp
    . exact .inr hp
    . exact .inl ((List.dropWhile_sublist _).subset hp)

theorem from_handleInfo (b : JitterBufferRef) (now : Int) (info : Option (RtpPacketInfoRef × Bool))
    : From (b.handleInfo now info) (b.packetsMap ++ (info.map Prod.fst).toList) := by
  intro p hp
  rw [List.mem_append]
  rcases info with _ | ⟨info, _ | _⟩
  . simpa [handleInfo] using hp
  . simp only [handleInfo] at hp
    split at hp
    next =>
      have hrest := from_outputContinued (b.outputPacket info).1 b.packetsMap p
      simp only [List.filterMap_append, List.mem_append] at hp
      rcases hp with hp | hp | hp
      . exact .inl (hrest (.inl hp))
      . exact .inr hp
      . exact .inl (hrest (.inr hp))
    next =>
      split at hp
      next =>
        left
        simpa using hp
      next =>
        have hrest := from_checkTimeoutLoop now
          { b with packetsMap := insertPacket info b.packetsMap } (insertPacket info b.packetsMap) p hp
        rcases mem_insertPacket hrest with hp | rfl
        . exact .inl hp
        . right
          simp
  . have hlost := reportLost_outputs b now info
    unfold handleInfo at hp
    simp only [List.filterMap_append, hlost.2, List.nil_append] at hp
    rcases hp with hp | hp
    . left
      rw [← hlost.1]
      exact hp
    . exact .inr hp

end JitterBufferRef

namespace PackHandleRef

variable (h : PackHandleRef) (m : RtpMemory) (pkt : RtpPacketInfoRef) (now : Int)

theorem reportLost_packetsQueue : (h.reportLost m pkt now).1.packetsQueue = h.packetsQueue := by
  unfold reportLost
  split
  . rfl
  . rfl

theorem checkFuaTimeout_subset : (h.checkFuaTimeout now).packetsQueue ⊆ h.packetsQueue :=
  (List.dropWhile_sublist _).subset

theorem demuxFuaLoop_subset (f : PackHandleH264.Fua) (queue : List RtpPacketInfoRef)
    : (demuxFuaLoop m f queue).1 ⊆ queue := by
  induction queue generalizing f with
  | nil => exact List.Subset.refl _
  | cons p queue ih =>
    unfold demuxFuaLoop
    simp only
    split
    . apply List.subset_cons_self
    . exact List.subset_cons_of_subset p (ih _)

theorem outputFua_subset : (h.outputFua m pkt now).1.packetsQueue ⊆ h.packetsQueue := by
  have hsubset := demuxFuaLoop_subset m {} h.packetsQueue
  unfold outputFua
  generalize demuxFuaLoop m {} h.packetsQueue = res at hsubset
  rcases res with ⟨queue, nalu⟩
  cases nalu with
  | some nalu => exact hsubset
  | none =>
    simp only [reportLost_packetsQueue]
    exact hsubset

theorem inputFua_subset : (h.inputFua m pkt now).1.packetsQueue ⊆ h.packetsQueue ++ [pkt] := by
  have hreset : (h.resetRtpFua.reportLost m pkt now).1.packetsQueue ⊆ h.packetsQueue ++ [pkt] := by
    rw [reportLost_packetsQueue]
    apply List.nil_subset
  -- the fragment is put to the queue, or to an empty one
  have hpush (h' : PackHandleRef) (hqueue : h'.packetsQueue ⊆ h.packetsQueue ++ [pkt])
      : (if h'.startFlag ∧ h'.endFlag then h'.outputFua m pkt now
          else (h'.checkFuaTimeout now, [])).1.packetsQueue ⊆ h.packetsQueue ++ [pkt] := by
    split
    . exact List.Subset.trans (outputFua_subset h' m pkt now) hqueue
    . exact List.Subset.trans (checkFuaTimeout_subset h' now) hqueue
  unfold inputFua
  cases PackHandleH264.getStartBit (m.load pkt.pkt).payload with
  | true =>
    cases PackHandleH264.getEndBit (m.load pkt.pkt).payload with
    | true => exact hreset
    | false =>
      apply hpush { h with packetsQueue := [] ++ [pkt], startFlag := true }
      apply List.subset_append_right
  | false =>
    cases PackHandleH264.getEndBit (m.load pkt.pkt).payload with
    | true =>
      simp only [Bool.false_eq_true, false_and, if_false]
      split
      . exact hreset
      . apply hpush { h with endFlag := true, packetsQueue := h.packetsQueue ++ [pkt] }
        apply List.Subset.refl
    | false =>
      apply hpush { h with packetsQueue := h.packetsQueue ++ [pkt] }
      apply List.Subset.refl

theorem inputRtpPacket_subset
    : (h.inputRtpPacket m pkt now).1.packetsQueue ⊆ h.packetsQueue ++ [pkt] := by
  unfold inputRtpPacket
  split
  . simp only [reportLost_packetsQueue]
    apply List.nil_subset
  . unfold inputPayload
    simp only
    split
    . apply List.subset_append_left
    . split
      . apply inputFua_subset
      . split
        . split
          . apply List.subset_append_left
          . simp only [reportLost_packetsQueue]
            apply List.subset_append_left
        . apply List.subset_append_left

end PackHandleRef

/--
The receiver with the packets it has accepted, as their bytes and their extended sequence numbers, and
what it has put out.
-/
structure VideoHistory where
  receiver : VideoReceiverRef
  accepted : List (List UInt8 × Nat) := []
  events : List VideoEvent := []

namespace VideoHistory

def init (data : BufferId → List UInt8) (mediaType : MediaPktType) (bufferTimeout : Int)
    : VideoHistory where
  receiver := { memory := { data }, jitter := { mediaType, bufferTimeout } }

def accept (s : VideoHistory) : VideoCall → List (List UInt8 × Nat)
  | .input clockRate data localMs _ _ =>
    let info := (s.receiver.jitter.acceptPacket s.receiver.memory clockRate data localMs).2.2
    (info.map fun p => (data, p.1.extendSeq)).toList
  | _ => []

def next (s : VideoHistory) (call : VideoCall) : VideoHistory where
  receiver := (s.receiver.call call).1
  accepted := s.accepted ++ s.accept call
  events := s.events ++ (s.receiver.call call).2

def run (s : VideoHistory) (calls : List VideoCall) : VideoHistory := calls.foldl next s

/--
The buffer of a packet that was accepted is not one of the pool, its allocation tells which packet it is
for.
-/
def Allocated (s : VideoHistory) (p : RtpPacketInfoRef) (data : List UInt8) : Prop :=
  ∃ n, p.pkt.buffer = .heap n ∧ s.accepted[n]? = some (data, p.extendSeq)

/--
A packet that is held has the bytes of the packet that was accepted.
-/
def Keeps (s : VideoHistory) (p : RtpPacketInfoRef) : Prop :=
  ∃ data, s.Allocated p data ∧ s.receiver.memory.Stores p.pkt data

structure Valid (s : VideoHistory) : Prop where
  allocated : s.receiver.memory.allocated = s.accepted.length
  held : ∀ p ∈ s.receiver.held, s.Keeps p
  events : ∀ p data, .rtpOutput p data ∈ s.events → s.Allocated p data

end VideoHistory

namespace RtpMemory

variable {m m' : RtpMemory}

/--
Packets in these buffers are loaded as before.
-/
def InBuffers (m : RtpMemory) (pkts : List RtpPacketInfoRef) : Prop :=
  ∀ p ∈ pkts, ∃ n < m.allocated, p.pkt.buffer = .heap n

theorem Extends.loadInfo (h : m.Extends m') {pkts : List RtpPacketInfoRef} (hpkts : m.InBuffers pkts)
    : pkts.map m'.loadInfo = pkts.map m.loadInfo := by
  apply List.map_congr_left
  intro p hp
  rcases hpkts p hp with ⟨n, hn, hbuffer⟩
  unfold RtpMemory.loadInfo
  rw [load_congr]
  rw [hbuffer, h.data n hn]

end RtpMemory

namespace VideoReceiverRef

open VideoReceiver (handleJitter)

theorem load_rtpPacketOutput (m : RtpMemory) (h : PackHandleRef) (packNow : Nat → Int)
    (pkts : List RtpPacketInfoRef)
    : VideoReceiver.rtpPacketOutput (m.loadPack h) packNow (pkts.map m.loadInfo)
      = (m.loadPack (rtpPacketOutput h m packNow pkts).1,
        (rtpPacketOutput h m packNow pkts).2.filterMap VideoEvent.pack?) := by
  induction pkts generalizing h packNow with
  | nil => rfl
  | cons pkt pkts ih =>
    have hpack (events : List PackEvent) : (events.map VideoEvent.pack).filterMap VideoEvent.pack? = events := by
      induction events with
      | nil => rfl
      | cons event events ih =>
        rw [List.map_cons, List.filterMap_cons, ih]
        rfl
    rw [List.map_cons]
    unfold VideoReceiver.rtpPacketOutput rtpPacketOutput
    simp only [PackHandleRef.load_inputRtpPacket, RtpMemory.loadPackRes, ih, List.cons_append,
      List.filterMap_cons, List.filterMap_append, hpack]
    rfl

theorem load_handleJitter (s₀ : VideoReceiver) (h : PackHandleRef) (m : RtpMemory)
    (packNow : Nat → Int) (res : JitterBufferRef × List JitterEventRef) (hpack : s₀.pack = m.loadPack h)
    : s₀.handleJitter packNow (m.loadJitterRes res)
      = ((handleJitter h m packNow res).1.load,
        (handleJitter h m packNow res).2.filterMap VideoEvent.pack?) := by
  unfold VideoReceiver.handleJitter handleJitter
  simp only [RtpMemory.loadJitterRes, JitterBufferRef.load_outputs, hpack, load_rtpPacketOutput]
  rfl

theorem loadJitter_congr {m m' : RtpMemory} (hmemory : m.Extends m') {b : JitterBufferRef}
    (hmap : m.InBuffers b.packetsMap) : m'.loadJitter b = m.loadJitter b := by
  unfold RtpMemory.loadJitter
  rw [hmemory.loadInfo hmap]

theorem loadPack_congr {m m' : RtpMemory} (hmemory : m.Extends m') {h : PackHandleRef}
    (hqueue : m.InBuffers h.packetsQueue) : m'.loadPack h = m.loadPack h := by
  unfold RtpMemory.loadPack
  rw [hmemory.loadInfo hqueue]

theorem load_call (s : VideoReceiverRef) (hheld : s.memory.InBuffers s.held) (call : VideoCall)
    : s.load.call call = ((s.call call).1.load, (s.call call).2.filterMap VideoEvent.pack?) := by
  have hmap : s.memory.InBuffers s.jitter.packetsMap :=
    fun p hp => hheld p (List.mem_append_left _ hp)
  have hqueue : s.memory.InBuffers s.pack.packetsQueue :=
    fun p hp => hheld p (List.mem_append_right _ hp)
  cases call with
  | input clockRate data localMs now packNow =>
    by_cases hparse : data.length < rtpPacketMaxSize → RtpLayout.parse data = none
    . rcases JitterBufferRef.acceptPacket_of_exception (b := s.jitter) (m := s.memory) hparse clockRate
        localMs with ⟨m', haccept, haccepts⟩
      have hvalue : s.load.call (.input clockRate data localMs now packNow) = (s.load, []) := by
        unfold VideoReceiver.call RtpPacket.parse
        by_cases hlen : data.length < rtpPacketMaxSize
        . simp only [if_pos hlen, hparse hlen]
          rfl
        . simp only [if_neg hlen]
      rw [hvalue]
      unfold VideoReceiverRef.call
      simp only [haccept]
      rw [show s.load = ⟨s.memory.loadJitter s.jitter, s.memory.loadPack s.pack⟩ from rfl,
        ← loadJitter_congr haccepts.memory hmap, ← loadPack_congr haccepts.memory hqueue]
      rfl
    . rw [Classical.not_imp] at hparse
      rcases hparse with ⟨hlen, hparse⟩
      rcases Option.ne_none_iff_exists'.mp hparse with ⟨layout, hparse⟩
      rcases JitterBufferRef.acceptPacket_of_parse (b := s.jitter) (m := s.memory) hlen hparse clockRate
        localMs with ⟨b', m', info, haccept, _, haccepts, hload⟩
      have hinput := JitterBufferRef.load_handleInfo (hload m') now
      have hvalue : RtpPacket.parse data localMs = some (.ofData data layout localMs) := by
        unfold RtpPacket.parse
        rw [hparse]
        rfl
      unfold VideoReceiver.call VideoReceiverRef.call
      simp only [if_pos hlen, hvalue, haccept]
      rw [show s.load.jitter = s.memory.loadJitter s.jitter from rfl,
        ← loadJitter_congr haccepts.memory hmap, hinput]
      apply load_handleJitter
      exact (loadPack_congr haccepts.memory hqueue).symm
  | jitterTimer now packNow =>
    have htimer := JitterBufferRef.load_checkTimeoutLoop s.memory s.jitter now s.jitter.packetsMap
    have hjitter := load_handleJitter s.load s.pack s.memory packNow (s.jitter.onTimer now) rfl
    exact (congrArg (s.load.handleJitter packNow) htimer).trans hjitter
  | packTimer now =>
    have hpack := PackHandleRef.load_checkFuaTimeout s.memory s.pack now
    exact congrArg (fun pack => ({ s.load with pack := pack }, [])) hpack

theorem rtpPacketOutput_subset (h : PackHandleRef) (m : RtpMemory) (packNow : Nat → Int)
    (pkts : List RtpPacketInfoRef)
    : (rtpPacketOutput h m packNow pkts).1.packetsQueue ⊆ h.packetsQueue ++ pkts := by
  induction pkts generalizing h packNow with
  | nil => simp [rtpPacketOutput]
  | cons pkt pkts ih =>
    have hinput := PackHandleRef.inputRtpPacket_subset h m pkt (packNow 0)
    have hrest := ih (h.inputRtpPacket m pkt (packNow 0)).1 fun k => packNow (k + 1)
    intro p hp
    rcases List.mem_append.mp (hrest hp) with hp | hp
    . rcases List.mem_append.mp (hinput hp) with hp | hp
      . exact List.mem_append_left _ hp
      . rw [List.mem_singleton.mp hp]
        simp
    . simp [hp]

theorem rtpOutput_mem (h : PackHandleRef) (m : RtpMemory) (packNow : Nat → Int)
    {pkts : List RtpPacketInfoRef} {p : RtpPacketInfoRef} {data : List UInt8}
    (hmem : .rtpOutput p data ∈ (rtpPacketOutput h m packNow pkts).2)
    : p ∈ pkts ∧ data = m.getData p.pkt := by
  induction pkts generalizing h packNow with
  | nil => simp [rtpPacketOutput] at hmem
  | cons pkt pkts ih =>
    unfold rtpPacketOutput at hmem
    simp only [List.cons_append, List.mem_cons, List.mem_append, List.mem_map,
      VideoEvent.rtpOutput.injEq, reduceCtorEq, and_false, exists_false, false_or] at hmem
    rcases hmem with ⟨rfl, rfl⟩ | hmem
    . exact ⟨List.mem_cons_self .., rfl⟩
    . rcases ih _ _ hmem with ⟨hp, hdata⟩
      exact ⟨List.mem_cons_of_mem _ hp, hdata⟩

end VideoReceiverRef

namespace VideoHistory

variable {s : VideoHistory} {p : RtpPacketInfoRef} {data : List UInt8}

theorem Allocated.lt (hp : s.Allocated p data) : ∃ n < s.accepted.length, p.pkt.buffer = .heap n := by
  rcases hp with ⟨n, hbuffer, haccepted⟩
  exact ⟨n, (List.getElem?_eq_some_iff.mp haccepted).1, hbuffer⟩

theorem Valid.inBuffers (hvalid : s.Valid) : s.receiver.memory.InBuffers s.receiver.held := by
  intro p hp
  rcases hvalid.held p hp with ⟨data, hallocated, _⟩
  rw [hvalid.allocated]
  exact hallocated.lt

theorem Allocated.next (hp : s.Allocated p data) (call : VideoCall) : (s.next call).Allocated p data := by
  rcases hp with ⟨n, hbuffer, haccepted⟩
  refine ⟨n, hbuffer, ?_⟩
  unfold VideoHistory.next
  rwa [List.getElem?_append_left (List.getElem?_eq_some_iff.mp haccepted).1]

theorem valid_of_handleJitter {s s' : VideoHistory} {m : RtpMemory} {h : PackHandleRef}
    {packNow : Nat → Int} {res : JitterBufferRef × List JitterEventRef} {pkts : List RtpPacketInfoRef}
    (hreceiver : s'.receiver = (VideoReceiverRef.handleJitter h m packNow res).1)
    (hevents : s'.events = s.events ++ (VideoReceiverRef.handleJitter h m packNow res).2)
    (hallocated : m.allocated = s'.accepted.length)
    (hold : ∀ p data, s.Allocated p data → s'.Allocated p data)
    (hvalid : ∀ p data, .rtpOutput p data ∈ s.events → s.Allocated p data)
    (hfrom : JitterBufferRef.From res pkts)
    (hkeeps : ∀ p ∈ pkts ++ h.packetsQueue, ∃ data, s'.Allocated p data ∧ m.Stores p.pkt data)
    : s'.Valid := by
  have hmemory : s'.receiver.memory = m := by
    rw [hreceiver]
    rfl
  constructor
  . rw [hmemory, hallocated]
  . intro p hp
    unfold Keeps
    rw [hmemory]
    apply hkeeps
    rw [hreceiver] at hp
    rcases List.mem_append.mp hp with hp | hp
    . exact List.mem_append_left _ (hfrom p (.inl hp))
    . rcases List.mem_append.mp (VideoReceiverRef.rtpPacketOutput_subset h m packNow _ hp) with hp | hp
      . exact List.mem_append_right _ hp
      . exact List.mem_append_left _ (hfrom p (.inr hp))
  . intro p data hp
    rw [hevents] at hp
    rcases List.mem_append.mp hp with hp | hp
    . exact hold p data (hvalid p data hp)
    . rcases VideoReceiverRef.rtpOutput_mem h m packNow hp with ⟨hp, hdata⟩
      rcases hkeeps p (List.mem_append_left _ (hfrom p (.inr hp))) with ⟨data', hallocated', hstores⟩
      rw [hdata, hstores.getData]
      exact hallocated'

/--
A step lemma: a call keeps the bytes of the packets that are held.
-/
theorem Valid.next (hvalid : s.Valid) (call : VideoCall) : (s.next call).Valid := by
  have hold (p : RtpPacketInfoRef) (data : List UInt8) (hp : s.Allocated p data) := hp.next call
  -- the packets held before, in a memory that extends the one before
  have hheld {m : RtpMemory} (hmemory : s.receiver.memory.Extends m) (p : RtpPacketInfoRef)
      (hp : p ∈ s.receiver.held) : ∃ data, (s.next call).Allocated p data ∧ m.Stores p.pkt data := by
    rcases hvalid.held p hp with ⟨data, hallocated, hstores⟩
    rcases hallocated.lt with ⟨n, hn, hbuffer⟩
    rw [← hvalid.allocated] at hn
    exact ⟨data, hallocated.next call, hmemory.stores hbuffer hn hstores⟩
  cases call with
  | input clockRate data localMs now packNow =>
    rcases JitterBufferRef.acceptPacket_accepts s.receiver.jitter s.receiver.memory clockRate data
      localMs with ⟨b', m', info, haccept, hmap, haccepts⟩
    have haccepted : s.accept (.input clockRate data localMs now packNow)
        = (info.map fun p => (data, p.1.extendSeq)).toList := by
      unfold accept
      simp only [haccept]
    apply @valid_of_handleJitter s _ m' s.receiver.pack packNow (b'.handleInfo now info)
      (b'.packetsMap ++ (info.map Prod.fst).toList)
    . simp only [VideoHistory.next, VideoReceiverRef.call, haccept]
    . simp only [VideoHistory.next, VideoReceiverRef.call, haccept]
    . rw [haccepts.allocated, hvalid.allocated, VideoHistory.next, haccepted]
      cases info with
      | none => simp
      | some p => simp
    . exact hold
    . exact hvalid.events
    . apply JitterBufferRef.from_handleInfo
    . intro p hp
      rw [hmap, List.mem_append, List.mem_append] at hp
      rcases hp with (hp | hp) | hp
      . exact hheld haccepts.memory p (List.mem_append_left _ hp)
      . rcases info with _ | ⟨info, reset⟩
        . cases hp
        . rw [Option.map_some, Option.toList_some, List.mem_singleton] at hp
          subst hp
          refine ⟨data, ⟨s.receiver.memory.allocated, haccepts.buffer _ rfl, ?_⟩, haccepts.stores _ rfl⟩
          rw [VideoHistory.next, haccepted, hvalid.allocated]
          simp
      . exact hheld haccepts.memory p (List.mem_append_right _ hp)
  | jitterTimer now packNow =>
    apply @valid_of_handleJitter s _ s.receiver.memory s.receiver.pack packNow
      (s.receiver.jitter.onTimer now) s.receiver.jitter.packetsMap rfl rfl
    . simp [VideoHistory.next, accept, hvalid.allocated]
    . exact hold
    . exact hvalid.events
    . apply JitterBufferRef.from_checkTimeoutLoop
    . exact hheld (RtpMemory.Extends.refl _)
  | packTimer now =>
    constructor
    . simp [VideoHistory.next, accept, VideoReceiverRef.call, hvalid.allocated]
    . intro p hp
      apply hheld (RtpMemory.Extends.refl _)
      rcases List.mem_append.mp hp with hp | hp
      . exact List.mem_append_left _ hp
      . exact List.mem_append_right _ (PackHandleRef.checkFuaTimeout_subset _ _ hp)
    . intro p data hp
      simp only [VideoHistory.next, VideoReceiverRef.call, List.append_nil] at hp
      exact hold p data (hvalid.events p data hp)

theorem valid_init (data : BufferId → List UInt8) (mediaType : MediaPktType) (bufferTimeout : Int)
    : (init data mediaType bufferTimeout).Valid := by
  constructor
  . rfl
  . intro p hp
    cases hp
  . intro p data hp
    cases hp

theorem Valid.run (hvalid : s.Valid) (calls : List VideoCall) : (s.run calls).Valid := by
  induction calls generalizing s with
  | nil => exact hvalid
  | cons call calls ih => exact ih (hvalid.next call)

theorem extends_call (s : VideoReceiverRef) (call : VideoCall)
    : s.memory.Extends (s.call call).1.memory := by
  cases call with
  | input clockRate data localMs now packNow =>
    rcases JitterBufferRef.acceptPacket_accepts s.jitter s.memory clockRate data localMs with
      ⟨b', m', info, haccept, _, haccepts⟩
    unfold VideoReceiverRef.call
    simp only [haccept]
    exact haccepts.memory
  | jitterTimer => exact RtpMemory.Extends.refl _
  | packTimer => exact RtpMemory.Extends.refl _

theorem Valid.data_call (hvalid : s.Valid) (hp : p ∈ s.receiver.held) (call : VideoCall)
    : (s.receiver.call call).1.memory.data p.pkt.buffer = s.receiver.memory.data p.pkt.buffer := by
  rcases hvalid.inBuffers p hp with ⟨n, hn, hbuffer⟩
  rw [hbuffer]
  exact (extends_call s.receiver call).data n hn

theorem Valid.load_run (hvalid : s.Valid) (calls : List VideoCall)
    : (s.run calls).receiver.load = (s.receiver.load.run calls).1
      ∧ (s.run calls).events.filterMap VideoEvent.pack?
        = s.events.filterMap VideoEvent.pack? ++ (s.receiver.load.run calls).2 := by
  induction calls generalizing s with
  | nil => exact ⟨rfl, (List.append_nil _).symm⟩
  | cons call calls ih =>
    have hcall := VideoReceiverRef.load_call s.receiver hvalid.inBuffers call
    rcases ih (hvalid.next call) with ⟨hstate, hevents⟩
    unfold VideoReceiver.run
    simp only [hcall]
    refine ⟨hstate, ?_⟩
    rw [← List.append_assoc, ← List.filterMap_append]
    exact hevents

/--
Whatever is input, each packet that is held is in a buffer of its own, which is not in the pool and which
no call writes to. It has the bytes of the packet that was accepted with its sequence number, also at the
moment at which it is output, and NALUs are put together as if the packets had been kept as values.
-/
theorem run_retained (data : BufferId → List UInt8) (mediaType : MediaPktType) (bufferTimeout : Int)
    (calls : List VideoCall)
    : (∀ p ∈ ((init data mediaType bufferTimeout).run calls).receiver.held,
        ((init data mediaType bufferTimeout).run calls).Keeps p
          ∧ ∀ call, (((init data mediaType bufferTimeout).run calls).receiver.call call).1.memory.data
              p.pkt.buffer
            = ((init data mediaType bufferTimeout).run calls).receiver.memory.data p.pkt.buffer)
      ∧ (∀ p bytes, .rtpOutput p bytes ∈ ((init data mediaType bufferTimeout).run calls).events →
          ((init data mediaType bufferTimeout).run calls).Allocated p bytes)
      ∧ VideoReceiver.run { jitter := { mediaType, bufferTimeout } } calls
        = (((init data mediaType bufferTimeout).run calls).receiver.load,
          ((init data mediaType bufferTimeout).run calls).events.filterMap VideoEvent.pack?) := by
  have hvalid := (valid_init data mediaType bufferTimeout).run calls
  rcases (valid_init data mediaType bufferTimeout).load_run calls with ⟨hstate, hevents⟩
  refine ⟨fun p hp => ⟨hvalid.held p hp, hvalid.data_call hp⟩, hvalid.events, ?_⟩
  rw [hstate, hevents]
  rfl

end VideoHistory
