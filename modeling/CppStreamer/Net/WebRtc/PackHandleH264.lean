import CppStreamer.Net.RtpRtcp.RtpPacket
import CppStreamer.Utils.ByteStream

/-!
This module contains the model of `PackHandleH264`, which puts NALUs together from RTP packets.
-/

open ByteStream

def packBufferTimeout : Int := 600

inductive PackEvent where
  | mediaPacketOutput (pkt : MediaPacket)
  | packHandleReset (pkt : RtpPacketInfo)
  deriving DecidableEq, Repr

def PackEvent.output? : PackEvent → Option MediaPacket
  | .mediaPacketOutput pkt => some pkt
  | .packHandleReset _ => none

/--
The packet that is output for a NALU, its flags are told by the type of the NALU.
-/
def h264Packet (nalu : List UInt8) (dts : Int) : MediaPacket :=
  let nalType := H264.nalType (nalu.headD 0)
  { avType := .video
    codecType := .h264
    fmtType := .raw
    dts := dts
    pts := dts
    isSeqHdr := nalType = H264.naluTypeSps ∨ nalType = H264.naluTypePps
    isKeyFrame := nalType = H264.naluTypeIdr
    data := H264.startCode ++ nalu }

structure PackHandleH264 where
  initFlag : Bool := false
  startFlag : Bool := false
  endFlag : Bool := false
  lastExtendSeq : Nat := 0
  packetsQueue : List RtpPacketInfo := []
  reportLostTs : Int := -1
  deriving DecidableEq, Repr

namespace PackHandleH264

def getStartBit (payload : List UInt8) : Bool := payload.getD 1 0 &&& 0x80 ≠ 0

def getEndBit (payload : List UInt8) : Bool := payload.getD 1 0 &&& 0x40 ≠ 0

def reportLost (h : PackHandleH264) (pkt : RtpPacketInfo) (now : Int)
    : PackHandleH264 × List PackEvent :=
  if 500 < now - h.reportLostTs then ({ h with reportLostTs := now }, [.packHandleReset pkt])
  else (h, [])

def checkFuaTimeout (h : PackHandleH264) (now : Int) : PackHandleH264 :=
  { h with
    packetsQueue := h.packetsQueue.dropWhile fun p => ¬(now - p.pkt.localMs < packBufferTimeout) }

def onTimer (h : PackHandleH264) (now : Int) : PackHandleH264 := h.checkFuaTimeout now

def resetRtpFua (h : PackHandleH264) : PackHandleH264 :=
  { h with startFlag := false, endFlag := false, packetsQueue := [] }

/--
The offsets behind the length fields, `none` if a length goes beyond the payload.
-/
def parseStapAOffsets (offset : Nat) (p : List UInt8) : Option (List Nat) :=
  if p.length = 0 then some []
  else if p.length < 2 then none
  else
    let naluLen := read2Bytes p
    if p.length - 2 < naluLen then none
    else (parseStapAOffsets (offset + 2 + naluLen) (p.drop (2 + naluLen))).map fun offsets => (offset + 2) :: offsets
termination_by p.length
decreasing_by
  simp
  omega

/--
The loop over the offsets, of which the last one is an end.
-/
def demuxStapALoop (payload : List UInt8) (dts : Int) : List Nat → List PackEvent × Bool
  | startOffset :: nextOffset :: offsets =>
    let nalu := (payload.drop startOffset).take (nextOffset - 2 - startOffset)
    if nextOffset - 2 - startOffset < 1 then ([], false)
    else
      let (events, ret) := demuxStapALoop payload dts (nextOffset :: offsets)
      (.mediaPacketOutput (h264Packet nalu dts) :: events, ret)
  | _ => ([], true)

def demuxStapA (pkt : RtpPacketInfo) : List PackEvent × Bool :=
  let payload := pkt.pkt.payload
  if payload.length ≤ 3 then ([], false)
  else
    match parseStapAOffsets 1 (payload.drop 1) with
    | none => ([], false)
    | some offsets =>
      demuxStapALoop payload pkt.pkt.timestamp.toNat (offsets ++ [payload.length + 2])

/--
The variables of the loop in `DemuxFua`.
-/
structure Fua where
  first : Bool := true
  hasStart : Bool := false
  dts : Int := 0
  data : List UInt8 := []

def Fua.push (f : Fua) (pkt : RtpPacket) : Fua :=
  let payload := pkt.payload
  let naluHeader := (payload.getD 0 0 &&& 0xe0) ||| (payload.getD 1 0 &&& 0x1f)
  if f.first then
    if getStartBit payload then
      { first := false
        hasStart := true
        dts := pkt.timestamp.toNat
        data := f.data ++ naluHeader :: payload.drop 2 }
    else { f with first := false, dts := pkt.timestamp.toNat }
  else if f.hasStart then
    { f with dts := pkt.timestamp.toNat, data := f.data ++ payload.drop 2 }
  else { f with dts := pkt.timestamp.toNat }

/--
The rest of the queue and the NALU, `none` without a start or an end.
-/
def demuxFuaLoop (f : Fua) : List RtpPacketInfo → List RtpPacketInfo × Option (List UInt8 × Int)
  | [] => ([], none)
  | p :: queue =>
    let f := f.push p.pkt
    if getEndBit p.pkt.payload then (queue, if f.hasStart then some (f.data, f.dts) else none)
    else demuxFuaLoop f queue

def outputFua (h : PackHandleH264) (pkt : RtpPacketInfo) (now : Int)
    : PackHandleH264 × List PackEvent :=
  let (queue, nalu) := demuxFuaLoop {} h.packetsQueue
  let h := { h with packetsQueue := queue }
  let (h, events) := match nalu with
    | some (nalu, dts) => (h, [PackEvent.mediaPacketOutput (h264Packet nalu dts)])
    | none => h.reportLost pkt now
  ({ h with startFlag := false, endFlag := false }, events)

def inputFua (h : PackHandleH264) (pkt : RtpPacketInfo) (now : Int)
    : PackHandleH264 × List PackEvent :=
  let start := getStartBit pkt.pkt.payload
  let last := getEndBit pkt.pkt.payload
  if start ∧ last then h.resetRtpFua.reportLost pkt now
  else
    let h := if start then { h with packetsQueue := [], startFlag := true } else h
    if last ∧ ¬h.startFlag then h.resetRtpFua.reportLost pkt now
    else
      let h := if last then { h with endFlag := true } else h
      let h := { h with packetsQueue := h.packetsQueue ++ [pkt] }
      if h.startFlag ∧ h.endFlag then h.outputFua pkt now else (h.checkFuaTimeout now, [])

/--
A packet of one kind or another, told by the type in its first byte.
-/
def inputPayload (h : PackHandleH264) (pkt : RtpPacketInfo) (now : Int)
    : PackHandleH264 × List PackEvent :=
  let nalType := H264.nalType (pkt.pkt.payload.getD 0 0)
  if 1 ≤ nalType ∧ nalType ≤ 23 then
    (h, [.mediaPacketOutput (h264Packet pkt.pkt.payload pkt.pkt.timestamp.toNat)])
  else if nalType = 28 then h.inputFua pkt now
  else if nalType = 24 then
    match demuxStapA pkt with
    | (events, true) => (h, events)
    | (events, false) =>
      let (h, lost) := h.reportLost pkt now
      (h, events ++ lost)
  else (h, [])

def inputRtpPacket (h : PackHandleH264) (pkt : RtpPacketInfo) (now : Int)
    : PackHandleH264 × List PackEvent :=
  if h.initFlag ∧ h.lastExtendSeq + 1 ≠ pkt.extendSeq then
    let (h, events) := { h with
      packetsQueue := []
      startFlag := false
      endFlag := false }.reportLost pkt now
    ({ h with lastExtendSeq := pkt.extendSeq }, events)
  else
    { h with initFlag := true, lastExtendSeq := pkt.extendSeq }.inputPayload pkt now

end PackHandleH264
