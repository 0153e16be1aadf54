import CppStreamer.Net.RtpRtcp.RtpH264Pack

/-!
This module contains the sending of H.264 packets: the parameter sets that are kept for key frames, and
the packets that go out for a NALU.
-/

open RtpH264Pack

/--
What fits in `sps_` and `pps_`.
-/
abbrev ParamSet := { data : List UInt8 // data.length < 512 }

structure RtcSendStream where
  ssrc : UInt32
  pt : UInt8
  clockRate : Int
  seq : UInt16 := 0
  sps : ParamSet := ⟨[], by decide⟩
  pps : ParamSet := ⟨[], by decide⟩

namespace RtcSendStream

/--
A packet gets the header fields of the stream and the next sequence number.
-/
def sendVideoRtpPacket (s : RtcSendStream) (ts : UInt32) (pkt : RtpPacket)
    : RtcSendStream × RtpPacket :=
  ({ s with seq := s.seq + 1 },
   { pkt with payloadType := s.pt, ssrc := s.ssrc, seq := s.seq, timestamp := ts })

def sendVideoRtpPackets (s : RtcSendStream) (ts : UInt32)
    : List RtpPacket → RtcSendStream × List RtpPacket
  | [] => (s, [])
  | pkt :: pkts =>
    let (s, sent) := s.sendVideoRtpPacket ts pkt
    let (s, rest) := s.sendVideoRtpPackets ts pkts
    (s, sent :: rest)

def rtpTimestamp (s : RtcSendStream) (dts : Int) : UInt32 :=
  UInt32.ofInt ((dts * s.clockRate).tdiv 1000)

def saveParamSet (s : RtcSendStream) (header : UInt8) (nalu : List UInt8) : RtcSendStream :=
  if h : nalu.length < 512 then
    let s := if H264.nalType header = H264.naluTypeSps then { s with sps := ⟨nalu, h⟩ } else s
    if H264.nalType header = H264.naluTypePps then { s with pps := ⟨nalu, h⟩ } else s
  else
    s

def stapAPackets (s : RtcSendStream) (isKeyFrame : Bool) : List RtpPacket :=
  if isKeyFrame = true ∧ 0 < s.sps.val.length ∧ 0 < s.pps.val.length then
    [generateStapAPackets [s.sps.val, s.pps.val]]
  else
    []

def naluPackets (nalu : List UInt8) : List RtpPacket :=
  if nalu.length ≤ kPayloadMaxSize then [{ generateSinglePackets nalu with marker := true }]
  else generateFuAPackets nalu

/--
The packets sent, `none` for a packet without a start code or without a NALU behind it, of which the
code reads bytes outside of the data.
-/
def sendH264Packet (s : RtcSendStream) (pkt : MediaPacket) : Option (RtcSendStream × List RtpPacket) :=
  match H264.getNaluTypePos pkt.data with
  | none => none
  | some pos =>
    match pkt.data.drop pos with
    | [] => none
    | header :: body =>
      let nalu := header :: body
      if H264.nalType header = H264.naluTypeSei then some (s, [])
      else if pkt.isSeqHdr then some (s.saveParamSet header nalu, [])
      else some (s.sendVideoRtpPackets (s.rtpTimestamp pkt.dts)
        (s.stapAPackets pkt.isKeyFrame ++ naluPackets nalu))

def sendH264Packets (s : RtcSendStream) : List MediaPacket → Option (RtcSendStream × List RtpPacket)
  | [] => some (s, [])
  | pkt :: pkts =>
    match s.sendH264Packet pkt with
    | none => none
    | some (s, sent) =>
      match s.sendH264Packets pkts with
      | none => none
      | some (s, rest) => some (s, sent ++ rest)

end RtcSendStream
