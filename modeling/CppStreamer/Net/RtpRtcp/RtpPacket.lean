import CppStreamer.Utils.MediaPacket

/-!
This module contains RTP packets: the header fields that the sender fills in and the receiver reads,
the payload, and the time at which the packet was parsed.
-/

def rtpSeqMod : Nat := 2 ^ 16

structure RtpPacket where
  marker : Bool
  payloadType : UInt8
  seq : UInt16
  timestamp : UInt32
  ssrc : UInt32
  payload : List UInt8
  localMs : Int := 0
  deriving DecidableEq, Repr

namespace RtpPacket

/--
A clone is parsed again and gets the time of that.
-/
def clone (pkt : RtpPacket) (now : Int) : RtpPacket := { pkt with localMs := now }

end RtpPacket

/--
A packet on its way from the jitter buffer to the depacketizer.
-/
structure RtpPacketInfo where
  mediaType : MediaPktType
  pkt : RtpPacket
  extendSeq : Nat
  clockRate : Int
  deriving DecidableEq, Repr
