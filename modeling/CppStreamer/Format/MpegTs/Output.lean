import CppStreamer.Basic.Traverse
import CppStreamer.Format.H264H265Header
import CppStreamer.Format.OpusHeader
import CppStreamer.Format.MpegTs.Demux
import CppStreamer.Utils.StringEx

/-!
This module contains the packets that `OnCallback` hands to the sinkers for the buffer of a PES.
-/

namespace MpegTs

def streamTypeAudioAac : Nat := 0x0f
def streamTypeVideoH264 : Nat := 0x1b
def streamTypeVideoHevc : Nat := 0x24

def getMediaInfoByStreamtype (streamType : Nat) : MediaPktType × MediaCodecType :=
  if streamType = streamTypeAudioAac then (.audio, .aac)
  else if streamType = streamTypeVideoH264 then (.video, .h264)
  else if streamType = streamTypeVideoHevc then (.video, .h265)
  else (.unknown, .unknown)

/--
The first entry of a pid tells its type, and any entry of the pid may name the codec of its data.
-/
def getMediaInfoByPid (streamPidVec : List StreamPidInfo) (pid : Nat) : MediaPktType × MediaCodecType :=
  let info :=
    match streamPidVec.find? fun info => info.elementaryPid = pid with
    | some info => getMediaInfoByStreamtype info.streamType
    | none => (.unknown, .unknown)
  if info.1 ≠ .unknown ∧ info.2 ≠ .unknown then info
  else if streamPidVec.any fun info => info.elementaryPid = pid &&
      info.esInfoVec.any fun es => StringEx.string2Lower es.desc = StringEx.ascii "opus".toList then
    (.audio, .opus)
  else info

section Packets

/--
The packet of a NALU. Short ones and delimiters are left out.
-/
def naluPackets (pkt : MediaPacket) (nalu : List UInt8) : Option (List MediaPacket) :=
  if nalu.length < 5 then some []
  else
    (H264.getNaluTypePos nalu).map fun pos =>
      let nalType := H264.nalType (nalu.getD pos 0)
      if nalType = H264.naluTypeAud then []
      else
        [{ pkt with
          isSeqHdr := nalType = H264.naluTypeSps ∨ nalType = H264.naluTypePps
          isKeyFrame := nalType = H264.naluTypeIdr
          data := nalu }]

def videoPackets (pkt : MediaPacket) : Option (List MediaPacket) :=
  match H264.annexB2Nalus pkt.data with
  | none => some []
  | some nalus => (nalus.mapM (naluPackets pkt)).map List.flatten

/--
The packets of the frames, 20 milliseconds after each other. The pts of the PES is not used.
-/
def opusPackets (pkt : MediaPacket) : Option (List MediaPacket) :=
  match Opus.getOpusFrameVector pkt.data with
  | .error .outside => none
  | .error .refused => some []
  | .ok frames =>
    frames.zipIdx.mapM fun (frame, i) =>
      (frame.bytes pkt.data).map fun data =>
        { pkt with dts := pkt.dts + 20 * i, pts := pkt.dts + 20 * i, data }

/--
The packets of a buffer, `none` if a byte outside of it is read.
-/
def packets (streamPidVec : List StreamPidInfo) (a : Assembled) : Option (List MediaPacket) :=
  let (avType, codecType) := getMediaInfoByPid streamPidVec a.pid
  let pkt : MediaPacket :=
    { avType, codecType, fmtType := .raw, dts := a.dts / 90, pts := a.pts / 90, data := a.data }
  if avType = .video then videoPackets pkt
  else if avType = .audio ∧ codecType = .opus then opusPackets pkt
  else some [pkt]

end Packets

namespace MpegtsDemux

/--
A call of `DecodeUnit` with the packets of the buffers it hands on, each with the pid of its buffer.
-/
def deliverUnit (d : MpegtsDemux) (data : List UInt8)
    : Option (MpegtsDemux × List (Nat × Option (List MediaPacket))) :=
  (d.decodeUnit data).map fun decoded =>
    (decoded.demux, decoded.assembled.map fun a => (a.pid, packets d.streamPidVec a))

end MpegtsDemux

end MpegTs
