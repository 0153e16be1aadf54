import CppStreamer.Utils.ByteStream
import CppStreamer.Utils.MediaPacket

/-!
This module contains the model of `FlvMuxer::InputPacket`.
-/

open ByteStream

namespace Flv

def tagAudio : UInt8 := 0x08
def tagVideo : UInt8 := 0x09
def tagTypeMeta : UInt8 := 0x12

def videoKeyFlag : UInt8 := 0x10
def videoInterFlag : UInt8 := 0x20

def videoAvcSeqhdr : UInt8 := 0x00
def videoAvcNalu : UInt8 := 0x01

def videoH264Codec : UInt8 := 0x07
def videoH265Codec : UInt8 := 0x0c
def videoVp8Codec : UInt8 := 0x0e
def videoVp9Codec : UInt8 := 0x0f

def audioMp3Codec : UInt8 := 0x20
def audioOpusCodec : UInt8 := 0x90
def audioAacCodec : UInt8 := 0xa0

def headerLen : Nat := 9
def tagPreSize : Nat := 4
def tagHeaderLen : Nat := 11

structure FlvMuxer where
  hasVideo : Bool := true
  hasAudio : Bool := true
  headerReady : Bool := false
  deriving DecidableEq, Repr

namespace FlvMuxer

def muxFlvHeader (m : FlvMuxer) : List UInt8 :=
  let flag := (if m.hasVideo then 0x01 else 0) ||| (if m.hasAudio then 0x04 else 0)
  [0x46, 0x4c, 0x56, 0x01, flag, 0x00, 0x00, 0x00, 0x09, 0, 0, 0, 0]

def videoCodec : MediaCodecType → Option UInt8
  | .h264 => some videoH264Codec
  | .h265 => some videoH265Codec
  | .vp8 => some videoVp8Codec
  | .vp9 => some videoVp9Codec
  | _ => none

def audioCodec : MediaCodecType → Option UInt8
  | .aac => some audioAacCodec
  | .opus => some audioOpusCodec
  | _ => none

/--
The extension of the timestamp is taken from the 24 bits that are left of it.
-/
def tagHeader (tagType : UInt8) (mediaSize : Nat) (dts : Int) : List UInt8 :=
  let timestampBase := (dts % 2 ^ 24).toNat
  tagType :: (write3Bytes mediaSize ++ (write3Bytes timestampBase ++ [byteAt timestampBase 3, 0, 0, 1]))

def muxTag (tagType : UInt8) (mediaHeader : List UInt8) (pkt : MediaPacket) : List UInt8 :=
  let mediaSize := mediaHeader.length + pkt.data.length
  tagHeader tagType mediaSize pkt.dts ++ (mediaHeader ++ pkt.data) ++ write4Bytes (tagHeaderLen + mediaSize)

def videoHeader (pkt : MediaPacket) (codec : UInt8) : List UInt8 :=
  let flag := if pkt.isSeqHdr ∨ pkt.isKeyFrame then videoKeyFlag else videoInterFlag
  let tsDelta := if pkt.dts < pkt.pts then ((pkt.pts - pkt.dts) % 2 ^ 32).toNat else 0
  [flag ||| codec, if pkt.isSeqHdr then videoAvcSeqhdr else videoAvcNalu] ++ write3Bytes tsDelta

def audioHeader (pkt : MediaPacket) (codec : UInt8) : List UInt8 :=
  [0x0f ||| codec, if pkt.isSeqHdr then 0x00 else 0x01]

/--
The tag of a packet, `none` if its type or its codec is not supported.
-/
def muxPacket (pkt : MediaPacket) : Option (List UInt8) :=
  match pkt.avType with
  | .video => (videoCodec pkt.codecType).map fun codec => muxTag tagVideo (videoHeader pkt codec) pkt
  | .audio => (audioCodec pkt.codecType).map fun codec => muxTag tagAudio (audioHeader pkt codec) pkt
  | .metadata => some (muxTag tagTypeMeta [] pkt)
  | _ => none

/--
The packet that is output, `none` if -1 is returned.
-/
def inputPacket (m : FlvMuxer) (pkt : MediaPacket) : FlvMuxer × Option MediaPacket :=
  let header := if m.headerReady then [] else m.muxFlvHeader
  ({ m with headerReady := true },
    (muxPacket pkt).map fun tag =>
      { avType := pkt.avType
        codecType := pkt.codecType
        fmtType := .flv
        dts := pkt.dts
        pts := pkt.pts
        data := header ++ tag })

/--
The packets that are output for a sequence of packets.
-/
def run (m : FlvMuxer) : List MediaPacket → List MediaPacket
  | [] => []
  | pkt :: pkts => (m.inputPacket pkt).2.toList ++ (m.inputPacket pkt).1.run pkts

end FlvMuxer

end Flv
