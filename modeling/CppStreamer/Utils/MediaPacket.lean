import Mathlib.Algebra.Order.Ring.Int
import Mathlib.Data.List.Basic

/-!
This module contains media packets and the H.264 start codes in front of their data.
-/

inductive MediaPktType where
  | unknown
  | video
  | audio
  | movbox
  | metadata
  deriving DecidableEq, Repr

inductive MediaCodecType where
  | unknown
  | h264
  | h265
  | h266
  | vp8
  | vp9
  | av1
  | aac
  | opus
  | mp3
  deriving DecidableEq, Repr

inductive MediaFormatType where
  | unknown
  | raw
  | flv
  | mpegts
  deriving DecidableEq, Repr

/--
`data` is what the buffer of the packet holds.
-/
structure MediaPacket where
  avType : MediaPktType := .unknown
  codecType : MediaCodecType := .unknown
  fmtType : MediaFormatType := .unknown
  dts : Int := -1
  pts : Int := -1
  isKeyFrame : Bool := false
  isSeqHdr : Bool := false
  data : List UInt8 := []
  deriving DecidableEq, Repr

namespace H264

def startCode : List UInt8 := [0, 0, 0, 1]

def shortStartCode : List UInt8 := [0, 0, 1]

/--
The type of a NALU with the given first byte.
-/
def nalType (header : UInt8) : UInt8 := header &&& 0x1f

def naluTypeIdr : UInt8 := 5

def naluTypeSei : UInt8 := 6

def naluTypeSps : UInt8 := 7

def naluTypePps : UInt8 := 8

/--
The position behind the start code, `none` stands for -1.
-/
def getNaluTypePos : List UInt8 → Option Nat
  | 0 :: 0 :: 1 :: _ => some 3
  | 0 :: 0 :: 0 :: 1 :: _ => some 4
  | _ => none

end H264
