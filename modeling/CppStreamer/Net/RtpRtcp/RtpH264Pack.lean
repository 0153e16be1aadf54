import CppStreamer.Net.RtpRtcp.RtpPacket
import CppStreamer.Utils.ByteStream

/-!
This module contains the three ways to put NALUs into RTP packets: as they are, several in one packet,
and one in several packets.
-/

namespace RtpH264Pack

open ByteStream

def kPayloadMaxSize : Nat := 1200

def kStapA : UInt8 := 24

def kFuA : UInt8 := 28

def makeRtpPacket (payload : List UInt8) : RtpPacket where
  marker := false
  payloadType := 0
  seq := 0
  timestamp := 0
  ssrc := 0
  payload := payload

def generateSinglePackets (data : List UInt8) : RtpPacket := makeRtpPacket data

/--
A NALU with its length in front of it.
-/
def stapAField (nalu : List UInt8) : List UInt8 := write2Bytes nalu.length ++ nalu

def generateStapAPackets (naluVec : List (List UInt8)) : RtpPacket :=
  let naluHeader := (naluVec.headD []).headD 0
  makeRtpPacket (((naluHeader &&& 0xe0) ||| kStapA) :: naluVec.flatMap stapAField)

/--
The sizes of the fragments. A NALU is shorter than 2 ^ 31 bytes, the conversions to `int` keep its size.
-/
def splitNalu (payloadLeft : Nat) : List Nat :=
  if 0 < payloadLeft then
    if kPayloadMaxSize < payloadLeft then
      kPayloadMaxSize :: splitNalu (payloadLeft - kPayloadMaxSize)
    else
      [payloadLeft]
  else
    []
termination_by payloadLeft
decreasing_by
  unfold kPayloadMaxSize at *
  omega

def fuIndicator (naluHeader : UInt8) : UInt8 := (naluHeader &&& 0xe0) ||| kFuA

def fuHeader (naluHeader : UInt8) (start last : Bool) : UInt8 :=
  (if start then 0x80 else 0) ||| (if last then 0x40 else 0) ||| (naluHeader &&& 0x1f)

def fuAPacket (naluHeader : UInt8) (start last : Bool) (fragment : List UInt8) : RtpPacket :=
  { makeRtpPacket (fuIndicator naluHeader :: fuHeader naluHeader start last :: fragment) with
    marker := last }

/--
The loop over the fragments, `start` at the first one.
-/
def generateFuALoop (naluHeader : UInt8) (start : Bool) : List Nat → List UInt8 → List RtpPacket
  | [], _ => []
  | size :: sizes, fragment =>
    fuAPacket naluHeader start sizes.isEmpty (fragment.take size)
      :: generateFuALoop naluHeader false sizes (fragment.drop size)

def generateFuAPackets (nalu : List UInt8) : List RtpPacket :=
  generateFuALoop (nalu.headD 0) true (splitNalu (nalu.length - 1)) nalu.tail

theorem splitNalu_of_le {n : Nat} (hpos : 0 < n) (hle : n ≤ kPayloadMaxSize) : splitNalu n = [n] := by
  unfold splitNalu
  rw [if_pos hpos, if_neg (by omega)]

theorem splitNalu_of_gt {n : Nat} (hgt : kPayloadMaxSize < n)
    : splitNalu n = kPayloadMaxSize :: splitNalu (n - kPayloadMaxSize) := by
  rw [splitNalu, if_pos (by omega), if_pos hgt]

theorem sum_splitNalu (n : Nat) : (splitNalu n).sum = n := by
  fun_induction splitNalu n with
  | case1 n hpos hgt ih =>
    rw [List.sum_cons, ih]
    omega
  | case2 => simp
  | case3 => simp; omega

theorem splitNalu_ne_nil {n : Nat} (hpos : 0 < n) : splitNalu n ≠ [] := by
  intro h
  have := sum_splitNalu n
  rw [h] at this
  simp at this
  omega

end RtpH264Pack
