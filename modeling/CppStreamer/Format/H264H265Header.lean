import CppStreamer.Utils.MediaPacket

/-!
This module contains how `h264_h265_header.cpp` cuts a stream of bytes into NALUs with their start codes.
-/

namespace H264

def naluTypeAud : UInt8 := 9

/--
The length of the start code in front, 0 if there is none.
-/
def startCodeLen : List UInt8 → Nat
  | 0 :: 0 :: 0 :: 1 :: _ => 4
  | 0 :: 0 :: 1 :: _ => 3
  | _ => 0

/--
The positions of the start codes from `pos` on, behind some bytes that are skipped.
-/
def startPositions : List UInt8 → Nat → Nat → List Nat
  | [], _, _ => []
  | _ :: data, pos, skip + 1 => startPositions data (pos + 1) skip
  | b :: data, pos, 0 =>
    match startCodeLen (b :: data) with
    | 0 => startPositions data (pos + 1) 0
    | len + 1 => pos :: startPositions data (pos + 1) len

/--
Each NALU ends where the next one starts.
-/
def nalusAt (data : List UInt8) : List Nat → List (List UInt8)
  | [] => []
  | [pos] => [data.drop pos]
  | pos :: next :: positions => (data.drop pos).take (next - pos) :: nalusAt data (next :: positions)

/--
`none` if the data is refused. What is in front of the first start code is dropped.
-/
def annexB2Nalus (data : List UInt8) : Option (List (List UInt8)) :=
  if data.length < 4 then none else some (nalusAt data (startPositions data 0 0))

section Positions

theorem startPositions_skip (data : List UInt8) (pos skip : Nat)
    : startPositions data pos skip = startPositions (data.drop skip) (pos + skip) 0 := by
  induction data generalizing pos skip with
  | nil => simp [startPositions]
  | cons b data ih =>
    cases skip with
    | zero => rfl
    | succ skip =>
      rw [startPositions, ih, List.drop_succ_cons]
      congr 1
      omega

end Positions

end H264
