import CppStreamer.Utils.ByteStream

/-!
This module contains how `opus_header.cpp` finds the frames of Opus packets in the access units of a
transport stream.
-/

open ByteStream

namespace Opus

/--
Why there are no frames: a byte behind the data is read, or the data is refused.
-/
inductive OpusFault where
  | outside
  | refused
  deriving DecidableEq, Repr

/--
The offset of a frame, and its size. Neither has to be within the data.
-/
structure OpusFrame where
  offset : Int
  size : Int
  deriving DecidableEq, Repr

def readByte (data : List UInt8) (pos : Nat) : Except OpusFault Nat :=
  match data[pos]? with
  | some b => .ok b.toNat
  | none => .error .outside

section Header

/--
The sum of the bytes up to the first one that is not 255, and their number.
-/
def unitSize : List UInt8 → Nat × Nat
  | [] => (0, 0)
  | [b] => (b.toNat, 1)
  | b :: next :: data =>
    if b = 255 then (255 + (unitSize (next :: data)).1, (unitSize (next :: data)).2 + 1)
    else (b.toNat, 1)

theorem unitSize_run {data : List UInt8} (h : data ≠ [])
    : unitSize (255 :: data) = (255 + (unitSize data).1, (unitSize data).2 + 1) := by
  cases data with
  | nil => exact absurd rfl h
  | cons b data =>
    rw [unitSize]
    exact if_pos rfl

theorem unitSize_stop {b : UInt8} (h : b ≠ 255) (rest : List UInt8) : unitSize (b :: rest) = (b.toNat, 1) := by
  cases rest with
  | nil => rfl
  | cons next rest =>
    rw [unitSize]
    exact if_neg h

/--
The position behind the control header.
-/
def controlEnd (data : List UInt8) : Except OpusFault Nat :=
  let control := read2Bytes data
  let i := 2 + (unitSize (data.drop 2)).2
  let i := if control.testBit 4 then i + 2 else i
  let i := if control.testBit 3 then i + 2 else i
  if control.testBit 2 then (i + 1 + ·) <$> readByte data i else .ok i

/--
The position behind the control header, and the size of the unit.
-/
def getOpusHeader (data : List UInt8) : Except OpusFault (Nat × Nat) :=
  if data.length < 3 then .error .refused
  -- the eleven bits of the prefix
  else if read2Bytes data / 2 ^ 5 ≠ 0x3ff then .ok (0, data.length)
  else do
    let i ← controlEnd data
    let size := (unitSize (data.drop 2)).1
    if data.length < i + size then .error .refused else .ok (i, size)

theorem controlEnd_ge {data : List UInt8} {i : Nat} (h : controlEnd data = .ok i) : 2 ≤ i := by
  unfold controlEnd at h
  simp only at h
  generalize hpos : (if (read2Bytes data).testBit 3 = true then _ else _) = pos at h
  have hle : 2 ≤ pos := by
    rw [← hpos]
    split <;> split <;> omega
  split at h
  . cases hext : readByte data pos with
    | error fault =>
      rw [hext] at h
      cases h
    | ok ext =>
      rw [hext] at h
      cases h
      simp only
      omega
  . cases h
    exact hle

theorem getOpusHeader_pos {data : List UInt8} {i size : Nat} (h : getOpusHeader data = .ok (i, size))
    : 0 < i + size := by
  unfold getOpusHeader at h
  split at h
  . cases h
  . split at h
    . cases h
      omega
    . cases hend : controlEnd data with
      | error fault =>
        rw [hend] at h
        cases h
      | ok pos =>
        have hge := controlEnd_ge hend
        rw [hend] at h
        simp only [bind, Except.bind] at h
        split at h
        . cases h
        . cases h
          omega

end Header

section Lacing

/--
A length of one or two bytes, and how many it takes.
-/
def xiphLacing16bit : List UInt8 → Except OpusFault (Nat × Nat)
  | [] => .error .refused
  | [val] => if 252 ≤ val.toNat then .error .refused else .ok (val.toNat, 1)
  | val :: next :: _ => if 252 ≤ val.toNat then .ok (val.toNat + 4 * next.toNat, 2) else .ok (val.toNat, 1)

/--
A length of any number of bytes, behind a sum and a number of them.
-/
def xiphLacingFull (val len : Nat) : List UInt8 → Except OpusFault (Nat × Nat)
  | [] => .error .refused
  | next :: data =>
    if 0x7fffffff - 254 < val then .error .refused
    else if next < 255 then .ok (val + next.toNat, len + 1)
    else xiphLacingFull (val + 254) (len + 1) data

def frameSizes : Nat → List UInt8 → Except OpusFault (List Nat × Nat)
  | 0, _ => .ok ([], 0)
  | count + 1, data => do
    let (size, len) ← xiphLacing16bit data
    let (sizes, lens) ← frameSizes count (data.drop len)
    .ok (size :: sizes, len + lens)

end Lacing

section Frames

/--
The frame of the last size that is given takes what is left for the one behind it.
-/
def vbrFrames (p : Nat) (lastLen : Int) : List Nat → List OpusFrame
  | [] => []
  | [_] => [⟨p - 1, lastLen + 1⟩]
  | size :: next :: sizes => ⟨p - 1, size + 1⟩ :: vbrFrames (p + size) lastLen (next :: sizes)

/--
The frames of a packet of `len` bytes. Each frame starts one byte in front of its data.
-/
def getOpusFrame (data : List UInt8) (len : Nat) : Except OpusFault (List OpusFrame) := do
  let type ← readByte data 0
  let left : Int := len - 1
  if type % 4 = 0 then .ok [⟨0, left + 1⟩]
  else if type % 4 = 1 then
    if left.tmod 2 = 1 then .error .refused
    else .ok [⟨0, left.tdiv 2 + 1⟩, ⟨left.tdiv 2, left.tdiv 2 + 1⟩]
  else if type % 4 = 2 then do
    let (frameLen, lacing) ← xiphLacing16bit ((data.take len).drop 1)
    if frameLen = 0 then .error .refused
    else
      let p := 1 + lacing
      .ok [⟨p - 1, frameLen + 1⟩, ⟨p + frameLen - 1, len - (p + frameLen : Int) + 1⟩]
  else do
    let index ← readByte data 1
    let frameCount := index % 2 ^ 6
    if frameCount = 0 ∨ 48 < frameCount then .error .refused
    else
      let (padding, lacing) ←
        if index.testBit 6 then xiphLacingFull 0 0 ((data.take len).drop 2) else .ok (0, 0)
      let p := 2 + lacing
      if index.testBit 7 then do
        let (sizes, lacing) ← frameSizes (frameCount - 1) ((data.take len).drop p)
        let p := p + lacing
        let frameLen : Int := len - p - padding
        if frameLen < sizes.sum then .error .refused
        else .ok (vbrFrames p (frameLen - sizes.sum) sizes)
      else
        let frameLen : Int := len - p - padding
        if frameLen.tmod frameCount ≠ 0 ∨ 48 < frameLen.tdiv frameCount then .error .refused
        else
          let frameLen := frameLen.tdiv frameCount
          .ok ((List.range frameCount).map fun i => ⟨p - 1 + i * frameLen, frameLen + 1⟩)

def OpusFrame.shift (frame : OpusFrame) (pos : Nat) : OpusFrame :=
  { frame with offset := frame.offset + pos }

/--
The frames of all packets from `pos` on.
-/
def framesFrom (data : List UInt8) (pos : Nat) : Except OpusFault (List OpusFrame) :=
  if pos < data.length then
    match _hheader : getOpusHeader (data.drop pos) with
    | .error fault => .error fault
    | .ok (i, size) => do
      let frames ← getOpusFrame (data.drop (pos + i)) size
      let rest ← framesFrom data (pos + i + size)
      .ok (frames.map (·.shift (pos + i)) ++ rest)
  else .ok []
termination_by data.length - pos
decreasing_by
  have := getOpusHeader_pos _hheader
  omega

def getOpusFrameVector (data : List UInt8) : Except OpusFault (List OpusFrame) := framesFrom data 0

/--
The bytes of a frame, `none` if they are not within the data.
-/
def OpusFrame.bytes (frame : OpusFrame) (data : List UInt8) : Option (List UInt8) :=
  if frame.size = 0 then some []
  else if 0 ≤ frame.offset ∧ 0 < frame.size ∧ frame.offset + frame.size ≤ data.length then
    some ((data.drop frame.offset.toNat).take frame.size.toNat)
  else none

end Frames

end Opus
