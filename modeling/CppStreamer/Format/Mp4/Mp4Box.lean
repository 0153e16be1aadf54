import CppStreamer.Utils.ByteStream
import CppStreamer.Utils.MediaPacket
import CppStreamer.Utils.StringEx

/-!
This module contains what is kept of a track while the boxes of a movie are parsed, and the parsers of two of the boxes
that say where its samples are.
-/

open ByteStream StringEx

namespace Mp4

/--
A run of `stts`.
-/
structure SampleEntry where
  sampleCount : UInt32
  samplesDelta : UInt32
  deriving DecidableEq, Repr

/--
A run of `ctts`.
-/
structure SampleOffset where
  sampleCounts : UInt32
  sampleOffsets : UInt32
  deriving DecidableEq, Repr

/--
A run of `stsc`.
-/
structure ChunkSample where
  firstChunk : UInt32
  samplesPerChunk : UInt32
  sampleDescriptionIndex : UInt32
  deriving DecidableEq, Repr

def soun : List UInt8 := utf8 "soun"

def vide : List UInt8 := utf8 "vide"

/--
A track. There are no more sample sizes than an `uint32_t` counts, which is how they are read.
-/
structure TrakInfo where
  timescale : UInt32
  handlerType : List UInt8
  codecType : MediaCodecType := .unknown
  sequenceData : List UInt8 := []
  sampleEntries : List SampleEntry := []
  sampleOffsetVec : List SampleOffset := []
  iframeSampleVec : List UInt32 := []
  chunkSampleVec : List ChunkSample := []
  sampleSizesVec : List UInt32 := []
  chunkOffsetsVec : List UInt32 := []
  sampleSizes_lt : sampleSizesVec.length < 2 ^ 32

/--
A sample that is to be sent. `dts` and `pts` are in microseconds.
-/
structure MovItem where
  avType : MediaPktType
  codecType : MediaCodecType
  offset : Nat
  len : Nat
  dts : Int
  pts : Int
  timescale : Int
  isKeyframe : Bool
  deriving DecidableEq, Repr

section Boxes

/--
`ByteStream::Read4Bytes` at a position of the data that is there, `none` if it leads behind the end.
-/
def read4 (data : List UInt8) (p : Nat) : Option UInt32 :=
  if p + 4 ≤ data.length then some (UInt32.ofNat (read4Bytes (data.drop p))) else none

def read8 (data : List UInt8) (p : Nat) : Option Nat :=
  if p + 8 ≤ data.length then some (read8Bytes (data.drop p)) else none

/--
The size of a box, and where its content begins.
-/
structure Mp4BoxBase where
  boxSize : Nat
  type : List UInt8
  offset : Nat
  deriving DecidableEq, Repr

def Mp4BoxBase.parse (data : List UInt8) : Option Mp4BoxBase := do
  let boxSize ← read4 data 0
  let _ ← read4 data 4
  let type := (data.drop 4).take 4
  if boxSize = 1 then do
    let boxSize ← read8 data 8
    some ⟨boxSize, type, 16⟩
  else some ⟨boxSize.toNat, type, 8⟩

/--
The loop over the runs, which ends at the end of the box too: the runs and the position behind them.
-/
def StscBox.entries (data : List UInt8) (boxSize : Nat) : Nat → Nat → Option (List ChunkSample × Nat)
  | 0, p => some ([], p)
  | count + 1, p =>
    if boxSize ≤ p then some ([], p)
    else do
      let firstChunk ← read4 data p
      let samplesPerChunk ← read4 data (p + 4)
      let sampleDescriptionIndex ← read4 data (p + 8)
      let (runs, p') ← entries data boxSize count (p + 12)
      some (⟨firstChunk, samplesPerChunk, sampleDescriptionIndex⟩ :: runs, p')

/--
`none` if the box is read behind the end of the data or the assertion at its end fails.
-/
def StscBox.parse (data : List UInt8) (trak : TrakInfo) : Option TrakInfo := do
  let box ← Mp4BoxBase.parse data
  let _versionFlag ← read4 data box.offset
  let entryCount ← read4 data (box.offset + 4)
  let (runs, p) ← StscBox.entries data box.boxSize entryCount.toNat (box.offset + 8)
  if p = box.boxSize then some { trak with chunkSampleVec := trak.chunkSampleVec ++ runs } else none

/--
As many words as `count` says.
-/
def words (data : List UInt8) (p count : Nat) : List UInt32 :=
  (List.range count).map fun i => UInt32.ofNat (read4Bytes (data.drop (p + 4 * i)))

theorem length_words (data : List UInt8) (p : Nat) (count : UInt32) : (words data p count.toNat).length < 2 ^ 32 := by
  rw [words, List.length_map, List.length_range]
  exact count.toNat_lt

/--
The sizes are only read where there is no size for all samples.
-/
def StszBox.parse (data : List UInt8) (trak : TrakInfo) : Option TrakInfo := do
  let box ← Mp4BoxBase.parse data
  let _versionFlag ← read4 data box.offset
  let constantSize ← read4 data (box.offset + 4)
  let sampleCount ← read4 data (box.offset + 8)
  if constantSize = 0 then
    if data.length < box.offset + 12 + 4 * sampleCount.toNat then none
    else if box.offset + 12 + 4 * sampleCount.toNat = box.boxSize then
      some { trak with
        sampleSizesVec := words data (box.offset + 12) sampleCount.toNat
        sampleSizes_lt := length_words data (box.offset + 12) sampleCount }
    else none
  else if box.offset + 12 = box.boxSize then some trak
  else none

end Boxes

end Mp4
