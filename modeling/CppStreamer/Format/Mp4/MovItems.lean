import CppStreamer.Basic.Multimap
import CppStreamer.Basic.RunLength
import CppStreamer.Format.HevcRecord
import CppStreamer.Format.Mp4.Mp4Box

/-!
This module contains the part of `Mp4Demuxer` that makes the items of a movie from the tables of its tracks, and the
packets with the sequence headers that go in front of them.
-/

open Reading

namespace Mp4

def int64 (n : Int) : Int := n.bmod (2 ^ 64)

section Tables

variable (sampleIndex : UInt32)

/--
The search of `getDurationBySampleIndex`, with the samples that have been counted.
-/
def durationFrom (sampleCount : UInt32) : List SampleEntry → Int
  | [] => 0
  | entry :: entries =>
    let next := sampleCount + entry.sampleCount
    if sampleCount ≤ sampleIndex ∧ sampleIndex < next then entry.samplesDelta.toNat else durationFrom next entries

def getDurationBySampleIndex (trakinfo : TrakInfo) : Int := durationFrom sampleIndex 0 trakinfo.sampleEntries

/--
The search of `getPtsBySampleIndex`, with the samples that have been counted.
-/
def ctsFrom (sampleCount : UInt32) : List SampleOffset → UInt32
  | [] => 0
  | item :: items =>
    let sampleCount := sampleCount + item.sampleCounts
    if sampleCount = sampleIndex then item.sampleOffsets else ctsFrom sampleCount items

def getPtsBySampleIndex (dts : Int) (trakinfo : TrakInfo) : Int :=
  int64 (dts + (ctsFrom sampleIndex 0 trakinfo.sampleOffsetVec).toNat)

def isKeyframe (trakinfo : TrakInfo) : Bool := trakinfo.iframeSampleVec.contains sampleIndex

end Tables

/--
A time of a track in microseconds, if the track has a timescale.
-/
def scaled (trakinfo : TrakInfo) (time : Int) : Int :=
  if 0 < trakinfo.timescale then (int64 (time * 1000000)).tdiv trakinfo.timescale.toNat else time

def movItem (trakinfo : TrakInfo) (avType : MediaPktType) (sampleIndex : UInt32) (sampleOffset : Nat)
    (sampleSize : UInt32) (dts : Int) : MovItem where
  avType
  codecType := trakinfo.codecType
  offset := sampleOffset
  len := sampleSize.toNat
  dts := scaled trakinfo dts
  pts := scaled trakinfo (getPtsBySampleIndex sampleIndex dts trakinfo)
  timescale := 1000000
  isKeyframe := isKeyframe sampleIndex trakinfo

/--
The loop over the samples of a chunk: the items and the time behind them. `none` if there is no size for a sample.
-/
def samplesInChunk (trakinfo : TrakInfo) (avType : MediaPktType) : Nat → UInt32 → Nat → Int → Option (List MovItem × Int)
  | 0, _, _, dts => some ([], dts)
  | left + 1, sampleIndex, sampleOffset, dts => do
    let sampleSize ← trakinfo.sampleSizesVec[(sampleIndex - 1).toNat]?
    let duration := getDurationBySampleIndex sampleIndex trakinfo
    let item := movItem trakinfo avType sampleIndex sampleOffset sampleSize dts
    let (items, dts) ← samplesInChunk trakinfo avType left (sampleIndex + 1) (sampleOffset + sampleSize.toNat)
      (int64 (dts + duration))
    some (item :: items, dts)

/--
The kind of the packets of a track, `none` for a track that is not demuxed.
-/
def TrakInfo.avType (trakinfo : TrakInfo) : Option MediaPktType :=
  if trakinfo.handlerType = soun then some .audio
  else if trakinfo.handlerType = vide then some .video
  else none

def getSampleInfoInChunk (chunkOffset samplePerChunk startSampleIndex : UInt32) (dts : Int) (trakinfo : TrakInfo)
    : Option (List MovItem × Int) :=
  match trakinfo.avType with
  | none => some ([], dts)
  | some avType =>
    samplesInChunk trakinfo avType samplePerChunk.toNat startSampleIndex chunkOffset.toNat dts

/--
How far the loop over the chunks of a track has come, with the items in the order in which they are inserted.
-/
structure Progress where
  items : List MovItem := []
  sampleIndex : UInt32 := 1
  dts : Int := 0

/--
Whether a run of `stsc` is that of a chunk, which the next run is needed for.
-/
def found (chunkIndex : Nat) (run : ChunkSample) : List ChunkSample → Bool
  | [] => run.firstChunk.toNat ≤ chunkIndex
  | next :: _ => run.firstChunk.toNat ≤ chunkIndex ∧ chunkIndex < next.firstChunk.toNat

/--
The loop over the runs of `stsc` for one chunk.
-/
def runsOfChunk (trakinfo : TrakInfo) (chunkIndex : Nat) (chunkOffset : UInt32)
    : List ChunkSample → Progress → Option Progress
  | [], progress => some progress
  | run :: runs, progress => do
    let progress ← if found chunkIndex run runs then do
        let (items, dts) ← getSampleInfoInChunk chunkOffset run.samplesPerChunk progress.sampleIndex progress.dts
          trakinfo
        some ⟨progress.items ++ items, progress.sampleIndex + run.samplesPerChunk, dts⟩
      else some progress
    runsOfChunk trakinfo chunkIndex chunkOffset runs progress

def chunksFrom (trakinfo : TrakInfo) (chunkIndex : Nat) : List UInt32 → Progress → Option Progress
  | [], progress => some progress
  | chunkOffset :: chunkOffsets, progress => do
    let progress ← runsOfChunk trakinfo chunkIndex chunkOffset trakinfo.chunkSampleVec progress
    chunksFrom trakinfo (chunkIndex + 1) chunkOffsets progress

/--
The items of one track, in the order of its samples.
-/
def trakItems (trakinfo : TrakInfo) : Option (List MovItem) :=
  (chunksFrom trakinfo 1 trakinfo.chunkOffsetsVec {}).map (·.items)

section SequenceHeaders

def sendMediaPacket (avType : MediaPktType) (codecType : MediaCodecType) (dts pts : Int) (isKeyFrame isSeqHdr : Bool)
    (data : List UInt8) : MediaPacket :=
  { avType, codecType, fmtType := .raw, dts, pts, isKeyFrame, isSeqHdr, data }

/--
What is in memory before the code writes there: the local arrays for the parameter sets, and what the data of a track
is followed by.
-/
structure Surroundings where
  vps : List UInt8
  sps : List UInt8
  pps : List UInt8
  behind : Nat → UInt8
  length_vps : vps.length = 2048
  length_sps : sps.length = 2048
  length_pps : pps.length = 2048

theorem length_zeros : (List.replicate 2048 (0 : UInt8)).length = 2048 := List.length_replicate

def zeroed : Surroundings where
  vps := List.replicate 2048 0
  sps := List.replicate 2048 0
  pps := List.replicate 2048 0
  behind := fun _ => 0
  length_vps := length_zeros
  length_sps := length_zeros
  length_pps := length_zeros

variable (around : Surroundings) (trakinfo : TrakInfo)

def sequenceMem (i : Nat) : UInt8 := trakinfo.sequenceData.getD i (around.behind i)

def handleAACExtraData : List MediaPacket :=
  [sendMediaPacket .audio trakinfo.codecType 0 0 false true trakinfo.sequenceData]

/--
The caches from their fifth byte on, which is where the parameter sets are copied to.
-/
def h265Caches : ParameterSets.Caches where
  vps := ⟨around.vps.drop 5, 0⟩
  sps := ⟨around.sps.drop 5, 0⟩
  pps := ⟨around.pps.drop 5, 0⟩

/--
What is written in front of a parameter set: the start code, and the type if there is an array of it.
-/
def h265Front (array : List UInt8) (units : List MpegTs.HevcNalUnit) (type : UInt8) : List UInt8 :=
  H264.startCode ++ [if units.any fun unit => unit.nalUnitType = type then type else array.getD 4 0]

/--
The result of `GetHevcDecInfoFromExtradata` is not looked at. The lengths that are sent are those of the parameter sets.
-/
def handleH265VpsSpsPps : Checked CopyCheck (List MediaPacket) := do
  let record := (Hevc.getHevcDecInfoFromExtradata (sequenceMem around trakinfo) trakinfo.sequenceData.length).value.2
  let units := record.naluVec.map fun unit => (⟨unit.nalUnitType, unit.nalDataVec⟩ : MpegTs.HevcNalUnit)
  let caches ← (h265Caches around).getVpsSpsPps units
  let vps := h265Front around.vps units MpegTs.naluTypeVps ++ caches.vps.array
  let sps := h265Front around.sps units MpegTs.naluTypeHevcSps ++ caches.sps.array
  let pps := h265Front around.pps units MpegTs.naluTypeHevcPps ++ caches.pps.array
  return [sendMediaPacket .video trakinfo.codecType 0 0 false true (vps.take caches.vps.len.toNat),
    sendMediaPacket .video trakinfo.codecType 0 0 false true (sps.take caches.sps.len.toNat),
    sendMediaPacket .video trakinfo.codecType 0 0 false true (pps.take caches.pps.len.toNat)]

/--
`none` for the exception.
-/
def handleH264SpsPps : Checked CopyCheck (Option (List MediaPacket)) := do
  let sets ← ParameterSets.getSpsPpsFromExtraData (sequenceMem around trakinfo) trakinfo.sequenceData.length
    ⟨around.pps.drop 4, 0⟩ ⟨around.sps.drop 4, 0⟩
  match sets with
  | none => return none
  | some (pps, sps) =>
    if pps.len = 0 ∨ sps.len = 0 then return none
    else
      return some [
        sendMediaPacket .video trakinfo.codecType 0 0 false true
          ((H264.startCode ++ sps.array).take (sps.len.toNat + 4)),
        sendMediaPacket .video trakinfo.codecType 0 0 false true
          ((H264.startCode ++ pps.array).take (pps.len.toNat + 4))]

/--
The packets in front of the items of a track, `none` for an exception.
-/
def sequenceHeaders : Option (List MediaPacket) :=
  if trakinfo.handlerType = vide then
    if trakinfo.codecType = .h264 then (handleH264SpsPps around trakinfo).value
    else if trakinfo.codecType = .h265 then some (handleH265VpsSpsPps around trakinfo).value
    else none
  else if trakinfo.handlerType = soun then
    if trakinfo.codecType = .aac then some (handleAACExtraData trakinfo) else none
  else some []

end SequenceHeaders

/--
The packets that are sent at once, and `sample_items_` with the key of each item.
-/
def makeMovItems (around : Surroundings) (traksInfo : List TrakInfo)
    : Option (List MediaPacket × List (Int × MovItem)) := do
  let headers ← traksInfo.mapM (sequenceHeaders around)
  let items ← traksInfo.mapM trakItems
  some (headers.flatten, Multimap.ofList Prod.fst (items.flatten.map fun item => (item.dts, item)))

end Mp4
