import CppStreamer.Format.AvccNalus
import CppStreamer.Format.Mp4.MovItems

/-!
This module contains the part of `Mp4Demuxer` that moves the times of one kind of tracks and sends the items.
-/

namespace Mp4

section Adjusting

/--
The integer that a number is rounded to as a `double`: to 53 bits, halves to even.
-/
def roundDouble (n : Nat) : Nat :=
  if n < 2 ^ 53 then n
  else
    let unit := 2 ^ (Nat.log2 n - 52)
    let rest := n % unit
    if 2 * rest < unit ∨ (2 * rest = unit ∧ n / unit % 2 = 0) then n / unit * unit else (n / unit + 1) * unit

/--
A time that is not negative and a duration, which is a `double`.
-/
def addDuration (time : Int) (duration : UInt32) : Int := int64 (roundDouble (roundDouble time.toNat + duration.toNat))

/--
The duration of the first sample of the last track of a kind that has one. The product is one of 32 bits.
-/
def durationOf (handlerType : List UInt8) (traksInfo : List TrakInfo) : UInt32 :=
  traksInfo.foldl
    (fun duration trak =>
      if trak.handlerType = handlerType then
        match trak.sampleEntries with
        | [] => duration
        | entry :: _ => if 0 < trak.timescale then entry.samplesDelta * 1000000 / trak.timescale else duration
      else duration)
    0

/--
What the search for the first change between audio and video has come to.
-/
structure Change where
  vDts : Int := -1
  aDts : Int := -1
  updateVideo : Bool := false

def Change.search (aDuration vDuration : UInt32) : Change → List MovItem → Change
  | change, [] => change
  | change, item :: items =>
    if item.avType = .audio then
      if 0 < change.vDts ∧ change.aDts ≤ 0 then
        { change with aDts := addDuration change.vDts aDuration, updateVideo := false }
      else search aDuration vDuration { change with aDts := item.dts } items
    else if item.avType = .video then
      if 0 < change.aDts ∧ change.vDts ≤ 0 then
        { change with vDts := addDuration change.aDts vDuration, updateVideo := true }
      else search aDuration vDuration { change with vDts := item.dts } items
    else search aDuration vDuration change items

def MovItem.shift (item : MovItem) (time : Int) : MovItem :=
  { item with dts := int64 (item.dts + time), pts := int64 (item.pts + time) }

def Change.adjust (change : Change) (item : MovItem) : MovItem :=
  if item.avType = .audio ∧ change.updateVideo = false then item.shift change.aDts
  else if item.avType = .video ∧ change.updateVideo = true then item.shift change.vDts
  else item

/--
The items stay where they are in the map.
-/
def adjustAllDts (traksInfo : List TrakInfo) (sampleItems : List (Int × MovItem)) : List (Int × MovItem) :=
  let change := Change.search (durationOf soun traksInfo) (durationOf vide traksInfo) {} (sampleItems.map Prod.snd)
  sampleItems.map fun item => (item.1, change.adjust item.2)

end Adjusting

section Packets

/--
What reads the file: for an offset and a length the result of `Read` and what is in the buffer then. `unwritten` is what
lies behind a NALU without bytes.
-/
structure IoReader where
  read : Nat → Nat → Int × (Nat → UInt8)
  unwritten : UInt8

/--
A time of an item in milliseconds.
-/
def MovItem.packetTime (item : MovItem) (time : Int) : Int :=
  if 0 < item.timescale then (int64 (time * 1000)).tdiv item.timescale else time

def MovItem.packet (item : MovItem) (isKeyFrame isSeqHdr : Bool) (data : List UInt8) : MediaPacket :=
  sendMediaPacket item.avType item.codecType (item.packetTime item.dts) (item.packetTime item.pts) isKeyFrame isSeqHdr data

def MovItem.naluPacket (item : MovItem) (unwritten : UInt8) (nalu : List UInt8) : MediaPacket :=
  let nalType := H264.nalType (nalu.getD 4 unwritten)
  if nalType = H264.naluTypeSps ∨ nalType = H264.naluTypePps then item.packet false true nalu
  else item.packet (nalType = H264.naluTypeIdr) false nalu

/--
The packets of an item. The NALUs of a video are sent one by one.
-/
def MovItem.packets (item : MovItem) (unwritten : UInt8) (data : Nat → UInt8) : List MediaPacket :=
  if item.avType = .video ∧ (item.codecType = .h264 ∨ item.codecType = .h265) then
    if item.len ≤ 5 then []
    else if (Avcc.avcc2Nalus data item.len).value.1 then
      (Avcc.avcc2Nalus data item.len).value.2.map (item.naluPacket unwritten)
    else []
  else [item.packet false false (Reading.bytesAt data 0 item.len)]

/--
The items up to one that cannot be read.
-/
def handleMovItems (io : IoReader) : List (Int × MovItem) → List MediaPacket
  | [] => []
  | (_, item) :: items =>
    let (ret, data) := io.read item.offset item.len
    if (ret % 2 ^ 64).toNat < item.len then []
    else item.packets io.unwritten data ++ handleMovItems io items

end Packets

end Mp4
