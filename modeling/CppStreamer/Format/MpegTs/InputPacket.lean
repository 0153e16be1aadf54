import CppStreamer.Format.Flv.Demux
import CppStreamer.Format.H264H265Header
import CppStreamer.Format.MpegTs.Mux

/-!
This module contains the model of `MpegtsMux::InputPacket`: the packets that wait for a codec, what the
handlers of the codecs make of a packet, and the packets of the tables and the PES in their order.
A read outside of the data is `none`.
-/

open ByteStream

namespace MpegTs

/--
A packet with what it says about its sound.
-/
structure AvPacket extends MediaPacket where
  hasFlvAudioAsc : Bool := false
  sampleRate : Nat := 44100
  channel : UInt8 := 2
  aacAscType : UInt8 := 2
  deriving DecidableEq, Repr

/--
The parameter sets and the audio configuration that the handlers keep between packets.
-/
structure CodecState where
  pps : List UInt8 := []
  sps : List UInt8 := []
  vps : List UInt8 := []
  isAnnexb : Bool := false
  aacType : UInt8 := 0
  sampleRate : Nat := 0
  channel : UInt8 := 0
  keyframeReady : Bool := false

structure MpegtsMuxState extends MpegtsMux where
  codec : CodecState := {}
  lastPatpmtTs : Int := -1
  videoReady : Bool := false
  audioReady : Bool := false
  ready : Bool := false
  waitQueue : List AvPacket := []

def patpmtInterval : Int := 3000

/--
What a handler comes to: the return value, the packets for `WritePes`, and what it keeps.
-/
abbrev Handled := Int × List MediaPacket × CodecState

section H264

def h264AudData : List UInt8 := [0x00, 0x00, 0x00, 0x01, 0x09, 0xff]

/--
The parameter sets of a sequence header. A refused one leaves both of them empty.
-/
def CodecState.handleH264SeqHdr (c : CodecState) (data : List UInt8) : Option CodecState :=
  if c.isAnnexb then do
    let pos ← H264.getNaluTypePos data
    let nalType := H264.nalType (data.getD pos 0)
    if nalType = H264.naluTypePps then pure { c with pps := data }
    else if nalType = H264.naluTypeSps then pure { c with sps := data }
    else pure c
  else do
    let (pps, sps) ← Flv.getSpsPpsFromExtraData data.length data
    pure { c with pps, sps }

def CodecState.handleH264Nalus (c : CodecState) (pkt : MediaPacket)
    : List (List UInt8) → Option (List MediaPacket × CodecState)
  | [] => some ([], c)
  | data :: nalus => do
    let pos ← H264.getNaluTypePos data
    let nalType := H264.nalType (data.getD pos 0)
    if nalType = H264.naluTypeAud then c.handleH264Nalus pkt nalus
    else if nalType = H264.naluTypePps then handleH264Nalus { c with pps := data } pkt nalus
    else if nalType = H264.naluTypeSps then handleH264Nalus { c with sps := data } pkt nalus
    else
      let isKey := nalType = H264.naluTypeIdr
      let c := { c with keyframeReady := c.keyframeReady || isKey }
      let frame := h264AudData ++ (if isKey then c.sps ++ c.pps else []) ++ data
      let (frames, c') ← c.handleH264Nalus pkt nalus
      pure (if c.keyframeReady then { pkt with data := frame } :: frames else frames, c')

/--
Whether `Avcc2Nalus` comes to the end of the data without a NALU that is too long.
-/
def avccAccepted (data : List UInt8) : Bool :=
  if data = [] then true
  else if data.length < 4 then false
  else
    let naluLen := read4Bytes data
    naluLen ≤ Flv.kMaxLen && avccAccepted (data.drop (4 + naluLen))
termination_by data.length
decreasing_by
  rw [List.length_drop]
  omega

/--
The NALUs of AVCC data, `some none` if it is refused.
-/
def acceptedAvccNalus (data : List UInt8) : Option (Option (List (List UInt8))) := do
  let nalus ← Flv.avcc2Nalus data.length data
  pure (if 4 ≤ data.length ∧ avccAccepted data then some nalus else none)

def CodecState.handleH264 (u : Unwritten) (c : CodecState) (pkt : MediaPacket) : Option Handled :=
  let c := { c with isAnnexb := c.isAnnexb || readData u pkt.data 0 4 = H264.startCode }
  if pkt.isSeqHdr then do
    let c ← c.handleH264SeqHdr pkt.data
    pure (0, [], c)
  else do
    let nalus ← if c.isAnnexb then some (H264.annexB2Nalus pkt.data) else acceptedAvccNalus pkt.data
    match nalus with
    | none => pure (-1, [], c)
    | some nalus =>
      let (frames, c) ← c.handleH264Nalus pkt nalus
      pure (0, frames, c)

end H264

section H265

def h265AudData : List UInt8 := [0x00, 0x00, 0x00, 0x01, 0x46, 0x01, 0x50]

def h265StartCode : List UInt8 := [0x00, 0x00, 0x00, 0x01]

def hevcNaluType (b : UInt8) : UInt8 := (b &&& 0x7e) >>> 1

def naluTypeVps : UInt8 := 32
def naluTypeHevcSps : UInt8 := 33
def naluTypeHevcPps : UInt8 := 34
def naluTypeHevcAud : UInt8 := 35

/--
An array of parameter sets in the configuration.
-/
structure HevcNalUnit where
  nalUnitType : UInt8
  nalDataVec : List (List UInt8)

/--
The NALUs of one array with the data behind them, `some none` if one leads behind the end.
-/
def hevcNaluData : Nat → List UInt8 → Option (Option (List (List UInt8) × List UInt8))
  | 0, data => some (some ([], data))
  | count + 1, data =>
    if data.length < 2 then none
    else
      let len := read2Bytes data
      if data.length - 2 < len then some none
      else do
        let rest ← hevcNaluData count (data.drop (2 + len))
        pure (rest.map fun (nalus, data') => ((data.drop 2).take len :: nalus, data'))

def hevcArrays : Nat → List UInt8 → Option (Option (List HevcNalUnit))
  | 0, _ => some (some [])
  | count + 1, data =>
    if data.length < 5 then some none
    else do
      match ← hevcNaluData (read2Bytes (data.drop 1)) (data.drop 3) with
      | none => pure none
      | some (nalDataVec, data') =>
        let rest ← hevcArrays count data'
        pure (rest.map (⟨data.headD 0 &&& 0x3f, nalDataVec⟩ :: ·))

/--
The arrays behind the 22 bytes of the configuration and their count.
-/
def getHevcDecInfoFromExtradata (extraData : List UInt8) : Option (Option (List HevcNalUnit)) :=
  if extraData = [] then none
  else if extraData.headD 0 ≠ 1 then some none
  else if extraData.length < 23 then none
  else hevcArrays (extraData.getD 22 0).toNat (extraData.drop 23)

/--
The first NALU of the last array of a type, empty if there is no such array. `none` if there is
one without a NALU.
-/
def parameterSet (units : List HevcNalUnit) (nalUnitType : UInt8) : Option (List UInt8) :=
  if units.any fun unit => unit.nalUnitType = nalUnitType && unit.nalDataVec.isEmpty then none
  else
    match (units.filter fun unit => unit.nalUnitType = nalUnitType).getLast? with
    | some unit => some (unit.nalDataVec.headD [])
    | none => some []

def CodecState.handleH265SeqHdr (c : CodecState) (data : List UInt8) : Option Handled := do
  match ← getHevcDecInfoFromExtradata data with
  | none => pure (-1, [], c)
  | some units =>
    let vps ← parameterSet units naluTypeVps
    let sps ← parameterSet units naluTypeHevcSps
    let pps ← parameterSet units naluTypeHevcPps
    pure (0, [], { c with vps, sps, pps })

/--
The packets of the NALUs. The parameter sets are in front of the first one of a key frame.
-/
def CodecState.h265Frames (c : CodecState) (pkt : MediaPacket)
    : Bool → List (List UInt8) → List MediaPacket
  | _, [] => []
  | appended, data :: nalus =>
    let naluType := hevcNaluType (data.getD 4 0)
    if naluType = naluTypeHevcAud then c.h265Frames pkt appended nalus
    else
      let isKey := 16 ≤ naluType ∧ naluType ≤ 23 ∧ ¬appended
      let sets := h265StartCode ++ c.vps ++ (h265StartCode ++ c.sps) ++ (h265StartCode ++ c.pps)
      { pkt with
        data := h265AudData ++ (if isKey then sets else []) ++ (h265StartCode ++ data.drop 4) }
        :: c.h265Frames pkt (appended || isKey) nalus

def CodecState.handleH265 (c : CodecState) (pkt : MediaPacket) : Option Handled :=
  if pkt.isSeqHdr then c.handleH265SeqHdr pkt.data
  else do
    match ← acceptedAvccNalus pkt.data with
    | none => pure (-1, [], c)
    | some nalus => pure (0, c.h265Frames pkt false nalus, c)

end H265

section Audio

def mpeg4AudioSampleRates : List Nat :=
  [96000, 88200, 64000, 48000, 44100, 32000, 24000, 22050, 16000, 12000, 11025, 8000, 7350, 0, 0, 0]

def getSamplerateIndex (sampleRate : Nat) : Nat :=
  (mpeg4AudioSampleRates.findIdx? fun rate => rate = sampleRate).getD 4

def getAdtsTypeByAscType (ascType : UInt8) : Nat :=
  if ascType = 1 then 1
  else if ascType = 5 ∨ ascType = 29 ∨ ascType = 2 then 2
  else if ascType = 3 then 3
  else 4

def makeAdts (objectType sampleRate channel frameSize : Nat) : List UInt8 :=
  let size := (frameSize + 7) % 2 ^ 13
  [0xff, 0xf9,
    UInt8.ofNat ((objectType - 1) * 2 ^ 6) ||| UInt8.ofNat (getSamplerateIndex sampleRate * 4)
      ||| UInt8.ofNat (channel / 4),
    UInt8.ofNat (channel * 2 ^ 6) ||| UInt8.ofNat (size / 2 ^ 11),
    UInt8.ofNat (size / 8),
    UInt8.ofNat (size * 2 ^ 5) ||| 0x1f,
    0xfc]

/--
The header goes to the room in front of the data.
-/
def CodecState.handleAudioAac (c : CodecState) (pkt : AvPacket) : Handled :=
  if pkt.isSeqHdr ∧ pkt.hasFlvAudioAsc then
    (0, [], { c with aacType := pkt.aacAscType, sampleRate := pkt.sampleRate, channel := pkt.channel })
  else if c.aacType = 0 ∨ c.sampleRate = 0 ∨ c.channel = 0 then (0, [], c)
  else
    let adts := makeAdts (getAdtsTypeByAscType pkt.aacAscType) c.sampleRate c.channel.toNat
      pkt.data.length
    (0, [{ pkt.toMediaPacket with data := adts ++ pkt.data }], c)

end Audio

section Handlers

def CodecState.handleVideo (u : Unwritten) (c : CodecState) (pkt : AvPacket) : Option Handled :=
  if pkt.codecType = .h264 then c.handleH264 u pkt.toMediaPacket
  else if pkt.codecType = .vp8 then some (0, [pkt.toMediaPacket], c)
  else if pkt.codecType = .h265 then c.handleH265 pkt.toMediaPacket
  else some (0, [], c)

def CodecState.handleAudio (c : CodecState) (pkt : AvPacket) : Handled :=
  if pkt.codecType = .aac then c.handleAudioAac pkt
  else if pkt.codecType = .opus then (0, [pkt.toMediaPacket], c)
  else (-1, [], c)

end Handlers

namespace MpegtsMuxState

variable (u : Unwritten)

/--
The packets one after the other, as `TsOutput` gets them.
-/
def writeFrames (m : MpegtsMuxState) : List MediaPacket → Option (List (List UInt8) × MpegtsMuxState)
  | [] => some ([], m)
  | frame :: frames => do
    let (packets, mux) ← m.toMpegtsMux.writePes u frame
    let (out, m) ← { m with toMpegtsMux := mux }.writeFrames frames
    pure (packets.map (·.bytes) ++ out, m)

def setVideoCodec (m : MpegtsMuxState) (codecType : MediaCodecType) : MpegtsMuxState :=
  { m with videoCodecType := codecType }

def setAudioCodec (m : MpegtsMuxState) (codecType : MediaCodecType) : MpegtsMuxState :=
  { m with audioCodecType := codecType }

def handlePacket (m : MpegtsMuxState) (pkt : AvPacket) : Option (List (List UInt8) × MpegtsMuxState) :=
  match pkt.avType with
  | .video => do
    let (_, frames, codec) ← m.codec.handleVideo u pkt
    { m.setVideoCodec pkt.codecType with codec }.writeFrames u frames
  | .audio =>
    let (_, frames, codec) := m.codec.handleAudio pkt
    { m.setAudioCodec pkt.codecType with codec }.writeFrames u frames
  | _ => some ([], m)

def handlePackets (m : MpegtsMuxState) : List AvPacket → Option (List (List UInt8) × MpegtsMuxState)
  | [] => some ([], m)
  | pkt :: pkts => do
    let (out, m) ← m.handlePacket u pkt
    let (out', m) ← m.handlePackets pkts
    pure (out ++ out', m)

/--
A packet waits until there was one of each kind, or until there are too many.
-/
def Waits (m : MpegtsMuxState) : Prop :=
  ¬m.ready ∧ (¬m.videoReady ∨ ¬m.audioReady) ∧ m.waitQueue.length < 30

instance (m : MpegtsMuxState) : Decidable m.Waits := by
  unfold Waits
  infer_instance

def wait (m : MpegtsMuxState) (pkt : AvPacket) : MpegtsMuxState :=
  let m :=
    match pkt.avType with
    | .video => { m.setVideoCodec pkt.codecType with videoReady := true }
    | .audio => { m.setAudioCodec pkt.codecType with audioReady := true }
    | _ => m
  { m with waitQueue := m.waitQueue ++ [pkt] }

def TablesDue (m : MpegtsMuxState) (pkt : AvPacket) : Prop :=
  m.lastPatpmtTs < 0 ∨ patpmtInterval ≤ pkt.dts - m.lastPatpmtTs

instance (m : MpegtsMuxState) (pkt : AvPacket) : Decidable (m.TablesDue pkt) := by
  unfold TablesDue
  infer_instance

variable (mpegCrc32 : List UInt8 → Nat)

/--
Both tables come from the stored packets, which differ in nothing but their sections.
-/
def tables (m : MpegtsMuxState) : List (List UInt8) :=
  [m.toMpegtsMux.generatePat mpegCrc32, m.toMpegtsMux.generatePmt mpegCrc32]

/--
The checksum stays in the stored packet.
-/
def tablesWritten (m : MpegtsMuxState) (dts : Int) : MpegtsMuxState :=
  { m with lastPatpmtTs := dts, patCrc := m.toMpegtsMux.patChecksum mpegCrc32 }

def inputPacket (m : MpegtsMuxState) (pkt : AvPacket) : Option (List (List UInt8) × MpegtsMuxState) :=
  if pkt.avType = .metadata then some ([], m)
  else if m.Waits then some ([], m.wait pkt)
  else do
    let m := { m with ready := true }
    let tables := if m.TablesDue pkt then m.tables mpegCrc32 else []
    let m := if m.TablesDue pkt then m.tablesWritten mpegCrc32 pkt.dts else m
    let (out, m) ← { m with waitQueue := [] }.handlePackets u (m.waitQueue ++ [pkt])
    pure (tables ++ out, m)

/--
A run, each packet with what its writes find in the memory.
-/
def inputPackets (m : MpegtsMuxState)
    : List (Unwritten × AvPacket) → Option (List (List UInt8) × MpegtsMuxState)
  | [] => some ([], m)
  | (u, pkt) :: pkts => do
    let (out, m) ← m.inputPacket u mpegCrc32 pkt
    let (out', m) ← m.inputPackets pkts
    pure (out ++ out', m)

end MpegtsMuxState

end MpegTs
