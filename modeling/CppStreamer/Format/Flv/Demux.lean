import CppStreamer.Basic.Incremental
import CppStreamer.Format.Amf.Bounds
import CppStreamer.Format.Flv.Mux

/-!
This module contains the model of `FlvDemuxer`. Its buffer is the queue of the bytes received and not consumed
yet.
-/

open ByteStream

namespace Flv

open Incremental Scan

/--
In front of each `return -1` an error is reported.
-/
inductive FlvRet where
  | ok
  | needMore
  | error (value : String)
  deriving DecidableEq, Repr

/--
Why `HandlePacket` does not come back: it reads behind the tag and the size that follows it, or an assertion
fails.
-/
inductive FlvFault where
  | overrun
  | abort
  deriving DecidableEq, Repr

/--
What the sinkers get, and what is reported as an error.
-/
inductive FlvEvent where
  | packet (pkt : MediaPacket)
  | error (value : String)
  deriving DecidableEq, Repr

/--
The output of the demuxer: events, or those that a loop without an end repeats. It is not defined where the
code makes use of bytes that may not have arrived, or of a size that does not fit.
-/
inductive FlvOutput where
  | event (event : FlvEvent)
  | forever (events : List FlvEvent)
  | undefined
  deriving DecidableEq, Repr

def FlvOutput.packet? : FlvOutput → Option MediaPacket
  | event (.packet pkt) => some pkt
  | _ => none

def FlvRet.reports : FlvRet → List FlvEvent
  | error value => [.error value]
  | _ => []

/--
A byte as `%02x` prints it.
-/
def hex02 (b : UInt8) : String := String.ofList [(b.toNat / 16).digitChar, (b.toNat % 16).digitChar]

structure FlvDemuxer where
  buffer : List UInt8 := []
  hasVideo : Bool := false
  hasAudio : Bool := false
  flvHeaderReady : Bool := false
  tagHeaderReady : Bool := false
  tagType : UInt8 := 0
  tagDataSize : Nat := 0
  tagTimestamp : Nat := 0
  deriving DecidableEq, Repr

section Nalus

def kMaxLen : Nat := 10 * 1000 * 1000

/--
The loop of `Avcc2Nalus`, with the bytes that have arrived. `none` if it reads behind them.
-/
def avccNalus (dataLen : Int) (data : List UInt8) : Option (List (List UInt8)) :=
  if dataLen ≤ 0 then some []
  else if data.length < 4 then none
  else
    let naluLen := read4Bytes data
    if kMaxLen < naluLen then some []
    else if data.length - 4 < naluLen then none
    else do
      let nalus ← avccNalus (dataLen - 4 - naluLen) (data.drop (4 + naluLen))
      pure ((H264.startCode ++ (data.drop 4).take naluLen) :: nalus)
termination_by data.length
decreasing_by
  rw [List.length_drop]
  omega

def avcc2Nalus (len : Nat) (data : List UInt8) : Option (List (List UInt8)) :=
  if len < 4 then some [] else avccNalus len data

/--
The packet of a NALU behind its start code.
-/
def naluPacket (output : MediaPacket) (nalu : List UInt8) : Option MediaPacket :=
  (H264.getNaluTypePos nalu).map fun pos =>
    let nalType := H264.nalType (nalu.getD pos 0)
    let isSeq := nalType = H264.naluTypePps ∨ nalType = H264.naluTypeSps
    let isKey := nalType = H264.naluTypeIdr
    { output with
      isSeqHdr := if isKey then false else if isSeq then true else output.isSeqHdr
      isKeyFrame := if isKey then true else if isSeq then false else output.isKeyFrame
      data := nalu }

/--
The PPS and the SPS, which stay empty if the marker bytes are wrong. `none` if the code reads behind the bytes
that have arrived.
-/
def getSpsPpsFromExtraData (extraLen : Nat) (extraData : List UInt8) : Option (List UInt8 × List UInt8) :=
  if extraLen = 0 then some ([], [])
  else if 4 < extraLen ∧ (extraData.getD 4 0 ≠ 0xff ∨ extraData.getD 5 0 ≠ 0xe1) then some ([], [])
  else
    let body := extraData.drop 6
    let spsLen := read2Bytes body
    let sps := (body.drop 2).take spsLen
    let body := (body.drop 2).drop (spsLen + 1)
    let ppsLen := read2Bytes body
    let pps := (body.drop 2).take ppsLen
    if sps.length = spsLen ∧ 2 ≤ body.length ∧ pps.length = ppsLen then some (pps, sps) else none

end Nalus

namespace FlvDemuxer

def feed (d : FlvDemuxer) (data : List UInt8) : FlvDemuxer := { d with buffer := d.buffer ++ data }

def readFlvHeader (d : FlvDemuxer) : FlvRet × FlvDemuxer :=
  if d.flvHeaderReady then (.ok, d)
  else if d.buffer.length < headerLen + tagPreSize then (.needMore, d)
  else
    let p := d.buffer.take (headerLen + tagPreSize)
    if p.take 3 = [0x46, 0x4c, 0x56] then
      let flag := p.getD 4 0
      let d :=
        { d with
          hasVideo := d.hasVideo || (flag &&& 0x01 = 0x01)
          hasAudio := d.hasAudio || (flag &&& 0x04 = 0x04) }
      if (p.drop 5).take 4 = [0, 0, 0, 9] then
        (.ok, { d with buffer := d.buffer.drop (headerLen + tagPreSize), flvHeaderReady := true })
      else (.error "flv pretag size error", d)
    else (.error "flv header tag must be \"FLV\"", d)

def readTagHeader (d : FlvDemuxer) : FlvRet × FlvDemuxer :=
  if d.tagHeaderReady then (.ok, d)
  else if d.buffer.length < tagHeaderLen then (.needMore, d)
  else
    let p := d.buffer.take tagHeaderLen
    (.ok,
      { d with
        tagType := p.headD 0
        tagDataSize := read3Bytes (p.drop 1)
        tagTimestamp := read3Bytes (p.drop 4) + (p.getD 7 0).toNat * 2 ^ 24
        tagHeaderReady := true
        buffer := d.buffer.drop tagHeaderLen })

/--
The data of the tag and the size behind it.
-/
def tag (d : FlvDemuxer) : List UInt8 := d.buffer.take (d.tagDataSize + tagPreSize)

def consumeTag (d : FlvDemuxer) : FlvDemuxer :=
  { d with buffer := d.buffer.drop (d.tagDataSize + tagPreSize), tagHeaderReady := false }

/--
What a tag comes to: the return value, whether it is consumed, and the events.
-/
abbrev TagResult := FlvRet × Bool × List FlvEvent

/--
The assertions of `GetAudioInfoByAsc` hold. The data size is a `size_t`, what is left of it an `int`.
-/
def AscAsserted (dataSize : Nat) (data : List UInt8) : Prop :=
  2 ≤ dataSize
    ∧ (read2Bytes data / 2 ^ 11 = 31 → read2Bytes data / 2 % 16 = 0x0f
      → 3 < Int.bmod dataSize (2 ^ 32) - 2)

instance (dataSize : Nat) (data : List UInt8) : Decidable (AscAsserted dataSize data) := by
  unfold AscAsserted
  infer_instance

/--
Whether the data behind the media header is taken for the header of an AAC stream.
-/
def isAscHeader (p : List UInt8) : Bool := p.getD 0 0 &&& 0xf0 = audioAacCodec ∧ p.getD 1 0 = 0x00

/--
The packet with the data behind its media header as it is.
-/
def sinkData (output : MediaPacket) (headerLen tagDataSize : Nat) (p : List UInt8)
    : Except FlvFault (List FlvEvent) :=
  if headerLen < tagDataSize then
    let data := (p.take tagDataSize).drop headerLen
    if isAscHeader p ∧ ¬AscAsserted ((2 ^ 64 - 2 + data.length) % 2 ^ 64) (p.drop 2) then .error .abort
    else .ok [.packet { output with data }]
  else .ok []

def audioCodecType (flags : UInt8) : Option MediaCodecType :=
  if flags &&& 0xf0 = audioAacCodec then some .aac
  else if flags &&& 0xf0 = audioOpusCodec then some .opus
  else if flags &&& 0xf0 = audioMp3Codec then some .mp3
  else none

def handleAudio (tagDataSize tagTimestamp : Nat) (p : List UInt8) : Except FlvFault TagResult :=
  match audioCodecType (p.getD 0 0) with
  | none => .ok (.error ("does not suport audio codec type:0x" ++ hex02 (p.getD 0 0)), false, [])
  | some codecType =>
    -- the packet is still empty, and the size is that of no data less 2
    if isAscHeader p ∧ ¬AscAsserted (2 ^ 64 - 2) (p.drop 2) then .error .abort
    else do
      let events ← sinkData
        { avType := .audio
          codecType
          fmtType := .raw
          dts := tagTimestamp
          pts := tagTimestamp
          isSeqHdr := p.getD 1 0 = 0x00
          isKeyFrame := p.getD 1 0 ≠ 0x00 } 2 tagDataSize p
      .ok (.ok, true, events)

def videoCodecType (flags : UInt8) : MediaCodecType :=
  if flags &&& 0x0f = videoH264Codec then .h264
  else if flags &&& 0x0f = videoH265Codec then .h265
  else if flags &&& 0x0f = videoVp8Codec then .vp8
  else if flags &&& 0x0f = videoVp9Codec then .vp9
  else .unknown

/--
The size behind the media header of a video tag, which is an `uint32_t`.
-/
def extraLen (tagDataSize : Nat) : Nat := (2 ^ 32 - 5 + tagDataSize) % 2 ^ 32

/--
A sequence header is handed on and not consumed.
-/
def handleVideo (tagDataSize tagTimestamp : Nat) (p : List UInt8) : Except FlvFault TagResult :=
  let codecType := videoCodecType (p.getD 0 0)
  let key := p.getD 0 0 &&& 0xf0 = videoKeyFlag
  let tsDelta := read3Bytes (p.drop 2)
  let output : MediaPacket :=
    { avType := .video
      codecType
      fmtType := .raw
      dts := tagTimestamp
      pts := (tagTimestamp + tsDelta) % 2 ^ 32
      isSeqHdr := key ∧ p.getD 1 0 = 0x00
      isKeyFrame := key ∧ p.getD 1 0 = 0x01 }
  if output.isSeqHdr ∧ codecType = .h264 ∧ extraLen tagDataSize < 512 then
    match getSpsPpsFromExtraData (extraLen tagDataSize) (p.drop 5) with
    | none => .error .overrun
    | some (pps, sps) =>
      .ok (.ok, false,
        [.packet { output with isKeyFrame := false, data := H264.startCode ++ sps },
         .packet { output with isKeyFrame := false, data := H264.startCode ++ pps }])
  else if output.isSeqHdr ∧ codecType = .h265 then
    if 5 ≤ tagDataSize then
      .ok (.ok, false, [.packet { output with fmtType := .flv, data := (p.take tagDataSize).drop 5 }])
    else .error .overrun
  else if codecType = .h264 ∨ codecType = .h265 then
    if 5 < tagDataSize then
      match avcc2Nalus (tagDataSize - 5) (p.drop 5) with
      | none => .error .overrun
      | some nalus => .ok (.ok, true, (nalus.filterMap (naluPacket output)).map .packet)
    else .ok (.ok, true, [])
  else do
    let events ← sinkData output 5 tagDataSize p
    .ok (.ok, true,
      if codecType = .unknown then
        .error ("does not suport video codec type:0x" ++ hex02 (p.getD 0 0)) :: events
      else events)

/--
The loop of `DecodeMetaData` behind the first item.
-/
def decodeMetaItems (mem : Nat → UInt8) (depth : Nat) : Nat → Scanner Unit
  | 0 => .stop
  | fuel + 1 => do
    if 1 < (← .left) then
      let (ok, _) ← Amf.decodeAt mem depth
      if ok then decodeMetaItems mem depth fuel else return ()
    else return ()

/--
Only the type of the first item counts.
-/
def decodeMetaData (mem : Nat → UInt8) (fuel : Nat) : Scanner Bool := do
  let (ok, item) ← Amf.decodeAt mem fuel
  if ok then
    match item with
    | .string _ =>
      decodeMetaItems mem fuel fuel
      return true
    | _ => return false
  else return true

/--
Every byte that is read is one of the first `total` ones.
-/
def readsInside (total : Nat) (log : List Access) : Bool :=
  log.all fun
    | .read offset len => offset + len ≤ total
    | .move _ => true

def metaScan (tagDataSize : Nat) (p : List UInt8) : List Access × Option (Bool × Cursor) :=
  decodeMetaData (p.getD · 0) (2 * p.length + 2) ⟨0, tagDataSize⟩

def handleMeta (tagDataSize tagTimestamp : Nat) (p : List UInt8) : Except FlvFault TagResult :=
  if readsInside p.length (metaScan tagDataSize p).1 then
    match (metaScan tagDataSize p).2 with
    | none => .error .abort
    | some (false, _) => .ok (.ok, true, [.error "decode metadata error"])
    | some (true, _) => do
      let events ← sinkData
        { avType := .metadata, fmtType := .raw, dts := tagTimestamp, pts := tagTimestamp } 0 tagDataSize p
      .ok (.ok, true, events)
  else .error .overrun

def handleTag (d : FlvDemuxer) : Except FlvFault TagResult :=
  if d.tagType = tagAudio then handleAudio d.tagDataSize d.tagTimestamp d.tag
  else if d.tagType = tagVideo then handleVideo d.tagDataSize d.tagTimestamp d.tag
  else if d.tagType = tagTypeMeta then handleMeta d.tagDataSize d.tagTimestamp d.tag
  else .ok (.ok, true, [])

/--
The FLV header and the header of a tag, as far as they have not been read yet.
-/
def readHeaders (d : FlvDemuxer) : FlvRet × FlvDemuxer :=
  match d.readFlvHeader with
  | (.ok, d) =>
    match d.readTagHeader with
    | (.ok, d) => if d.buffer.length < d.tagDataSize + tagPreSize then (.needMore, d) else (.ok, d)
    | (ret, d) => (ret, d)
  | (ret, d) => (ret, d)

/--
What `HandlePacket` returns, and what it hands on and reports.
-/
def handlePacket (d : FlvDemuxer) : Except FlvFault (FlvRet × FlvDemuxer × List FlvEvent) :=
  match d.readHeaders with
  | (.ok, d) =>
    d.handleTag.map fun (ret, consumed, events) =>
      (ret, if consumed then d.consumeTag else d, ret.reports ++ events)
  | (ret, d) => .ok (ret, d, ret.reports)

/--
One turn of the loop of `InputPacket`, which does not end on a tag that is not consumed.
-/
def step (d : FlvDemuxer) : Step FlvDemuxer FlvOutput :=
  match d.handlePacket with
  | .error .overrun => .fail [.undefined]
  | .error .abort => .fail []
  | .ok (.needMore, d', _) => .stall d'
  | .ok (.error _, _, events) => .fail (events.map .event)
  | .ok (.ok, d', events) =>
    if d'.tagHeaderReady then .fail [.forever events] else .next d' (events.map .event)

/--
What `AppendData` takes at most: it adds 10 KiB to the size twice, in an `int`.
-/
def maxBufferLen : Nat := 2 ^ 31 - 1 - 2 * (10 * 1024)

/--
The loop of `InputPacket`.
-/
def handlePackets : Nat → FlvDemuxer → Result FlvDemuxer FlvOutput
  | 0, d => ([], some d)
  | fuel + 1, d =>
    match d.handlePacket with
    | .error .overrun => ([.undefined], none)
    | .error .abort => ([], none)
    | .ok (.ok, d', events) =>
      if d'.tagHeaderReady then ([.forever events], none)
      else Result.andThen (events.map .event, some d') (handlePackets fuel)
    | .ok (_, d', events) => (events.map .event, some d')

/--
A tag takes at least four bytes. After an error the demuxer comes back in the state that led to it.
-/
def inputPacket (d : FlvDemuxer) (data : List UInt8) : Result FlvDemuxer FlvOutput :=
  if maxBufferLen < d.buffer.length + data.length then ([.undefined], none)
  else handlePackets (d.buffer.length + data.length + 1) (d.feed data)

section Feed

variable {d d' : FlvDemuxer} {ret : FlvRet} {events : List FlvEvent}

theorem drop_feed (x : List UInt8) {n : Nat} (h : n ≤ d.buffer.length)
    : (d.feed x).buffer.drop n = d.buffer.drop n ++ x := List.drop_append_of_le_length h

theorem take_feed (x : List UInt8) {n : Nat} (h : n ≤ d.buffer.length)
    : (d.feed x).buffer.take n = d.buffer.take n := List.take_append_of_le_length h

theorem length_feed (x : List UInt8) : (d.feed x).buffer.length = d.buffer.length + x.length :=
  List.length_append

theorem readFlvHeader_feed (x : List UInt8) (h : d.readFlvHeader = (ret, d')) (hret : ret ≠ .needMore)
    : (d.feed x).readFlvHeader = (ret, d'.feed x) := by
  unfold readFlvHeader at h ⊢
  change (if d.flvHeaderReady then _ else _) = _
  by_cases hflv : d.flvHeaderReady
  . rw [if_pos hflv] at h ⊢
    cases h
    rfl
  . rw [if_neg hflv] at h ⊢
    by_cases hlen : d.buffer.length < headerLen + tagPreSize
    . rw [if_pos hlen] at h
      cases h
      exact absurd rfl hret
    . have hle : headerLen + tagPreSize ≤ d.buffer.length := Nat.le_of_not_lt hlen
      rw [if_neg hlen] at h
      rw [length_feed, if_neg (by omega), take_feed x hle]
      change (if List.take 3 _ = _ then _ else _) = _
      simp only at h ⊢
      rw [drop_feed x hle]
      split at h
      . next htag =>
        rw [if_pos htag]
        split at h
        . next hsize =>
          rw [if_pos hsize]
          cases h
          rfl
        . next hsize =>
          rw [if_neg hsize]
          cases h
          rfl
      . next htag =>
        rw [if_neg htag]
        cases h
        rfl

theorem readFlvHeader_needMore (h : d.readFlvHeader = (.needMore, d')) : d' = d := by
  unfold readFlvHeader at h
  split at h
  . cases h
  . split at h
    . cases h
      rfl
    . simp only at h
      split at h
      . split at h
        all_goals cases h
      . cases h

theorem readTagHeader_feed (x : List UInt8) (h : d.readTagHeader = (ret, d')) (hret : ret ≠ .needMore)
    : (d.feed x).readTagHeader = (ret, d'.feed x) := by
  unfold readTagHeader at h ⊢
  change (if d.tagHeaderReady then _ else _) = _
  by_cases hready : d.tagHeaderReady
  . rw [if_pos hready] at h ⊢
    cases h
    rfl
  . rw [if_neg hready] at h ⊢
    by_cases hlen : d.buffer.length < tagHeaderLen
    . rw [if_pos hlen] at h
      cases h
      exact absurd rfl hret
    . have hle : tagHeaderLen ≤ d.buffer.length := Nat.le_of_not_lt hlen
      rw [if_neg hlen] at h
      cases h
      rw [length_feed, if_neg (by omega), take_feed x hle, drop_feed x hle]
      rfl

theorem readTagHeader_needMore (h : d.readTagHeader = (.needMore, d')) : d' = d := by
  unfold readTagHeader at h
  split at h
  . cases h
  . split at h
    . cases h
      rfl
    . cases h

theorem handleTag_feed (x : List UInt8) (h : d.tagDataSize + tagPreSize ≤ d.buffer.length)
    : (d.feed x).handleTag = d.handleTag := by
  have htag : (d.feed x).tag = d.tag := take_feed x h
  unfold handleTag
  rw [htag]
  rfl

theorem consumeTag_feed (x : List UInt8) (h : d.tagDataSize + tagPreSize ≤ d.buffer.length)
    : (d.feed x).consumeTag = d.consumeTag.feed x := by
  have hdrop := drop_feed x h
  unfold consumeTag
  change { d.feed x with buffer := (d.feed x).buffer.drop (d.tagDataSize + tagPreSize), tagHeaderReady := false }
    = _
  rw [hdrop]
  rfl

theorem sinkData_map_ret {output : MediaPacket} {headerLen tagDataSize : Nat} {p : List UInt8}
    {f : List FlvEvent → List FlvEvent} {consumed : Bool}
    (h : (do
        let events ← sinkData output headerLen tagDataSize p
        .ok (FlvRet.ok, true, f events)) = Except.ok (ret, consumed, events)) : ret = .ok := by
  cases hsink : sinkData output headerLen tagDataSize p with
  | error fault =>
    rw [hsink] at h
    cases h
  | ok events =>
    rw [hsink] at h
    cases h
    rfl

theorem ret_of_ok {ret' : FlvRet} {rest rest' : Bool × List FlvEvent}
    (h : (Except.ok (ret', rest') : Except FlvFault TagResult) = .ok (ret, rest)) : ret = ret' := by
  cases h
  rfl

theorem handleVideo_ret {tagDataSize tagTimestamp : Nat} {p : List UInt8} {consumed : Bool}
    (h : handleVideo tagDataSize tagTimestamp p = .ok (ret, consumed, events)) : ret = .ok := by
  unfold handleVideo at h
  simp only at h
  split at h
  . cases hsps : getSpsPpsFromExtraData (extraLen tagDataSize) (p.drop 5) with
    | none =>
      rw [hsps] at h
      cases h
    | some parameterSets =>
      rw [hsps] at h
      exact ret_of_ok h
  . split at h
    . split at h
      . exact ret_of_ok h
      . cases h
    . split at h
      . split at h
        . cases hnalus : avcc2Nalus (tagDataSize - 5) (p.drop 5) with
          | none =>
            rw [hnalus] at h
            cases h
          | some nalus =>
            rw [hnalus] at h
            exact ret_of_ok h
        . exact ret_of_ok h
      . exact sinkData_map_ret h

theorem handleMeta_ret {tagDataSize tagTimestamp : Nat} {p : List UInt8} {consumed : Bool}
    (h : handleMeta tagDataSize tagTimestamp p = .ok (ret, consumed, events)) : ret = .ok := by
  unfold handleMeta at h
  split at h
  . split at h
    . cases h
    . cases h
      rfl
    . exact sinkData_map_ret (f := id) h
  . cases h

theorem handleTag_ok {consumed : Bool} (h : d.handleTag = .ok (ret, consumed, events))
    : ret = .ok ∨ d.tagType = tagAudio ∧ audioCodecType (d.tag.getD 0 0) = none ∧ consumed = false ∧ events = []
        ∧ ∃ value, ret = .error value := by
  unfold handleTag at h
  split at h
  . next htype =>
    unfold handleAudio at h
    split at h
    . next hcodec =>
      cases h
      exact Or.inr ⟨htype, hcodec, rfl, rfl, _, rfl⟩
    . split at h
      . cases h
      . exact Or.inl (sinkData_map_ret (f := id) h)
  . split at h
    . exact Or.inl (handleVideo_ret h)
    . split at h
      . exact Or.inl (handleMeta_ret h)
      . cases h
        exact Or.inl rfl

theorem readFlvHeader_ready (h : d.readFlvHeader = (.ok, d')) : d'.flvHeaderReady = true := by
  unfold readFlvHeader at h
  split at h
  . next hready =>
    cases h
    exact hready
  . split at h
    . cases h
    . simp only at h
      split at h
      . split at h
        all_goals cases h
        rfl
      . cases h

theorem readTagHeader_ready (h : d.readTagHeader = (.ok, d'))
    : d'.tagHeaderReady = true ∧ d'.flvHeaderReady = d.flvHeaderReady := by
  unfold readTagHeader at h
  split at h
  . next hready =>
    cases h
    exact ⟨hready, rfl⟩
  . split at h
    . cases h
    . cases h
      exact ⟨rfl, rfl⟩

theorem readHeaders_ok (h : d.readHeaders = (.ok, d'))
    : d'.tagDataSize + tagPreSize ≤ d'.buffer.length ∧ d'.tagHeaderReady = true := by
  unfold readHeaders at h
  cases hflv : d.readFlvHeader with
  | mk ret1 d1 =>
    rw [hflv] at h
    cases ret1 with
    | needMore => cases h
    | error => cases h
    | ok =>
      simp only at h
      cases htag : d1.readTagHeader with
      | mk ret2 d2 =>
        rw [htag] at h
        cases ret2 with
        | needMore => cases h
        | error => cases h
        | ok =>
          simp only at h
          split at h
          . cases h
          . next hlen =>
            cases h
            exact ⟨Nat.le_of_not_lt hlen, (readTagHeader_ready htag).left⟩

theorem readFlvHeader_length (h : d.readFlvHeader = (ret, d')) : d'.buffer.length ≤ d.buffer.length := by
  unfold readFlvHeader at h
  split at h
  . cases h
    exact Nat.le_refl _
  . split at h
    . cases h
      exact Nat.le_refl _
    . simp only at h
      split at h
      . split at h
        . cases h
          rw [List.length_drop]
          exact Nat.sub_le _ _
        . cases h
          exact Nat.le_refl _
      . cases h
        exact Nat.le_refl _

theorem readTagHeader_length (h : d.readTagHeader = (ret, d')) : d'.buffer.length ≤ d.buffer.length := by
  unfold readTagHeader at h
  split at h
  . cases h
    exact Nat.le_refl _
  . split at h
    . cases h
      exact Nat.le_refl _
    . cases h
      rw [List.length_drop]
      exact Nat.sub_le _ _

theorem readHeaders_length (h : d.readHeaders = (ret, d')) : d'.buffer.length ≤ d.buffer.length := by
  unfold readHeaders at h
  cases hflv : d.readFlvHeader with
  | mk ret1 d1 =>
    have hlen := readFlvHeader_length hflv
    rw [hflv] at h
    cases ret1 with
    | needMore | error =>
      cases h
      exact hlen
    | ok =>
      simp only at h
      cases htag : d1.readTagHeader with
      | mk ret2 d2 =>
        have hlen' := readTagHeader_length htag
        rw [htag] at h
        cases ret2 with
        | needMore | error =>
          cases h
          omega
        | ok =>
          simp only at h
          split at h
          all_goals
            cases h
            omega

theorem readHeaders_feed (x : List UInt8) (h : d.readHeaders = (ret, d')) (hret : ret ≠ .needMore)
    : (d.feed x).readHeaders = (ret, d'.feed x) := by
  unfold readHeaders at h ⊢
  cases hflv : d.readFlvHeader with
  | mk ret1 d1 =>
    rw [hflv] at h
    cases ret1 with
    | needMore =>
      cases h
      exact absurd rfl hret
    | error =>
      cases h
      rw [readFlvHeader_feed x hflv FlvRet.noConfusion]
    | ok =>
      rw [readFlvHeader_feed x hflv FlvRet.noConfusion]
      simp only at h ⊢
      cases htag : d1.readTagHeader with
      | mk ret2 d2 =>
        rw [htag] at h
        cases ret2 with
        | needMore =>
          cases h
          exact absurd rfl hret
        | error =>
          cases h
          rw [readTagHeader_feed x htag FlvRet.noConfusion]
        | ok =>
          rw [readTagHeader_feed x htag FlvRet.noConfusion]
          simp only at h ⊢
          split at h
          . cases h
            exact absurd rfl hret
          . next hlen =>
            cases h
            rw [length_feed, if_neg]
            change ¬d'.buffer.length + x.length < d'.tagDataSize + tagPreSize
            omega

theorem readHeaders_ready (h : d.flvHeaderReady = true) (h' : d.tagHeaderReady = true)
    : d.readHeaders
        = if d.buffer.length < d.tagDataSize + tagPreSize then (.needMore, d) else (.ok, d) := by
  rw [readHeaders, readFlvHeader, if_pos h]
  simp only
  rw [readTagHeader, if_pos h']

theorem readHeaders_needMore (x : List UInt8) (h : d.readHeaders = (.needMore, d'))
    : (d'.feed x).readHeaders = (d.feed x).readHeaders := by
  unfold readHeaders at h
  cases hflv : d.readFlvHeader with
  | mk ret1 d1 =>
    rw [hflv] at h
    cases ret1 with
    | error => cases h
    | needMore =>
      cases h
      rw [readFlvHeader_needMore hflv]
    | ok =>
      simp only at h
      have hready := readFlvHeader_ready hflv
      have hfeed : (d.feed x).readHeaders = (d1.feed x).readHeaders := by
        have hready' : (d1.feed x).readFlvHeader = (.ok, d1.feed x) := by
          rw [readFlvHeader, if_pos]
          exact hready
        rw [readHeaders, readFlvHeader_feed x hflv FlvRet.noConfusion, readHeaders, hready']
      cases htag : d1.readTagHeader with
      | mk ret2 d2 =>
        rw [htag] at h
        cases ret2 with
        | error => cases h
        | needMore =>
          cases h
          rw [readTagHeader_needMore htag, hfeed]
        | ok =>
          simp only at h
          obtain ⟨htagReady, hsame⟩ := readTagHeader_ready htag
          split at h
          . cases h
            have hready' : (d1.feed x).readFlvHeader = (.ok, d1.feed x) := by
              rw [readFlvHeader, if_pos]
              exact hready
            have hboth : (d'.feed x).readHeaders = _ :=
              readHeaders_ready (d := d'.feed x) (hsame.trans hready) htagReady
            rw [hfeed, hboth, readHeaders, hready']
            simp only
            rw [readTagHeader_feed x htag FlvRet.noConfusion]
          . cases h

theorem handlePacket_of_headers (h : d.readHeaders = (ret, d')) (hret : ret ≠ .ok)
    : d.handlePacket = .ok (ret, d', ret.reports) := by
  unfold handlePacket
  rw [h]
  cases ret with
  | ok => exact absurd rfl hret
  | needMore => rfl
  | error value => rfl

theorem handlePacket_of_tag (h : d.readHeaders = (.ok, d'))
    : d.handlePacket = d'.handleTag.map fun (ret, consumed, events) =>
        (ret, if consumed then d'.consumeTag else d', ret.reports ++ events) := by
  unfold handlePacket
  rw [h]

theorem handlePacket_feed (x : List UInt8) {result : Except FlvFault (FlvRet × FlvDemuxer × List FlvEvent)}
    (h : d.handlePacket = result) (hret : ∀ d' events, result ≠ .ok (.needMore, d', events))
    : (d.feed x).handlePacket
        = result.map fun (ret, d', events) => (ret, d'.feed x, events) := by
  subst h
  cases hread : d.readHeaders with
  | mk ret1 d1 =>
    by_cases hok : ret1 = .ok
    . subst hok
      have hlen := (readHeaders_ok hread).left
      rw [handlePacket_of_tag (readHeaders_feed x hread FlvRet.noConfusion), handlePacket_of_tag hread,
        handleTag_feed x hlen, consumeTag_feed x hlen]
      cases d1.handleTag with
      | error fault => rfl
      | ok result =>
        obtain ⟨ret, consumed, events⟩ := result
        cases consumed with
        | true => rfl
        | false => rfl
    . have hheaders := handlePacket_of_headers hread hok
      have hmore : ret1 ≠ .needMore := by
        rintro rfl
        exact hret _ _ hheaders
      rw [handlePacket_of_headers (readHeaders_feed x hread hmore) hok, hheaders]
      rfl

theorem handlePacket_needMore (x : List UInt8) (h : d.handlePacket = .ok (.needMore, d', events))
    : (d'.feed x).handlePacket = (d.feed x).handlePacket := by
  cases hread : d.readHeaders with
  | mk ret1 d1 =>
    by_cases hok : ret1 = .ok
    . subst hok
      rw [handlePacket_of_tag hread] at h
      cases htag : d1.handleTag with
      | error fault =>
        rw [htag] at h
        cases h
      | ok result =>
        rw [htag] at h
        obtain ⟨ret, consumed, events'⟩ := result
        cases h
        rcases handleTag_ok htag with hret | ⟨-, -, -, -, value, hret⟩
        . cases hret
        . cases hret
    . rw [handlePacket_of_headers hread hok] at h
      cases h
      unfold handlePacket
      rw [readHeaders_needMore x hread]

theorem handlePacket_length (h : d.handlePacket = .ok (ret, d', events))
    : d'.buffer.length ≤ d.buffer.length
        ∧ (ret = .ok → d'.tagHeaderReady = false → d'.buffer.length < d.buffer.length) := by
  cases hread : d.readHeaders with
  | mk ret1 d1 =>
    have hlen := readHeaders_length hread
    by_cases hok : ret1 = .ok
    . subst hok
      obtain ⟨hfull, htagReady⟩ := readHeaders_ok hread
      rw [handlePacket_of_tag hread] at h
      cases htag : d1.handleTag with
      | error fault =>
        rw [htag] at h
        cases h
      | ok result =>
        rw [htag] at h
        obtain ⟨ret, consumed, events'⟩ := result
        cases consumed with
        | false =>
          cases h
          refine ⟨hlen, ?_⟩
          intro _ hready
          exact absurd (htagReady.symm.trans hready) Bool.noConfusion
        | true =>
          cases h
          have hlt : (d1.buffer.drop (d1.tagDataSize + tagPreSize)).length < d.buffer.length := by
            rw [List.length_drop]
            simp only [tagPreSize] at hfull ⊢
            omega
          exact ⟨Nat.le_of_lt hlt, fun _ _ => hlt⟩
    . rw [handlePacket_of_headers hread hok] at h
      cases h
      exact ⟨hlen, fun hret => absurd hret hok⟩

end Feed

def eventReader : Reader FlvDemuxer UInt8 FlvOutput where
  feed := feed
  step := step
  rank d := d.buffer.length
  fits _ := True
  feed_nil d := by simp [feed]
  feed_append d x y := by simp [feed]
  rank_lt d d' out h := by
    unfold step at h
    split at h
    . cases h
    . cases h
    . cases h
    . cases h
    . next hhandle =>
      split at h
      . cases h
      . next hready =>
        cases h
        exact (handlePacket_length hhandle).right rfl (Bool.eq_false_iff.mpr hready)
  step_stall d d' x _ h := by
    unfold step at h ⊢
    split at h
    . cases h
    . cases h
    . next hhandle =>
      cases h
      rw [handlePacket_needMore x hhandle]
    . cases h
    . split at h
      all_goals cases h
  step_next d d' out x _ h := by
    unfold step at h ⊢
    split at h
    . cases h
    . cases h
    . cases h
    . cases h
    . next hhandle =>
      split at h
      . cases h
      . next hready =>
        cases h
        rw [handlePacket_feed x hhandle (by rintro _ _ ⟨⟩)]
        exact if_neg hready
  step_fail d out x _ h := by
    unfold step at h ⊢
    split at h
    . next hhandle =>
      cases h
      rw [handlePacket_feed x hhandle (by rintro _ _ ⟨⟩)]
      rfl
    . next hhandle =>
      cases h
      rw [handlePacket_feed x hhandle (by rintro _ _ ⟨⟩)]
      rfl
    . cases h
    . next hhandle =>
      cases h
      rw [handlePacket_feed x hhandle (by rintro _ _ ⟨⟩)]
      rfl
    . next hhandle =>
      split at h
      . next hready =>
        cases h
        rw [handlePacket_feed x hhandle (by rintro _ _ ⟨⟩)]
        exact if_pos hready
      . cases h
  fits_of_feed _ _ _ := trivial
  fits_stall _ _ _ _ _ := Iff.rfl
  fits_next _ _ _ _ _ _ := trivial
  fits_fail _ _ _ _ _ := trivial

/--
What the sinkers get.
-/
def reader : Reader FlvDemuxer UInt8 MediaPacket := eventReader.filterMap FlvOutput.packet?

end FlvDemuxer

end Flv
