import CppStreamer.Format.Flv.MetaScan
import CppStreamer.Format.Flv.Progress
import CppStreamer.Format.ParameterSets

/-!
This module contains what `HandlePacket` and the parsers of its headers rely on while they handle a tag, and the tags
in which they read only the data of the tag, fail no assertion, and pass on no length that is longer than what remains.
-/

open ByteStream Checked Scan

namespace Flv

/--
A range of the tag that is read, a length that is passed on with a pointer into the tag, an assertion, a byte of
a NALU that has been copied out of the tag, and what the decoder of AMF does. A length is an unsigned number, so that
a negative one is a large one.
-/
inductive TagCheck where
  | read (offset len : Nat)
  | pass (offset len : Nat)
  | assert (holds : Bool)
  | copied (pos len : Nat)
  | scan (access : Access)

/--
The check holds in a tag with a number of bytes of data.
-/
def TagCheck.Holds (size : Nat) : TagCheck → Prop
  | read offset len => offset + len ≤ size
  | pass offset len => offset + len ≤ size
  | assert holds => holds
  | copied pos len => pos < len
  | scan access => access.Within size

section Asc

structure AudioInfo where
  audioType : Nat := 0
  sampleRate : Nat := 0
  channel : Nat := 0
  deriving DecidableEq, Repr

/--
The pointer goes on by one byte behind the first two. What is left of the size is an `int`.
-/
def getAudioInfoByAsc (p : Nat → UInt8) (data dataSize : Nat) (info : AudioInfo) : Checked TagCheck AudioInfo := do
  check (.assert (2 ≤ dataSize))
  check (.read data 2)
  let field := read2Bytes (ParameterSets.readAt p data 2)
  let leftLen := Int.bmod dataSize (2 ^ 32) - 2
  if field / 2 ^ 11 = 31 then
    if field / 2 % 2 ^ 4 = 0x0f then do
      check (.assert (3 < leftLen))
      check (.read (data + 1) 3)
      check (.read (data + 4) 1)
      -- the field has 16 bits, and the last bit of the first one is shifted out
      let last := read3Bytes (ParameterSets.readAt p (data + 1) 3) % 2 ^ 16
      return ⟨field / 2 ^ 5 % 2 ^ 6, last / 2, last % 2 * 2 ^ 3 + (p (data + 4)).toNat / 2 ^ 5⟩
    else do
      check (.read (data + 1) 1)
      return ⟨field / 2 ^ 5 % 2 ^ 6, MpegTs.mpeg4AudioSampleRates.getD (field / 2 % 2 ^ 4) 0,
        field % 2 * 2 ^ 3 + (p (data + 1)).toNat / 2 ^ 5⟩
  else if field / 2 ^ 7 % 2 ^ 4 = 0x0f then do
    check (.read (data + 1) 2)
    let last := read2Bytes (ParameterSets.readAt p (data + 1) 2)
    return ⟨field / 2 ^ 11, field % 2 ^ 7 * 2 ^ 17 + last / 2 % 2 ^ 7, info.channel⟩
  else return ⟨field / 2 ^ 11, MpegTs.mpeg4AudioSampleRates.getD (field / 2 ^ 7 % 2 ^ 4) 0, field / 2 ^ 3 % 2 ^ 4⟩

end Asc

section Parsers

variable (p : Nat → UInt8)

/--
The marker bytes of the record are read one after the other.
-/
def checkMarker (body extraLen : Nat) : Checked TagCheck Unit :=
  if 4 < extraLen then do
    check (.read (body + 4) 1)
    if p (body + 4) = 0xff then check (.read (body + 5) 1) else return ()
  else return ()

def checkSpsPps (body extraLen : Nat) : Checked TagCheck Unit :=
  if extraLen = 0 then return ()
  else do
    checkMarker p body extraLen
    if 4 < extraLen ∧ (p (body + 4) ≠ 0xff ∨ p (body + 5) ≠ 0xe1) then return ()
    else do
      check (.read (body + 6) 2)
      let spsLen := read2Bytes (ParameterSets.readAt p (body + 6) 2)
      check (.pass (body + 8) spsLen)
      check (.read (body + 9 + spsLen) 2)
      let ppsLen := read2Bytes (ParameterSets.readAt p (body + 9 + spsLen) 2)
      check (.pass (body + 11 + spsLen) ppsLen)

/--
The loop of `Avcc2Nalus` with the NALUs that it has copied when it ends.
-/
def checkAvccNalus (pos : Nat) (dataLen : Int) : Checked TagCheck (List (List UInt8)) :=
  if dataLen ≤ 0 then return []
  else do
    check (.read pos 4)
    let naluLen := read4Bytes (ParameterSets.readAt p pos 4)
    if kMaxLen < naluLen then return []
    else do
      check (.pass (pos + 4) naluLen)
      let nalus ← checkAvccNalus (pos + 4 + naluLen) (dataLen - 4 - naluLen)
      return (H264.startCode ++ ParameterSets.readAt p (pos + 4) naluLen) :: nalus
termination_by dataLen.toNat
decreasing_by omega

def checkAvcc2Nalus (pos len : Nat) : Checked TagCheck (List (List UInt8)) :=
  if len < 4 then return [] else checkAvccNalus p pos len

/--
The type of a NALU is the byte behind its start code.
-/
def checkNalu (nalu : List UInt8) : Checked TagCheck Unit :=
  match H264.getNaluTypePos nalu with
  | none => return ()
  | some pos => check (.copied pos nalu.length)

end Parsers

section Tag

open FlvDemuxer

variable (p : Nat → UInt8)

/--
The data behind the media header is handed on as it is. If it is taken for the header of an AAC stream, it is logged
and parsed with the length of the packet less 2.
-/
def checkSink (headerLen tagDataSize : Nat) : Checked TagCheck Unit :=
  if headerLen < tagDataSize then do
    check (.pass headerLen (tagDataSize - headerLen))
    check (.read 0 1)
    if p 0 &&& 0xf0 = audioAacCodec then do
      check (.read 1 1)
      if p 1 = 0x00 then do
        let ascLen := (2 ^ 64 - 2 + (tagDataSize - headerLen)) % 2 ^ 64
        check (.pass 2 ascLen)
        let _ ← getAudioInfoByAsc p 2 ascLen {}
        return ()
      else return ()
    else return ()
  else return ()

/--
When the header of an AAC stream is parsed, the packet is still empty, and its length less 2 is not negative as a
`size_t`.
-/
def checkAudio (tagDataSize : Nat) : Checked TagCheck Unit := do
  check (.read 0 1)
  if audioCodecType (p 0) = none then return ()
  else do
    check (.read 1 1)
    if p 1 = 0x00 ∧ p 0 &&& 0xf0 = audioAacCodec then do
      check (.pass 2 (2 ^ 64 - 2))
      let _ ← getAudioInfoByAsc p 2 (2 ^ 64 - 2) {}
      checkSink p 2 tagDataSize
    else checkSink p 2 tagDataSize

def checkKeyFlag : Checked TagCheck Unit :=
  if p 0 &&& 0xf0 = videoKeyFlag then check (.read 1 1) else return ()

def checkVideo (tagDataSize : Nat) : Checked TagCheck Unit := do
  check (.read 0 1)
  checkKeyFlag p
  check (.read 2 3)
  let isSeqHdr := p 0 &&& 0xf0 = videoKeyFlag ∧ p 1 = 0x00
  let codecType := videoCodecType (p 0)
  if isSeqHdr ∧ codecType = .h264 ∧ extraLen tagDataSize < 512 then do
    check (.pass 5 (extraLen tagDataSize))
    checkSpsPps p 5 (extraLen tagDataSize)
  else if isSeqHdr ∧ codecType = .h265 then
    check (.pass 5 (extraLen tagDataSize))
  else if codecType = .h264 ∨ codecType = .h265 then
    if 5 < tagDataSize then do
      check (.pass 5 (extraLen tagDataSize))
      let nalus ← checkAvcc2Nalus p 5 (extraLen tagDataSize)
      Checked.run (fun _ nalu => checkNalu nalu) () nalus
    else return ()
  else checkSink p 5 tagDataSize

/--
The accesses of a scanner, which has to come back.
-/
def checkScan {α : Type} (m : Scanner α) (c : Cursor) : Checked TagCheck (Option α) := do
  tell ((m c).1.map .scan)
  check (.assert (m c).2.isSome)
  return (m c).2.map Prod.fst

/--
More calls than this are only nested behind the tag.
-/
def checkMeta (tagDataSize : Nat) : Checked TagCheck Unit := do
  let handedOn ← checkScan (scanMetaData p (2 * tagDataSize + 1)) ⟨0, tagDataSize⟩
  if handedOn = some true then checkSink p 0 tagDataSize else return ()

def checkTag (tagType : UInt8) (tagDataSize : Nat) : Checked TagCheck Unit :=
  if tagType = tagAudio then checkAudio p tagDataSize
  else if tagType = tagVideo then checkVideo p tagDataSize
  else if tagType = tagTypeMeta then checkMeta p tagDataSize
  else return ()

end Tag

section Memory

variable {p : Nat → UInt8} {total pos : Nat} {data : List UInt8} {offset len : Nat}

theorem byte_eq (hmem : Holds p total data) (hpos : pos + data.length = total) {i : Nat} (h : i < data.length)
    : p (pos + i) = data.getD i 0 := by
  have hbyte := hmem.bytes i h
  rw [show total - data.length = pos by omega] at hbyte
  rw [hbyte, List.getD_eq_getElem?_getD, List.getElem?_eq_getElem h, Option.getD_some]

theorem readAt_eq (hmem : Holds p total data) (hpos : pos + data.length = total) (h : offset + len ≤ data.length)
    : ParameterSets.readAt p (pos + offset) len = (data.drop offset).take len := by
  have hrest := (hmem.drop offset).take (n := len) (by rw [List.length_drop]; omega)
  rw [← hrest, ParameterSets.readAt, List.length_drop, show total - (data.length - offset) = pos + offset by omega]

theorem read2Bytes_readAt (hmem : Holds p total data) (hpos : pos + data.length = total)
    (h : offset + 2 ≤ data.length)
    : read2Bytes (ParameterSets.readAt p (pos + offset) 2) = read2Bytes (data.drop offset) := by
  rw [readAt_eq hmem hpos h, ← read2Bytes_append _ ((data.drop offset).drop 2), List.take_append_drop]
  rw [List.length_take, List.length_drop]
  omega

theorem read4Bytes_readAt (hmem : Holds p total data) (hpos : pos + data.length = total) (h : 4 ≤ data.length)
    : read4Bytes (ParameterSets.readAt p pos 4) = read4Bytes data := by
  have hread : ParameterSets.readAt p pos 4 = data.take 4 := @readAt_eq p total pos data 0 4 hmem hpos (by omega)
  rw [hread, ← read4Bytes_append _ (data.drop 4), List.take_append_drop]
  rw [List.length_take]
  omega

end Memory

section Sink

/--
The header of an AAC stream, which is looked for at the third byte, is parsed inside the tag.
-/
structure AscFits (headerLen : Nat) (data : List UInt8) : Prop where
  length : headerLen + 4 ≤ data.length
  extended : read2Bytes (data.drop 2) / 2 ^ 11 = 31 → read2Bytes (data.drop 2) / 2 % 2 ^ 4 = 0x0f →
    headerLen + 8 ≤ data.length
  sampleRate : read2Bytes (data.drop 2) / 2 ^ 11 ≠ 31 → read2Bytes (data.drop 2) / 2 ^ 7 % 2 ^ 4 = 0x0f →
    5 ≤ data.length

/--
Data that is handed on as it is, and that may be taken for the header of an AAC stream.
-/
def SinkFits (headerLen : Nat) (data : List UInt8) : Prop :=
  headerLen < data.length → data.getD 0 0 &&& 0xf0 = audioAacCodec →
    2 ≤ data.length ∧ (data.getD 1 0 = 0x00 → AscFits headerLen data)

variable {p : Nat → UInt8} {data : List UInt8}

theorem getAudioInfoByAsc_passes {field : Nat} (size offset dataSize : Nat) (info : AudioInfo)
    (hfield : read2Bytes (ParameterSets.readAt p offset 2) = field)
    : (getAudioInfoByAsc p offset dataSize info).Passes (TagCheck.Holds size)
      ↔ 2 ≤ dataSize ∧ offset + 2 ≤ size
        ∧ (field / 2 ^ 11 = 31 → field / 2 % 2 ^ 4 = 0x0f → 5 < Int.bmod dataSize (2 ^ 32) ∧ offset + 5 ≤ size)
        ∧ (field / 2 ^ 11 ≠ 31 → field / 2 ^ 7 % 2 ^ 4 = 0x0f → offset + 3 ≤ size) := by
  unfold getAudioInfoByAsc
  simp only [passes_bind, passes_check, passes_ite, passes_pure, TagCheck.Holds, decide_eq_true_eq, hfield]
  by_cases hextended : field / 2 ^ 11 = 31
  . simp only [hextended, true_implies, not_true_eq_false, false_implies, ne_eq, and_true]
    omega
  . simp only [hextended, true_implies, not_false_eq_true, false_implies, ne_eq, and_true, true_and, implies_true]

/--
The length that is passed on is that of the packet less 2, which is only that of the data behind the first two bytes if
the packet has no media header.
-/
theorem ascFits_iff (hmem : Holds p data.length data) (hsize : data.length < 2 ^ 24) {headerLen : Nat}
    (hlen : headerLen < data.length) (info : AudioInfo)
    : 2 + (2 ^ 64 - 2 + (data.length - headerLen)) % 2 ^ 64 ≤ data.length
        ∧ (getAudioInfoByAsc p 2 ((2 ^ 64 - 2 + (data.length - headerLen)) % 2 ^ 64) info).Passes
          (TagCheck.Holds data.length)
      ↔ AscFits headerLen data := by
  rw [getAudioInfoByAsc_passes _ _ _ _ rfl]
  by_cases hfour : headerLen + 4 ≤ data.length
  . have hasc : (2 ^ 64 - 2 + (data.length - headerLen)) % 2 ^ 64 = data.length - headerLen - 2 := by omega
    have hint : Int.bmod (data.length - headerLen - 2 : Nat) (2 ^ 32) = (data.length - headerLen - 2 : Nat) :=
      Int.bmod_eq_of_le (by omega) (by omega)
    have hfield : read2Bytes (ParameterSets.readAt p 2 2) = read2Bytes (data.drop 2) :=
      @read2Bytes_readAt p data.length 0 data 2 hmem (Nat.zero_add _) (by omega)
    rw [hasc, hint, hfield]
    constructor
    . rintro ⟨-, -, -, hextended, hrate⟩
      refine ⟨hfour, ?_, ?_⟩
      . intro htype hindex
        have := hextended htype hindex
        omega
      . intro htype hindex
        have := hrate htype hindex
        omega
    . intro h
      refine ⟨by omega, by omega, by omega, ?_, ?_⟩
      . intro htype hindex
        have := h.extended htype hindex
        omega
      . intro htype hindex
        have := h.sampleRate htype hindex
        omega
  . apply iff_of_false
    . rintro ⟨hpass, hassert, -⟩
      omega
    . intro h
      exact hfour h.length

theorem checkSink_passes (hmem : Holds p data.length data) (hsize : data.length < 2 ^ 24) (headerLen : Nat)
    : (checkSink p headerLen data.length).Passes (TagCheck.Holds data.length) ↔ SinkFits headerLen data := by
  unfold checkSink SinkFits
  simp only [passes_bind, passes_check, passes_ite, passes_pure, TagCheck.Holds, implies_true, and_true]
  by_cases hlen : headerLen < data.length
  . have hasc := ascFits_iff hmem hsize hlen {}
    have hpass : headerLen + (data.length - headerLen) ≤ data.length := by omega
    have hone : 0 + 1 ≤ data.length := by omega
    have hfirst : p 0 = data.getD 0 0 := byte_eq hmem (Nat.zero_add _) hone
    simp only [hlen, hpass, hone, hfirst, true_implies, true_and]
    by_cases htwo : 1 + 1 ≤ data.length
    . have hsecond : p 1 = data.getD 1 0 := byte_eq hmem (Nat.zero_add _) htwo
      rw [hsecond, hasc]
    . simp only [htwo, false_and]
  . simp only [hlen, false_implies]

end Sink

section Audio

/--
The codec is not known, or the codec byte is followed by another one and both do not announce the header of an AAC
stream.
-/
def AudioFits (data : List UInt8) : Prop :=
  data ≠ [] ∧ (FlvDemuxer.audioCodecType (data.getD 0 0) ≠ none → 2 ≤ data.length ∧ ¬FlvDemuxer.isAscHeader data)

variable {p : Nat → UInt8} {data : List UInt8}

theorem checkAudio_passes (hmem : Holds p data.length data) (hsize : data.length < 2 ^ 24)
    : (checkAudio p data.length).Passes (TagCheck.Holds data.length) ↔ AudioFits data := by
  have hsink := checkSink_passes hmem hsize 2
  unfold checkAudio AudioFits
  simp only [passes_bind, passes_check, passes_ite, passes_pure, implies_true, true_and, TagCheck.Holds, hsink]
  by_cases hempty : data = []
  . simp [hempty]
  . have hone : 0 + 1 ≤ data.length := List.length_pos_of_ne_nil hempty
    have hfirst : p 0 = data.getD 0 0 := byte_eq hmem (Nat.zero_add _) hone
    simp only [hone, hempty, hfirst, ne_eq, not_false_eq_true, true_and]
    apply imp_congr_right
    intro _
    by_cases htwo : 1 + 1 ≤ data.length
    . have hsecond : p 1 = data.getD 1 0 := byte_eq hmem (Nat.zero_add _) htwo
      simp only [htwo, hsecond, true_and]
      have hasc : FlvDemuxer.isAscHeader data
          ↔ data.getD 1 0 = 0x00 ∧ data.getD 0 0 &&& 0xf0 = audioAacCodec := by
        unfold FlvDemuxer.isAscHeader
        rw [decide_eq_true_iff, and_comm]
      rw [hasc]
      constructor
      . rintro ⟨hlong, -⟩ h
        have := (hlong h).left
        omega
      . intro h
        refine ⟨fun hheader => absurd hheader h, ?_⟩
        intro _ _ haac
        exact ⟨htwo, fun hzero => absurd ⟨hzero, haac⟩ h⟩
    . simp only [htwo, false_and]

end Audio

section Video

/--
A record without a byte, with a marker byte that is wrong, or whose parameter sets are inside.
-/
def SpsPpsFit (record : List UInt8) : Prop :=
  record = [] ∨ (5 ≤ record.length ∧ record.getD 4 0 ≠ 0xff) ∨ (6 ≤ record.length ∧ record.getD 5 0 ≠ 0xe1)
    ∨ 11 + read2Bytes (record.drop 6) + read2Bytes (record.drop (9 + read2Bytes (record.drop 6))) ≤ record.length

/--
The NALUs whose lengths stand in front of them are inside and not empty, up to one that is too long for `Avcc2Nalus`.
-/
inductive NalusFit : List UInt8 → Prop where
  | done : NalusFit []
  | tooLong {data : List UInt8} (hlen : 4 ≤ data.length) (hlong : kMaxLen < read4Bytes data) : NalusFit data
  | nalu {data : List UInt8} (hpos : 0 < read4Bytes data) (hle : read4Bytes data ≤ kMaxLen)
      (hlen : 4 + read4Bytes data ≤ data.length) (hrest : NalusFit (data.drop (4 + read4Bytes data))) : NalusFit data

variable {p : Nat → UInt8} {total pos : Nat} {data : List UInt8}

/--
The parameter sets and their lengths are inside.
-/
theorem sets_inside (hmem : Holds p total data) (hpos : pos + data.length = total)
    : (pos + 6 + 2 ≤ total ∧ pos + 8 + read2Bytes (ParameterSets.readAt p (pos + 6) 2) ≤ total
          ∧ pos + 9 + read2Bytes (ParameterSets.readAt p (pos + 6) 2) + 2 ≤ total
          ∧ pos + 11 + read2Bytes (ParameterSets.readAt p (pos + 6) 2)
            + read2Bytes (ParameterSets.readAt p (pos + 9 + read2Bytes (ParameterSets.readAt p (pos + 6) 2)) 2) ≤ total)
        ↔ 11 + read2Bytes (data.drop 6) + read2Bytes (data.drop (9 + read2Bytes (data.drop 6))) ≤ data.length := by
  by_cases hsps : 11 + read2Bytes (data.drop 6) ≤ data.length
  . have hspsLen : read2Bytes (ParameterSets.readAt p (pos + 6) 2) = read2Bytes (data.drop 6) :=
      read2Bytes_readAt hmem hpos (by omega)
    have hppsLen : read2Bytes (ParameterSets.readAt p (pos + (9 + read2Bytes (data.drop 6))) 2)
        = read2Bytes (data.drop (9 + read2Bytes (data.drop 6))) :=
      read2Bytes_readAt hmem hpos (by omega)
    rw [hspsLen, Nat.add_assoc pos 9, hppsLen]
    omega
  . apply iff_of_false
    . rintro ⟨hlen, -, hread, -⟩
      rw [read2Bytes_readAt hmem hpos (by omega)] at hread
      omega
    . omega

theorem checkSpsPps_passes (hmem : Holds p total data) (hpos : pos + data.length = total)
    : (checkSpsPps p pos data.length).Passes (TagCheck.Holds total) ↔ SpsPpsFit data := by
  have hsets := sets_inside hmem hpos
  unfold checkSpsPps checkMarker SpsPpsFit
  simp only [passes_bind, passes_check, passes_ite, passes_pure, implies_true, true_and, and_true, TagCheck.Holds,
    hsets]
  by_cases hempty : data = []
  . simp [hempty]
  . have hlen : data.length ≠ 0 := fun h => hempty (List.length_eq_zero_iff.mp h)
    simp only [hempty, hlen, not_false_eq_true, true_implies, false_or]
    by_cases hfive : 4 < data.length
    . have hfourth : p (pos + 4) = data.getD 4 0 := byte_eq hmem hpos hfive
      have hread : pos + 4 + 1 ≤ total := by omega
      have hfive' : 5 ≤ data.length := hfive
      simp only [hfive, hfive', hfourth, hread, true_and, true_implies]
      by_cases hmarker : data.getD 4 0 = 0xff
      . simp only [hmarker, true_implies, ne_eq, not_true_eq_false, false_or]
        by_cases hsix : 5 < data.length
        . have hfifth : p (pos + 5) = data.getD 5 0 := byte_eq hmem hpos hsix
          have hread : pos + 5 + 1 ≤ total := by omega
          have hsix' : 6 ≤ data.length := hsix
          simp only [hsix', hfifth, hread, true_and]
          exact Decidable.or_iff_not_imp_left.symm
        . omega
      . simp only [hmarker, ne_eq, not_false_eq_true, true_or, false_implies, not_true_eq_false, true_and]
    . simp only [hfive, false_and, not_false_eq_true, true_implies, false_implies, true_and]
      omega

theorem checkNalu_passes (nalu : List UInt8)
    : (checkNalu (H264.startCode ++ nalu)).Passes (TagCheck.Holds total) ↔ 0 < nalu.length := by
  change (check (.copied 4 (H264.startCode ++ nalu).length)).Passes (TagCheck.Holds total) ↔ _
  have hlen : (H264.startCode ++ nalu).length = 4 + nalu.length := List.length_append
  rw [passes_check, TagCheck.Holds, hlen]
  omega

theorem checkAvccNalus_passes (hmem : Holds p total data) (hpos : pos + data.length = total)
    : ((checkAvccNalus p pos data.length).Passes (TagCheck.Holds total)
        ∧ ∀ nalu ∈ (checkAvccNalus p pos data.length).value, (checkNalu nalu).Passes (TagCheck.Holds total))
      ↔ NalusFit data := by
  induction hsize : data.length using Nat.strongRecOn generalizing data pos with
  | ind size ih =>
    subst hsize
    rw [checkAvccNalus]
    by_cases hempty : data = []
    . subst hempty
      simp [NalusFit.done]
    . have hne : ¬(data.length : Int) ≤ 0 := by
        have := List.length_pos_of_ne_nil hempty
        omega
      rw [if_neg hne]
      simp only [passes_bind, passes_check, value_bind, TagCheck.Holds]
      by_cases hlen : 4 ≤ data.length
      . rw [read4Bytes_readAt hmem hpos hlen]
        have hread : pos + 4 ≤ total := by omega
        simp only [hread, true_and]
        by_cases hlong : kMaxLen < read4Bytes data
        . simp [hlong, NalusFit.tooLong hlen hlong]
        . rw [if_neg hlong]
          simp only [passes_bind, passes_check, passes_pure, value_bind, value_pure, and_true, List.forall_mem_cons,
            checkNalu_passes, ParameterSets.length_readAt, TagCheck.Holds]
          by_cases hinside : 4 + read4Bytes data ≤ data.length
          . have hrestLen : (data.drop (4 + read4Bytes data)).length = data.length - (4 + read4Bytes data) :=
              List.length_drop
            have hleft : (data.length : Int) - 4 - read4Bytes data = (data.drop (4 + read4Bytes data)).length := by
              omega
            have hrest : ((checkAvccNalus p (pos + 4 + read4Bytes data) (data.drop (4 + read4Bytes data)).length).Passes
                  (TagCheck.Holds total)
                ∧ ∀ nalu ∈ (checkAvccNalus p (pos + 4 + read4Bytes data)
                    (data.drop (4 + read4Bytes data)).length).value, (checkNalu nalu).Passes (TagCheck.Holds total))
                ↔ NalusFit (data.drop (4 + read4Bytes data)) :=
              ih _ (by omega) (hmem.drop _) (by omega) rfl
            have hpass : pos + 4 + read4Bytes data ≤ total := by omega
            rw [hleft]
            constructor
            . rintro ⟨⟨-, hpasses⟩, hpositive, hnalus⟩
              exact .nalu hpositive (by omega) hinside (hrest.mp ⟨hpasses, hnalus⟩)
            . intro h
              cases h with
              | done => exact absurd rfl hempty
              | tooLong _ hlong' => exact absurd hlong' hlong
              | nalu hpositive _ _ hfit =>
                obtain ⟨hpasses, hnalus⟩ := hrest.mpr hfit
                exact ⟨⟨hpass, hpasses⟩, hpositive, hnalus⟩
          . apply iff_of_false
            . rintro ⟨⟨hpass, -⟩, -⟩
              omega
            . intro h
              cases h with
              | done => exact hempty rfl
              | tooLong _ hlong' => exact hlong hlong'
              | nalu _ _ hlen' _ => exact hinside hlen'
      . apply iff_of_false
        . rintro ⟨⟨hread, -⟩, -⟩
          omega
        . intro h
          cases h with
          | done => exact hempty rfl
          | tooLong hlen' _ => exact hlen hlen'
          | nalu _ _ hlen' _ => omega

/--
A loop over the NALUs that keeps nothing between them.
-/
theorem run_checkNalu_passes (nalus : List (List UInt8))
    : (Checked.run (fun _ nalu => checkNalu nalu) () nalus).Passes (TagCheck.Holds total)
      ↔ ∀ nalu ∈ nalus, (checkNalu nalu).Passes (TagCheck.Holds total) := by
  have hrun : _ ↔ Checked.RunMeets (fun _ nalu => checkNalu nalu)
      (fun _ nalu => (checkNalu nalu).Passes (TagCheck.Holds total)) () nalus :=
    run_passes_iff_runMeets (fun _ => True) _ (fun _ _ _ => Iff.rfl) (fun _ _ _ _ => trivial) trivial nalus
  rw [hrun, runMeets_iff_forall]

/--
The NALUs behind the media header of a video tag.
-/
theorem checkAvcc2Nalus_passes (hmem : Holds p data.length data)
    : (5 < data.length → (checkAvcc2Nalus p 5 (data.length - 5)).Passes (TagCheck.Holds data.length)
        ∧ ∀ nalu ∈ (checkAvcc2Nalus p 5 (data.length - 5)).value, (checkNalu nalu).Passes (TagCheck.Holds data.length))
      ↔ (9 ≤ data.length → NalusFit (data.drop 5)) := by
  unfold checkAvcc2Nalus
  by_cases hlen : 9 ≤ data.length
  . have hbody : 5 + (data.drop 5).length = data.length := by
      rw [List.length_drop]
      omega
    have hnalus := checkAvccNalus_passes (hmem.drop 5) hbody
    have hfive : 5 < data.length := by omega
    rw [List.length_drop] at hnalus
    rw [if_neg (by omega), hnalus]
    simp only [hfive, hlen, true_implies]
  . rw [if_pos (by omega)]
    apply iff_of_true
    . intro _
      exact ⟨by simp, by simp⟩
    . intro h
      exact absurd h hlen

/--
A video tag has a media header. Parameter sets and NALUs are inside it, and data that is neither H.264 nor H.265 is
not taken for the header of an AAC stream, or that header is inside.
-/
structure VideoFits (data : List UInt8) : Prop where
  length : 5 ≤ data.length
  parameterSets : IsVideoSeqHdr data → FlvDemuxer.videoCodecType (data.getD 0 0) = .h264 → data.length < 517 →
    SpsPpsFit (data.drop 5)
  avcNalus : FlvDemuxer.videoCodecType (data.getD 0 0) = .h264 → (IsVideoSeqHdr data → 517 ≤ data.length) →
    9 ≤ data.length → NalusFit (data.drop 5)
  hevcNalus : FlvDemuxer.videoCodecType (data.getD 0 0) = .h265 → ¬IsVideoSeqHdr data → 9 ≤ data.length →
    NalusFit (data.drop 5)
  raw : FlvDemuxer.videoCodecType (data.getD 0 0) ≠ .h264 → FlvDemuxer.videoCodecType (data.getD 0 0) ≠ .h265 →
    SinkFits 5 data

theorem checkVideo_passes (hmem : Holds p data.length data) (hsize : data.length < 2 ^ 24)
    : (checkVideo p data.length).Passes (TagCheck.Holds data.length) ↔ VideoFits data := by
  have hsink := checkSink_passes hmem hsize 5
  unfold checkVideo checkKeyFlag
  simp only [passes_bind, passes_check, passes_ite, passes_pure, TagCheck.Holds, hsink,
    run_checkNalu_passes, implies_true, and_true]
  by_cases hlen : 5 ≤ data.length
  . have hextra : FlvDemuxer.extraLen data.length = data.length - 5 := by
      unfold FlvDemuxer.extraLen
      omega
    have hone : 0 + 1 ≤ data.length := by omega
    have htwo : 1 + 1 ≤ data.length := by omega
    have hfirst : p 0 = data.getD 0 0 := byte_eq hmem (Nat.zero_add _) hone
    have hsecond : p 1 = data.getD 1 0 := byte_eq hmem (Nat.zero_add _) htwo
    have hbody : 5 + (data.drop 5).length = data.length := by
      rw [List.length_drop]
      omega
    have hsets := checkSpsPps_passes (hmem.drop 5) hbody
    have hnalus := checkAvcc2Nalus_passes hmem
    have hseqHdr : data.getD 0 0 &&& 0xf0 = videoKeyFlag ∧ data.getD 1 0 = 0x00 ↔ IsVideoSeqHdr data := Iff.rfl
    have hread : 2 + 3 ≤ data.length := hlen
    have hpass : 5 + (data.length - 5) ≤ data.length := by omega
    rw [List.length_drop] at hsets
    simp only [hextra, hfirst, hsecond, hseqHdr, hone, htwo, hread, hpass, hsets, hnalus, implies_true, true_and]
    constructor
    . rintro ⟨hrecord, hrest⟩
      refine ⟨hlen, ?_, ?_, ?_, ?_⟩
      . intro hseq h264 hshort
        exact hrecord ⟨hseq, h264, by omega⟩
      . intro h264 hlong
        have hnotSets : ¬(IsVideoSeqHdr data ∧ FlvDemuxer.videoCodecType (data.getD 0 0) = .h264
            ∧ data.length - 5 < 512) := by
          rintro ⟨hseq, -, hshort⟩
          have := hlong hseq
          omega
        have hnotHevc : ¬(IsVideoSeqHdr data ∧ FlvDemuxer.videoCodecType (data.getD 0 0) = .h265) := by
          rw [h264]
          rintro ⟨-, ⟨⟩⟩
        exact (hrest hnotSets hnotHevc).left (Or.inl h264)
      . intro h265 hnotSeq
        exact (hrest (fun h => hnotSeq h.left) (fun h => hnotSeq h.left)).left (Or.inr h265)
      . intro h264 h265
        have hraw := (hrest (fun h => h264 h.right.left) (fun h => h265 h.right)).right
        apply hraw
        rintro (h | h)
        . exact h264 h
        . exact h265 h
    . intro h
      constructor
      . rintro ⟨hseq, h264, hshort⟩
        exact h.parameterSets hseq h264 (by omega)
      . intro hnotSets hnotHevc
        constructor
        . rintro (h264 | h265)
          . apply h.avcNalus h264
            intro hseq
            have : ¬data.length - 5 < 512 := fun hshort => hnotSets ⟨hseq, h264, hshort⟩
            omega
          . exact h.hevcNalus h265 fun hseq => hnotHevc ⟨hseq, h265⟩
        . intro hother
          exact h.raw (fun h264 => hother (Or.inl h264)) (fun h265 => hother (Or.inr h265))
  . apply iff_of_false
    . rintro ⟨-, -, hread, -⟩
      omega
    . intro h
      exact hlen h.length

end Video

section Meta

variable {p : Nat → UInt8} {total : Nat} {data : List UInt8}

theorem checkScan_passes {α : Type} (m : Scanner α) (c : Cursor)
    : (checkScan m c).Passes (TagCheck.Holds total) ↔ Returns total m c := by
  have hlog : (tell ((m c).1.map .scan) : Checked TagCheck Unit).Passes (TagCheck.Holds total) ↔ Safe total m c := by
    change (∀ access ∈ (m c).1.map TagCheck.scan, access.Holds total) ↔ _
    rw [List.forall_mem_map]
    rfl
  unfold checkScan Returns
  rw [passes_bind, passes_bind, hlog, passes_check, ← Option.isSome_iff_ne_none]
  simp only [passes_pure, and_true, TagCheck.Holds]

theorem scanMetaData_refused (hholds : Holds p total data) (hrefused : ∃ type tail, data = type :: tail
    ∧ Amf.typeUnsupported < type) (fuel : Nat)
    : (scanMetaData p (fuel + 1) (cursor total data)).2 = some (true, cursor total data) := by
  obtain ⟨type, tail, rfl, htype⟩ := hrefused
  have hdecode : (Amf.decodeAt p (fuel + 1) (cursor total (type :: tail))).2
      = some ((false, .unknown), cursor total (type :: tail)) := by
    rw [Amf.decodeAt_eq, bind_some (peek_eq hholds (by simp))]
    change ((if Amf.typeUnsupported < type then _ else _ : Scanner (Bool × Amf.AmfItem)) _).2 = _
    rw [if_pos htype]
    rfl
  rw [scanMetaData, bind_outcome, hdecode]
  rfl

theorem unsupported_of_aac {type : UInt8} (h : type &&& 0xf0 = audioAacCodec) : Amf.typeUnsupported < type := by
  revert h
  revert type
  apply forall_of_bitVec
  decide

theorem checkMeta_passes (hmem : Holds p data.length data) (hsize : data.length < 2 ^ 24)
    : (checkMeta p data.length).Passes (TagCheck.Holds data.length) ↔ MetaComplete data ∧ SinkFits 0 data := by
  have hsink := checkSink_passes hmem hsize 0
  have hcursor : cursor data.length data = ⟨0, data.length⟩ := by
    unfold cursor
    rw [Nat.sub_self]
  have hscan := scanMetaData_returns (by omega : data.length < 2 ^ 31) hmem (Nat.lt_succ_self (2 * data.length))
  unfold checkMeta
  rw [← hcursor, passes_bind, passes_ite, checkScan_passes, hscan, hsink]
  apply and_congr_right
  intro _
  simp only [passes_pure, implies_true, and_true]
  constructor
  . intro h hlen haac
    apply h _ hlen haac
    cases data with
    | nil => exact absurd hlen (Nat.lt_irrefl _)
    | cons type tail =>
      have houtcome := scanMetaData_refused hmem ⟨type, tail, rfl, unsupported_of_aac haac⟩ (2 * (type :: tail).length)
      change ((scanMetaData p _ _).2.map Prod.fst : Option Bool) = _
      rw [houtcome]
      rfl
  . intro h _
    exact h

end Meta

section Tag

/--
The tags that are safe to handle. A tag of another type is not looked at.
-/
structure TagFits (tagType : UInt8) (data : List UInt8) : Prop where
  audio : tagType = tagAudio → AudioFits data
  video : tagType = tagVideo → VideoFits data
  metadata : tagType = tagTypeMeta → MetaComplete data ∧ SinkFits 0 data

theorem checkTag_passes {p : Nat → UInt8} {data : List UInt8} (tagType : UInt8) (hmem : Holds p data.length data)
    (hsize : data.length < 2 ^ 24)
    : (checkTag p tagType data.length).Passes (TagCheck.Holds data.length) ↔ TagFits tagType data := by
  have htypes : tagAudio ≠ tagVideo ∧ tagAudio ≠ tagTypeMeta ∧ tagVideo ≠ tagTypeMeta := by decide
  unfold checkTag
  split
  . next haudio =>
    rw [checkAudio_passes hmem hsize]
    constructor
    . intro h
      exact ⟨fun _ => h, fun hvideo => absurd (haudio.symm.trans hvideo) htypes.left,
        fun hmeta => absurd (haudio.symm.trans hmeta) htypes.right.left⟩
    . intro h
      exact h.audio haudio
  . next haudio =>
    split
    . next hvideo =>
      rw [checkVideo_passes hmem hsize]
      constructor
      . intro h
        exact ⟨fun h => absurd h haudio, fun _ => h, fun hmeta => absurd (hvideo.symm.trans hmeta) htypes.right.right⟩
      . intro h
        exact h.video hvideo
    . next hvideo =>
      split
      . next hmeta =>
        rw [checkMeta_passes hmem hsize]
        constructor
        . intro h
          exact ⟨fun h => absurd h haudio, fun h => absurd h hvideo, fun _ => h⟩
        . intro h
          exact h.metadata hmeta
      . next hmeta =>
        apply iff_of_true
        . exact passes_pure ()
        . exact ⟨fun h => absurd h haudio, fun h => absurd h hvideo, fun h => absurd h hmeta⟩

end Tag

end Flv
