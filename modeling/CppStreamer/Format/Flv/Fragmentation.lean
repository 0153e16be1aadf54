import CppStreamer.Format.Flv.Demux

/-!
This module contains the streams for which the output of `FlvDemuxer` does not depend on how they are cut.
-/

open ByteStream

namespace Flv

open Incremental FlvDemuxer

section Inside

/--
The NALUs whose lengths stand in front of them are among the bytes that have arrived, up to one that is too
long for `Avcc2Nalus`.
-/
inductive NalusInside : Int → List UInt8 → Prop where
  | done {dataLen : Int} {data : List UInt8} (hdone : dataLen ≤ 0) : NalusInside dataLen data
  | tooLong {dataLen : Int} {data : List UInt8} (hpos : 0 < dataLen) (hlen : 4 ≤ data.length)
      (hlong : kMaxLen < read4Bytes data) : NalusInside dataLen data
  | nalu {dataLen : Int} {data : List UInt8} (hpos : 0 < dataLen) (hle : read4Bytes data ≤ kMaxLen)
      (hlen : 4 + read4Bytes data ≤ data.length)
      (hrest : NalusInside (dataLen - 4 - read4Bytes data) (data.drop (4 + read4Bytes data)))
      : NalusInside dataLen data

theorem avccNalus_eq_none (dataLen : Int) (data : List UInt8)
    : avccNalus dataLen data = none ↔ ¬NalusInside dataLen data := by
  fun_induction avccNalus dataLen data with
  | case1 dataLen data hdone => simp [NalusInside.done hdone]
  | case2 dataLen data hpos hlen =>
    simp only [true_iff]
    intro h
    cases h with
    | done hdone => exact hpos hdone
    | tooLong _ hlen' _ => omega
    | nalu _ _ hlen' _ => omega
  | case3 dataLen data hpos hlen naluLen hlong =>
    simp only [reduceCtorEq, false_iff, not_not]
    exact .tooLong (by omega) (by omega) hlong
  | case4 dataLen data hpos hlen naluLen hle hshort =>
    simp only [true_iff]
    intro h
    cases h with
    | done hdone => exact hpos hdone
    | tooLong _ _ hlong => exact hle hlong
    | nalu _ _ hlen' _ => omega
  | case5 dataLen data hpos hlen naluLen hle hlen' ih =>
    have hinside : NalusInside dataLen data
        ↔ NalusInside (dataLen - 4 - naluLen) (data.drop (4 + naluLen)) := by
      constructor
      . intro h
        cases h with
        | done hdone => exact absurd hdone hpos
        | tooLong _ _ hlong => exact absurd hlong hle
        | nalu _ _ _ hrest => exact hrest
      . exact .nalu (by omega) (by omega) (by omega)
    rw [hinside, ← ih, Option.bind_eq_bind, Option.bind_eq_none_iff]
    constructor
    . intro h
      by_contra hsome
      obtain ⟨nalus, hnalus⟩ := Option.ne_none_iff_exists'.mp hsome
      exact absurd (h nalus hnalus) (by simp)
    . intro hnone nalus hnalus
      rw [hnone] at hnalus
      cases hnalus

/--
The parameter sets are among the bytes that have arrived, unless the record is empty or its marker bytes are
wrong.
-/
def ParameterSetsInside (extraLen : Nat) (extraData : List UInt8) : Prop :=
  0 < extraLen → (4 < extraLen → extraData.getD 4 0 = 0xff ∧ extraData.getD 5 0 = 0xe1) →
    11 + read2Bytes (extraData.drop 6) ≤ extraData.length
      ∧ 11 + read2Bytes (extraData.drop 6) + read2Bytes (extraData.drop (9 + read2Bytes (extraData.drop 6)))
        ≤ extraData.length

theorem getSpsPpsFromExtraData_eq_none (extraLen : Nat) (extraData : List UInt8)
    : getSpsPpsFromExtraData extraLen extraData = none ↔ ¬ParameterSetsInside extraLen extraData := by
  unfold getSpsPpsFromExtraData ParameterSetsInside
  by_cases hempty : extraLen = 0
  . simp [hempty]
  . rw [if_neg hempty]
    by_cases hmarker : 4 < extraLen ∧ (extraData.getD 4 0 ≠ 0xff ∨ extraData.getD 5 0 ≠ 0xe1)
    . rw [if_pos hmarker]
      simp only [reduceCtorEq, false_iff, not_not]
      intro _ hright
      obtain ⟨h4, h5⟩ := hright hmarker.left
      rcases hmarker.right with hne | hne
      . exact absurd h4 hne
      . exact absurd h5 hne
    . have hright : 4 < extraLen → extraData.getD 4 0 = 0xff ∧ extraData.getD 5 0 = 0xe1 := by
        intro hlt
        by_contra hne
        rw [not_and_or] at hne
        exact hmarker ⟨hlt, hne⟩
      rw [if_neg hmarker]
      simp only [Nat.pos_of_ne_zero hempty, imp_iff_right hright, true_implies, List.drop_drop, List.length_take,
        List.length_drop, ite_eq_right_iff, reduceCtorEq, imp_false]
      rw [show 6 + 2 + (read2Bytes (extraData.drop 6) + 1) = 9 + read2Bytes (extraData.drop 6) by omega]
      omega

theorem avcc2Nalus_eq_none (len : Nat) (data : List UInt8)
    : avcc2Nalus len data = none ↔ 4 ≤ len ∧ ¬NalusInside len data := by
  unfold avcc2Nalus
  by_cases hlen : len < 4
  . rw [if_pos hlen]
    simp only [reduceCtorEq, false_iff]
    omega
  . rw [if_neg hlen, avccNalus_eq_none]
    simp only [Nat.le_of_not_lt hlen, true_and]

def IsVideoSeqHdr (p : List UInt8) : Prop := p.getD 0 0 &&& 0xf0 = videoKeyFlag ∧ p.getD 1 0 = 0x00

/--
What is copied out of a video tag is among the bytes that have arrived.
-/
structure VideoInside (tagDataSize : Nat) (p : List UInt8) : Prop where
  parameterSets : IsVideoSeqHdr p → videoCodecType (p.getD 0 0) = .h264 → extraLen tagDataSize < 512 →
    ParameterSetsInside (extraLen tagDataSize) (p.drop 5)
  seqHdr : IsVideoSeqHdr p → videoCodecType (p.getD 0 0) = .h265 → 5 ≤ tagDataSize
  avcNalus : videoCodecType (p.getD 0 0) = .h264 → ¬(IsVideoSeqHdr p ∧ extraLen tagDataSize < 512) →
    9 ≤ tagDataSize → NalusInside (tagDataSize - 5 : Nat) (p.drop 5)
  hevcNalus : videoCodecType (p.getD 0 0) = .h265 → ¬IsVideoSeqHdr p →
    9 ≤ tagDataSize → NalusInside (tagDataSize - 5 : Nat) (p.drop 5)

theorem sinkData_ne_overrun (output : MediaPacket) (headerLen tagDataSize : Nat) (p : List UInt8)
    : sinkData output headerLen tagDataSize p ≠ .error .overrun := by
  unfold sinkData
  split
  . simp only
    split
    . simp
    . simp
  . simp

end Inside

namespace FlvDemuxer

variable {d d' : FlvDemuxer}

theorem sinkData_bind_ne_overrun (output : MediaPacket) (headerLen tagDataSize : Nat) (p : List UInt8)
    (f : List FlvEvent → TagResult)
    : (do
        let events ← sinkData output headerLen tagDataSize p
        Except.ok (f events)) ≠ .error .overrun := by
  have hsink := sinkData_ne_overrun output headerLen tagDataSize p
  cases hresult : sinkData output headerLen tagDataSize p with
  | error fault =>
    rw [hresult] at hsink
    intro h
    cases h
    exact hsink rfl
  | ok events =>
    intro h
    cases h

theorem handleAudio_ne_overrun (tagDataSize tagTimestamp : Nat) (p : List UInt8)
    : handleAudio tagDataSize tagTimestamp p ≠ .error .overrun := by
  unfold handleAudio
  split
  . simp
  . split
    . simp
    . apply sinkData_bind_ne_overrun

theorem handleMeta_eq_overrun (tagDataSize tagTimestamp : Nat) (p : List UInt8)
    : handleMeta tagDataSize tagTimestamp p = .error .overrun
        ↔ readsInside p.length (metaScan tagDataSize p).1 = false := by
  unfold handleMeta
  cases readsInside p.length (metaScan tagDataSize p).1 with
  | false => simp
  | true =>
    simp only [if_true, reduceCtorEq, iff_false]
    split
    . simp
    . simp
    . apply sinkData_bind_ne_overrun

theorem nalus_eq_overrun (tagDataSize : Nat) (data : List UInt8) (f : List (List UInt8) → TagResult)
    (result : TagResult)
    : (if 5 < tagDataSize then
        match avcc2Nalus (tagDataSize - 5) data with
        | none => Except.error FlvFault.overrun
        | some nalus => .ok (f nalus)
      else .ok result) = .error .overrun
        ↔ ¬(9 ≤ tagDataSize → NalusInside (tagDataSize - 5 : Nat) data) := by
  have hnone := avcc2Nalus_eq_none (tagDataSize - 5) data
  by_cases hlen : 5 < tagDataSize
  . rw [if_pos hlen]
    cases hnalus : avcc2Nalus (tagDataSize - 5) data with
    | none =>
      obtain ⟨hle, hinside⟩ := hnone.mp hnalus
      simp only [true_iff]
      intro h
      exact hinside (h (by omega))
    | some nalus =>
      simp only [reduceCtorEq, false_iff, not_not]
      intro hle
      by_contra hinside
      have := hnone.mpr ⟨by omega, hinside⟩
      rw [hnalus] at this
      cases this
  . rw [if_neg hlen]
    simp only [reduceCtorEq, false_iff, not_not]
    intro hle
    omega

theorem handleVideo_eq_overrun (tagDataSize tagTimestamp : Nat) (p : List UInt8)
    : handleVideo tagDataSize tagTimestamp p = .error .overrun ↔ ¬VideoInside tagDataSize p := by
  have hseqHdr : decide (p.getD 0 0 &&& 0xf0 = videoKeyFlag ∧ p.getD 1 0 = 0x00) = true
      ↔ IsVideoSeqHdr p := decide_eq_true_iff
  unfold handleVideo
  simp only
  by_cases h264 : videoCodecType (p.getD 0 0) = .h264
  . have h265 : ¬videoCodecType (p.getD 0 0) = .h265 := by
      rw [h264]
      exact MediaCodecType.noConfusion
    by_cases hsets : IsVideoSeqHdr p ∧ extraLen tagDataSize < 512
    . have hinside : VideoInside tagDataSize p
          ↔ ParameterSetsInside (extraLen tagDataSize) (p.drop 5) := by
        constructor
        . intro h
          exact h.parameterSets hsets.left h264 hsets.right
        . intro h
          exact ⟨fun _ _ _ => h, fun _ h => absurd h h265, fun _ h => absurd hsets h, fun h => absurd h h265⟩
      rw [if_pos ⟨hseqHdr.mpr hsets.left, h264, hsets.right⟩, hinside, ← getSpsPpsFromExtraData_eq_none]
      cases getSpsPpsFromExtraData (extraLen tagDataSize) (p.drop 5) with
      | none => simp
      | some sets => simp
    . have hinside : VideoInside tagDataSize p
          ↔ (9 ≤ tagDataSize → NalusInside (tagDataSize - 5 : Nat) (p.drop 5)) := by
        constructor
        . intro h
          exact h.avcNalus h264 hsets
        . intro h
          exact ⟨fun hseq _ hlen => absurd ⟨hseq, hlen⟩ hsets, fun _ h => absurd h h265, fun _ _ => h,
            fun h => absurd h h265⟩
      rw [if_neg (fun h => hsets ⟨hseqHdr.mp h.left, h.right.right⟩), if_neg (fun h => h265 h.right),
        if_pos (Or.inl h264), hinside]
      apply nalus_eq_overrun
  . rw [if_neg (fun h => h264 h.right.left)]
    by_cases h265 : videoCodecType (p.getD 0 0) = .h265
    . by_cases hseq : IsVideoSeqHdr p
      . have hinside : VideoInside tagDataSize p ↔ 5 ≤ tagDataSize := by
          constructor
          . intro h
            exact h.seqHdr hseq h265
          . intro h
            exact ⟨fun _ h => absurd h h264, fun _ _ => h, fun h => absurd h h264, fun _ h => absurd hseq h⟩
        rw [if_pos ⟨hseqHdr.mpr hseq, h265⟩, hinside]
        by_cases hlen : 5 ≤ tagDataSize
        . simp [hlen]
        . simp [hlen]
      . have hinside : VideoInside tagDataSize p
            ↔ (9 ≤ tagDataSize → NalusInside (tagDataSize - 5 : Nat) (p.drop 5)) := by
          constructor
          . intro h
            exact h.hevcNalus h265 hseq
          . intro h
            exact ⟨fun _ h => absurd h h264, fun h => absurd h hseq, fun h => absurd h h264, fun _ _ => h⟩
        rw [if_neg (fun h => hseq (hseqHdr.mp h.left)), if_pos (Or.inr h265), hinside]
        apply nalus_eq_overrun
    . have hinside : VideoInside tagDataSize p :=
        ⟨fun _ h => absurd h h264, fun _ h => absurd h h265, fun h => absurd h h264, fun h => absurd h h265⟩
      rw [if_neg (fun h => h265 h.right), if_neg (by rintro (h | h); exacts [h264 h, h265 h])]
      simp only [hinside, not_true_eq_false, iff_false]
      apply sinkData_bind_ne_overrun _ _ _ _ fun events => (FlvRet.ok, true, _)

/--
Nothing is wrong with the bytes that `HandlePacket` looks at: the FLV header has its marker and the size behind
it, the codec of an audio tag is known, and what is copied or decoded is among the bytes that have arrived.
-/
structure Accepts (d : FlvDemuxer) : Prop where
  flvHeader : d.flvHeaderReady = false → headerLen + tagPreSize ≤ d.buffer.length →
    d.buffer.take 3 = [0x46, 0x4c, 0x56] ∧ (d.buffer.drop 5).take 4 = [0, 0, 0, 9]
  audio : ∀ d', d.readHeaders = (.ok, d') → d'.tagType = tagAudio → audioCodecType (d'.tag.getD 0 0) ≠ none
  video : ∀ d', d.readHeaders = (.ok, d') → d'.tagType = tagVideo → VideoInside d'.tagDataSize d'.tag
  metadata : ∀ d', d.readHeaders = (.ok, d') → d'.tagType = tagTypeMeta →
    readsInside d'.tag.length (metaScan d'.tagDataSize d'.tag).1

/--
`HandlePacket` returns -1 or reads behind the bytes that have arrived.
-/
def Refused : Except FlvFault (FlvRet × FlvDemuxer × List FlvEvent) → Prop
  | .error .overrun => True
  | .ok (.error _, _, _) => True
  | _ => False

theorem handleTag_refused (d : FlvDemuxer)
    : (d.handleTag = .error .overrun ∨ ∃ value consumed events, d.handleTag = .ok (.error value, consumed, events))
        ↔ ¬((d.tagType = tagAudio → audioCodecType (d.tag.getD 0 0) ≠ none)
          ∧ (d.tagType = tagVideo → VideoInside d.tagDataSize d.tag)
          ∧ (d.tagType = tagTypeMeta → readsInside d.tag.length (metaScan d.tagDataSize d.tag).1)) := by
  have hret (value : String) {consumed : Bool} {events : List FlvEvent}
      (h : d.handleTag = .ok (.error value, consumed, events))
      : d.tagType = tagAudio ∧ audioCodecType (d.tag.getD 0 0) = none := by
    rcases handleTag_ok h with hok | ⟨htype, hcodec, -⟩
    . cases hok
    . exact ⟨htype, hcodec⟩
  have haudio : tagAudio ≠ tagVideo ∧ tagAudio ≠ tagTypeMeta ∧ tagVideo ≠ tagTypeMeta := by decide
  by_cases htype : d.tagType = tagAudio
  . have hvideo : d.tagType ≠ tagVideo := htype ▸ haudio.left
    have hmeta : d.tagType ≠ tagTypeMeta := htype ▸ haudio.right.left
    simp only [htype, haudio.left, haudio.right.left, true_implies, false_implies, and_true, not_not]
    constructor
    . rintro (h | ⟨value, consumed, events, h⟩)
      . rw [handleTag, if_pos htype] at h
        exact absurd h (handleAudio_ne_overrun _ _ _)
      . exact (hret value h).right
    . intro hcodec
      right
      rw [handleTag, if_pos htype, handleAudio, hcodec]
      exact ⟨_, _, _, rfl⟩
  . have hnot : ¬∃ value consumed events, d.handleTag = .ok (.error value, consumed, events) := by
      rintro ⟨value, consumed, events, h⟩
      exact htype (hret value h).left
    simp only [hnot, or_false, htype, false_implies, true_and]
    rw [handleTag, if_neg htype]
    by_cases hvideo : d.tagType = tagVideo
    . simp only [hvideo, if_true, haudio.right.right, true_implies, false_implies, and_true]
      apply handleVideo_eq_overrun
    . rw [if_neg hvideo]
      by_cases hmeta : d.tagType = tagTypeMeta
      . simp only [hmeta, if_true, haudio.right.right.symm, true_implies, false_implies, true_and,
          Bool.not_eq_true]
        apply handleMeta_eq_overrun
      . simp [hvideo, hmeta]

theorem readFlvHeader_error
    : (∃ value d', d.readFlvHeader = (.error value, d'))
        ↔ ¬(d.flvHeaderReady = false → headerLen + tagPreSize ≤ d.buffer.length →
          d.buffer.take 3 = [0x46, 0x4c, 0x56] ∧ (d.buffer.drop 5).take 4 = [0, 0, 0, 9]) := by
  have hmark : (d.buffer.take (headerLen + tagPreSize)).take 3 = d.buffer.take 3 := List.take_take
  have hsize : ((d.buffer.take (headerLen + tagPreSize)).drop 5).take 4 = (d.buffer.drop 5).take 4 := by
    rw [List.drop_take, List.take_take]
    rfl
  unfold readFlvHeader
  cases d.flvHeaderReady with
  | true => simp
  | false =>
    simp only [Bool.false_eq_true, if_false, true_implies, hmark, hsize]
    by_cases hlen : d.buffer.length < headerLen + tagPreSize
    . rw [if_pos hlen]
      simp [Nat.not_le_of_lt hlen]
    . rw [if_neg hlen]
      simp only [Nat.le_of_not_lt hlen, true_implies]
      by_cases hmarked : d.buffer.take 3 = [0x46, 0x4c, 0x56]
      . rw [if_pos hmarked]
        by_cases hnine : (d.buffer.drop 5).take 4 = [0, 0, 0, 9]
        . simp [hmarked, hnine]
        . simp [hnine]
      . simp [hmarked]

theorem readTagHeader_ne_error (value : String) : d.readTagHeader ≠ (.error value, d') := by
  unfold readTagHeader
  split
  . simp
  . split
    . simp
    . simp

theorem readHeaders_error {value : String}
    : d.readHeaders = (.error value, d') ↔ d.readFlvHeader = (.error value, d') := by
  unfold readHeaders
  cases hflv : d.readFlvHeader with
  | mk ret1 d1 =>
    cases ret1 with
    | needMore => simp
    | error value => simp
    | ok =>
      simp only [Prod.mk.injEq, reduceCtorEq, false_and, iff_false]
      intro h
      cases htag : d1.readTagHeader with
      | mk ret2 d2 =>
        rw [htag] at h
        cases ret2 with
        | needMore => cases h
        | error value => exact readTagHeader_ne_error value htag
        | ok =>
          simp only at h
          split at h
          all_goals cases h

theorem refused_map (d' : FlvDemuxer) (result : Except FlvFault TagResult)
    : Refused (result.map fun (ret, consumed, events) =>
          (ret, if consumed then d'.consumeTag else d', ret.reports ++ events))
        ↔ result = .error .overrun ∨ ∃ value consumed events, result = .ok (.error value, consumed, events) := by
  cases result with
  | error fault =>
    cases fault with
    | overrun => simp [Refused, Except.map]
    | abort => simp [Refused, Except.map]
  | ok result =>
    obtain ⟨ret, consumed, events⟩ := result
    cases ret with
    | ok | needMore => simp [Refused, Except.map]
    | error value => simp [Refused, Except.map]

theorem accepts_iff (d : FlvDemuxer) : d.Accepts ↔ ¬Refused d.handlePacket := by
  have hsound := not_congr (readFlvHeader_error (d := d))
  simp only [not_not, ← readHeaders_error] at hsound
  cases hread : d.readHeaders with
  | mk ret d1 =>
    have hsame {d' : FlvDemuxer} (h : d.readHeaders = (.ok, d')) : ret = .ok ∧ d' = d1 := by
      rw [hread] at h
      cases h
      exact ⟨rfl, rfl⟩
    by_cases hok : ret = .ok
    . subst hok
      rw [handlePacket_of_tag hread, refused_map, handleTag_refused, not_not]
      constructor
      . intro h
        exact ⟨h.audio d1 hread, h.video d1 hread, h.metadata d1 hread⟩
      . rintro ⟨haudio, hvideo, hmeta⟩
        refine ⟨hsound.mp (by rw [hread]; simp), ?_, ?_, ?_⟩
        all_goals
          intro d' h
          rw [(hsame h).right]
          assumption
    . rw [handlePacket_of_headers hread hok]
      cases ret with
      | ok => exact absurd rfl hok
      | needMore =>
        simp only [Refused, not_false_eq_true, iff_true]
        refine ⟨hsound.mp (by rw [hread]; simp), ?_, ?_, ?_⟩
        all_goals
          intro d' h
          cases (hsame h).left
      | error value =>
        simp only [Refused, not_true_eq_false, iff_false]
        intro h
        exact hsound.mpr h.flvHeader ⟨value, d1, hread⟩

theorem handlePacket_of_stall (h : d.step = .stall d') : ∃ events, d.handlePacket = .ok (.needMore, d', events) := by
  unfold step at h
  split at h
  . cases h
  . cases h
  . next events hhandle =>
    cases h
    exact ⟨events, hhandle⟩
  . cases h
  . split at h
    all_goals cases h

theorem decided_of_step (h : ∀ d', d.step ≠ .stall d') (d' : FlvDemuxer) (events : List FlvEvent)
    : d.handlePacket ≠ .ok (.needMore, d', events) := by
  intro hhandle
  apply h d'
  unfold step
  rw [hhandle]

theorem accepts_feed (x : List UInt8) (h : ∀ d' events, d.handlePacket ≠ .ok (.needMore, d', events))
    : (d.feed x).Accepts ↔ d.Accepts := by
  rw [accepts_iff, accepts_iff, handlePacket_feed x rfl h]
  match d.handlePacket with
  | .error .overrun => rfl
  | .error .abort => rfl
  | .ok (.ok, _, _) => rfl
  | .ok (.needMore, _, _) => rfl
  | .ok (.error _, _, _) => rfl

/--
The demuxer, with the states in which nothing is wrong as those that fit.
-/
def acceptingReader : Reader FlvDemuxer UInt8 FlvOutput where
  feed := feed
  step := step
  rank := eventReader.rank
  fits := Accepts
  feed_nil := eventReader.feed_nil
  feed_append := eventReader.feed_append
  rank_lt := eventReader.rank_lt
  step_stall d d' x _ := eventReader.step_stall d d' x trivial
  step_next d d' out x _ := eventReader.step_next d d' out x trivial
  step_fail d out x _ := eventReader.step_fail d out x trivial
  fits_of_feed d x h := by
    by_cases hmore : ∃ d' events, d.handlePacket = .ok (.needMore, d', events)
    . obtain ⟨d', events, hmore⟩ := hmore
      rw [accepts_iff, hmore]
      exact id
    . exact (accepts_feed x fun d' events h => hmore ⟨d', events, h⟩).mp h
  fits_stall d d' x _ h := by
    obtain ⟨events, h⟩ := handlePacket_of_stall h
    rw [accepts_iff, accepts_iff, handlePacket_needMore x h]
  fits_next d d' out x hfits h := by
    refine (accepts_feed x (decided_of_step ?_)).mpr hfits
    intro d' hstall
    rw [h] at hstall
    cases hstall
  fits_fail d out x hfits h := by
    refine (accepts_feed x (decided_of_step ?_)).mpr hfits
    intro d' hstall
    rw [h] at hstall
    cases hstall

/--
InputPacket for the pieces of a stream.
-/
def run (d : FlvDemuxer) : List (List UInt8) → Result FlvDemuxer FlvOutput
  | [] => ([], some d)
  | data :: cuts => (d.inputPacket data).andThen fun d => d.run cuts

theorem handlePacket_events {ret : FlvRet} {events : List FlvEvent} (h : d.handlePacket = .ok (ret, d', events))
    (hret : ret ≠ .ok) : events = ret.reports := by
  cases hread : d.readHeaders with
  | mk ret1 d1 =>
    by_cases hok : ret1 = .ok
    . subst hok
      have hmap := handlePacket_of_tag hread
      cases htag : d1.handleTag with
      | error fault =>
        rw [hmap, htag] at h
        cases h
      | ok result =>
        obtain ⟨ret2, consumed, events2⟩ := result
        rw [hmap, htag] at h
        cases h
        rcases handleTag_ok htag with hret2 | ⟨-, -, -, hevents, -⟩
        . exact absurd hret2 hret
        . rw [hevents, List.append_nil]
    . rw [handlePacket_of_headers hread hok] at h
      cases h
      rfl

theorem readHeaders_again (h : d.readHeaders = (.ok, d')) : d'.readHeaders = (.ok, d') := by
  have hlen := (readHeaders_ok h).left
  have hready : d'.flvHeaderReady = true ∧ d'.tagHeaderReady = true := by
    refine ⟨?_, (readHeaders_ok h).right⟩
    unfold readHeaders at h
    cases hflv : d.readFlvHeader with
    | mk ret1 d1 =>
      rw [hflv] at h
      cases ret1 with
      | needMore | error => cases h
      | ok =>
        simp only at h
        cases htag : d1.readTagHeader with
        | mk ret2 d2 =>
          rw [htag] at h
          cases ret2 with
          | needMore | error => cases h
          | ok =>
            simp only at h
            split at h
            . cases h
            . cases h
              exact (readTagHeader_ready htag).right.trans (readFlvHeader_ready hflv)
  rw [readHeaders_ready hready.left hready.right, if_neg (by omega)]

theorem readFlvHeader_again {value : String} (h : d.readFlvHeader = (.error value, d'))
    : d'.readFlvHeader = (.error value, d') := by
  unfold readFlvHeader at h
  split at h
  . cases h
  . next hready =>
    split at h
    . cases h
    . next hlen =>
      simp only at h
      split at h
      . next hmark =>
        split at h
        . cases h
        . next hsize =>
          cases h
          unfold readFlvHeader
          simp only [hready, hlen, hmark, hsize, if_false, if_true, Bool.or_assoc, Bool.or_self,
            Bool.false_eq_true]
      . next hmark =>
        cases h
        unfold readFlvHeader
        simp only [hready, hlen, hmark, if_false, Bool.false_eq_true]

/--
An error is found again in the state in which it was found, and so is a tag that has not been consumed.
-/
theorem handlePacket_again {ret : FlvRet} {events : List FlvEvent}
    (h : d.handlePacket = .ok (ret, d', events)) (hready : ret = .ok → d'.tagHeaderReady = true)
    (hret : ret ≠ .needMore) : d'.handlePacket = .ok (ret, d', events) := by
  cases hread : d.readHeaders with
  | mk ret1 d1 =>
    by_cases hok : ret1 = .ok
    . subst hok
      have hmap := handlePacket_of_tag hread
      have hagain := handlePacket_of_tag (readHeaders_again hread)
      cases htag : d1.handleTag with
      | error fault =>
        rw [hmap, htag] at h
        cases h
      | ok result =>
        obtain ⟨ret2, consumed, events2⟩ := result
        rw [hmap, htag] at h
        cases consumed with
        | true =>
          cases h
          rcases handleTag_ok htag with hret2 | ⟨-, -, hconsumed, -⟩
          . exact absurd (hready hret2) Bool.false_ne_true
          . cases hconsumed
        | false =>
          cases h
          exact hagain.trans (congrArg _ htag)
    . rw [handlePacket_of_headers hread hok] at h
      cases h
      cases ret with
      | ok => exact absurd rfl hok
      | needMore => exact absurd rfl hret
      | error value =>
        have hflv := readFlvHeader_again (readHeaders_error.mp hread)
        exact handlePacket_of_headers (readHeaders_error.mpr hflv) hok

theorem handlePackets_succ (h : d.Accepts) (fuel : Nat)
    : handlePackets (fuel + 1) d = match d.step with
        | .stall d' => ([], some d')
        | .next d' out => Result.andThen (out, some d') (handlePackets fuel)
        | .fail out => (out, none) := by
  rw [accepts_iff] at h
  rw [handlePackets]
  unfold step
  cases hhandle : d.handlePacket with
  | error fault =>
    cases fault with
    | overrun => rfl
    | abort => rfl
  | ok result =>
    obtain ⟨ret, d', events⟩ := result
    cases ret with
    | ok =>
      simp only
      split
      . rfl
      . rfl
    | needMore =>
      rw [handlePacket_events hhandle FlvRet.noConfusion]
      rfl
    | error value =>
      rw [hhandle] at h
      exact absurd trivial h

theorem handlePackets_eq_drain (h : acceptingReader.Safe d) {fuel : Nat} (hfuel : d.buffer.length < fuel)
    : handlePackets fuel d = acceptingReader.drain d := by
  induction h generalizing fuel with
  | @stall d d' hfits hstep =>
    obtain ⟨fuel, rfl⟩ : ∃ n, fuel = n + 1 := ⟨fuel - 1, by omega⟩
    have hstep' : d.step = .stall d' := hstep
    rw [handlePackets_succ hfits, hstep', acceptingReader.drain_stall hstep]
  | @next d d' out hfits hstep hs ih =>
    obtain ⟨fuel, rfl⟩ : ∃ n, fuel = n + 1 := ⟨fuel - 1, by omega⟩
    have hstep' : d.step = .next d' out := hstep
    have hlt : d'.buffer.length < d.buffer.length := acceptingReader.rank_lt d d' out hstep
    rw [handlePackets_succ hfits, hstep', acceptingReader.drain_next hstep]
    simp only [Result.andThen_some]
    rw [ih (by omega)]
  | @fail d out hfits hstep =>
    obtain ⟨fuel, rfl⟩ : ∃ n, fuel = n + 1 := ⟨fuel - 1, by omega⟩
    have hstep' : d.step = .fail out := hstep
    rw [handlePackets_succ hfits, hstep', acceptingReader.drain_fail hstep]

/--
A loop that is left in a defined way, and that has nothing to report when it is entered again, has met nothing
wrong.
-/
theorem safe_of_handlePackets {fuel : Nat} (hfuel : d.buffer.length < fuel)
    (hdefined : .undefined ∉ (handlePackets fuel d).1)
    (hagain : ∀ d', (handlePackets fuel d).2 = some d' → (handlePackets (d'.buffer.length + 1) d').1 = [])
    : acceptingReader.Safe d := by
  induction fuel generalizing d with
  | zero => omega
  | succ fuel ih =>
    have hfits (h : ¬Refused d.handlePacket) : d.Accepts := (accepts_iff d).mpr h
    have hstep : acceptingReader.step d = d.step := rfl
    rw [handlePackets] at hdefined hagain
    unfold step at hstep
    cases hhandle : d.handlePacket with
    | error fault =>
      rw [hhandle] at hdefined hfits hstep
      cases fault with
      | overrun => exact absurd List.mem_cons_self hdefined
      | abort => exact .fail (hfits id) hstep
    | ok result =>
      obtain ⟨ret, d', events⟩ := result
      rw [hhandle] at hdefined hagain hfits hstep
      cases ret with
      | needMore => exact .stall (hfits id) hstep
      | error value =>
        have hsame := handlePacket_again hhandle FlvRet.noConfusion FlvRet.noConfusion
        have hempty := hagain d' rfl
        rw [handlePackets, hsame] at hempty
        rw [handlePacket_events hhandle FlvRet.noConfusion] at hempty
        exact absurd hempty (List.cons_ne_nil _ _)
      | ok =>
        have hlt := (handlePacket_length hhandle).right rfl
        simp only at hdefined hagain hstep
        by_cases hready : d'.tagHeaderReady = true
        . rw [if_pos hready] at hstep
          exact .fail (hfits id) hstep
        . rw [if_neg hready] at hdefined hagain hstep
          have hlt := hlt (Bool.eq_false_iff.mpr hready)
          simp only [Result.andThen_some, List.mem_append, not_or] at hdefined hagain
          exact .next (hfits id) hstep (ih (by omega) hdefined.right hagain)

theorem event_ne_undefined (events : List FlvEvent) : .undefined ∉ events.map FlvOutput.event := by
  simp

theorem undefined_not_mem_drain (h : acceptingReader.Safe d) : .undefined ∉ (acceptingReader.drain d).1 := by
  induction h with
  | stall hfits hstep =>
    rw [acceptingReader.drain_stall hstep]
    exact List.not_mem_nil
  | @next d d' out hfits hstep hs ih =>
    rw [acceptingReader.drain_next hstep, Result.andThen_some, List.mem_append, not_or]
    refine ⟨?_, ih⟩
    change d.step = _ at hstep
    unfold step at hstep
    split at hstep
    . cases hstep
    . cases hstep
    . cases hstep
    . cases hstep
    . split at hstep
      . cases hstep
      . cases hstep
        apply event_ne_undefined
  | @fail d out hfits hstep =>
    rw [acceptingReader.drain_fail hstep]
    have hsound := (accepts_iff d).mp hfits
    change d.step = _ at hstep
    unfold step at hstep
    split at hstep
    . next hhandle =>
      rw [hhandle] at hsound
      exact absurd trivial hsound
    . cases hstep
      exact List.not_mem_nil
    . cases hstep
    . cases hstep
      apply event_ne_undefined
    . split at hstep
      . cases hstep
        simp
      . cases hstep

theorem drain_length {out : List FlvOutput} (h : acceptingReader.drain d = (out, some d'))
    : d'.buffer.length ≤ d.buffer.length := by
  refine acceptingReader.drain_invariant (P := fun t => t.buffer.length ≤ d.buffer.length) ?_ ?_ (Nat.le_refl _) h
  . intro t t' hle hstep
    obtain ⟨events, hhandle⟩ := handlePacket_of_stall hstep
    exact Nat.le_trans (handlePacket_length hhandle).left hle
  . intro t t' out hle hstep
    exact Nat.le_trans (Nat.le_of_lt (acceptingReader.rank_lt t t' out hstep)) hle

theorem run_eq {cuts : List (List UInt8)} (hsafe : acceptingReader.Safe (d.feed cuts.flatten))
    (hlen : d.buffer.length + cuts.flatten.length ≤ maxBufferLen) : d.run cuts = acceptingReader.run d cuts := by
  induction cuts generalizing d with
  | nil => rfl
  | cons x xs ih =>
    have hfeed : d.feed (x ++ xs.flatten) = (d.feed x).feed xs.flatten := acceptingReader.feed_append ..
    rw [List.flatten_cons, hfeed] at hsafe
    rw [List.flatten_cons, List.length_append] at hlen
    have hsize : (d.feed x).buffer.length = d.buffer.length + x.length := length_feed x
    obtain ⟨hx, hxs⟩ := acceptingReader.safe_of_feed (d.feed x) xs.flatten hsafe
    rw [run, Reader.run, inputPacket, if_neg (by omega), handlePackets_eq_drain hx (by omega)]
    change _ = (acceptingReader.drain (d.feed x)).andThen _
    rcases hdrain : acceptingReader.drain (d.feed x) with ⟨out, _ | d'⟩
    . rfl
    . have := drain_length hdrain
      rw [Result.andThen_some, Result.andThen_some, ih (hxs out d' hdrain) (by omega)]

/--
The packets and errors do not depend on where the stream is cut if its size fits and nothing is wrong with the
bytes that are looked at, and only then.
-/
theorem output_independent_iff (s : List UInt8)
    : (∀ cuts cuts' : List (List UInt8), cuts.flatten = s → cuts'.flatten = s →
          (run {} cuts).1 = (run {} cuts').1 ∧ .undefined ∉ (run {} cuts).1)
        ↔ s.length ≤ maxBufferLen ∧ acceptingReader.Safe (({} : FlvDemuxer).feed s) := by
  have hquiet : acceptingReader.Quiet {} := rfl
  constructor
  . intro h
    have hone : (run {} [s]).1 = (run {} [s, []]).1 ∧ .undefined ∉ (run {} [s]).1 :=
      h [s] [s, []] (by simp) (by simp)
    obtain ⟨hsame, hdefined⟩ := hone
    have hsize : (({} : FlvDemuxer).feed s).buffer.length = s.length := rfl
    simp only [run, inputPacket, List.length_nil, Nat.zero_add, Nat.add_zero] at hsame hdefined
    by_cases hlen : maxBufferLen < s.length
    . rw [if_pos hlen] at hdefined
      exact absurd List.mem_cons_self hdefined
    . rw [if_neg hlen] at hsame hdefined
      rcases hloop : handlePackets (s.length + 1) (({} : FlvDemuxer).feed s) with ⟨out, rest⟩
      rw [hloop] at hsame hdefined
      refine ⟨Nat.le_of_not_lt hlen, safe_of_handlePackets (Nat.lt_succ_of_le (Nat.le_of_eq hsize)) ?_ ?_⟩
      . rw [hloop]
        cases rest with
        | none => exact hdefined
        | some d' => simpa using hdefined
      . rw [hloop]
        rintro d' rfl
        -- the second call must not put out anything behind what the first one did
        simp only [Result.andThen_some, List.append_nil, List.self_eq_append_right] at hsame
        have hfeed : d'.feed [] = d' := acceptingReader.feed_nil d'
        have hsecond := Result.eq_nil_of_andThen hsame
        rw [hfeed] at hsecond
        split at hsecond
        . cases hsecond
        . exact hsecond
  . rintro ⟨hlen, hsafe⟩ cuts cuts' hcuts hcuts'
    have hrun {cuts : List (List UInt8)} (h : cuts.flatten = s)
        : run {} cuts = acceptingReader.drain (({} : FlvDemuxer).feed s) := by
      rw [run_eq (by rw [h]; exact hsafe) (by rw [h]; simpa using hlen),
        acceptingReader.run_eq_drain _ _ hquiet (by rw [h]; exact hsafe), h]
      rfl
    rw [hrun hcuts, hrun hcuts']
    exact ⟨rfl, undefined_not_mem_drain hsafe⟩

/--
A file that is no FLV file is reported once for each call.
-/
theorem not_output_independent
    : ¬∀ (s : List UInt8) (cuts cuts' : List (List UInt8)), cuts.flatten = s → cuts'.flatten = s →
        (run {} cuts).1 = (run {} cuts').1 := by
  intro h
  have hsame := h _ [List.replicate 14 0x47] [List.replicate 13 0x47, [0x47]] rfl rfl
  have hlen : (run {} [List.replicate 14 0x47]).1.length = 1
      ∧ (run {} [List.replicate 13 0x47, [0x47]]).1.length = 2 := by
    decide
  rw [hsame] at hlen
  omega

end FlvDemuxer

end Flv
