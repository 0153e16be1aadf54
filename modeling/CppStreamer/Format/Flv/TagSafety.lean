import CppStreamer.Format.Flv.TagChecks

/-!
This module contains the states of the demuxer in which a tag is handled safely, and that such a tag comes to no fault.
-/

open ByteStream Checked Scan

namespace Flv

section Handled

variable {tagDataSize tagTimestamp : Nat} {p : List UInt8}

theorem getD_take {n i : Nat} (h : i < n) (data : List UInt8) : (data.take n).getD i 0 = data.getD i 0 := by
  rw [List.getD_eq_getElem?_getD, List.getD_eq_getElem?_getD, List.getElem?_take_of_lt h]

theorem read2Bytes_take {n : Nat} (h : 2 ≤ n) (data : List UInt8) : read2Bytes (data.take n) = read2Bytes data := by
  obtain ⟨n, rfl⟩ := Nat.exists_eq_add_of_le h
  rw [Nat.add_comm]
  rcases data with _ | ⟨b1, _ | ⟨b0, tail⟩⟩
  . rfl
  . rfl
  . rfl

theorem isAscHeader_take (h : 2 ≤ tagDataSize) (p : List UInt8)
    : FlvDemuxer.isAscHeader (p.take tagDataSize) = FlvDemuxer.isAscHeader p := by
  unfold FlvDemuxer.isAscHeader
  rw [getD_take (by omega), getD_take (by omega)]

theorem isVideoSeqHdr_take (h : 2 ≤ tagDataSize) (p : List UInt8)
    : IsVideoSeqHdr (p.take tagDataSize) ↔ IsVideoSeqHdr p := by
  unfold IsVideoSeqHdr
  rw [getD_take (by omega), getD_take (by omega)]

theorem SinkFits.asserted {headerLen : Nat} (hlen : tagDataSize ≤ p.length) (hsize : tagDataSize < 2 ^ 24)
    (h : SinkFits headerLen (p.take tagDataSize)) : SinkAsserted headerLen tagDataSize p := by
  have hdata : (p.take tagDataSize).length = tagDataSize := List.length_take_of_le hlen
  intro hheader hasc
  unfold SinkFits at h
  rw [hdata, getD_take (by omega)] at h
  rw [FlvDemuxer.isAscHeader, decide_eq_true_iff] at hasc
  obtain ⟨htwo, hfits⟩ := h hheader hasc.left
  rw [getD_take (by omega)] at hfits
  obtain ⟨hfour, hextended, -⟩ := hfits hasc.right
  rw [hdata] at hfour hextended
  have hfield : read2Bytes ((p.take tagDataSize).drop 2) = read2Bytes (p.drop 2) := by
    rw [List.drop_take, read2Bytes_take (by omega)]
  rw [hfield] at hextended
  have hascLen : (2 ^ 64 - 2 + (tagDataSize - headerLen)) % 2 ^ 64 = tagDataSize - headerLen - 2 := by omega
  have hint : Int.bmod (tagDataSize - headerLen - 2 : Nat) (2 ^ 32) = (tagDataSize - headerLen - 2 : Nat) :=
    Int.bmod_eq_of_le (by omega) (by omega)
  rw [hascLen]
  refine ⟨by omega, ?_⟩
  intro htype hindex
  have := hextended htype hindex
  rw [hint]
  omega

theorem NalusFit.inside {data : List UInt8} (h : NalusFit data) (rest : List UInt8)
    : NalusInside data.length (data ++ rest) := by
  induction h with
  | done => exact .done (Int.le_refl 0)
  | tooLong hlen hlong =>
    rw [← read4Bytes_append _ rest hlen] at hlong
    refine .tooLong (by omega) ?_ hlong
    rw [List.length_append]
    omega
  | @nalu data hpos hle hlen hrest ih =>
    have hread := read4Bytes_append data rest (by omega)
    have hleft : (data.length : Int) - 4 - read4Bytes (data ++ rest)
        = (data.drop (4 + read4Bytes data)).length := by
      rw [List.length_drop, hread]
      omega
    apply NalusInside.nalu (by omega)
    . rw [hread]
      exact hle
    . rw [hread, List.length_append]
      omega
    . rw [hleft, hread, List.drop_append_of_le_length hlen]
      exact ih

theorem SpsPpsFit.inside {n : Nat} {record : List UInt8} (hn : n ≤ record.length) (h : SpsPpsFit (record.take n))
    : ParameterSetsInside n record := by
  have hlen : (record.take n).length = n := List.length_take_of_le hn
  intro hpos hmarker
  rcases h with hempty | ⟨hfive, hne⟩ | ⟨hsix, hne⟩ | hinside
  . rw [hempty, List.length_nil] at hlen
    omega
  . rw [hlen] at hfive
    rw [getD_take (by omega)] at hne
    exact absurd (hmarker hfive).left hne
  . rw [hlen] at hsix
    rw [getD_take (by omega)] at hne
    exact absurd (hmarker (by omega)).right hne
  . have hsps : read2Bytes ((record.take n).drop 6) = read2Bytes (record.drop 6) := by
      rw [List.drop_take, read2Bytes_take (by omega)]
    rw [hsps, hlen] at hinside
    rw [List.drop_take, read2Bytes_take (by omega)] at hinside
    omega

theorem MetaComplete.metaScan (hlen : tagDataSize ≤ p.length) (hsize : tagDataSize < 2 ^ 24)
    (h : MetaComplete (p.take tagDataSize))
    : FlvDemuxer.readsInside p.length (FlvDemuxer.metaScan tagDataSize p).1
        ∧ (FlvDemuxer.metaScan tagDataSize p).2 ≠ none := by
  have hdata : (p.take tagDataSize).length = tagDataSize := List.length_take_of_le hlen
  have hmem : Holds (p.getD · 0) tagDataSize (p.take tagDataSize) := Amf.memory_holds hlen fun _ => 0
  have hcursor : cursor tagDataSize (p.take tagDataSize) = ⟨0, tagDataSize⟩ := Amf.memory_cursor hlen
  have hfuel : 2 * (p.take tagDataSize).length < 2 * p.length + 2 := by omega
  obtain ⟨hsafe, hreturns⟩ := (scanMetaData_returns (by omega) hmem hfuel).mpr h
  rw [hcursor] at hsafe hreturns
  rw [scanMetaData_outcome] at hreturns
  refine ⟨?_, hreturns⟩
  unfold FlvDemuxer.readsInside
  rw [List.all_eq_true]
  intro access haccess
  have hwithin := scanMetaData_safe hsafe access haccess
  cases access with
  | read offset len =>
    unfold Access.Within at hwithin
    simp only [decide_eq_true_eq]
    omega
  | move c => rfl

theorem AudioFits.handled (hlen : tagDataSize ≤ p.length) (h : AudioFits (p.take tagDataSize))
    : ∃ result, FlvDemuxer.handleAudio tagDataSize tagTimestamp p = .ok result := by
  have hdata : (p.take tagDataSize).length = tagDataSize := List.length_take_of_le hlen
  have hpos : 0 < tagDataSize := by
    rw [← hdata]
    exact List.length_pos_of_ne_nil h.left
  obtain ⟨-, hcodec⟩ := h
  rw [getD_take hpos, hdata] at hcodec
  unfold FlvDemuxer.handleAudio
  split
  . exact ⟨_, rfl⟩
  . next codecType hsome =>
    rw [hsome] at hcodec
    obtain ⟨htwo, hasc⟩ := hcodec (Option.some_ne_none _)
    rw [isAscHeader_take htwo] at hasc
    rw [if_neg fun h => hasc h.left]
    have hasserted : SinkAsserted 2 tagDataSize p := fun _ h => absurd h hasc
    exact ⟨_, (sinkData_bind_eq_ok hlen (f := fun events => (FlvRet.ok, true, events))).mpr ⟨hasserted, rfl⟩⟩

theorem VideoFits.handled (hlen : tagDataSize ≤ p.length) (hsize : tagDataSize < 2 ^ 24)
    (h : VideoFits (p.take tagDataSize))
    : ∃ result, FlvDemuxer.handleVideo tagDataSize tagTimestamp p = .ok result := by
  have hdata : (p.take tagDataSize).length = tagDataSize := List.length_take_of_le hlen
  have hheader := h.length
  rw [hdata] at hheader
  have hextra : FlvDemuxer.extraLen tagDataSize = tagDataSize - 5 := by
    unfold FlvDemuxer.extraLen
    omega
  have hbody : ((p.take tagDataSize).drop 5).length = tagDataSize - 5 := by rw [List.length_drop, hdata]
  have hseqHdr : decide (p.getD 0 0 &&& 0xf0 = videoKeyFlag ∧ p.getD 1 0 = 0x00) = true ↔ IsVideoSeqHdr p :=
    decide_eq_true_iff
  have hseqTake := isVideoSeqHdr_take (by omega : 2 ≤ tagDataSize) p
  have hrecord := h.parameterSets
  have havc := h.avcNalus
  have hhevc := h.hevcNalus
  have hraw := h.raw
  rw [getD_take (by omega)] at hrecord havc hhevc hraw
  rw [hseqTake, hdata] at hrecord havc hhevc
  have hnalus (hfit : 9 ≤ tagDataSize → NalusFit ((p.take tagDataSize).drop 5))
      : avcc2Nalus (tagDataSize - 5) (p.drop 5) ≠ none := by
    intro hnone
    obtain ⟨hfour, houtside⟩ := (avcc2Nalus_eq_none _ _).mp hnone
    have hinside := (hfit (by omega)).inside ((p.drop 5).drop (tagDataSize - 5))
    rw [hbody, List.drop_take, List.take_append_drop] at hinside
    exact houtside hinside
  unfold FlvDemuxer.handleVideo
  simp only
  split
  . next hsets =>
    obtain ⟨hseq, h264, hshort⟩ := hsets
    have hfit := hrecord (hseqHdr.mp hseq) h264 (by omega)
    rw [List.drop_take] at hfit
    have hinside := hfit.inside (by rw [List.length_drop]; omega)
    cases hresult : getSpsPpsFromExtraData (FlvDemuxer.extraLen tagDataSize) (p.drop 5) with
    | none =>
      rw [hextra] at hresult
      exact absurd hinside ((getSpsPpsFromExtraData_eq_none _ _).mp hresult)
    | some parameterSets => exact ⟨_, rfl⟩
  . next hnotSets =>
    split
    . exact ⟨_, rfl⟩
    . next hnotHevc =>
      split
      . next hcodec =>
        split
        . have hsome : avcc2Nalus (tagDataSize - 5) (p.drop 5) ≠ none := by
            rcases hcodec with h264 | h265
            . apply hnalus (havc h264 _)
              intro hseq
              have : ¬FlvDemuxer.extraLen tagDataSize < 512 := fun hshort => hnotSets ⟨hseqHdr.mpr hseq, h264, hshort⟩
              omega
            . exact hnalus (hhevc h265 fun hseq => hnotHevc ⟨hseqHdr.mpr hseq, h265⟩)
          obtain ⟨nalus, hresult⟩ := Option.ne_none_iff_exists'.mp hsome
          rw [hresult]
          exact ⟨_, rfl⟩
        . exact ⟨_, rfl⟩
      . next hother =>
        have hsink := hraw (fun h264 => hother (Or.inl h264)) (fun h265 => hother (Or.inr h265))
        exact ⟨_, (sinkData_bind_eq_ok hlen (f := fun events => (FlvRet.ok, true, _))).mpr
          ⟨hsink.asserted hlen hsize, rfl⟩⟩

theorem MetaComplete.handled (hlen : tagDataSize ≤ p.length) (hsize : tagDataSize < 2 ^ 24)
    (h : MetaComplete (p.take tagDataSize)) (hsink : SinkFits 0 (p.take tagDataSize))
    : ∃ result, FlvDemuxer.handleMeta tagDataSize tagTimestamp p = .ok result := by
  obtain ⟨hinside, hdecoded⟩ := h.metaScan hlen hsize
  unfold FlvDemuxer.handleMeta
  rw [if_pos hinside]
  rcases hresult : (FlvDemuxer.metaScan tagDataSize p).2 with _ | ⟨ok, c⟩
  . exact absurd hresult hdecoded
  . cases ok with
    | false => exact ⟨_, rfl⟩
    | true =>
      exact ⟨_, (sinkData_bind_eq_ok hlen (f := fun events => (FlvRet.ok, true, events))).mpr
        ⟨hsink.asserted hlen hsize, rfl⟩⟩

end Handled

namespace FlvDemuxer

variable {d d' : FlvDemuxer} {ret : FlvRet} {events : List FlvEvent}

/--
While a tag is handled, whatever is behind the buffer, all of its checks hold.
-/
def TagSafe (d : FlvDemuxer) : Prop :=
  ∀ d' beyond, d.readHeaders = (.ok, d') →
    (checkTag (Amf.memory d'.buffer beyond) d'.tagType d'.tagDataSize).Passes (TagCheck.Holds d'.tagDataSize)

theorem readFlvHeader_size (h : d.readFlvHeader = (ret, d')) : d'.tagDataSize = d.tagDataSize := by
  unfold readFlvHeader at h
  split at h
  . cases h
    rfl
  . split at h
    . cases h
      rfl
    . simp only at h
      split at h
      . split at h
        all_goals
          cases h
          rfl
      . cases h
        rfl

/--
The size of a tag has three bytes.
-/
theorem readTagHeader_size (hsize : d.tagDataSize < 2 ^ 24) (h : d.readTagHeader = (ret, d'))
    : d'.tagDataSize < 2 ^ 24 := by
  unfold readTagHeader at h
  split at h
  . cases h
    exact hsize
  . split at h
    . cases h
      exact hsize
    . cases h
      apply read3Bytes_lt

theorem readHeaders_size (hsize : d.tagDataSize < 2 ^ 24) (h : d.readHeaders = (ret, d'))
    : d'.tagDataSize < 2 ^ 24 := by
  unfold readHeaders at h
  cases hflv : d.readFlvHeader with
  | mk ret1 d1 =>
    have hsize1 : d1.tagDataSize < 2 ^ 24 := by
      rw [readFlvHeader_size hflv]
      exact hsize
    rw [hflv] at h
    cases ret1 with
    | needMore | error =>
      cases h
      exact hsize1
    | ok =>
      simp only at h
      cases htag : d1.readTagHeader with
      | mk ret2 d2 =>
        have hsize2 := readTagHeader_size hsize1 htag
        rw [htag] at h
        cases ret2 with
        | needMore | error =>
          cases h
          exact hsize2
        | ok =>
          simp only at h
          split at h
          all_goals
            cases h
            exact hsize2

/--
The states that the demuxer comes to by receiving bytes and handling packets.
-/
inductive Received : FlvDemuxer → Prop where
  | start : Received {}
  | feed {d : FlvDemuxer} (data : List UInt8) (h : Received d) : Received (d.feed data)
  | packet {d d' : FlvDemuxer} {ret : FlvRet} {events : List FlvEvent} (h : Received d)
      (hpacket : d.handlePacket = .ok (ret, d', events)) : Received d'

theorem handlePacket_size (hsize : d.tagDataSize < 2 ^ 24) (h : d.handlePacket = .ok (ret, d', events))
    : d'.tagDataSize < 2 ^ 24 := by
  cases hread : d.readHeaders with
  | mk ret1 d1 =>
    have hsize1 := readHeaders_size hsize hread
    by_cases hok : ret1 = .ok
    . subst hok
      rw [handlePacket_of_tag hread] at h
      cases htag : d1.handleTag with
      | error fault =>
        rw [htag] at h
        cases h
      | ok result =>
        rw [htag] at h
        obtain ⟨ret2, consumed, events2⟩ := result
        cases consumed with
        | false =>
          cases h
          exact hsize1
        | true =>
          cases h
          exact hsize1
    . rw [handlePacket_of_headers hread hok] at h
      cases h
      exact hsize1

theorem Received.size (h : Received d) : d.tagDataSize < 2 ^ 24 := by
  induction h with
  | start => decide
  | feed data h ih => exact ih
  | packet h hpacket ih => exact handlePacket_size ih hpacket

/--
A tag is handled safely exactly if it has the bytes of its media header and does not begin with the header of an AAC
stream, and if what is announced in it is inside.
-/
theorem tagSafe_iff (h : Received d)
    : d.TagSafe ↔ ∀ d', d.readHeaders = (.ok, d') → TagFits d'.tagType (d'.buffer.take d'.tagDataSize) := by
  have hchecks (d' : FlvDemuxer) (beyond : Nat → UInt8) (hread : d.readHeaders = (.ok, d'))
      : (checkTag (Amf.memory d'.buffer beyond) d'.tagType d'.tagDataSize).Passes (TagCheck.Holds d'.tagDataSize)
        ↔ TagFits d'.tagType (d'.buffer.take d'.tagDataSize) := by
    have hfull := (readHeaders_ok hread).left
    have hlen : (d'.buffer.take d'.tagDataSize).length = d'.tagDataSize := by
      rw [List.length_take]
      omega
    have hmem : Holds (Amf.memory d'.buffer beyond) (d'.buffer.take d'.tagDataSize).length
        (d'.buffer.take d'.tagDataSize) := by
      rw [hlen]
      exact Amf.memory_holds (by omega) beyond
    have hsize : (d'.buffer.take d'.tagDataSize).length < 2 ^ 24 := by
      rw [hlen]
      exact readHeaders_size h.size hread
    have hpasses := checkTag_passes d'.tagType hmem hsize
    rwa [hlen] at hpasses
  constructor
  . intro hsafe d' hread
    exact (hchecks d' (fun _ => 0) hread).mp (hsafe d' _ hread)
  . intro hfits d' beyond hread
    exact (hchecks d' beyond hread).mpr (hfits d' hread)

/--
A tag that is safe to handle comes to no fault.
-/
theorem handleTag_of_fits (hlen : d.tagDataSize + tagPreSize ≤ d.buffer.length) (hsize : d.tagDataSize < 2 ^ 24)
    (h : TagFits d.tagType (d.buffer.take d.tagDataSize)) : ∃ result, d.handleTag = .ok result := by
  have htag : d.tagDataSize ≤ d.tag.length := by
    rw [length_tag hlen]
    exact Nat.le_add_right _ _
  have hdata : d.tag.take d.tagDataSize = d.buffer.take d.tagDataSize := by
    rw [tag, List.take_take, Nat.min_eq_left (Nat.le_add_right _ _)]
  rw [← hdata] at h
  unfold handleTag
  split
  . next haudio => exact (h.audio haudio).handled htag
  . split
    . next hvideo => exact (h.video hvideo).handled htag hsize
    . split
      . next hmeta => exact (h.metadata hmeta).left.handled htag hsize (h.metadata hmeta).right
      . exact ⟨_, rfl⟩

/--
A file with one tag.
-/
def fileWith (tagType : UInt8) (data : List UInt8) : List UInt8 :=
  [0x46, 0x4c, 0x56, 0x01, 0x05, 0x00, 0x00, 0x00, 0x09, 0x00, 0x00, 0x00, 0x00]
    ++ tagType :: write3Bytes data.length ++ [0x00, 0x00, 0x00, 0x00, 0x00, 0x00, 0x00]
    ++ data ++ write4Bytes (data.length + 11)

/--
A NALU of H.264 with one byte.
-/
theorem tagSafe_sample
    : (({} : FlvDemuxer).feed (fileWith 9 [0x17, 0x01, 0x00, 0x00, 0x00, 0x00, 0x00, 0x00, 0x01, 0x65])).TagSafe := by
  apply (tagSafe_iff (.feed _ .start)).mpr
  intro d' hread
  cases hread
  refine ⟨fun haudio => absurd haudio (by decide), fun _ => ?_, fun hmeta => absurd hmeta (by decide)⟩
  refine ⟨by decide, fun hseq => absurd hseq (by decide), fun _ _ _ => ?_, fun h265 => absurd h265 (by decide),
    fun h264 => absurd rfl h264⟩
  exact .nalu (by decide) (by decide) (by decide) .done

/--
The header of an AAC stream, whose length is taken from a packet that is still empty.
-/
theorem not_tagSafe : ¬∀ d, Received d → d.TagSafe := by
  intro h
  have hchecks := h _ (.feed (fileWith 8 [0xaf, 0x00, 0x12, 0x10]) .start) _ (fun _ => 0) rfl
  have hpass : TagCheck.Holds 4 (.pass 2 (2 ^ 64 - 2)) := hchecks _ (.tail _ (.tail _ (.head _)))
  exact absurd hpass (by unfold TagCheck.Holds; omega)

end FlvDemuxer

end Flv
