import CppStreamer.Basic.Traverse
import CppStreamer.Format.Sdp.SectionsRead

/-!
This module contains which descriptions are read as what they have been written from.
-/

open StringEx

namespace Sdp

variable {stack : UInt32 → Bool × UInt32} {draws : Draws} {s : SdpTransform} {videoInfo rtxInfo audioInfo : SSRCInfo}

/--
A description of audio and video with one stream of each, and one of the retransmissions of the video. If the audio has
no id, the one that is drawn is new.
-/
structure Describes (draws : Draws) (s : SdpTransform) (videoInfo rtxInfo audioInfo : SSRCInfo) : Prop where
  video : (s.ssrcInfoMap.infos.filter (·.isVideo)).filter (!·.isRtx) = [videoInfo]
  rtx : (s.ssrcInfoMap.infos.filter (·.isVideo)).filter (·.isRtx) = [rtxInfo]
  audio : s.ssrcInfoMap.infos.filter (!·.isVideo) = [audioInfo]
  rtxSsrc : videoInfo.rtxSsrc = rtxInfo.ssrc ∧ rtxInfo.rtxSsrc = videoInfo.ssrc
  apt : ∀ info ∈ s.video.fmtpVec ++ s.audio.fmtpVec, info.isRtx = (utf8 "apt=").isPrefixOf info.attrString
  codecs : ∀ info ∈ s.video.rtpMapInfos.infos ++ s.audio.rtpMapInfos.infos, 32 ∉ info.codecType ∧ 47 ∉ info.codecType
  plain : ∀ text ∈ [s.protoVer, s.sessionName, s.setup, draws.sessionId] ++ draws.texts ++ s.dtls.texts
    ++ s.video.texts ++ s.audio.texts ++ s.ssrcInfoMap.infos.flatMap SSRCInfo.texts, 10 ∉ text
  drawn : audioInfo.ssrc = 0 → draws.audioSsrc ≠ videoInfo.ssrc ∧ draws.audioSsrc ≠ rtxInfo.ssrc

/--
The entries of a section are the same, an `fmtp` entry with its flag.
-/
structure SameSection (m m' : Media) : Prop where
  ptVec : m'.ptVec = m.ptVec
  rtpMapInfos : m'.rtpMapInfos = m.rtpMapInfos
  fmtpVec : m'.fmtpVec.map (fun info => (info.payloadType, info.attrString, info.isRtx))
    = m.fmtpVec.map fun info => (info.payloadType, info.attrString, info.isRtx)
  rtcpfbVec : m'.rtcpfbVec = m.rtcpfbVec

/--
A new `SdpTransform` parses the text, and it has the sections and the streams of the video.
-/
def RoundTrips (stack : UInt32 → Bool × UInt32) (draws : Draws) (dtls : RtcDtls) (hasVideo hasAudio : Bool)
    (s : SdpTransform) : Prop :=
  ∃ p, SdpTransform.parse stack { dtls := dtls } (s.genSdpString draws hasVideo hasAudio).1 = some p
    ∧ SameSection s.video p.video ∧ SameSection s.audio p.audio
    ∧ p.ssrcInfoMap.infos.filter (·.isVideo) = s.ssrcInfoMap.infos.filter (·.isVideo)

/--
The audio section is there, what is not written has its default, `apt` is only where a retransmission has it, and no
text is cut at its end or at a space.
-/
structure Kept (s : SdpTransform) (videoInfo rtxInfo : SSRCInfo) : Prop where
  audioPts : s.audio.ptVec ≠ []
  videoChannels : ∀ info ∈ s.video.rtpMapInfos.infos, info.channel = 0
  audioChannels : ∀ info ∈ s.audio.rtpMapInfos.infos, 0 ≤ info.channel
  fmtps : ∀ info ∈ s.video.fmtpVec ++ s.audio.fmtpVec, info.attrString.getLast? ≠ some 13
    ∧ ((utf8 "apt=").isPrefixOf info.attrString ∨ find aptAttr info.attrString = none)
  rtcpFbs : ∀ info ∈ s.video.rtcpfbVec ++ s.audio.rtcpfbVec, info.attrString.getLast? ≠ some 13
  ssrcs : ∀ info ∈ [videoInfo, rtxInfo],
    32 ∉ info.msid ∧ info.msidAppdata.getLast? ≠ some 13 ∧ info.cname.getLast? ≠ some 13

section Entries

theorem readRtpMap_video_iff (info : RtpMapInfo) : Item.readRtpMap true info = info ↔ info.channel = 0 := by
  obtain ⟨payloadType, codecType, clockRate, channel⟩ := info
  simp [Item.readRtpMap, eq_comm]

theorem readRtpMap_audio_iff (info : RtpMapInfo) : Item.readRtpMap false info = info ↔ 0 ≤ info.channel := by
  obtain ⟨payloadType, codecType, clockRate, channel⟩ := info
  have hzero : (0 : Int32) ≤ channel ↔ 0 < channel ∨ channel = 0 := by
    rw [Int32.le_iff_toInt_le, Int32.lt_iff_toInt_lt, ← Int32.toInt_inj]
    omega
  simp only [Item.readRtpMap, hzero, RtpMapInfo.mk.injEq, true_and, Bool.not_false]
  by_cases hpos : 0 < channel <;> simp [hpos, eq_comm]

theorem readRtcpFb_iff (info : RtcpFbInfo) : Item.readRtcpFb info = info ↔ info.attrString.getLast? ≠ some 13 := by
  rw [← removeSubfix_eq_self_iff]
  obtain ⟨payloadType, attrString⟩ := info
  simp [Item.readRtcpFb]

/--
An entry is read with its flag if `apt` is where it has to be.
-/
theorem readFmtp_iff (isVideo : Bool) {info : FmtpInfo} (hapt : info.isRtx = (utf8 "apt=").isPrefixOf info.attrString)
    : (∃ read, Item.readFmtp isVideo info = some read
        ∧ (read.payloadType, read.attrString, read.isRtx) = (info.payloadType, info.attrString, info.isRtx))
      ↔ info.attrString.getLast? ≠ some 13
        ∧ ((utf8 "apt=").isPrefixOf info.attrString ∨ find aptAttr info.attrString = none) := by
  constructor
  . rintro ⟨read, hread, hkeys⟩
    rw [Item.readFmtp, Sections.fmtpInfo] at hread
    rw [← removeSubfix_eq_self_iff]
    split at hread
    next hnone =>
      cases hread
      simp only [Prod.mk.injEq] at hkeys
      rw [hkeys.2.1] at hnone
      exact ⟨hkeys.2.1, Or.inr hnone⟩
    next pos hpos =>
      obtain ⟨text, htext, hinfo⟩ := Option.bind_eq_some_iff.mp hread
      cases hinfo
      simp only [Prod.mk.injEq] at hkeys
      exact ⟨hkeys.2.1, Or.inl (hapt ▸ hkeys.2.2.symm)⟩
  . rintro ⟨hend, hcases⟩
    rw [Item.readFmtp, removeSubfix_eq_self_iff.mpr hend, Sections.fmtpInfo]
    by_cases hnames : (utf8 "apt=").isPrefixOf info.attrString
    . obtain ⟨rest, hrest⟩ := List.isPrefixOf_iff_prefix.mp hnames
      have hpos : find aptAttr info.attrString = some 0 := by
        rw [← hrest]
        exact find_eq_zero_iff.mpr rfl
      have htext : substr info.attrString (0 + aptAttr.length + 1) = some rest := by
        rw [← hrest]
        exact substr_front (by decide) rest
      rw [hpos]
      simp only [htext, Option.bind_eq_bind, Option.bind_some]
      exact ⟨_, rfl, by rw [hapt, hnames]⟩
    . have hnone := hcases.resolve_left hnames
      rw [hnone]
      refine ⟨_, rfl, ?_⟩
      rw [hapt]
      simp [hnames]

theorem readMsid_iff (msid appdata : List UInt8)
    : Item.readMsid msid appdata = (msid, appdata) ↔ 32 ∉ msid ∧ appdata.getLast? ≠ some 13 := by
  rw [← removeSubfix_eq_self_iff]
  constructor
  . intro h
    rw [Item.readMsid, Prod.mk.injEq] at h
    have hmsid : 32 ∉ msid := by
      rw [← h.1]
      intro hmem
      simpa using List.mem_takeWhile_imp hmem
    exact ⟨hmsid, (readMsid_cut hmsid).2.symm.trans h.2⟩
  . rintro ⟨hmsid, happdata⟩
    rw [Item.readMsid, happdata, (readMsid_cut hmsid).1, (readMsid_cut hmsid).2]

theorem readSsrcInfo_iff {isVideo : Bool} {info : SSRCInfo} (hvideo : info.isVideo = isVideo)
    : Sections.readSsrcInfo isVideo info = info
      ↔ 32 ∉ info.msid ∧ info.msidAppdata.getLast? ≠ some 13 ∧ info.cname.getLast? ≠ some 13 := by
  have hmsid := readMsid_iff info.msid info.msidAppdata
  rw [Prod.ext_iff] at hmsid
  rw [← and_assoc, ← hmsid, ← removeSubfix_eq_self_iff]
  obtain ⟨ssrc, isVideo', isRtx, msid, appdata, cname, rtxSsrc⟩ := info
  simp only [Sections.readSsrcInfo, SSRCInfo.mk.injEq, true_and, and_true, and_assoc] at hvideo ⊢
  exact and_iff_right hvideo.symm

/--
A section that has been read into an empty one is the same if each of its entries is.
-/
theorem sameSection_read_iff (m : Media) (isVideo : Bool) (fmtps : List FmtpInfo) (fids : List UInt32)
    : SameSection m { ({ ptVec := m.ptVec } : Media).read m isVideo fmtps with fidVec := fids }
      ↔ (∀ info ∈ m.rtpMapInfos.infos, Item.readRtpMap isVideo info = info)
        ∧ fmtps.map (fun info => (info.payloadType, info.attrString, info.isRtx))
          = m.fmtpVec.map (fun info => (info.payloadType, info.attrString, info.isRtx))
        ∧ ∀ info ∈ m.rtcpfbVec, info.attrString.getLast? ≠ some 13 := by
  have hrtpMaps := KeyedMap.foldl_insert_eq_iff (f := Item.readRtpMap isVideo) (fun _ => rfl) m.rtpMapInfos
  have hrtcpFbs : m.rtcpfbVec.map Item.readRtcpFb = m.rtcpfbVec
      ↔ ∀ info ∈ m.rtcpfbVec, info.attrString.getLast? ≠ some 13 := by
    conv_lhs => rhs; rw [← List.map_id m.rtcpfbVec]
    rw [List.map_inj_left]
    exact forall₂_congr fun info _ => readRtcpFb_iff info
  rw [← hrtpMaps, ← hrtcpFbs]
  constructor
  . intro h
    exact ⟨h.rtpMapInfos, h.fmtpVec, h.rtcpfbVec⟩
  . rintro ⟨hmaps, hfmtps, hfbs⟩
    exact ⟨rfl, hmaps, hfmtps, hfbs⟩

end Entries

/--
The stream that is written for the audio once more.
-/
def drawnInfo (draws : Draws) (s : SdpTransform) (audioInfo : SSRCInfo) : SSRCInfo where
  ssrc := if audioInfo.ssrc = 0 then draws.audioSsrc else audioInfo.ssrc
  isVideo := false
  isRtx := false
  msid := utf8 "-"
  msidAppdata := (SdpTransform.withMsid draws s.audio false).msid
  cname := draws.audioCname
  rtxSsrc := 0

def readVideo (stack : UInt32 → Bool × UInt32) (s : SdpTransform) (videoInfo rtxInfo : SSRCInfo)
    (fmtps : List FmtpInfo) : Sections :=
  ((Sections.start {} true s.video.ptVec).readMedia s.video true fmtps).readGroup stack videoInfo rtxInfo

def readAudio (stack : UInt32 → Bool × UInt32) (draws : Draws) (s : SdpTransform) (audioInfo : SSRCInfo) (v : Sections)
    (fmtps : List FmtpInfo) : Sections :=
  (((v.start false s.audio.ptVec).readMedia s.audio false fmtps).readSsrc stack audioInfo).readSsrc stack
    (drawnInfo draws s audioInfo)

section Read

variable (stack : UInt32 → Bool × UInt32) (s : SdpTransform) (videoInfo rtxInfo : SSRCInfo) (fmtps : List FmtpInfo)

theorem current_readVideo : (readVideo stack s videoInfo rtxInfo fmtps).currentIsVideo = true := by
  rw [readVideo, Sections.readGroup, Sections.current_addFid, Sections.current_readSsrc, Sections.current_readSsrc,
    (ReadsInto.readMedia _ _ _).current, Sections.current_start]
  split <;> rfl

theorem media_readVideo (isVideo : Bool)
    : ∃ fids, (readVideo stack s videoInfo rtxInfo fmtps).media isVideo
      = if isVideo then { ({ ptVec := s.video.ptVec } : Media).read s.video true fmtps with fidVec := fids }
        else { fidVec := fids } := by
  have hcurrent : (Sections.start {} true s.video.ptVec).currentIsVideo = true := by
    rw [Sections.current_start]
    split <;> rfl
  obtain ⟨fids, hfids⟩ := Sections.media_addFid (((((Sections.start {} true s.video.ptVec).readMedia s.video true
    fmtps).readSsrc stack videoInfo).readSsrc stack rtxInfo)) videoInfo.ssrc rtxInfo.ssrc isVideo
  rw [Sections.media_readSsrc, Sections.media_readSsrc, (ReadsInto.readMedia _ _ _).media, hcurrent,
    Sections.media_start] at hfids
  refine ⟨fids, hfids.trans ?_⟩
  cases isVideo <;> rfl

theorem media_readAudio (draws : Draws) (audioInfo : SSRCInfo) {v : Sections} (hpts : s.audio.ptVec ≠ [])
    (isVideo : Bool)
    : (readAudio stack draws s audioInfo v fmtps).media isVideo
      = if isVideo then v.media true
        else { v.media false with ptVec := (v.media false).ptVec ++ s.audio.ptVec }.read s.audio false fmtps := by
  rw [readAudio, Sections.media_readSsrc, Sections.media_readSsrc, (ReadsInto.readMedia _ _ _).media,
    Sections.current_start, if_neg hpts, Sections.media_start]
  cases isVideo <;> rfl

end Read

namespace Describes

theorem plainSection (h : Describes draws s videoInfo rtxInfo audioInfo) (isVideo : Bool)
    : PlainSection draws s isVideo := by
  have hplain := h.plain
  simp only [List.forall_mem_append, List.forall_mem_cons] at hplain
  obtain ⟨⟨⟨⟨⟨⟨_, _, hsetup, _⟩, hdraws⟩, hdtls⟩, hvideo⟩, haudio⟩, hssrcs⟩ := hplain
  have hcodecs := h.codecs
  rw [List.forall_mem_append] at hcodecs
  refine ⟨hsetup, hdraws, hdtls, ?_, ?_, ?_⟩
  . cases isVideo
    . exact haudio
    . exact hvideo
  . cases isVideo
    . exact fun info hinfo => (hcodecs.2 info hinfo).2
    . exact fun info hinfo => (hcodecs.1 info hinfo).2
  . exact fun info hinfo text htext => hssrcs text (List.mem_flatMap.mpr ⟨info, hinfo, htext⟩)

theorem sound_items (h : Describes draws s videoInfo rtxInfo audioInfo) (hasVideo hasAudio : Bool)
    : ∀ item ∈ s.items draws hasVideo hasAudio, item.Sound := by
  have hplain := h.plain
  simp only [List.forall_mem_append, List.forall_mem_cons] at hplain
  obtain ⟨⟨⟨⟨⟨⟨hver, hname, _, hid, -⟩, _⟩, _⟩, _⟩, _⟩, _⟩ := hplain
  have hvideo : PlainSection draws (s.named draws) true := { h.plainSection true with }
  have haudio : PlainSection draws ((s.named draws).getDesc draws true).2 false := { h.plainSection false with }
  simp only [SdpTransform.items, List.forall_mem_append, List.forall_mem_map]
  refine ⟨⟨⟨⟨⟨⟨?_, ?_⟩, ?_⟩, ?_⟩, sound_basicAttr _ _⟩, hvideo.sound_descItems⟩, haudio.sound_descItems⟩
  . intro line hline
    rw [List.mem_singleton.mp hline]
    exact ⟨readable_version _, List.not_mem_append (by decide) hver⟩
  . intro line hline
    rw [List.mem_singleton.mp hline, List.append_assoc]
    exact ⟨readable_session _, List.not_mem_append (by decide) (List.not_mem_append hid (by decide))⟩
  . intro line hline
    rw [List.mem_singleton.mp hline]
    refine ⟨readable_name _, List.not_mem_append (by decide) ?_⟩
    change 10 ∉ if s.sessionName = [] then utf8 "cpp_streamer" else s.sessionName
    split
    . decide
    . exact hname
  . intro line hline
    rw [List.mem_singleton.mp hline, List.append_assoc]
    exact sound_unknown (by decide) (List.not_mem_append (plain_int _) (plain_cons (by decide) (plain_int _)))

/--
What is read is what the lines say.
-/
theorem parse_eq (h : Describes draws s videoInfo rtxInfo audioInfo) (dtls : RtcDtls) (hasVideo hasAudio : Bool)
    : (SdpTransform.parse stack { dtls := dtls } (s.genSdpString draws hasVideo hasAudio).1).map (·.toSections)
      = (s.items draws hasVideo hasAudio).foldlM (Item.apply stack) {} := by
  have hsound := h.sound_items hasVideo hasAudio
  have hparse : (SdpTransform.parse stack { dtls := dtls }
      (((s.items draws hasVideo hasAudio).map Item.line).flatMap fun text => text ++ [10])).map (·.toSections) = _ :=
    Item.parse_lines (fun item hitem => (hsound item hitem).1) (fun item hitem => (hsound item hitem).2)
  rw [SdpTransform.map_line_items] at hparse
  exact hparse

theorem ssrcsItems_video (h : Describes draws s videoInfo rtxInfo audioInfo) {s' : SdpTransform}
    (hs' : s'.ssrcInfoMap = s.ssrcInfoMap)
    : s'.ssrcsItems draws true = SdpTransform.ssrcItems videoInfo ++ SdpTransform.ssrcItems rtxInfo
      ++ [.fid videoInfo.ssrc rtxInfo.ssrc, .other (utf8 "a=rtcp-mux"), .other (utf8 "a=rtcp-rsize")] := by
  simp [SdpTransform.ssrcsItems, SdpTransform.getSsrcs, SdpTransform.lastSsrc, hs', h.video, h.rtx]

theorem ssrcsItems_audio (h : Describes draws s videoInfo rtxInfo audioInfo) {s' : SdpTransform}
    (hs' : s'.ssrcInfoMap = s.ssrcInfoMap) (haudio : s'.audio = SdpTransform.withMsid draws s.audio false)
    : s'.ssrcsItems draws false = SdpTransform.ssrcItems audioInfo
      ++ SdpTransform.ssrcItems (drawnInfo draws s audioInfo) ++ [.other (utf8 "a=rtcp-mux")] := by
  simp [SdpTransform.ssrcsItems, SdpTransform.getSsrcs, SdpTransform.lastSsrc, hs', haudio, h.audio, drawnInfo,
    SdpTransform.ssrcItems]

theorem foldlM_items (h : Describes draws s videoInfo rtxInfo audioInfo) (hasVideo hasAudio : Bool)
    : (s.items draws hasVideo hasAudio).foldlM (Item.apply stack) {}
      = (s.video.fmtpVec.mapM (Item.readFmtp true)).bind fun videoFmtps =>
          let v := readVideo stack s videoInfo rtxInfo videoFmtps
          (s.audio.fmtpVec.mapM (Item.readFmtp (v.start false s.audio.ptVec).currentIsVideo)).bind fun audioFmtps =>
            some (readAudio stack draws s audioInfo v audioFmtps) := by
  have hcurrent : (Sections.start {} true s.video.ptVec).currentIsVideo = true := by
    unfold Sections.start
    split <;> rfl
  have hssrc : ∀ (v : Sections) (info : SSRCInfo),
      (SdpTransform.ssrcItems info).foldlM (Item.apply stack) v = some (v.readSsrc stack info) := fun _ _ => rfl
  have hvideo : ∀ v : Sections, (((s.named draws).getMidInfo draws true).2.ssrcsItems draws true).foldlM
      (Item.apply stack) v = some (v.readGroup stack videoInfo rtxInfo) := by
    intro v
    have hitems : ((s.named draws).getMidInfo draws true).2.ssrcsItems draws true = _ := h.ssrcsItems_video rfl
    rw [hitems, List.foldlM_append, List.foldlM_append, hssrc]
    simp only [Option.bind_eq_bind, Option.bind_some, hssrc]
    rfl
  have haudio : ∀ v : Sections, ((((s.named draws).getDesc draws true).2.getMidInfo draws false).2.ssrcsItems draws
      false).foldlM (Item.apply stack) v
        = some ((v.readSsrc stack audioInfo).readSsrc stack (drawnInfo draws s audioInfo)) := by
    intro v
    have hitems : (((s.named draws).getDesc draws true).2.getMidInfo draws false).2.ssrcsItems draws false = _ :=
      h.ssrcsItems_audio rfl rfl
    rw [hitems, List.foldlM_append, List.foldlM_append, hssrc]
    simp only [Option.bind_eq_bind, Option.bind_some, hssrc]
    rfl
  rw [SdpTransform.items, List.foldlM_append, List.foldlM_append, foldlM_other]
  simp only [Option.bind_eq_bind, Option.bind_some, foldlM_descItems, hvideo, haudio, Option.bind_assoc]
  change (s.video.fmtpVec.mapM (Item.readFmtp (Sections.start {} true s.video.ptVec).currentIsVideo)).bind _ = _
  rw [hcurrent]
  rfl

/--
The same for the sections that the lines say.
-/
theorem roundTrips_iff_read (h : Describes draws s videoInfo rtxInfo audioInfo) (dtls : RtcDtls)
    (hasVideo hasAudio : Bool)
    : RoundTrips stack draws dtls hasVideo hasAudio s
      ↔ ∃ videoFmtps audioFmtps,
          let v := readVideo stack s videoInfo rtxInfo videoFmtps
          let v' := readAudio stack draws s audioInfo v audioFmtps
          s.video.fmtpVec.mapM (Item.readFmtp true) = some videoFmtps
            ∧ s.audio.fmtpVec.mapM (Item.readFmtp (v.start false s.audio.ptVec).currentIsVideo) = some audioFmtps
            ∧ SameSection s.video v'.video ∧ SameSection s.audio v'.audio
            ∧ v'.ssrcInfoMap.infos.filter (·.isVideo) = s.ssrcInfoMap.infos.filter (·.isVideo) := by
  have hparse : (SdpTransform.parse stack { dtls := dtls } (s.genSdpString draws hasVideo hasAudio).1).map
      (·.toSections) = _ := h.parse_eq dtls hasVideo hasAudio
  rw [h.foldlM_items] at hparse
  constructor
  . rintro ⟨p, hp, hvideo, haudio, hssrcs⟩
    rw [hp, Option.map_some] at hparse
    obtain ⟨videoFmtps, hvideoFmtps, hrest⟩ := Option.bind_eq_some_iff.mp hparse.symm
    obtain ⟨audioFmtps, haudioFmtps, hread⟩ := Option.bind_eq_some_iff.mp hrest
    refine ⟨videoFmtps, audioFmtps, hvideoFmtps, haudioFmtps, ?_⟩
    rw [Option.some.inj hread]
    exact ⟨hvideo, haudio, hssrcs⟩
  . rintro ⟨videoFmtps, audioFmtps, hvideoFmtps, haudioFmtps, hvideo, haudio, hssrcs⟩
    rw [hvideoFmtps, Option.bind_some] at hparse
    simp only [haudioFmtps, Option.bind_some] at hparse
    obtain ⟨p, hp, hread⟩ := Option.map_eq_some_iff.mp hparse
    refine ⟨p, hp, ?_⟩
    rw [hread]
    exact ⟨hvideo, haudio, hssrcs⟩

theorem mem_video (h : Describes draws s videoInfo rtxInfo audioInfo) (info : SSRCInfo)
    : info ∈ s.ssrcInfoMap.infos.filter (·.isVideo) ↔ info = videoInfo ∨ info = rtxInfo := by
  have hvideo : info ∈ (s.ssrcInfoMap.infos.filter (·.isVideo)).filter (!·.isRtx) ↔ info = videoInfo := by
    rw [h.video, List.mem_singleton]
  have hrtx : info ∈ (s.ssrcInfoMap.infos.filter (·.isVideo)).filter (·.isRtx) ↔ info = rtxInfo := by
    rw [h.rtx, List.mem_singleton]
  rw [← hvideo, ← hrtx, List.mem_filter (p := fun info : SSRCInfo => !info.isRtx),
    List.mem_filter (p := fun info : SSRCInfo => info.isRtx)]
  cases info.isRtx <;> simp

theorem videoInfo_kind (h : Describes draws s videoInfo rtxInfo audioInfo)
    : videoInfo ∈ s.ssrcInfoMap.infos ∧ videoInfo.isVideo = true ∧ videoInfo.isRtx = false := by
  have hmem : videoInfo ∈ (s.ssrcInfoMap.infos.filter (·.isVideo)).filter (!·.isRtx) := h.video ▸ List.mem_cons_self
  rw [List.mem_filter, List.mem_filter] at hmem
  exact ⟨hmem.1.1, hmem.1.2, by simpa using hmem.2⟩

theorem rtxInfo_kind (h : Describes draws s videoInfo rtxInfo audioInfo)
    : rtxInfo ∈ s.ssrcInfoMap.infos ∧ rtxInfo.isVideo = true ∧ rtxInfo.isRtx = true := by
  have hmem : rtxInfo ∈ (s.ssrcInfoMap.infos.filter (·.isVideo)).filter (·.isRtx) := h.rtx ▸ List.mem_cons_self
  rw [List.mem_filter, List.mem_filter] at hmem
  exact ⟨hmem.1.1, hmem.1.2, hmem.2⟩

theorem audioInfo_kind (h : Describes draws s videoInfo rtxInfo audioInfo)
    : audioInfo ∈ s.ssrcInfoMap.infos ∧ audioInfo.isVideo = false := by
  have hmem : audioInfo ∈ s.ssrcInfoMap.infos.filter (!·.isVideo) := h.audio ▸ List.mem_cons_self
  rw [List.mem_filter] at hmem
  exact ⟨hmem.1, by simpa using hmem.2⟩

theorem ssrc_ne {info info' : SSRCInfo} (hmem : info ∈ s.ssrcInfoMap.infos) (hmem' : info' ∈ s.ssrcInfoMap.infos)
    (hne : info ≠ info') : info.ssrc.toNat ≠ info'.ssrc.toNat := by
  intro heq
  have hinfo : s.ssrcInfoMap.find? info.ssrc.toNat = some info := KeyedMap.find?_eq_some_iff.mpr ⟨hmem, rfl⟩
  have hinfo' : s.ssrcInfoMap.find? info'.ssrc.toNat = some info' := KeyedMap.find?_eq_some_iff.mpr ⟨hmem', rfl⟩
  rw [heq, hinfo'] at hinfo
  exact hne (Option.some.inj hinfo).symm

theorem rtx_ne (h : Describes draws s videoInfo rtxInfo audioInfo) : videoInfo.ssrc.toNat ≠ rtxInfo.ssrc.toNat := by
  apply ssrc_ne h.videoInfo_kind.1 h.rtxInfo_kind.1
  intro heq
  have hvideo := h.videoInfo_kind.2.2
  rw [heq, h.rtxInfo_kind.2.2] at hvideo
  cases hvideo

/--
No line of the audio is about a stream of the video.
-/
theorem audio_ne (h : Describes draws s videoInfo rtxInfo audioInfo) {info : SSRCInfo}
    (hinfo : info = videoInfo ∨ info = rtxInfo)
    : audioInfo.ssrc.toNat ≠ info.ssrc.toNat ∧ (drawnInfo draws s audioInfo).ssrc.toNat ≠ info.ssrc.toNat := by
  have hkind : info ∈ s.ssrcInfoMap.infos ∧ info.isVideo = true := by
    rcases hinfo with rfl | rfl
    . exact ⟨h.videoInfo_kind.1, h.videoInfo_kind.2.1⟩
    . exact ⟨h.rtxInfo_kind.1, h.rtxInfo_kind.2.1⟩
  have haudio : audioInfo.ssrc.toNat ≠ info.ssrc.toNat := by
    apply ssrc_ne h.audioInfo_kind.1 hkind.1
    rintro rfl
    rw [h.audioInfo_kind.2] at hkind
    cases hkind.2
  refine ⟨haudio, ?_⟩
  rw [drawnInfo]
  dsimp only
  split
  next hzero =>
    have hdrawn := h.drawn hzero
    rcases hinfo with rfl | rfl
    . exact fun heq => hdrawn.1 (UInt32.toNat_inj.mp heq)
    . exact fun heq => hdrawn.2 (UInt32.toNat_inj.mp heq)
  next => exact haudio

theorem find?_video (h : Describes draws s videoInfo rtxInfo audioInfo) (k : Nat)
    : (s.ssrcInfoMap.find? k).filter (·.isVideo)
      = if rtxInfo.ssrc.toNat = k then some rtxInfo else if videoInfo.ssrc.toNat = k then some videoInfo else none := by
  have hfind : ∀ {info : SSRCInfo}, info ∈ s.ssrcInfoMap.infos → info.isVideo = true →
      (s.ssrcInfoMap.find? info.ssrc.toNat).filter (·.isVideo) = some info :=
    fun hmem hvideo => KeyedMap.mem_filter_find?.mpr ⟨List.mem_filter.mpr ⟨hmem, hvideo⟩, rfl⟩
  split_ifs with hrtx hvideo
  . rw [← hrtx]
    exact hfind h.rtxInfo_kind.1 h.rtxInfo_kind.2.1
  . rw [← hvideo]
    exact hfind h.videoInfo_kind.1 h.videoInfo_kind.2.1
  . rw [Option.eq_none_iff_forall_not_mem]
    intro info hinfo
    obtain ⟨hmem, hkey⟩ := KeyedMap.mem_filter_find?.mp hinfo
    rcases (h.mem_video info).mp hmem with rfl | rfl
    . exact hvideo hkey
    . exact hrtx hkey

theorem find?_readVideo (h : Describes draws s videoInfo rtxInfo audioInfo) (fmtps : List FmtpInfo) (k : Nat)
    : (readVideo stack s videoInfo rtxInfo fmtps).ssrcInfoMap.find? k
      = if rtxInfo.ssrc.toNat = k then some (Sections.readSsrcInfo true rtxInfo)
        else if videoInfo.ssrc.toNat = k then some (Sections.readSsrcInfo true videoInfo) else none := by
  have hcurrent : ((Sections.start {} true s.video.ptVec).readMedia s.video true fmtps).currentIsVideo = true := by
    rw [(ReadsInto.readMedia _ _ _).current, Sections.current_start]
    split <;> rfl
  have hnew : ∀ k, ((Sections.start {} true s.video.ptVec).readMedia s.video true fmtps).ssrcInfoMap.find? k
      = none := by
    intro k
    rw [(ReadsInto.readMedia _ _ _).ssrcs, Sections.ssrcs_start]
    rfl
  rw [readVideo, Sections.find?_readGroup hnew h.rtx_ne h.videoInfo_kind.2.2 h.rtxInfo_kind.2.2 h.rtxSsrc.1 h.rtxSsrc.2,
    hcurrent]

theorem find?_readAudio (stack : UInt32 → Bool × UInt32) (draws : Draws) (s : SdpTransform) (audioInfo : SSRCInfo)
    (v : Sections) (fmtps : List FmtpInfo) (k : Nat)
    : ∃ drawn info, drawn.isVideo = (v.start false s.audio.ptVec).currentIsVideo
      ∧ info.isVideo = (v.start false s.audio.ptVec).currentIsVideo
      ∧ (readAudio stack draws s audioInfo v fmtps).ssrcInfoMap.find? k
        = if (drawnInfo draws s audioInfo).ssrc.toNat = k then some drawn
          else if audioInfo.ssrc.toNat = k then some info
          else v.ssrcInfoMap.find? k := by
  have hcurrent := (ReadsInto.readMedia s.audio false fmtps).current (v.start false s.audio.ptVec)
  have hssrcs : ((v.start false s.audio.ptVec).readMedia s.audio false fmtps).ssrcInfoMap = v.ssrcInfoMap := by
    rw [(ReadsInto.readMedia _ _ _).ssrcs, Sections.ssrcs_start]
  let w := (v.start false s.audio.ptVec).readMedia s.audio false fmtps
  refine ⟨(w.readSsrc stack audioInfo).rereadSsrc stack (drawnInfo draws s audioInfo), w.rereadSsrc stack audioInfo,
    hcurrent, hcurrent, ?_⟩
  rw [readAudio, Sections.find?_readSsrc, Sections.find?_readSsrc, hssrcs]

/--
The streams of the video are the same if the lines of the audio are not about the video as well.
-/
theorem filter_readAudio_iff (h : Describes draws s videoInfo rtxInfo audioInfo) (stack : UInt32 → Bool × UInt32)
    (fmtps fmtps' : List FmtpInfo)
    : (readAudio stack draws s audioInfo (readVideo stack s videoInfo rtxInfo fmtps) fmtps').ssrcInfoMap.infos.filter
          (·.isVideo) = s.ssrcInfoMap.infos.filter (·.isVideo)
      ↔ s.audio.ptVec ≠ [] ∧ Sections.readSsrcInfo true videoInfo = videoInfo
        ∧ Sections.readSsrcInfo true rtxInfo = rtxInfo := by
  have hcurrent := Sections.current_start false s.audio.ptVec (readVideo stack s videoInfo rtxInfo fmtps)
  rw [current_readVideo] at hcurrent
  have hvideo := h.audio_ne (Or.inl rfl)
  have hrtx := h.audio_ne (Or.inr rfl)
  rw [KeyedMap.filter_infos_eq_iff]
  constructor
  . intro heq
    have hfind : ∀ info, info = videoInfo ∨ info = rtxInfo → Sections.readSsrcInfo true info = info := by
      intro info hinfo
      have hne := h.audio_ne hinfo
      obtain ⟨drawn, audio, -, -, hread⟩ := find?_readAudio stack draws s audioInfo
        (readVideo stack s videoInfo rtxInfo fmtps) fmtps' info.ssrc.toNat
      have hkey := heq info.ssrc.toNat
      rw [hread, if_neg hne.2, if_neg hne.1, h.find?_readVideo, h.find?_video] at hkey
      rcases hinfo with rfl | rfl
      . rw [if_neg h.rtx_ne.symm, if_pos rfl, if_neg h.rtx_ne.symm, if_pos rfl] at hkey
        exact Option.some.inj hkey
      . rw [if_pos rfl, if_pos rfl] at hkey
        exact Option.some.inj hkey
    refine ⟨?_, hfind _ (Or.inl rfl), hfind _ (Or.inr rfl)⟩
    intro hnil
    rw [if_pos hnil] at hcurrent
    obtain ⟨drawn, audio, hdrawn, -, hread⟩ := find?_readAudio stack draws s audioInfo
      (readVideo stack s videoInfo rtxInfo fmtps) fmtps' (drawnInfo draws s audioInfo).ssrc.toNat
    have hkey := heq (drawnInfo draws s audioInfo).ssrc.toNat
    rw [hread, if_pos rfl, h.find?_video, if_neg hrtx.2.symm, if_neg hvideo.2.symm, Option.filter_some,
      if_pos (hdrawn.trans hcurrent)] at hkey
    cases hkey
  . rintro ⟨hpts, hvideoInfo, hrtxInfo⟩ k
    rw [if_neg hpts] at hcurrent
    obtain ⟨drawn, audio, hdrawn, haudio, hread⟩ := find?_readAudio stack draws s audioInfo
      (readVideo stack s videoInfo rtxInfo fmtps) fmtps' k
    rw [hcurrent] at hdrawn haudio
    rw [hread, h.find?_readVideo, h.find?_video, hvideoInfo, hrtxInfo]
    by_cases hd : (drawnInfo draws s audioInfo).ssrc.toNat = k
    . rw [if_pos hd, ← hd, if_neg hrtx.2.symm, if_neg hvideo.2.symm]
      exact Option.filter_some_neg (by simp [hdrawn])
    . by_cases ha : audioInfo.ssrc.toNat = k
      . rw [if_neg hd, if_pos ha, ← ha, if_neg hrtx.1.symm, if_neg hvideo.1.symm]
        exact Option.filter_some_neg (by simp [haudio])
      . rw [if_neg hd, if_neg ha]
        split_ifs
        . exact Option.filter_some_pos h.rtxInfo_kind.2.1
        . exact Option.filter_some_pos h.videoInfo_kind.2.1
        . rfl

/--
The sections, given that the one of the audio is there.
-/
theorem sameSections_iff (stack : UInt32 → Bool × UInt32) (draws : Draws) (videoInfo rtxInfo audioInfo : SSRCInfo)
    (hpts : s.audio.ptVec ≠ []) (videoFmtps audioFmtps : List FmtpInfo)
    : SameSection s.video
          (readAudio stack draws s audioInfo (readVideo stack s videoInfo rtxInfo videoFmtps) audioFmtps).video
        ∧ SameSection s.audio
          (readAudio stack draws s audioInfo (readVideo stack s videoInfo rtxInfo videoFmtps) audioFmtps).audio
      ↔ ((∀ info ∈ s.video.rtpMapInfos.infos, info.channel = 0)
          ∧ videoFmtps.map (fun info => (info.payloadType, info.attrString, info.isRtx))
            = s.video.fmtpVec.map (fun info => (info.payloadType, info.attrString, info.isRtx))
          ∧ ∀ info ∈ s.video.rtcpfbVec, info.attrString.getLast? ≠ some 13)
        ∧ ((∀ info ∈ s.audio.rtpMapInfos.infos, 0 ≤ info.channel)
          ∧ audioFmtps.map (fun info => (info.payloadType, info.attrString, info.isRtx))
            = s.audio.fmtpVec.map (fun info => (info.payloadType, info.attrString, info.isRtx))
          ∧ ∀ info ∈ s.audio.rtcpfbVec, info.attrString.getLast? ≠ some 13) := by
  have hvideo := media_readAudio stack s audioFmtps draws audioInfo (v := readVideo stack s videoInfo rtxInfo videoFmtps)
    hpts true
  have haudio := media_readAudio stack s audioFmtps draws audioInfo (v := readVideo stack s videoInfo rtxInfo videoFmtps)
    hpts false
  obtain ⟨fids, hfids⟩ := media_readVideo stack s videoInfo rtxInfo videoFmtps true
  obtain ⟨fids', hfids'⟩ := media_readVideo stack s videoInfo rtxInfo videoFmtps false
  rw [if_pos rfl, hfids, if_pos rfl] at hvideo
  rw [if_neg Bool.false_ne_true, hfids', if_neg Bool.false_ne_true] at haudio
  have hvideoSection := sameSection_read_iff s.video true videoFmtps fids
  have haudioSection := sameSection_read_iff s.audio false audioFmtps fids'
  simp only [readRtpMap_video_iff] at hvideoSection
  simp only [readRtpMap_audio_iff] at haudioSection
  rw [← hvideoSection, ← haudioSection]
  exact iff_of_eq (congrArg₂ And (congrArg (SameSection s.video) hvideo) (congrArg (SameSection s.audio) haudio))

theorem fmtps_iff (h : Describes draws s videoInfo rtxInfo audioInfo) (isVideo isVideo' : Bool)
    : (∃ fmtps, (s.media isVideo).fmtpVec.mapM (Item.readFmtp isVideo') = some fmtps
        ∧ fmtps.map (fun info => (info.payloadType, info.attrString, info.isRtx))
          = (s.media isVideo).fmtpVec.map fun info => (info.payloadType, info.attrString, info.isRtx))
      ↔ ∀ info ∈ (s.media isVideo).fmtpVec, info.attrString.getLast? ≠ some 13
        ∧ ((utf8 "apt=").isPrefixOf info.attrString ∨ find aptAttr info.attrString = none) := by
  have hapt : ∀ info ∈ (s.media isVideo).fmtpVec, info.isRtx = (utf8 "apt=").isPrefixOf info.attrString := by
    intro info hinfo
    apply h.apt
    cases isVideo
    . exact List.mem_append_right _ hinfo
    . exact List.mem_append_left _ hinfo
  rw [Traverse.exists_mapM_iff]
  exact forall₂_congr fun info hinfo => readFmtp_iff isVideo' (hapt info hinfo)

theorem kept (h : Describes draws s videoInfo rtxInfo audioInfo) {dtls : RtcDtls} {hasVideo hasAudio : Bool}
    (hround : RoundTrips stack draws dtls hasVideo hasAudio s) : Kept s videoInfo rtxInfo := by
  obtain ⟨videoFmtps, audioFmtps, hvideoFmtps, haudioFmtps, hvideo, haudio, hssrcs⟩ :=
    (h.roundTrips_iff_read dtls hasVideo hasAudio).mp hround
  obtain ⟨hpts, hvideoInfo, hrtxInfo⟩ := (h.filter_readAudio_iff stack videoFmtps audioFmtps).mp hssrcs
  obtain ⟨⟨hchannels, hkeys, hrtcpFbs⟩, hchannels', hkeys', hrtcpFbs'⟩ :=
    (sameSections_iff stack draws videoInfo rtxInfo audioInfo hpts videoFmtps audioFmtps).mp ⟨hvideo, haudio⟩
  refine ⟨hpts, hchannels, hchannels', ?_, ?_, ?_⟩
  . rw [List.forall_mem_append]
    exact ⟨(h.fmtps_iff true _).mp ⟨videoFmtps, hvideoFmtps, hkeys⟩,
      (h.fmtps_iff false _).mp ⟨audioFmtps, haudioFmtps, hkeys'⟩⟩
  . rw [List.forall_mem_append]
    exact ⟨hrtcpFbs, hrtcpFbs'⟩
  . simp only [List.forall_mem_cons]
    exact ⟨(readSsrcInfo_iff h.videoInfo_kind.2.1).mp hvideoInfo, (readSsrcInfo_iff h.rtxInfo_kind.2.1).mp hrtxInfo,
      List.forall_mem_nil _⟩

theorem roundTrips (h : Describes draws s videoInfo rtxInfo audioInfo) (hkept : Kept s videoInfo rtxInfo)
    (dtls : RtcDtls) (hasVideo hasAudio : Bool) : RoundTrips stack draws dtls hasVideo hasAudio s := by
  have hfmtps := hkept.fmtps
  have hrtcpFbs := hkept.rtcpFbs
  have hssrcs := hkept.ssrcs
  rw [List.forall_mem_append] at hfmtps hrtcpFbs
  simp only [List.forall_mem_cons] at hssrcs
  obtain ⟨videoFmtps, hvideoFmtps, hkeys⟩ := (h.fmtps_iff true true).mpr hfmtps.1
  obtain ⟨audioFmtps, haudioFmtps, hkeys'⟩ := (h.fmtps_iff false
    ((readVideo stack s videoInfo rtxInfo videoFmtps).start false s.audio.ptVec).currentIsVideo).mpr hfmtps.2
  have hsections := (sameSections_iff stack draws videoInfo rtxInfo audioInfo hkept.audioPts videoFmtps audioFmtps).mpr
    ⟨⟨hkept.videoChannels, hkeys, hrtcpFbs.1⟩, hkept.audioChannels, hkeys', hrtcpFbs.2⟩
  have hfilter := (h.filter_readAudio_iff stack videoFmtps audioFmtps).mpr
    ⟨hkept.audioPts, (readSsrcInfo_iff h.videoInfo_kind.2.1).mpr hssrcs.1,
      (readSsrcInfo_iff h.rtxInfo_kind.2.1).mpr hssrcs.2.1⟩
  exact (h.roundTrips_iff_read dtls hasVideo hasAudio).mpr
    ⟨videoFmtps, audioFmtps, hvideoFmtps, haudioFmtps, hsections.1, hsections.2, hfilter⟩

end Describes

/--
A description is read as what it has been written from in these cases only.
-/
theorem genSdpString_roundTrips_iff (stack : UInt32 → Bool × UInt32) (draws : Draws) (dtls : RtcDtls)
    (hasVideo hasAudio : Bool) (s : SdpTransform) (videoInfo rtxInfo audioInfo : SSRCInfo)
    (h : Describes draws s videoInfo rtxInfo audioInfo)
    : RoundTrips stack draws dtls hasVideo hasAudio s ↔ Kept s videoInfo rtxInfo :=
  ⟨h.kept, fun hkept => h.roundTrips hkept dtls hasVideo hasAudio⟩

section Sample

def sampleDraws : Draws where
  sessionId := utf8 "1"
  vMsid := utf8 "v"
  vMsidAppdata := utf8 "vd"
  aMsid := utf8 "a"
  aMsidAppdata := utf8 "ad"
  audioSsrc := 20
  audioCname := utf8 "n"

def sampleVideo : SSRCInfo where
  ssrc := 11
  isVideo := true
  isRtx := false
  msid := utf8 "v"
  msidAppdata := utf8 "vd"
  cname := utf8 "c"
  rtxSsrc := 12

def sampleRtx : SSRCInfo := { sampleVideo with ssrc := 12, isRtx := true, rtxSsrc := 11 }

def sampleAudio : SSRCInfo where
  ssrc := 13
  isVideo := false
  isRtx := false
  msid := utf8 "a"
  msidAppdata := utf8 "ad"
  cname := utf8 "n"
  rtxSsrc := 0

/--
A description with H.264 and Opus, where the attribute of H.264 is open.
-/
def sample (attr : List UInt8) : SdpTransform where
  video :=
    { ptVec := [106, 107]
      rtpMapInfos := ⟨[⟨106, utf8 "H264", 90000, 0⟩, ⟨107, utf8 "rtx", 90000, 0⟩], by decide⟩
      fmtpVec := [⟨106, attr, true, false, 107⟩, ⟨107, utf8 "apt=106", true, true, 0⟩]
      rtcpfbVec := [⟨106, utf8 "nack pli"⟩] }
  audio :=
    { ptVec := [111]
      rtpMapInfos := ⟨[⟨111, utf8 "opus", 48000, 2⟩], by decide⟩
      fmtpVec := [⟨111, utf8 "minptime=10", false, false, 0⟩] }
  ssrcInfoMap := ⟨[sampleVideo, sampleRtx, sampleAudio], by decide⟩

theorem sample_describes {attr : List UInt8} (hattr : attr = utf8 "packetization-mode=1" ∨ attr = utf8 "x-adaptive=1")
    : Describes sampleDraws (sample attr) sampleVideo sampleRtx sampleAudio := by
  rcases hattr with rfl | rfl
  . exact ⟨by decide, by decide, by decide, by decide, by decide, by decide, by decide, by decide⟩
  . exact ⟨by decide, by decide, by decide, by decide, by decide, by decide, by decide, by decide⟩

theorem sample_kept : Kept (sample (utf8 "packetization-mode=1")) sampleVideo sampleRtx where
  audioPts := by decide
  videoChannels := by decide
  audioChannels := by decide
  fmtps := by decide
  rtcpFbs := by decide
  ssrcs := by decide

theorem genSdpString_roundTrips_sample
    : RoundTrips (fun _ => (false, 0)) sampleDraws {} true true (sample (utf8 "packetization-mode=1")) :=
  (genSdpString_roundTrips_iff _ _ _ _ _ _ _ _ _ (sample_describes (Or.inl rfl))).mpr sample_kept

/--
The attribute has `apt` in its middle, so it is taken for that of a retransmission.
-/
theorem genSdpString_adaptive
    : Describes sampleDraws (sample (utf8 "x-adaptive=1")) sampleVideo sampleRtx sampleAudio
      ∧ ¬RoundTrips (fun _ => (false, 0)) sampleDraws {} true true (sample (utf8 "x-adaptive=1")) := by
  refine ⟨sample_describes (Or.inr rfl), fun hround => ?_⟩
  have hkept := (sample_describes (Or.inr rfl)).kept hround
  exact absurd hkept.fmtps (by decide)

end Sample

end Sdp
