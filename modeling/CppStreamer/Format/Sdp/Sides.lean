import CppStreamer.Format.Sdp.Attributes

/-!
This module contains the two sides of what is parsed, audio and video, and what a line in a section of one kind does to
each of them.
-/

open StringEx

namespace Sdp

inductive Kind where
  | audio
  | video
  | other
  deriving DecidableEq, Repr

/--
The side of the state that a section of this kind is for.
-/
def Kind.isVideo : Kind → Option Bool
  | audio => some false
  | video => some true
  | other => none

def isMediaLine (line : Line) : Bool := mAttr.isPrefixOf line

/--
The kind of the section that an `m=` line begins.
-/
def mediaKind (line : Line) : Kind :=
  let name := (stringSplit 32 [] (line.drop mAttr.length)).headD []
  if name = utf8 "video" then .video
  else if name = utf8 "audio" then .audio
  else .other

/--
The entries of one kind.
-/
def SsrcInfoMap.own (map : SsrcInfoMap) (isVideo : Bool) (ssrc : Nat) : Option SSRCInfo :=
  (map.find? ssrc).filter fun info => info.isVideo = isVideo

/--
The parsed audio or video state. `ssrcs` are `video_ssrc_` and `video_rtx_ssrc_`, and `rates` the clock rate with that
of the retransmission or the number of channels.
-/
@[ext]
structure Side where
  has : Bool
  media : Media
  ssrcInfo : Nat → Option SSRCInfo
  ssrcs : UInt32 × UInt32
  rates : Int32 × Int32

def Sections.side (v : Sections) (isVideo : Bool) : Side where
  has := if isVideo then v.hasVideo else v.hasAudio
  media := v.media isVideo
  ssrcInfo := v.ssrcInfoMap.own isVideo
  ssrcs := if isVideo then (v.videoSsrc, v.videoRtxSsrc) else (0, 0)
  rates := if isVideo then (v.videoClockRate, v.videoRtxClockRate) else (v.audioClockRate, v.channel)

variable {stack : UInt32 → Bool × UInt32} {v w : Sections} {isVideo : Bool} {kind : Kind} {attr : MediaAttr}

/--
What a line says fits its section if it is taken for a line of this kind, and if the streams that it names are not ones
of the other kind. The streams of a group are those of the video.
-/
def Fits (v : Sections) (kind : Kind) : MediaAttr → Prop
  | .media isVideo _ => kind.isVideo = some isVideo
  | .rtpMap _ | .fmtp _ | .rtcpFb _ => kind.isVideo = some v.currentIsVideo
  | .cname ssrc _ | .msid ssrc _ _ =>
    kind.isVideo = some v.currentIsVideo
      ∧ ∀ info ∈ v.ssrcInfoMap.find? ssrc.toNat, info.isVideo = v.currentIsVideo
  | .fid mainSsrc slaveSsrc _ =>
    kind.isVideo = some v.currentIsVideo
      ∧ ∀ info ∈ v.ssrcInfoMap.find? mainSsrc.toNat, info.isVideo = v.currentIsVideo
        ∧ ∀ rtxInfo ∈ v.ssrcInfoMap.find? slaveSsrc.toNat, v.currentIsVideo ∧ rtxInfo.isVideo

instance (v : Sections) (kind : Kind) (attr : MediaAttr) : Decidable (Fits v kind attr) :=
  match attr with
  | .media _ _ | .rtpMap _ | .fmtp _ | .rtcpFb _ => inferInstanceAs (Decidable (_ = _))
  | .cname _ _ | .msid _ _ _ | .fid _ _ _ => inferInstanceAs (Decidable (_ = _ ∧ ∀ _ ∈ _, _))

section Own

variable {map map' : SsrcInfoMap} {info : SSRCInfo}

theorem SsrcInfoMap.ssrc_of_find? {ssrc : Nat} (h : map.find? ssrc = some info) : info.ssrc.toNat = ssrc := by
  have hkey := KeyedMap.key_of_find? h
  exact hkey

theorem SsrcInfoMap.own_of_find? {ssrc : Nat} (h : ∀ info ∈ map.find? ssrc, info.isVideo = isVideo)
    : map.own isVideo ssrc = map.find? ssrc := by
  rw [own]
  cases hfind : map.find? ssrc with
  | none => rfl
  | some info => rw [Option.filter_some, if_pos (decide_eq_true (h info hfind))]

theorem SsrcInfoMap.own_eq_some_iff {ssrc : Nat} : map.own info.isVideo ssrc = some info ↔ map.find? ssrc = some info := by
  rw [own, Option.filter_eq_some_iff, decide_eq_true_eq]
  exact and_iff_left rfl

theorem SsrcInfoMap.own_insert_of_ne (info : SSRCInfo) (hinfo : info.isVideo ≠ isVideo)
    (hold : ∀ old ∈ map.find? info.ssrc.toNat, old.isVideo ≠ isVideo)
    : own (map.insert info) isVideo = map.own isVideo := by
  funext ssrc
  rw [own, own, KeyedMap.find?_insert]
  split
  next heq =>
    subst heq
    rw [Option.filter_some, if_neg (by simpa using hinfo)]
    cases hfind : map.find? info.ssrc.toNat with
    | none => rfl
    | some old => rw [Option.filter_some, if_neg (by simpa using hold old hfind)]
  next => rfl

theorem SsrcInfoMap.own_insert_congr (info : SSRCInfo) (h : map.own isVideo = map'.own isVideo)
    : own (map.insert info) isVideo = own (map'.insert info) isVideo := by
  funext ssrc
  rw [own, own, KeyedMap.find?_insert, KeyedMap.find?_insert]
  split
  . rfl
  . exact congrFun h ssrc

end Own

namespace Sections

theorem side_addPts (v : Sections) (isVideo : Bool) (pts : List Int32)
    : (v.addPts isVideo pts).side isVideo
      = { v.side isVideo with
          has := true
          media := { (v.side isVideo).media with ptVec := (v.side isVideo).media.ptVec ++ pts } } := by
  cases isVideo <;> rfl

theorem side_addPts_not (v : Sections) (isVideo : Bool) (pts : List Int32)
    : (v.addPts isVideo pts).side (!isVideo) = v.side (!isVideo) := by
  cases isVideo <;> rfl

theorem side_withCurrent (hcurrent : v.currentIsVideo = isVideo) (f : Media → Media)
    : (v.withCurrent f).side isVideo = { v.side isVideo with media := f (v.side isVideo).media } := by
  rw [withCurrent, hcurrent]
  cases isVideo <;> rfl

theorem side_withCurrent_not (v : Sections) (f : Media → Media)
    : (v.withCurrent f).side (!v.currentIsVideo) = v.side (!v.currentIsVideo) := by
  rw [withCurrent]
  cases v.currentIsVideo <;> rfl

/--
The clock rates of a section behind an entry with a codec.
-/
def ratesWith (rates : Int32 × Int32) (isVideo : Bool) (info : RtpMapInfo) : Int32 × Int32 :=
  if isVideo then
    if info.codecType = utf8 "rtx" then (rates.1, info.clockRate) else (info.clockRate, rates.2)
  else (info.clockRate, info.channel)

theorem side_addRtpMap (hcurrent : v.currentIsVideo = isVideo) (info : RtpMapInfo)
    : (v.addRtpMap info).side isVideo
      = { v.side isVideo with
          media := { (v.side isVideo).media with
            rtpMapInfos := (v.side isVideo).media.rtpMapInfos.insert info }
          rates := ratesWith (v.side isVideo).rates isVideo info } := by
  cases isVideo with
  | false => simp [addRtpMap, withCurrent, hcurrent, side, media, ratesWith]
  | true =>
    by_cases hrtx : info.codecType = utf8 "rtx"
    . simp [addRtpMap, withCurrent, hcurrent, hrtx, side, media, ratesWith]
    . simp [addRtpMap, withCurrent, hcurrent, hrtx, side, media, ratesWith]

theorem side_addRtpMap_not (v : Sections) (info : RtpMapInfo)
    : (v.addRtpMap info).side (!v.currentIsVideo) = v.side (!v.currentIsVideo) := by
  cases hcurrent : v.currentIsVideo with
  | false => simp [addRtpMap, withCurrent, hcurrent, side, media]
  | true =>
    by_cases hrtx : info.codecType = utf8 "rtx"
    . simp [addRtpMap, withCurrent, hcurrent, hrtx, side, media]
    . simp [addRtpMap, withCurrent, hcurrent, hrtx, side, media]

theorem side_insert_of_ne (info : SSRCInfo) (hinfo : info.isVideo ≠ isVideo)
    (hold : ∀ old ∈ v.ssrcInfoMap.find? info.ssrc.toNat, old.isVideo ≠ isVideo)
    : { v with ssrcInfoMap := v.ssrcInfoMap.insert info }.side isVideo = v.side isVideo :=
  Side.ext rfl rfl (SsrcInfoMap.own_insert_of_ne info hinfo hold) rfl rfl

theorem side_insert_not (info : SSRCInfo) (hinfo : info.isVideo = v.currentIsVideo)
    (hold : ∀ old ∈ v.ssrcInfoMap.find? info.ssrc.toNat, old.isVideo = v.currentIsVideo)
    : { v with ssrcInfoMap := v.ssrcInfoMap.insert info }.side (!v.currentIsVideo) = v.side (!v.currentIsVideo) := by
  apply side_insert_of_ne info
  . rw [hinfo]
    exact Bool.self_ne_not _
  . intro old hfind
    rw [hold old hfind]
    exact Bool.self_ne_not _

theorem side_insert_congr (info : SSRCInfo) (h : v.side isVideo = w.side isVideo)
    : { v with ssrcInfoMap := v.ssrcInfoMap.insert info }.side isVideo
      = { w with ssrcInfoMap := w.ssrcInfoMap.insert info }.side isVideo := by
  have hhas := congrArg Side.has h
  have hmedia := congrArg Side.media h
  have hssrcs := congrArg Side.ssrcs h
  have hrates := congrArg Side.rates h
  exact Side.ext hhas hmedia (SsrcInfoMap.own_insert_congr info (congrArg Side.ssrcInfo h)) hssrcs hrates

/--
An entry that is not one of the other side is looked up in the side alone.
-/
theorem find?_eq_of_side_eq {ssrc : Nat} (h : v.side isVideo = w.side isVideo)
    (hv : ∀ info ∈ v.ssrcInfoMap.find? ssrc, info.isVideo = isVideo)
    (hw : ∀ info ∈ w.ssrcInfoMap.find? ssrc, info.isVideo = isVideo)
    : v.ssrcInfoMap.find? ssrc = w.ssrcInfoMap.find? ssrc := by
  rw [← SsrcInfoMap.own_of_find? hv, ← SsrcInfoMap.own_of_find? hw]
  exact congrFun (congrArg Side.ssrcInfo h) ssrc

section Tie

variable {mainSsrc slaveSsrc : UInt32}

/--
The second stream of a group is looked up behind the change of the first one, which keeps its kind.
-/
theorem isVideo_of_find?_insert {map : SsrcInfoMap} {info old : SSRCInfo} (newInfo : SSRCInfo)
    (hfind : map.find? mainSsrc.toNat = some info) (hssrc : newInfo.ssrc = info.ssrc)
    (hkind : newInfo.isVideo = info.isVideo) (hold : (map.insert newInfo).find? slaveSsrc.toNat = some old)
    : ∃ old', map.find? slaveSsrc.toNat = some old' ∧ old'.isVideo = old.isVideo := by
  rw [KeyedMap.find?_insert] at hold
  split at hold
  next heq =>
    cases hold
    have hmain := SsrcInfoMap.ssrc_of_find? hfind
    refine ⟨info, ?_, hkind.symm⟩
    rw [← hfind, ← heq, hssrc, hmain]
  next => exact ⟨old, hold, rfl⟩

theorem side_tieSsrcs_not
    (hmain : ∀ info ∈ v.ssrcInfoMap.find? mainSsrc.toNat, info.isVideo = v.currentIsVideo
      ∧ ∀ rtxInfo ∈ v.ssrcInfoMap.find? slaveSsrc.toNat, v.currentIsVideo ∧ rtxInfo.isVideo)
    : (v.tieSsrcs mainSsrc slaveSsrc).side (!v.currentIsVideo) = v.side (!v.currentIsVideo) := by
  rw [tieSsrcs]
  cases hfind : v.ssrcInfoMap.find? mainSsrc.toNat with
  | none => rfl
  | some info =>
    obtain ⟨hinfo, hrtx⟩ := hmain info hfind
    have hssrc := SsrcInfoMap.ssrc_of_find? hfind
    have hne : info.isVideo ≠ !v.currentIsVideo := by simp [hinfo]
    have hown : SsrcInfoMap.own (v.ssrcInfoMap.insert { info with isRtx := false, rtxSsrc := slaveSsrc })
        (!v.currentIsVideo) = v.ssrcInfoMap.own (!v.currentIsVideo) := by
      refine SsrcInfoMap.own_insert_of_ne { info with isRtx := false, rtxSsrc := slaveSsrc } hne ?_
      intro old hold
      change old ∈ v.ssrcInfoMap.find? info.ssrc.toNat at hold
      rw [hssrc, hfind] at hold
      cases hold
      exact hne
    simp only
    cases hslave : KeyedMap.find? (v.ssrcInfoMap.insert { info with isRtx := false, rtxSsrc := slaveSsrc })
        slaveSsrc.toNat with
    | none => exact Side.ext rfl rfl hown rfl rfl
    | some rtxInfo =>
      obtain ⟨old, hold, hkind⟩ := isVideo_of_find?_insert
        { info with isRtx := false, rtxSsrc := slaveSsrc } hfind rfl rfl hslave
      obtain ⟨hcurrent, hvideo⟩ := hrtx old hold
      rw [hcurrent] at hown ⊢
      refine Side.ext rfl rfl (Eq.trans ?_ hown) rfl rfl
      have hrtxNe : rtxInfo.isVideo ≠ !true := by simp [← hkind, hvideo]
      refine SsrcInfoMap.own_insert_of_ne { rtxInfo with isRtx := true, rtxSsrc := mainSsrc } hrtxNe ?_
      intro old' hold'
      have hkey := SsrcInfoMap.ssrc_of_find? hslave
      change old' ∈ KeyedMap.find? _ rtxInfo.ssrc.toNat at hold'
      rw [hkey, hslave] at hold'
      cases hold'
      exact hrtxNe

theorem side_tieSsrcs_congr (hside : v.side isVideo = w.side isVideo)
    (hv : ∀ info ∈ v.ssrcInfoMap.find? mainSsrc.toNat, info.isVideo = isVideo
      ∧ ∀ rtxInfo ∈ v.ssrcInfoMap.find? slaveSsrc.toNat, isVideo ∧ rtxInfo.isVideo)
    (hw : ∀ info ∈ w.ssrcInfoMap.find? mainSsrc.toNat, info.isVideo = isVideo
      ∧ ∀ rtxInfo ∈ w.ssrcInfoMap.find? slaveSsrc.toNat, isVideo ∧ rtxInfo.isVideo)
    : (v.tieSsrcs mainSsrc slaveSsrc).side isVideo = (w.tieSsrcs mainSsrc slaveSsrc).side isVideo := by
  have hmain := find?_eq_of_side_eq hside (fun info h => (hv info h).left) fun info h => (hw info h).left
  rw [tieSsrcs, tieSsrcs, ← hmain]
  cases hfind : v.ssrcInfoMap.find? mainSsrc.toNat with
  | none => exact hside
  | some info =>
    have hvslave : ∀ rtxInfo ∈ v.ssrcInfoMap.find? slaveSsrc.toNat, rtxInfo.isVideo = isVideo := by
      intro rtxInfo h
      obtain ⟨hvideo, hrtx⟩ := (hv info hfind).right rtxInfo h
      rw [hrtx, hvideo]
    have hwslave : ∀ rtxInfo ∈ w.ssrcInfoMap.find? slaveSsrc.toNat, rtxInfo.isVideo = isVideo := by
      intro rtxInfo h
      obtain ⟨hvideo, hrtx⟩ := (hw info (hmain ▸ hfind)).right rtxInfo h
      rw [hrtx, hvideo]
    have hslave := find?_eq_of_side_eq hside hvslave hwslave
    have hfirst := side_insert_congr { info with isRtx := false, rtxSsrc := slaveSsrc } hside
    simp only [KeyedMap.find?_insert, ← hslave]
    generalize (if info.ssrc.toNat = slaveSsrc.toNat then _ else _ : Option SSRCInfo) = found
    cases found with
    | none => exact hfirst
    | some rtxInfo =>
      have hhas := congrArg Side.has hside
      have hmedia := congrArg Side.media hside
      have hrates := congrArg Side.rates hside
      have hown := SsrcInfoMap.own_insert_congr { rtxInfo with isRtx := true, rtxSsrc := mainSsrc }
        (congrArg Side.ssrcInfo hfirst)
      exact Side.ext hhas hmedia hown rfl hrates

end Tie

section Act

@[simp]
theorem withCurrent_currentIsVideo (v : Sections) (f : Media → Media)
    : (v.withCurrent f).currentIsVideo = v.currentIsVideo := by
  rw [withCurrent]
  split <;> rfl

@[simp]
theorem withCurrent_ssrcInfoMap (v : Sections) (f : Media → Media)
    : (v.withCurrent f).ssrcInfoMap = v.ssrcInfoMap := by
  rw [withCurrent]
  split <;> rfl

theorem eq_not_of_isVideo_ne {b : Bool} (h : kind.isVideo = some b) (hne : kind.isVideo ≠ some isVideo)
    : isVideo = !b := by
  rw [h] at hne
  exact Bool.eq_not_of_ne fun heq => hne (congrArg some heq.symm)

/--
The entry of a stream is looked up or made anew with what is in the side.
-/
theorem ssrcInfo_congr (stack : UInt32 → Bool × UInt32) {ssrc : UInt32} (hside : v.side isVideo = w.side isVideo)
    (hv : v.currentIsVideo = isVideo ∧ ∀ info ∈ v.ssrcInfoMap.find? ssrc.toNat, info.isVideo = v.currentIsVideo)
    (hw : w.currentIsVideo = isVideo ∧ ∀ info ∈ w.ssrcInfoMap.find? ssrc.toNat, info.isVideo = w.currentIsVideo)
    : v.ssrcInfo stack ssrc = w.ssrcInfo stack ssrc := by
  obtain ⟨hvcurrent, hvold⟩ := hv
  obtain ⟨hwcurrent, hwold⟩ := hw
  rw [hvcurrent] at hvold
  rw [hwcurrent] at hwold
  rw [ssrcInfo, ssrcInfo, hvcurrent, hwcurrent, find?_eq_of_side_eq hside hvold hwold]

/--
A line that fits its section does not change what other sections are for.
-/
theorem side_act_of_ne (hfits : Fits v kind attr) (hne : kind.isVideo ≠ some isVideo)
    : (v.act stack attr).side isVideo = v.side isVideo := by
  cases attr with
  | media b pts =>
    rw [eq_not_of_isVideo_ne hfits hne]
    exact side_addPts_not v b pts
  | rtpMap info =>
    rw [eq_not_of_isVideo_ne hfits hne]
    exact side_addRtpMap_not v info
  | fmtp info =>
    rw [eq_not_of_isVideo_ne hfits hne]
    exact side_withCurrent_not v _
  | rtcpFb info =>
    rw [eq_not_of_isVideo_ne hfits hne]
    exact side_withCurrent_not v _
  | cname ssrc cname =>
    obtain ⟨hkind, hold⟩ := hfits
    rw [eq_not_of_isVideo_ne hkind hne]
    exact side_insert_not { v.ssrcInfo stack ssrc with cname := cname } rfl hold
  | msid ssrc msid appdata =>
    obtain ⟨hkind, hold⟩ := hfits
    rw [eq_not_of_isVideo_ne hkind hne]
    exact side_insert_not { v.ssrcInfo stack ssrc with msid := msid, msidAppdata := appdata } rfl hold
  | fid mainSsrc slaveSsrc ssrcs =>
    obtain ⟨hkind, hmain⟩ := hfits
    rw [eq_not_of_isVideo_ne hkind hne, act, addFid, ← withCurrent_currentIsVideo v fun m =>
      { m with fidVec := m.fidVec ++ mainSsrc :: slaveSsrc :: ssrcs }]
    rw [side_tieSsrcs_not (by simpa using hmain), withCurrent_currentIsVideo, side_withCurrent_not]

/--
What a line that fits its section makes of the state of this kind depends on that state alone.
-/
theorem side_act_congr (hkind : kind.isVideo = some isVideo) (hv : Fits v kind attr) (hw : Fits w kind attr)
    (hside : v.side isVideo = w.side isVideo)
    : (v.act stack attr).side isVideo = (w.act stack attr).side isVideo := by
  cases attr with
  | media b pts =>
    obtain rfl := Option.some.inj (hv.symm.trans hkind)
    rw [act, act, side_addPts, side_addPts, hside]
  | rtpMap info =>
    have hvcurrent := Option.some.inj (hv.symm.trans hkind)
    have hwcurrent := Option.some.inj (hw.symm.trans hkind)
    rw [act, act, side_addRtpMap hvcurrent, side_addRtpMap hwcurrent, hside]
  | fmtp info =>
    have hvcurrent := Option.some.inj (hv.symm.trans hkind)
    have hwcurrent := Option.some.inj (hw.symm.trans hkind)
    rw [act, act, addFmtp, addFmtp, side_withCurrent hvcurrent, side_withCurrent hwcurrent, hside, hvcurrent, hwcurrent]
  | rtcpFb info =>
    have hvcurrent := Option.some.inj (hv.symm.trans hkind)
    have hwcurrent := Option.some.inj (hw.symm.trans hkind)
    rw [act, act, addRtcpFb, addRtcpFb, side_withCurrent hvcurrent, side_withCurrent hwcurrent, hside]
  | cname ssrc cname =>
    have hvcurrent := Option.some.inj (hv.left.symm.trans hkind)
    have hwcurrent := Option.some.inj (hw.left.symm.trans hkind)
    rw [act, act, setCname, setCname, ssrcInfo_congr stack hside ⟨hvcurrent, hv.right⟩ ⟨hwcurrent, hw.right⟩]
    exact side_insert_congr _ hside
  | msid ssrc msid appdata =>
    have hvcurrent := Option.some.inj (hv.left.symm.trans hkind)
    have hwcurrent := Option.some.inj (hw.left.symm.trans hkind)
    rw [act, act, setMsid, setMsid, ssrcInfo_congr stack hside ⟨hvcurrent, hv.right⟩ ⟨hwcurrent, hw.right⟩]
    exact side_insert_congr _ hside
  | fid mainSsrc slaveSsrc ssrcs =>
    obtain ⟨hvkind, hvmain⟩ := hv
    obtain ⟨hwkind, hwmain⟩ := hw
    have hvcurrent := Option.some.inj (hvkind.symm.trans hkind)
    have hwcurrent := Option.some.inj (hwkind.symm.trans hkind)
    rw [hvcurrent] at hvmain
    rw [hwcurrent] at hwmain
    rw [act, act, addFid, addFid]
    apply side_tieSsrcs_congr
    . rw [side_withCurrent hvcurrent, side_withCurrent hwcurrent, hside]
    . rwa [withCurrent_ssrcInfoMap]
    . rwa [withCurrent_ssrcInfoMap]

end Act

end Sections

end Sdp
