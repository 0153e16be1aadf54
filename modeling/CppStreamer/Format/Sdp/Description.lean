import CppStreamer.Format.Sdp.Lines

/-!
This module contains the lines of a whole description, and which sections are read from them.
-/

open StringEx

namespace Sdp

section Ignored

variable {stack : UInt32 → Bool × UInt32} {s : SdpTransform}

def attrs : List (List UInt8) :=
  [ protoVerAttr, sessionNameAttr, sessionAttr, mAttr, rtpMapAttr, fmtpAttr, rtcpFbAttr, extAttr, fidAttr, ssrcAttr,
    candidateAttr, ufragAttr, pwdAttr ]

theorem parseLine_unknown {line : Line} (h : ∀ attr ∈ attrs, ¬attr <+: removeSubfix line [13])
    : SdpTransform.parseLine stack s line = some s := by
  simp only [attrs, List.forall_mem_cons, ← List.isPrefixOf_iff_prefix] at h
  simp only [SdpTransform.parseLine, parseAttr_eq, h, Bool.false_eq_true, if_false]

/--
No attribute starts like this.
-/
def Unknown (front : List UInt8) : Prop :=
  front.getLast? ≠ some 13 ∧ ∀ attr ∈ attrs, ¬attr <+: front ∧ ¬front <+: attr

instance (front : List UInt8) : Decidable (Unknown front) :=
  inferInstanceAs (Decidable (front.getLast? ≠ some 13 ∧ ∀ attr ∈ attrs, ¬attr <+: front ∧ ¬front <+: attr))

theorem readable_unknown {front : List UInt8} (h : Unknown front) (y : List UInt8)
    : (Item.other (front ++ y)).Readable := by
  intro stack s
  rw [parseLine_unknown]
  . rfl
  . intro attr hattr hprefix
    rw [removeSubfix_append h.1] at hprefix
    rcases List.prefix_or_prefix_of_prefix hprefix (List.prefix_append front _) with hp | hp
    . exact (h.2 attr hattr).1 hp
    . exact (h.2 attr hattr).2 hp

theorem readable_constant {line : Line} (hlast : line.getLast? ≠ some 13) (h : ∀ attr ∈ attrs, ¬attr <+: line)
    : (Item.other line).Readable := by
  intro stack s
  rw [parseLine_unknown]
  . rfl
  . rwa [removeSubfix_of_getLast hlast]

theorem readable_version (y : List UInt8) : (Item.other (utf8 "v=" ++ y)).Readable := by
  intro stack s
  rw [SdpTransform.parseLine, removeSubfix_append (by decide), parseAttr_eq]
  rfl

theorem readable_name (y : List UInt8) : (Item.other (utf8 "s=" ++ y)).Readable := by
  intro stack s
  rw [SdpTransform.parseLine, removeSubfix_append (by decide), parseAttr_eq]
  rfl

theorem readable_session (y : List UInt8) : (Item.other (utf8 "o=- " ++ y)).Readable := by
  intro stack s
  have hkeeps : ∀ line, (s.parseSession line).toSections = s.toSections := by
    intro line
    unfold SdpTransform.parseSession
    split
    . split <;> rfl
    . rfl
  have hdispatch : ∀ y, SdpTransform.parseAttr stack s (utf8 "o=- " ++ y)
      = some (s.parseSession (utf8 "o=- " ++ y)) := fun _ => parseAttr_eq _
  rw [SdpTransform.parseLine, removeSubfix_append (by decide), hdispatch, Option.map_some, hkeeps]

theorem readable_extMap (y : List UInt8) : (Item.other (utf8 "a=extmap:" ++ y)).Readable := by
  intro stack s
  have hfront : ∀ y, substr (utf8 "a=extmap:" ++ y) (extAttr.length + 1) = some y := substr_front (by decide)
  have hdispatch : ∀ y, SdpTransform.parseAttr stack s (utf8 "a=extmap:" ++ y)
      = s.parseExtMap (utf8 "a=extmap:" ++ y) := fun _ => parseAttr_eq _
  rw [SdpTransform.parseLine, removeSubfix_append (by decide), hdispatch, SdpTransform.parseExtMap, hfront]
  simp only [Option.bind_eq_bind, Option.bind_some]
  cases find [32] (removeSubfix y [13]) <;> rfl

theorem readable_ufrag (y : List UInt8) : (Item.other (utf8 "a=ice-ufrag:" ++ y)).Readable := by
  intro stack s
  have hdispatch : ∀ y, SdpTransform.parseAttr stack s (utf8 "a=ice-ufrag:" ++ y)
      = some (s.parseUfrag (utf8 "a=ice-ufrag:" ++ y)) := fun _ => parseAttr_eq _
  rw [SdpTransform.parseLine, removeSubfix_append (by decide), hdispatch, Option.map_some, SdpTransform.parseUfrag]
  split <;> rfl

theorem readable_pwd (y : List UInt8) : (Item.other (utf8 "a=ice-pwd:" ++ y)).Readable := by
  intro stack s
  have hdispatch : ∀ y, SdpTransform.parseAttr stack s (utf8 "a=ice-pwd:" ++ y)
      = some (s.parsePwd (utf8 "a=ice-pwd:" ++ y)) := fun _ => parseAttr_eq _
  rw [SdpTransform.parseLine, removeSubfix_append (by decide), hdispatch, Option.map_some, SdpTransform.parsePwd]
  split <;> rfl

theorem readable_direction (direction : Option WebRtcSdpDirection)
    : (Item.other (utf8 "a=" ++ getDirectionString direction)).Readable := by
  apply readable_constant
  . rcases direction with _ | _ | _ | _ <;> decide
  . rcases direction with _ | _ | _ | _ <;> decide

end Ignored

namespace SdpTransform

section Items

def ssrcItems (info : SSRCInfo) : List Item :=
  [.msid info.ssrc info.msid info.msidAppdata, .cname info.ssrc info.cname]

def ssrcsItems (draws : Draws) (s : SdpTransform) (isVideo : Bool) : List Item :=
  let after := (s.getSsrcs draws isVideo).2
  if isVideo then
    let infos := s.ssrcInfoMap.infos.filter (·.isVideo)
    (infos.filter (!·.isRtx)).flatMap ssrcItems ++ (infos.filter (·.isRtx)).flatMap ssrcItems
      ++ [.fid after.videoSsrc after.videoRtxSsrc, .other (utf8 "a=rtcp-mux"), .other (utf8 "a=rtcp-rsize")]
  else
    (s.ssrcInfoMap.infos.filter (!·.isVideo)).flatMap ssrcItems
      ++ [ .msid after.audioSsrc (utf8 "-") after.audio.msid, .cname after.audioSsrc after.audioCname,
        .other (utf8 "a=rtcp-mux") ]

def descItems (draws : Draws) (s : SdpTransform) (isVideo : Bool) : List Item :=
  let m := s.media isVideo
  .media isVideo m.ptVec :: getConnection.map .other
    ++ m.rtpMapInfos.infos.map (.rtpMap isVideo)
    ++ m.fmtpVec.map .fmtp
    ++ .other (utf8 "a=rtcp:9 IN IP4 0.0.0.0") :: m.rtcpfbVec.map .rtcpFb
    ++ (s.getExtMap isVideo).map .other
    ++ (s.getMidInfo draws isVideo).1.map .other
    ++ (getIceInfo (s.getMidInfo draws isVideo).2.dtls).map .other
    ++ (s.getMidInfo draws isVideo).2.ssrcsItems draws isVideo

/--
The description when its sections are written.
-/
def named (draws : Draws) (s : SdpTransform) : SdpTransform := (s.getSessionIdentifier draws).2.getSessionName.2

def items (draws : Draws) (s : SdpTransform) (hasVideo hasAudio : Bool) : List Item :=
  (s.getProtoVersion ++ (s.getSessionIdentifier draws).1 ++ (s.getSessionIdentifier draws).2.getSessionName.1
      ++ getTimeScale 0 0 ++ getBasicAttr hasVideo hasAudio).map .other
    ++ (s.named draws).descItems draws true ++ ((s.named draws).getDesc draws true).2.descItems draws false

variable (draws : Draws) (s : SdpTransform)

theorem map_line_other (lines : List Line) : (lines.map Item.other).map Item.line = lines := by
  rw [List.map_map]
  exact List.map_id lines

theorem map_line_ssrcItems (infos : List SSRCInfo)
    : (infos.flatMap ssrcItems).map Item.line = infos.flatMap ssrcLines := by
  rw [List.map_flatMap]
  rfl

theorem map_line_ssrcsItems (isVideo : Bool)
    : (s.ssrcsItems draws isVideo).map Item.line = (s.getSsrcs draws isVideo).1 := by
  cases isVideo with
  | false =>
    simp only [ssrcsItems, Bool.false_eq_true, if_false, List.map_append, map_line_ssrcItems]
    rfl
  | true =>
    simp only [ssrcsItems, if_true, List.map_append, map_line_ssrcItems]
    rfl

theorem map_line_descItems (isVideo : Bool)
    : (s.descItems draws isVideo).map Item.line = (s.getDesc draws isVideo).1 := by
  have hrtpMap : (m : Media) → (m.rtpMapInfos.infos.map (Item.rtpMap isVideo)).map Item.line
      = m.rtpMapInfos.infos.map (rtpMapLine isVideo) := fun m => List.map_map
  have hfmtp : (m : Media) → (m.fmtpVec.map Item.fmtp).map Item.line = m.fmtpVec.map fmtpLine :=
    fun m => List.map_map
  have hrtcpFb : (m : Media) → (m.rtcpfbVec.map Item.rtcpFb).map Item.line = m.rtcpfbVec.map rtcpFbLine :=
    fun m => List.map_map
  simp only [descItems, List.map_append, List.map_cons, map_line_other, map_line_ssrcsItems, hrtpMap, hfmtp, hrtcpFb]
  cases isVideo <;> rfl

theorem map_line_items (hasVideo hasAudio : Bool)
    : (s.items draws hasVideo hasAudio).map Item.line = (s.sdpLines draws hasVideo hasAudio).1 := by
  simp only [items, List.map_append, map_line_other, map_line_descItems]
  rfl

end Items

end SdpTransform

section Sound

/--
A line that is read as what it says, and that is one line.
-/
def Item.Sound (item : Item) : Prop := item.Readable ∧ 10 ∉ item.line

theorem plain_int (n : Int) : 10 ∉ intText n := not_mem_intText n (by decide) (by decide)

theorem plain_nat (n : Nat) : 10 ∉ natText n := fun h => absurd (isDigit_of_mem_natText h) (by decide)

theorem plain_cons {c : UInt8} {y : List UInt8} (hc : c ≠ 10) (h : 10 ∉ y) : 10 ∉ c :: y :=
  List.not_mem_cons_of_ne_of_not_mem hc.symm h

theorem sound_media (isVideo : Bool) (pts : List Int32) : (Item.media isVideo pts).Sound := by
  constructor
  . trivial
  . have hpts := not_mem_flatMap_intText (c := 10) (by decide) (by decide) (by decide) pts
    have hname : 10 ∉ (if isVideo then utf8 "video" else utf8 "audio") := by
      cases isVideo <;> decide
    exact List.not_mem_append (by decide) (List.not_mem_append hname (plain_cons (by decide)
      (List.not_mem_append (by decide) (plain_cons (by decide) (List.not_mem_append (by decide) hpts)))))

theorem sound_rtpMap (isVideo : Bool) {info : RtpMapInfo} (hcodec : 47 ∉ info.codecType) (h : 10 ∉ info.codecType)
    : (Item.rtpMap isVideo info).Sound := by
  constructor
  . exact hcodec
  . have hchannel : 10 ∉ if !isVideo ∧ 0 < info.channel then 47 :: intText info.channel.toInt else [] := by
      split
      . exact plain_cons (by decide) (plain_int _)
      . exact List.not_mem_nil
    exact List.not_mem_append (by decide) (List.not_mem_append (plain_int _) (plain_cons (by decide)
      (List.not_mem_append h (plain_cons (by decide) (List.not_mem_append (plain_int _) hchannel)))))

theorem sound_fmtp {info : FmtpInfo} (h : 10 ∉ info.attrString) : (Item.fmtp info).Sound :=
  ⟨trivial, List.not_mem_append (by decide) (List.not_mem_append (plain_int _) (plain_cons (by decide) h))⟩

theorem sound_rtcpFb {info : RtcpFbInfo} (h : 10 ∉ info.attrString) : (Item.rtcpFb info).Sound :=
  ⟨trivial, List.not_mem_append (by decide) (List.not_mem_append (plain_int _) (plain_cons (by decide) h))⟩

theorem sound_msid (ssrc : UInt32) {msid appdata : List UInt8} (hmsid : 10 ∉ msid) (happdata : 10 ∉ appdata)
    : (Item.msid ssrc msid appdata).Sound :=
  ⟨trivial, List.not_mem_append (by decide) (List.not_mem_append (plain_nat _) (plain_cons (by decide)
    (List.not_mem_append (by decide) (List.not_mem_append hmsid (plain_cons (by decide) happdata)))))⟩

theorem sound_cname (ssrc : UInt32) {cname : List UInt8} (h : 10 ∉ cname) : (Item.cname ssrc cname).Sound :=
  ⟨trivial, List.not_mem_append (by decide) (List.not_mem_append (plain_nat _) (plain_cons (by decide)
    (List.not_mem_append (by decide) h)))⟩

theorem sound_fid (ssrc rtxSsrc : UInt32) : (Item.fid ssrc rtxSsrc).Sound :=
  ⟨trivial, List.not_mem_append (by decide) (List.not_mem_append (plain_nat _) (plain_cons (by decide) (plain_nat _)))⟩

theorem sound_unknown {front y : List UInt8} (hfront : Unknown front ∧ 10 ∉ front) (hy : 10 ∉ y)
    : (Item.other (front ++ y)).Sound :=
  ⟨readable_unknown hfront.1 y, List.not_mem_append hfront.2 hy⟩

theorem sound_constant {line : Line} (h : (line.getLast? ≠ some 13 ∧ ∀ attr ∈ attrs, ¬attr <+: line) ∧ 10 ∉ line)
    : (Item.other line).Sound :=
  ⟨readable_constant h.1.1 h.1.2, h.2⟩

theorem sound_ssrcItems {info : SSRCInfo} (hmsid : 10 ∉ info.msid) (happdata : 10 ∉ info.msidAppdata)
    (hcname : 10 ∉ info.cname) : ∀ item ∈ SdpTransform.ssrcItems info, item.Sound := by
  simp only [SdpTransform.ssrcItems, List.forall_mem_cons]
  exact ⟨sound_msid _ hmsid happdata, sound_cname _ hcname, List.forall_mem_nil _⟩

theorem sound_basicAttr (hasVideo hasAudio : Bool)
    : ∀ line ∈ SdpTransform.getBasicAttr hasVideo hasAudio, (Item.other line).Sound := by
  have hgroup : ∀ x y, 10 ∉ x → 10 ∉ y → (Item.other (utf8 "a=group:BUNDLE" ++ x ++ y)).Sound := by
    intro x y hx hy
    rw [List.append_assoc]
    exact sound_unknown (by decide) (List.not_mem_append hx hy)
  simp only [SdpTransform.getBasicAttr, List.forall_mem_cons]
  refine ⟨⟨fun _ _ => rfl, by decide⟩, sound_constant (by decide), hgroup _ _ ?_ ?_, List.forall_mem_nil _⟩
  . split
    . exact plain_cons (by decide) (plain_nat _)
    . exact List.not_mem_nil
  . split
    . exact plain_cons (by decide) (plain_nat _)
    . exact List.not_mem_nil

variable {draws : Draws} {s : SdpTransform}

theorem sound_extMap (isVideo : Bool) : ∀ line ∈ s.getExtMap isVideo, (Item.other line).Sound := by
  have hline : ∀ (id : Int32) (uri : List UInt8), 10 ∉ uri → (Item.other (SdpTransform.extLine id uri)).Sound :=
    fun _ _ huri => ⟨readable_extMap _, List.not_mem_append (by decide) (List.not_mem_append (plain_int _)
      (plain_cons (by decide) huri))⟩
  have huris : (SdpTransform.exts s.em isVideo).all (fun ext => decide (10 ∉ ext.2)) = true := by
    cases isVideo <;> rfl
  intro line hmem
  rcases List.mem_map.mp hmem with ⟨ext, hext, rfl⟩
  exact hline _ _ (of_decide_eq_true (List.all_eq_true.mp huris ext (List.mem_of_mem_filter hext)))

def RtcDtls.texts (dtls : RtcDtls) : List (List UInt8) :=
  [dtls.localFragment, dtls.localPwd, dtls.fgAlgorithm, dtls.fingerprint]

theorem sound_iceInfo {dtls : RtcDtls} (h : ∀ text ∈ dtls.texts, 10 ∉ text)
    : ∀ line ∈ SdpTransform.getIceInfo dtls, (Item.other line).Sound := by
  simp only [RtcDtls.texts, List.forall_mem_cons] at h
  obtain ⟨hfragment, hpwd, halgorithm, hprint, -⟩ := h
  simp only [SdpTransform.getIceInfo, List.forall_mem_cons]
  refine ⟨⟨readable_ufrag _, List.not_mem_append (by decide) hfragment⟩,
    ⟨readable_pwd _, List.not_mem_append (by decide) hpwd⟩, sound_unknown (by decide)
      (List.not_mem_append halgorithm (plain_cons (by decide) hprint)), sound_constant (by decide), List.forall_mem_nil _⟩

/--
The texts of a section.
-/
def Media.texts (m : Media) : List (List UInt8) :=
  [m.msid, m.msidAppdata] ++ m.rtpMapInfos.infos.map (·.codecType) ++ m.fmtpVec.map (·.attrString)
    ++ m.rtcpfbVec.map (·.attrString)

def Draws.texts (draws : Draws) : List (List UInt8) :=
  [draws.vMsid, draws.vMsidAppdata, draws.aMsid, draws.aMsidAppdata, draws.audioCname]

theorem plain_withMsid {m : Media} (isVideo : Bool) (hdraws : ∀ text ∈ draws.texts, 10 ∉ text)
    (hmsid : 10 ∉ m.msid) (happdata : 10 ∉ m.msidAppdata)
    : 10 ∉ (SdpTransform.withMsid draws m isVideo).msid
      ∧ 10 ∉ (SdpTransform.withMsid draws m isVideo).msidAppdata := by
  simp only [Draws.texts, List.forall_mem_cons] at hdraws
  obtain ⟨hvMsid, hvAppdata, haMsid, haAppdata, -⟩ := hdraws
  unfold SdpTransform.withMsid
  constructor <;> dsimp only <;> split_ifs
  exacts [hvMsid, haMsid, hmsid, hvAppdata, haAppdata, happdata]

theorem sound_midInfo (isVideo : Bool) (hsetup : 10 ∉ s.setup) (hdraws : ∀ text ∈ draws.texts, 10 ∉ text)
    (hmsid : 10 ∉ (s.media isVideo).msid) (happdata : 10 ∉ (s.media isVideo).msidAppdata)
    : ∀ line ∈ (s.getMidInfo draws isVideo).1, (Item.other line).Sound := by
  have hplain := plain_withMsid isVideo hdraws hmsid happdata
  have hmid : ∀ line ∈ s.getMid isVideo, (Item.other line).Sound := by
    have hline : ∀ mid, ∀ line ∈ SdpTransform.midLines mid, (Item.other line).Sound := by
      intro mid line hline
      rw [List.mem_singleton.mp hline]
      exact sound_unknown (by decide) (plain_int _)
    unfold SdpTransform.getMid
    split_ifs
    . exact hline _
    . exact List.forall_mem_nil _
    . exact hline _
    . exact List.forall_mem_nil _
  simp only [SdpTransform.getMidInfo, List.forall_mem_append, List.forall_mem_cons]
  refine ⟨⟨⟨⟨sound_unknown (by decide) hsetup, List.forall_mem_nil _⟩, hmid⟩, ?_⟩,
    ⟨readable_direction _, ?_⟩, List.forall_mem_nil _⟩
  . split
    . intro line hline
      rw [List.mem_singleton.mp hline]
      exact sound_unknown (by decide) (List.not_mem_append hplain.1 (plain_cons (by decide) hplain.2))
    . exact List.forall_mem_nil _
  . rcases s.direction with _ | _ | _ | _ <;> decide

def SSRCInfo.texts (info : SSRCInfo) : List (List UInt8) := [info.msid, info.msidAppdata, info.cname]

/--
What a section is written from fits into lines.
-/
structure PlainSection (draws : Draws) (s : SdpTransform) (isVideo : Bool) : Prop where
  setup : 10 ∉ s.setup
  draws : ∀ text ∈ draws.texts, 10 ∉ text
  dtls : ∀ text ∈ s.dtls.texts, 10 ∉ text
  media : ∀ text ∈ (s.media isVideo).texts, 10 ∉ text
  codecs : ∀ info ∈ (s.media isVideo).rtpMapInfos.infos, 47 ∉ info.codecType
  ssrcs : ∀ info ∈ s.ssrcInfoMap.infos, ∀ text ∈ info.texts, 10 ∉ text

theorem PlainSection.sound_ssrcsItems {isVideo : Bool} (h : PlainSection draws s isVideo)
    : ∀ item ∈ (s.getMidInfo draws isVideo).2.ssrcsItems draws isVideo, item.Sound := by
  have hinfos : ∀ infos : List SSRCInfo, (∀ info ∈ infos, info ∈ s.ssrcInfoMap.infos)
      → ∀ item ∈ infos.flatMap SdpTransform.ssrcItems, item.Sound := by
    intro infos hsub item hitem
    rcases List.mem_flatMap.mp hitem with ⟨info, hinfo, hmem⟩
    have hplain := h.ssrcs info (hsub info hinfo)
    simp only [SSRCInfo.texts, List.forall_mem_cons] at hplain
    exact sound_ssrcItems hplain.1 hplain.2.1 hplain.2.2.1 item hmem
  have hdraws := h.draws
  simp only [Draws.texts, List.forall_mem_cons] at hdraws
  have hcname := hdraws.2.2.2.2.1
  cases isVideo with
  | true =>
    simp only [SdpTransform.ssrcsItems, if_true, List.forall_mem_append, List.forall_mem_cons]
    refine ⟨⟨hinfos _ ?_, hinfos _ ?_⟩, sound_fid _ _, sound_constant (by decide), sound_constant (by decide),
      List.forall_mem_nil _⟩
    . exact fun info hinfo => List.mem_of_mem_filter (List.mem_of_mem_filter hinfo)
    . exact fun info hinfo => List.mem_of_mem_filter (List.mem_of_mem_filter hinfo)
  | false =>
    have hmedia := h.media
    simp only [Media.texts, List.forall_mem_append, List.forall_mem_cons] at hmedia
    have hmsid := (plain_withMsid false h.draws hmedia.1.1.1.1 hmedia.1.1.1.2.1).1
    simp only [SdpTransform.ssrcsItems, Bool.false_eq_true, if_false, List.forall_mem_append, List.forall_mem_cons]
    refine ⟨hinfos _ ?_, sound_msid _ (by decide) hmsid, sound_cname _ hcname, sound_constant (by decide),
      List.forall_mem_nil _⟩
    exact fun info hinfo => List.mem_of_mem_filter hinfo

theorem PlainSection.sound_descItems {isVideo : Bool} (h : PlainSection draws s isVideo)
    : ∀ item ∈ s.descItems draws isVideo, item.Sound := by
  have hmedia := h.media
  simp only [Media.texts, List.forall_mem_append, List.forall_mem_cons, List.forall_mem_map] at hmedia
  obtain ⟨⟨⟨⟨hmsid, happdata, -⟩, hcodecs⟩, hfmtps⟩, hrtcpFbs⟩ := hmedia
  simp only [SdpTransform.descItems, List.forall_mem_append, List.forall_mem_cons, List.forall_mem_map]
  refine ⟨⟨⟨⟨⟨⟨⟨⟨sound_media _ _, ?_⟩, ?_⟩, ?_⟩, sound_constant (by decide), ?_⟩, sound_extMap _⟩, ?_⟩, ?_⟩,
    h.sound_ssrcsItems⟩
  . simp only [SdpTransform.getConnection, List.forall_mem_cons]
    exact ⟨sound_constant (by decide), List.forall_mem_nil _⟩
  . exact fun info hinfo => sound_rtpMap _ (h.codecs info hinfo) (hcodecs info hinfo)
  . exact fun info hinfo => sound_fmtp (hfmtps info hinfo)
  . exact fun info hinfo => sound_rtcpFb (hrtcpFbs info hinfo)
  . exact sound_midInfo _ h.setup h.draws hmsid happdata
  . apply sound_iceInfo
    cases isVideo <;> exact h.dtls

end Sound

end Sdp
