import CppStreamer.Format.Sdp.SdpTransform
import Mathlib.Data.List.Infix

/-!
This module contains what is read from each kind of line that is written, and from all the lines of a text.
-/

open StringEx

namespace Sdp

/--
A line by what it says. One that nothing of a media section is read from is kept as it is.
-/
inductive Item where
  | media (isVideo : Bool) (pts : List Int32)
  | rtpMap (isVideo : Bool) (info : RtpMapInfo)
  | fmtp (info : FmtpInfo)
  | rtcpFb (info : RtcpFbInfo)
  | msid (ssrc : UInt32) (msid appdata : List UInt8)
  | cname (ssrc : UInt32) (cname : List UInt8)
  | fid (ssrc rtxSsrc : UInt32)
  | other (line : Line)

variable {stack : UInt32 → Bool × UInt32} {s : SdpTransform}

namespace Item

def line : Item → Line
  | media isVideo pts => SdpTransform.mediaLine isVideo pts
  | rtpMap isVideo info => SdpTransform.rtpMapLine isVideo info
  | fmtp info => SdpTransform.fmtpLine info
  | rtcpFb info => SdpTransform.rtcpFbLine info
  | msid ssrc id appdata => SdpTransform.msidLine ssrc id appdata
  | cname ssrc name => SdpTransform.cnameLine ssrc name
  | fid ssrc rtxSsrc => SdpTransform.fidLine ssrc rtxSsrc
  | other text => text

/--
The number of channels is lost if it is not written.
-/
def readRtpMap (isVideo : Bool) (info : RtpMapInfo) : RtpMapInfo :=
  { info with channel := if !isVideo ∧ 0 < info.channel then info.channel else 0 }

def readFmtp (isVideo : Bool) (info : FmtpInfo) : Option FmtpInfo :=
  Sections.fmtpInfo info.payloadType (removeSubfix info.attrString [13]) isVideo

def readRtcpFb (info : RtcpFbInfo) : RtcpFbInfo := { info with attrString := removeSubfix info.attrString [13] }

/--
The text is cut at its first space.
-/
def readMsid (msid appdata : List UInt8) : List UInt8 × List UInt8 :=
  let text := msid ++ 32 :: removeSubfix appdata [13]
  (text.takeWhile fun c => c ≠ 32, (text.dropWhile fun c => c ≠ 32).tail)

def apply (stack : UInt32 → Bool × UInt32) (v : Sections) : Item → Option Sections
  | media isVideo pts => some (if pts = [] then v else v.addPts isVideo pts)
  | rtpMap isVideo info => some (v.addRtpMap (readRtpMap isVideo info))
  | fmtp info => (readFmtp v.currentIsVideo info).map v.addFmtp
  | rtcpFb info => some (v.addRtcpFb (readRtcpFb info))
  | msid ssrc id appdata => some (v.setMsid stack ssrc (readMsid id appdata).1 (readMsid id appdata).2)
  | cname ssrc name => some (v.setCname stack ssrc (removeSubfix name [13]))
  | fid ssrc rtxSsrc => some (v.addFid ssrc rtxSsrc [])
  | other _ => some v

/--
The slash that ends the name of a codec is not in it, and a line that is kept as it is says nothing.
-/
def Readable : Item → Prop
  | rtpMap _ info => 47 ∉ info.codecType
  | other text => ∀ stack s, (SdpTransform.parseLine stack s text).map (·.toSections) = some s.toSections
  | _ => True

end Item

section Line

theorem parseAttr_eq (line : Line)
    : SdpTransform.parseAttr stack s line
      = if protoVerAttr.isPrefixOf line then some { s with protoVer := line.drop protoVerAttr.length }
        else if sessionNameAttr.isPrefixOf line then some (s.parseSessionName line)
        else if sessionAttr.isPrefixOf line then some (s.parseSession line)
        else if mAttr.isPrefixOf line then some (s.withSections (s.parseM line))
        else if rtpMapAttr.isPrefixOf line then (s.parseRtpMap line).map s.withSections
        else if fmtpAttr.isPrefixOf line then (s.parseFmtp line).map s.withSections
        else if rtcpFbAttr.isPrefixOf line then (s.parseRtcpFb line).map s.withSections
        else if extAttr.isPrefixOf line then s.parseExtMap line
        else if fidAttr.isPrefixOf line then (s.parseSsrcGroupFid line).map s.withSections
        else if ssrcAttr.isPrefixOf line then (s.parseSsrcInfo stack line).map s.withSections
        else if candidateAttr.isPrefixOf line then some (s.parseCandidate line)
        else if ufragAttr.isPrefixOf line then some (s.parseUfrag line)
        else if pwdAttr.isPrefixOf line then some (s.parsePwd line)
        else some s := by
  simp only [SdpTransform.parseAttr, find_eq_zero_iff]

theorem substr_front {front : List UInt8} {n : Nat} (hn : n = front.length) (y : List UInt8)
    : substr (front ++ y) n = some y := by
  rw [hn, substr, if_neg (by simp), List.drop_left]

/--
The number in front of a space.
-/
theorem find_space_int (n : Int) (y : List UInt8) : find [32] (intText n ++ 32 :: y) = some (intText n).length :=
  find_append (not_mem_intText n (by decide) (by decide)) y

theorem find_space_nat (n : Nat) (y : List UInt8) : find [32] (natText n ++ 32 :: y) = some (natText n).length :=
  find_append (fun h => absurd (isDigit_of_mem_natText h) (by decide)) y

theorem take_front (front : List UInt8) (c : UInt8) (y : List UInt8) : (front ++ c :: y).take front.length = front :=
  List.take_left

theorem drop_front (front : List UInt8) (c : UInt8) (y : List UInt8)
    : (front ++ c :: y).drop (front.length + 1) = y := by
  rw [← List.drop_drop, List.drop_left]
  rfl

theorem intercalate_eq_flatMap (c : UInt8) (s : List UInt8) (pieces : List (List UInt8))
    : List.intercalate [c] (s :: pieces) = s ++ pieces.flatMap fun t => c :: t := by
  induction pieces generalizing s with
  | nil => simp
  | cons t pieces ih =>
    rw [List.intercalate_cons_cons, ih, List.flatMap_cons]
    simp

theorem removeSubfix_of_not_mem {c : UInt8} {s : List UInt8} (h : c ∉ s) : removeSubfix s [c] = s :=
  removeSubfix_of_getLast fun hlast => h (List.mem_of_getLast? hlast)

theorem removeSubfix_behind {c : UInt8} (hc : c ≠ 13) (front y : List UInt8)
    : removeSubfix (front ++ c :: y) [13] = front ++ c :: removeSubfix y [13] := by
  rw [List.append_cons front c y, removeSubfix_append (by simpa using hc), ← List.append_cons]

end Line

section Media

theorem not_mem_flatMap_intText {c : UInt8} (hdigit : isDigit c = false) (hc : c ≠ 45) (hspace : c ≠ 32)
    (pts : List Int32) : c ∉ pts.flatMap fun payload => 32 :: intText payload.toInt := by
  rw [List.mem_flatMap]
  rintro ⟨pt, -, hmem⟩
  rcases List.mem_cons.mp hmem with h | h
  . exact hspace h
  . exact not_mem_intText _ hdigit hc h

theorem stringSplit_mediaLine (isVideo : Bool) (pts : List Int32)
    : stringSplit 32 [] ((if isVideo then utf8 "video" else utf8 "audio") ++ 32 :: (utf8 "9" ++ 32 ::
        (utf8 "UDP/TLS/RTP/SAVPF" ++ pts.flatMap fun payload => 32 :: intText payload.toInt)))
      = (if isVideo then utf8 "video" else utf8 "audio") :: utf8 "9" :: utf8 "UDP/TLS/RTP/SAVPF"
        :: pts.map fun payload => intText payload.toInt := by
  have hname : 32 ∉ (if isVideo then utf8 "video" else utf8 "audio") := by
    cases isVideo <;> decide
  have hpts : ∀ s ∈ utf8 "UDP/TLS/RTP/SAVPF" :: pts.map (fun payload => intText payload.toInt), s ≠ [] ∧ 32 ∉ s := by
    intro s hs
    rcases List.mem_cons.mp hs with rfl | hs
    . decide
    . rcases List.mem_map.mp hs with ⟨pt, -, rfl⟩
      exact ⟨intText_ne_nil _, not_mem_intText _ (by decide) (by decide)⟩
  have hsplit := @stringSplit_intercalate 32 [] _ hpts
  rw [intercalate_eq_flatMap, List.flatMap_map] at hsplit
  rw [stringSplit_append_byte hname, stringSplit_append_byte (by decide), hsplit]

theorem parseM_mediaLine (v : Sections) (isVideo : Bool) (pts : List Int32)
    : v.parseM (SdpTransform.mediaLine isVideo pts) = if pts = [] then v else v.addPts isVideo pts := by
  have hfind : ∀ y, find [61] (utf8 "m=" ++ y) = some 1 := fun _ => rfl
  have hdrop : ∀ y, (utf8 "m=" ++ y).drop 2 = y := fun _ => rfl
  have hpts : (pts.map fun payload => intText payload.toInt).map atoi32 = pts := by
    rw [List.map_map]
    conv_rhs => rw [← List.map_id pts]
    exact List.map_congr_left fun pt _ => atoi32_intText pt
  rw [SdpTransform.mediaLine, Sections.parseM, hfind]
  simp only
  rw [hdrop, stringSplit_mediaLine]
  by_cases hnil : pts = []
  . rw [if_pos hnil, hnil]
    rfl
  . rw [if_neg hnil, if_neg]
    . simp only [List.headD_cons, List.drop_succ_cons, List.drop_zero, hpts]
      cases isVideo <;> rfl
    . have hpos := List.length_pos_iff.mpr hnil
      simp only [List.length_cons, List.length_map]
      omega

theorem parseLine_media (isVideo : Bool) (pts : List Int32)
    : SdpTransform.parseLine stack s (SdpTransform.mediaLine isVideo pts)
      = some (s.withSections (if pts = [] then s.toSections else s.addPts isVideo pts)) := by
  have hend : removeSubfix (SdpTransform.mediaLine isVideo pts) [13] = SdpTransform.mediaLine isVideo pts := by
    apply removeSubfix_of_not_mem
    have hpts := not_mem_flatMap_intText (c := 13) (by decide) (by decide) (by decide) pts
    have hconst : ∀ text ∈ [utf8 "m=", utf8 "video", utf8 "audio", utf8 "9", utf8 "UDP/TLS/RTP/SAVPF"], 13 ∉ text := by
      decide
    cases isVideo <;> simp_all [SdpTransform.mediaLine]
  have hdispatch : SdpTransform.parseAttr stack s (SdpTransform.mediaLine isVideo pts)
      = some (s.withSections (s.parseM (SdpTransform.mediaLine isVideo pts))) := parseAttr_eq _
  rw [SdpTransform.parseLine, hend, hdispatch, parseM_mediaLine]

end Media

section Attr

theorem parseRtpMap_line (v : Sections) (isVideo : Bool) (info : RtpMapInfo) (hcodec : 47 ∉ info.codecType)
    : v.parseRtpMap (SdpTransform.rtpMapLine isVideo info) = some (v.addRtpMap (Item.readRtpMap isVideo info)) := by
  have hfront : ∀ y, substr (utf8 "a=rtpmap:" ++ y) (rtpMapAttr.length + 1) = some y := substr_front (by decide)
  have hclock : 47 ∉ intText info.clockRate.toInt := not_mem_intText _ (by decide) (by decide)
  rw [SdpTransform.rtpMapLine, Sections.parseRtpMap, hfront]
  simp only [Option.bind_eq_bind, Option.bind_some, find_space_int, take_front, drop_front, atoi32_intText]
  rw [stringSplit_append_byte hcodec]
  by_cases hchannel : !isVideo ∧ 0 < info.channel
  . rw [if_pos hchannel, stringSplit_append_byte hclock,
      stringSplit_of_not_mem (not_mem_intText _ (by decide) (by decide)) (intText_ne_nil _)]
    simp only [List.head?_cons, Option.map_some, Option.getD_some, atoi32_intText, Item.readRtpMap, if_pos hchannel]
    rfl
  . rw [if_neg hchannel, List.append_nil, stringSplit_of_not_mem hclock (intText_ne_nil _)]
    simp only [List.head?_nil, Option.map_none, Option.getD_none, atoi32_intText, Item.readRtpMap, if_neg hchannel]
    rfl

theorem parseLine_rtpMap (isVideo : Bool) (info : RtpMapInfo) (hcodec : 47 ∉ info.codecType)
    : SdpTransform.parseLine stack s (SdpTransform.rtpMapLine isVideo info)
      = some (s.withSections (s.addRtpMap (Item.readRtpMap isVideo info))) := by
  have hend : removeSubfix (SdpTransform.rtpMapLine isVideo info) [13] = SdpTransform.rtpMapLine isVideo info := by
    have hnumber : ∀ n : Int, 13 ∉ intText n := fun n => not_mem_intText n (by decide) (by decide)
    rw [SdpTransform.rtpMapLine, removeSubfix_append (by decide), removeSubfix_behind (by decide),
      removeSubfix_behind (by decide), removeSubfix_of_not_mem]
    split <;> simp [hnumber]
  have hdispatch : SdpTransform.parseAttr stack s (SdpTransform.rtpMapLine isVideo info)
      = (s.parseRtpMap (SdpTransform.rtpMapLine isVideo info)).map s.withSections := parseAttr_eq _
  rw [SdpTransform.parseLine, hend, hdispatch, parseRtpMap_line _ _ _ hcodec]
  rfl

theorem parseFmtp_line (v : Sections) (payloadType : Int32) (attr : List UInt8)
    : v.parseFmtp (utf8 "a=fmtp:" ++ (intText payloadType.toInt ++ 32 :: attr))
      = (Sections.fmtpInfo payloadType attr v.currentIsVideo).map v.addFmtp := by
  have hfront : ∀ y, substr (utf8 "a=fmtp:" ++ y) (fmtpAttr.length + 1) = some y := substr_front (by decide)
  rw [Sections.parseFmtp, hfront]
  simp only [Option.bind_eq_bind, Option.bind_some, find_space_int, take_front, drop_front, atoi32_intText]
  cases Sections.fmtpInfo payloadType attr v.currentIsVideo <;> rfl

theorem parseLine_fmtp (info : FmtpInfo)
    : SdpTransform.parseLine stack s (SdpTransform.fmtpLine info)
      = (Item.readFmtp s.currentIsVideo info).map fun info => s.withSections (s.addFmtp info) := by
  have hdispatch : ∀ y, SdpTransform.parseAttr stack s (utf8 "a=fmtp:" ++ y)
      = (s.parseFmtp (utf8 "a=fmtp:" ++ y)).map s.withSections := fun _ => parseAttr_eq _
  rw [SdpTransform.fmtpLine, SdpTransform.parseLine, removeSubfix_append (by decide), removeSubfix_behind (by decide),
    hdispatch, parseFmtp_line, Option.map_map]
  rfl

theorem parseRtcpFb_line (v : Sections) (payloadType : Int32) (attr : List UInt8)
    : v.parseRtcpFb (utf8 "a=rtcp-fb:" ++ (intText payloadType.toInt ++ 32 :: attr))
      = some (v.addRtcpFb ⟨payloadType, attr⟩) := by
  have hfront : ∀ y, substr (utf8 "a=rtcp-fb:" ++ y) (rtcpFbAttr.length + 1) = some y := substr_front (by decide)
  rw [Sections.parseRtcpFb, hfront]
  simp only [Option.bind_eq_bind, Option.bind_some, find_space_int, take_front, drop_front, atoi32_intText]
  rfl

theorem parseLine_rtcpFb (info : RtcpFbInfo)
    : SdpTransform.parseLine stack s (SdpTransform.rtcpFbLine info)
      = some (s.withSections (s.addRtcpFb (Item.readRtcpFb info))) := by
  have hdispatch : ∀ y, SdpTransform.parseAttr stack s (utf8 "a=rtcp-fb:" ++ y)
      = (s.parseRtcpFb (utf8 "a=rtcp-fb:" ++ y)).map s.withSections := fun _ => parseAttr_eq _
  rw [SdpTransform.rtcpFbLine, SdpTransform.parseLine, removeSubfix_append (by decide),
    removeSubfix_behind (by decide), hdispatch, parseRtcpFb_line]
  rfl

end Attr

section Ssrc

theorem parseSsrcInfo_line (v : Sections) (ssrc : UInt32) (y : List UInt8)
    : v.parseSsrcInfo stack (utf8 "a=ssrc:" ++ (natText ssrc.toNat ++ 32 :: y))
      = if find cnameAttr y = some 0 then (substr y (cnameAttr.length + 1)).map (v.setCname stack ssrc)
        else if find msidAttr y = some 0 then
          (substr y (msidAttr.length + 1)).map fun text =>
            match find [32] text with
            | none => v
            | some pos => v.setMsid stack ssrc (text.take pos) (text.drop (pos + 1))
        else some v := by
  have hfront : ∀ y, substr (utf8 "a=ssrc:" ++ y) (ssrcAttr.length + 1) = some y := substr_front (by decide)
  rw [Sections.parseSsrcInfo, hfront]
  simp only [Option.bind_eq_bind, Option.bind_some, find_space_nat, take_front, drop_front, atoi32_natText]
  split
  . cases substr y (cnameAttr.length + 1) <;> rfl
  . split
    . cases substr y (msidAttr.length + 1) with
      | none => rfl
      | some text =>
        simp only [Option.bind_some, Option.map_some]
        cases find [32] text <;> rfl
    . rfl

theorem parseLine_ssrc (y : List UInt8)
    : SdpTransform.parseLine stack s (utf8 "a=ssrc:" ++ y)
      = (s.parseSsrcInfo stack (utf8 "a=ssrc:" ++ removeSubfix y [13])).map s.withSections := by
  rw [SdpTransform.parseLine, removeSubfix_append (by decide)]
  exact parseAttr_eq _

theorem parseLine_cname (ssrc : UInt32) (cname : List UInt8)
    : SdpTransform.parseLine stack s (SdpTransform.cnameLine ssrc cname)
      = some (s.withSections (s.setCname stack ssrc (removeSubfix cname [13]))) := by
  have hfront : ∀ y, substr (utf8 "cname:" ++ y) (cnameAttr.length + 1) = some y := substr_front (by decide)
  have hfind : ∀ y, find cnameAttr (utf8 "cname:" ++ y) = some 0 := fun y => find_eq_zero_iff.mpr rfl
  rw [SdpTransform.cnameLine, parseLine_ssrc, removeSubfix_behind (by decide), removeSubfix_append (by decide),
    parseSsrcInfo_line, if_pos (hfind _), hfront]
  rfl

theorem readMsid_cut {front back : List UInt8} (hfront : 32 ∉ front)
    : (front ++ 32 :: back).takeWhile (fun c => c ≠ 32) = front
      ∧ ((front ++ 32 :: back).dropWhile fun c => c ≠ 32).tail = back := by
  have hne : ∀ c ∈ front, decide (c ≠ 32) = true := by
    intro c hc
    rw [decide_eq_true_eq]
    rintro rfl
    exact hfront hc
  rw [List.takeWhile_append_of_pos hne, List.dropWhile_append_of_pos hne]
  simp

theorem parseLine_msid (ssrc : UInt32) (msid appdata : List UInt8)
    : SdpTransform.parseLine stack s (SdpTransform.msidLine ssrc msid appdata)
      = some (s.withSections
          (s.setMsid stack ssrc (Item.readMsid msid appdata).1 (Item.readMsid msid appdata).2)) := by
  have hfront : ∀ y, substr (utf8 "msid:" ++ y) (msidAttr.length + 1) = some y := substr_front (by decide)
  have hfind : ∀ y, find msidAttr (utf8 "msid:" ++ y) = some 0 := fun y => find_eq_zero_iff.mpr rfl
  have hcname : ∀ y, find cnameAttr (utf8 "msid:" ++ y) ≠ some 0 := by
    intro y h
    rw [find_eq_zero_iff] at h
    cases h
  rw [SdpTransform.msidLine, parseLine_ssrc, removeSubfix_behind (by decide), removeSubfix_append (by decide),
    removeSubfix_behind (by decide), parseSsrcInfo_line, if_neg (hcname _), if_pos (hfind _), hfront]
  have hspace : 32 ∈ msid ++ 32 :: removeSubfix appdata [13] := List.mem_append_right _ List.mem_cons_self
  obtain ⟨front, back, htext, hnot⟩ := List.eq_append_cons_of_mem hspace
  obtain ⟨htake, hdrop⟩ := @readMsid_cut _ back hnot
  have hpos : find [32] (front ++ 32 :: back) = some front.length := find_append hnot back
  simp only [Item.readMsid, htext, Option.map_some, hpos, htake, hdrop, take_front, drop_front]

theorem parseLine_fid (ssrc rtxSsrc : UInt32)
    : SdpTransform.parseLine stack s (SdpTransform.fidLine ssrc rtxSsrc)
      = some (s.withSections (s.addFid ssrc rtxSsrc [])) := by
  have hfront : ∀ y, substr (utf8 "a=ssrc-group:FID " ++ y) (fidAttr.length + 1) = some y := substr_front (by decide)
  have hspace : ∀ n, 32 ∉ natText n := fun n h => absurd (isDigit_of_mem_natText h) (by decide)
  have hend : removeSubfix (natText rtxSsrc.toNat) [13] = natText rtxSsrc.toNat :=
    removeSubfix_of_not_mem fun h => absurd (isDigit_of_mem_natText h) (by decide)
  have hdispatch : ∀ y, SdpTransform.parseAttr stack s (utf8 "a=ssrc-group:FID " ++ y)
      = (s.parseSsrcGroupFid (utf8 "a=ssrc-group:FID " ++ y)).map s.withSections := fun _ => parseAttr_eq _
  rw [SdpTransform.fidLine, SdpTransform.parseLine, removeSubfix_append (by decide), removeSubfix_behind (by decide), hend,
    hdispatch, Sections.parseSsrcGroupFid, hfront]
  simp only [Option.bind_eq_bind, Option.bind_some]
  rw [stringSplit_append_byte (hspace _), stringSplit_of_not_mem (hspace _) (natText_ne_nil _)]
  simp only [List.map_cons, List.map_nil, atoi32_natText]
  rfl

end Ssrc

namespace Item

theorem parseLine_line {item : Item} (hreadable : item.Readable)
    : (SdpTransform.parseLine stack s item.line).map (·.toSections) = item.apply stack s.toSections := by
  cases item with
  | media isVideo pts =>
    rw [line, parseLine_media]
    rfl
  | rtpMap isVideo info =>
    rw [line, parseLine_rtpMap isVideo info hreadable]
    rfl
  | fmtp info =>
    rw [line, parseLine_fmtp, Option.map_map]
    rfl
  | rtcpFb info =>
    rw [line, parseLine_rtcpFb]
    rfl
  | msid ssrc id appdata =>
    rw [line, parseLine_msid]
    rfl
  | cname ssrc name =>
    rw [line, parseLine_cname]
    rfl
  | fid ssrc rtxSsrc =>
    rw [line, parseLine_fid]
    rfl
  | other text => exact hreadable stack s

theorem parse_lines {items : List Item} (hreadable : ∀ item ∈ items, item.Readable)
    (hplain : ∀ item ∈ items, 10 ∉ item.line)
    : (SdpTransform.parse stack s ((items.map line).flatMap fun text => text ++ [10])).map (·.toSections)
      = items.foldlM (apply stack) s.toSections := by
  rw [SdpTransform.parse, stringSplit_flatMap (by simpa using hplain)]
  clear hplain
  induction items generalizing s with
  | nil => rfl
  | cons item items ih =>
    have hitem := @parseLine_line stack s _ (hreadable item List.mem_cons_self)
    rw [List.map_cons, List.foldlM_cons, List.foldlM_cons, ← hitem]
    cases SdpTransform.parseLine stack s item.line with
    | none => rfl
    | some s' => exact ih fun item h => hreadable item (List.mem_cons_of_mem _ h)

end Item

end Sdp
