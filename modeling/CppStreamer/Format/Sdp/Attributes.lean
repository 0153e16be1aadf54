import CppStreamer.Format.Sdp.SdpTransform

/-!
This module contains what single lines say, apart from the state they are read in: `SdpTransform::ParseLine` first
reads a line and then acts on what it says.
-/

open StringEx

namespace Sdp

/--
What a line can say of a media section.
-/
inductive MediaAttr where
  | media (isVideo : Bool) (pts : List Int32)
  | rtpMap (info : RtpMapInfo)
  | fmtp (info : FmtpInfo)
  | rtcpFb (info : RtcpFbInfo)
  | cname (ssrc : UInt32) (cname : List UInt8)
  | msid (ssrc : UInt32) (msid appdata : List UInt8)
  | fid (mainSsrc slaveSsrc : UInt32) (ssrcs : List UInt32)
  deriving DecidableEq

/--
What a line can say of the session, in whatever section it is.
-/
inductive SessionAttr where
  | protoVer (text : List UInt8)
  | sessionName (text : List UInt8)
  | sessionId (text : List UInt8)
  | ext (info : ExtInfo)
  | candidate (info : IceInfo)
  | ufrag (text : List UInt8)
  | pwd (text : List UInt8)
  deriving DecidableEq

inductive Attr where
  | media (attr : MediaAttr)
  | session (attr : SessionAttr)
  | nothing
  deriving DecidableEq

variable (stack : UInt32 → Bool × UInt32)

/--
The entry of an `fmtp` line gets its `is_video` here.
-/
def Sections.act (v : Sections) : MediaAttr → Sections
  | .media isVideo pts => v.addPts isVideo pts
  | .rtpMap info => v.addRtpMap info
  | .fmtp info => v.addFmtp { info with isVideo := v.currentIsVideo }
  | .rtcpFb info => v.addRtcpFb info
  | .cname ssrc cname => v.setCname stack ssrc cname
  | .msid ssrc msid appdata => v.setMsid stack ssrc msid appdata
  | .fid mainSsrc slaveSsrc ssrcs => v.addFid mainSsrc slaveSsrc ssrcs

namespace SdpTransform

def addCandidate (s : SdpTransform) (info : IceInfo) : SdpTransform :=
  if info ∈ s.dtls.iceInfos then s
  else { s with dtls := { s.dtls with iceInfos := s.dtls.iceInfos ++ [info] } }

def actSession (s : SdpTransform) : SessionAttr → SdpTransform
  | .protoVer text => { s with protoVer := text }
  | .sessionName text => { s with sessionName := text }
  | .sessionId text => { s with sessionId := text }
  | .ext info => { s with extMap := s.extMap.insert info }
  | .candidate info => s.addCandidate info
  | .ufrag text =>
    if s.dtls.remoteFragment ≠ [] then s else { s with dtls := { s.dtls with remoteFragment := text } }
  | .pwd text => if s.dtls.remotePwd ≠ [] then s else { s with dtls := { s.dtls with remotePwd := text } }

def act (s : SdpTransform) : Attr → SdpTransform
  | .media attr => s.withSections (s.toSections.act stack attr)
  | .session attr => s.actSession attr
  | .nothing => s

end SdpTransform

namespace Attr

def ofSessionName (line : Line) : Attr :=
  match find [61] line with
  | none => nothing
  | some pos => session (.sessionName (line.drop (pos + 1)))

def ofSession (line : Line) : Attr :=
  match stringSplit 32 [] line with
  | id :: _ :: _ =>
    match find [61] id with
    | none => session (.sessionId id)
    | some pos => session (.sessionId (id.drop (pos + 1)))
  | _ => nothing

def ofM (line : Line) : Attr :=
  match find [61] line with
  | none => nothing
  | some pos =>
    let attrVec := stringSplit 32 [] (line.drop (pos + 1))
    if attrVec.length < 4 then nothing
    else media (.media (attrVec.headD [] = utf8 "video") ((attrVec.drop 3).map atoi32))

def ofRtpMap (line : Line) : Option Attr := do
  let rtpMapStr ← substr line (rtpMapAttr.length + 1)
  let (ptStr, codecClockStr) := match find [32] rtpMapStr with
    | none => (rtpMapStr, rtpMapStr)
    | some pos => (rtpMapStr.take pos, rtpMapStr.drop (pos + 1))
  match stringSplit 47 [] codecClockStr with
  | codecType :: clockRate :: items =>
    return media (.rtpMap
      { payloadType := atoi32 ptStr
        codecType := codecType
        clockRate := atoi32 clockRate
        channel := (items.head?.map atoi32).getD 0 })
  | _ => return nothing

def ofFmtp (line : Line) : Option Attr := do
  let fmtpStr ← substr line (fmtpAttr.length + 1)
  match find [32] fmtpStr with
  | none => return nothing
  | some pos =>
    let info ← Sections.fmtpInfo (atoi32 (fmtpStr.take pos)) (fmtpStr.drop (pos + 1)) true
    return media (.fmtp info)

def ofRtcpFb (line : Line) : Option Attr := do
  let rtcpFbString ← substr line (rtcpFbAttr.length + 1)
  match find [32] rtcpFbString with
  | none => return nothing
  | some pos =>
    return media (.rtcpFb { payloadType := atoi32 (rtcpFbString.take pos), attrString := rtcpFbString.drop (pos + 1) })

def ofExtMap (line : Line) : Option Attr := do
  let extString ← substr line (extAttr.length + 1)
  match find [32] extString with
  | none => return nothing
  | some pos => return session (.ext { extId := atoi32 (extString.take pos), desc := extString.drop (pos + 1) })

def ofSsrcGroupFid (line : Line) : Option Attr := do
  let ssrcsString ← substr line (fidAttr.length + 1)
  match (stringSplit 32 [] ssrcsString).map fun ssrc => (atoi32 ssrc).toUInt32 with
  | mainSsrc :: slaveSsrc :: ssrcs => return media (.fid mainSsrc slaveSsrc ssrcs)
  | _ => return nothing

def ofSsrcInfo (line : Line) : Option Attr := do
  let ssrcString ← substr line (ssrcAttr.length + 1)
  match find [32] ssrcString with
  | none => return nothing
  | some pos =>
    let ssrc := (atoi32 (ssrcString.take pos)).toUInt32
    let ssrcString := ssrcString.drop (pos + 1)
    if find cnameAttr ssrcString = some 0 then
      let cname ← substr ssrcString (cnameAttr.length + 1)
      return media (.cname ssrc cname)
    else if find msidAttr ssrcString = some 0 then
      let msidString ← substr ssrcString (msidAttr.length + 1)
      match find [32] msidString with
      | none => return nothing
      | some pos => return media (.msid ssrc (msidString.take pos) (msidString.drop (pos + 1)))
    else return nothing

def ofCandidate (line : Line) : Attr :=
  match stringSplit 32 [] (line.drop candidateAttr.length) with
  | _ :: _ :: net :: _ :: hostip :: port :: _ :: _ =>
    session (.candidate
      { netType := if net = utf8 "tcp" then .tcp else if net = utf8 "udp" then .udp else .unknown
        hostip := hostip
        port := (atoi32 port).toUInt32.toUInt16 })
  | _ => nothing

/--
What a line says. The result is `none` where `substr` throws, which is not up to the state.
-/
def ofLine (line : Line) : Option Attr :=
  if find protoVerAttr line = some 0 then some (session (.protoVer (line.drop protoVerAttr.length)))
  else if find sessionNameAttr line = some 0 then some (ofSessionName line)
  else if find sessionAttr line = some 0 then some (ofSession line)
  else if find mAttr line = some 0 then some (ofM line)
  else if find rtpMapAttr line = some 0 then ofRtpMap line
  else if find fmtpAttr line = some 0 then ofFmtp line
  else if find rtcpFbAttr line = some 0 then ofRtcpFb line
  else if find extAttr line = some 0 then ofExtMap line
  else if find fidAttr line = some 0 then ofSsrcGroupFid line
  else if find ssrcAttr line = some 0 then ofSsrcInfo line
  else if find candidateAttr line = some 0 then some (ofCandidate line)
  else if find ufragAttr line = some 0 then some (session (.ufrag (line.drop ufragAttr.length)))
  else if find pwdAttr line = some 0 then some (session (.pwd (line.drop pwdAttr.length)))
  else some nothing

end Attr

namespace SdpTransform

variable (s : SdpTransform) (line : Line)

theorem parseSessionName_eq_act : s.parseSessionName line = s.act stack (Attr.ofSessionName line) := by
  rw [parseSessionName, Attr.ofSessionName]
  cases find [61] line <;> rfl

theorem parseSession_eq_act : s.parseSession line = s.act stack (Attr.ofSession line) := by
  rw [parseSession, Attr.ofSession]
  rcases stringSplit 32 [] line with _ | ⟨id, _ | _⟩
  . rfl
  . rfl
  . simp only
    cases find [61] id <;> rfl

theorem parseM_eq_act : s.withSections (s.parseM line) = s.act stack (Attr.ofM line) := by
  rw [Sections.parseM, Attr.ofM]
  cases find [61] line with
  | none => rfl
  | some pos =>
    simp only
    by_cases hlength : (stringSplit 32 [] (line.drop (pos + 1))).length < 4
    . rw [if_pos hlength, if_pos hlength]
      rfl
    . rw [if_neg hlength, if_neg hlength]
      rfl

theorem parseRtpMap_eq_act : (s.parseRtpMap line).map s.withSections = (Attr.ofRtpMap line).map (s.act stack) := by
  rw [Sections.parseRtpMap, Attr.ofRtpMap]
  cases substr line (rtpMapAttr.length + 1) with
  | none => rfl
  | some rtpMapStr =>
    simp only [Option.bind_eq_bind, Option.bind_some]
    cases find [32] rtpMapStr with
    | none =>
      simp only
      rcases stringSplit 47 [] rtpMapStr with _ | ⟨_, _ | _⟩ <;> rfl
    | some pos =>
      simp only
      rcases stringSplit 47 [] (rtpMapStr.drop (pos + 1)) with _ | ⟨_, _ | _⟩ <;> rfl

theorem fmtpInfo_isVideo (payloadType : Int32) (attr : List UInt8) (isVideo : Bool)
    : Sections.fmtpInfo payloadType attr isVideo
      = (Sections.fmtpInfo payloadType attr true).map fun info => { info with isVideo := isVideo } := by
  rw [Sections.fmtpInfo, Sections.fmtpInfo]
  cases find aptAttr attr with
  | none => rfl
  | some pos =>
    simp only [Option.bind_eq_bind]
    cases substr attr (pos + aptAttr.length + 1) <;> rfl

theorem parseFmtp_eq_act : (s.parseFmtp line).map s.withSections = (Attr.ofFmtp line).map (s.act stack) := by
  rw [Sections.parseFmtp, Attr.ofFmtp]
  cases substr line (fmtpAttr.length + 1) with
  | none => rfl
  | some fmtpStr =>
    simp only [Option.bind_eq_bind, Option.bind_some]
    cases find [32] fmtpStr with
    | none => rfl
    | some pos =>
      simp only
      rw [fmtpInfo_isVideo]
      cases Sections.fmtpInfo (atoi32 (fmtpStr.take pos)) (fmtpStr.drop (pos + 1)) true <;> rfl

theorem parseRtcpFb_eq_act : (s.parseRtcpFb line).map s.withSections = (Attr.ofRtcpFb line).map (s.act stack) := by
  rw [Sections.parseRtcpFb, Attr.ofRtcpFb]
  cases substr line (rtcpFbAttr.length + 1) with
  | none => rfl
  | some rtcpFbString =>
    simp only [Option.bind_eq_bind, Option.bind_some]
    cases find [32] rtcpFbString <;> rfl

theorem parseExtMap_eq_act : s.parseExtMap line = (Attr.ofExtMap line).map (s.act stack) := by
  rw [parseExtMap, Attr.ofExtMap]
  cases substr line (extAttr.length + 1) with
  | none => rfl
  | some extString =>
    simp only [Option.bind_eq_bind, Option.bind_some]
    cases find [32] extString <;> rfl

theorem parseSsrcGroupFid_eq_act
    : (s.parseSsrcGroupFid line).map s.withSections = (Attr.ofSsrcGroupFid line).map (s.act stack) := by
  rw [Sections.parseSsrcGroupFid, Attr.ofSsrcGroupFid]
  cases substr line (fidAttr.length + 1) with
  | none => rfl
  | some ssrcsString =>
    simp only [Option.bind_eq_bind, Option.bind_some]
    rcases (stringSplit 32 [] ssrcsString).map fun ssrc => (atoi32 ssrc).toUInt32 with _ | ⟨_, _ | _⟩ <;> rfl

theorem parseSsrcInfo_eq_act
    : (s.parseSsrcInfo stack line).map s.withSections = (Attr.ofSsrcInfo line).map (s.act stack) := by
  rw [Sections.parseSsrcInfo, Attr.ofSsrcInfo]
  cases substr line (ssrcAttr.length + 1) with
  | none => rfl
  | some ssrcString =>
    simp only [Option.bind_eq_bind, Option.bind_some]
    cases find [32] ssrcString with
    | none => rfl
    | some pos =>
      simp only
      by_cases hcname : find cnameAttr (ssrcString.drop (pos + 1)) = some 0
      . rw [if_pos hcname, if_pos hcname]
        cases substr (ssrcString.drop (pos + 1)) (cnameAttr.length + 1) <;> rfl
      . rw [if_neg hcname, if_neg hcname]
        by_cases hmsid : find msidAttr (ssrcString.drop (pos + 1)) = some 0
        . rw [if_pos hmsid, if_pos hmsid]
          cases substr (ssrcString.drop (pos + 1)) (msidAttr.length + 1) with
          | none => rfl
          | some msidString =>
            simp only [Option.bind_some]
            cases find [32] msidString <;> rfl
        . rw [if_neg hmsid, if_neg hmsid]
          rfl

theorem parseCandidate_eq_act : s.parseCandidate line = s.act stack (Attr.ofCandidate line) := by
  rw [parseCandidate, Attr.ofCandidate]
  match stringSplit 32 [] (line.drop candidateAttr.length) with
  | [] | [_] | [_, _] | [_, _, _] | [_, _, _, _] | [_, _, _, _, _] | [_, _, _, _, _, _] => rfl
  | _ :: _ :: _ :: _ :: _ :: _ :: _ :: _ => rfl

/--
Reading a line comes before acting on it.
-/
theorem parseAttr_eq_act : s.parseAttr stack line = (Attr.ofLine line).map (s.act stack) := by
  rw [parseAttr, Attr.ofLine, parseSessionName_eq_act stack, parseSession_eq_act stack, parseM_eq_act stack,
    parseRtpMap_eq_act stack, parseFmtp_eq_act stack, parseRtcpFb_eq_act stack, parseExtMap_eq_act stack,
    parseSsrcGroupFid_eq_act stack, parseSsrcInfo_eq_act stack, parseCandidate_eq_act stack]
  simp only [apply_ite (Option.map (s.act stack)), Option.map_some]
  rfl

end SdpTransform

end Sdp
