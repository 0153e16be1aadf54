import CppStreamer.Basic.KeyedMap
import CppStreamer.Utils.StringEx

/-!
This module contains the model of `SdpTransform`: the text it writes for a description, and how it reads one.
-/

open StringEx

namespace Sdp

structure RtpMapInfo where
  payloadType : Int32
  codecType : List UInt8
  clockRate : Int32
  channel : Int32
  deriving DecidableEq, Repr

structure FmtpInfo where
  payloadType : Int32
  attrString : List UInt8
  isVideo : Bool
  isRtx : Bool
  rtxPayloadType : Int32
  deriving DecidableEq, Repr

structure RtcpFbInfo where
  payloadType : Int32
  attrString : List UInt8
  deriving DecidableEq, Repr

structure ExtInfo where
  extId : Int32
  desc : List UInt8
  deriving DecidableEq, Repr

structure SSRCInfo where
  ssrc : UInt32
  isVideo : Bool
  isRtx : Bool
  msid : List UInt8 := []
  msidAppdata : List UInt8 := []
  cname : List UInt8 := []
  rtxSsrc : UInt32
  deriving DecidableEq, Repr

abbrev RtpMapInfos := KeyedMap fun info : RtpMapInfo => info.payloadType.toInt

abbrev ExtMap := KeyedMap fun info : ExtInfo => info.extId.toInt

abbrev SsrcInfoMap := KeyedMap fun info : SSRCInfo => info.ssrc.toNat

/--
The fields that there are once for video and once for audio.
-/
structure Media where
  ptVec : List Int32 := []
  rtpMapInfos : RtpMapInfos := KeyedMap.empty
  fmtpVec : List FmtpInfo := []
  rtcpfbVec : List RtcpFbInfo := []
  fidVec : List UInt32 := []
  msid : List UInt8 := []
  msidAppdata : List UInt8 := []

inductive IceNetType where
  | unknown
  | tcp
  | udp
  deriving DecidableEq, Repr

structure IceInfo where
  netType : IceNetType
  hostip : List UInt8
  port : UInt16
  deriving DecidableEq, Repr

/--
What of `RtcDtls` is described.
-/
structure RtcDtls where
  fgAlgorithm : List UInt8 := []
  fingerprint : List UInt8 := []
  localFragment : List UInt8 := []
  localPwd : List UInt8 := []
  remoteFragment : List UInt8 := []
  remotePwd : List UInt8 := []
  iceInfos : List IceInfo := []

/--
The fields `em_toffset_` to `em_audio_level_`.
-/
structure ExtIds where
  toffset : Int32 := -1
  absSendTime : Int32 := -1
  videoRotation : Int32 := -1
  tcc : Int32 := -1
  playoutDelay : Int32 := -1
  videoContent : Int32 := -1
  videoTiming : Int32 := -1
  colorSpace : Int32 := -1
  sdes : Int32 := -1
  rtpStreamid : Int32 := -1
  rpRtpStreamid : Int32 := -1
  audioLevel : Int32 := -1

inductive WebRtcSdpDirection where
  | sendOnly
  | recvOnly
  | sendRecv
  deriving DecidableEq, Repr

/--
`PeerConnection::GetDirectionString`, the only function that gives a value to `direction_`. Its last branch is `none`.
-/
def getDirectionString : Option WebRtcSdpDirection → List UInt8
  | some .sendOnly => utf8 "sendonly"
  | some .recvOnly => utf8 "recvonly"
  | some .sendRecv => utf8 "sendrecv"
  | none => []

/--
The fields that the lines of the media sections are read into.
-/
structure Sections where
  hasVideo : Bool := false
  hasAudio : Bool := false
  video : Media := {}
  audio : Media := {}
  ssrcInfoMap : SsrcInfoMap := KeyedMap.empty
  videoSsrc : UInt32 := 0
  videoRtxSsrc : UInt32 := 0
  videoClockRate : Int32 := 90000
  videoRtxClockRate : Int32 := 90000
  audioClockRate : Int32 := 48000
  channel : Int32 := 2
  currentIsVideo : Bool := true

structure SdpTransform extends Sections where
  dtls : RtcDtls := {}
  protoVer : List UInt8 := utf8 "0"
  sessionName : List UInt8 := []
  sessionId : List UInt8 := []
  extMap : ExtMap := KeyedMap.empty
  em : ExtIds := {}
  setup : List UInt8 := utf8 "passive"
  vmid : Int32 := -1
  amid : Int32 := -1
  direction : Option WebRtcSdpDirection := some .sendOnly
  audioSsrc : UInt32 := 0
  audioCname : List UInt8 := []

/--
What `UUID` and `ByteCrypto` draw for one description.
-/
structure Draws where
  sessionId : List UInt8
  vMsid : List UInt8
  vMsidAppdata : List UInt8
  aMsid : List UInt8
  aMsidAppdata : List UInt8
  audioSsrc : UInt32
  audioCname : List UInt8

abbrev Line := List UInt8

def Sections.media (s : Sections) (isVideo : Bool) : Media := if isVideo then s.video else s.audio

namespace SdpTransform

section Gen

def getProtoVersion (s : SdpTransform) : List Line := [utf8 "v=" ++ s.protoVer]

def getSessionIdentifier (draws : Draws) (s : SdpTransform) : List Line × SdpTransform :=
  ([utf8 "o=- " ++ draws.sessionId ++ utf8 " 2 IN IP4 127.0.0.1"], { s with sessionId := draws.sessionId })

def getSessionName (s : SdpTransform) : List Line × SdpTransform :=
  let name := if s.sessionName = [] then utf8 "cpp_streamer" else s.sessionName
  ([utf8 "s=" ++ name], { s with sessionName := name })

def getTimeScale (start finish : Int) : List Line := [utf8 "t=" ++ intText start ++ 32 :: intText finish]

def getBasicAttr (hasVideo hasAudio : Bool) : List Line :=
  let audioIndex := if hasVideo then 1 else 0
  [ utf8 "a=extmap-allow-mixed",
    utf8 "a=msid-semantic: WMS",
    utf8 "a=group:BUNDLE" ++ (if hasVideo then 32 :: natText 0 else [])
      ++ (if hasAudio then 32 :: natText audioIndex else []) ]

def getConnection : List Line := [utf8 "c=IN IP4 0.0.0.0"]

def mediaLine (isVideo : Bool) (pts : List Int32) : Line :=
  utf8 "m=" ++ ((if isVideo then utf8 "video" else utf8 "audio") ++ 32 :: (utf8 "9" ++ 32 :: (utf8 "UDP/TLS/RTP/SAVPF"
    ++ pts.flatMap fun payload => 32 :: intText payload.toInt)))

def getMediaDesc (s : SdpTransform) (isVideo : Bool) : List Line := [mediaLine isVideo (s.media isVideo).ptVec]

/--
The line of an entry. The number of channels is for audio only.
-/
def rtpMapLine (isVideo : Bool) (info : RtpMapInfo) : Line :=
  utf8 "a=rtpmap:" ++ (intText info.payloadType.toInt ++ 32 :: (info.codecType ++ 47 :: (intText info.clockRate.toInt
    ++ if !isVideo ∧ 0 < info.channel then 47 :: intText info.channel.toInt else [])))

def getRtpMap (s : SdpTransform) (isVideo : Bool) : List Line :=
  (s.media isVideo).rtpMapInfos.infos.map (rtpMapLine isVideo)

def fmtpLine (info : FmtpInfo) : Line :=
  utf8 "a=fmtp:" ++ (intText info.payloadType.toInt ++ 32 :: info.attrString)

def getFmtp (s : SdpTransform) (isVideo : Bool) : List Line := (s.media isVideo).fmtpVec.map fmtpLine

def rtcpFbLine (info : RtcpFbInfo) : Line :=
  utf8 "a=rtcp-fb:" ++ (intText info.payloadType.toInt ++ 32 :: info.attrString)

def getRtcp (s : SdpTransform) (isVideo : Bool) : List Line :=
  utf8 "a=rtcp:9 IN IP4 0.0.0.0" :: (s.media isVideo).rtcpfbVec.map rtcpFbLine

def extLine (id : Int32) (uri : List UInt8) : Line := utf8 "a=extmap:" ++ (intText id.toInt ++ 32 :: uri)

/--
The extensions of a section. Those with an id above zero are written.
-/
def exts (em : ExtIds) (isVideo : Bool) : List (Int32 × List UInt8) :=
  if isVideo then
    [ (em.toffset, utf8 "urn:ietf:params:rtp-hdrext:toffset"),
      (em.absSendTime, utf8 "http://www.webrtc.org/experiments/rtp-hdrext/abs-send-time"),
      (em.videoRotation, utf8 "urn:3gpp:video-orientation"),
      (em.tcc, utf8 "http://www.ietf.org/id/draft-holmer-rmcat-transport-wide-cc-extensions-01"),
      (em.playoutDelay, utf8 "http://www.webrtc.org/experiments/rtp-hdrext/playout-delay"),
      (em.videoContent, utf8 "http://www.webrtc.org/experiments/rtp-hdrext/video-content-type"),
      (em.videoTiming, utf8 "http://www.webrtc.org/experiments/rtp-hdrext/video-timing"),
      (em.colorSpace, utf8 "http://www.webrtc.org/experiments/rtp-hdrext/color-space"),
      (em.sdes, utf8 "urn:ietf:params:rtp-hdrext:sdes:mid"),
      (em.rtpStreamid, utf8 "urn:ietf:params:rtp-hdrext:sdes:rtp-stream-id"),
      (em.rpRtpStreamid, utf8 "urn:ietf:params:rtp-hdrext:sdes:repaired-rtp-stream-id") ]
  else
    [ (em.audioLevel, utf8 "urn:ietf:params:rtp-hdrext:ssrc-audio-level"),
      (em.absSendTime, utf8 "http://www.webrtc.org/experiments/rtp-hdrext/abs-send-time"),
      (em.tcc, utf8 "http://www.ietf.org/id/draft-holmer-rmcat-transport-wide-cc-extensions-01"),
      (em.sdes, utf8 "urn:ietf:params:rtp-hdrext:sdes:mid") ]

def getExtMap (s : SdpTransform) (isVideo : Bool) : List Line :=
  ((exts s.em isVideo).filter fun ext => 0 < ext.1).map fun ext => extLine ext.1 ext.2

def midLines (mid : Int32) : List Line := [utf8 "a=mid:" ++ intText mid.toInt]

/--
Whether there is a line for the `mid` is decided in two ways.
-/
def getMid (s : SdpTransform) (isVideo : Bool) : List Line :=
  if isVideo then (if 0 ≤ s.vmid then midLines s.vmid else [])
  else (if s.amid ≠ 0 then midLines s.amid else [])

/--
The ids of the media stream are drawn if there are none.
-/
def withMsid (draws : Draws) (m : Media) (isVideo : Bool) : Media :=
  { m with
    msid := if m.msid = [] then (if isVideo then draws.vMsid else draws.aMsid) else m.msid
    msidAppdata :=
      if m.msidAppdata = [] then (if isVideo then draws.vMsidAppdata else draws.aMsidAppdata) else m.msidAppdata }

def getMidInfo (draws : Draws) (s : SdpTransform) (isVideo : Bool) : List Line × SdpTransform :=
  let m := withMsid draws (s.media isVideo) isVideo
  let lines := [utf8 "a=setup:" ++ s.setup] ++ s.getMid isVideo
    ++ (if m.msid ≠ [] ∧ m.msidAppdata ≠ [] then [utf8 "a=msid:" ++ (m.msid ++ 32 :: m.msidAppdata)] else [])
    ++ [utf8 "a=" ++ getDirectionString s.direction]
  (lines, if isVideo then { s with video := m } else { s with audio := m })

def getIceInfo (dtls : RtcDtls) : List Line :=
  [ utf8 "a=ice-ufrag:" ++ dtls.localFragment,
    utf8 "a=ice-pwd:" ++ dtls.localPwd,
    utf8 "a=fingerprint:" ++ (dtls.fgAlgorithm ++ 32 :: dtls.fingerprint),
    utf8 "a=ice-options:trickle" ]

def msidLine (ssrc : UInt32) (msid appdata : List UInt8) : Line :=
  utf8 "a=ssrc:" ++ (natText ssrc.toNat ++ 32 :: (utf8 "msid:" ++ (msid ++ 32 :: appdata)))

def cnameLine (ssrc : UInt32) (cname : List UInt8) : Line :=
  utf8 "a=ssrc:" ++ (natText ssrc.toNat ++ 32 :: (utf8 "cname:" ++ cname))

def ssrcLines (info : SSRCInfo) : List Line :=
  [msidLine info.ssrc info.msid info.msidAppdata, cnameLine info.ssrc info.cname]

def fidLine (ssrc rtxSsrc : UInt32) : Line :=
  utf8 "a=ssrc-group:FID " ++ (natText ssrc.toNat ++ 32 :: natText rtxSsrc.toNat)

/--
The value a loop over entries leaves in a field that every one of them is assigned to.
-/
def lastSsrc (infos : List SSRCInfo) (ssrc : UInt32) : UInt32 := (infos.getLast?.map (·.ssrc)).getD ssrc

def getSsrcs (draws : Draws) (s : SdpTransform) (isVideo : Bool) : List Line × SdpTransform :=
  if isVideo then
    let infos := s.ssrcInfoMap.infos.filter (·.isVideo)
    let videoInfos := infos.filter (!·.isRtx)
    let rtxInfos := infos.filter (·.isRtx)
    let s := { s with
      videoSsrc := lastSsrc videoInfos s.videoSsrc
      videoRtxSsrc := lastSsrc rtxInfos s.videoRtxSsrc }
    (videoInfos.flatMap ssrcLines ++ rtxInfos.flatMap ssrcLines
      ++ [fidLine s.videoSsrc s.videoRtxSsrc, utf8 "a=rtcp-mux", utf8 "a=rtcp-rsize"], s)
  else
    let infos := s.ssrcInfoMap.infos.filter (!·.isVideo)
    let audioSsrc := lastSsrc infos s.audioSsrc
    let s := { s with
      audioSsrc := if audioSsrc = 0 then draws.audioSsrc else audioSsrc
      audioCname := draws.audioCname }
    (infos.flatMap ssrcLines
      ++ [msidLine s.audioSsrc (utf8 "-") s.audio.msid, cnameLine s.audioSsrc s.audioCname, utf8 "a=rtcp-mux"], s)

/--
`GetVideoDesc` and `GetAudioDesc`.
-/
def getDesc (draws : Draws) (s : SdpTransform) (isVideo : Bool) : List Line × SdpTransform :=
  let front := s.getMediaDesc isVideo ++ getConnection ++ s.getRtpMap isVideo ++ s.getFmtp isVideo
    ++ s.getRtcp isVideo ++ s.getExtMap isVideo
  let (mid, s) := s.getMidInfo draws isVideo
  let (ssrcs, s) := s.getSsrcs draws isVideo
  (front ++ mid ++ getIceInfo s.dtls ++ ssrcs, s)

def sdpLines (draws : Draws) (s : SdpTransform) (hasVideo hasAudio : Bool) : List Line × SdpTransform :=
  let version := s.getProtoVersion
  let (identifier, s) := s.getSessionIdentifier draws
  let (name, s) := s.getSessionName
  let (video, s) := s.getDesc draws true
  let (audio, s) := s.getDesc draws false
  (version ++ identifier ++ name ++ getTimeScale 0 0 ++ getBasicAttr hasVideo hasAudio ++ video ++ audio, s)

/--
`GenSdpString` with its two flags. Without them they are those of the description.
-/
def genSdpString (draws : Draws) (s : SdpTransform) (hasVideo hasAudio : Bool) : List UInt8 × SdpTransform :=
  let (lines, s) := s.sdpLines draws hasVideo hasAudio
  (lines.flatMap fun line => line ++ [10], s)

end Gen

end SdpTransform

section Attr

def protoVerAttr : List UInt8 := utf8 "v="

def sessionNameAttr : List UInt8 := utf8 "s="

def sessionAttr : List UInt8 := utf8 "o="

def mAttr : List UInt8 := utf8 "m="

def rtpMapAttr : List UInt8 := utf8 "a=rtpmap"

def fmtpAttr : List UInt8 := utf8 "a=fmtp"

def rtcpFbAttr : List UInt8 := utf8 "a=rtcp-fb"

def extAttr : List UInt8 := utf8 "a=extmap"

def fidAttr : List UInt8 := utf8 "a=ssrc-group:FID"

def ssrcAttr : List UInt8 := utf8 "a=ssrc"

def candidateAttr : List UInt8 := utf8 "a=candidate:"

def ufragAttr : List UInt8 := utf8 "a=ice-ufrag:"

def pwdAttr : List UInt8 := utf8 "a=ice-pwd:"

def aptAttr : List UInt8 := utf8 "apt"

def cnameAttr : List UInt8 := utf8 "cname"

def msidAttr : List UInt8 := utf8 "msid"

end Attr

-- What the fields of a new `SSRCInfo` that have no constructor, `is_rtx` and `rtx_ssrc`, are: whatever is on the stack.
variable (stack : UInt32 → Bool × UInt32)

namespace Sections

def withCurrent (v : Sections) (f : Media → Media) : Sections :=
  if v.currentIsVideo then { v with video := f v.video } else { v with audio := f v.audio }

/--
The loop over the payload types of an `m=` line, of which there is at least one.
-/
def addPts (v : Sections) (isVideo : Bool) (pts : List Int32) : Sections :=
  let v := { v with currentIsVideo := isVideo }.withCurrent fun m => { m with ptVec := m.ptVec ++ pts }
  if isVideo then { v with hasVideo := true } else { v with hasAudio := true }

def parseM (v : Sections) (line : Line) : Sections :=
  match find [61] line with
  | none => v
  | some pos =>
    let attrVec := stringSplit 32 [] (line.drop (pos + 1))
    if attrVec.length < 4 then v
    else v.addPts (attrVec.headD [] = utf8 "video") ((attrVec.drop 3).map atoi32)

def addRtpMap (v : Sections) (info : RtpMapInfo) : Sections :=
  let v := v.withCurrent fun m => { m with rtpMapInfos := m.rtpMapInfos.insert info }
  if v.currentIsVideo then
    if info.codecType = utf8 "rtx" then { v with videoRtxClockRate := info.clockRate }
    else { v with videoClockRate := info.clockRate }
  else { v with audioClockRate := info.clockRate, channel := info.channel }

def parseRtpMap (v : Sections) (line : Line) : Option Sections := do
  let rtpMapStr ← substr line (rtpMapAttr.length + 1)
  -- Without a space both pieces are the whole string: `npos` and one is zero.
  let (ptStr, codecClockStr) := match find [32] rtpMapStr with
    | none => (rtpMapStr, rtpMapStr)
    | some pos => (rtpMapStr.take pos, rtpMapStr.drop (pos + 1))
  match stringSplit 47 [] codecClockStr with
  | codecType :: clockRate :: items =>
    return v.addRtpMap
      { payloadType := atoi32 ptStr
        codecType := codecType
        clockRate := atoi32 clockRate
        channel := (items.head?.map atoi32).getD 0 }
  | _ => return v

def addFmtp (v : Sections) (info : FmtpInfo) : Sections :=
  v.withCurrent fun m => { m with fmtpVec := m.fmtpVec ++ [info] }

/--
The entry of an attribute. It is the one of a retransmission if `apt` is found in it.
-/
def fmtpInfo (payloadType : Int32) (attr : List UInt8) (isVideo : Bool) : Option FmtpInfo := do
  let info : FmtpInfo :=
    { payloadType := payloadType, attrString := attr, isVideo := isVideo, isRtx := false, rtxPayloadType := 0 }
  match find aptAttr attr with
  | none => return info
  | some pos =>
    let rtxTypeStr ← substr attr (pos + aptAttr.length + 1)
    return { info with isRtx := true, rtxPayloadType := atoi32 rtxTypeStr }

def parseFmtp (v : Sections) (line : Line) : Option Sections := do
  let fmtpStr ← substr line (fmtpAttr.length + 1)
  match find [32] fmtpStr with
  | none => return v
  | some pos =>
    let info ← fmtpInfo (atoi32 (fmtpStr.take pos)) (fmtpStr.drop (pos + 1)) v.currentIsVideo
    return v.addFmtp info

def addRtcpFb (v : Sections) (info : RtcpFbInfo) : Sections :=
  v.withCurrent fun m => { m with rtcpfbVec := m.rtcpfbVec ++ [info] }

def parseRtcpFb (v : Sections) (line : Line) : Option Sections := do
  let rtcpFbString ← substr line (rtcpFbAttr.length + 1)
  match find [32] rtcpFbString with
  | none => return v
  | some pos =>
    return v.addRtcpFb { payloadType := atoi32 (rtcpFbString.take pos), attrString := rtcpFbString.drop (pos + 1) }

/--
The entry of a stream, or a new one.
-/
def ssrcInfo (v : Sections) (ssrc : UInt32) : SSRCInfo :=
  let info := (v.ssrcInfoMap.find? ssrc.toNat).getD
    { ssrc := ssrc, isVideo := v.currentIsVideo, isRtx := (stack ssrc).1, rtxSsrc := (stack ssrc).2 }
  { info with ssrc := ssrc, isVideo := v.currentIsVideo }

def setCname (v : Sections) (ssrc : UInt32) (cname : List UInt8) : Sections :=
  { v with ssrcInfoMap := v.ssrcInfoMap.insert { v.ssrcInfo stack ssrc with cname := cname } }

def setMsid (v : Sections) (ssrc : UInt32) (msid appdata : List UInt8) : Sections :=
  { v with ssrcInfoMap := v.ssrcInfoMap.insert { v.ssrcInfo stack ssrc with msid := msid, msidAppdata := appdata } }

def parseSsrcInfo (v : Sections) (line : Line) : Option Sections := do
  let ssrcString ← substr line (ssrcAttr.length + 1)
  match find [32] ssrcString with
  | none => return v
  | some pos =>
    let ssrc := (atoi32 (ssrcString.take pos)).toUInt32
    let ssrcString := ssrcString.drop (pos + 1)
    if find cnameAttr ssrcString = some 0 then
      let cname ← substr ssrcString (cnameAttr.length + 1)
      return v.setCname stack ssrc cname
    else if find msidAttr ssrcString = some 0 then
      let msidString ← substr ssrcString (msidAttr.length + 1)
      match find [32] msidString with
      | none => return v
      | some pos => return v.setMsid stack ssrc (msidString.take pos) (msidString.drop (pos + 1))
    else return v

/--
The two streams of a group are tied to each other as far as they are known.
-/
def tieSsrcs (v : Sections) (mainSsrc slaveSsrc : UInt32) : Sections :=
  match v.ssrcInfoMap.find? mainSsrc.toNat with
  | none => v
  | some info =>
    let v := { v with ssrcInfoMap := v.ssrcInfoMap.insert { info with isRtx := false, rtxSsrc := slaveSsrc } }
    match v.ssrcInfoMap.find? slaveSsrc.toNat with
    | none => v
    | some info =>
      { v with
        ssrcInfoMap := v.ssrcInfoMap.insert { info with isRtx := true, rtxSsrc := mainSsrc }
        videoSsrc := mainSsrc
        videoRtxSsrc := slaveSsrc }

def addFid (v : Sections) (mainSsrc slaveSsrc : UInt32) (ssrcs : List UInt32) : Sections :=
  (v.withCurrent fun m => { m with fidVec := m.fidVec ++ mainSsrc :: slaveSsrc :: ssrcs }).tieSsrcs mainSsrc slaveSsrc

def parseSsrcGroupFid (v : Sections) (line : Line) : Option Sections := do
  let ssrcsString ← substr line (fidAttr.length + 1)
  match (stringSplit 32 [] ssrcsString).map fun ssrc => (atoi32 ssrc).toUInt32 with
  | mainSsrc :: slaveSsrc :: ssrcs => return v.addFid mainSsrc slaveSsrc ssrcs
  | _ => return v

end Sections

namespace SdpTransform

def parseSessionName (s : SdpTransform) (line : Line) : SdpTransform :=
  match find [61] line with
  | none => s
  | some pos => { s with sessionName := line.drop (pos + 1) }

def parseSession (s : SdpTransform) (line : Line) : SdpTransform :=
  match stringSplit 32 [] line with
  | id :: _ :: _ =>
    match find [61] id with
    | none => { s with sessionId := id }
    | some pos => { s with sessionId := id.drop (pos + 1) }
  | _ => s

def parseExtMap (s : SdpTransform) (line : Line) : Option SdpTransform := do
  let extString ← substr line (extAttr.length + 1)
  match find [32] extString with
  | none => return s
  | some pos =>
    let info : ExtInfo := { extId := atoi32 (extString.take pos), desc := extString.drop (pos + 1) }
    return { s with extMap := s.extMap.insert info }

def parseCandidate (s : SdpTransform) (line : Line) : SdpTransform :=
  match stringSplit 32 [] (line.drop candidateAttr.length) with
  | _ :: _ :: net :: _ :: hostip :: port :: _ :: _ =>
    let info : IceInfo :=
      { netType := if net = utf8 "tcp" then .tcp else if net = utf8 "udp" then .udp else .unknown
        hostip := hostip
        port := (atoi32 port).toUInt32.toUInt16 }
    if info ∈ s.dtls.iceInfos then s
    else { s with dtls := { s.dtls with iceInfos := s.dtls.iceInfos ++ [info] } }
  | _ => s

def parseUfrag (s : SdpTransform) (line : Line) : SdpTransform :=
  if s.dtls.remoteFragment ≠ [] then s
  else { s with dtls := { s.dtls with remoteFragment := line.drop ufragAttr.length } }

def parsePwd (s : SdpTransform) (line : Line) : SdpTransform :=
  if s.dtls.remotePwd ≠ [] then s
  else { s with dtls := { s.dtls with remotePwd := line.drop pwdAttr.length } }

def withSections (s : SdpTransform) (v : Sections) : SdpTransform := { s with toSections := v }

/--
`ParseLine` behind its `RemoveSubfix`. The result is `none` where `substr` throws. What `ParseLine` returns is not
looked at by `Parse`.
-/
def parseAttr (s : SdpTransform) (line : Line) : Option SdpTransform :=
  if find protoVerAttr line = some 0 then some { s with protoVer := line.drop protoVerAttr.length }
  else if find sessionNameAttr line = some 0 then some (s.parseSessionName line)
  else if find sessionAttr line = some 0 then some (s.parseSession line)
  else if find mAttr line = some 0 then some (s.withSections (s.parseM line))
  else if find rtpMapAttr line = some 0 then (s.parseRtpMap line).map s.withSections
  else if find fmtpAttr line = some 0 then (s.parseFmtp line).map s.withSections
  else if find rtcpFbAttr line = some 0 then (s.parseRtcpFb line).map s.withSections
  else if find extAttr line = some 0 then s.parseExtMap line
  else if find fidAttr line = some 0 then (s.parseSsrcGroupFid line).map s.withSections
  else if find ssrcAttr line = some 0 then (s.parseSsrcInfo stack line).map s.withSections
  else if find candidateAttr line = some 0 then some (s.parseCandidate line)
  else if find ufragAttr line = some 0 then some (s.parseUfrag line)
  else if find pwdAttr line = some 0 then some (s.parsePwd line)
  else some s

def parseLine (s : SdpTransform) (line : Line) : Option SdpTransform := s.parseAttr stack (removeSubfix line [13])

def parse (s : SdpTransform) (sdp : List UInt8) : Option SdpTransform :=
  (stringSplit 10 [] sdp).foldlM (parseLine stack) s

end SdpTransform

end Sdp
