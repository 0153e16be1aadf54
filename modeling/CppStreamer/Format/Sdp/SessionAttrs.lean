import CppStreamer.Basic.Arrivals
import CppStreamer.Format.Sdp.Attributes

/-!
This module contains what the lines that say something of the session leave in the state, and when two groups of them
may change places.
-/

open StringEx Arrivals

namespace Sdp

namespace SessionAttr

def protoVer? : SessionAttr → Option (List UInt8)
  | protoVer text => some text
  | _ => none

def sessionName? : SessionAttr → Option (List UInt8)
  | sessionName text => some text
  | _ => none

def sessionId? : SessionAttr → Option (List UInt8)
  | sessionId text => some text
  | _ => none

def ext? : SessionAttr → Option ExtInfo
  | ext info => some info
  | _ => none

def candidate? : SessionAttr → Option IceInfo
  | candidate info => some info
  | _ => none

def ufrag? : SessionAttr → Option (List UInt8)
  | ufrag text => some text
  | _ => none

def pwd? : SessionAttr → Option (List UInt8)
  | pwd text => some text
  | _ => none

/--
Two groups of lines say the same where only one of them can be kept: the last version, name and id, the last extension
of each id, and the first fragment and password that are not empty. The candidates are kept in the order they come in.
-/
structure Agree (attrs attrs' : List SessionAttr) : Prop where
  protoVer : Agrees (attrs.filterMap protoVer?).getLast? (attrs'.filterMap protoVer?).getLast?
  sessionName : Agrees (attrs.filterMap sessionName?).getLast? (attrs'.filterMap sessionName?).getLast?
  sessionId : Agrees (attrs.filterMap sessionId?).getLast? (attrs'.filterMap sessionId?).getLast?
  ext : ∀ id : Int, Agrees ((attrs.filterMap ext?).filter fun info => info.extId.toInt = id).getLast?
    ((attrs'.filterMap ext?).filter fun info => info.extId.toInt = id).getLast?
  candidates : attrs.filterMap candidate? <+: attrs'.filterMap candidate?
    ∨ attrs'.filterMap candidate? <+: attrs.filterMap candidate?
  ufrag : Agrees ((attrs.filterMap ufrag?).find? fun text => text ≠ [])
    ((attrs'.filterMap ufrag?).find? fun text => text ≠ [])
  pwd : Agrees ((attrs.filterMap pwd?).find? fun text => text ≠ []) ((attrs'.filterMap pwd?).find? fun text => text ≠ [])

end SessionAttr

namespace SdpTransform

open SessionAttr

variable {s : SdpTransform} {attrs attrs' : List SessionAttr}

theorem actSession_eq (s : SdpTransform) (attr : SessionAttr)
    : s.actSession attr
      = { s with
          protoVer := [attr].filterMap protoVer? |>.foldl (fun _ x => x) s.protoVer
          sessionName := [attr].filterMap sessionName? |>.foldl (fun _ x => x) s.sessionName
          sessionId := [attr].filterMap sessionId? |>.foldl (fun _ x => x) s.sessionId
          extMap := [attr].filterMap ext? |>.foldl KeyedMap.insert s.extMap
          dtls := { s.dtls with
            iceInfos := [attr].filterMap candidate? |>.foldl addNew s.dtls.iceInfos
            remoteFragment := [attr].filterMap ufrag? |>.foldl (keep []) s.dtls.remoteFragment
            remotePwd := [attr].filterMap pwd? |>.foldl (keep []) s.dtls.remotePwd } } := by
  cases attr with
  | protoVer text | sessionName text | sessionId text | ext info => rfl
  | candidate info =>
    change s.addCandidate info = { s with dtls := { s.dtls with iceInfos := addNew s.dtls.iceInfos info } }
    rw [addCandidate, addNew]
    split <;> rfl
  | ufrag text =>
    change _ = { s with dtls := { s.dtls with remoteFragment := keep [] s.dtls.remoteFragment text } }
    rw [actSession, keep]
    split <;> rfl
  | pwd text =>
    change _ = { s with dtls := { s.dtls with remotePwd := keep [] s.dtls.remotePwd text } }
    rw [actSession, keep]
    split <;> rfl

/--
Every field is read from the lines that are about it.
-/
theorem foldl_actSession (attrs : List SessionAttr) (s : SdpTransform)
    : attrs.foldl actSession s
      = { s with
          protoVer := attrs.filterMap protoVer? |>.foldl (fun _ x => x) s.protoVer
          sessionName := attrs.filterMap sessionName? |>.foldl (fun _ x => x) s.sessionName
          sessionId := attrs.filterMap sessionId? |>.foldl (fun _ x => x) s.sessionId
          extMap := attrs.filterMap ext? |>.foldl KeyedMap.insert s.extMap
          dtls := { s.dtls with
            iceInfos := attrs.filterMap candidate? |>.foldl addNew s.dtls.iceInfos
            remoteFragment := attrs.filterMap ufrag? |>.foldl (keep []) s.dtls.remoteFragment
            remotePwd := attrs.filterMap pwd? |>.foldl (keep []) s.dtls.remotePwd } } := by
  induction attrs generalizing s with
  | nil => rfl
  | cons attr attrs ih =>
    rw [List.foldl_cons, ih, actSession_eq]
    simp only [← List.foldl_append, ← List.filterMap_append, List.singleton_append]

theorem foldl_actSession_comm (h : Agree attrs attrs') (s : SdpTransform)
    : (attrs ++ attrs').foldl actSession s = (attrs' ++ attrs).foldl actSession s := by
  rw [foldl_actSession, foldl_actSession]
  simp only [List.filterMap_append]
  rw [foldl_last_comm h.protoVer, foldl_last_comm h.sessionName, foldl_last_comm h.sessionId,
    foldl_insert_comm h.ext, foldl_addNew_comm h.candidates, foldl_keep_comm h.ufrag, foldl_keep_comm h.pwd]

end SdpTransform

end Sdp
