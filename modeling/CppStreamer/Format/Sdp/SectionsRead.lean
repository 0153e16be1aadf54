import CppStreamer.Format.Sdp.Description

/-!
This module contains the sections that are read from the lines of a description.
-/

open StringEx

namespace Sdp

variable {stack : UInt32 → Bool × UInt32} {v : Sections}

/--
An operation on the section that is read into.
-/
structure ReadsInto (g : Sections → Sections) (f : Media → Media) : Prop where
  current : ∀ v, (g v).currentIsVideo = v.currentIsVideo
  media : ∀ v isVideo, (g v).media isVideo = if isVideo = v.currentIsVideo then f (v.media isVideo) else v.media isVideo
  ssrcs : ∀ v, (g v).ssrcInfoMap = v.ssrcInfoMap

namespace ReadsInto

variable {α : Type} {g g' : Sections → Sections} {f f' : Media → Media}

theorem comp (h : ReadsInto g f) (h' : ReadsInto g' f') : ReadsInto (fun v => g' (g v)) (fun m => f' (f m)) where
  current v := (h'.current _).trans (h.current v)
  media v isVideo := by
    rw [h'.media, h.media, h.current]
    split <;> rfl
  ssrcs v := (h'.ssrcs _).trans (h.ssrcs v)

theorem id : ReadsInto (fun v => v) (fun m => m) where
  current _ := rfl
  media v isVideo := by split <;> rfl
  ssrcs _ := rfl

theorem foldl {g : Sections → α → Sections} {f : Media → α → Media}
    (h : ∀ a, ReadsInto (fun v => g v a) (fun m => f m a)) (as : List α)
    : ReadsInto (fun v => as.foldl g v) (fun m => as.foldl f m) := by
  induction as with
  | nil => exact id
  | cons a as ih => exact (h a).comp ih

theorem withCurrent (f : Media → Media) : ReadsInto (fun v => v.withCurrent f) f where
  current v := by
    unfold Sections.withCurrent
    split <;> rfl
  media v isVideo := by
    unfold Sections.withCurrent Sections.media
    cases isVideo <;> cases v.currentIsVideo <;> rfl
  ssrcs v := by
    unfold Sections.withCurrent
    split <;> rfl

theorem addRtpMap (info : RtpMapInfo)
    : ReadsInto (fun v => v.addRtpMap info) (fun m => { m with rtpMapInfos := m.rtpMapInfos.insert info }) where
  current v := by
    rw [← (withCurrent fun m => { m with rtpMapInfos := m.rtpMapInfos.insert info }).current v]
    unfold Sections.addRtpMap
    dsimp only
    split_ifs <;> rfl
  media v isVideo := by
    rw [← (withCurrent fun m => { m with rtpMapInfos := m.rtpMapInfos.insert info }).media v isVideo]
    unfold Sections.addRtpMap
    dsimp only
    split_ifs <;> rfl
  ssrcs v := by
    rw [← (withCurrent fun m => { m with rtpMapInfos := m.rtpMapInfos.insert info }).ssrcs v]
    unfold Sections.addRtpMap
    dsimp only
    split_ifs <;> rfl

theorem addFmtp (info : FmtpInfo)
    : ReadsInto (fun v => v.addFmtp info) (fun m => { m with fmtpVec := m.fmtpVec ++ [info] }) :=
  withCurrent _

theorem addRtcpFb (info : RtcpFbInfo)
    : ReadsInto (fun v => v.addRtcpFb info) (fun m => { m with rtcpfbVec := m.rtcpfbVec ++ [info] }) :=
  withCurrent _

end ReadsInto

namespace Sections

/--
A section without a payload type does not start.
-/
def start (v : Sections) (isVideo : Bool) (pts : List Int32) : Sections := if pts = [] then v else v.addPts isVideo pts

/--
The entries of a section, of which those of its `fmtp` lines have been read already.
-/
def readMedia (v : Sections) (m : Media) (isVideo : Bool) (fmtps : List FmtpInfo) : Sections :=
  let v := m.rtpMapInfos.infos.foldl (fun v info => v.addRtpMap (Item.readRtpMap isVideo info)) v
  let v := fmtps.foldl addFmtp v
  m.rtcpfbVec.foldl (fun v info => v.addRtcpFb (Item.readRtcpFb info)) v

end Sections

/--
The entries of a section behind those of another.
-/
def Media.read (old m : Media) (isVideo : Bool) (fmtps : List FmtpInfo) : Media :=
  { old with
    rtpMapInfos := m.rtpMapInfos.infos.foldl (fun map info => map.insert (Item.readRtpMap isVideo info)) old.rtpMapInfos
    fmtpVec := old.fmtpVec ++ fmtps
    rtcpfbVec := old.rtcpfbVec ++ m.rtcpfbVec.map Item.readRtcpFb }

theorem ReadsInto.readMedia (m : Media) (isVideo : Bool) (fmtps : List FmtpInfo)
    : ReadsInto (fun v => v.readMedia m isVideo fmtps) (fun old => old.read m isVideo fmtps) := by
  have hrtpMap : ∀ (infos : List RtpMapInfo) (old : Media),
      infos.foldl (fun old info => { old with rtpMapInfos := old.rtpMapInfos.insert (Item.readRtpMap isVideo info) }) old
        = { old with
            rtpMapInfos := infos.foldl (fun map info => map.insert (Item.readRtpMap isVideo info)) old.rtpMapInfos } := by
    intro infos
    induction infos with
    | nil => exact fun _ => rfl
    | cons info infos ih => exact fun old => ih _
  have hfmtp : ∀ (infos : List FmtpInfo) (old : Media),
      infos.foldl (fun old info => { old with fmtpVec := old.fmtpVec ++ [info] }) old
        = { old with fmtpVec := old.fmtpVec ++ infos } := by
    intro infos
    induction infos with
    | nil => simp
    | cons info infos ih =>
      intro old
      rw [List.foldl_cons, ih]
      simp
  have hrtcpFb : ∀ (infos : List RtcpFbInfo) (old : Media),
      infos.foldl (fun old info => { old with rtcpfbVec := old.rtcpfbVec ++ [Item.readRtcpFb info] }) old
        = { old with rtcpfbVec := old.rtcpfbVec ++ infos.map Item.readRtcpFb } := by
    intro infos
    induction infos with
    | nil => simp
    | cons info infos ih =>
      intro old
      rw [List.foldl_cons, ih]
      simp
  have hreads := ((foldl (fun info => addRtpMap (Item.readRtpMap isVideo info)) m.rtpMapInfos.infos).comp
    (foldl addFmtp fmtps)).comp (foldl (fun info => addRtcpFb (Item.readRtcpFb info)) m.rtcpfbVec)
  simp only [hrtpMap, hfmtp, hrtcpFb] at hreads
  exact hreads

section Run

variable {s : SdpTransform} {draws : Draws}

theorem foldlM_other (lines : List Line) : (lines.map Item.other).foldlM (Item.apply stack) v = some v := by
  induction lines with
  | nil => rfl
  | cons line lines ih =>
    rw [List.map_cons, List.foldlM_cons]
    exact ih

theorem foldlM_rtpMap (isVideo : Bool) (infos : List RtpMapInfo)
    : (infos.map (Item.rtpMap isVideo)).foldlM (Item.apply stack) v
      = some (infos.foldl (fun v info => v.addRtpMap (Item.readRtpMap isVideo info)) v) := by
  induction infos generalizing v with
  | nil => rfl
  | cons info infos ih =>
    rw [List.map_cons, List.foldlM_cons]
    exact ih

theorem foldlM_rtcpFb (infos : List RtcpFbInfo)
    : (infos.map Item.rtcpFb).foldlM (Item.apply stack) v
      = some (infos.foldl (fun v info => v.addRtcpFb (Item.readRtcpFb info)) v) := by
  induction infos generalizing v with
  | nil => rfl
  | cons info infos ih =>
    rw [List.map_cons, List.foldlM_cons]
    exact ih

theorem foldlM_fmtp (infos : List FmtpInfo)
    : (infos.map Item.fmtp).foldlM (Item.apply stack) v
      = (infos.mapM (Item.readFmtp v.currentIsVideo)).map fun fmtps => fmtps.foldl Sections.addFmtp v := by
  induction infos generalizing v with
  | nil => rfl
  | cons info infos ih =>
    rw [List.map_cons, List.foldlM_cons, List.mapM_cons, Item.apply]
    cases hread : Item.readFmtp v.currentIsVideo info with
    | none => rfl
    | some fmtp =>
      simp only [Option.map_some, Option.bind_eq_bind, Option.bind_some, ih, (ReadsInto.addFmtp fmtp).current]
      cases infos.mapM (Item.readFmtp v.currentIsVideo) <;> rfl

theorem foldlM_descItems (isVideo : Bool)
    : (s.descItems draws isVideo).foldlM (Item.apply stack) v
      = ((s.media isVideo).fmtpVec.mapM (Item.readFmtp (v.start isVideo (s.media isVideo).ptVec).currentIsVideo)).bind
          fun fmtps => ((s.getMidInfo draws isVideo).2.ssrcsItems draws isVideo).foldlM (Item.apply stack)
            ((v.start isVideo (s.media isVideo).ptVec).readMedia (s.media isVideo) isVideo fmtps) := by
  have hstart : Item.apply stack v (.media isVideo (s.media isVideo).ptVec)
      = some (v.start isVideo (s.media isVideo).ptVec) := rfl
  have hother : ∀ v line, Item.apply stack v (.other line) = some v := fun _ _ => rfl
  have hcurrent : ∀ v : Sections,
      ((s.media isVideo).rtpMapInfos.infos.foldl
        (fun v info => v.addRtpMap (Item.readRtpMap isVideo info)) v).currentIsVideo = v.currentIsVideo :=
    (ReadsInto.foldl (fun info => ReadsInto.addRtpMap (Item.readRtpMap isVideo info)) _).current
  simp only [SdpTransform.descItems, List.foldlM_append, List.foldlM_cons, hstart, hother, foldlM_other, foldlM_rtpMap,
    foldlM_fmtp, foldlM_rtcpFb, hcurrent, Option.bind_eq_bind, Option.bind_some, Option.bind_assoc]
  cases (s.media isVideo).fmtpVec.mapM (Item.readFmtp (v.start isVideo (s.media isVideo).ptVec).currentIsVideo) <;> rfl

end Run

namespace Sections

section Start

variable (isVideo b : Bool) (pts : List Int32)

theorem current_start (v : Sections)
    : (v.start isVideo pts).currentIsVideo = if pts = [] then v.currentIsVideo else isVideo := by
  unfold start addPts withCurrent
  split_ifs <;> rfl

theorem media_start (v : Sections)
    : (v.start isVideo pts).media b
      = if b = isVideo then { v.media b with ptVec := (v.media b).ptVec ++ pts } else v.media b := by
  rw [start]
  by_cases hnil : pts = []
  . rw [if_pos hnil, hnil, List.append_nil]
    split <;> rfl
  . rw [if_neg hnil]
    unfold addPts withCurrent media
    cases isVideo <;> cases b <;> rfl

theorem ssrcs_start (v : Sections) : (v.start isVideo pts).ssrcInfoMap = v.ssrcInfoMap := by
  unfold start addPts withCurrent
  split_ifs <;> rfl

end Start

section Ssrcs

variable {k : Nat}

/--
The two lines of a stream.
-/
def readSsrc (stack : UInt32 → Bool × UInt32) (v : Sections) (info : SSRCInfo) : Sections :=
  let msid := Item.readMsid info.msid info.msidAppdata
  (v.setMsid stack info.ssrc msid.1 msid.2).setCname stack info.ssrc (removeSubfix info.cname [13])

/--
The entry of a stream behind its two lines.
-/
def rereadSsrc (stack : UInt32 → Bool × UInt32) (v : Sections) (info : SSRCInfo) : SSRCInfo :=
  { v.ssrcInfo stack info.ssrc with
    msid := (Item.readMsid info.msid info.msidAppdata).1
    msidAppdata := (Item.readMsid info.msid info.msidAppdata).2
    cname := removeSubfix info.cname [13] }

theorem current_readSsrc (v : Sections) (info : SSRCInfo)
    : (v.readSsrc stack info).currentIsVideo = v.currentIsVideo := rfl

theorem media_readSsrc (v : Sections) (info : SSRCInfo) (isVideo : Bool)
    : (v.readSsrc stack info).media isVideo = v.media isVideo := rfl

theorem find?_setMsid (v : Sections) (ssrc : UInt32) (msid appdata : List UInt8) (k : Nat)
    : (v.setMsid stack ssrc msid appdata).ssrcInfoMap.find? k
      = if ssrc.toNat = k then some { v.ssrcInfo stack ssrc with msid := msid, msidAppdata := appdata }
        else v.ssrcInfoMap.find? k := KeyedMap.find?_insert _ _ _

theorem find?_setCname (v : Sections) (ssrc : UInt32) (cname : List UInt8) (k : Nat)
    : (v.setCname stack ssrc cname).ssrcInfoMap.find? k
      = if ssrc.toNat = k then some { v.ssrcInfo stack ssrc with cname := cname } else v.ssrcInfoMap.find? k :=
  KeyedMap.find?_insert _ _ _

theorem ssrcInfo_of_find? {ssrc : UInt32} {info : SSRCInfo} (h : v.ssrcInfoMap.find? ssrc.toNat = some info)
    : v.ssrcInfo stack ssrc = { info with ssrc := ssrc, isVideo := v.currentIsVideo } := by
  rw [ssrcInfo, h]
  rfl

theorem find?_readSsrc (v : Sections) (info : SSRCInfo) (k : Nat)
    : (v.readSsrc stack info).ssrcInfoMap.find? k
      = if info.ssrc.toNat = k then some (v.rereadSsrc stack info) else v.ssrcInfoMap.find? k := by
  rw [readSsrc, find?_setCname, ssrcInfo_of_find? ((find?_setMsid _ _ _ _ _).trans (if_pos rfl)), find?_setMsid]
  by_cases hk : info.ssrc.toNat = k
  . rw [if_pos hk, if_pos hk]
    rfl
  . rw [if_neg hk, if_neg hk, if_neg hk]

theorem find?_addFid (v : Sections) {mainSsrc slaveSsrc : UInt32} {mainInfo slaveInfo : SSRCInfo}
    (hmain : v.ssrcInfoMap.find? mainSsrc.toNat = some mainInfo)
    (hslave : v.ssrcInfoMap.find? slaveSsrc.toNat = some slaveInfo) (hne : mainSsrc.toNat ≠ slaveSsrc.toNat) (k : Nat)
    : (v.addFid mainSsrc slaveSsrc []).ssrcInfoMap.find? k
      = if slaveSsrc.toNat = k then some { slaveInfo with isRtx := true, rtxSsrc := mainSsrc }
        else if mainSsrc.toNat = k then some { mainInfo with isRtx := false, rtxSsrc := slaveSsrc }
        else v.ssrcInfoMap.find? k := by
  have hkeep : ∀ f, (v.withCurrent f).ssrcInfoMap = v.ssrcInfoMap := fun f => (ReadsInto.withCurrent f).ssrcs v
  have hkeyMain : mainInfo.ssrc.toNat = mainSsrc.toNat := (KeyedMap.key_of_find? hmain :)
  have hkeySlave : slaveInfo.ssrc.toNat = slaveSsrc.toNat := (KeyedMap.key_of_find? hslave :)
  have htied : ∀ map : SsrcInfoMap, map.find? slaveSsrc.toNat = some slaveInfo
      → (map.insert { mainInfo with isRtx := false, rtxSsrc := slaveSsrc }).find? slaveSsrc.toNat = some slaveInfo := by
    intro map hmap
    rw [KeyedMap.find?_insert_of_ne _, hmap]
    change mainInfo.ssrc.toNat ≠ slaveSsrc.toNat
    rwa [hkeyMain]
  simp only [addFid, tieSsrcs, hkeep, hmain, htied _ hslave, KeyedMap.find?_insert, hkeyMain, hkeySlave]

theorem media_addFid (v : Sections) (mainSsrc slaveSsrc : UInt32) (isVideo : Bool)
    : ∃ fids, (v.addFid mainSsrc slaveSsrc []).media isVideo = { v.media isVideo with fidVec := fids } := by
  have htie : ∀ v : Sections, (v.tieSsrcs mainSsrc slaveSsrc).media isVideo = v.media isVideo := by
    intro v
    unfold tieSsrcs
    split
    . rfl
    . dsimp only
      split <;> rfl
  rw [addFid, htie, (ReadsInto.withCurrent _).media]
  split
  . exact ⟨_, rfl⟩
  . exact ⟨(v.media isVideo).fidVec, rfl⟩

theorem current_addFid (v : Sections) (mainSsrc slaveSsrc : UInt32)
    : (v.addFid mainSsrc slaveSsrc []).currentIsVideo = v.currentIsVideo := by
  have htie : ∀ v : Sections, (v.tieSsrcs mainSsrc slaveSsrc).currentIsVideo = v.currentIsVideo := by
    intro v
    unfold tieSsrcs
    split
    . rfl
    . dsimp only
      split <;> rfl
  rw [addFid, htie, (ReadsInto.withCurrent _).current]

/--
The entry of a stream that has been read without the others.
-/
def readSsrcInfo (isVideo : Bool) (info : SSRCInfo) : SSRCInfo :=
  { info with
    isVideo := isVideo
    msid := (Item.readMsid info.msid info.msidAppdata).1
    msidAppdata := (Item.readMsid info.msid info.msidAppdata).2
    cname := removeSubfix info.cname [13] }

/--
The lines of a stream and of its retransmissions, with the line of their group.
-/
def readGroup (stack : UInt32 → Bool × UInt32) (v : Sections) (info rtxInfo : SSRCInfo) : Sections :=
  ((v.readSsrc stack info).readSsrc stack rtxInfo).addFid info.ssrc rtxInfo.ssrc []

theorem find?_readGroup {info rtxInfo : SSRCInfo} (hnew : ∀ k, v.ssrcInfoMap.find? k = none)
    (hne : info.ssrc.toNat ≠ rtxInfo.ssrc.toNat) (hinfo : info.isRtx = false) (hrtxInfo : rtxInfo.isRtx = true)
    (hrtx : info.rtxSsrc = rtxInfo.ssrc) (hback : rtxInfo.rtxSsrc = info.ssrc) (k : Nat)
    : (v.readGroup stack info rtxInfo).ssrcInfoMap.find? k
      = if rtxInfo.ssrc.toNat = k then some (readSsrcInfo v.currentIsVideo rtxInfo)
        else if info.ssrc.toNat = k then some (readSsrcInfo v.currentIsVideo info) else none := by
  have hread : ∀ (w : Sections) (x : SSRCInfo), w.ssrcInfoMap.find? x.ssrc.toNat = none
      → w.rereadSsrc stack x = { readSsrcInfo w.currentIsVideo x with
          isRtx := (stack x.ssrc).1, rtxSsrc := (stack x.ssrc).2 } := by
    intro w x hnone
    rw [rereadSsrc, ssrcInfo, hnone]
    rfl
  have hfirst : (v.readSsrc stack info).ssrcInfoMap.find? rtxInfo.ssrc.toNat = none := by
    rw [find?_readSsrc, if_neg hne, hnew]
  have hmain : ((v.readSsrc stack info).readSsrc stack rtxInfo).ssrcInfoMap.find? info.ssrc.toNat
      = some (v.rereadSsrc stack info) := by
    rw [find?_readSsrc, if_neg hne.symm, find?_readSsrc, if_pos rfl]
  have hslave : ((v.readSsrc stack info).readSsrc stack rtxInfo).ssrcInfoMap.find? rtxInfo.ssrc.toNat
      = some ((v.readSsrc stack info).rereadSsrc stack rtxInfo) := by
    rw [find?_readSsrc, if_pos rfl]
  have hmainInfo : { v.rereadSsrc stack info with isRtx := false, rtxSsrc := rtxInfo.ssrc }
      = readSsrcInfo v.currentIsVideo info := by
    rw [hread v info (hnew _), readSsrcInfo, hinfo, hrtx]
  have hslaveInfo : { (v.readSsrc stack info).rereadSsrc stack rtxInfo with isRtx := true, rtxSsrc := info.ssrc }
      = readSsrcInfo v.currentIsVideo rtxInfo := by
    rw [hread _ rtxInfo hfirst, readSsrcInfo, readSsrcInfo, hrtxInfo, hback]
    rfl
  rw [readGroup, find?_addFid _ hmain hslave hne, hmainInfo, hslaveInfo, find?_readSsrc, find?_readSsrc, hnew]
  split_ifs <;> rfl

end Ssrcs

end Sections

end Sdp
