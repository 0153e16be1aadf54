import CppStreamer.Basic.Unwinding
import CppStreamer.Format.Sdp.SessionAttrs
import CppStreamer.Format.Sdp.Sides

/-!
This module contains how far the media sections of a text are kept apart: what the lines of one of them do to the state
of the others, and whether the order of the sections matters.
-/

open StringEx Unwinding

namespace Sdp

variable {stack : UInt32 → Bool × UInt32} {isVideo : Bool}

/--
The lines of a text as `ParseLine` looks at them.
-/
def textLines (sdp : List UInt8) : List Line := (stringSplit 10 [] sdp).map fun line => removeSubfix line [13]

theorem SdpTransform.parse_eq_foldlM (s : SdpTransform) (sdp : List UInt8)
    : s.parse stack sdp = (textLines sdp).foldlM (SdpTransform.parseAttr stack) s := by
  rw [SdpTransform.parse, textLines, List.foldlM_map]
  rfl

/--
A media section begins with its `m=` line and has no other one.
-/
structure MediaSection where
  head : Line
  body : List Line
  isMedia : isMediaLine head
  notMedia : ∀ line ∈ body, ¬isMediaLine line

namespace MediaSection

def lines (part : MediaSection) : List Line := part.head :: part.body

def kind (part : MediaSection) : Kind := mediaKind part.head

/--
The lines with the kind of the section.
-/
def labels (part : MediaSection) : List (Option Kind × Line) := part.lines.map fun line => (some part.kind, line)

end MediaSection

/--
Every line with the kind of the section that it is in. In front of the first one there is none.
-/
def labelled (kind : Option Kind) : List Line → List (Option Kind × Line)
  | [] => []
  | line :: lines =>
    let kind := if isMediaLine line then some (mediaKind line) else kind
    (kind, line) :: labelled kind lines

def attrFits (v : Sections) (kind : Kind) : Option Attr → Prop
  | some (.media attr) => Fits v kind attr
  | _ => True

instance (v : Sections) (kind : Kind) (attr : Option Attr) : Decidable (attrFits v kind attr) :=
  match attr with
  | some (.media attr) => inferInstanceAs (Decidable (Fits v kind attr))
  | some (.session _) | some .nothing | none => isTrue trivial

def lineFits (s : SdpTransform) (line : Option Kind × Line) : Prop :=
  ∀ kind ∈ line.1, attrFits s.toSections kind (Attr.ofLine line.2)

instance (s : SdpTransform) (line : Option Kind × Line) : Decidable (lineFits s line) :=
  inferInstanceAs (Decidable (∀ kind ∈ line.1, attrFits s.toSections kind (Attr.ofLine line.2)))

def readLine (stack : UInt32 → Bool × UInt32) (s : SdpTransform) (line : Option Kind × Line) : Option SdpTransform :=
  s.parseAttr stack line.2

/--
Every line of a media section fits it in the state that it is read in.
-/
def InPlace (stack : UInt32 → Bool × UInt32) (s : SdpTransform) (lines : List Line) : Prop :=
  Along (readLine stack) lineFits s (labelled none lines)

instance (stack : UInt32 → Bool × UInt32) (s : SdpTransform) (lines : List Line) : Decidable (InPlace stack s lines) :=
  inferInstanceAs (Decidable (Along (readLine stack) lineFits s (labelled none lines)))

section Labels

theorem labelled_append (kind : Option Kind) (lines lines' : List Line)
    : ∃ kind', labelled kind (lines ++ lines') = labelled kind lines ++ labelled kind' lines' := by
  induction lines generalizing kind with
  | nil => exact ⟨kind, rfl⟩
  | cons line lines ih =>
    obtain ⟨kind', h⟩ := ih (if isMediaLine line then some (mediaKind line) else kind)
    refine ⟨kind', ?_⟩
    rw [List.cons_append, labelled, h, labelled, List.cons_append]

theorem labelled_of_notMedia {kind : Option Kind} {lines lines' : List Line} (h : ∀ line ∈ lines, ¬isMediaLine line)
    : labelled kind (lines ++ lines') = lines.map (fun line => (kind, line)) ++ labelled kind lines' := by
  induction lines with
  | nil => rfl
  | cons line lines ih =>
    rw [List.cons_append, labelled, if_neg (h line List.mem_cons_self), ih fun l hl => h l (List.mem_cons_of_mem _ hl),
      List.map_cons, List.cons_append]

theorem MediaSection.labelled_append (part : MediaSection) (kind : Option Kind) (rest : List Line)
    : labelled kind (part.lines ++ rest) = part.labels ++ labelled (some part.kind) rest := by
  rw [lines, List.cons_append, labelled, if_pos part.isMedia, labelled_of_notMedia part.notMedia]
  rfl

theorem MediaSection.labelled_flatMap (parts : List MediaSection) (kind : Option Kind)
    : labelled kind (parts.flatMap lines) = parts.flatMap labels := by
  induction parts generalizing kind with
  | nil => rfl
  | cons part parts ih => rw [List.flatMap_cons, List.flatMap_cons, part.labelled_append, ih]

theorem foldlM_labelled (kind : Option Kind) (lines : List Line) (s : SdpTransform)
    : (labelled kind lines).foldlM (readLine stack) s = lines.foldlM (SdpTransform.parseAttr stack) s := by
  induction lines generalizing kind s with
  | nil => rfl
  | cons line lines ih =>
    rw [labelled, List.foldlM_cons, List.foldlM_cons]
    congr 1
    funext s'
    exact ih _ s'

end Labels

/--
The lines of a section as far as they are read change nothing but what is parsed of their own kind.
-/
def KeepsApart (stack : UInt32 → Bool × UInt32) (s : SdpTransform) (lines : List Line) : Prop :=
  ∀ (front back : List Line) (part : MediaSection) (s₀ s₁ : SdpTransform), lines = front ++ (part.lines ++ back)
    → front.foldlM (SdpTransform.parseAttr stack) s = some s₀
    → part.lines.foldlM (SdpTransform.parseAttr stack) s₀ = some s₁
    → ∀ isVideo, part.kind.isVideo ≠ some isVideo → s₁.side isVideo = s₀.side isVideo

section Unwind

/--
A section that a line belongs to is one for this side of the state.
-/
def own (isVideo : Bool) (line : Option Kind × Line) : Bool := line.1.bind Kind.isVideo = some isVideo

theorem toSections_actSession (s : SdpTransform) (attr : SessionAttr)
    : (s.actSession attr).toSections = s.toSections := by
  rw [SdpTransform.actSession_eq]

/--
The sides of the state are parties that do not interfere with each other.
-/
theorem unwinds_side (stack : UInt32 → Bool × UInt32) (isVideo : Bool)
    : Unwinds (readLine stack) (fun s line => line.1.isSome ∧ lineFits s line) (fun s => s.side isVideo) (own isVideo) where
  respects := by
    rintro s s' ⟨kind | kind, line⟩ hown ⟨hsome, hfits⟩ hstep
    . cases hsome
    rw [readLine, SdpTransform.parseAttr_eq_act] at hstep
    obtain ⟨attr, hline, rfl⟩ := Option.map_eq_some_iff.mp hstep
    cases attr with
    | media attr =>
      have hfits := hfits kind rfl
      rw [hline] at hfits
      exact Sections.side_act_of_ne hfits (of_decide_eq_false hown)
    | session attr => rw [SdpTransform.act, toSections_actSession]
    | nothing => rfl
  consistent := by
    rintro s s' t t' ⟨kind | kind, line⟩ hown ⟨hsome, hs⟩ ⟨-, ht⟩ hstep hstep' hview
    . cases hsome
    rw [readLine, SdpTransform.parseAttr_eq_act] at hstep hstep'
    obtain ⟨attr, hline, rfl⟩ := Option.map_eq_some_iff.mp hstep
    obtain ⟨attr', hline', rfl⟩ := Option.map_eq_some_iff.mp hstep'
    obtain rfl := Option.some.inj (hline.symm.trans hline')
    cases attr with
    | media attr =>
      have hs := hs kind rfl
      have ht := ht kind rfl
      rw [hline] at hs ht
      exact Sections.side_act_congr (of_decide_eq_true hown) hs ht hview
    | session attr => rwa [SdpTransform.act, SdpTransform.act, toSections_actSession, toSections_actSession]
    | nothing => exact hview

theorem own_labels {part : MediaSection} {line : Option Kind × Line} (hline : line ∈ part.labels)
    : own isVideo line = decide (part.kind.isVideo = some isVideo) := by
  obtain ⟨text, -, rfl⟩ := List.mem_map.mp hline
  rfl

theorem isSome_labels {part : MediaSection} {line : Option Kind × Line} (hline : line ∈ part.labels)
    : line.1.isSome := by
  obtain ⟨text, -, rfl⟩ := List.mem_map.mp hline
  rfl

theorem keepsApart_of_inPlace {s : SdpTransform} {lines : List Line} (h : InPlace stack s lines)
    : KeepsApart stack s lines := by
  rintro front back part s₀ s₁ rfl hfront hpart isVideo hne
  obtain ⟨kind, hcut⟩ := labelled_append none front (part.lines ++ back)
  rw [InPlace, hcut, part.labelled_append, Along.append_iff, foldlM_labelled] at h
  have hfits := (Along.append_iff.mp (h.right s₀ hfront)).left.imp fun s line hline hfits => And.intro (isSome_labels hline) hfits
  have hrun : part.labels.foldlM (readLine stack) s₀ = some s₁ := by
    have hlabels := part.labelled_append none []
    rw [List.append_nil, labelled, List.append_nil] at hlabels
    rwa [← hlabels, foldlM_labelled]
  apply (unwinds_side stack isVideo).view_of_others hfits hrun
  intro line hline
  rw [own_labels hline]
  exact decide_eq_false hne

end Unwind

/--
A text with a section for each of audio and video, in whatever order, and sections of other kinds between them. What is
in front of these and behind them is left open.
-/
structure Order where
  isVideo : Bool
  front : List Line
  first : MediaSection
  others : List MediaSection
  second : MediaSection
  back : List MediaSection
  first_kind : first.kind.isVideo = some isVideo
  second_kind : second.kind.isVideo = some !isVideo
  others_kind : ∀ part ∈ others, part.kind.isVideo = none

namespace Order

def parts (order : Order) : List MediaSection := order.first :: (order.others ++ order.second :: order.back)

def swappedParts (order : Order) : List MediaSection := order.second :: (order.others ++ order.first :: order.back)

def lines (order : Order) : List Line := order.front ++ order.parts.flatMap MediaSection.lines

/--
The lines with the audio section and the video section in the place of each other.
-/
def swapped (order : Order) : List Line := order.front ++ order.swappedParts.flatMap MediaSection.lines

theorem filter_parts (order : Order) (isVideo : Bool)
    : order.parts.filter (fun part => part.kind.isVideo = some isVideo)
      = order.swappedParts.filter fun part => part.kind.isVideo = some isVideo := by
  have hothers : order.others.filter (fun part => part.kind.isVideo = some isVideo) = [] := by
    rw [List.filter_eq_nil_iff]
    intro part hpart
    simp [order.others_kind part hpart]
  rw [parts, swappedParts, List.filter_cons, List.filter_cons, List.filter_append, List.filter_append, hothers,
    List.filter_cons, List.filter_cons, order.first_kind, order.second_kind]
  cases isVideo <;> cases order.isVideo <;> rfl

end Order

theorem Order.mem_swapped_iff (order : Order) {line : Line} : line ∈ order.swapped ↔ line ∈ order.lines := by
  simp only [swapped, lines, swappedParts, parts, List.flatMap_cons, List.flatMap_append, List.mem_append]
  tauto

theorem filter_own_labels (isVideo : Bool) (parts : List MediaSection)
    : (parts.flatMap MediaSection.labels).filter (own isVideo)
      = (parts.filter fun part => part.kind.isVideo = some isVideo).flatMap MediaSection.labels := by
  induction parts with
  | nil => rfl
  | cons part parts ih =>
    rw [List.flatMap_cons, List.filter_append, ih, List.filter_cons]
    split
    next h =>
      rw [List.filter_eq_self.mpr fun line hline => (own_labels hline).trans h, List.flatMap_cons]
    next h =>
      rw [List.filter_eq_nil_iff.mpr fun line hline hown => h ((own_labels hline).symm.trans hown), List.nil_append]

/--
Neither side of the state depends on the order of the two sections.
-/
theorem Order.side_eq {order : Order} {s s₁ s₂ : SdpTransform} (h₁ : InPlace stack s order.lines)
    (h₂ : InPlace stack s order.swapped)
    (hrun₁ : order.lines.foldlM (SdpTransform.parseAttr stack) s = some s₁)
    (hrun₂ : order.swapped.foldlM (SdpTransform.parseAttr stack) s = some s₂) (isVideo : Bool)
    : s₁.side isVideo = s₂.side isVideo := by
  obtain ⟨s₀, hfront, hparts₁⟩ := foldlM_append_iff.mp hrun₁
  obtain ⟨s₀', hfront', hparts₂⟩ := foldlM_append_iff.mp hrun₂
  obtain rfl := Option.some.inj (hfront.symm.trans hfront')
  obtain ⟨kind, hcut₁⟩ := labelled_append none order.front (order.parts.flatMap MediaSection.lines)
  obtain ⟨kind', hcut₂⟩ := labelled_append none order.front (order.swappedParts.flatMap MediaSection.lines)
  rw [InPlace, lines, hcut₁, Along.append_iff, foldlM_labelled, MediaSection.labelled_flatMap] at h₁
  rw [InPlace, swapped, hcut₂, Along.append_iff, foldlM_labelled, MediaSection.labelled_flatMap] at h₂
  have hsome {parts : List MediaSection} : ∀ line ∈ parts.flatMap MediaSection.labels, line.1.isSome := by
    intro line hline
    obtain ⟨part, -, hline⟩ := List.mem_flatMap.mp hline
    exact isSome_labels hline
  have hfits₁ := (h₁.right s₀ hfront).imp fun s line hline hfits => And.intro (hsome line hline) hfits
  have hfits₂ := (h₂.right s₀ hfront).imp fun s line hline hfits => And.intro (hsome line hline) hfits
  rw [← foldlM_labelled kind, MediaSection.labelled_flatMap] at hparts₁
  rw [← foldlM_labelled kind', MediaSection.labelled_flatMap] at hparts₂
  apply (unwinds_side stack isVideo).view_eq hfits₁ hfits₂ hparts₁ hparts₂ _ rfl
  rw [filter_own_labels, filter_own_labels, order.filter_parts]

section Session

def Attr.session? : Attr → Option SessionAttr
  | session attr => some attr
  | _ => none

/--
What the lines say of the session.
-/
def sessionAttrs (lines : List Line) : List SessionAttr :=
  lines.filterMap fun line => (Attr.ofLine line).bind Attr.session?

/--
The state apart from what is parsed of audio and video.
-/
def SdpTransform.session (s : SdpTransform) : SdpTransform := s.withSections {}

theorem session_foldlM {lines : List Line} {s s' : SdpTransform}
    (h : lines.foldlM (SdpTransform.parseAttr stack) s = some s')
    : s'.session = (sessionAttrs lines).foldl SdpTransform.actSession s.session := by
  induction lines generalizing s with
  | nil =>
    cases h
    rfl
  | cons line lines ih =>
    obtain ⟨s₁, hstep, hrest⟩ := foldlM_cons_iff.mp h
    rw [SdpTransform.parseAttr_eq_act] at hstep
    obtain ⟨attr, hline, rfl⟩ := Option.map_eq_some_iff.mp hstep
    rw [ih hrest, sessionAttrs, sessionAttrs, List.filterMap_cons, hline, Option.bind_some]
    cases attr with
    | media attr | nothing => rfl
    | session attr =>
      rw [Attr.session?, List.foldl_cons, SdpTransform.act, SdpTransform.actSession_eq, SdpTransform.actSession_eq]
      rfl

/--
The lines of the two sections and of those between them can all be kept, in any order.
-/
structure Order.Agree (order : Order) : Prop where
  sections : SessionAttr.Agree (sessionAttrs order.first.lines) (sessionAttrs order.second.lines)
  first : SessionAttr.Agree (sessionAttrs order.first.lines)
    (sessionAttrs (order.others.flatMap MediaSection.lines))
  second : SessionAttr.Agree (sessionAttrs (order.others.flatMap MediaSection.lines))
    (sessionAttrs order.second.lines)

theorem sessionAttrs_append (lines lines' : List Line)
    : sessionAttrs (lines ++ lines') = sessionAttrs lines ++ sessionAttrs lines' :=
  List.filterMap_append

theorem Order.Agree.foldl_eq {order : Order} (h : order.Agree) (s : SdpTransform)
    : (sessionAttrs order.lines).foldl SdpTransform.actSession s
      = (sessionAttrs order.swapped).foldl SdpTransform.actSession s := by
  rw [lines, swapped, parts, swappedParts, List.flatMap_cons, List.flatMap_cons, List.flatMap_append,
    List.flatMap_append, List.flatMap_cons, List.flatMap_cons]
  simp only [sessionAttrs_append]
  generalize sessionAttrs order.front = front
  generalize sessionAttrs (order.back.flatMap MediaSection.lines) = back
  obtain ⟨hsections, hfirst, hsecond⟩ := h
  generalize sessionAttrs order.first.lines = first at *
  generalize sessionAttrs order.second.lines = second at *
  generalize sessionAttrs (order.others.flatMap MediaSection.lines) = others at *
  calc (front ++ (first ++ (others ++ (second ++ back)))).foldl SdpTransform.actSession s
    _ = back.foldl SdpTransform.actSession (second.foldl SdpTransform.actSession
          ((first ++ others).foldl SdpTransform.actSession (front.foldl SdpTransform.actSession s))) := by
      simp only [List.foldl_append]
    _ = back.foldl SdpTransform.actSession ((first ++ second).foldl SdpTransform.actSession
          (others.foldl SdpTransform.actSession (front.foldl SdpTransform.actSession s))) := by
      rw [SdpTransform.foldl_actSession_comm hfirst]
      simp only [List.foldl_append]
    _ = back.foldl SdpTransform.actSession (first.foldl SdpTransform.actSession
          ((others ++ second).foldl SdpTransform.actSession (front.foldl SdpTransform.actSession s))) := by
      rw [SdpTransform.foldl_actSession_comm hsections]
      simp only [List.foldl_append]
    _ = (front ++ (second ++ (others ++ (first ++ back)))).foldl SdpTransform.actSession s := by
      rw [SdpTransform.foldl_actSession_comm hsecond]
      simp only [List.foldl_append]

end Session

/--
The state apart from the flag that tells what section the parser is in.
-/
def SdpTransform.parsed (s : SdpTransform) : SdpTransform :=
  s.withSections { s.toSections with currentIsVideo := true }

theorem Sections.ext_side {v w : Sections} (h : ∀ isVideo, v.side isVideo = w.side isVideo)
    : { v with currentIsVideo := true } = { w with currentIsVideo := true } := by
  have hmap : v.ssrcInfoMap = w.ssrcInfoMap := by
    apply KeyedMap.ext_find?
    intro ssrc
    apply Option.ext
    intro info
    rw [← SsrcInfoMap.own_eq_some_iff, ← SsrcInfoMap.own_eq_some_iff]
    exact Eq.congr_left (congrFun (congrArg Side.ssrcInfo (h info.isVideo)) ssrc)
  have haudio := h false
  have hvideo := h true
  simp only [side, media, Side.mk.injEq, if_true, Bool.false_eq_true, if_false, Prod.mk.injEq] at haudio hvideo
  obtain ⟨hasAudio, audio, -, -, audioClockRate, channel⟩ := haudio
  obtain ⟨hasVideo, video, -, ⟨videoSsrc, videoRtxSsrc⟩, videoClockRate, videoRtxClockRate⟩ := hvideo
  rw [hmap, hasAudio, audio, audioClockRate, channel, hasVideo, video, videoSsrc, videoRtxSsrc, videoClockRate,
    videoRtxClockRate]

theorem exists_foldlM_iff {lines : List Line} {s : SdpTransform}
    : (∃ s', lines.foldlM (SdpTransform.parseAttr stack) s = some s')
      ↔ ∀ line ∈ lines, ∃ attr, Attr.ofLine line = some attr := by
  induction lines generalizing s with
  | nil => exact ⟨(fun _ _ h => nomatch h), fun _ => ⟨s, rfl⟩⟩
  | cons line lines ih =>
    rw [List.forall_mem_cons]
    simp only [foldlM_cons_iff, SdpTransform.parseAttr_eq_act, Option.map_eq_some_iff]
    constructor
    . rintro ⟨s', s₁, ⟨attr, hline, -⟩, hrest⟩
      exact ⟨⟨attr, hline⟩, ih.mp ⟨s', hrest⟩⟩
    . rintro ⟨⟨attr, hline⟩, hrest⟩
      obtain ⟨s', hrest⟩ := ih.mpr hrest
      exact ⟨s', s.act stack attr, ⟨attr, hline, rfl⟩, hrest⟩

/--
What a section does to the state of its kind only is kept apart, and if that is so in both orders of the two sections
then the order is of no account.
-/
theorem sections_isolated {s : SdpTransform} {sdp : List UInt8} (h : InPlace stack s (textLines sdp))
    : KeepsApart stack s (textLines sdp)
      ∧ ∀ (order : Order) (sdp' : List UInt8), textLines sdp = order.lines → textLines sdp' = order.swapped
        → InPlace stack s (textLines sdp') → order.Agree
        → (s.parse stack sdp).map SdpTransform.parsed = (s.parse stack sdp').map SdpTransform.parsed := by
  refine ⟨keepsApart_of_inPlace h, ?_⟩
  intro order sdp' hlines hswapped h' hagree
  rw [s.parse_eq_foldlM, s.parse_eq_foldlM, hlines, hswapped]
  rw [hlines] at h
  rw [hswapped] at h'
  cases hrun : order.lines.foldlM (SdpTransform.parseAttr stack) s with
  | none =>
    cases hrun' : order.swapped.foldlM (SdpTransform.parseAttr stack) s with
    | none => rfl
    | some s₂ =>
      obtain ⟨s₁, hrun₁⟩ := exists_foldlM_iff.mpr fun line hline =>
        exists_foldlM_iff.mp ⟨s₂, hrun'⟩ line (order.mem_swapped_iff.mpr hline)
      cases hrun.symm.trans hrun₁
  | some s₁ =>
    obtain ⟨s₂, hrun'⟩ := exists_foldlM_iff.mpr fun line hline =>
      exists_foldlM_iff.mp ⟨s₁, hrun⟩ line (order.mem_swapped_iff.mp hline)
    have hsections := Sections.ext_side (Order.side_eq h h' hrun hrun')
    have hsession : s₁.session = s₂.session := by
      rw [session_foldlM hrun, session_foldlM hrun', hagree.foldl_eq]
    have hparsed (s : SdpTransform)
        : s.parsed = s.session.withSections { s.toSections with currentIsVideo := true } := rfl
    rw [hrun', Option.map_some, Option.map_some, hparsed, hparsed, hsession, hsections]

section Other

theorem Attr.ofLine_media (rest : List UInt8)
    : Attr.ofLine (mAttr ++ rest)
      = some (if (stringSplit 32 [] rest).length < 4 then nothing
          else media (.media ((stringSplit 32 [] rest).headD [] = utf8 "video")
            (((stringSplit 32 [] rest).drop 3).map atoi32))) := by
  simp only [Attr.ofLine, find_eq_zero_iff]
  rfl

/--
A section of another kind whose `m=` line is complete is not kept apart, whatever its other lines are.
-/
theorem not_keepsApart_of_other {s s₀ : SdpTransform} {front back : List Line} {part : MediaSection}
    (hfront : front.foldlM (SdpTransform.parseAttr stack) s = some s₀) (hkind : part.kind = .other)
    (hpieces : 4 ≤ (stringSplit 32 [] (part.head.drop mAttr.length)).length)
    : ¬KeepsApart stack s (front ++ (part.lines ++ back)) := by
  obtain ⟨head, body, hmedia, hbody⟩ := part
  obtain ⟨rest, rfl⟩ := List.isPrefixOf_iff_prefix.mp hmedia
  change mediaKind (mAttr ++ rest) = .other at hkind
  change 4 ≤ (stringSplit 32 [] rest).length at hpieces
  intro h
  have hline := Attr.ofLine_media rest
  rw [if_neg (not_lt.mpr hpieces)] at hline
  generalize hvideo : decide ((stringSplit 32 [] rest).headD [] = utf8 "video") = b at hline
  generalize hpts : ((stringSplit 32 [] rest).drop 3).map atoi32 = pts at hline
  have hrun : [mAttr ++ rest].foldlM (SdpTransform.parseAttr stack) s₀
      = some (s₀.withSections (s₀.addPts b pts)) := by
    rw [List.foldlM_cons, SdpTransform.parseAttr_eq_act, hline]
    rfl
  have hother : (mediaKind (mAttr ++ rest)).isVideo ≠ some b := by
    rw [hkind]
    exact nofun
  -- The line alone is a part of the section.
  have hside := h front (body ++ back) ⟨mAttr ++ rest, [], hmedia, fun _ hline => (nomatch hline)⟩ s₀ _ rfl hfront hrun
    b hother
  have hptVec : ((s₀.addPts b pts).side b).media.ptVec = (s₀.side b).media.ptVec := congrArg (·.media.ptVec) hside
  rw [Sections.side_addPts] at hptVec
  have hnil := List.append_right_eq_self.mp hptVec
  rw [← hpts, List.map_eq_nil_iff, List.drop_eq_nil_iff] at hnil
  omega

end Other

section Sample

def sampleAudioSection : MediaSection where
  head := utf8 "m=audio 9 UDP/TLS/RTP/SAVPF 111"
  body :=
    [ utf8 "a=ice-ufrag:u",
      utf8 "a=rtpmap:111 opus/48000/2",
      utf8 "a=ssrc:13 cname:n" ]
  isMedia := by decide
  notMedia := by decide

def sampleVideoSection : MediaSection where
  head := utf8 "m=video 9 UDP/TLS/RTP/SAVPF 106 107"
  body :=
    [ utf8 "a=ice-ufrag:u",
      utf8 "a=rtpmap:106 H264/90000",
      utf8 "a=ssrc:11 cname:c",
      utf8 "a=ssrc:12 cname:c",
      utf8 "a=ssrc-group:FID 11 12" ]
  isMedia := by decide
  notMedia := by decide

def sampleOrder : Order where
  isVideo := false
  front := [utf8 "v=0"]
  first := sampleAudioSection
  others := []
  second := sampleVideoSection
  back := []
  first_kind := by decide +kernel
  second_kind := by decide +kernel
  others_kind := by decide

def sampleText (lines : List Line) : List UInt8 := lines.flatMap fun line => line ++ [10]

theorem sampleOrder_agree : sampleOrder.Agree := by
  have hfirst : sessionAttrs sampleOrder.first.lines = [.ufrag (utf8 "u")] := by decide +kernel
  have hsecond : sessionAttrs sampleOrder.second.lines = [.ufrag (utf8 "u")] := by decide +kernel
  have hothers : sessionAttrs (sampleOrder.others.flatMap MediaSection.lines) = [] := rfl
  have hagree {attrs attrs' : List SessionAttr} (h : attrs = [] ∨ attrs = [.ufrag (utf8 "u")])
      (h' : attrs' = [] ∨ attrs' = [.ufrag (utf8 "u")]) : SessionAttr.Agree attrs attrs' := by
    rcases h with rfl | rfl <;> rcases h' with rfl | rfl
    all_goals exact ⟨by decide, by decide, by decide, fun _ _ h => (nomatch h), by decide, by decide, by decide⟩
  constructor
  . exact hagree (Or.inr hfirst) (Or.inr hsecond)
  . exact hagree (Or.inr hfirst) (Or.inl hothers)
  . exact hagree (Or.inl hothers) (Or.inr hsecond)

theorem sections_isolated_sample
    : KeepsApart (fun _ => (false, 0)) {} (textLines (sampleText sampleOrder.lines))
      ∧ (SdpTransform.parse (fun _ => (false, 0)) {} (sampleText sampleOrder.lines)).map SdpTransform.parsed
        = (SdpTransform.parse (fun _ => (false, 0)) {} (sampleText sampleOrder.swapped)).map SdpTransform.parsed := by
  have h : InPlace (fun _ => (false, 0)) {} (textLines (sampleText sampleOrder.lines)) := by decide +kernel
  have h' : InPlace (fun _ => (false, 0)) {} (textLines (sampleText sampleOrder.swapped)) := by decide +kernel
  obtain ⟨hapart, horder⟩ := sections_isolated h
  refine ⟨hapart, horder sampleOrder _ ?_ ?_ h' sampleOrder_agree⟩
  . decide +kernel
  . decide +kernel

def sampleDataSection : MediaSection where
  head := utf8 "m=application 9 UDP/DTLS/SCTP webrtc-datachannel"
  body := []
  isMedia := by decide
  notMedia := by decide

/--
The section of a data channel is taken for one of audio.
-/
theorem not_keepsApart_application
    : ¬KeepsApart (fun _ => (false, 0)) {} (textLines (sampleText sampleDataSection.lines)) := by
  intro h
  have haudio : (sampleDataSection.lines.foldlM (SdpTransform.parseAttr fun _ => (false, 0)) {}).map (·.hasAudio)
      = some true := by decide +kernel
  obtain ⟨s₁, hrun, haudio⟩ := Option.map_eq_some_iff.mp haudio
  have hside := h [] [] sampleDataSection {} s₁ (by decide +kernel) rfl hrun false (by decide +kernel)
  have hkept : s₁.hasAudio = false := congrArg Side.has hside
  exact absurd (haudio.symm.trans hkept) (by decide)

end Sample

end Sdp
