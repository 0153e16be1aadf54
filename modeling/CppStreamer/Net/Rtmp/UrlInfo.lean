import CppStreamer.Basic.Formatting
import CppStreamer.Utils.StringEx

/-!
This module contains the model of `GetRtmpUrlInfo`, and which URLs it splits into their parts.
-/

open Checked StringEx

namespace Rtmp

structure UrlInfo where
  host : List UInt8
  port : UInt16
  tcUrl : List UInt8
  app : List UInt8
  streamName : List UInt8
  deriving DecidableEq, Repr

def slash : UInt8 := 47

def colon : UInt8 := 58

def scheme : List UInt8 := ascii ['r', 't', 'm', 'p', ':', '/', '/']

def defaultPort : Int := 1935

namespace UrlInfo

/--
`host` up to its first colon, and what is behind it.
-/
def splitHost (host : List UInt8) : List UInt8 × Option (List UInt8) :=
  match find [colon] host with
  | none => (host, none)
  | some pos => (host.take pos, some (host.drop (pos + 1)))

-- What `atoi` gives for a number that is no `int` is left open.
variable (undefinedAtoi : List UInt8 → Int)

def IsInt (n : Int) : Prop := -2 ^ 31 ≤ n ∧ n < 2 ^ 31

instance (n : Int) : Decidable (IsInt n) := inferInstanceAs (Decidable (-2 ^ 31 ≤ n ∧ n < 2 ^ 31))

def portOf : Option (List UInt8) → Int
  | none => defaultPort
  | some portStr => if IsInt (atoi (cStr portStr)) then atoi (cStr portStr) else undefinedAtoi (cStr portStr)

/--
The loop over the pieces behind the first one, but for the last of all. There is a slash in `app` if another one comes.
-/
def appendPieces : CharArray × CharArray → List (List UInt8) → Checked CopyCheck (CharArray × CharArray)
  | s, [] => return s
  | (tcurl, app), piece :: pieces => do
    let tcurl ← tcurl.snprintf (slash :: cStr piece)
    let app ← app.snprintf (cStr piece)
    let app ← if pieces = [] then pure app else app.snprintf [slash]
    appendPieces (tcurl, app) pieces

/--
What the two arrays contain before they are written to is whatever is on the stack.
-/
def getRtmpUrlInfo (appStack tcurlStack : Vector UInt8 512) (url : List UInt8)
    : Checked CopyCheck (Except Int UrlInfo) :=
  if find scheme url ≠ some 0 then return .error (-1)
  else if url.length < 8 then return .error (-2)
  else
    let infoVec := stringSplit slash [] (url.drop 7)
    if infoVec.length < 2 then return .error (-3)
    else
      let (host, portStr) := splitHost (infoVec.headD [])
      let iport := portOf undefinedAtoi portStr
      if iport < 0 then return .error (-4)
      else do
        let tcurl ← CharArray.snprintf { bytes := tcurlStack.toList } scheme
        let tcurl ← tcurl.snprintf (cStr (infoVec.headD []))
        let (tcurl, app) ← appendPieces (tcurl, { bytes := appStack.toList }) infoVec.dropLast.tail
        let app ← app.string
        let tcUrl ← tcurl.string
        return .ok { host, port := UInt16.ofNat iport.toNat, tcUrl, app, streamName := infoVec.getLastD [] }

end UrlInfo

section Parts

/--
The parts of a URL, with the digits of the port.
-/
structure UrlParts where
  host : List UInt8
  port : Option (List UInt8)
  segs : List (List UInt8)
  stream : List UInt8

namespace UrlParts

def authority (p : UrlParts) : List UInt8 :=
  match p.port with
  | none => p.host
  | some digits => p.host ++ colon :: digits

def pieces (p : UrlParts) : List (List UInt8) := p.authority :: (p.segs ++ [p.stream])

def url (p : UrlParts) : List UInt8 := scheme ++ List.intercalate [slash] p.pieces

def portNumber (p : UrlParts) : Nat :=
  match p.port with
  | none => 1935
  | some digits => decimal digits

/--
No part is empty or contains a character that ends it, and the port is a number of 16 bits.
-/
structure WellFormed (p : UrlParts) : Prop where
  host : p.host ≠ [] ∧ ∀ c ∈ p.host, c ≠ 0 ∧ c ≠ slash ∧ c ≠ colon
  port : ∀ digits, p.port = some digits → digits ≠ [] ∧ (∀ c ∈ digits, isDigit c) ∧ decimal digits < 2 ^ 16
  segs : ∀ piece ∈ p.segs ++ [p.stream], piece ≠ [] ∧ ∀ c ∈ piece, c ≠ 0 ∧ c ≠ slash

/--
The URL without its last part.
-/
def tcUrl (p : UrlParts) : List UInt8 := scheme ++ List.intercalate [slash] (p.authority :: p.segs)

def info (p : UrlParts) : UrlInfo where
  host := p.host
  port := UInt16.ofNat p.portNumber
  tcUrl := p.tcUrl
  app := List.intercalate [slash] p.segs
  streamName := p.stream

end UrlParts

end Parts

/--
Whatever is on the stack, nothing is written outside of the arrays, and the parts of a URL come back, or an error if it
has none.
-/
def Splits (url : List UInt8) : Prop :=
  ∀ (undefinedAtoi : List UInt8 → Int) (appStack tcurlStack : Vector UInt8 512),
    (UrlInfo.getRtmpUrlInfo undefinedAtoi appStack tcurlStack url).Passes CopyCheck.Holds
      ∧ (∀ p : UrlParts, p.WellFormed → url = p.url →
          (UrlInfo.getRtmpUrlInfo undefinedAtoi appStack tcurlStack url).value = .ok p.info
            ∧ p.info.tcUrl ++ slash :: p.info.streamName = url)
      ∧ ((¬∃ p : UrlParts, p.WellFormed ∧ url = p.url) →
          ∃ err, (UrlInfo.getRtmpUrlInfo undefinedAtoi appStack tcurlStack url).value = .error err)

/--
The URL has a segment in front of the stream, and what is in front of the stream is shorter than the array.
-/
def Fits (url : List UInt8) : Prop :=
  ∃ p : UrlParts, p.WellFormed ∧ url = p.url ∧ p.segs ≠ [] ∧ p.tcUrl.length < 512

/--
The URL is one of those that are refused.
-/
def Refused (url : List UInt8) : Prop :=
  ¬scheme <+: url ∨ (stringSplit slash [] (url.drop 7)).length < 2
    ∨ ∃ portStr, (UrlInfo.splitHost ((stringSplit slash [] (url.drop 7)).headD [])).2 = some portStr
        ∧ UrlInfo.IsInt (atoi (cStr portStr)) ∧ atoi (cStr portStr) < 0

section Append

theorem intercalate_cons (c : UInt8) (piece : List UInt8) (pieces : List (List UInt8))
    : List.intercalate [c] (piece :: pieces) = piece ++ pieces.flatMap (c :: ·) := by
  induction pieces generalizing piece with
  | nil => simp
  | cons next pieces ih =>
    rw [List.intercalate_cons_cons, ih, List.flatMap_cons]
    simp

theorem appendPieces_fits (pieces : List (List UInt8))
    : ∀ {tcurl app : CharArray} {t a : List UInt8}, pieces ≠ [] → (∀ piece ∈ pieces, 0 ∉ piece) →
        tcurl.Ended t → app.Filled a → tcurl.bytes.length = 512 → app.bytes.length = 512 →
          t.length + (pieces.flatMap (slash :: ·)).length < 512 →
            a.length + (List.intercalate [slash] pieces).length < 512 →
              (UrlInfo.appendPieces (tcurl, app) pieces).Passes CopyCheck.Holds
                ∧ (UrlInfo.appendPieces (tcurl, app) pieces).value.1.Ended (t ++ pieces.flatMap (slash :: ·))
                ∧ (UrlInfo.appendPieces (tcurl, app) pieces).value.2.Ended (a ++ List.intercalate [slash] pieces) := by
  induction pieces with
  | nil =>
    intro tcurl app t a hne
    exact absurd rfl hne
  | cons piece pieces ih =>
    intro tcurl app t a _ hzero htcurl happ htsize hasize htroom haroom
    have hpiece : cStr piece = piece := CharArray.cStr_of_not_mem (hzero piece List.mem_cons_self)
    rw [List.flatMap_cons, List.length_append, List.length_cons] at htroom
    rw [intercalate_cons, List.length_append] at haroom
    obtain ⟨htpasses, htended⟩ :=
      htcurl.filled.snprintf_fits (slash :: piece) (by rw [List.length_cons]; omega) (by omega)
    obtain ⟨hapasses, haended⟩ := happ.snprintf_fits piece (by omega) (by omega)
    unfold UrlInfo.appendPieces
    simp only [hpiece, passes_bind, value_bind]
    cases pieces with
    | nil =>
      simp only [if_true, passes_bind, value_bind, passes_pure, value_pure, UrlInfo.appendPieces, and_true]
      exact ⟨⟨htpasses, hapasses⟩, by simpa using htended, by simpa using haended⟩
    | cons next pieces =>
      rw [List.flatMap_cons, List.length_append, List.length_cons] at haroom htroom
      obtain ⟨hspasses, hsended⟩ := haended.filled.snprintf_fits [slash]
        (by rw [List.length_append, CharArray.length_snprintf, List.length_singleton]; omega)
        (by rw [CharArray.length_snprintf]; omega)
      obtain ⟨hrest, htrest, harest⟩ := ih (List.cons_ne_nil _ _) (fun p hp => hzero p (List.mem_cons_of_mem _ hp)) htended
        hsended.filled (by simp [htsize]) (by simp [hasize])
        (by rw [List.flatMap_cons, List.length_append, List.length_append, List.length_cons, List.length_cons]; omega)
        (by rw [intercalate_cons, List.length_append, List.length_append, List.length_append, List.length_singleton]; omega)
      simp only [if_neg (List.cons_ne_nil next pieces), passes_bind, value_bind]
      refine ⟨⟨htpasses, hapasses, hspasses, hrest⟩, ?_, ?_⟩
      . rw [List.flatMap_cons, ← List.append_assoc]
        exact htrest
      . rw [List.intercalate_cons_cons, ← List.append_assoc, ← List.append_assoc]
        exact harest

end Append

section Parts

namespace UrlParts

variable {p : UrlParts}

theorem WellFormed.digits (h : p.WellFormed) {digits : List UInt8} (hport : p.port = some digits)
    : slash ∉ digits ∧ 0 ∉ digits := by
  obtain ⟨_, hdigits, _⟩ := h.port digits hport
  constructor
  . intro hmem
    exact absurd (hdigits slash hmem) (by decide)
  . intro hmem
    exact absurd (hdigits 0 hmem) (by decide)

theorem WellFormed.authority (h : p.WellFormed)
    : p.authority ≠ [] ∧ slash ∉ p.authority ∧ 0 ∉ p.authority := by
  obtain ⟨hne, hhost⟩ := h.host
  have hslash : slash ∉ p.host := fun hmem => (hhost slash hmem).right.left rfl
  have hzero : 0 ∉ p.host := fun hmem => (hhost 0 hmem).left rfl
  unfold UrlParts.authority
  cases hport : p.port with
  | none => exact ⟨hne, hslash, hzero⟩
  | some digits =>
    obtain ⟨hslash', hzero'⟩ := h.digits hport
    have hcolon : slash ≠ colon ∧ 0 ≠ colon := by decide
    simp only [ne_eq, List.append_eq_nil_iff, hne, false_and, not_false_eq_true, List.mem_append, List.mem_cons, hslash,
      hzero, hslash', hzero', hcolon.left, hcolon.right, or_self, and_self]

theorem WellFormed.splitHost (h : p.WellFormed) : UrlInfo.splitHost p.authority = (p.host, p.port) := by
  have hcolon : colon ∉ p.host := fun hmem => (h.host.right colon hmem).right.right rfl
  unfold UrlParts.authority UrlInfo.splitHost
  cases hport : p.port with
  | none => simp only [find_of_not_mem hcolon]
  | some digits =>
    have hfind : find [colon] (p.host ++ colon :: digits) = some p.host.length := find_append hcolon digits
    have hdrop : (p.host ++ colon :: digits).drop (p.host.length + 1) = digits := by
      rw [← List.drop_drop, List.drop_left]
      rfl
    simp only [hfind, List.take_left, hdrop]

theorem WellFormed.portOf (h : p.WellFormed) (undefinedAtoi : List UInt8 → Int)
    : UrlInfo.portOf undefinedAtoi p.port = p.portNumber := by
  unfold portNumber
  cases hport : p.port with
  | none => rfl
  | some digits =>
    obtain ⟨_, hdigits, hlt⟩ := h.port digits hport
    have hatoi : atoi (cStr digits) = decimal digits := by
      rw [CharArray.cStr_of_not_mem (h.digits hport).right]
      apply atoi_of_digits hdigits
    rw [UrlInfo.portOf, hatoi, if_pos]
    unfold UrlInfo.IsInt
    omega

theorem WellFormed.pieces (h : p.WellFormed) : ∀ piece ∈ p.pieces, piece ≠ [] ∧ slash ∉ piece := by
  intro piece hmem
  cases hmem with
  | head => exact ⟨h.authority.left, h.authority.right.left⟩
  | tail _ hmem =>
    obtain ⟨hne, hchars⟩ := h.segs piece hmem
    exact ⟨hne, fun hslash => (hchars slash hslash).right rfl⟩

theorem drop_url (p : UrlParts) : p.url.drop 7 = List.intercalate [slash] p.pieces := rfl

theorem WellFormed.stringSplit (h : p.WellFormed) : stringSplit slash [] (p.url.drop 7) = p.pieces := by
  rw [drop_url]
  apply stringSplit_intercalate h.pieces

theorem url_eq (p : UrlParts) : p.url = p.tcUrl ++ slash :: p.stream := by
  unfold url tcUrl pieces
  rw [intercalate_cons, intercalate_cons, List.flatMap_append, List.flatMap_singleton]
  simp

theorem WellFormed.zero (h : p.WellFormed) : 0 ∉ p.tcUrl ∧ 0 ∉ List.intercalate [slash] p.segs := by
  have hsegs : ∀ piece ∈ p.segs, 0 ∉ piece := by
    intro piece hpiece hmem
    apply ((h.segs piece (List.mem_append_left _ hpiece)).right 0 hmem).left rfl
  have hjoin {pieces : List (List UInt8)} (hpieces : ∀ piece ∈ pieces, 0 ∉ piece)
      : 0 ∉ List.intercalate [slash] pieces := by
    intro hmem
    rcases mem_intercalate hmem with hslash | ⟨piece, hpiece, hzero⟩
    . exact absurd hslash (by decide)
    . apply hpieces piece hpiece hzero
  constructor
  . unfold tcUrl
    rw [List.mem_append, not_or]
    refine ⟨by decide, hjoin ?_⟩
    intro piece hpiece
    cases hpiece with
    | head => exact h.authority.right.right
    | tail _ hpiece => exact hsegs piece hpiece
  . apply hjoin hsegs

end UrlParts

end Parts

section Calls

variable {undefinedAtoi : List UInt8 → Int} {appStack tcurlStack : Vector UInt8 512} {url : List UInt8} {p : UrlParts}

theorem find_eq_zero_iff {pattern s : List UInt8} (hne : pattern ≠ []) : find pattern s = some 0 ↔ pattern <+: s := by
  constructor
  . intro hfind
    exact find_eq_some hfind
  . rintro ⟨rest, rfl⟩
    apply find_append_of_prefix hne

/--
What a call comes to with a URL that has parts.
-/
theorem getRtmpUrlInfo_url (h : p.WellFormed)
    : UrlInfo.getRtmpUrlInfo undefinedAtoi appStack tcurlStack p.url = do
        let tcurl ← CharArray.snprintf { bytes := tcurlStack.toList } scheme
        let tcurl ← tcurl.snprintf p.authority
        let (tcurl, app) ← UrlInfo.appendPieces (tcurl, { bytes := appStack.toList }) p.segs
        let app ← app.string
        let tcUrl ← tcurl.string
        return .ok { p.info with app, tcUrl } := by
  have hscheme : find scheme p.url = some 0 := by
    rw [find_eq_zero_iff (by decide)]
    apply List.prefix_append
  have hlength : ¬p.pieces.length < 2 := by
    simp [UrlParts.pieces]
  have hurl : ¬p.url.length < 8 := by
    have hne := List.length_pos_iff.mpr h.authority.left
    have hseven : scheme.length = 7 := rfl
    unfold UrlParts.url UrlParts.pieces
    rw [intercalate_cons, List.length_append, List.length_append]
    omega
  have hport := h.portOf undefinedAtoi
  have hfirst : p.pieces.headD [] = p.authority := rfl
  have hsegs : p.pieces.dropLast.tail = p.segs := by
    unfold UrlParts.pieces
    rw [← List.cons_append, List.dropLast_concat, List.tail_cons]
  have hlast : p.pieces.getLastD [] = p.stream := by
    unfold UrlParts.pieces
    rw [← List.cons_append, List.getLastD_eq_getLast?, List.getLast?_concat]
    rfl
  unfold UrlInfo.getRtmpUrlInfo
  simp only [hscheme, h.stringSplit, ne_eq, not_true_eq_false, if_false, if_neg hurl, if_neg hlength, hfirst, h.splitHost,
    hport, hsegs, hlast, CharArray.cStr_of_not_mem h.authority.right.right]
  rw [if_neg (by omega)]
  rfl

theorem length_appendPieces (pieces : List (List UInt8))
    : ∀ tcurl app : CharArray,
        (UrlInfo.appendPieces (tcurl, app) pieces).value.1.bytes.length = tcurl.bytes.length := by
  induction pieces with
  | nil =>
    intro tcurl app
    rfl
  | cons piece pieces ih =>
    intro tcurl app
    unfold UrlInfo.appendPieces
    simp only [value_bind]
    split
    . simp only [value_bind]
      rw [ih, CharArray.length_snprintf]
    . simp only [value_bind]
      rw [ih, CharArray.length_snprintf]

/--
What the last array is as a string, for a URL that has parts.
-/
theorem getRtmpUrlInfo_fits (h : p.WellFormed) (hsegs : p.segs ≠ []) (hlength : p.tcUrl.length < 512)
    : (UrlInfo.getRtmpUrlInfo undefinedAtoi appStack tcurlStack p.url).Passes CopyCheck.Holds
        ∧ (UrlInfo.getRtmpUrlInfo undefinedAtoi appStack tcurlStack p.url).value = .ok p.info := by
  have htcurl : p.tcUrl = [] ++ scheme ++ p.authority ++ p.segs.flatMap (slash :: ·) := by
    unfold UrlParts.tcUrl
    rw [intercalate_cons, List.nil_append, List.append_assoc]
  have hsum := congrArg List.length htcurl
  simp only [List.length_append, List.length_nil, Nat.zero_add] at hsum
  have happ : (List.intercalate [slash] p.segs).length ≤ (p.segs.flatMap (slash :: ·)).length := by
    cases hcons : p.segs with
    | nil => simp
    | cons seg segs =>
      rw [intercalate_cons, List.flatMap_cons, List.length_append, List.length_append, List.length_cons]
      omega
  have hsize : tcurlStack.toList.length = 512 := Vector.length_toList
  obtain ⟨hpasses, hended⟩ := (CharArray.filled_nil tcurlStack.toList).snprintf_fits scheme
    (by rw [List.length_nil]; simp only; omega) (by simp only; omega)
  obtain ⟨hpasses', hended'⟩ := hended.filled.snprintf_fits p.authority
    (by rw [CharArray.length_snprintf, List.length_append, List.length_nil]; simp only; omega)
    (by rw [CharArray.length_snprintf]; simp only; omega)
  obtain ⟨hloop, ht, ha⟩ := appendPieces_fits p.segs hsegs
    (fun piece hpiece hzero => ((h.segs piece (List.mem_append_left _ hpiece)).right 0 hzero).left rfl) hended'
    (CharArray.filled_nil appStack.toList) (by simp) (by simp)
    (by simp only [List.length_append, List.length_nil]; omega) (by rw [List.length_nil]; omega)
  rw [← htcurl] at ht
  rw [List.nil_append] at ha
  obtain ⟨hstring, hvalue⟩ := CharArray.string_of_ended ht h.zero.left
  obtain ⟨hstring', hvalue'⟩ := CharArray.string_of_ended ha h.zero.right
  rw [getRtmpUrlInfo_url h]
  constructor
  . simp only [passes_bind, passes_pure, and_true]
    exact ⟨hpasses, hpasses', hloop, hstring', hstring⟩
  . simp only [value_bind, value_pure, hvalue, hvalue']
    rfl

/--
Without a segment in front of the stream the application is what is on the stack.
-/
theorem not_passes_of_nil (h : p.WellFormed) (hsegs : p.segs = [])
    : ¬(UrlInfo.getRtmpUrlInfo undefinedAtoi (Vector.replicate 512 65) tcurlStack p.url).Passes CopyCheck.Holds := by
  rw [getRtmpUrlInfo_url h, hsegs]
  simp only [UrlInfo.appendPieces, passes_bind, passes_pure, value_pure, CharArray.string_passes]
  rintro ⟨_, _, _, hzero, _⟩
  rw [Vector.toList_replicate, List.mem_replicate] at hzero
  exact absurd hzero.right (by decide)

theorem length_tcUrl_lt (h : p.WellFormed)
    (hpasses : (UrlInfo.getRtmpUrlInfo undefinedAtoi appStack tcurlStack p.url).Passes CopyCheck.Holds)
    (hvalue : (UrlInfo.getRtmpUrlInfo undefinedAtoi appStack tcurlStack p.url).value = .ok p.info)
    : p.tcUrl.length < 512 := by
  rw [getRtmpUrlInfo_url h] at hpasses hvalue
  simp only [passes_bind, CharArray.string_passes] at hpasses
  simp only [value_bind, value_pure, CharArray.string_value] at hvalue
  obtain ⟨_, _, _, _, hzero, _⟩ := hpasses
  injection hvalue with hinfo
  have htcurl := congrArg UrlInfo.tcUrl hinfo
  simp only at htcurl
  have hlt := CharArray.length_cStr_lt hzero
  rw [htcurl, length_appendPieces, CharArray.length_snprintf, CharArray.length_snprintf, Vector.length_toList] at hlt
  exact hlt

theorem not_refused (h : p.WellFormed) : ¬Refused p.url := by
  rintro (hscheme | hlength | ⟨portStr, hport, _, hneg⟩)
  . apply hscheme
    apply List.prefix_append
  . rw [h.stringSplit] at hlength
    simp only [UrlParts.pieces, List.length_cons, List.length_append] at hlength
    omega
  . rw [h.stringSplit] at hport
    change (UrlInfo.splitHost p.authority).2 = _ at hport
    rw [h.splitHost] at hport
    rw [CharArray.cStr_of_not_mem (h.digits hport).right, atoi_of_digits (h.port portStr hport).right.left] at hneg
    omega

theorem getRtmpUrlInfo_refused (h : Refused url)
    : (UrlInfo.getRtmpUrlInfo undefinedAtoi appStack tcurlStack url).Passes CopyCheck.Holds
        ∧ ∃ err, (UrlInfo.getRtmpUrlInfo undefinedAtoi appStack tcurlStack url).value = .error err := by
  unfold UrlInfo.getRtmpUrlInfo
  split
  . exact ⟨passes_pure _, _, rfl⟩
  . next hscheme =>
    rw [ne_eq, not_not, find_eq_zero_iff (by decide)] at hscheme
    split
    . exact ⟨passes_pure _, _, rfl⟩
    . simp only
      split
      . exact ⟨passes_pure _, _, rfl⟩
      . next hlength =>
        obtain ⟨portStr, hport, hint, hneg⟩ := (h.resolve_left (not_not.mpr hscheme)).resolve_left hlength
        rw [hport, if_pos (by rw [UrlInfo.portOf, if_pos hint]; exact hneg)]
        exact ⟨passes_pure _, _, rfl⟩

theorem refused_of_error {err : Int}
    (h : (UrlInfo.getRtmpUrlInfo (fun _ => 0) appStack tcurlStack url).value = .error err)
    : Refused url := by
  unfold UrlInfo.getRtmpUrlInfo at h
  split at h
  . next hscheme =>
    rw [ne_eq, find_eq_zero_iff (by decide)] at hscheme
    exact Or.inl hscheme
  . next hscheme =>
    rw [ne_eq, not_not, find_eq_zero_iff (by decide)] at hscheme
    split at h
    . next hlength =>
      -- there is nothing behind the scheme
      have hnil : url.drop 7 = [] := by
        rw [List.drop_eq_nil_iff]
        omega
      rw [Refused, hnil, stringSplit_nil]
      exact Or.inr (Or.inl (by decide))
    . simp only at h
      split at h
      . next hlength => exact Or.inr (Or.inl hlength)
      . split at h
        . next hneg =>
          refine Or.inr (Or.inr ?_)
          cases hport : (UrlInfo.splitHost ((stringSplit slash [] (url.drop 7)).headD [])).2 with
          | none =>
            rw [hport] at hneg
            exact absurd hneg (by decide)
          | some portStr =>
            rw [hport, UrlInfo.portOf] at hneg
            split at hneg
            . next hint => exact ⟨portStr, rfl, hint, hneg⟩
            . exact absurd hneg (by decide)
        . simp only [value_bind, value_pure] at h
          cases h

/--
The pieces of a URL that has parts are its authority, the segments and the stream.
-/
theorem parts_unique {q : UrlParts} (hp : p.WellFormed) (hq : q.WellFormed) (heq : p.url = q.url)
    : p.segs = q.segs ∧ p.tcUrl = q.tcUrl := by
  have hpieces : p.pieces = q.pieces := by
    rw [← hp.stringSplit, ← hq.stringSplit, heq]
  unfold UrlParts.pieces at hpieces
  injection hpieces with hauthority hrest
  have hsegs := (List.append_inj' hrest rfl).left
  refine ⟨hsegs, ?_⟩
  unfold UrlParts.tcUrl
  rw [hauthority, hsegs]

/--
A URL is split into its parts, or refused if it has none, if and only if it fits into the arrays or is one of those that
are refused.
-/
theorem splits_iff (url : List UInt8) : Splits url ↔ Fits url ∨ Refused url := by
  constructor
  . intro h
    by_cases hparts : ∃ p : UrlParts, p.WellFormed ∧ url = p.url
    . obtain ⟨p, hp, rfl⟩ := hparts
      left
      refine ⟨p, hp, rfl, ?_, ?_⟩
      . intro hsegs
        apply not_passes_of_nil hp hsegs
        apply (h (fun _ => 0) (Vector.replicate 512 65) (Vector.replicate 512 0)).left
      . obtain ⟨hpasses, hvalue, _⟩ := h (fun _ => 0) (Vector.replicate 512 0) (Vector.replicate 512 0)
        apply length_tcUrl_lt hp hpasses (hvalue p hp rfl).left
    . obtain ⟨_, _, herror⟩ := h (fun _ => 0) (Vector.replicate 512 0) (Vector.replicate 512 0)
      obtain ⟨err, herr⟩ := herror hparts
      right
      apply refused_of_error herr
  . rintro (⟨p, hp, rfl, hsegs, hlength⟩ | hrefused) undefinedAtoi appStack tcurlStack
    . refine ⟨(getRtmpUrlInfo_fits hp hsegs hlength).left, ?_, ?_⟩
      . intro q hq heq
        obtain ⟨hsegs', htcurl⟩ := parts_unique hp hq heq
        rw [hsegs'] at hsegs
        rw [htcurl] at hlength
        rw [heq]
        exact ⟨(getRtmpUrlInfo_fits hq hsegs hlength).right, q.url_eq.symm⟩
      . intro hnone
        exact absurd ⟨p, hp, rfl⟩ hnone
    . obtain ⟨hpasses, herror⟩ := getRtmpUrlInfo_refused hrefused
      refine ⟨hpasses, ?_, fun _ => herror⟩
      rintro p hp rfl
      exact absurd hrefused (not_refused hp)

/--
A URL with a stream and nothing else behind the host.
-/
theorem not_splits : ¬Splits (ascii ['r', 't', 'm', 'p', ':', '/', '/', 'h', '/', 's']) := by
  intro h
  have hp : UrlParts.WellFormed ⟨ascii ['h'], none, [], ascii ['s']⟩ := by
    have hhost : (104 : UInt8) ≠ 0 ∧ (104 : UInt8) ≠ slash ∧ (104 : UInt8) ≠ colon := by decide
    have hstream : [(115 : UInt8)] ≠ [] ∧ ∀ c ∈ [(115 : UInt8)], c ≠ 0 ∧ c ≠ slash :=
      ⟨List.cons_ne_nil _ _, List.forall_mem_singleton.mpr (by decide)⟩
    constructor
    . exact ⟨List.cons_ne_nil _ _, List.forall_mem_singleton.mpr hhost⟩
    . intro _ hport
      cases hport
    . exact List.forall_mem_singleton.mpr hstream
  apply not_passes_of_nil hp rfl
  apply (h (fun _ => 0) (Vector.replicate 512 65) (Vector.replicate 512 0)).left

end Calls

end Rtmp
