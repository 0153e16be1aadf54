import CppStreamer.Basic.Tlv
import CppStreamer.Net.RtpRtcp.Rtx

/-!
This module contains the elements of header extensions that `ParseExt` records, and the parts that `RtpPacket::Parse`
splits a packet into.
-/

open ByteStream

/--
An element of a header extension: where it begins behind the length of the extension, and its value.
-/
abbrev ExtElement := Tlv.Element UInt8 UInt8

namespace RtpLayout

/--
The elements in the order in which `ParseOnebyteExt` records them, `none` for an exception.
-/
def parseOnebyteExt (size : Nat) : List UInt8 → Option (List ExtElement)
  | [] => some []
  | first :: rest =>
    let id := first >>> 4
    let len := (first &&& 0x0f).toNat + 1
    if id = 0x0f then some []
    else if id ≠ 0 then
      if rest.length < len then none
      else
        (parseOnebyteExt size ((rest.drop len).dropWhile (· = 0))).map fun es =>
          ⟨size - (rest.length + 1), id, rest.take len⟩ :: es
    else parseOnebyteExt size (rest.dropWhile (· = 0))
termination_by ext => ext.length
decreasing_by
  . have := (List.dropWhile_sublist (l := rest.drop ((first &&& 0x0f).toNat + 1)) (· = 0)).length_le
    simp only [List.length_drop, List.length_cons] at *
    omega
  . have := (List.dropWhile_sublist (l := rest) (· = 0)).length_le
    simp only [List.length_cons]
    omega

def parseTwobytesExt (size : Nat) : List UInt8 → Option (List ExtElement)
  | id :: len :: rest =>
    if id ≠ 0 then
      if rest.length < len.toNat then none
      else
        (parseTwobytesExt size ((rest.drop len.toNat).dropWhile (· = 0))).map fun es =>
          ⟨size - (rest.length + 2), id, rest.take len.toNat⟩ :: es
    else parseTwobytesExt size ((len :: rest).dropWhile (· = 0))
  | _ => some []
termination_by ext => ext.length
decreasing_by
  . have := (List.dropWhile_sublist (l := rest.drop len.toNat) (· = 0)).length_le
    simp only [List.length_drop, List.length_cons] at *
    omega
  . have := (List.dropWhile_sublist (l := len :: rest) (· = 0)).length_le
    simp only [List.length_cons] at *
    omega

section Format

/--
A byte with the identifier in its upper half and the length less one in its lower half.
-/
def onebyteHead : List UInt8 → Tlv.Head UInt8
  | [] => .stop
  | first :: _ =>
    if first >>> 4 = 0x0f then .stop
    else if first >>> 4 ≠ 0 then .element (first >>> 4) ((first &&& 0x0f).toNat + 1)
    else .pad

theorem onebyteHead_le {l : List UInt8} {id : UInt8} {len : Nat} (h : onebyteHead l = .element id len)
    : 1 ≤ l.length := by
  cases l with
  | nil => cases h
  | cons first rest => simp

theorem onebyteHead_congr {l l' : List UInt8} {id : UInt8} {len : Nat} (htake : l'.take 1 = l.take 1)
    (h : onebyteHead l = .element id len)
    : onebyteHead l' = .element id len := by
  cases l with
  | nil => cases h
  | cons first rest =>
    cases l' with
    | nil => cases htake
    | cons first' rest' =>
      rw [List.take_succ_cons, List.take_succ_cons, List.cons.injEq] at htake
      rw [← h, onebyteHead, onebyteHead, htake.left]

def onebyteFormat : Tlv.Format UInt8 UInt8 where
  headerLen := 1
  head := onebyteHead
  headerLen_pos := Nat.one_pos
  headerLen_le := onebyteHead_le
  pad_congr _ h := h
  element_congr _ := onebyteHead_congr

/--
A byte with the identifier and one with the length.
-/
def twobytesHead : List UInt8 → Tlv.Head UInt8
  | id :: len :: _ => if id ≠ 0 then .element id len.toNat else .pad
  | _ => .stop

theorem twobytesHead_le {l : List UInt8} {id : UInt8} {len : Nat} (h : twobytesHead l = .element id len)
    : 2 ≤ l.length := by
  unfold twobytesHead at h
  split at h
  . simp
  . cases h

theorem twobytesHead_pad {id : UInt8} {rest rest' : List UInt8} (hlen : rest'.length = rest.length)
    (h : twobytesHead (id :: rest) = .pad)
    : twobytesHead (id :: rest') = .pad := by
  cases rest with
  | nil => cases h
  | cons len rest =>
    cases rest' with
    | nil => cases hlen
    | cons len' rest' =>
      rw [twobytesHead] at h ⊢
      by_cases hzero : id ≠ 0
      . rw [if_pos hzero] at h
        cases h
      . rw [if_neg hzero]

theorem twobytesHead_congr {l l' : List UInt8} {id : UInt8} {len : Nat} (htake : l'.take 2 = l.take 2)
    (h : twobytesHead l = .element id len)
    : twobytesHead l' = .element id len := by
  have hlen := congrArg List.length htake
  have hle := twobytesHead_le h
  rw [List.length_take, List.length_take] at hlen
  rcases l with _ | ⟨a, _ | ⟨b, rest⟩⟩
  . cases h
  . cases h
  . rcases l' with _ | ⟨a', _ | ⟨b', rest'⟩⟩
    . simp at hlen
    . simp at hlen
    . simp only [List.take_succ_cons, List.take_zero, List.cons.injEq, and_true] at htake
      rw [← h, twobytesHead, twobytesHead, htake.left, htake.right]

def twobytesFormat : Tlv.Format UInt8 UInt8 where
  headerLen := 2
  head := twobytesHead
  headerLen_pos := Nat.two_pos
  headerLen_le := twobytesHead_le
  pad_congr := twobytesHead_pad
  element_congr _ := twobytesHead_congr

/--
Zeros between elements are passed over one by one, or all at once.
-/
theorem onebyteFormat_zero (size : Nat) (b : UInt8) (rest : List UInt8) (hb : decide (b = 0) = true)
    : onebyteFormat.walk size (b :: rest) = onebyteFormat.walk size rest := by
  rw [decide_eq_true_eq] at hb
  subst hb
  apply Tlv.Format.walk_pad
  rfl

theorem twobytesFormat_zero (size : Nat) (b : UInt8) (rest : List UInt8) (hb : decide (b = 0) = true)
    : twobytesFormat.walk size (b :: rest) = twobytesFormat.walk size rest := by
  rw [decide_eq_true_eq] at hb
  subst hb
  cases rest with
  | nil =>
    unfold Tlv.Format.walk
    rfl
  | cons len rest =>
    apply Tlv.Format.walk_pad
    rfl

theorem onebyteFormat_walk_cons (size : Nat) (first : UInt8) (rest : List UInt8)
    : onebyteFormat.walk size (first :: rest)
      = if first >>> 4 = 0x0f then some []
        else if first >>> 4 ≠ 0 then
          if rest.length < (first &&& 0x0f).toNat + 1 then none
          else
            (onebyteFormat.walk size (rest.drop ((first &&& 0x0f).toNat + 1))).map fun es =>
              ⟨size - (rest.length + 1), first >>> 4, rest.take ((first &&& 0x0f).toNat + 1)⟩ :: es
        else onebyteFormat.walk size rest := by
  have hhead : onebyteFormat.head (first :: rest) = onebyteHead (first :: rest) := rfl
  have hheader : onebyteFormat.headerLen = 1 := rfl
  rw [Tlv.Format.walk, hhead, hheader]
  unfold onebyteHead
  by_cases hstop : first >>> 4 = 0x0f
  . simp only [if_pos hstop]
  . by_cases helement : first >>> 4 ≠ 0
    . simp only [if_neg hstop, if_pos helement, List.length_cons, Nat.add_comm 1, Nat.add_lt_add_iff_right,
        List.drop_succ_cons, List.drop_zero]
    . simp only [if_neg hstop, if_neg helement]

theorem twobytesFormat_walk_cons (size : Nat) (id len : UInt8) (rest : List UInt8)
    : twobytesFormat.walk size (id :: len :: rest)
      = if id ≠ 0 then
          if rest.length < len.toNat then none
          else
            (twobytesFormat.walk size (rest.drop len.toNat)).map fun es =>
              ⟨size - (rest.length + 2), id, rest.take len.toNat⟩ :: es
        else twobytesFormat.walk size (len :: rest) := by
  have hhead : twobytesFormat.head (id :: len :: rest) = twobytesHead (id :: len :: rest) := rfl
  have hheader : twobytesFormat.headerLen = 2 := rfl
  rw [Tlv.Format.walk, hhead, hheader]
  unfold twobytesHead
  by_cases helement : id ≠ 0
  . have hfits : rest.length + 1 + 1 < len.toNat + 2 ↔ rest.length < len.toNat := by omega
    simp only [if_pos helement, List.length_cons, Nat.add_comm 2, hfits, List.drop_succ_cons, List.drop_zero]
  . simp only [if_neg helement]

theorem parseOnebyteExt_eq (size : Nat) (ext : List UInt8)
    : parseOnebyteExt size ext = onebyteFormat.walk size ext := by
  have hskip (l : List UInt8) := onebyteFormat.walk_dropWhile size (onebyteFormat_zero size) l
  fun_induction parseOnebyteExt size ext with
  | case1 => rw [Tlv.Format.walk_nil]
  | case2 first rest id hstop => rw [onebyteFormat_walk_cons, if_pos hstop]
  | case3 first rest id len hstop helement hlong =>
    rw [onebyteFormat_walk_cons, if_neg hstop, if_pos helement, if_pos hlong]
  | case4 first rest id len hstop helement hlong ih =>
    rw [onebyteFormat_walk_cons, if_neg hstop, if_pos helement, if_neg hlong, ih, hskip]
  | case5 first rest id hstop hpad ih => rw [onebyteFormat_walk_cons, if_neg hstop, if_neg hpad, ih, hskip]

theorem parseTwobytesExt_eq (size : Nat) (ext : List UInt8)
    : parseTwobytesExt size ext = twobytesFormat.walk size ext := by
  have hskip (l : List UInt8) := twobytesFormat.walk_dropWhile size (twobytesFormat_zero size) l
  fun_induction parseTwobytesExt size ext with
  | case1 id len rest helement hlong => rw [twobytesFormat_walk_cons, if_pos helement, if_pos hlong]
  | case2 id len rest helement hlong ih =>
    rw [twobytesFormat_walk_cons, if_pos helement, if_neg hlong, ih, hskip]
  | case3 id len rest hpad ih => rw [twobytesFormat_walk_cons, if_neg hpad, ih, hskip]
  | case4 ext hshort =>
    rcases ext with _ | ⟨id, _ | ⟨len, rest⟩⟩
    . rw [Tlv.Format.walk_nil]
    . unfold Tlv.Format.walk
      rfl
    . exact absurd rfl (hshort id len rest)

theorem isSome_parseOnebyteExt (size : Nat) (ext : List UInt8)
    : (parseOnebyteExt size ext).isSome = onebyteExtFits ext := by
  fun_induction onebyteExtFits ext with
  | case1 =>
    unfold parseOnebyteExt
    rfl
  | case2 first rest id hstop =>
    unfold parseOnebyteExt
    rw [if_pos hstop]
    rfl
  | case3 first rest id len hstop helement hlong =>
    unfold parseOnebyteExt
    rw [if_neg hstop, if_pos helement, if_pos hlong]
    rfl
  | case4 first rest id len hstop helement hlong ih =>
    unfold parseOnebyteExt
    rw [if_neg hstop, if_pos helement, if_neg hlong, Option.isSome_map, ih]
  | case5 first rest id hstop hpad ih =>
    unfold parseOnebyteExt
    rw [if_neg hstop, if_neg hpad, ih]

theorem isSome_parseTwobytesExt (size : Nat) (ext : List UInt8)
    : (parseTwobytesExt size ext).isSome = twobytesExtFits ext := by
  fun_induction twobytesExtFits ext with
  | case1 id len rest helement hlong =>
    unfold parseTwobytesExt
    rw [if_pos helement, if_pos hlong]
    rfl
  | case2 id len rest helement hlong ih =>
    unfold parseTwobytesExt
    rw [if_pos helement, if_neg hlong, Option.isSome_map, ih]
  | case3 id len rest hpad ih =>
    unfold parseTwobytesExt
    rw [if_neg hpad, ih]
  | case4 ext hshort =>
    unfold parseTwobytesExt
    split
    . next id len rest => exact absurd rfl (hshort id len rest)
    . rfl

end Format

def extensionByte (data : List UInt8) : Nat := read2Bytes (data.drop (extensionPos data + 2)) * 4

/--
The bytes of the extension behind its length.
-/
def extensionValue (data : List UInt8) : List UInt8 := (data.drop (extensionPos data + 4)).take (extensionByte data)

inductive ExtProfile where
  | onebyte
  | twobytes
  deriving DecidableEq, Repr

def ExtProfile.format : ExtProfile → Tlv.Format UInt8 UInt8
  | .onebyte => onebyteFormat
  | .twobytes => twobytesFormat

/--
`HasOnebyteExt` and `HasTwobytesExt`, `none` if there is no extension or neither holds.
-/
def extProfile (data : List UInt8) : Option ExtProfile :=
  let id := read2Bytes (data.drop (extensionPos data))
  if hasExtension data then
    if id = 0xbede then some .onebyte
    else if id / 16 = 0x100 then some .twobytes
    else none
  else
    none

/--
The elements that `ParseExt` records, `none` for an exception.
-/
def extElements (data : List UInt8) : Option (List ExtElement) :=
  let value := extensionValue data
  match extProfile data with
  | some .onebyte => parseOnebyteExt value.length value
  | some .twobytes => parseTwobytesExt value.length value
  | none => if hasExtension data then none else some []

theorem isSome_extElements (data : List UInt8) : (extElements data).isSome = parseExt data := by
  have hone := isSome_parseOnebyteExt (extensionValue data).length (extensionValue data)
  have htwo := isSome_parseTwobytesExt (extensionValue data).length (extensionValue data)
  have hvalue : extensionValue data
      = (data.drop (extensionPos data + 4)).take (read2Bytes (data.drop (extensionPos data + 2)) * 4) := rfl
  unfold extElements parseExt extProfile
  simp only [← hvalue]
  by_cases hext : hasExtension data = true
  . simp only [if_pos hext]
    by_cases honebyte : read2Bytes (data.drop (extensionPos data)) = 0xbede
    . simp only [if_pos honebyte, hone]
    . by_cases htwobytes : read2Bytes (data.drop (extensionPos data)) / 16 = 0x100
      . simp only [if_neg honebyte, if_pos htwobytes, htwo]
      . simp only [if_neg honebyte, if_neg htwobytes]
        rfl
  . simp only [if_neg hext]
    rfl

theorem extElements_eq_walk {data : List UInt8} {profile : ExtProfile} (h : extProfile data = some profile)
    : extElements data = profile.format.walk (extensionValue data).length (extensionValue data) := by
  unfold extElements
  simp only [h]
  cases profile with
  | onebyte => apply parseOnebyteExt_eq
  | twobytes => apply parseTwobytesExt_eq

theorem hasExtension_of_extProfile {data : List UInt8} {profile : ExtProfile} (h : extProfile data = some profile)
    : hasExtension data = true := by
  unfold extProfile at h
  simp only at h
  split at h
  . assumption
  . cases h

/--
Where the payload begins, and the bytes of padding behind it.
-/
def headerLen (data : List UInt8) : Nat :=
  extensionPos data + if hasExtension data then 4 + extensionByte data else 0

def paddingLen (data : List UInt8) : Nat := if hasPadding data then (data.getLastD 0).toNat else 0

/--
A packet whose header and padding leave a payload, and whose extension can be parsed.
-/
structure WellFormed (data : List UInt8) : Prop where
  payload : headerLen data + paddingLen data < data.length
  extension : parseExt data = true

theorem headerEnd_eq (data : List UInt8)
    : headerEnd data
      = if hasExtension data = true ∧ data.length < headerLen data then none else some (headerLen data) := by
  unfold headerEnd headerLen extensionByte
  simp only
  by_cases hext : hasExtension data = true
  . simp only [hext, if_true, true_and]
    by_cases hshort : data.length < extensionPos data + 4
    . rw [if_pos hshort, if_pos (by omega)]
    . rw [if_neg hshort, Nat.add_assoc]
  . simp [hext]

theorem parsePadding_eq (data : List UInt8) (payloadLen : Nat)
    : parsePadding data payloadLen
      = if 0 < paddingLen data ∧ payloadLen ≤ paddingLen data then none else some (paddingLen data) := by
  unfold parsePadding paddingLen
  by_cases hpadding : hasPadding data = true
  . simp only [if_pos hpadding]
  . simp [if_neg hpadding]

theorem parse_eq_some_iff {data : List UInt8} (hmax : data.length ≤ rtpPacketMaxSize) {layout : RtpLayout}
    : parse data = some layout
      ↔ WellFormed data
        ∧ layout = ⟨headerLen data, data.length - headerLen data - paddingLen data, paddingLen data⟩ := by
  unfold parse
  rw [if_neg (Nat.not_lt_of_le hmax), headerEnd_eq]
  by_cases hpayload : headerLen data + paddingLen data < data.length
  . rw [if_neg (by omega)]
    simp only
    rw [if_neg (by omega), parsePadding_eq, if_neg (by omega)]
    simp only
    by_cases hext : parseExt data = true
    . rw [if_pos hext, Option.some_inj, eq_comm]
      exact (and_iff_right ⟨hpayload, hext⟩).symm
    . rw [if_neg hext]
      apply iff_of_false
      . simp
      . intro h
        exact hext h.left.extension
  . apply iff_of_false
    . split
      . simp
      . next payload hheader =>
        split at hheader
        . cases hheader
        . cases hheader
          split
          . simp
          . rw [parsePadding_eq, if_pos (by omega)]
            simp
    . intro h
      exact hpayload h.left.payload

/--
The bytes of a packet by part.
-/
structure Parts where
  header : List UInt8
  csrcs : List UInt8
  extension : List UInt8
  payload : List UInt8
  padding : List UInt8
  deriving DecidableEq, Repr

def parts (data : List UInt8) (layout : RtpLayout) : Parts where
  header := data.take sizeofRtpCommonHeader
  csrcs := csrcs data
  extension :=
    (data.drop (extensionPos data)).take (if hasExtension data then 4 + extensionByte data else 0)
  payload := (data.drop layout.payload).take layout.payloadLen
  padding := (data.drop (layout.payload + layout.payloadLen)).take layout.padLen

def Parts.bytes (p : Parts) : List UInt8 := p.header ++ p.csrcs ++ p.extension ++ p.payload ++ p.padding

/--
The parts follow each other and are all there is. The elements of the extension lie inside it.
-/
structure SplitsExactly (data : List UInt8) (layout : RtpLayout) : Prop where
  bytes : (parts data layout).bytes = data
  header : (parts data layout).header.length = 12
  csrcs : (parts data layout).csrcs.length = 4 * csrcCount data
  extension : (parts data layout).extension.length = if hasExtension data then 4 + extensionByte data else 0
  payload : (parts data layout).payload.length = layout.payloadLen
  payload_pos : 0 < layout.payloadLen
  padding : (parts data layout).padding.length = layout.padLen
  elements : ∃ es, extElements data = some es ∧ ∀ profile, extProfile data = some profile → ∀ e ∈ es,
    4 + e.pos + profile.format.headerLen + e.value.length ≤ (parts data layout).extension.length
      ∧ ((parts data layout).extension.drop (4 + e.pos + profile.format.headerLen)).take e.value.length = e.value

/--
The clone of a packet has the same bytes and the same parts, whatever buffer it is cloned to.
-/
def ClonesWell (data : List UInt8) (layout : RtpLayout) : Prop :=
  ∀ (m : RtpMemory) (buffer : Option BufferId) (now : Int),
    ∃ m' p, m.clone data buffer now = (m', some p) ∧ p.toRtpLayout = layout ∧ m'.getData p = data

theorem clonesWell_iff {data : List UInt8} {layout : RtpLayout} (hparse : parse data = some layout)
    : ClonesWell data layout ↔ data.length < rtpPacketMaxSize := by
  constructor
  . intro hclone
    rcases hclone ⟨fun _ => [], 0⟩ none 0 with ⟨m', p, hclone, _⟩
    by_contra hlong
    unfold RtpMemory.clone at hclone
    simp only [if_neg hlong] at hclone
    cases hclone
  . intro hshort m buffer now
    have hclone : ∃ m' p, m.clone data buffer now = (m', some p) ∧ p.toRtpLayout = layout := by
      cases buffer with
      | some buffer => exact ⟨_, _, RtpMemory.clone_pool hshort hparse buffer now, rfl⟩
      | none => exact ⟨_, _, RtpMemory.clone_heap hshort hparse now, rfl⟩
    rcases hclone with ⟨m', p, hclone, hlayout⟩
    exact ⟨m', p, hclone, hlayout, (RtpMemory.clone_stores hclone).left.getData⟩

theorem length_extensionValue {data : List UInt8} (hext : hasExtension data = true)
    (hheader : headerLen data ≤ data.length)
    : (extensionValue data).length = extensionByte data := by
  unfold headerLen at hheader
  rw [if_pos hext] at hheader
  unfold extensionValue
  rw [List.length_take, List.length_drop]
  omega

theorem parts_extension_eq {data : List UInt8} (layout : RtpLayout) (hext : hasExtension data = true)
    : (parts data layout).extension.drop 4 = extensionValue data := by
  unfold parts extensionValue
  simp only [if_pos hext]
  rw [List.drop_take, List.drop_drop, Nat.add_sub_cancel_left]

theorem bytes_parts {data : List UInt8} {layout : RtpLayout}
    (hlayout : layout = ⟨headerLen data, data.length - headerLen data - paddingLen data, paddingLen data⟩)
    (hfits : headerLen data + paddingLen data ≤ data.length)
    : (parts data layout).bytes = data := by
  subst hlayout
  have hcsrcs : extensionPos data = sizeofRtpCommonHeader + 4 * csrcCount data := rfl
  have hextension : headerLen data = extensionPos data + if hasExtension data then 4 + extensionByte data else 0 := rfl
  unfold Parts.bytes parts csrcs
  simp only
  rw [← List.take_add, ← hcsrcs, ← List.take_add, ← hextension, ← List.take_add, ← List.take_add,
    List.take_of_length_le (by omega)]

theorem splitsExactly_of_parse {data : List UInt8} {layout : RtpLayout} (hmax : data.length ≤ rtpPacketMaxSize)
    (hparse : parse data = some layout)
    : SplitsExactly data layout := by
  rcases (parse_eq_some_iff hmax).mp hparse with ⟨⟨hpayload, hext⟩, hlayout⟩
  have hbytes := bytes_parts hlayout hpayload.le
  have hheader : extensionPos data + (if hasExtension data then 4 + extensionByte data else 0) ≤ data.length := by
    unfold headerLen at hpayload
    omega
  have hlength : (parts data layout).extension.length = if hasExtension data then 4 + extensionByte data else 0 := by
    unfold parts
    rw [List.length_take, List.length_drop]
    omega
  have hcsrcs : extensionPos data = 12 + 4 * csrcCount data := rfl
  have hheaderLen : headerLen data ≤ data.length := by omega
  refine ⟨hbytes, ?_, ?_, hlength, ?_, ?_, ?_, ?_⟩
  . unfold parts sizeofRtpCommonHeader
    rw [List.length_take]
    omega
  . unfold parts csrcs sizeofRtpCommonHeader
    rw [List.length_take, List.length_drop]
    omega
  . subst hlayout
    unfold parts
    rw [List.length_take, List.length_drop]
    simp only
    omega
  . subst hlayout
    simp only
    omega
  . subst hlayout
    unfold parts
    rw [List.length_take, List.length_drop]
    simp only
    omega
  . rw [← isSome_extElements, Option.isSome_iff_exists] at hext
    rcases hext with ⟨es, hes⟩
    refine ⟨es, hes, fun profile hprofile e he => ?_⟩
    have hextension := hasExtension_of_extProfile hprofile
    rw [extElements_eq_walk hprofile] at hes
    rcases Tlv.Format.inside_of_mem_walk hes he with ⟨hinside, hvalue⟩
    have hdrop := parts_extension_eq layout hextension
    rw [length_extensionValue hextension hheaderLen] at hinside
    rw [← hdrop, List.drop_drop, ← Nat.add_assoc] at hvalue
    rw [hlength, if_pos hextension]
    exact ⟨by omega, hvalue⟩

/--
A buffer is either refused, or split exactly into parts that a clone has as well.
-/
def SplitsAndClones (data : List UInt8) : Prop :=
  parse data = none ∨ ∃ layout, parse data = some layout ∧ SplitsExactly data layout ∧ ClonesWell data layout

theorem splitsAndClones_of_wellFormed {data : List UInt8} (hmax : data.length ≤ rtpPacketMaxSize)
    (hformed : WellFormed data)
    : SplitsAndClones data ↔ data.length < rtpPacketMaxSize := by
  have hparse := (parse_eq_some_iff hmax).mpr ⟨hformed, rfl⟩
  have hsplits := splitsExactly_of_parse hmax hparse
  have hclones := clonesWell_iff hparse
  unfold SplitsAndClones
  simp [hparse, hsplits, hclones]

/--
A packet that takes up a whole buffer is accepted and cannot be cloned, all others are fine.
-/
theorem splitsAndClones_iff (data : List UInt8)
    : SplitsAndClones data ↔ (data.length = rtpPacketMaxSize → ¬WellFormed data) := by
  by_cases hmax : data.length ≤ rtpPacketMaxSize
  . by_cases hformed : WellFormed data
    . rw [splitsAndClones_of_wellFormed hmax hformed, Nat.lt_iff_le_and_ne]
      simp [hformed, hmax]
    . apply iff_of_true
      . left
        rw [Option.eq_none_iff_forall_ne_some]
        intro layout hparse
        exact hformed ((parse_eq_some_iff hmax).mp hparse).left
      . exact fun _ => hformed
  . apply iff_of_true
    . left
      unfold parse
      exact if_pos (Nat.lt_of_not_le hmax)
    . intro hlength
      omega

/--
A packet of 1500 bytes, 1488 of them are payload.
-/
def fullPacket : List UInt8 := 0x80 :: 96 :: List.replicate 1498 0

theorem length_fullPacket : fullPacket.length = 1500 := by
  unfold fullPacket
  rw [List.length_cons, List.length_cons, List.length_replicate]

theorem not_splitsAndClones_fullPacket : ¬SplitsAndClones fullPacket := by
  have hfirst : fullPacket.getD 0 0 = 0x80 := rfl
  have hextension : hasExtension fullPacket = false := by
    unfold hasExtension
    rw [hfirst]
    decide
  have hformed : WellFormed fullPacket := by
    constructor
    . unfold headerLen paddingLen extensionPos csrcCount hasPadding
      rw [hextension, hfirst, length_fullPacket]
      decide
    . unfold parseExt
      rw [hextension]
      rfl
  rw [splitsAndClones_of_wellFormed (Nat.le_of_eq length_fullPacket) hformed, length_fullPacket]
  decide

end RtpLayout
