import CppStreamer.Net.RtpRtcp.RtpExtension

/-!
This module contains an element of a header extension in its place in the packet, and the packet with a new value in
this place: what is found in it, and when that is the same as before apart from the value.
-/

open ByteStream

theorem setBytes_front (front back bytes : List UInt8)
    : setBytes (front ++ back) front.length bytes = front ++ (bytes ++ back.drop bytes.length) := by
  unfold setBytes List.rightpad
  rw [List.take_left, Nat.sub_self, List.replicate_zero, List.append_nil, List.append_assoc,
    List.drop_length_add_append]

namespace RtpLayout

section Front

variable {front back back' : List UInt8} (hfront : front.length = extensionPos (front ++ back) + 4)

include hfront

theorem getD_front : (front ++ back').getD 0 0 = (front ++ back).getD 0 0 := by
  cases front with
  | nil => cases hfront
  | cons first front => rfl

theorem csrcCount_front : csrcCount (front ++ back') = csrcCount (front ++ back) := by
  unfold csrcCount
  rw [getD_front hfront]

theorem hasExtension_front : hasExtension (front ++ back') = hasExtension (front ++ back) := by
  unfold hasExtension
  rw [getD_front hfront]

theorem hasPadding_front : hasPadding (front ++ back') = hasPadding (front ++ back) := by
  unfold hasPadding
  rw [getD_front hfront]

theorem extensionPos_front : extensionPos (front ++ back') = extensionPos (front ++ back) := by
  unfold extensionPos
  rw [csrcCount_front hfront]

theorem read2Bytes_front {pos : Nat} (hpos : pos + 2 ≤ front.length)
    : read2Bytes ((front ++ back').drop pos) = read2Bytes ((front ++ back).drop pos) := by
  have hlen : 2 ≤ (front.drop pos).length := by
    rw [List.length_drop]
    omega
  rw [List.drop_append_of_le_length (by omega), List.drop_append_of_le_length (by omega),
    read2Bytes_append _ _ hlen, read2Bytes_append _ _ hlen]

theorem extensionByte_front : extensionByte (front ++ back') = extensionByte (front ++ back) := by
  unfold extensionByte
  rw [extensionPos_front hfront, read2Bytes_front hfront (by omega)]

theorem extProfile_front : extProfile (front ++ back') = extProfile (front ++ back) := by
  unfold extProfile
  rw [hasExtension_front hfront, extensionPos_front hfront, read2Bytes_front hfront (by omega)]

theorem headerLen_front : headerLen (front ++ back') = headerLen (front ++ back) := by
  unfold headerLen
  rw [hasExtension_front hfront, extensionPos_front hfront, extensionByte_front hfront]

theorem extensionValue_front : extensionValue (front ++ back') = back'.take (extensionByte (front ++ back)) := by
  unfold extensionValue
  rw [extensionByte_front hfront, extensionPos_front hfront, ← hfront, List.drop_left]

end Front

namespace ExtProfile

theorem head_congr {profile : ExtProfile} {l l' : List UInt8} {id : UInt8} {len : Nat}
    (htake : l'.take profile.format.headerLen = l.take profile.format.headerLen)
    (h : profile.format.head l = .element id len)
    : profile.format.head l' = .element id len := by
  cases profile with
  | onebyte => exact onebyteHead_congr htake h
  | twobytes => exact twobytesHead_congr htake h

theorem walk_zeros (profile : ExtProfile) (size n : Nat) (l : List UInt8)
    : profile.format.walk size (List.replicate n 0 ++ l) = profile.format.walk size l := by
  have hzero : ∀ b ∈ List.replicate n (0 : UInt8), decide (b = 0) = true := by
    intro b hb
    rw [List.eq_of_mem_replicate hb]
    rfl
  cases profile with
  | onebyte => exact onebyteFormat.walk_append size (onebyteFormat_zero size) hzero l
  | twobytes => exact twobytesFormat.walk_append size (twobytesFormat_zero size) hzero l

end ExtProfile

/--
An element in its packet, between what is in front of it and behind it in the extension.
-/
structure Placed (data : List UInt8) (profile : ExtProfile) (e : ExtElement) where
  front : List UInt8
  skipped : List UInt8
  header : List UInt8
  tail : List UInt8
  back : List UInt8
  data_eq : data = front ++ (skipped ++ (header ++ (e.value ++ tail)) ++ back)
  length_front : front.length = extensionPos data + 4
  length_extension : (skipped ++ (header ++ (e.value ++ tail))).length = extensionByte data
  length_skipped : skipped.length = e.pos
  length_header : header.length = profile.format.headerLen
  profile_eq : extProfile data = some profile
  head_eq : profile.format.head (header ++ (e.value ++ tail)) = .element e.id e.value.length

theorem exists_placed {data : List UInt8} {profile : ExtProfile} {before after : List ExtElement} {e : ExtElement}
    (hprofile : extProfile data = some profile) (hheader : headerLen data ≤ data.length)
    (hes : extElements data = some (before ++ e :: after))
    : ∃ p : Placed data profile e,
        profile.format.Reaches (extensionByte data) (p.skipped ++ (p.header ++ (e.value ++ p.tail))) before
          (p.header ++ (e.value ++ p.tail))
        ∧ profile.format.walk (extensionByte data) p.tail = some after := by
  have hextension := hasExtension_of_extProfile hprofile
  have hlength := length_extensionValue hextension hheader
  rw [extElements_eq_walk hprofile, hlength] at hes
  rcases Tlv.Format.exists_reaches hes with ⟨l', hreaches, hhead, hfits, hpos, hvalue, hafter⟩
  rcases hreaches.suffix with ⟨skipped, hskipped⟩
  have hl' : l'.take profile.format.headerLen
      ++ (e.value ++ l'.drop (profile.format.headerLen + e.value.length)) = l' := by
    nth_rewrite 1 [hvalue]
    rw [← List.drop_drop, List.take_append_drop, List.take_append_drop]
  have hend : headerLen data = extensionPos data + 4 + extensionByte data := by
    unfold headerLen
    rw [if_pos hextension, Nat.add_assoc]
  have hdata : data = data.take (extensionPos data + 4) ++ (extensionValue data ++ data.drop (headerLen data)) := by
    have hback : data.drop (headerLen data) = (data.drop (extensionPos data + 4)).drop (extensionByte data) := by
      rw [List.drop_drop, hend]
    unfold extensionValue
    rw [hback, List.take_append_drop, List.take_append_drop]
  rw [← hskipped] at hdata hlength
  have hpos : skipped.length = e.pos := by
    rw [List.length_append] at hlength
    omega
  refine ⟨{
    front := data.take (extensionPos data + 4)
    skipped := skipped
    header := l'.take profile.format.headerLen
    tail := l'.drop (profile.format.headerLen + e.value.length)
    back := data.drop (headerLen data)
    data_eq := by rw [hl']; exact hdata
    length_front := by rw [List.length_take]; omega
    length_extension := by rw [hl']; exact hlength
    length_skipped := hpos
    length_header := by rw [List.length_take]; omega
    profile_eq := hprofile
    head_eq := by rw [hl']; exact hhead }, ?_, hafter⟩
  show profile.format.Reaches (extensionByte data)
    (skipped ++ (l'.take profile.format.headerLen
      ++ (e.value ++ l'.drop (profile.format.headerLen + e.value.length)))) before
    (l'.take profile.format.headerLen ++ (e.value ++ l'.drop (profile.format.headerLen + e.value.length)))
  rw [hl', hskipped]
  exact hreaches

/--
The header of an element with a new length.
-/
def ExtProfile.header (profile : ExtProfile) (header : List UInt8) (len : Nat) : List UInt8 :=
  match profile with
  | .onebyte => [(header.getD 0 0 &&& 0xf0) ||| (UInt8.ofNat (len - 1) &&& 0x0f)]
  | .twobytes => [header.getD 0 0, UInt8.ofNat len]

namespace Placed

variable {data : List UInt8} {profile : ExtProfile} {e : ExtElement} (p : Placed data profile e)

/--
What is behind a new value: what is left of the old one is cleared, or some of what is behind it is written over.
-/
def behind (n : Nat) : List UInt8 :=
  if n ≤ e.value.length then List.replicate (e.value.length - n) 0 ++ (p.tail ++ p.back)
  else (p.tail ++ p.back).drop (n - e.value.length)

/--
The packet with a new value.
-/
def updated (value : List UInt8) : List UInt8 :=
  p.front ++ (p.skipped ++ (profile.header p.header value.length ++ (value ++ p.behind value.length)))

/--
A value of `n` bytes has room: it is no longer than the one before, or it is written over padding in the extension.
It is as well if no element follows, before the update and after it.
-/
def HasRoom (n : Nat) : Prop :=
  n ≤ e.value.length
    ∨ n - e.value.length ≤ p.tail.length
      ∧ (n - e.value.length ≤ profile.format.pads p.tail
        ∨ profile.format.Ends p.tail ∧ profile.format.Ends (p.tail.drop (n - e.value.length)))

theorem header_bits : ∀ (first : UInt8) (n : Fin 16),
    ((first &&& 0xf0) ||| (UInt8.ofNat n.val &&& 0x0f)) >>> 4 = first >>> 4
      ∧ (((first &&& 0xf0) ||| (UInt8.ofNat n.val &&& 0x0f)) &&& 0x0f).toNat = n.val := by
  apply forall_of_bitVec
  decide +kernel

theorem head_updated {n : Nat} (hpos : 1 ≤ n) (hmax : n ≤ 16) (rest : List UInt8)
    : profile.format.head (profile.header p.header n ++ rest) = .element e.id n := by
  have hhead := p.head_eq
  have hlength := p.length_header
  generalize p.header = header at *
  cases profile with
  | onebyte =>
    rcases List.length_eq_one_iff.mp hlength with ⟨first, rfl⟩
    rcases header_bits first ⟨n - 1, by omega⟩ with ⟨hid, hlen⟩
    change onebyteHead (first :: (e.value ++ p.tail)) = _ at hhead
    change onebyteHead (((first &&& 0xf0) ||| (UInt8.ofNat (n - 1) &&& 0x0f)) :: rest) = _
    rw [onebyteHead] at hhead ⊢
    simp only at hid hlen
    rw [hid, hlen, Nat.sub_add_cancel hpos]
    by_cases hstop : first >>> 4 = 0x0f
    . rw [if_pos hstop] at hhead
      cases hhead
    . by_cases helement : first >>> 4 ≠ 0
      . rw [if_neg hstop, if_pos helement, Tlv.Head.element.injEq] at hhead
        rw [if_neg hstop, if_pos helement, hhead.left]
      . rw [if_neg hstop, if_neg helement] at hhead
        cases hhead
  | twobytes =>
    rcases List.length_eq_two.mp hlength with ⟨id, len, rfl⟩
    have hlen : (UInt8.ofNat n).toNat = n := by
      rw [UInt8.toNat_ofNat']
      omega
    change twobytesHead (id :: len :: (e.value ++ p.tail)) = _ at hhead
    change twobytesHead (id :: UInt8.ofNat n :: rest) = _
    rw [twobytesHead] at hhead ⊢
    rw [hlen]
    by_cases helement : id ≠ 0
    . rw [if_pos helement, Tlv.Head.element.injEq] at hhead
      rw [if_pos helement, hhead.left]
    . rw [if_neg helement] at hhead
      cases hhead

theorem length_header_updated (n : Nat) : (profile.header p.header n).length = profile.format.headerLen := by
  cases profile
  all_goals rfl

theorem length_updated_le (value : List UInt8) : data.length ≤ (p.updated value).length := by
  have hlength := congrArg List.length p.data_eq
  have hheader := p.length_header
  have hupdated := p.length_header_updated value.length
  unfold updated behind
  split
  all_goals
    simp only [List.length_append, List.length_replicate, List.length_drop] at *
    omega

/--
The extension of the updated packet, from the element on.
-/
def restUpdated (value : List UInt8) : List UInt8 :=
  (profile.header p.header value.length ++ (value ++ p.behind value.length)).take
    (profile.format.headerLen + e.value.length + p.tail.length)

theorem extensionPos_front_eq
    : p.front.length
      = extensionPos (p.front ++ (p.skipped ++ (p.header ++ (e.value ++ p.tail)) ++ p.back)) + 4 := by
  rw [← p.data_eq]
  exact p.length_front

theorem take_updated (value : List UInt8)
    : (p.updated value).take data.length
      = p.front ++ (p.skipped ++ (profile.header p.header value.length ++ (value ++ p.behind value.length))).take
          (data.length - p.front.length) := by
  have hlength := congrArg List.length p.data_eq
  rw [List.length_append] at hlength
  unfold updated
  rw [List.take_append, List.take_of_length_le (by omega)]

theorem length_restUpdated (value : List UInt8)
    : (p.restUpdated value).length = profile.format.headerLen + e.value.length + p.tail.length := by
  have hlength := congrArg List.length p.data_eq
  have hle := p.length_updated_le value
  have hheader := p.length_header
  unfold restUpdated
  simp only [updated, List.length_append, List.length_take] at *
  omega

theorem extensionValue_updated (value : List UInt8)
    : extensionValue ((p.updated value).take data.length) = p.skipped ++ p.restUpdated value := by
  have hlength := congrArg List.length p.data_eq
  have hextension := p.length_extension
  have hheader := p.length_header
  simp only [List.length_append] at hlength hextension
  have hmin : min (extensionByte data) (data.length - p.front.length)
      = p.skipped.length + (profile.format.headerLen + e.value.length + p.tail.length) := by
    omega
  unfold restUpdated
  rw [take_updated, extensionValue_front p.extensionPos_front_eq, ← p.data_eq, List.take_take, hmin, List.take_append,
    List.take_of_length_le (by omega), Nat.add_sub_cancel_left]

theorem extProfile_updated (value : List UInt8) : extProfile ((p.updated value).take data.length) = some profile := by
  rw [take_updated, extProfile_front p.extensionPos_front_eq, ← p.data_eq, p.profile_eq]

theorem head_restUpdated {value : List UInt8} (hpos : 1 ≤ value.length) (hmax : value.length ≤ 16)
    : profile.format.head (p.restUpdated value) = .element e.id value.length := by
  apply ExtProfile.head_congr _ (p.head_updated hpos hmax (value ++ p.behind value.length))
  unfold restUpdated
  rw [List.take_take, Nat.min_eq_left (by omega)]

/--
What is left of the extension behind a new value.
-/
def tailUpdated (n : Nat) : List UInt8 :=
  if n ≤ e.value.length then List.replicate (e.value.length - n) 0 ++ p.tail else p.tail.drop (n - e.value.length)

theorem drop_restUpdated {value : List UInt8} (hfits : value.length ≤ e.value.length + p.tail.length)
    : (p.restUpdated value).drop profile.format.headerLen = value ++ p.tailUpdated value.length := by
  have hheader' := p.length_header_updated value.length
  have hleft : profile.format.headerLen + e.value.length + p.tail.length - profile.format.headerLen
      = value.length + (e.value.length + p.tail.length - value.length) := by
    omega
  unfold restUpdated
  rw [List.drop_take, List.drop_left' hheader', hleft, List.take_length_add_append]
  congr 1
  unfold behind tailUpdated
  split
  . next hshort =>
    rw [← List.append_assoc]
    apply List.take_left'
    rw [List.length_append, List.length_replicate]
    omega
  . next hlong =>
    rw [List.drop_append_of_le_length (by omega)]
    apply List.take_left'
    rw [List.length_drop]
    omega

theorem walk_tailUpdated_iff {after : List ExtElement}
    (hafter : profile.format.walk (extensionByte data) p.tail = some after) {n : Nat}
    (hfits : n ≤ e.value.length + p.tail.length)
    : profile.format.walk (extensionByte data) (p.tailUpdated n) = some after ↔ p.HasRoom n := by
  have hextension := p.length_extension
  simp only [List.length_append] at hextension
  unfold tailUpdated HasRoom
  split
  . next hshort =>
    rw [ExtProfile.walk_zeros, hafter]
    exact iff_of_true rfl (.inl hshort)
  . next hlong =>
    have hgrow : n - e.value.length ≤ p.tail.length := by omega
    rw [Tlv.Format.walk_drop_eq_iff hafter (by omega) hgrow]
    simp [hlong, hgrow]

/--
The elements of the updated packet are the ones from before with the new value, if there is room for it.
-/
theorem extElements_updated_iff {before after : List ExtElement}
    (hreaches : profile.format.Reaches (extensionByte data) (p.skipped ++ (p.header ++ (e.value ++ p.tail))) before
      (p.header ++ (e.value ++ p.tail)))
    (hafter : profile.format.walk (extensionByte data) p.tail = some after)
    {value : List UInt8} (hpos : 1 ≤ value.length) (hmax : value.length ≤ 16)
    : extElements ((p.updated value).take data.length) = some (before ++ { e with value := value } :: after)
      ↔ p.HasRoom value.length := by
  have hextension := p.length_extension
  have hheader := p.length_header
  have hlength := p.length_restUpdated value
  have hhead := p.head_restUpdated hpos hmax
  simp only [List.length_append] at hextension
  have hsize : (p.skipped ++ p.restUpdated value).length = extensionByte data := by
    rw [List.length_append]
    omega
  have hcongr : profile.format.Reaches (extensionByte data) (p.skipped ++ p.restUpdated value) before
      (p.restUpdated value) := by
    apply hreaches.congr rfl
    rw [hlength, List.length_append, List.length_append]
    omega
  rw [extElements_eq_walk (p.extProfile_updated value), extensionValue_updated, hsize, hcongr.walk]
  by_cases hfits : value.length ≤ e.value.length + p.tail.length
  . have hrest := p.drop_restUpdated hfits
    have hpos : extensionByte data - (p.restUpdated value).length = e.pos := by
      rw [← p.length_skipped]
      omega
    rw [Tlv.Format.walk_element _ _ hhead (by omega), ← List.drop_drop, hrest, List.take_left, List.drop_left, hpos,
      ← p.walk_tailUpdated_iff hafter hfits]
    simp
  . rw [Tlv.Format.walk_element_of_lt _ _ hhead (by omega)]
    unfold HasRoom
    simp
    omega

/--
What is in front of the element, and its position in the packet.
-/
def prefixBytes : List UInt8 := p.front ++ p.skipped

theorem length_prefixBytes : p.prefixBytes.length = extensionPos data + 4 + e.pos := by
  unfold prefixBytes
  rw [List.length_append, p.length_front, p.length_skipped]

theorem data_eq_prefix : data = p.prefixBytes ++ (p.header ++ (e.value ++ (p.tail ++ p.back))) := by
  have hdata := p.data_eq
  unfold prefixBytes
  simp only [List.append_assoc] at hdata ⊢
  exact hdata

/--
The length that the header at a position has.
-/
def lenIn (profile : ExtProfile) (data : List UInt8) (pos : Nat) : Nat :=
  match profile with
  | .onebyte => (data.getD pos 0 &&& 0x0f).toNat + 1
  | .twobytes => (data.getD (pos + 1) 0).toNat

theorem lenIn_eq (rest : List UInt8)
    : lenIn profile (p.prefixBytes ++ (p.header ++ rest)) (extensionPos data + 4 + e.pos) = e.value.length := by
  have hhead := p.head_eq
  have hlength := p.length_header
  rw [← p.length_prefixBytes]
  generalize p.header = header at *
  cases profile with
  | onebyte =>
    rcases List.length_eq_one_iff.mp hlength with ⟨first, rfl⟩
    change onebyteHead (first :: (e.value ++ p.tail)) = _ at hhead
    rw [onebyteHead] at hhead
    have hfirst : (p.prefixBytes ++ ([first] ++ rest)).getD p.prefixBytes.length 0 = first := by
      simp
    unfold lenIn
    simp only [hfirst]
    by_cases hstop : first >>> 4 = 0x0f
    . rw [if_pos hstop] at hhead
      cases hhead
    . by_cases helement : first >>> 4 ≠ 0
      . rw [if_neg hstop, if_pos helement, Tlv.Head.element.injEq] at hhead
        exact hhead.right
      . rw [if_neg hstop, if_neg helement] at hhead
        cases hhead
  | twobytes =>
    rcases List.length_eq_two.mp hlength with ⟨id, len, rfl⟩
    change twobytesHead (id :: len :: (e.value ++ p.tail)) = _ at hhead
    rw [twobytesHead] at hhead
    have hsecond : (p.prefixBytes ++ ([id, len] ++ rest)).getD (p.prefixBytes.length + 1) 0 = len := by
      simp
    unfold lenIn
    simp only [hsecond]
    by_cases helement : id ≠ 0
    . rw [if_pos helement, Tlv.Head.element.injEq] at hhead
      exact hhead.right
    . rw [if_neg helement] at hhead
      cases hhead

theorem drop_value (rest value : List UInt8)
    : (p.prefixBytes ++ (p.header ++ (value ++ rest))).drop (extensionPos data + 4 + e.pos + profile.format.headerLen)
      = value ++ rest := by
  rw [← p.length_prefixBytes, ← p.length_header, ← List.drop_drop, List.drop_left, List.drop_left]

section HasRoom

variable {p}

theorem HasRoom.le {n : Nat} (h : p.HasRoom n) : n ≤ e.value.length + p.tail.length := by
  rcases h with hshort | ⟨hgrow, _⟩
  . omega
  . omega

/--
The part of the packet behind the extension stays where it is.
-/
theorem HasRoom.updated_eq {value : List UInt8} (h : p.HasRoom value.length)
    : p.updated value
        = p.front ++ (p.skipped ++ (profile.header p.header value.length ++ (value ++ p.tailUpdated value.length)))
          ++ p.back := by
  have hle := h.le
  have hbehind : p.behind value.length = p.tailUpdated value.length ++ p.back := by
    unfold behind tailUpdated
    split
    . rw [List.append_assoc]
    . rw [List.drop_append_of_le_length (by omega)]
  unfold updated
  rw [hbehind]
  simp only [List.append_assoc]

theorem HasRoom.length_extension {value : List UInt8} (h : p.HasRoom value.length)
    : (p.skipped ++ (profile.header p.header value.length ++ (value ++ p.tailUpdated value.length))).length
      = extensionByte data := by
  have hle := h.le
  have hheader := p.length_header
  have hheader' := p.length_header_updated value.length
  rw [← p.length_extension]
  unfold tailUpdated
  split
  all_goals
    simp only [List.length_append, List.length_replicate, List.length_drop, hheader, hheader']
    omega

theorem headerLen_eq : headerLen data = p.front.length + extensionByte data := by
  unfold headerLen
  rw [if_pos (hasExtension_of_extProfile p.profile_eq), p.length_front, Nat.add_assoc]

theorem drop_headerLen : data.drop (headerLen data) = p.back := by
  have hlen : headerLen data = (p.front ++ (p.skipped ++ (p.header ++ (e.value ++ p.tail)))).length := by
    rw [p.headerLen_eq, List.length_append, p.length_extension]
  have hdrop := congrArg (List.drop (headerLen data)) p.data_eq
  nth_rewrite 2 [hlen] at hdrop
  rw [hdrop, ← List.append_assoc p.front (p.skipped ++ (p.header ++ (e.value ++ p.tail))) p.back, List.drop_left]

theorem HasRoom.drop_headerLen {value : List UInt8} (h : p.HasRoom value.length)
    : (p.updated value).drop (headerLen data) = p.back := by
  rw [h.updated_eq, p.headerLen_eq, ← h.length_extension, ← List.length_append, List.drop_left]

theorem HasRoom.length_updated {value : List UInt8} (h : p.HasRoom value.length)
    : (p.updated value).length = data.length := by
  have hlength := congrArg List.length p.data_eq
  rw [h.updated_eq]
  simp only [List.length_append] at hlength ⊢
  have hextension := h.length_extension
  have hextension' := p.length_extension
  simp only [List.length_append] at hextension hextension'
  omega

theorem front_updated (value : List UInt8)
    : p.updated value = p.front ++ (p.skipped ++ (profile.header p.header value.length
        ++ (value ++ p.behind value.length))) := rfl

theorem headerLen_updated (value : List UInt8) : headerLen (p.updated value) = headerLen data := by
  rw [front_updated, headerLen_front p.extensionPos_front_eq, ← p.data_eq]

theorem extensionPos_updated (value : List UInt8) : extensionPos (p.updated value) = extensionPos data := by
  rw [front_updated, extensionPos_front p.extensionPos_front_eq, ← p.data_eq]

theorem HasRoom.paddingLen_updated {value : List UInt8} (h : p.HasRoom value.length) (hback : p.back ≠ [])
    : paddingLen (p.updated value) = paddingLen data := by
  have hlast (l : List UInt8) : (l ++ p.back).getLastD 0 = p.back.getLastD 0 := by
    rw [List.getLastD_eq_getLast?, List.getLastD_eq_getLast?, List.getLast?_append_of_ne_nil _ hback]
  have hdata : data.getLastD 0 = p.back.getLastD 0 := by
    have hdata := congrArg (fun l => List.getLastD l (0 : UInt8)) p.data_eq
    simp only [← List.append_assoc, hlast] at hdata
    exact hdata
  have hpadding : hasPadding (p.updated value) = hasPadding data := by
    rw [front_updated, hasPadding_front p.extensionPos_front_eq, ← p.data_eq]
  unfold paddingLen
  rw [hpadding, hdata, h.updated_eq, hlast]

theorem HasRoom.parse_updated {value : List UInt8} (h : p.HasRoom value.length) (hback : p.back ≠ [])
    (hext : parseExt (p.updated value) = parseExt data)
    : RtpLayout.parse (p.updated value) = RtpLayout.parse data := by
  have hextension : hasExtension (p.updated value) = hasExtension data := by
    rw [front_updated, hasExtension_front p.extensionPos_front_eq, ← p.data_eq]
  unfold RtpLayout.parse
  simp only [headerEnd_eq, parsePadding_eq, h.length_updated, hext, hextension, p.headerLen_updated,
    h.paddingLen_updated hback]

end HasRoom

end Placed

end RtpLayout
