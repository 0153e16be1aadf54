import CppStreamer.Net.RtpRtcp.ExtensionElement
import CppStreamer.Utils.StringEx

/-!
This module contains the updates of header extensions in a packet: `UpdateMid` and `UpdateAbsTime`, what they change,
and when a new value fits in.
-/

open ByteStream StringEx

/--
A packet in its buffer. The elements that `ParseExt` has recorded are offsets from the beginning of the packet.
-/
structure ExtPacket where
  data : List UInt8
  dataLen : Nat
  layout : RtpLayout
  extMap : UInt8 → Option Nat
  midExtensionId : UInt8
  absTimeExtensionId : UInt8

namespace ExtPacket

/--
Of several elements with one identifier the last one is recorded.
-/
def recorded (data : List UInt8) (es : List ExtElement) (id : UInt8) : Option Nat :=
  (es.reverse.find? fun e => e.id = id).map fun e => RtpLayout.extensionPos data + 4 + e.pos

/--
`RtpPacket::Parse`, and the identifiers that are set afterwards.
-/
def parse (data : List UInt8) (midId absTimeId : UInt8) : Option ExtPacket := do
  let layout ← RtpLayout.parse data
  let es ← RtpLayout.extElements data
  pure {
    data := data
    dataLen := data.length
    layout := layout
    extMap := recorded data es
    midExtensionId := midId
    absTimeExtensionId := absTimeId }

def bytes (p : ExtPacket) : List UInt8 := p.data.take p.dataLen

/--
Where the value of an element is, and its length.
-/
def getExtension (p : ExtPacket) (id : UInt8) : Option (Nat × Nat) :=
  match RtpLayout.extProfile p.data with
  | some .onebyte => (p.extMap id).map fun pos => (pos + 1, (p.data.getD pos 0 &&& 0x0f).toNat + 1)
  | some .twobytes =>
    match p.extMap id with
    | none => none
    | some pos =>
      let len := (p.data.getD (pos + 1) 0).toNat
      if len = 0 then none else some (pos + 2, len)
  | none => none

/--
The `memset` of what is left of a longer value.
-/
def clearRest (data : List UInt8) (pos currentLen len : Nat) : List UInt8 :=
  if len < currentLen then setBytes data (pos + len) (List.replicate (currentLen - len) 0) else data

def updateExtensionLength (p : ExtPacket) (id : UInt8) (len : Nat) : ExtPacket × Bool :=
  if len = 0 then (p, false)
  else
    match RtpLayout.extProfile p.data with
    | some .onebyte =>
      match p.extMap id with
      | none => (p, false)
      | some pos =>
        let data := clearRest p.data (pos + 1) ((p.data.getD pos 0 &&& 0x0f).toNat + 1) len
        let first := (data.getD pos 0 &&& 0xf0) ||| (UInt8.ofNat (len - 1) &&& 0x0f)
        ({ p with data := setBytes data pos [first] }, true)
    | some .twobytes =>
      match p.extMap id with
      | none => (p, false)
      | some pos =>
        let data := clearRest p.data (pos + 2) (p.data.getD (pos + 1) 0).toNat len
        ({ p with data := setBytes data (pos + 1) [UInt8.ofNat len] }, true)
    | none => (p, false)

/--
What `UpdateMid` and `UpdateAbsTime` have in common.
-/
def updateExtension (p : ExtPacket) (id : UInt8) (value : List UInt8) : ExtPacket × Bool :=
  match p.getExtension id with
  | none => (p, false)
  | some (pos, _) => { p with data := setBytes p.data pos value }.updateExtensionLength id value.length

/--
The digits of `std::to_string`.
-/
def midStr (mid : UInt8) : List UInt8 := (Nat.toDigits 10 mid.toNat).map fun c => UInt8.ofNat c.toNat

def updateMid (p : ExtPacket) (mid : UInt8) : ExtPacket × Bool := p.updateExtension p.midExtensionId (midStr mid)

def readMid (p : ExtPacket) : Option UInt8 :=
  (p.getExtension p.midExtensionId).map fun (pos, len) => UInt8.ofInt (atoi ((p.data.drop pos).take len))

def updateAbsTime (p : ExtPacket) (absTime24bits : UInt32) : ExtPacket × Bool :=
  p.updateExtension p.absTimeExtensionId (write3Bytes absTime24bits.toNat)

def readAbsTime (p : ExtPacket) : Option UInt32 :=
  (p.getExtension p.absTimeExtensionId).map fun (pos, _) => UInt32.ofNat (read3Bytes (p.data.drop pos))

end ExtPacket

namespace RtpLayout.Placed

open ExtPacket

variable {data : List UInt8} {profile : ExtProfile} {e : ExtElement} (p : Placed data profile e)

theorem setBytes_value (value : List UInt8)
    : setBytes data (extensionPos data + 4 + e.pos + profile.format.headerLen) value
      = p.prefixBytes ++ (p.header ++ (value ++ (e.value ++ (p.tail ++ p.back)).drop value.length)) := by
  have hpos : extensionPos data + 4 + e.pos + profile.format.headerLen = (p.prefixBytes ++ p.header).length := by
    rw [List.length_append, p.length_prefixBytes, p.length_header]
  rw [hpos]
  nth_rewrite 1 [p.data_eq_prefix]
  rw [← List.append_assoc, setBytes_front, List.append_assoc]

theorem clearRest_eq (value : List UInt8)
    : clearRest (p.prefixBytes ++ (p.header ++ (value ++ (e.value ++ (p.tail ++ p.back)).drop value.length)))
        (extensionPos data + 4 + e.pos + profile.format.headerLen) e.value.length value.length
      = p.prefixBytes ++ (p.header ++ (value ++ p.behind value.length)) := by
  unfold clearRest behind
  split
  . next hshort =>
    have hpos : extensionPos data + 4 + e.pos + profile.format.headerLen + value.length
        = (p.prefixBytes ++ (p.header ++ value)).length := by
      simp only [List.length_append, p.length_prefixBytes, p.length_header]
      omega
    have hcleared : (e.value.drop value.length).length
        = (List.replicate (e.value.length - value.length) (0 : UInt8)).length := by
      rw [List.length_drop, List.length_replicate]
    have hset := setBytes_append (p.prefixBytes ++ (p.header ++ value)) _ (p.tail ++ p.back) hcleared
    rw [← hpos] at hset
    rw [if_pos hshort.le, List.drop_append_of_le_length hshort.le]
    simpa only [List.append_assoc] using hset
  . next hlong =>
    by_cases heq : value.length = e.value.length
    . rw [if_pos (by omega), heq, Nat.sub_self, List.replicate_zero, List.nil_append, List.drop_left]
    . rw [if_neg (by omega), List.drop_append, List.drop_eq_nil_of_le (by omega), List.nil_append]

theorem setHeader_onebyte (p : Placed data .onebyte e) (n : Nat) (rest : List UInt8)
    : setBytes (p.prefixBytes ++ (p.header ++ rest)) (extensionPos data + 4 + e.pos)
        [((p.prefixBytes ++ (p.header ++ rest)).getD (extensionPos data + 4 + e.pos) 0 &&& 0xf0)
          ||| (UInt8.ofNat (n - 1) &&& 0x0f)]
      = p.prefixBytes ++ (ExtProfile.onebyte.header p.header n ++ rest) := by
  rcases List.length_eq_one_iff.mp p.length_header with ⟨first, hheader⟩
  rw [hheader, ← p.length_prefixBytes, setBytes_append _ _ _ (by rfl)]
  simp [ExtProfile.header]

theorem setHeader_twobytes (p : Placed data .twobytes e) (n : Nat) (rest : List UInt8)
    : setBytes (p.prefixBytes ++ (p.header ++ rest)) (extensionPos data + 4 + e.pos + 1) [UInt8.ofNat n]
      = p.prefixBytes ++ (ExtProfile.twobytes.header p.header n ++ rest) := by
  rcases List.length_eq_two.mp p.length_header with ⟨id, len, hheader⟩
  have hpos : extensionPos data + 4 + e.pos + 1 = (p.prefixBytes ++ [id]).length := by
    rw [List.length_append, p.length_prefixBytes]
    rfl
  have hlen : [len].length = [UInt8.ofNat n].length := rfl
  have hset := setBytes_append (p.prefixBytes ++ [id]) _ rest hlen
  rw [← hpos] at hset
  rw [hheader]
  simpa [ExtProfile.header] using hset

theorem updated_eq (value : List UInt8)
    : p.updated value
      = p.prefixBytes ++ (profile.header p.header value.length ++ (value ++ p.behind value.length)) := by
  unfold updated prefixBytes
  rw [List.append_assoc]

end RtpLayout.Placed

namespace ExtPacket

open RtpLayout

/--
The last of the elements with an identifier.
-/
def lastWith (es : List ExtElement) (id : UInt8) : Option ExtElement := es.reverse.find? fun e => e.id = id

theorem lastWith_eq_some_iff {es : List ExtElement} {id : UInt8} {e : ExtElement}
    : lastWith es id = some e
      ↔ ∃ before after, es = before ++ e :: after ∧ e.id = id ∧ ∀ x ∈ after, x.id ≠ id := by
  unfold lastWith
  rw [List.find?_eq_some_iff_append]
  constructor
  . rintro ⟨hid, as, bs, hes, has⟩
    refine ⟨bs.reverse, as.reverse, ?_, by simpa using hid, ?_⟩
    . rw [← List.reverse_reverse es, hes, List.reverse_append, List.reverse_cons, List.append_assoc]
      rfl
    . intro x hx
      simpa using has x (List.mem_reverse.mp hx)
  . rintro ⟨before, after, rfl, hid, hafter⟩
    refine ⟨by simpa using hid, after.reverse, before.reverse, by simp, ?_⟩
    intro x hx
    simpa using hafter x (List.mem_reverse.mp hx)

/--
A packet with the elements that are in it, and these are recorded.
-/
structure Holds (q : ExtPacket) (profile : ExtProfile) (es : List ExtElement) : Prop where
  profile_eq : extProfile q.data = some profile
  elements : extElements q.data = some es
  extMap : q.extMap = recorded q.data es
  headerLen_le : headerLen q.data ≤ q.data.length

namespace Holds

variable {q : ExtPacket} {profile : ExtProfile} {es : List ExtElement} (h : q.Holds profile es)

include h

theorem exists_placed {before after : List ExtElement} {e : ExtElement} (hes : es = before ++ e :: after)
    : ∃ p : Placed q.data profile e,
        profile.format.Reaches (extensionByte q.data) (p.skipped ++ (p.header ++ (e.value ++ p.tail))) before
          (p.header ++ (e.value ++ p.tail))
        ∧ profile.format.walk (extensionByte q.data) p.tail = some after := by
  apply RtpLayout.exists_placed h.profile_eq h.headerLen_le
  rw [h.elements, hes]

theorem lenIn_eq {e : ExtElement} (he : e ∈ es)
    : Placed.lenIn profile q.data (extensionPos q.data + 4 + e.pos) = e.value.length := by
  rcases List.append_of_mem he with ⟨before, after, hes⟩
  rcases h.exists_placed hes with ⟨p, _⟩
  have hlen := p.lenIn_eq (e.value ++ (p.tail ++ p.back))
  rwa [← p.data_eq_prefix] at hlen

theorem take_value {e : ExtElement} (he : e ∈ es)
    : (q.data.drop (extensionPos q.data + 4 + e.pos + profile.format.headerLen)).take e.value.length = e.value := by
  rcases List.append_of_mem he with ⟨before, after, hes⟩
  rcases h.exists_placed hes with ⟨p, _⟩
  have hdrop := p.drop_value (p.tail ++ p.back) e.value
  rw [← p.data_eq_prefix] at hdrop
  rw [hdrop, List.take_left]

/--
What `GetExtension` finds is the last element with the identifier, unless it has no value.
-/
theorem getExtension_eq (id : UInt8)
    : q.getExtension id = (lastWith es id).bind fun e =>
        if e.value.length = 0 then none
        else some (extensionPos q.data + 4 + e.pos + profile.format.headerLen, e.value.length) := by
  have hmap : q.extMap id = (lastWith es id).map fun e => extensionPos q.data + 4 + e.pos := by
    rw [h.extMap]
    rfl
  unfold getExtension
  cases hlast : lastWith es id with
  | none =>
    rw [hlast] at hmap
    simp only [h.profile_eq, hmap]
    cases profile
    all_goals rfl
  | some e =>
    rcases lastWith_eq_some_iff.mp hlast with ⟨before, after, hes, _⟩
    have hmem : e ∈ es := by simp [hes]
    have hlen := h.lenIn_eq hmem
    rw [hlast] at hmap
    simp only [h.profile_eq, hmap]
    cases profile with
    | onebyte =>
      change (q.data.getD _ 0 &&& 0x0f).toNat + 1 = _ at hlen
      have hpos : e.value.length ≠ 0 := by omega
      simp only [Option.map_some, Option.bind_some, hlen, if_neg hpos]
      rfl
    | twobytes =>
      change (q.data.getD (_ + 1) 0).toNat = _ at hlen
      simp only [Option.map_some, Option.bind_some, hlen]
      rfl

/--
An update of an element that is found succeeds.
-/
theorem updateExtension_eq {id : UInt8} {e : ExtElement} (hlast : lastWith es id = some e) (hne : e.value.length ≠ 0)
    (p : Placed q.data profile e) {value : List UInt8} (hvalue : value.length ≠ 0)
    : q.updateExtension id value = ({ q with data := p.updated value }, true) := by
  have hget := h.getExtension_eq id
  have hmap : q.extMap id = some (extensionPos q.data + 4 + e.pos) := by
    rw [h.extMap]
    change (lastWith es id).map _ = _
    rw [hlast]
    rfl
  have hprofile (rest : List UInt8) : extProfile (p.prefixBytes ++ rest) = some profile := by
    unfold Placed.prefixBytes
    rw [List.append_assoc, extProfile_front p.extensionPos_front_eq, ← p.data_eq, h.profile_eq]
  have hlen := p.lenIn_eq (value ++ (e.value ++ (p.tail ++ p.back)).drop value.length)
  have hclear := p.clearRest_eq value
  rw [hlast, Option.bind_some, if_neg hne] at hget
  unfold updateExtension updateExtensionLength
  simp only [hget, p.setBytes_value, hprofile, if_neg hvalue, hmap, p.updated_eq]
  cases profile with
  | onebyte =>
    simp only [Placed.lenIn] at hlen
    change clearRest _ (_ + 1) _ _ = _ at hclear
    simp only [hlen, hclear, p.setHeader_onebyte]
  | twobytes =>
    simp only [Placed.lenIn] at hlen
    change clearRest _ (_ + 2) _ _ = _ at hclear
    simp only [hlen, hclear, p.setHeader_twobytes]

end Holds

def extensionValue (q : ExtPacket) (id : UInt8) : Option (List UInt8) :=
  (q.getExtension id).map fun (pos, len) => (q.data.drop pos).take len

/--
The value of one element is replaced, and nothing else has changed. The packet is what `Parse` makes of its bytes.
-/
structure ChangesOnly (q q' : ExtPacket) (id : UInt8) (value : List UInt8) : Prop where
  header : q'.bytes.take (extensionPos q.data + 4) = q.bytes.take (extensionPos q.data + 4)
  payload : q'.bytes.drop (headerLen q.data) = q.bytes.drop (headerLen q.data)
  others : ∀ id' ≠ id, q'.extensionValue id' = q.extensionValue id'
  elements : ∃ before e after, extElements q.bytes = some (before ++ e :: after) ∧ e.id = id
    ∧ (∀ x ∈ after, x.id ≠ id) ∧ extElements q'.bytes = some (before ++ { e with value := value } :: after)
  reparse : parse q'.bytes q.midExtensionId q.absTimeExtensionId = some q'

/--
Whether a value of `n` bytes has room in place of the one there is: it is no longer than this one, or it is written
over padding in the extension. It is as well if no element follows, before the update and after it.
-/
def HasRoom (q : ExtPacket) (id : UInt8) (n : Nat) : Prop :=
  ∀ profile pos len, extProfile q.data = some profile → q.getExtension id = some (pos, len) →
    let tail := (q.data.take (headerLen q.data)).drop (pos + len)
    n ≤ len
      ∨ n - len ≤ tail.length
        ∧ (n - len ≤ profile.format.pads tail
          ∨ profile.format.Ends tail ∧ profile.format.Ends (tail.drop (n - len)))

theorem recorded_eq {data data' : List UInt8} {es es' : List ExtElement} (hpos : extensionPos data' = extensionPos data)
    (hes : es'.map (fun e => (e.id, e.pos)) = es.map fun e => (e.id, e.pos))
    : recorded data' es' = recorded data es := by
  funext id
  have hfind (es : List ExtElement) : (es.reverse.find? fun e => e.id = id).map (fun e => (e.id, e.pos))
      = (es.map fun e => (e.id, e.pos)).reverse.find? fun e => e.1 = id := by
    rw [← List.map_reverse, List.find?_map]
    rfl
  have hrecorded (data : List UInt8) (es : List ExtElement) : recorded data es id
      = ((es.map fun e => (e.id, e.pos)).reverse.find? fun e => e.1 = id).map
          fun e => extensionPos data + 4 + e.2 := by
    rw [← hfind, Option.map_map]
    rfl
  rw [hrecorded, hrecorded, hes, hpos]

theorem hasRoom_iff {q : ExtPacket} {profile : ExtProfile} {es : List ExtElement} (h : q.Holds profile es) {id : UInt8}
    {e : ExtElement} (hlast : lastWith es id = some e) (hne : e.value.length ≠ 0) (p : Placed q.data profile e)
    (n : Nat)
    : q.HasRoom id n ↔ p.HasRoom n := by
  have hget := h.getExtension_eq id
  rw [hlast, Option.bind_some, if_neg hne] at hget
  have hend : headerLen q.data = (p.front ++ (p.skipped ++ (p.header ++ (e.value ++ p.tail)))).length := by
    rw [p.headerLen_eq, List.length_append, p.length_extension]
  have htake : q.data.take (headerLen q.data) = p.front ++ (p.skipped ++ (p.header ++ (e.value ++ p.tail))) := by
    have htake := congrArg (List.take (headerLen q.data)) p.data_eq
    nth_rewrite 2 [hend] at htake
    rw [htake, ← List.append_assoc p.front (p.skipped ++ (p.header ++ (e.value ++ p.tail))) p.back, List.take_left]
  have hpos : extensionPos q.data + 4 + e.pos + profile.format.headerLen + e.value.length
      = (p.front ++ (p.skipped ++ (p.header ++ e.value))).length := by
    simp only [List.length_append, p.length_front, p.length_skipped, p.length_header]
    omega
  have htail : (q.data.take (headerLen q.data)).drop
      (extensionPos q.data + 4 + e.pos + profile.format.headerLen + e.value.length) = p.tail := by
    rw [htake, hpos]
    simp only [← List.append_assoc]
    rw [List.drop_left]
  unfold HasRoom Placed.HasRoom
  constructor
  . intro hroom
    have := hroom profile _ _ h.profile_eq hget
    simp only at this
    rwa [htail] at this
  . intro hroom profile' pos len hprofile hget'
    rw [h.profile_eq, Option.some_inj] at hprofile
    rw [hget, Option.some_inj, Prod.mk.injEq] at hget'
    rcases hget' with ⟨rfl, rfl⟩
    subst hprofile
    simp only
    rwa [htail]

theorem extensionValue_eq {q : ExtPacket} {profile : ExtProfile} {es : List ExtElement} (h : q.Holds profile es)
    (id : UInt8)
    : q.extensionValue id = (lastWith es id).bind fun e => if e.value.length = 0 then none else some e.value := by
  unfold extensionValue
  rw [h.getExtension_eq]
  cases hlast : lastWith es id with
  | none => rfl
  | some e =>
    rcases lastWith_eq_some_iff.mp hlast with ⟨before, after, hes, _⟩
    have htake := h.take_value (e := e) (by simp [hes])
    simp only [Option.bind_some]
    split
    . rfl
    . simp only [Option.map_some, htake]

theorem lastWith_of_ne {before after : List ExtElement} {e : ExtElement} {id : UInt8} (hne : e.id ≠ id)
    : lastWith (before ++ e :: after) id = lastWith (before ++ after) id := by
  unfold lastWith
  simp [List.find?_append, hne]

/--
What `Parse` has made of the bytes of a packet.
-/
structure Parsed (q : ExtPacket) : Prop where
  dataLen : q.dataLen = q.data.length
  layout : RtpLayout.parse q.data = some q.layout
  payload : headerLen q.data < q.data.length
  extMap : ∃ es, extElements q.data = some es ∧ q.extMap = recorded q.data es

theorem parsed_of_parse {data : List UInt8} {midId absTimeId : UInt8} {q : ExtPacket}
    (hparse : parse data midId absTimeId = some q)
    : q.Parsed := by
  unfold parse at hparse
  simp only [Option.bind_eq_bind, Option.pure_def, Option.bind_eq_some_iff, Option.some.injEq] at hparse
  rcases hparse with ⟨layout, hlayout, es, hes, rfl⟩
  refine ⟨rfl, hlayout, ?_, es, hes, rfl⟩
  have hmax : data.length ≤ rtpPacketMaxSize := by
    unfold RtpLayout.parse at hlayout
    by_contra hlong
    rw [if_pos (by omega)] at hlayout
    cases hlayout
  have := ((parse_eq_some_iff hmax).mp hlayout).left.payload
  simp only
  omega

theorem parse_data (data : List UInt8) (midId absTimeId : UInt8)
    : parse data midId absTimeId
      = (RtpLayout.parse data).bind fun layout => (extElements data).map fun es =>
          ⟨data, data.length, layout, recorded data es, midId, absTimeId⟩ := by
  unfold parse
  cases RtpLayout.parse data with
  | none => rfl
  | some layout =>
    cases extElements data
    all_goals rfl

namespace Parsed

variable {q : ExtPacket} (h : q.Parsed)

include h

theorem bytes_eq : q.bytes = q.data := by
  unfold bytes
  rw [h.dataLen, List.take_length]

theorem holds {profile : ExtProfile} (hprofile : extProfile q.data = some profile) : ∃ es, q.Holds profile es := by
  rcases h.extMap with ⟨es, hes, hmap⟩
  exact ⟨es, hprofile, hes, hmap, h.payload.le⟩

/--
An element that is found, in its place.
-/
theorem found {id : UInt8} {pos len : Nat} (hget : q.getExtension id = some (pos, len))
    : ∃ profile es e, q.Holds profile es ∧ lastWith es id = some e ∧ e.value.length ≠ 0
      ∧ pos = extensionPos q.data + 4 + e.pos + profile.format.headerLen := by
  cases hprofile : extProfile q.data with
  | none =>
    unfold getExtension at hget
    rw [hprofile] at hget
    cases hget
  | some profile =>
    rcases h.holds hprofile with ⟨es, hes⟩
    rw [hes.getExtension_eq, Option.bind_eq_some_iff] at hget
    rcases hget with ⟨e, hlast, hget⟩
    by_cases hne : e.value.length = 0
    . rw [if_pos hne] at hget
      cases hget
    . rw [if_neg hne, Option.some_inj, Prod.mk.injEq] at hget
      exact ⟨profile, es, e, hes, hlast, hne, hget.left.symm⟩

section Updated

variable {profile : ExtProfile} {before after : List ExtElement} {e : ExtElement}
  (hes : q.Holds profile (before ++ e :: after)) {p : Placed q.data profile e} {value : List UInt8}
  (hroom : p.HasRoom value.length)
  (helements : extElements (p.updated value) = some (before ++ { e with value := value } :: after))

include hes hroom helements

theorem holds_updated
    : ({ q with data := p.updated value } : ExtPacket).Holds profile
        (before ++ { e with value := value } :: after) := by
  refine ⟨?_, helements, ?_, ?_⟩
  . have hprofile := p.extProfile_updated value
    rwa [← hroom.length_updated, List.take_length] at hprofile
  . simp only
    rw [hes.extMap]
    apply (recorded_eq (p.extensionPos_updated value) _).symm
    simp
  . simp only
    rw [p.headerLen_updated, hroom.length_updated]
    exact h.payload.le

theorem changesOnly_updated {id : UInt8} (hid : e.id = id) (hlast : ∀ x ∈ after, x.id ≠ id)
    : ChangesOnly q { q with data := p.updated value } id value := by
  have hupdated := holds_updated h hes hroom helements
  have hbytes : ({ q with data := p.updated value } : ExtPacket).bytes = p.updated value := by
    unfold bytes
    simp only
    rw [h.dataLen, ← hroom.length_updated, List.take_length]
  have hback : p.back ≠ [] := by
    rw [← p.drop_headerLen, ← List.length_pos_iff, List.length_drop]
    have := h.payload
    omega
  have hparse : RtpLayout.parse (p.updated value) = some q.layout := by
    rw [hroom.parse_updated hback, h.layout]
    rw [← isSome_extElements, ← isSome_extElements, helements, hes.elements]
    rfl
  refine ⟨?_, ?_, ?_, ?_, ?_⟩
  . have hfront := congrArg (List.take p.front.length) p.data_eq
    rw [List.take_left] at hfront
    rw [hbytes, h.bytes_eq, ← p.length_front, p.front_updated, List.take_left, hfront]
  . rw [hbytes, h.bytes_eq, hroom.drop_headerLen, p.drop_headerLen]
  . intro id' hne
    have hne' : e.id ≠ id' := by
      rw [hid]
      exact hne.symm
    rw [extensionValue_eq hupdated, extensionValue_eq hes, lastWith_of_ne hne', lastWith_of_ne (by exact hne')]
  . rw [hbytes, h.bytes_eq]
    exact ⟨before, e, after, hes.elements, hid, hlast, helements⟩
  . rw [hbytes, parse_data, hparse, helements, hroom.length_updated, ← h.dataLen]
    simp only [Option.bind_some, Option.map_some]
    rw [← hupdated.extMap]

end Updated

omit h in
theorem exists_updated {profile : ExtProfile} {before after : List ExtElement} {e : ExtElement} {id : UInt8}
    (hes : q.Holds profile (before ++ e :: after)) (hid : e.id = id) (hafter : ∀ x ∈ after, x.id ≠ id)
    (hne : e.value.length ≠ 0) {value : List UInt8} (hpos : 1 ≤ value.length) (hmax : value.length ≤ 16)
    : ∃ p : Placed q.data profile e, q.updateExtension id value = ({ q with data := p.updated value }, true)
      ∧ (q.HasRoom id value.length ↔ p.HasRoom value.length)
      ∧ (extElements ((p.updated value).take q.data.length) = some (before ++ { e with value := value } :: after)
        ↔ p.HasRoom value.length) := by
  have hlast : lastWith (before ++ e :: after) id = some e :=
    lastWith_eq_some_iff.mpr ⟨before, after, rfl, hid, hafter⟩
  rcases hes.exists_placed rfl with ⟨p, hreaches, hwalk⟩
  exact ⟨p, hes.updateExtension_eq hlast hne p (by omega), hasRoom_iff hes hlast hne p _,
    p.extElements_updated_iff hreaches hwalk hpos hmax⟩

/--
An update that succeeds changes the element only, if and only if there is room for the new value.
-/
theorem changesOnly_iff (id : UInt8) {value : List UInt8} (hpos : 1 ≤ value.length) (hmax : value.length ≤ 16)
    : ((q.updateExtension id value).2 = true → ChangesOnly q (q.updateExtension id value).1 id value)
      ↔ q.HasRoom id value.length := by
  cases hget : q.getExtension id with
  | none =>
    apply iff_of_true
    . unfold updateExtension
      rw [hget]
      intro hret
      cases hret
    . intro profile pos len _ hget'
      rw [hget] at hget'
      cases hget'
  | some found =>
    rcases h.found hget with ⟨profile, es, e, hes, hlast, hne, _⟩
    constructor
    . intro hchanges
      rcases lastWith_eq_some_iff.mp hlast with ⟨_, _, rfl, hid, hafter⟩
      rcases exists_updated hes hid hafter hne hpos hmax with ⟨_, hupdate, _⟩
      rcases (hchanges (by rw [hupdate])).elements with ⟨before, e', after, hes', hid', hafter', helements⟩
      rw [h.bytes_eq, hes.elements, Option.some_inj] at hes'
      rw [hes'] at hes hlast
      have heq := hlast.symm.trans (lastWith_eq_some_iff.mpr ⟨before, after, rfl, hid', hafter'⟩)
      rw [Option.some_inj] at heq
      subst heq
      rcases exists_updated hes hid hafter' hne hpos hmax with ⟨p, hupdate', hroom, hiff⟩
      rw [hupdate'] at helements
      unfold bytes at helements
      rw [h.dataLen] at helements
      exact hroom.mpr (hiff.mp helements)
    . intro hroom _
      rcases lastWith_eq_some_iff.mp hlast with ⟨before, after, rfl, hid, hafter⟩
      rcases exists_updated hes hid hafter hne hpos hmax with ⟨p, hupdate, hroom', hiff⟩
      have hfits := hroom'.mp hroom
      have helements := hiff.mpr hfits
      rw [← hfits.length_updated, List.take_length] at helements
      rw [hupdate]
      exact changesOnly_updated h hes hfits helements hid hafter

/--
What is read after an update that has room is the new value.
-/
theorem getExtension_updated {id : UInt8} {value : List UInt8} (hpos : 1 ≤ value.length) (hmax : value.length ≤ 16)
    (hroom : q.HasRoom id value.length) (hret : (q.updateExtension id value).2 = true)
    : ∃ pos, (q.updateExtension id value).1.getExtension id = some (pos, value.length)
      ∧ ((q.updateExtension id value).1.data.drop pos).take value.length = value := by
  cases hget : q.getExtension id with
  | none =>
    unfold updateExtension at hret
    rw [hget] at hret
    cases hret
  | some found =>
    rcases h.found hget with ⟨profile, es, e, hes, hlast, hne, _⟩
    rcases lastWith_eq_some_iff.mp hlast with ⟨before, after, rfl, hid, hafter⟩
    rcases exists_updated hes hid hafter hne hpos hmax with ⟨p, hupdate, hroom', hiff⟩
    have hfits := hroom'.mp hroom
    have helements := hiff.mpr hfits
    rw [← hfits.length_updated, List.take_length] at helements
    have hupdated := holds_updated h hes hfits helements
    have hlast' : lastWith (before ++ { e with value := value } :: after) id = some { e with value := value } :=
      lastWith_eq_some_iff.mpr ⟨before, after, rfl, hid, hafter⟩
    have hnew := hupdated.getExtension_eq id
    have htake := hupdated.take_value (e := { e with value := value }) (by simp)
    rw [hlast', Option.bind_some, if_neg (by simp only; omega)] at hnew
    rw [hupdate]
    exact ⟨_, hnew, htake⟩

end Parsed

theorem midStr_spec : ∀ mid : UInt8, (1 ≤ (midStr mid).length ∧ (midStr mid).length ≤ 3)
    ∧ UInt8.ofInt (atoi (midStr mid)) = mid := by
  apply forall_of_bitVec
  decide +kernel

theorem updateExtension_ids (q : ExtPacket) (id : UInt8) (value : List UInt8)
    : (q.updateExtension id value).1.midExtensionId = q.midExtensionId
      ∧ (q.updateExtension id value).1.absTimeExtensionId = q.absTimeExtensionId := by
  unfold updateExtension updateExtensionLength
  split
  . exact ⟨rfl, rfl⟩
  . split
    . exact ⟨rfl, rfl⟩
    . split
      . split
        all_goals exact ⟨rfl, rfl⟩
      . split
        all_goals exact ⟨rfl, rfl⟩
      . exact ⟨rfl, rfl⟩

/--
What an update of an identifier with a new value should do, if it reports success.
-/
def MidUpdates (q : ExtPacket) (mid : UInt8) : Prop :=
  (q.updateMid mid).2 = true →
    (q.updateMid mid).1.readMid = some mid ∧ ChangesOnly q (q.updateMid mid).1 q.midExtensionId (midStr mid)

def AbsTimeUpdates (q : ExtPacket) (absTime24bits : UInt32) : Prop :=
  (q.updateAbsTime absTime24bits).2 = true →
    (q.updateAbsTime absTime24bits).1.readAbsTime = some absTime24bits
      ∧ ChangesOnly q (q.updateAbsTime absTime24bits).1 q.absTimeExtensionId (write3Bytes absTime24bits.toNat)

namespace Parsed

variable {q : ExtPacket} (h : q.Parsed)

include h

theorem midUpdates_iff (mid : UInt8) : q.MidUpdates mid ↔ q.HasRoom q.midExtensionId (midStr mid).length := by
  rcases midStr_spec mid with ⟨⟨hpos, hmax⟩, hread⟩
  have hiff := h.changesOnly_iff q.midExtensionId hpos (by omega)
  constructor
  . intro hupdates
    exact hiff.mp fun hret => (hupdates hret).right
  . intro hroom hret
    rcases h.getExtension_updated hpos (by omega) hroom hret with ⟨pos, hget, htake⟩
    refine ⟨?_, hiff.mpr hroom hret⟩
    unfold readMid updateMid
    rw [(updateExtension_ids _ _ _).left, hget, Option.map_some]
    simp only [htake, hread]

theorem updateExtension_ret (id : UInt8) {value : List UInt8} (hpos : 1 ≤ value.length) (hmax : value.length ≤ 16)
    : (q.updateExtension id value).2 = (q.getExtension id).isSome := by
  cases hget : q.getExtension id with
  | none =>
    unfold updateExtension
    rw [hget]
    rfl
  | some found =>
    rcases h.found hget with ⟨profile, es, e, hes, hlast, hne, _⟩
    rcases lastWith_eq_some_iff.mp hlast with ⟨before, after, rfl, hid, hafter⟩
    rcases exists_updated hes hid hafter hne hpos hmax with ⟨p, hupdate, _⟩
    rw [hupdate]
    rfl

theorem absTimeUpdates_iff (absTime24bits : UInt32)
    : q.AbsTimeUpdates absTime24bits
      ↔ q.HasRoom q.absTimeExtensionId 3
        ∧ ((q.getExtension q.absTimeExtensionId).isSome = true → absTime24bits.toNat < 2 ^ 24) := by
  have hlen : (write3Bytes absTime24bits.toNat).length = 3 := length_write3Bytes _
  have hpos : 1 ≤ (write3Bytes absTime24bits.toNat).length := by omega
  have hmax : (write3Bytes absTime24bits.toNat).length ≤ 16 := by omega
  have hiff := h.changesOnly_iff q.absTimeExtensionId hpos hmax
  have hret := h.updateExtension_ret q.absTimeExtensionId hpos hmax
  have hread (hroom : q.HasRoom q.absTimeExtensionId 3) (hret : (q.updateAbsTime absTime24bits).2 = true)
      : (q.updateAbsTime absTime24bits).1.readAbsTime = some (UInt32.ofNat (absTime24bits.toNat % 2 ^ 24)) := by
    rw [← hlen] at hroom
    rcases h.getExtension_updated hpos hmax hroom hret with ⟨pos, hget, htake⟩
    unfold readAbsTime updateAbsTime
    rw [(updateExtension_ids _ _ _).right, hget, Option.map_some, Option.some_inj]
    simp only
    rw [← List.take_append_drop (write3Bytes absTime24bits.toNat).length (List.drop pos _), htake,
      read3Bytes_write3Bytes]
  have hexact : UInt32.ofNat (absTime24bits.toNat % 2 ^ 24) = absTime24bits ↔ absTime24bits.toNat < 2 ^ 24 := by
    have hlt := absTime24bits.toNat_lt
    rw [← UInt32.toNat_inj, UInt32.toNat_ofNat']
    omega
  rw [hlen] at hiff
  constructor
  . intro hupdates
    have hroom := hiff.mp fun hret => (hupdates hret).right
    refine ⟨hroom, fun hsome => ?_⟩
    have hsuccess : (q.updateAbsTime absTime24bits).2 = true := hret.trans hsome
    have := (hread hroom hsuccess).symm.trans (hupdates hsuccess).left
    rw [Option.some_inj] at this
    exact hexact.mp this
  . rintro ⟨hroom, hsmall⟩ hsuccess
    refine ⟨?_, hiff.mpr hroom hsuccess⟩
    rw [hread hroom hsuccess, hexact.mpr (hsmall (hret.symm.trans hsuccess))]

end Parsed

/--
The updates of a parsed packet do what they should if and only if there is room for the new value, and a time has no
more than 24 bits.
-/
theorem updates_iff {data : List UInt8} {midId absTimeId : UInt8} {q : ExtPacket}
    (hparse : parse data midId absTimeId = some q)
    : (∀ mid, q.MidUpdates mid ↔ q.HasRoom q.midExtensionId (midStr mid).length)
      ∧ ∀ absTime24bits, q.AbsTimeUpdates absTime24bits
        ↔ q.HasRoom q.absTimeExtensionId 3
          ∧ ((q.getExtension q.absTimeExtensionId).isSome = true → absTime24bits.toNat < 2 ^ 24) := by
  have hparsed := parsed_of_parse hparse
  exact ⟨hparsed.midUpdates_iff, hparsed.absTimeUpdates_iff⟩

section Sample

/--
A packet with two elements of one byte each, the identifiers are 1 and 2.
-/
def sampleData : List UInt8 := [0x90, 96, 0, 1, 0, 0, 0, 0, 0, 0, 0, 1, 0xbe, 0xde, 0, 1, 0x10, 53, 0x20, 120, 1]

def sampleElements : List ExtElement := [⟨0, 1, [53]⟩, ⟨2, 2, [120]⟩]

def samplePacket : ExtPacket where
  data := sampleData
  dataLen := 21
  layout := ⟨20, 1, 0⟩
  extMap := recorded sampleData sampleElements
  midExtensionId := 1
  absTimeExtensionId := 3

theorem extElements_sampleData : extElements sampleData = some sampleElements := by
  have hprofile : extProfile sampleData = some .onebyte := by decide
  have hvalue : RtpLayout.extensionValue sampleData = [0x10, 53, 0x20, 120] := by decide
  have hnil : onebyteFormat.walk 4 [] = some [] := Tlv.Format.walk_nil _ _
  unfold extElements
  rw [hprofile, hvalue]
  simp only
  rw [parseOnebyteExt_eq, onebyteFormat_walk_cons, if_neg (by decide), if_pos (by decide), if_neg (by decide)]
  change (onebyteFormat.walk 4 [0x20, 120]).map _ = _
  rw [onebyteFormat_walk_cons, if_neg (by decide), if_pos (by decide), if_neg (by decide)]
  change ((onebyteFormat.walk 4 []).map _).map _ = _
  rw [hnil]
  rfl

theorem parse_sampleData : parse sampleData 1 3 = some samplePacket := by
  have hlayout : RtpLayout.parse sampleData = some ⟨20, 1, 0⟩ := by
    have hext : parseExt sampleData = true := by
      rw [← isSome_extElements, extElements_sampleData]
      rfl
    apply (parse_eq_some_iff (by decide)).mpr
    exact ⟨⟨by decide, hext⟩, by decide⟩
  rw [parse_data, hlayout, extElements_sampleData]
  rfl

theorem getExtension_samplePacket : samplePacket.getExtension 1 = some (17, 1) := by decide

/--
A value of one digit takes the place of another one.
-/
theorem updates_sample : samplePacket.MidUpdates 7 := by
  apply ((updates_iff parse_sampleData).left 7).mpr
  intro profile pos len _ hget
  cases getExtension_samplePacket.symm.trans hget
  exact .inl (by decide)

/--
A value of two digits is written over the header of the next element.
-/
theorem not_midUpdates : parse sampleData 1 3 = some samplePacket ∧ ¬samplePacket.MidUpdates 10 := by
  refine ⟨parse_sampleData, ?_⟩
  intro hupdates
  have hroom := ((parsed_of_parse parse_sampleData).midUpdates_iff 10).mp hupdates
  rcases hroom .onebyte 17 1 (by decide) getExtension_samplePacket with hshort | ⟨_, hpads | ⟨hends, _⟩⟩
  . exact absurd hshort (by decide)
  . exact absurd hpads (by decide)
  . exact hends 2 1 (by rfl)

end Sample

end ExtPacket
