import CppStreamer.Format.Amf.Amf0

/-!
This module contains the round trip of an object through `AMF_Encoder` and `AMF_Decoder`.
-/

open ByteStream

namespace Amf

namespace AmfItem

mutual

/--
A value in which all strings count as short ones.
-/
def content : AmfItem → AmfItem
  | .longString desc => .string desc
  | .object fields => .object (contentFields fields)
  | .mixedArray fields => .mixedArray (contentFields fields)
  | .array items => .array (contents items)
  | item => item

def contents : List AmfItem → List AmfItem
  | [] => []
  | item :: items => item.content :: contents items

def contentFields : List (List UInt8 × AmfItem) → List (List UInt8 × AmfItem)
  | [] => []
  | (key, item) :: fields => (key, item.content) :: contentFields fields

end

/--
The bits of a number are those of a `double`.
-/
def IsDouble : AmfItem → Prop
  | .number bits => bits < 2 ^ 64
  | .date bits => bits < 2 ^ 64
  | _ => True

/--
The values that are written as a whole when they are not refused.
-/
def Writes : AmfItem → Prop
  | .mixedArray _ | .array _ | .date _ => False
  | .string desc => desc.length < 2 ^ 32
  | .longString desc => desc.length < 2 ^ 32
  | _ => True

/--
A string is read with the type that its length gives it.
-/
def ofString (desc : List UInt8) : AmfItem :=
  if 0xffff < desc.length then .longString desc else .string desc

def written : AmfItem → AmfItem
  | .string desc => ofString desc
  | .longString desc => ofString desc
  | item => item

theorem content_ofString (desc : List UInt8) : (ofString desc).content = .string desc := by
  unfold ofString
  split
  . rw [content]
  . rw [content] <;> simp

theorem content_written (item : AmfItem) : item.written.content = item.content := by
  cases item with
  | string desc =>
    rw [written, content_ofString]
    simp [content]
  | longString desc =>
    rw [written, content_ofString, content]
  | _ => rfl

end AmfItem

/--
An object as it is in a `std::map`.
-/
structure AmfMap where
  fields : List (List UInt8 × AmfItem)
  sorted : fields.Pairwise (·.1 < ·.1)
  keys : ∀ field ∈ fields, field.1 ≠ [] ∧ field.1.length ≤ 0xffff
  doubles : ∀ field ∈ fields, field.2.IsDouble

/--
The bytes are as many as an `int` counts, like those that `Decode` is told are left.
-/
def AmfMap.RoundTrips (m : AmfMap) : Prop :=
  ∀ rest, ((encodeObject m.fields).2 ++ rest).length < 2 ^ 31 →
    ∃ fields left, decodeItem ((encodeObject m.fields).2 ++ rest) = .ok (true, .object fields, left)
      ∧ AmfItem.contentFields fields = AmfItem.contentFields m.fields

section Decode

theorem takeBytes_append (len : Nat) (data : List UInt8) (hlen : len = data.length) (rest : List UInt8)
    : takeBytes len (data ++ rest) = .ok (data, rest) := by
  subst hlen
  unfold takeBytes
  rw [if_pos (by simp), List.take_left, List.drop_left]

theorem decode_number (fuel : Nat) (data : List UInt8)
    : decode (fuel + 1) (typeNumber :: data) = (do
        let (value, data) ← takeBytes 8 data
        .ok (true, .number (read8Bytes value), data)) := rfl

theorem decode_string (fuel : Nat) (data : List UInt8)
    : decode (fuel + 1) (typeString :: data) = (do
        let (len, data) ← takeBytes 2 data
        let (desc, data) ← takeBytes (read2Bytes len) data
        .ok (true, .string desc, data)) := rfl

theorem decode_longString (fuel : Nat) (data : List UInt8)
    : decode (fuel + 1) (typeLongString :: data) = (do
        let (len, data) ← takeBytes 4 data
        let (desc, data) ← takeBytes (read4Bytes len) data
        .ok (true, .longString desc, data)) := rfl

theorem decode_object (fuel : Nat) (data : List UInt8)
    : decode (fuel + 1) (typeObject :: data) = (do
        let (ok, fields, data) ← decodeAmfObject fuel data
        .ok (ok, .object fields, data)) := rfl

theorem decode_encodeNumber (fuel : Nat) {bits : Nat} (h : bits < 2 ^ 64) (rest : List UInt8)
    : decode (fuel + 1) (encodeNumber bits ++ rest) = .ok (true, .number bits, rest) := by
  have hvalue := takeBytes_append 8 (write8Bytes bits) rfl rest
  rw [encodeNumber, List.cons_append, decode_number, hvalue]
  simp only [bind, Except.bind, read8Bytes_write8Bytes h]

theorem decode_encodeBool (fuel : Nat) (enable : Bool) (rest : List UInt8)
    : decode (fuel + 1) (encodeBool enable ++ rest) = .ok (true, .bool enable, rest) := by
  cases enable with
  | false => rfl
  | true => rfl

theorem decode_encodeString (fuel : Nat) {desc : List UInt8} (h : desc.length < 2 ^ 32)
    (rest : List UInt8)
    : decode (fuel + 1) (encodeString desc ++ rest) = .ok (true, .ofString desc, rest) := by
  unfold encodeString AmfItem.ofString
  by_cases hlong : 0xffff < desc.length
  . have hlen := takeBytes_append 4 (write4Bytes desc.length) rfl (desc ++ rest)
    rw [if_pos hlong, if_pos hlong, Nat.mod_eq_of_lt h, List.take_length, List.cons_append,
      List.cons_append, List.append_assoc, decode_longString, hlen]
    simp only [bind, Except.bind, read4Bytes_write4Bytes_of_lt h, takeBytes_append _ _ rfl rest]
  . have hlen := takeBytes_append 2 (write2Bytes desc.length) rfl (desc ++ rest)
    rw [if_neg hlong, if_neg hlong, List.cons_append, List.cons_append, List.append_assoc,
      decode_string, hlen]
    have hshort : desc.length < 2 ^ 16 := by omega
    simp only [bind, Except.bind, read2Bytes_write2Bytes_of_lt hshort, takeBytes_append _ _ rfl rest]

theorem decode_encodeItem (fuel : Nat) {item : AmfItem} (hdouble : item.IsDouble) (hwrites : item.Writes)
    {value : List UInt8} (h : encodeItem item = some value) (rest : List UInt8)
    : decode (fuel + 1) (value ++ rest) = .ok (true, item.written, rest) := by
  cases item with
  | number bits =>
    cases h
    exact decode_encodeNumber fuel hdouble rest
  | bool enable =>
    cases h
    exact decode_encodeBool fuel enable rest
  | string desc =>
    cases h
    exact decode_encodeString fuel hwrites rest
  | longString desc =>
    cases h
    exact decode_encodeString fuel hwrites rest
  | null =>
    cases h
    rfl
  | undefined =>
    cases h
    rfl
  | mixedArray _ => cases hwrites
  | array _ => cases hwrites
  | date _ => cases hwrites
  | _ => cases h

theorem decode_ok_type {fuel : Nat} {data left : List UInt8} {item : AmfItem}
    (h : decode (fuel + 1) data = .ok (true, item, left))
    : ∃ type tail, data = type :: tail ∧ ¬typeUnsupported < type := by
  cases data with
  | nil =>
    rw [decode] at h
    cases h
  | cons type tail =>
    refine ⟨type, tail, rfl, ?_⟩
    intro hlarge
    rw [decode, if_pos hlarge] at h
    cases h

theorem encodeKey_eq {key : List UInt8} (h : key.length ≤ 0xffff)
    : encodeKey key = write2Bytes key.length ++ key := by
  unfold encodeKey
  rw [if_neg (by omega)]

theorem decodeAmfObject_end (fuel : Nat) (rest : List UInt8)
    : decodeAmfObject (fuel + 1) (encodeKey [] ++ [typeObjectEnd] ++ rest)
        = .ok (true, [], typeObjectEnd :: rest) := by
  have hsize := takeBytes_append 2 [0, 0] rfl (typeObjectEnd :: rest)
  have hmarker : takeBytes 1 (typeObjectEnd :: rest) = .ok ([typeObjectEnd], rest) :=
    takeBytes_append 1 [typeObjectEnd] rfl rest
  have hread : read2Bytes [0, 0] = 0 := rfl
  have hcons : encodeKey [] ++ [typeObjectEnd] ++ rest = [0, 0] ++ (typeObjectEnd :: rest) := by
    rw [encodeKey_eq (by simp)]
    rfl
  rw [hcons, decodeAmfObject]
  . rw [hsize]
    simp only [bind, Except.bind, hread, hmarker, if_true]
  . simp

theorem decodeAmfObject_key (fuel : Nat) {key : List UInt8} (hkey : key ≠ [])
    (hlen : key.length ≤ 0xffff) (data : List UInt8)
    : decodeAmfObject (fuel + 1) (encodeKey key ++ data) = (do
        let (type, _) ← takeBytes 1 data
        if typeUnsupported < type.headD 0 then .ok (false, [], data)
        else
          let (ok, item, data) ← decode fuel data
          if ok then
            let (ok, fields, data) ← decodeAmfObject fuel data
            .ok (ok, insertField key item fields, data)
          else .ok (false, [], data)) := by
  have hsize := takeBytes_append 2 (write2Bytes key.length) rfl (key ++ data)
  have hread : read2Bytes (write2Bytes key.length) = key.length :=
    read2Bytes_write2Bytes_of_lt (by omega)
  have hpos : key.length ≠ 0 := by
    rw [ne_eq, List.length_eq_zero_iff]
    exact hkey
  rw [encodeKey_eq hlen, List.append_assoc, decodeAmfObject]
  . rw [hsize]
    simp only [bind, Except.bind, hread, if_neg hpos, takeBytes_append _ _ rfl data]
  . simp [write2Bytes]

theorem decodeAmfObject_field (fuel : Nat) {key : List UInt8} (hkey : key ≠ [])
    (hlen : key.length ≤ 0xffff) {data left : List UInt8} {item : AmfItem}
    (hitem : decode (fuel + 1) data = .ok (true, item, left))
    : decodeAmfObject (fuel + 2) (encodeKey key ++ data) = (do
        let (ok, fields, left) ← decodeAmfObject (fuel + 1) left
        .ok (ok, insertField key item fields, left)) := by
  obtain ⟨type, tail, hdata, htype⟩ := decode_ok_type hitem
  have hone : takeBytes 1 data = .ok ([type], tail) := by
    rw [hdata]
    rfl
  rw [decodeAmfObject_key (fuel + 1) hkey hlen, hone]
  simp only [bind, Except.bind, List.headD_cons, if_neg htype, hitem, if_true]

theorem insertField_front {key : List UInt8} (item : AmfItem) {fields : List (List UInt8 × AmfItem)}
    (h : ∀ field ∈ fields, key < field.1)
    : insertField key item fields = (key, item) :: fields := by
  cases fields with
  | nil => rfl
  | cons field fields =>
    have hlt : key < field.1 := h field (List.mem_cons_self ..)
    have hne : field.1 ≠ key := by
      intro heq
      rw [heq] at hlt
      exact List.lt_irrefl key hlt
    rw [insertField, if_neg hne, if_pos hlt]

theorem decodeAmfObject_encodeFields (rest : List UInt8) {fields : List (List UInt8 × AmfItem)}
    (hsorted : fields.Pairwise (·.1 < ·.1))
    (hkeys : ∀ field ∈ fields, field.1 ≠ [] ∧ field.1.length ≤ 0xffff)
    (hdoubles : ∀ field ∈ fields, field.2.IsDouble) (hwrites : ∀ field ∈ fields, field.2.Writes)
    (hok : (encodeFields fields).1 = true)
    : ∀ fuel, fields.length < fuel →
        decodeAmfObject fuel ((encodeFields fields).2 ++ rest)
          = .ok (true, fields.map fun field => (field.1, field.2.written), typeObjectEnd :: rest) := by
  induction fields with
  | nil =>
    intro fuel hfuel
    obtain ⟨fuel, rfl⟩ := Nat.exists_eq_add_one_of_ne_zero (Nat.ne_zero_of_lt hfuel)
    apply decodeAmfObject_end
  | cons field fields ih =>
    intro fuel hfuel
    obtain ⟨key, item⟩ := field
    obtain ⟨hkey, hlen⟩ := hkeys _ (List.mem_cons_self ..)
    rw [List.length_cons] at hfuel
    obtain ⟨fuel, rfl⟩ : ∃ n, fuel = n + 2 := ⟨fuel - 2, by omega⟩
    rw [List.pairwise_cons] at hsorted
    rw [encodeFields] at hok ⊢
    cases hitem : encodeItem item with
    | none =>
      rw [hitem] at hok
      cases hok
    | some value =>
      rw [hitem] at hok
      have hvalue := decode_encodeItem fuel (hdoubles _ (List.mem_cons_self ..))
        (hwrites _ (List.mem_cons_self ..)) hitem ((encodeFields fields).2 ++ rest)
      have hrest := ih hsorted.right (fun f hf => hkeys f (List.mem_cons_of_mem _ hf))
        (fun f hf => hdoubles f (List.mem_cons_of_mem _ hf))
        (fun f hf => hwrites f (List.mem_cons_of_mem _ hf)) hok (fuel + 1) (by omega)
      have hfront : insertField key item.written (fields.map fun f => (f.1, f.2.written))
          = (key, item.written) :: fields.map fun f => (f.1, f.2.written) := by
        apply insertField_front
        intro f hf
        obtain ⟨g, hg, rfl⟩ := List.mem_map.mp hf
        exact hsorted.left g hg
      simp only [List.append_assoc]
      rw [decodeAmfObject_field fuel hkey hlen hvalue, hrest]
      simp only [bind, Except.bind, hfront, List.map_cons]

end Decode

section Fields

theorem contentFields_written (fields : List (List UInt8 × AmfItem))
    : AmfItem.contentFields (fields.map fun field => (field.1, field.2.written))
        = AmfItem.contentFields fields := by
  induction fields with
  | nil => rfl
  | cons field fields ih =>
    obtain ⟨key, item⟩ := field
    rw [List.map_cons, AmfItem.contentFields, AmfItem.contentFields, ih, AmfItem.content_written]

end Fields

section Encode

theorem length_encodeFields {fields : List (List UInt8 × AmfItem)}
    (hkeys : ∀ field ∈ fields, field.1 ≠ [] ∧ field.1.length ≤ 0xffff)
    (hok : (encodeFields fields).1 = true)
    : fields.length ≤ (encodeFields fields).2.length := by
  induction fields with
  | nil => simp
  | cons field fields ih =>
    obtain ⟨key, item⟩ := field
    rw [encodeFields] at hok ⊢
    cases hitem : encodeItem item with
    | none =>
      rw [hitem] at hok
      cases hok
    | some value =>
      rw [hitem] at hok
      have hrest := ih (fun f hf => hkeys f (List.mem_cons_of_mem _ hf)) hok
      rw [encodeKey_eq (hkeys _ (List.mem_cons_self ..)).right]
      simp only [List.length_cons, List.length_append, length_write2Bytes]
      omega

theorem AmfMap.roundTrips_of_writes (m : AmfMap) (hok : (encodeObject m.fields).1 = true)
    (hwrites : ∀ field ∈ m.fields, field.2.Writes)
    : m.RoundTrips := by
  intro rest _
  have hlen := length_encodeFields m.keys hok
  have hdecode := decodeAmfObject_encodeFields rest m.sorted m.keys m.doubles hwrites hok
    (2 * ((encodeObject m.fields).2 ++ rest).length + 1)
    (by simp only [encodeObject, List.length_append, List.length_cons]; omega)
  refine ⟨_, typeObjectEnd :: rest, ?_, contentFields_written m.fields⟩
  unfold decodeItem
  rw [encodeObject] at hdecode ⊢
  rw [List.cons_append, decode_object, ← List.cons_append, hdecode]
  rfl

theorem bind_ok {α β : Type} {x : Except AmfFault α} {f : α → Except AmfFault β} {r : β}
    (h : x >>= f = .ok r)
    : ∃ a, x = .ok a ∧ f a = .ok r := by
  cases x with
  | error e => cases h
  | ok a => exact ⟨a, rfl, h⟩

end Encode

section Weight

/--
A byte that is read as an empty string counts as much as the three that are written of it.
-/
def weight (data : List UInt8) : Nat :=
  (data.map fun b => if b = typeUnsupported then 3 else 1).sum

@[simp]
theorem weight_nil : weight [] = 0 := rfl

@[simp]
theorem weight_cons (b : UInt8) (data : List UInt8)
    : weight (b :: data) = (if b = typeUnsupported then 3 else 1) + weight data := by
  simp [weight]

@[simp]
theorem weight_append (data rest : List UInt8) : weight (data ++ rest) = weight data + weight rest := by
  simp [weight]

theorem length_le_weight (data : List UInt8) : data.length ≤ weight data := by
  induction data with
  | nil => simp
  | cons b data ih =>
    rw [weight_cons, List.length_cons]
    split <;> omega

theorem weight_drop_le (n : Nat) (data : List UInt8) : weight (data.drop n) ≤ weight data := by
  have h := weight_append (data.take n) (data.drop n)
  rw [List.take_append_drop] at h
  omega

/--
What is read of a value weighs no less than what is written of it. A value that is not written weighs more
than the end of an object.
-/
def AmfItem.cost (item : AmfItem) : Nat :=
  weight ((encodeItem item).getD []) + match item with
    | .mixedArray _ | .array _ | .date _ => 4
    | .string desc => if desc.length < 2 ^ 32 then 0 else 4
    | .longString desc => if desc.length < 2 ^ 32 then 0 else 4
    | _ => 0

def fieldsCost (fields : List (List UInt8 × AmfItem)) : Nat :=
  (fields.map fun field => weight (encodeKey field.1) + field.2.cost).sum

theorem takeBytes_ok {len : Nat} {data taken left : List UInt8} (h : takeBytes len data = .ok (taken, left))
    : data = taken ++ left ∧ taken.length = len := by
  unfold takeBytes at h
  split at h
  . next hlen =>
    cases h
    rw [List.take_append_drop, List.length_take]
    exact ⟨rfl, by omega⟩
  . cases h

theorem cost_string {desc : List UInt8} (h : desc.length < 2 ^ 32)
    : (AmfItem.string desc).cost = weight (encodeString desc) := by
  simp only [AmfItem.cost, encodeItem, Option.getD_some, if_pos h, Nat.add_zero]

theorem cost_longString (desc : List UInt8) : (AmfItem.longString desc).cost = (AmfItem.string desc).cost := rfl

theorem cost_shortString {size desc : List UInt8} (hsize : size.length = 2)
    (hdesc : desc.length = read2Bytes size)
    : (AmfItem.string desc).cost = 1 + (weight size + weight desc) := by
  have hlt := read2Bytes_lt size
  have hshort : ¬0xffff < desc.length := by omega
  rw [cost_string (by omega), encodeString, if_neg hshort, hdesc, write2Bytes_read2Bytes hsize,
    List.cons_append, weight_cons, weight_append, if_neg (by decide)]

theorem cost_longString_le {size desc : List UInt8} (hsize : size.length = 4)
    (hdesc : desc.length = read4Bytes size)
    : (AmfItem.longString desc).cost ≤ 1 + (weight size + weight desc) := by
  have hlt := read4Bytes_lt size
  have hwrite : write4Bytes desc.length = size := by rw [hdesc, write4Bytes_read4Bytes hsize]
  rw [cost_longString, cost_string (by omega), encodeString]
  by_cases hlong : 0xffff < desc.length
  . apply Nat.le_of_eq
    rw [if_pos hlong, hwrite, Nat.mod_eq_of_lt (by omega), List.take_length, List.cons_append, weight_cons,
      weight_append, if_neg (by decide)]
  . have htwo : weight (write2Bytes desc.length) ≤ weight size := by
      rw [← hwrite]
      simp only [write2Bytes, write4Bytes, weight_cons]
      omega
    rw [if_neg hlong, List.cons_append, weight_cons, weight_append, if_neg (by decide)]
    omega

theorem fieldsCost_insertField_le (key : List UInt8) (item : AmfItem)
    (fields : List (List UInt8 × AmfItem))
    : fieldsCost (insertField key item fields) ≤ weight (encodeKey key) + item.cost + fieldsCost fields := by
  induction fields with
  | nil => exact Nat.le_refl _
  | cons field fields ih =>
    obtain ⟨k, v⟩ := field
    rw [insertField]
    split
    . simp only [fieldsCost, List.map_cons, List.sum_cons]
      omega
    . split
      . exact Nat.le_refl _
      . simp only [fieldsCost, List.map_cons, List.sum_cons] at ih ⊢
        omega

/--
What is decoded, with what is left, weighs no more than the bytes.
-/
structure Weighs (fuel : Nat) : Prop where
  item : ∀ {data ok item left}, decode fuel data = .ok (ok, item, left) →
    item.cost + weight left ≤ weight data
  object : ∀ {data ok fields left}, decodeAmfObject fuel data = .ok (ok, fields, left) →
    fieldsCost fields + weight left ≤ weight data
  array : ∀ {len data items left}, decodeAmfArray fuel len data = .ok (items, left) →
    weight left ≤ weight data

theorem decode_weighs {fuel : Nat} (ih : Weighs fuel) {data left : List UInt8} {ok : Bool} {item : AmfItem}
    (h : decode (fuel + 1) data = .ok (ok, item, left))
    : item.cost + weight left ≤ weight data := by
  cases data with
  | nil =>
    rw [decode] at h
    cases h
  | cons type data =>
    have hone : 1 + weight data ≤ weight (type :: data) := by
      rw [weight_cons]
      split <;> omega
    rw [decode] at h
    by_cases hlarge : typeUnsupported < type
    . rw [if_pos hlarge] at h
      cases h
      exact Nat.le_of_eq (Nat.zero_add _)
    rw [if_neg hlarge] at h
    by_cases hnumber : type = typeNumber
    . rw [if_pos hnumber] at h
      obtain ⟨⟨value, data'⟩, hvalue, h⟩ := bind_ok h
      cases h
      obtain ⟨rfl, hlen⟩ := takeBytes_ok hvalue
      have hcost : (AmfItem.number (read8Bytes value)).cost = 1 + weight value := by
        simp only [AmfItem.cost, encodeItem, encodeNumber, Option.getD_some, write8Bytes_read8Bytes hlen,
          weight_cons, Nat.add_zero]
        rfl
      rw [weight_append] at hone
      omega
    rw [if_neg hnumber] at h
    by_cases hbool : type = typeBool
    . rw [if_pos hbool] at h
      obtain ⟨⟨value, data'⟩, hvalue, h⟩ := bind_ok h
      cases h
      obtain ⟨rfl, hlen⟩ := takeBytes_ok hvalue
      have hcost (enable : Bool) : (AmfItem.bool enable).cost = 2 := by
        cases enable <;> decide
      have := length_le_weight value
      rw [weight_append] at hone
      rw [hcost]
      omega
    rw [if_neg hbool] at h
    by_cases hstring : type = typeString
    . rw [if_pos hstring] at h
      obtain ⟨⟨size, data'⟩, hsize, h⟩ := bind_ok h
      obtain ⟨⟨desc, data''⟩, hdesc, h⟩ := bind_ok h
      cases h
      obtain ⟨rfl, hlen⟩ := takeBytes_ok hsize
      obtain ⟨rfl, hlen'⟩ := takeBytes_ok hdesc
      rw [weight_append, weight_append] at hone
      rw [cost_shortString hlen hlen']
      omega
    rw [if_neg hstring] at h
    by_cases hobject : type = typeObject
    . rw [if_pos hobject] at h
      obtain ⟨⟨ok, fields, data'⟩, hfields, h⟩ := bind_ok h
      cases h
      have := ih.object hfields
      have hcost : (AmfItem.object fields).cost = 0 := rfl
      omega
    rw [if_neg hobject] at h
    by_cases hnull : type = typeNull
    . rw [if_pos hnull] at h
      cases h
      exact hone
    rw [if_neg hnull] at h
    by_cases hundefined : type = typeUndefined
    . rw [if_pos hundefined] at h
      cases h
      exact hone
    rw [if_neg hundefined] at h
    by_cases hreference : type = typeReference
    . rw [if_pos hreference] at h
      cases h
    rw [if_neg hreference] at h
    by_cases hmixed : type = typeMixedArray
    . rw [if_pos hmixed] at h
      obtain ⟨⟨size, data'⟩, hsize, h⟩ := bind_ok h
      obtain ⟨⟨ok, fields, data''⟩, hfields, h⟩ := bind_ok h
      cases h
      obtain ⟨rfl, hlen⟩ := takeBytes_ok hsize
      have := ih.object hfields
      have hcost : (AmfItem.object fields).cost = 0 := rfl
      rw [weight_append] at hone
      omega
    rw [if_neg hmixed] at h
    by_cases harray : type = typeArray
    . rw [if_pos harray] at h
      obtain ⟨⟨size, data'⟩, hsize, h⟩ := bind_ok h
      obtain ⟨⟨items, data''⟩, hitems, h⟩ := bind_ok h
      cases h
      obtain ⟨rfl, hlen⟩ := takeBytes_ok hsize
      have := ih.array hitems
      have := length_le_weight size
      have hcost : (AmfItem.array items).cost = 4 := rfl
      rw [weight_append] at hone
      omega
    rw [if_neg harray] at h
    by_cases hdate : type = typeDate
    . rw [if_pos hdate] at h
      obtain ⟨⟨value, data'⟩, hvalue, h⟩ := bind_ok h
      cases h
      obtain ⟨rfl, hlen⟩ := takeBytes_ok hvalue
      have := weight_drop_le 2 data'
      have := length_le_weight value
      have hcost : (AmfItem.date (read8Bytes value)).cost = 4 := rfl
      rw [weight_append] at hone
      omega
    rw [if_neg hdate] at h
    by_cases hlong : type = typeLongString
    . rw [if_pos hlong] at h
      obtain ⟨⟨size, data'⟩, hsize, h⟩ := bind_ok h
      obtain ⟨⟨desc, data''⟩, hdesc, h⟩ := bind_ok h
      cases h
      obtain ⟨rfl, hlen⟩ := takeBytes_ok hsize
      obtain ⟨rfl, hlen'⟩ := takeBytes_ok hdesc
      have := cost_longString_le hlen hlen'
      rw [weight_append, weight_append] at hone
      omega
    rw [if_neg hlong] at h
    by_cases hunsupported : type = typeUnsupported
    . rw [if_pos hunsupported] at h
      cases h
      rw [weight_cons, if_pos hunsupported]
      exact Nat.le_refl _
    rw [if_neg hunsupported] at h
    cases h
    have hcost : AmfItem.unknown.cost = 0 := rfl
    omega

theorem decodeAmfArray_weighs {fuel : Nat} (ih : Weighs fuel) {len : Nat} {data left : List UInt8}
    {items : List AmfItem} (h : decodeAmfArray (fuel + 1) len data = .ok (items, left))
    : weight left ≤ weight data := by
  cases len with
  | zero =>
    rw [decodeAmfArray] at h
    cases h
    exact Nat.le_refl _
  | succ len =>
    rw [decodeAmfArray] at h
    obtain ⟨⟨ok, item, data'⟩, hitem, h⟩ := bind_ok h
    have hfirst := ih.item hitem
    cases ok with
    | false =>
      cases h
      omega
    | true =>
      obtain ⟨⟨items', data''⟩, hitems, h⟩ := bind_ok h
      cases h
      have hrest := ih.array hitems
      omega

theorem decodeAmfObject_weighs {fuel : Nat} (ih : Weighs fuel) {data left : List UInt8} {ok : Bool}
    {fields : List (List UInt8 × AmfItem)} (h : decodeAmfObject (fuel + 1) data = .ok (ok, fields, left))
    : fieldsCost fields + weight left ≤ weight data := by
  have hnone : fieldsCost [] = 0 := rfl
  cases data with
  | nil =>
    rw [decodeAmfObject] at h
    cases h
    exact Nat.le_refl _
  | cons b data =>
    rw [decodeAmfObject] at h
    . obtain ⟨⟨size, data'⟩, hsize, h⟩ := bind_ok h
      obtain ⟨hdata, hlen⟩ := takeBytes_ok hsize
      rw [hdata, weight_append]
      simp only at h
      by_cases hend : read2Bytes size = 0
      . rw [if_pos hend] at h
        obtain ⟨⟨marker, _⟩, _, h⟩ := bind_ok h
        simp only at h
        by_cases hmarker : marker = [typeObjectEnd]
        . rw [if_pos hmarker] at h
          cases h
          omega
        . rw [if_neg hmarker] at h
          cases h
      . rw [if_neg hend] at h
        obtain ⟨⟨key, data''⟩, hkey, hvalue⟩ := bind_ok h
        obtain ⟨hdata', hlen'⟩ := takeBytes_ok hkey
        obtain ⟨⟨type, _⟩, _, h⟩ := bind_ok hvalue
        have hcost : weight (encodeKey key) = weight size + weight key := by
          have := read2Bytes_lt size
          rw [encodeKey_eq (by omega), hlen', write2Bytes_read2Bytes hlen, weight_append]
        rw [hdata', weight_append]
        simp only at h
        by_cases htype : typeUnsupported < type.headD 0
        . rw [if_pos htype] at h
          cases h
          omega
        . rw [if_neg htype] at h
          obtain ⟨⟨ok, item, left'⟩, hitem, h⟩ := bind_ok h
          have hfirst := ih.item hitem
          cases ok with
          | false =>
            change Except.ok (false, [], left') = _ at h
            cases h
            omega
          | true =>
            obtain ⟨⟨ok, fields', left''⟩, hfields, h⟩ := bind_ok h
            have hrest : fieldsCost fields' + weight left'' ≤ weight left' := ih.object hfields
            change Except.ok (ok, insertField key item fields', left'') = _ at h
            cases h
            have hinsert := fieldsCost_insertField_le key item fields'
            omega
    . simp

theorem weighs (fuel : Nat) : Weighs fuel := by
  induction fuel with
  | zero =>
    constructor
    . intro data ok item left h
      rw [decode] at h
      cases h
    . intro data ok fields left h
      rw [decodeAmfObject] at h
      cases h
    . intro len data items left h
      rw [decodeAmfArray] at h
      cases h
  | succ fuel ih =>
    constructor
    . intro data ok item left h
      apply decode_weighs ih h
    . intro data ok fields left h
      apply decodeAmfObject_weighs ih h
    . intro len data items left h
      apply decodeAmfArray_weighs ih h

theorem AmfItem.cost_content (item : AmfItem) : item.content.cost = item.cost := by
  cases item with
  | longString desc => rw [AmfItem.content, cost_longString]
  | object fields => rw [AmfItem.content]; rfl
  | mixedArray fields => rw [AmfItem.content]; rfl
  | array items => rw [AmfItem.content]; rfl
  | _ => rw [AmfItem.content] <;> simp

theorem fieldsCost_contentFields (fields : List (List UInt8 × AmfItem))
    : fieldsCost (AmfItem.contentFields fields) = fieldsCost fields := by
  induction fields with
  | nil => rfl
  | cons field fields ih =>
    obtain ⟨key, item⟩ := field
    simp only [fieldsCost, AmfItem.contentFields, List.map_cons, List.sum_cons, AmfItem.cost_content] at ih ⊢
    rw [ih]

theorem cost_eq {item : AmfItem} {value : List UInt8} (h : encodeItem item = some value)
    : weight value ≤ item.cost ∧ (¬item.Writes → weight value + 4 ≤ item.cost) := by
  unfold AmfItem.cost
  rw [h, Option.getD_some]
  refine ⟨Nat.le_add_right .., ?_⟩
  intro hwrites
  cases item with
  | string desc =>
    have hlarge : ¬desc.length < 2 ^ 32 := hwrites
    apply Nat.le_of_eq
    change _ = _ + if desc.length < 2 ^ 32 then 0 else 4
    rw [if_neg hlarge]
  | longString desc =>
    have hlarge : ¬desc.length < 2 ^ 32 := hwrites
    apply Nat.le_of_eq
    change _ = _ + if desc.length < 2 ^ 32 then 0 else 4
    rw [if_neg hlarge]
  | mixedArray _ => exact Nat.le_refl _
  | array _ => exact Nat.le_refl _
  | date _ => exact Nat.le_refl _
  | _ => exact absurd trivial hwrites

theorem weight_encodeFields {fields : List (List UInt8 × AmfItem)} (hok : (encodeFields fields).1 = true)
    : weight (encodeFields fields).2 ≤ fieldsCost fields + 3
        ∧ ((∃ field ∈ fields, ¬field.2.Writes) → weight (encodeFields fields).2 < fieldsCost fields) := by
  induction fields with
  | nil =>
    refine ⟨by decide, ?_⟩
    rintro ⟨_, hmem, _⟩
    cases hmem
  | cons field fields ih =>
    obtain ⟨key, item⟩ := field
    rw [encodeFields] at hok ⊢
    cases hitem : encodeItem item with
    | none =>
      rw [hitem] at hok
      cases hok
    | some value =>
      rw [hitem] at hok
      obtain ⟨hle, hlt⟩ := ih hok
      obtain ⟨hcost, hcost'⟩ := cost_eq hitem
      have hsum : fieldsCost ((key, item) :: fields) = weight (encodeKey key) + item.cost + fieldsCost fields :=
        rfl
      simp only [weight_append]
      refine ⟨by omega, ?_⟩
      rintro ⟨field, hmem, hnot⟩
      cases hmem with
      | head =>
        have := hcost' hnot
        omega
      | tail _ hmem =>
        have := hlt ⟨field, hmem, hnot⟩
        omega

/--
An object round trips if and only if all of its values are written. More bytes than an `int` counts are
not decoded at all.
-/
theorem AmfMap.mapRoundTrips_iff (m : AmfMap) (hok : (encodeObject m.fields).1 = true)
    : m.RoundTrips
        ↔ ((encodeObject m.fields).2.length < 2 ^ 31 → ∀ field ∈ m.fields, field.2.Writes) := by
  constructor
  . intro hround hlen
    obtain ⟨fields, left, hdecode, hcontent⟩ := hround [] (by rwa [List.append_nil])
    rw [List.append_nil, encodeObject] at hdecode
    unfold decodeItem at hdecode
    rw [decode_object] at hdecode
    obtain ⟨⟨ok, fields', left'⟩, hfields, h⟩ := bind_ok hdecode
    cases h
    have hweighs := (weighs _).object hfields
    rw [← fieldsCost_contentFields, hcontent, fieldsCost_contentFields] at hweighs
    intro field hfield
    by_contra hnot
    have := (weight_encodeFields hok).right ⟨field, hfield, hnot⟩
    omega
  . intro hwrites rest hrest
    refine m.roundTrips_of_writes hok (hwrites ?_) rest hrest
    rw [List.length_append] at hrest
    omega

/--
The keys `a` and `b`, with a number under `b`.
-/
def sampleMap (item : AmfItem) (h : item.IsDouble) : AmfMap where
  fields := [([0x61], item), ([0x62], .number 0)]
  sorted := by
    rw [List.pairwise_pair]
    change ([0x61] : List UInt8) < [0x62]
    decide
  keys := by simp
  doubles := by
    intro field hfield
    rw [List.mem_pair] at hfield
    cases hfield with
    | inl hfield =>
      rw [hfield]
      exact h
    | inr hfield =>
      rw [hfield]
      exact Nat.two_pow_pos 64

theorem AmfMap.mapRoundTrips_sample : (sampleMap (.string [0x78, 0x79]) trivial).RoundTrips :=
  (AmfMap.mapRoundTrips_iff (sampleMap (.string [0x78, 0x79]) trivial) rfl).mpr (by
    simp [sampleMap, AmfItem.Writes])

theorem AmfMap.not_mapRoundTrips_date : ¬(sampleMap (.date 0) (Nat.two_pow_pos 64)).RoundTrips := by
  intro hround
  obtain ⟨fields, left, hdecode, _⟩ := hround [] (by decide)
  -- the length of the key `b` is taken for a number, and the assertion fails behind it
  have hfault : decodeItem ((encodeObject (sampleMap (.date 0) (Nat.two_pow_pos 64)).fields).2 ++ [])
      = .error .abort := rfl
  rw [hfault] at hdecode
  cases hdecode

end Weight

end Amf
