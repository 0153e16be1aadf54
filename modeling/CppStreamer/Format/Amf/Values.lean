import CppStreamer.Format.Amf.RoundTrip

/-!
This module contains the values of AMF0 as the format has them, their serialisation, and which of them
`AMF_Decoder` reads as they are.
-/

open ByteStream

namespace Amf

/--
A string with a length of two bytes in front.
-/
structure ShortString where
  bytes : List UInt8
  length_lt : bytes.length < 2 ^ 16

/--
A value of the format. A byte other than 0 is true, an ECMA array may announce any number of fields, and a
date has a time zone.
-/
inductive AmfValue where
  | number (bits : UInt64)
  | bool (enable : UInt8)
  | string (desc : ShortString)
  | longString (desc : List UInt8)
  | null
  | undefined
  | object (fields : List (ShortString × AmfValue))
  | ecmaArray (count : UInt32) (fields : List (ShortString × AmfValue))
  | strictArray (items : List AmfValue)
  | date (bits : UInt64) (zone : UInt16)

namespace AmfValue

mutual

def serialize : AmfValue → List UInt8
  | number bits => typeNumber :: write8Bytes bits.toNat
  | bool enable => [typeBool, enable]
  | string desc => typeString :: (write2Bytes desc.bytes.length ++ desc.bytes)
  | longString desc => typeLongString :: (write4Bytes desc.length ++ desc)
  | null => [typeNull]
  | undefined => [typeUndefined]
  | object fields => typeObject :: serializeFields fields
  | ecmaArray count fields => typeMixedArray :: (write4Bytes count.toNat ++ serializeFields fields)
  | strictArray items => typeArray :: (write4Bytes items.length ++ serializeItems items)
  | date bits zone => typeDate :: (write8Bytes bits.toNat ++ write2Bytes zone.toNat)

/--
The fields and the marker at their end.
-/
def serializeFields : List (ShortString × AmfValue) → List UInt8
  | [] => [0, 0, typeObjectEnd]
  | (key, value) :: fields =>
    write2Bytes key.bytes.length ++ (key.bytes ++ (value.serialize ++ serializeFields fields))

def serializeItems : List AmfValue → List UInt8
  | [] => []
  | value :: values => value.serialize ++ serializeItems values

end

mutual

/--
The item that stands for a value. An ECMA array is an object, and a time zone is left out.
-/
def item : AmfValue → AmfItem
  | number bits => .number bits.toNat
  | bool enable => .bool (enable ≠ 0)
  | string desc => .string desc.bytes
  | longString desc => .longString desc
  | null => .null
  | undefined => .undefined
  | object fields => .object (itemFields fields)
  | ecmaArray _ fields => .object (itemFields fields)
  | strictArray values => .array (items values)
  | date bits _ => .date bits.toNat

def itemFields : List (ShortString × AmfValue) → List (List UInt8 × AmfItem)
  | [] => []
  | (key, value) :: fields => insertField key.bytes value.item (itemFields fields)

def items : List AmfValue → List AmfItem
  | [] => []
  | value :: values => value.item :: items values

end

mutual

/--
There is no object and no ECMA array in the value.
-/
def Plain : AmfValue → Prop
  | object _ => False
  | ecmaArray _ _ => False
  | strictArray values => PlainItems values
  | _ => True

def PlainItems : List AmfValue → Prop
  | [] => True
  | value :: values => value.Plain ∧ PlainItems values

end

/--
Decoding the value in front of any bytes gives the value and leaves these bytes, as long as an `int` can
count all of them.
-/
def Decodes (v : AmfValue) : Prop :=
  ∀ rest, (v.serialize ++ rest).length < 2 ^ 31 →
    decodeItem (v.serialize ++ rest) = .ok (true, v.item, rest)

theorem serialize_pos (v : AmfValue) : 0 < v.serialize.length := by
  cases v
  all_goals
    unfold serialize
    exact Nat.succ_pos _

theorem length_le_serializeItems (values : List AmfValue)
    : values.length ≤ (serializeItems values).length := by
  induction values with
  | nil => exact Nat.zero_le _
  | cons value values ih =>
    have hpos := value.serialize_pos
    rw [serializeItems, List.length_cons, List.length_append]
    omega

end AmfValue

section Decode

theorem decode_bool (fuel : Nat) (data : List UInt8)
    : decode (fuel + 1) (typeBool :: data) = (do
        let (value, data) ← takeBytes 1 data
        .ok (true, .bool (value ≠ [0]), data)) := rfl

theorem decode_array (fuel : Nat) (data : List UInt8)
    : decode (fuel + 1) (typeArray :: data) = (do
        let (len, data) ← takeBytes 4 data
        let (items, data) ← decodeAmfArray fuel (read4Bytes len) data
        .ok (true, .array items, data)) := rfl

theorem decode_mixedArray (fuel : Nat) (data : List UInt8)
    : decode (fuel + 1) (typeMixedArray :: data) = (do
        let (_, data) ← takeBytes 4 data
        let (ok, fields, data) ← decodeAmfObject fuel data
        .ok (ok, .object fields, data)) := rfl

theorem decode_date (fuel : Nat) (data : List UInt8)
    : decode (fuel + 1) (typeDate :: data) = (do
        let (value, data) ← takeBytes 8 data
        .ok (true, .date (read8Bytes value), data.drop 2)) := rfl

theorem decode_objectEnd (fuel : Nat) (data : List UInt8)
    : decode (fuel + 1) (typeObjectEnd :: data) = .ok (false, .unknown, data) := rfl

namespace AmfValue

mutual

theorem decode_serialize (v : AmfValue) (h : v.Plain) {fuel : Nat} (hfuel : v.serialize.length ≤ fuel)
    (hlen : v.serialize.length < 2 ^ 32) (rest : List UInt8)
    : decode fuel (v.serialize ++ rest) = .ok (true, v.item, rest) := by
  obtain ⟨fuel, rfl⟩ := Nat.exists_eq_add_one_of_ne_zero
    (Nat.ne_zero_of_lt (Nat.lt_of_lt_of_le v.serialize_pos hfuel))
  cases v with
  | number bits =>
    rw [serialize, item]
    exact decode_encodeNumber fuel bits.toNat_lt rest
  | bool enable =>
    have hvalue : takeBytes 1 (enable :: rest) = .ok ([enable], rest) :=
      takeBytes_append 1 [enable] rfl rest
    rw [serialize, item, List.cons_append, List.cons_append, List.nil_append, decode_bool, hvalue]
    simp only [bind, Except.bind, ne_eq, List.cons.injEq, and_true]
  | string desc =>
    have hsize := takeBytes_append 2 (write2Bytes desc.bytes.length) rfl (desc.bytes ++ rest)
    rw [serialize, item, List.cons_append, List.append_assoc, decode_string, hsize]
    simp only [bind, Except.bind, read2Bytes_write2Bytes_of_lt desc.length_lt,
      takeBytes_append _ _ rfl rest]
  | longString desc =>
    have hsize := takeBytes_append 4 (write4Bytes desc.length) rfl (desc ++ rest)
    rw [serialize, List.length_cons, List.length_append, length_write4Bytes] at hlen
    have hdesc : desc.length < 2 ^ 32 := by omega
    rw [serialize, item, List.cons_append, List.append_assoc, decode_longString, hsize]
    simp only [bind, Except.bind, read4Bytes_write4Bytes_of_lt hdesc, takeBytes_append _ _ rfl rest]
  | null =>
    rw [serialize, item]
    rfl
  | undefined =>
    rw [serialize, item]
    rfl
  | object fields => cases h
  | ecmaArray count fields => cases h
  | strictArray values =>
    rw [serialize, List.length_cons, List.length_append, length_write4Bytes] at hfuel hlen
    have hcount := length_le_serializeItems values
    have hsize := takeBytes_append 4 (write4Bytes values.length) rfl (serializeItems values ++ rest)
    have hitems : decodeAmfArray fuel values.length (serializeItems values ++ rest)
        = .ok (items values, rest) :=
      decodeAmfArray_serializeItems values h (by omega) (by omega) rest
    have hread : read4Bytes (write4Bytes values.length) = values.length :=
      read4Bytes_write4Bytes_of_lt (by omega)
    rw [serialize, item, List.cons_append, List.append_assoc, decode_array, hsize]
    simp only [bind, Except.bind, hread, hitems]
  | date bits zone =>
    have hvalue := takeBytes_append 8 (write8Bytes bits.toNat) rfl (write2Bytes zone.toNat ++ rest)
    rw [serialize, item, List.cons_append, List.append_assoc, decode_date, hvalue]
    simp only [bind, Except.bind, read8Bytes_write8Bytes bits.toNat_lt]
    rfl

theorem decodeAmfArray_serializeItems (values : List AmfValue) (h : PlainItems values) {fuel : Nat}
    (hfuel : (serializeItems values).length < fuel) (hlen : (serializeItems values).length < 2 ^ 32)
    (rest : List UInt8)
    : decodeAmfArray fuel values.length (serializeItems values ++ rest) = .ok (items values, rest) := by
  obtain ⟨fuel, rfl⟩ := Nat.exists_eq_add_one_of_ne_zero (Nat.ne_zero_of_lt hfuel)
  cases values with
  | nil =>
    rw [serializeItems, items]
    rfl
  | cons value values =>
    rw [serializeItems, List.length_append] at hfuel hlen
    have hpos := value.serialize_pos
    have hvalue : decode fuel (value.serialize ++ (serializeItems values ++ rest))
        = .ok (true, value.item, serializeItems values ++ rest) :=
      decode_serialize value h.1 (by omega) (by omega) _
    have hvalues : decodeAmfArray fuel values.length (serializeItems values ++ rest)
        = .ok (items values, rest) :=
      decodeAmfArray_serializeItems values h.2 (by omega) (by omega) rest
    rw [serializeItems, items, List.append_assoc, List.length_cons, decodeAmfArray, hvalue]
    simp only [bind, Except.bind, if_true, hvalues]

end

end AmfValue

end Decode

section Objects

/--
Nothing is left, or the marker of the end of an object is what comes next.
-/
def AtObjectEnd (left : List UInt8) : Prop := left = [] ∨ left.head? = some typeObjectEnd

theorem decodeAmfObject_left {fuel : Nat} {data left : List UInt8}
    {fields : List (List UInt8 × AmfItem)} (h : decodeAmfObject fuel data = .ok (true, fields, left))
    : AtObjectEnd left := by
  induction fuel generalizing data fields with
  | zero =>
    rw [decodeAmfObject] at h
    cases h
  | succ fuel ih =>
    cases data with
    | nil =>
      rw [decodeAmfObject] at h
      cases h
      exact .inl rfl
    | cons b data =>
      rw [decodeAmfObject] at h
      . obtain ⟨⟨keyLen, data⟩, _, h⟩ := bind_ok h
        simp only at h
        split at h
        . obtain ⟨⟨marker, tail⟩, hmarker, h⟩ := bind_ok h
          simp only at h
          split at h
          . next hend =>
            have hdata := (takeBytes_ok hmarker).1
            cases h
            rw [hdata, hend]
            exact .inr rfl
          . cases h
        . obtain ⟨⟨key, data⟩, _, h⟩ := bind_ok h
          obtain ⟨⟨type, tail⟩, _, h⟩ := bind_ok h
          simp only at h
          split at h
          . cases h
          . obtain ⟨⟨ok, item, data⟩, _, h⟩ := bind_ok h
            simp only at h
            split at h
            . obtain ⟨⟨ok, fields, data⟩, hrest, h⟩ := bind_ok h
              cases h
              exact ih hrest
            . cases h
      . exact List.cons_ne_nil _ _

/--
No item of an array is read where an object ended.
-/
theorem decodeAmfArray_atObjectEnd {fuel len : Nat} {data left : List UInt8} {values : List AmfItem}
    (hdata : AtObjectEnd data) (h : decodeAmfArray fuel (len + 1) data = .ok (values, left))
    : values = [] := by
  cases fuel with
  | zero =>
    rw [decodeAmfArray] at h
    cases h
  | succ fuel =>
    rw [decodeAmfArray] at h
    obtain ⟨⟨ok, item, left'⟩, hitem, h⟩ := bind_ok h
    cases fuel with
    | zero =>
      rw [decode] at hitem
      cases hitem
    | succ fuel =>
      rcases hdata with hdata | hdata
      . rw [hdata, decode] at hitem
        cases hitem
      . obtain ⟨tail, rfl⟩ := List.head?_eq_some_iff.mp hdata
        rw [decode_objectEnd] at hitem
        cases hitem
        cases h
        rfl

namespace AmfValue

mutual

/--
When a value with an object in it comes out as it was written, the marker of the end of an object is what
comes next.
-/
theorem left_of_not_plain (v : AmfValue) (h : ¬ v.Plain) {fuel : Nat} (hfuel : v.serialize.length ≤ fuel)
    (hlen : v.serialize.length < 2 ^ 32) {rest left : List UInt8}
    (hdecode : decode fuel (v.serialize ++ rest) = .ok (true, v.item, left)) : AtObjectEnd left := by
  obtain ⟨fuel, rfl⟩ := Nat.exists_eq_add_one_of_ne_zero
    (Nat.ne_zero_of_lt (Nat.lt_of_lt_of_le v.serialize_pos hfuel))
  cases v with
  | object fields =>
    rw [serialize, List.cons_append, decode_object] at hdecode
    obtain ⟨⟨ok, fields', left'⟩, hobject, hdecode⟩ := bind_ok hdecode
    cases hdecode
    exact decodeAmfObject_left hobject
  | ecmaArray count fields =>
    rw [serialize, List.cons_append, decode_mixedArray] at hdecode
    obtain ⟨⟨count', data⟩, _, hdecode⟩ := bind_ok hdecode
    obtain ⟨⟨ok, fields', left'⟩, hobject, hdecode⟩ := bind_ok hdecode
    cases hdecode
    exact decodeAmfObject_left hobject
  | strictArray values =>
    rw [serialize, List.length_cons, List.length_append, length_write4Bytes] at hfuel hlen
    have hcount := length_le_serializeItems values
    have hsize := takeBytes_append 4 (write4Bytes values.length) rfl (serializeItems values ++ rest)
    have hread : read4Bytes (write4Bytes values.length) = values.length :=
      read4Bytes_write4Bytes_of_lt (by omega)
    rw [serialize, item, List.cons_append, List.append_assoc, decode_array, hsize] at hdecode
    obtain ⟨⟨len, data⟩, hcut, hdecode⟩ := bind_ok hdecode
    cases hcut
    obtain ⟨⟨values', left'⟩, hvalues, hdecode⟩ := bind_ok hdecode
    rw [hread] at hvalues
    cases hdecode
    exact left_of_not_plainItems values h (by omega) (by omega) hvalues
  | _ => exact absurd trivial h

theorem left_of_not_plainItems (values : List AmfValue) (h : ¬ PlainItems values) {fuel : Nat}
    (hfuel : (serializeItems values).length < fuel) (hlen : (serializeItems values).length < 2 ^ 32)
    {rest left : List UInt8}
    (hdecode : decodeAmfArray fuel values.length (serializeItems values ++ rest) = .ok (items values, left))
    : AtObjectEnd left := by
  obtain ⟨fuel, rfl⟩ := Nat.exists_eq_add_one_of_ne_zero (Nat.ne_zero_of_lt hfuel)
  cases values with
  | nil => exact absurd trivial h
  | cons value values =>
    have hpos := value.serialize_pos
    rw [serializeItems, List.length_append] at hfuel hlen
    rw [serializeItems, items, List.append_assoc, List.length_cons, decodeAmfArray] at hdecode
    obtain ⟨⟨ok, item', left'⟩, hitem, hdecode⟩ := bind_ok hdecode
    cases ok with
    | false => cases hdecode
    | true =>
      simp only [if_true] at hdecode
      obtain ⟨⟨items', left''⟩, hitems, hdecode⟩ := bind_ok hdecode
      cases hdecode
      by_cases hplain : value.Plain
      . rw [decode_serialize value hplain (by omega) (by omega)] at hitem
        cases hitem
        have hrest : ¬ PlainItems values := fun hvalues => h ⟨hplain, hvalues⟩
        exact left_of_not_plainItems values hrest (by omega) (by omega) hitems
      . -- the object in the value ends it, and there is no item behind
        have hend := left_of_not_plain value hplain (by omega) (by omega) hitem
        cases values with
        | nil =>
          obtain ⟨fuel, rfl⟩ := Nat.exists_eq_add_one_of_ne_zero (n := fuel) (by omega)
          rw [List.length_nil, decodeAmfArray] at hitems
          cases hitems
          exact hend
        | cons next values =>
          have hnone := decodeAmfArray_atObjectEnd hend hitems
          rw [items] at hnone
          cases hnone

end

theorem Decodes.of_plain {v : AmfValue} (h : v.Plain) : v.Decodes := by
  intro rest hlen
  rw [List.length_append] at hlen
  unfold decodeItem
  apply decode_serialize v h
  . rw [List.length_append]
    omega
  . omega

/--
A byte that is no marker behind the value tells whether the marker of the end was read.
-/
theorem Decodes.plain {v : AmfValue} (h : v.Decodes) (hlen : v.serialize.length + 1 < 2 ^ 31)
    : v.Plain := by
  apply Classical.byContradiction
  intro hplain
  have hdecode := h [typeNull] (by rw [List.length_append]; exact hlen)
  have hend := left_of_not_plain v hplain (by rw [List.length_append]; omega) (by omega) hdecode
  rcases hend with hend | hend
  . cases hend
  . cases hend

end AmfValue

end Objects

end Amf
