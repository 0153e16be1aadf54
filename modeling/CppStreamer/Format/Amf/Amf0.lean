import CppStreamer.Utils.ByteStream

/-!
This module contains the AMF0 values of `amf0.hpp` with their encoder and decoder.

The decoder gets the bytes that are left of a payload, `left_len` is their number.
-/

open ByteStream

namespace Amf

/--
Numbers are kept as the bits of a `double`.
-/
inductive AmfItem where
  | unknown
  | number (bits : Nat)
  | bool (enable : Bool)
  | string (desc : List UInt8)
  | object (fields : List (List UInt8 × AmfItem))
  | null
  | undefined
  | reference
  | mixedArray (fields : List (List UInt8 × AmfItem))
  | objectEnd
  | array (items : List AmfItem)
  | date (bits : Nat)
  | longString (desc : List UInt8)
  | unsupported
  deriving Repr

def typeNumber : UInt8 := 0x00
def typeBool : UInt8 := 0x01
def typeString : UInt8 := 0x02
def typeObject : UInt8 := 0x03
def typeNull : UInt8 := 0x05
def typeUndefined : UInt8 := 0x06
def typeReference : UInt8 := 0x07
def typeMixedArray : UInt8 := 0x08
def typeObjectEnd : UInt8 := 0x09
def typeArray : UInt8 := 0x0a
def typeDate : UInt8 := 0x0b
def typeLongString : UInt8 := 0x0c
def typeUnsupported : UInt8 := 0x0d

/--
The bytes of an ASCII string.
-/
def bytesOf (str : String) : List UInt8 := str.toList.map fun c => UInt8.ofNat c.toNat

section Encoder

def encodeNumber (bits : Nat) : List UInt8 := typeNumber :: write8Bytes bits

def encodeNull : List UInt8 := [typeNull]

def encodeBool (flag : Bool) : List UInt8 := [typeBool, if flag then 1 else 0]

/--
A string behind its marker. The length of a long one is an `uint32_t`, and no more is copied.
-/
def encodeString (str : List UInt8) : List UInt8 :=
  if 0xffff < str.length then
    typeLongString :: write4Bytes str.length ++ str.take (str.length % 2 ^ 32)
  else typeString :: write2Bytes str.length ++ str

def encodeKey (key : List UInt8) : List UInt8 :=
  if 0xffff < key.length then write4Bytes key.length ++ key.take (key.length % 2 ^ 32)
  else write2Bytes key.length ++ key

/--
What is written of a value behind its key, `none` if it is refused.
-/
def encodeItem : AmfItem → Option (List UInt8)
  | .number bits => some (encodeNumber bits)
  | .bool enable => some (encodeBool enable)
  | .string desc => some (encodeString desc)
  | .null => some [typeNull]
  | .undefined => some [typeUndefined]
  | .reference => none
  -- not implemented, and nothing is written
  | .mixedArray _ => some []
  | .array _ => some []
  | .date _ => some []
  | .longString desc => some (encodeString desc)
  | .unsupported => none
  | .unknown | .object _ | .objectEnd => none

/--
Whether all values are written, and the bytes as far as they are.
-/
def encodeFields : List (List UInt8 × AmfItem) → Bool × List UInt8
  | [] => (true, encodeKey [] ++ [typeObjectEnd])
  | (key, item) :: fields =>
    match encodeItem item with
    | some value => ((encodeFields fields).1, encodeKey key ++ (value ++ (encodeFields fields).2))
    | none => (false, encodeKey key)

def encodeObject (fields : List (List UInt8 × AmfItem)) : Bool × List UInt8 :=
  ((encodeFields fields).1, typeObject :: (encodeFields fields).2)

/--
An object of strings, in the order of its keys.
-/
def encodeStrings (fields : List (List UInt8 × List UInt8)) : List UInt8 :=
  typeObject :: fields.flatMap (fun (key, value) => encodeKey key ++ encodeString value)
    ++ encodeKey [] ++ [typeObjectEnd]

end Encoder

/--
Why decoding does not come back: a byte behind the payload is read, an assertion fails, or the loop of
the caller does not end.
-/
inductive AmfFault where
  | overrun
  | abort
  | hang
  deriving DecidableEq, Repr

def takeBytes (len : Nat) (data : List UInt8) : Except AmfFault (List UInt8 × List UInt8) :=
  if len ≤ data.length then .ok (data.take len, data.drop len) else .error .overrun

/--
A map sorted by its keys that gets the field in front of those it was built from: of two fields with
one key, the one that was inserted first stays.
-/
def insertField (key : List UInt8) (item : AmfItem)
    : List (List UInt8 × AmfItem) → List (List UInt8 × AmfItem)
  | [] => [(key, item)]
  | (k, v) :: fields =>
    if k = key then (key, item) :: fields
    else if key < k then (key, item) :: (k, v) :: fields
    else (k, v) :: insertField key item fields

def findField (key : List UInt8) (fields : List (List UInt8 × AmfItem)) : Option AmfItem :=
  (fields.find? fun field => field.1 = key).map Prod.snd

mutual

/--
Whether decoding succeeded, the item as far as it has been filled in, and the bytes behind it.
-/
def decode : Nat → List UInt8 → Except AmfFault (Bool × AmfItem × List UInt8)
  | 0, _ => .error .hang
  | _ + 1, [] => .error .overrun
  | fuel + 1, type :: data =>
    if typeUnsupported < type then .ok (false, .unknown, type :: data)
    else if type = typeNumber then do
      let (value, data) ← takeBytes 8 data
      .ok (true, .number (read8Bytes value), data)
    else if type = typeBool then do
      let (value, data) ← takeBytes 1 data
      .ok (true, .bool (value ≠ [0]), data)
    else if type = typeString then do
      let (len, data) ← takeBytes 2 data
      let (desc, data) ← takeBytes (read2Bytes len) data
      .ok (true, .string desc, data)
    else if type = typeObject then do
      let (ok, fields, data) ← decodeAmfObject fuel data
      .ok (ok, .object fields, data)
    else if type = typeNull then .ok (true, .null, data)
    else if type = typeUndefined then .ok (true, .undefined, data)
    else if type = typeReference then .error .abort
    else if type = typeMixedArray then do
      let (_, data) ← takeBytes 4 data
      let (ok, fields, data) ← decodeAmfObject fuel data
      .ok (ok, .object fields, data)
    else if type = typeArray then do
      let (len, data) ← takeBytes 4 data
      let (items, data) ← decodeAmfArray fuel (read4Bytes len) data
      .ok (true, .array items, data)
    else if type = typeDate then do
      let (value, data) ← takeBytes 8 data
      -- the time zone is skipped without being read
      .ok (true, .date (read8Bytes value), data.drop 2)
    else if type = typeLongString then do
      let (len, data) ← takeBytes 4 data
      let (desc, data) ← takeBytes (read4Bytes len) data
      .ok (true, .longString desc, data)
    else if type = typeUnsupported then .ok (true, .longString [], data)
    else .ok (false, .unknown, data)

/--
The marker at the end of an object is looked at and left where it is.
-/
def decodeAmfObject
    : Nat → List UInt8 → Except AmfFault (Bool × List (List UInt8 × AmfItem) × List UInt8)
  | 0, _ => .error .hang
  | _ + 1, [] => .ok (true, [], [])
  | fuel + 1, data => do
    let (keyLen, data) ← takeBytes 2 data
    if read2Bytes keyLen = 0 then
      let (marker, _) ← takeBytes 1 data
      if marker = [typeObjectEnd] then .ok (true, [], data) else .error .abort
    else
      let (key, data) ← takeBytes (read2Bytes keyLen) data
      let (type, _) ← takeBytes 1 data
      if typeUnsupported < type.headD 0 then .ok (false, [], data)
      else
        let (ok, item, data) ← decode fuel data
        if ok then
          let (ok, fields, data) ← decodeAmfObject fuel data
          .ok (ok, insertField key item fields, data)
        else .ok (false, [], data)

/--
An item that is not decoded ends the array, which is decoded all the same.
-/
def decodeAmfArray : Nat → Nat → List UInt8 → Except AmfFault (List AmfItem × List UInt8)
  | 0, _, _ => .error .hang
  | _ + 1, 0, data => .ok ([], data)
  | fuel + 1, len + 1, data => do
    let (ok, item, data) ← decode fuel data
    if ok then
      let (items, data) ← decodeAmfArray fuel len data
      .ok (item :: items, data)
    else .ok ([], data)

end

def decodeItem (data : List UInt8) : Except AmfFault (Bool × AmfItem × List UInt8) :=
  decode (2 * data.length + 2) data

end Amf
