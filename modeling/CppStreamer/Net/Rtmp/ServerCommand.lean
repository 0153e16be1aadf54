import CppStreamer.Format.Amf.Values
import CppStreamer.Net.Rtmp.ClientSession

/-!
This module contains the values of a command message as `HandleServerCommandMessage` gets them.
-/

namespace Rtmp

open Amf

def serializeAll (values : List AmfValue) : List UInt8 := values.flatMap AmfValue.serialize

/--
Every value is decoded as it is in front of any bytes, and a message of the values is decoded to them.
-/
structure Faithful (values : List AmfValue) : Prop where
  decodes : ∀ value ∈ values, value.Decodes
  items : decodeItems (serializeAll values).length (serializeAll values) = .ok (values.map AmfValue.item)

theorem decodeItems_serializeAll {values : List AmfValue} (hplain : ∀ value ∈ values, value.Plain)
    (hlen : (serializeAll values).length < 2 ^ 31) {fuel : Nat}
    (hfuel : (serializeAll values).length ≤ fuel)
    : decodeItems fuel (serializeAll values) = .ok (values.map AmfValue.item) := by
  induction values generalizing fuel with
  | nil =>
    unfold serializeAll
    rw [List.flatMap_nil, decodeItems]
    rfl
  | cons value values ih =>
    have hpos := value.serialize_pos
    have happend : serializeAll (value :: values) = value.serialize ++ serializeAll values :=
      List.flatMap_cons
    have hvalue := AmfValue.Decodes.of_plain (hplain value List.mem_cons_self) (serializeAll values)
      (by rw [← happend]; exact hlen)
    rw [happend, List.length_append] at hfuel hlen
    obtain ⟨fuel, rfl⟩ := Nat.exists_eq_add_one_of_ne_zero (n := fuel) (by omega)
    have hvalues : decodeItems fuel (serializeAll values) = .ok (values.map AmfValue.item) :=
      ih (fun v hv => hplain v (List.mem_cons_of_mem _ hv)) (by omega) (by omega)
    have hne : value.serialize ++ serializeAll values ≠ [] := by
      intro hnil
      rw [List.append_eq_nil_iff] at hnil
      rw [hnil.1] at hpos
      exact Nat.lt_irrefl _ hpos
    have hless : (serializeAll values).length < (value.serialize ++ serializeAll values).length := by
      rw [List.length_append]
      omega
    rw [happend, decodeItems]
    . rw [hvalue]
      simp only [if_pos hless, hvalues, List.map_cons]
      rfl
    . exact hne

/--
The values of a message come out as they are if and only if there is no object and no ECMA array in them,
because the marker at the end of an object is not consumed.
-/
theorem faithful_iff (values : List AmfValue) (hlen : (serializeAll values).length + 1 < 2 ^ 31)
    : Faithful values ↔ ∀ value ∈ values, value.Plain := by
  constructor
  . intro h value hvalue
    apply (h.decodes value hvalue).plain
    have hle : value.serialize.length ≤ (serializeAll values).length :=
      (List.sublist_flatten_of_mem (List.mem_map_of_mem hvalue)).length_le
    omega
  . intro h
    constructor
    . exact fun value hvalue => .of_plain (h value hvalue)
    . exact decodeItems_serializeAll h (by omega) (Nat.le_refl _)

/--
A strict array in a strict array, and a date.
-/
def sampleValues : List AmfValue :=
  [.strictArray [.bool 7, .strictArray [.string ⟨[97], by decide⟩, .null]], .date 0 60]

theorem faithful_sample : Faithful sampleValues := by
  apply (faithful_iff sampleValues (by decide)).mpr
  intro value hvalue
  simp only [sampleValues, List.mem_cons, List.not_mem_nil, or_false] at hvalue
  rcases hvalue with rfl | rfl
  . exact ⟨trivial, ⟨trivial, trivial, trivial⟩, trivial⟩
  . trivial

/--
Behind an object there is an item that nobody sent.
-/
theorem not_faithful : ¬ ∀ values : List AmfValue, Faithful values := by
  intro h
  have hitems := (h [.object [(⟨[97], by decide⟩, .null)]]).items
  have hdecode : decodeItems 8 [3, 0, 1, 97, 5, 0, 0, 9] = .ok [.object [([97], .null)], .unknown] := rfl
  have hsame := hdecode.symm.trans hitems
  cases hsame

end Rtmp
