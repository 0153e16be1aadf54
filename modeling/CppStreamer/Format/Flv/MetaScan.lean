import CppStreamer.Format.Flv.Demux

/-!
This module contains `DecodeMetaData` with everything that it reads, and the metadata that it reads without leaving
the tag and without a failing assertion.
-/

open Scan

namespace Flv

section Scanners

variable (mem : Nat → UInt8)

/--
Whether the next value counts as a key.
-/
def nextIsKey (isKey : Bool) : Amf.AmfItem → Bool
  | .string _ => !isKey
  | .longString _ => !isKey
  | _ => true

/--
The type behind a value decides about a comma.
-/
def peekNextType (isKey : Bool) : Scanner Unit := do
  if 0 < (← .left) ∧ isKey then
    let _ ← Scanner.peek mem 1
    return ()
  else return ()

def scanMetaItems (depth : Nat) : Nat → Bool → Scanner Unit
  | 0, _ => .stop
  | fuel + 1, isKey => do
    if 1 < (← .left) then
      let (ok, item) ← Amf.decodeAt mem depth
      if ok then
        peekNextType mem (nextIsKey isKey item)
        scanMetaItems depth fuel (nextIsKey isKey item)
      else return ()
    else return ()

def scanMetaData (fuel : Nat) : Scanner Bool := do
  let (ok, item) ← Amf.decodeAt mem fuel
  if ok then
    peekNextType mem (nextIsKey true item)
    match item with
    | .string _ =>
      scanMetaItems mem fuel fuel false
      return true
    | _ => return false
  else return true

end Scanners

section Outcome

variable {mem : Nat → UInt8}

theorem peekNextType_outcome (isKey : Bool) (c : Cursor) : (peekNextType mem isKey c).2 = some ((), c) := by
  unfold peekNextType
  rw [bind_outcome]
  change ((if _ then _ else _ : Scanner Unit) c).2 = _
  split
  . rfl
  . rfl

theorem scanMetaItems_outcome (depth fuel : Nat) (isKey : Bool) (c : Cursor)
    : (scanMetaItems mem depth fuel isKey c).2 = (FlvDemuxer.decodeMetaItems mem depth fuel c).2 := by
  induction fuel generalizing isKey c with
  | zero => rfl
  | succ fuel ih =>
    rw [scanMetaItems, FlvDemuxer.decodeMetaItems, bind_outcome, bind_outcome]
    change ((if _ then _ else _ : Scanner Unit) c).2 = ((if _ then _ else _ : Scanner Unit) c).2
    split
    . rw [bind_outcome, bind_outcome]
      congr 1
      funext ⟨⟨ok, item⟩, c'⟩
      cases ok with
      | false => rfl
      | true =>
        change (((peekNextType mem _) >>= fun _ => scanMetaItems mem depth fuel _) c').2 = _
        rw [bind_outcome, peekNextType_outcome]
        exact ih _ c'
    . rfl

/--
What is looked at to write the commas does not count for the outcome.
-/
theorem scanMetaData_outcome (fuel : Nat) (c : Cursor)
    : (scanMetaData mem fuel c).2 = (FlvDemuxer.decodeMetaData mem fuel c).2 := by
  rw [scanMetaData, FlvDemuxer.decodeMetaData, bind_outcome, bind_outcome]
  congr 1
  funext ⟨⟨ok, item⟩, c'⟩
  cases ok with
  | false => rfl
  | true =>
    change (((peekNextType mem _) >>= fun _ => _) c').2 = _
    rw [bind_outcome, peekNextType_outcome]
    cases item with
    | string desc =>
      change ((scanMetaItems mem fuel fuel false >>= fun _ => pure true) c').2
        = ((FlvDemuxer.decodeMetaItems mem fuel fuel >>= fun _ => pure true) c').2
      rw [bind_outcome, bind_outcome, scanMetaItems_outcome]
    | _ => rfl

theorem safe_of_peekNextType {α : Type} {total : Nat} {isKey : Bool} {f : Unit → Scanner α} {c : Cursor}
    (h : Safe total (peekNextType mem isKey >>= f) c) : Safe total (f ()) c :=
  (safe_bind.mp h).right () c (peekNextType_outcome isKey c)

theorem scanMetaItems_safe {total depth fuel : Nat} {isKey : Bool} {c : Cursor}
    (h : Safe total (scanMetaItems mem depth fuel isKey) c)
    : Safe total (FlvDemuxer.decodeMetaItems mem depth fuel) c := by
  induction fuel generalizing isKey c with
  | zero => exact h
  | succ fuel ih =>
    rw [scanMetaItems] at h
    rw [FlvDemuxer.decodeMetaItems]
    change Safe total (if 1 < c.left then _ else _) c at h
    change Safe total (if 1 < c.left then _ else _) c
    by_cases hleft : 1 < c.left
    . rw [if_pos hleft] at h ⊢
      obtain ⟨hvalue, hrest⟩ := safe_bind.mp h
      refine safe_bind.mpr ⟨hvalue, ?_⟩
      rintro ⟨ok, item⟩ c' hout
      have hnext := hrest _ _ hout
      cases ok with
      | false => exact hnext
      | true => exact ih (safe_of_peekNextType hnext)
    . rw [if_neg hleft] at h ⊢
      exact h

theorem scanMetaData_safe {total fuel : Nat} {c : Cursor} (h : Safe total (scanMetaData mem fuel) c)
    : Safe total (FlvDemuxer.decodeMetaData mem fuel) c := by
  rw [scanMetaData] at h
  rw [FlvDemuxer.decodeMetaData]
  obtain ⟨hvalue, hrest⟩ := safe_bind.mp h
  refine safe_bind.mpr ⟨hvalue, ?_⟩
  rintro ⟨ok, item⟩ c' hout
  have hnext := hrest _ _ hout
  cases ok with
  | false => exact hnext
  | true =>
    have hnext := safe_of_peekNextType hnext
    cases item with
    | string desc =>
      obtain ⟨hitems, hdone⟩ := safe_bind.mp hnext
      refine safe_bind.mpr ⟨scanMetaItems_safe hitems, ?_⟩
      intro a c'' _
      exact safe_pure _ _
    | _ => exact safe_pure _ _

end Outcome

section Inside

open Amf

/--
The values behind the first one contain all that is announced in them, up to one that is refused or to the last
byte.
-/
inductive MetaItems : List UInt8 → Prop where
  | done {data : List UInt8} (hlen : data.length ≤ 1) : MetaItems data
  | refused {data left : List UInt8} (hlen : 1 < data.length) (hvalue : Complete .value data (some (false, left)))
      : MetaItems data
  | value {data left : List UInt8} (hlen : 1 < data.length) (hvalue : Complete .value data (some (true, left)))
      (hrest : MetaItems left) : MetaItems data

/--
The first value is complete, and so are those behind it if it is a string.
-/
def MetaComplete (data : List UInt8) : Prop :=
  ∃ ok left, Complete .value data (some (ok, left))
    ∧ (ok = true → data.head? = some typeString → MetaItems left)

variable {mem : Nat → UInt8} {total : Nat} {data : List UInt8}

theorem peekNextType_returns (hholds : Holds mem total data) (isKey : Bool)
    : Returns total (peekNextType mem isKey) (cursor total data) := by
  unfold peekNextType
  rw [returns_left_bind]
  split
  . next hleft =>
    rw [returns_peek_bind hholds]
    exact ⟨by omega, returns_pure _ _⟩
  . exact returns_pure _ _

theorem returns_peekNextType_bind {α : Type} (hholds : Holds mem total data) (isKey : Bool) {f : Unit → Scanner α}
    : Returns total (peekNextType mem isKey >>= f) (cursor total data) ↔ Returns total (f ()) (cursor total data) := by
  rw [returns_bind]
  constructor
  . rintro ⟨-, hrest⟩
    exact hrest () _ (peekNextType_outcome isKey _)
  . intro h
    refine ⟨peekNextType_returns hholds isKey, ?_⟩
    intro a c' hout
    rw [peekNextType_outcome] at hout
    cases hout
    exact h

theorem scanMetaItems_returns (htotal : total < 2 ^ 31) {depth fuel : Nat} {isKey : Bool}
    (hholds : Holds mem total data) (hdepth : 2 * data.length < depth) (hfuel : data.length < fuel)
    : Returns total (scanMetaItems mem depth fuel isKey) (cursor total data) ↔ MetaItems data := by
  induction fuel generalizing data isKey with
  | zero => exact absurd hfuel (Nat.not_lt_zero _)
  | succ fuel ih =>
    rw [scanMetaItems, returns_left_bind]
    by_cases hlen : 1 < data.length
    . rw [if_pos (by omega), returns_decodeAt_bind htotal hholds hdepth]
      constructor
      . rintro ⟨ok, item, left, hvalue, hleft, -, hrest⟩
        cases ok with
        | false => exact .refused hlen hvalue
        | true =>
          have hlt := hvalue.length_lt
          simp only [if_true] at hrest
          rw [returns_peekNextType_bind hleft, ih hleft (by omega) (by omega)] at hrest
          exact .value hlen hvalue hrest
      . intro h
        cases h with
        | done hshort => omega
        | @refused _ left _ hvalue =>
          obtain ⟨item, hleft, hout⟩ := hvalue.decodeAt_eq htotal hholds hdepth
          exact ⟨false, item, left, hvalue, hleft, hout, returns_pure _ _⟩
        | @value _ left _ hvalue hrest =>
          obtain ⟨item, hleft, hout⟩ := hvalue.decodeAt_eq htotal hholds hdepth
          have hlt := hvalue.length_lt
          refine ⟨true, item, left, hvalue, hleft, hout, ?_⟩
          simp only [if_true]
          rw [returns_peekNextType_bind hleft, ih hleft (by omega) (by omega)]
          exact hrest
    . rw [if_neg (by omega)]
      apply iff_of_true
      . exact returns_pure _ _
      . exact .done (by omega)

/--
`DecodeMetaData` stays inside the tag and comes back where the metadata is complete.
-/
theorem scanMetaData_returns (htotal : total < 2 ^ 31) {fuel : Nat} (hholds : Holds mem total data)
    (hfuel : 2 * data.length < fuel)
    : Returns total (scanMetaData mem fuel) (cursor total data) ↔ MetaComplete data := by
  rw [scanMetaData, returns_decodeAt_bind htotal hholds hfuel]
  constructor
  . rintro ⟨ok, item, left, hvalue, hleft, hout, hrest⟩
    refine ⟨ok, left, hvalue, ?_⟩
    rintro rfl hstring
    obtain ⟨type, tail, rfl⟩ : ∃ type tail, data = type :: tail := by
      cases data with
      | nil => cases hstring
      | cons type tail => exact ⟨type, tail, rfl⟩
    obtain ⟨desc, rfl⟩ := (decodeAt_string hholds hout).mpr (Option.some.inj hstring)
    have hlt := hvalue.length_lt
    simp only [if_true] at hrest
    rw [returns_peekNextType_bind hleft] at hrest
    exact (scanMetaItems_returns htotal hleft (by omega) (by omega)).mp (returns_bind.mp hrest).left
  . rintro ⟨ok, left, hvalue, hitems⟩
    obtain ⟨item, hleft, hout⟩ := hvalue.decodeAt_eq htotal hholds hfuel
    refine ⟨ok, item, left, hvalue, hleft, hout, ?_⟩
    cases ok with
    | false => exact returns_pure _ _
    | true =>
      have hlt := hvalue.length_lt
      simp only [if_true]
      rw [returns_peekNextType_bind hleft]
      cases item with
      | string desc =>
        have hstring : data.head? = some typeString := by
          cases data with
          | nil => cases hvalue
          | cons type tail => exact congrArg some ((decodeAt_string hholds hout).mp ⟨desc, rfl⟩)
        apply returns_bind.mpr
        refine ⟨(scanMetaItems_returns htotal hleft (by omega) (by omega)).mpr (hitems rfl hstring), ?_⟩
        intro _ _ _
        exact returns_pure _ _
      | _ => exact returns_pure _ _

end Inside

end Flv
