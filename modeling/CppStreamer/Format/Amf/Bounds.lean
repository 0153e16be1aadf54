import CppStreamer.Basic.Scan
import CppStreamer.Format.Amf.Values

/-!
This module contains `AMF_Decoder` with its pointer and the count of the bytes left, and the buffers in which
it stays inside the bytes that are left.
-/

open ByteStream Scan

namespace Amf

section Decoder

variable (mem : Nat → UInt8)

/--
The branches of `Decode` behind the type.
-/
def decodeBody (type : UInt8) (decodeAmfObject : Scanner (Bool × List (List UInt8 × AmfItem)))
    (decodeAmfArray : Nat → Scanner (List AmfItem)) : Scanner (Bool × AmfItem) :=
  if type = typeNumber then do
    let value ← .take mem 8
    return (true, .number (read8Bytes value))
  else if type = typeBool then do
    let value ← .take mem 1
    return (true, .bool (value ≠ [0]))
  else if type = typeString then do
    let len ← .take mem 2
    let desc ← .take mem (read2Bytes len)
    return (true, .string desc)
  else if type = typeObject then do
    let (ok, fields) ← decodeAmfObject
    return (ok, .object fields)
  else if type = typeNull then return (true, .null)
  else if type = typeUndefined then return (true, .undefined)
  else if type = typeReference then .stop
  else if type = typeMixedArray then do
    let _ ← .take mem 4
    let (ok, fields) ← decodeAmfObject
    return (ok, .object fields)
  else if type = typeArray then do
    let len ← .take mem 4
    let items ← decodeAmfArray (read4Bytes len)
    return (true, .array items)
  else if type = typeDate then do
    let value ← .take mem 8
    .advance 2
    return (true, .date (read8Bytes value))
  else if type = typeLongString then do
    let len ← .take mem 4
    let desc ← .take mem (read4Bytes len)
    return (true, .longString desc)
  else if type = typeUnsupported then return (true, .longString [])
  else return (false, .unknown)

mutual

/--
`Decode` with a number of nested calls, behind which it counts as not coming back.
-/
def decodeAt : Nat → Scanner (Bool × AmfItem)
  | 0 => .stop
  | fuel + 1 => do
    let type := (← Scanner.peek mem 1).headD 0
    if typeUnsupported < type then
      return (false, .unknown)
    else
      .advance 1
      decodeBody mem type (decodeAmfObjectAt fuel) (decodeAmfArrayAt fuel)

def decodeAmfObjectAt : Nat → Scanner (Bool × List (List UInt8 × AmfItem))
  | 0 => .stop
  | fuel + 1 => do
    if (← .left) ≤ 0 then
      return (true, [])
    else
      let keyLen ← .take mem 2
      if read2Bytes keyLen = 0 then
        let marker ← .peek mem 1
        if marker = [typeObjectEnd] then return (true, []) else .stop
      else
        let key ← .take mem (read2Bytes keyLen)
        let type ← .peek mem 1
        if typeUnsupported < type.headD 0 then
          return (false, [])
        else
          let (ok, item) ← decodeAt fuel
          if ok then
            let (ok, fields) ← decodeAmfObjectAt fuel
            return (ok, insertField key item fields)
          else
            return (false, [])

def decodeAmfArrayAt : Nat → Nat → Scanner (List AmfItem)
  | 0, _ => .stop
  | _ + 1, 0 => return []
  | fuel + 1, len + 1 => do
    let (ok, item) ← decodeAt fuel
    if ok then
      let items ← decodeAmfArrayAt fuel len
      return item :: items
    else
      return []

end

end Decoder

section Complete

/--
The number of bytes behind the types that have no length field.
-/
def fixedSize (type : UInt8) : Option Nat :=
  if type = typeNumber then some 8
  else if type = typeBool then some 1
  else if type = typeNull ∨ type = typeUndefined ∨ type = typeUnsupported then some 0
  else if type = typeDate then some 10
  else none

/--
What is decoded: a value, the fields of an object, or a number of items.
-/
inductive Kind where
  | value
  | fields
  | items (count : Nat)

/--
`Complete kind data out` holds when the bytes contain all that is announced in them, as far as decoding gets:
the bytes of a fixed size, the length fields and what they count, and a byte behind the empty key. `out` is
whether decoding succeeds and what is left then, and nothing where an assertion fails.
-/
inductive Complete : Kind → List UInt8 → Option (Bool × List UInt8) → Prop where
  | refused {type : UInt8} {data : List UInt8} (htype : typeUnsupported < type)
      : Complete .value (type :: data) (some (false, type :: data))
  | fixed {type : UInt8} {data : List UInt8} {size : Nat} (htype : fixedSize type = some size)
      (hsize : size ≤ data.length) : Complete .value (type :: data) (some (true, data.drop size))
  | string {data : List UInt8} (hlen : 2 ≤ data.length)
      (hdesc : read2Bytes (data.take 2) ≤ (data.drop 2).length)
      : Complete .value (typeString :: data) (some (true, (data.drop 2).drop (read2Bytes (data.take 2))))
  | longString {data : List UInt8} (hlen : 4 ≤ data.length)
      (hdesc : read4Bytes (data.take 4) ≤ (data.drop 4).length)
      : Complete .value (typeLongString :: data) (some (true, (data.drop 4).drop (read4Bytes (data.take 4))))
  | object {data : List UInt8} {out : Option (Bool × List UInt8)} (hfields : Complete .fields data out)
      : Complete .value (typeObject :: data) out
  | mixedArray {data : List UInt8} {out : Option (Bool × List UInt8)} (hlen : 4 ≤ data.length)
      (hfields : Complete .fields (data.drop 4) out) : Complete .value (typeMixedArray :: data) out
  | array {data : List UInt8} {out : Option (Bool × List UInt8)} (hlen : 4 ≤ data.length)
      (hitems : Complete (.items (read4Bytes (data.take 4))) (data.drop 4) out)
      : Complete .value (typeArray :: data) out
  | reference (data : List UInt8) : Complete .value (typeReference :: data) none
  | unknown {type : UInt8} {data : List UInt8} (htype : type = 4 ∨ type = typeObjectEnd)
      : Complete .value (type :: data) (some (false, data))
  | noFields : Complete .fields [] (some (true, []))
  | lastField {data : List UInt8} (hlen : 3 ≤ data.length) (hkey : read2Bytes (data.take 2) = 0)
      : Complete .fields data
          (if (data.drop 2).head? = some typeObjectEnd then some (true, data.drop 2) else none)
  | field {data left : List UInt8} {out : Option (Bool × List UInt8)} (hlen : 2 ≤ data.length)
      (hpos : read2Bytes (data.take 2) ≠ 0) (hkey : read2Bytes (data.take 2) ≤ (data.drop 2).length)
      (hvalue : Complete .value ((data.drop 2).drop (read2Bytes (data.take 2))) (some (true, left)))
      (hfields : Complete .fields left out) : Complete .fields data out
  | brokenField {data : List UInt8} {out : Option (Bool × List UInt8)} (hlen : 2 ≤ data.length)
      (hpos : read2Bytes (data.take 2) ≠ 0) (hkey : read2Bytes (data.take 2) ≤ (data.drop 2).length)
      (hvalue : Complete .value ((data.drop 2).drop (read2Bytes (data.take 2))) out)
      (hbroken : ∀ left, out ≠ some (true, left)) : Complete .fields data out
  | noItems (data : List UInt8) : Complete (.items 0) data (some (true, data))
  | item {count : Nat} {data left : List UInt8} {out : Option (Bool × List UInt8)}
      (hvalue : Complete .value data (some (true, left))) (hitems : Complete (.items count) left out)
      : Complete (.items (count + 1)) data out
  | brokenItem {count : Nat} {data left : List UInt8} (hvalue : Complete .value data (some (false, left)))
      : Complete (.items (count + 1)) data (some (true, left))
  | stoppedItem {count : Nat} {data : List UInt8} (hvalue : Complete .value data none)
      : Complete (.items (count + 1)) data none

theorem Complete.length_le {kind : Kind} {data : List UInt8} {out : Option (Bool × List UInt8)}
    (h : Complete kind data out)
    : ∀ ok left, out = some (ok, left) → left.length ≤ data.length := by
  induction h with
  | refused _ =>
    rintro _ _ ⟨⟩
    exact Nat.le_refl _
  | fixed _ _ =>
    rintro _ _ ⟨⟩
    rw [List.length_drop, List.length_cons]
    omega
  | string _ _ =>
    rintro _ _ ⟨⟩
    rw [List.length_drop, List.length_drop, List.length_cons]
    omega
  | longString _ _ =>
    rintro _ _ ⟨⟩
    rw [List.length_drop, List.length_drop, List.length_cons]
    omega
  | object _ ih =>
    intro ok left hout
    exact Nat.le_succ_of_le (ih ok left hout)
  | mixedArray _ _ ih =>
    intro ok left hout
    have hle := ih ok left hout
    rw [List.length_drop] at hle
    rw [List.length_cons]
    omega
  | array _ _ ih =>
    intro ok left hout
    have hle := ih ok left hout
    rw [List.length_drop] at hle
    rw [List.length_cons]
    omega
  | reference _ => rintro _ _ ⟨⟩
  | unknown _ =>
    rintro _ _ ⟨⟩
    exact Nat.le_succ _
  | noFields =>
    rintro _ _ ⟨⟩
    exact Nat.le_refl _
  | lastField _ _ =>
    intro ok left hout
    split at hout
    . cases hout
      rw [List.length_drop]
      omega
    . cases hout
  | field _ _ _ _ _ ihvalue ihfields =>
    intro ok left hout
    have hvalue := ihvalue _ _ rfl
    have hfields := ihfields ok left hout
    rw [List.length_drop, List.length_drop] at hvalue
    omega
  | brokenField _ _ _ _ _ ih =>
    intro ok left hout
    have hle := ih ok left hout
    rw [List.length_drop, List.length_drop] at hle
    omega
  | noItems _ =>
    rintro _ _ ⟨⟩
    exact Nat.le_refl _
  | item _ _ ihvalue ihitems =>
    intro ok left hout
    exact Nat.le_trans (ihitems ok left hout) (ihvalue _ _ rfl)
  | brokenItem _ ih =>
    rintro _ _ ⟨⟩
    exact ih _ _ rfl
  | stoppedItem _ _ => rintro _ _ ⟨⟩

theorem Complete.length_lt {data left : List UInt8} (h : Complete .value data (some (true, left)))
    : left.length < data.length := by
  cases h with
  | fixed _ _ =>
    rw [List.length_drop, List.length_cons]
    omega
  | string _ _ =>
    rw [List.length_drop, List.length_drop, List.length_cons]
    omega
  | longString _ _ =>
    rw [List.length_drop, List.length_drop, List.length_cons]
    omega
  | object hfields => exact Nat.lt_succ_of_le (hfields.length_le _ _ rfl)
  | mixedArray _ hfields =>
    have hle := hfields.length_le _ _ rfl
    rw [List.length_drop] at hle
    rw [List.length_cons]
    omega
  | array _ hitems =>
    have hle := hitems.length_le _ _ rfl
    rw [List.length_drop] at hle
    rw [List.length_cons]
    omega

/--
The outcome of a scanner. With too few nested calls it does not come back.
-/
def Comes {α : Type} (ok : α → Bool) (out : Option (Bool × List UInt8)) (short : Prop)
    : Option (α × List UInt8) → Prop
  | none => out = none ∨ short
  | some (a, left) => out = some (ok a, left)

/--
What decoding does in front of the bytes.
-/
def Kind.Meets (mem : Nat → UInt8) (total fuel : Nat) (data : List UInt8)
    (out : Option (Bool × List UInt8)) : Kind → Prop
  | .value => Spec mem total (decodeAt mem fuel) data (Comes Prod.fst out (fuel ≤ 2 * data.length))
  | .fields =>
    Spec mem total (decodeAmfObjectAt mem fuel) data
      (Comes Prod.fst out (fuel ≤ 2 * data.length + 1))
  | .items count =>
    Spec mem total (decodeAmfArrayAt mem fuel count) data
      (Comes (fun _ => true) out (fuel ≤ 2 * data.length + 1))

variable {mem : Nat → UInt8} {total : Nat}

theorem decodeAt_eq (mem : Nat → UInt8) (fuel : Nat)
    : decodeAt mem (fuel + 1) = Scanner.peek mem 1 >>= fun type =>
        if typeUnsupported < type.headD 0 then pure (false, .unknown)
        else Scanner.advance 1 >>= fun _ =>
          decodeBody mem (type.headD 0) (decodeAmfObjectAt mem fuel) (decodeAmfArrayAt mem fuel) := rfl

theorem decodeAmfObjectAt_eq (mem : Nat → UInt8) (fuel : Nat)
    : decodeAmfObjectAt mem (fuel + 1) = Scanner.left >>= fun len =>
        if len ≤ 0 then pure (true, [])
        else Scanner.take mem 2 >>= fun keyLen =>
          if read2Bytes keyLen = 0 then Scanner.peek mem 1 >>= fun marker =>
            if marker = [typeObjectEnd] then pure (true, []) else .stop
          else Scanner.take mem (read2Bytes keyLen) >>= fun key => Scanner.peek mem 1 >>= fun type =>
            if typeUnsupported < type.headD 0 then pure (false, [])
            else decodeAt mem fuel >>= fun (ok, item) =>
              if ok then decodeAmfObjectAt mem fuel >>= fun (ok, fields) =>
                pure (ok, insertField key item fields)
              else pure (false, []) := rfl

theorem decodeAmfArrayAt_eq (mem : Nat → UInt8) (fuel len : Nat)
    : decodeAmfArrayAt mem (fuel + 1) (len + 1) = decodeAt mem fuel >>= fun (ok, item) =>
        if ok then decodeAmfArrayAt mem fuel len >>= fun items => pure (item :: items)
        else pure [] := rfl

theorem decodeAt_spec {fuel : Nat} {type : UInt8} {data : List UInt8}
    {Q : Option ((Bool × AmfItem) × List UInt8) → Prop} (h : Holds mem total (type :: data))
    (htotal : total < 2 ^ 31) (htype : ¬ typeUnsupported < type)
    (hbody : Holds mem total data →
      Spec mem total (decodeBody mem type (decodeAmfObjectAt mem fuel) (decodeAmfArrayAt mem fuel)) data Q)
    : Spec mem total (decodeAt mem (fuel + 1)) (type :: data) Q := by
  rw [decodeAt_eq]
  apply Spec.peek h (Nat.succ_pos _)
  rw [if_neg (by exact htype)]
  exact Spec.advance h htotal (Nat.succ_pos _) (hbody (h.drop 1))

theorem fixedSize_le {type : UInt8} {size : Nat} (h : fixedSize type = some size)
    : ¬ typeUnsupported < type := by
  unfold fixedSize at h
  split at h
  . next htype =>
    rw [htype]
    decide
  . split at h
    . next htype =>
      rw [htype]
      decide
    . split at h
      . next htype =>
        rcases htype with htype | htype | htype
        all_goals
          rw [htype]
          decide
      . split at h
        . next htype =>
          rw [htype]
          decide
        . cases h

theorem decodeBody_fixed {type : UInt8} {data : List UInt8} {size : Nat} (h : Holds mem total data)
    (htotal : total < 2 ^ 31) (htype : fixedSize type = some size) (hsize : size ≤ data.length)
    (decodeAmfObject : Scanner (Bool × List (List UInt8 × AmfItem)))
    (decodeAmfArray : Nat → Scanner (List AmfItem)) (short : Prop)
    : Spec mem total (decodeBody mem type decodeAmfObject decodeAmfArray) data
        (Comes Prod.fst (some (true, data.drop size)) short) := by
  unfold fixedSize at htype
  split at htype
  . next heq =>
    cases htype
    subst heq
    exact .take h htotal hsize (.pure (h.drop 8) rfl)
  . split at htype
    . next heq =>
      cases htype
      subst heq
      exact .take h htotal hsize (.pure (h.drop 1) rfl)
    . split at htype
      . next heq =>
        cases htype
        rcases heq with heq | heq | heq
        all_goals
          subst heq
          exact .pure h rfl
      . split at htype
        . next heq =>
          cases htype
          subst heq
          apply Spec.take h htotal (by omega)
          have hzone : 2 ≤ (data.drop 8).length := by
            rw [List.length_drop]
            omega
          apply Spec.advance (h.drop 8) htotal hzone
          rw [List.drop_drop]
          exact .pure (h.drop 10) rfl
        . cases htype

theorem Kind.meets_of_succ {kind : Kind} {data : List UInt8} {out : Option (Bool × List UInt8)}
    (h : ∀ fuel, kind.Meets mem total (fuel + 1) data out) (fuel : Nat)
    : kind.Meets mem total fuel data out := by
  cases fuel with
  | succ fuel => exact h fuel
  | zero =>
    cases kind with
    | value => exact .stop (.inr (Nat.zero_le _))
    | fields => exact .stop (.inr (Nat.zero_le _))
    | items count => exact .stop (.inr (Nat.zero_le _))

theorem decodeAmfObjectAt_spec {fuel : Nat} {data : List UInt8}
    {Q : Option ((Bool × List (List UInt8 × AmfItem)) × List UInt8) → Prop} (h : Holds mem total data)
    (htotal : total < 2 ^ 31) (hlen : 2 ≤ data.length) (hpos : read2Bytes (data.take 2) ≠ 0)
    (hkey : read2Bytes (data.take 2) ≤ (data.drop 2).length) {type : UInt8} {rest : List UInt8}
    (hrest : (data.drop 2).drop (read2Bytes (data.take 2)) = type :: rest)
    (hvalue : Holds mem total (type :: rest) →
      Spec mem total
        (if typeUnsupported < type then pure (false, [])
        else decodeAt mem fuel >>= fun (ok, item) =>
          if ok then decodeAmfObjectAt mem fuel >>= fun (ok, fields) =>
            pure (ok, insertField ((data.drop 2).take (read2Bytes (data.take 2))) item fields)
          else pure (false, [])) (type :: rest) Q)
    : Spec mem total (decodeAmfObjectAt mem (fuel + 1)) data Q := by
  rw [decodeAmfObjectAt_eq]
  apply Spec.left
  rw [if_neg (by omega)]
  apply Spec.take h htotal hlen
  rw [if_neg hpos]
  apply Spec.take (h.drop 2) htotal hkey
  have hdata := (h.drop 2).drop (read2Bytes (data.take 2))
  rw [hrest] at hdata ⊢
  exact Spec.peek hdata (Nat.succ_pos _) (hvalue hdata)

theorem Complete.value_cons {data : List UInt8} {out : Option (Bool × List UInt8)}
    (h : Complete .value data out) : ∃ type rest, data = type :: rest := by
  cases h <;> exact ⟨_, _, rfl⟩

theorem Complete.of_refused {type : UInt8} {data : List UInt8} {out : Option (Bool × List UInt8)}
    (h : Complete .value (type :: data) out) (htype : typeUnsupported < type)
    : out = some (false, type :: data) := by
  cases h with
  | refused _ => rfl
  | fixed hfixed _ => exact absurd htype (fixedSize_le hfixed)
  | unknown hunknown =>
    rcases hunknown with rfl | rfl
    . exact absurd htype (by decide)
    . exact absurd htype (by decide)
  | _ => exact absurd htype (by decide)

/--
Decoding stays inside bytes that are complete, and comes to the outcome they have.
-/
theorem Complete.spec {kind : Kind} {data : List UInt8} {out : Option (Bool × List UInt8)}
    (h : Complete kind data out) (htotal : total < 2 ^ 31) (hholds : Holds mem total data) (fuel : Nat)
    : kind.Meets mem total fuel data out := by
  induction h generalizing fuel with
  | refused htype =>
    apply Kind.meets_of_succ
    intro fuel
    unfold Kind.Meets
    simp only
    rw [decodeAt_eq]
    apply Spec.peek hholds (Nat.succ_pos _)
    rw [if_pos (by exact htype)]
    exact .pure hholds rfl
  | fixed htype hsize =>
    apply Kind.meets_of_succ
    intro fuel
    apply decodeAt_spec hholds htotal (fixedSize_le htype)
    intro hdata
    exact decodeBody_fixed hdata htotal htype hsize _ _ _
  | string hlen hdesc =>
    apply Kind.meets_of_succ
    intro fuel
    apply decodeAt_spec hholds htotal (by decide)
    intro hdata
    apply Spec.take hdata htotal hlen
    apply Spec.take (hdata.drop 2) htotal hdesc
    exact .pure ((hdata.drop 2).drop _) rfl
  | longString hlen hdesc =>
    apply Kind.meets_of_succ
    intro fuel
    apply decodeAt_spec hholds htotal (by decide)
    intro hdata
    apply Spec.take hdata htotal hlen
    apply Spec.take (hdata.drop 4) htotal hdesc
    exact .pure ((hdata.drop 4).drop _) rfl
  | object hfields ih =>
    apply Kind.meets_of_succ
    intro fuel
    apply decodeAt_spec hholds htotal (by decide)
    intro hdata
    apply Spec.bind (ih hdata fuel)
    . rintro (hnone | hshort)
      . exact .inl hnone
      . exact .inr (by rw [List.length_cons]; omega)
    . intro a left hleft hcomes
      exact .pure hleft hcomes
  | mixedArray hlen hfields ih =>
    apply Kind.meets_of_succ
    intro fuel
    apply decodeAt_spec hholds htotal (by decide)
    intro hdata
    apply Spec.take hdata htotal hlen
    apply Spec.bind (ih (hdata.drop 4) fuel)
    . rintro (hnone | hshort)
      . exact .inl hnone
      . exact .inr (by rw [List.length_drop] at hshort; rw [List.length_cons]; omega)
    . intro a left hleft hcomes
      exact .pure hleft hcomes
  | array hlen hitems ih =>
    apply Kind.meets_of_succ
    intro fuel
    apply decodeAt_spec hholds htotal (by decide)
    intro hdata
    apply Spec.take hdata htotal hlen
    apply Spec.bind (ih (hdata.drop 4) fuel)
    . rintro (hnone | hshort)
      . exact .inl hnone
      . exact .inr (by rw [List.length_drop] at hshort; rw [List.length_cons]; omega)
    . intro a left hleft hcomes
      exact .pure hleft hcomes
  | reference data =>
    apply Kind.meets_of_succ
    intro fuel
    apply decodeAt_spec hholds htotal (by decide)
    intro _
    exact .stop (.inl rfl)
  | unknown htype =>
    apply Kind.meets_of_succ
    intro fuel
    rcases htype with rfl | rfl
    . apply decodeAt_spec hholds htotal (by decide)
      intro hdata
      exact .pure hdata rfl
    . apply decodeAt_spec hholds htotal (by decide)
      intro hdata
      exact .pure hdata rfl
  | noFields =>
    apply Kind.meets_of_succ
    intro fuel
    unfold Kind.Meets
    simp only
    rw [decodeAmfObjectAt_eq]
    apply Spec.left
    exact .pure hholds rfl
  | @lastField data hlen hkey =>
    apply Kind.meets_of_succ
    intro fuel
    unfold Kind.Meets
    simp only
    rw [decodeAmfObjectAt_eq]
    apply Spec.left
    rw [if_neg (by omega)]
    apply Spec.take hholds htotal (by omega)
    rw [if_pos hkey]
    have hone : 1 ≤ (data.drop 2).length := by
      rw [List.length_drop]
      omega
    apply Spec.peek (hholds.drop 2) hone
    cases hdata : data.drop 2 with
    | nil =>
      rw [hdata] at hone
      cases hone
    | cons marker rest =>
      have hend := hholds.drop 2
      rw [hdata] at hend
      by_cases hmarker : marker = typeObjectEnd
      . rw [if_pos (by rw [hmarker]; rfl), if_pos (by rw [hmarker]; rfl)]
        exact .pure hend rfl
      . rw [if_neg (by simpa using hmarker), if_neg (by simpa using hmarker)]
        exact .stop (.inl rfl)
  | @field data left out hlen hpos hkey hvalue hfields ihvalue ihfields =>
    apply Kind.meets_of_succ
    intro fuel
    rcases hvalue.value_cons with ⟨type, rest, hrest⟩
    apply decodeAmfObjectAt_spec hholds htotal hlen hpos hkey hrest
    intro hdata
    have hvaluelen := hvalue.length_lt
    rw [List.length_drop, List.length_drop] at hvaluelen
    rw [hrest] at hvalue ihvalue
    have htype : ¬ typeUnsupported < type := by
      intro hrefused
      cases hvalue.of_refused hrefused
    rw [if_neg htype]
    apply Spec.bind (ihvalue hdata fuel)
    . rintro (hnone | hshort)
      . cases hnone
      . have hdatalen := congrArg List.length hrest
        rw [List.length_drop, List.length_drop] at hdatalen
        exact .inr (by omega)
    . rintro ⟨ok, item⟩ left' hleft hcomes
      cases hcomes
      apply Spec.bind (ihfields hleft fuel)
      . rintro (hnone | hshort)
        . exact .inl hnone
        . exact .inr (by omega)
      . rintro ⟨ok, fields⟩ left' hleft hcomes
        exact .pure hleft hcomes
  | @brokenField data out hlen hpos hkey hvalue hbroken ih =>
    apply Kind.meets_of_succ
    intro fuel
    rcases hvalue.value_cons with ⟨type, rest, hrest⟩
    apply decodeAmfObjectAt_spec hholds htotal hlen hpos hkey hrest
    intro hdata
    rw [hrest] at hvalue ih
    by_cases htype : typeUnsupported < type
    . rw [if_pos htype, hvalue.of_refused htype]
      exact .pure hdata rfl
    . rw [if_neg htype]
      apply Spec.bind (ih hdata fuel)
      . rintro (hnone | hshort)
        . exact .inl hnone
        . have hdatalen := congrArg List.length hrest
          rw [List.length_drop, List.length_drop] at hdatalen
          exact .inr (by omega)
      . rintro ⟨ok, item⟩ left hleft hcomes
        cases ok with
        | true => exact absurd hcomes (hbroken left)
        | false => exact .pure hleft hcomes
  | noItems data =>
    apply Kind.meets_of_succ
    intro fuel
    exact .pure hholds rfl
  | @item count data left out hvalue hitems ihvalue ihitems =>
    apply Kind.meets_of_succ
    intro fuel
    have hlen := hvalue.length_lt
    unfold Kind.Meets
    simp only
    rw [decodeAmfArrayAt_eq]
    apply Spec.bind (ihvalue hholds fuel)
    . rintro (hnone | hshort)
      . cases hnone
      . exact .inr (by omega)
    . rintro ⟨ok, item⟩ left' hleft hcomes
      cases hcomes
      apply Spec.bind (ihitems hleft fuel)
      . rintro (hnone | hshort)
        . exact .inl hnone
        . exact .inr (by omega)
      . intro items left' hleft hcomes
        exact .pure hleft hcomes
  | brokenItem hvalue ih =>
    apply Kind.meets_of_succ
    intro fuel
    unfold Kind.Meets
    simp only
    rw [decodeAmfArrayAt_eq]
    apply Spec.bind (ih hholds fuel)
    . rintro (hnone | hshort)
      . cases hnone
      . exact .inr (by omega)
    . rintro ⟨ok, item⟩ left' hleft hcomes
      cases hcomes
      exact .pure hleft rfl
  | stoppedItem hvalue ih =>
    apply Kind.meets_of_succ
    intro fuel
    unfold Kind.Meets
    simp only
    rw [decodeAmfArrayAt_eq]
    apply Spec.bind (ih hholds fuel)
    . rintro (hnone | hshort)
      . exact .inl rfl
      . exact .inr (by omega)
    . rintro ⟨ok, item⟩ left' hleft hcomes
      cases hcomes

/--
Bytes that are safe to decode are complete: one more call than they have bytes is nested at most.
-/
def Kind.SafeAt (mem : Nat → UInt8) (total fuel : Nat) (data : List UInt8) : Kind → Prop
  | .value => 2 * data.length < fuel ∧ Safe total (decodeAt mem fuel) (cursor total data)
  | .fields => 2 * data.length + 1 < fuel ∧ Safe total (decodeAmfObjectAt mem fuel) (cursor total data)
  | .items count =>
    2 * data.length + 1 < fuel ∧ Safe total (decodeAmfArrayAt mem fuel count) (cursor total data)

theorem type_cases {type : UInt8} (h : ¬ typeUnsupported < type)
    : type ∈ [typeNumber, typeBool, typeString, typeObject, 4, typeNull, typeUndefined, typeReference,
        typeMixedArray, typeObjectEnd, typeArray, typeDate, typeLongString, typeUnsupported] := by
  revert h
  revert type
  apply forall_of_bitVec
  decide

theorem complete_of_safe_body {fuel : Nat} {type : UInt8} {data : List UInt8}
    (hholds : Holds mem total data) (htotal : total < 2 ^ 31) (htype : ¬ typeUnsupported < type)
    (hfuel : 2 * data.length + 1 < fuel)
    (hsafe : Safe total (decodeBody mem type (decodeAmfObjectAt mem fuel) (decodeAmfArrayAt mem fuel))
      (cursor total data))
    (ih : ∀ kind data, Holds mem total data → kind.SafeAt mem total fuel data →
      ∃ out, Complete kind data out)
    : ∃ out, Complete .value (type :: data) out := by
  have hcases := type_cases htype
  simp only [List.mem_cons, List.not_mem_nil, or_false] at hcases
  rcases hcases with rfl | rfl | rfl | rfl | rfl | rfl | rfl | rfl | rfl | rfl | rfl | rfl | rfl | rfl
  . exact ⟨_, .fixed rfl ((safe_take_bind hholds htotal).mp hsafe).1⟩
  . exact ⟨_, .fixed rfl ((safe_take_bind hholds htotal).mp hsafe).1⟩
  . have hlen := (safe_take_bind hholds htotal).mp hsafe
    exact ⟨_, .string hlen.1 ((safe_take_bind (hholds.drop 2) htotal).mp hlen.2).1⟩
  . rcases ih .fields data hholds ⟨hfuel, (safe_bind.mp hsafe).1⟩ with ⟨out, hfields⟩
    exact ⟨out, .object hfields⟩
  . exact ⟨_, .unknown (.inl rfl)⟩
  . exact ⟨_, .fixed rfl (Nat.zero_le _)⟩
  . exact ⟨_, .fixed rfl (Nat.zero_le _)⟩
  . exact ⟨_, .reference data⟩
  . have hlen := (safe_take_bind hholds htotal).mp hsafe
    have hshort : 2 * (data.drop 4).length + 1 < fuel := by
      rw [List.length_drop]
      omega
    rcases ih .fields _ (hholds.drop 4) ⟨hshort, (safe_bind.mp hlen.2).1⟩ with ⟨out, hfields⟩
    exact ⟨out, .mixedArray hlen.1 hfields⟩
  . exact ⟨_, .unknown (.inr rfl)⟩
  . have hlen := (safe_take_bind hholds htotal).mp hsafe
    have hshort : 2 * (data.drop 4).length + 1 < fuel := by
      rw [List.length_drop]
      omega
    rcases ih (.items _) _ (hholds.drop 4) ⟨hshort, (safe_bind.mp hlen.2).1⟩ with ⟨out, hitems⟩
    exact ⟨out, .array hlen.1 hitems⟩
  . have hvalue := (safe_take_bind hholds htotal).mp hsafe
    have hzone := (safe_advance_bind (hholds.drop 8) htotal (by decide)).mp hvalue.2
    rw [List.length_drop] at hzone
    exact ⟨_, .fixed rfl (by omega)⟩
  . have hlen := (safe_take_bind hholds htotal).mp hsafe
    exact ⟨_, .longString hlen.1 ((safe_take_bind (hholds.drop 4) htotal).mp hlen.2).1⟩
  . exact ⟨_, .fixed rfl (Nat.zero_le _)⟩

theorem Complete.safe_of_bind {α : Type} {fuel : Nat} {data left : List UInt8}
    {f : Bool × AmfItem → Scanner α} (h : Complete .value data (some (true, left)))
    (hholds : Holds mem total data) (htotal : total < 2 ^ 31) (hfuel : 2 * data.length < fuel)
    (hsafe : Safe total (decodeAt mem fuel >>= f) (cursor total data))
    : ∃ item, Holds mem total left ∧ Safe total (f (true, item)) (cursor total left) := by
  have hspec := h.spec htotal hholds fuel
  have hreturns : ¬ Comes (Prod.fst : Bool × AmfItem → Bool) (some (true, left)) (fuel ≤ 2 * data.length) none := by
    rintro (hnone | hshort)
    . cases hnone
    . omega
  rcases Spec.safe_of_bind hspec hsafe hreturns with ⟨⟨ok, item⟩, left', hleft, hcomes, hsafe⟩
  cases hcomes
  exact ⟨item, hleft, hsafe⟩

theorem complete_of_safe (htotal : total < 2 ^ 31) {fuel : Nat} (kind : Kind) (data : List UInt8)
    (hholds : Holds mem total data) (h : kind.SafeAt mem total fuel data)
    : ∃ out, Complete kind data out := by
  induction fuel generalizing kind data with
  | zero => cases kind <;> exact absurd h.1 (Nat.not_lt_zero _)
  | succ fuel ih =>
    cases kind with
    | value =>
      rcases h with ⟨hfuel, hsafe⟩
      rw [decodeAt_eq, safe_peek_bind hholds] at hsafe
      cases data with
      | nil => exact absurd hsafe.1 (by decide)
      | cons type data =>
        have hsafe := hsafe.2
        by_cases htype : typeUnsupported < type
        . exact ⟨_, .refused htype⟩
        . rw [if_neg (by exact htype), safe_advance_bind hholds htotal (by decide)] at hsafe
          rw [List.length_cons] at hfuel
          exact complete_of_safe_body (hholds.drop 1) htotal htype (by omega) hsafe.2
            ih
    | fields =>
      rcases h with ⟨hfuel, hsafe⟩
      rw [decodeAmfObjectAt_eq, safe_left_bind] at hsafe
      cases hdata : data with
      | nil => exact ⟨_, .noFields⟩
      | cons b tail =>
        have hpos : ¬ (data.length : Int) ≤ 0 := by
          rw [hdata, List.length_cons]
          omega
        rw [← hdata]
        rw [if_neg hpos, safe_take_bind hholds htotal] at hsafe
        rcases hsafe with ⟨hlen, hsafe⟩
        by_cases hkey : read2Bytes (data.take 2) = 0
        . rw [if_pos hkey, safe_peek_bind (hholds.drop 2), List.length_drop] at hsafe
          exact ⟨_, .lastField (by omega) hkey⟩
        . rw [if_neg hkey, safe_take_bind (hholds.drop 2) htotal] at hsafe
          rcases hsafe with ⟨hkeyLen, hsafe⟩
          have hrest := (hholds.drop 2).drop (read2Bytes (data.take 2))
          rw [safe_peek_bind hrest] at hsafe
          have hfew : ((data.drop 2).drop (read2Bytes (data.take 2))).length + 2 ≤ data.length := by
            rw [List.length_drop, List.length_drop]
            omega
          rcases hsafe with ⟨hone, hsafe⟩
          cases htail : (data.drop 2).drop (read2Bytes (data.take 2)) with
          | nil =>
            rw [htail] at hone
            cases hone
          | cons type tail =>
            by_cases htype : typeUnsupported < type
            . have hvalue : Complete .value (type :: tail) (some (false, type :: tail)) := .refused htype
              rw [← htail] at hvalue
              exact ⟨_, .brokenField hlen hkey hkeyLen hvalue (by simp)⟩
            . rw [if_neg (by rw [htail]; exact htype)] at hsafe
              rcases ih .value _ hrest ⟨by omega, (safe_bind.mp hsafe).1⟩ with ⟨out, hvalue⟩
              rcases out with _ | ⟨ok, left⟩
              . exact ⟨_, .brokenField hlen hkey hkeyLen hvalue (by simp)⟩
              . cases ok with
                | false => exact ⟨_, .brokenField hlen hkey hkeyLen hvalue (by simp)⟩
                | true =>
                  rcases hvalue.safe_of_bind hrest htotal (by omega) hsafe with ⟨item, hleft, hsafe⟩
                  have hleftLen := hvalue.length_lt
                  simp only [if_true] at hsafe
                  rcases ih .fields _ hleft ⟨by omega, (safe_bind.mp hsafe).1⟩ with
                    ⟨out, hfields⟩
                  exact ⟨out, .field hlen hkey hkeyLen hvalue hfields⟩
    | items count =>
      rcases h with ⟨hfuel, hsafe⟩
      cases count with
      | zero => exact ⟨_, .noItems data⟩
      | succ count =>
        rw [decodeAmfArrayAt_eq] at hsafe
        rcases ih .value _ hholds ⟨by omega, (safe_bind.mp hsafe).1⟩ with ⟨out, hvalue⟩
        rcases out with _ | ⟨ok, left⟩
        . exact ⟨_, .stoppedItem hvalue⟩
        . cases ok with
          | false => exact ⟨_, .brokenItem hvalue⟩
          | true =>
            rcases hvalue.safe_of_bind hholds htotal (by omega) hsafe with ⟨item, hleft, hsafe⟩
            have hlen := hvalue.length_lt
            simp only [if_true] at hsafe
            rcases ih (.items count) _ hleft ⟨by omega, (safe_bind.mp hsafe).1⟩ with ⟨out, hitems⟩
            exact ⟨out, .item hvalue hitems⟩

theorem Complete.decodeAt_eq {fuel : Nat} {data left : List UInt8} {ok : Bool}
    (h : Complete .value data (some (ok, left))) (htotal : total < 2 ^ 31) (hholds : Holds mem total data)
    (hfuel : 2 * data.length < fuel)
    : ∃ item, Holds mem total left
        ∧ (decodeAt mem fuel (cursor total data)).2 = some ((ok, item), cursor total left) := by
  have hspec := h.spec htotal hholds fuel
  rcases hout : (decodeAt mem fuel (cursor total data)).2 with _ | ⟨⟨ok', item⟩, c⟩
  . rcases hspec.stops hout with hnone | hshort
    . cases hnone
    . omega
  . rcases hspec.returns _ _ hout with ⟨left', rfl, hleft, hcomes⟩
    cases hcomes
    exact ⟨item, hleft, rfl⟩

theorem returns_decodeAt_bind {α : Type} (htotal : total < 2 ^ 31) {fuel : Nat} {data : List UInt8}
    (hholds : Holds mem total data) (hfuel : 2 * data.length < fuel) {f : Bool × AmfItem → Scanner α}
    : Returns total (decodeAt mem fuel >>= f) (cursor total data)
      ↔ ∃ ok item left, Complete .value data (some (ok, left)) ∧ Holds mem total left
          ∧ (decodeAt mem fuel (cursor total data)).2 = some ((ok, item), cursor total left)
          ∧ Returns total (f (ok, item)) (cursor total left) := by
  rw [returns_bind]
  constructor
  . rintro ⟨⟨hsafe, hreturns⟩, hrest⟩
    rcases complete_of_safe htotal .value data hholds ⟨hfuel, hsafe⟩ with ⟨out, hvalue⟩
    obtain ⟨⟨⟨ok, item⟩, c⟩, hout⟩ := Option.ne_none_iff_exists'.mp hreturns
    rcases (hvalue.spec htotal hholds fuel).returns _ _ hout with ⟨left, rfl, hleft, hcomes⟩
    cases hcomes
    exact ⟨ok, item, left, hvalue, hleft, hout, hrest _ _ hout⟩
  . rintro ⟨ok, item, left, hvalue, hleft, hout, hrest⟩
    refine ⟨⟨(hvalue.spec htotal hholds fuel).safe, ?_⟩, ?_⟩
    . rw [hout]
      exact Option.some_ne_none _
    . intro a c h
      rw [hout] at h
      cases h
      exact hrest

/--
The item is a string if the type says so.
-/
def IsString (type : UInt8) (out : Bool × AmfItem) : Prop :=
  out.1 = true → ((∃ desc, out.2 = .string desc) ↔ type = typeString)

theorem decodeBody_yields {type : UInt8} {decodeAmfObject : Scanner (Bool × List (List UInt8 × AmfItem))}
    {decodeAmfArray : Nat → Scanner (List AmfItem)}
    : Yields (decodeBody mem type decodeAmfObject decodeAmfArray) (IsString type) := by
  by_cases hstring : type = typeString
  . subst hstring
    change Yields (Scanner.take mem 2 >>= fun len => Scanner.take mem (read2Bytes len) >>= fun desc =>
      pure (true, AmfItem.string desc)) _
    apply yields_bind
    intro len
    apply yields_bind
    intro desc
    exact yields_pure fun _ => ⟨fun _ => rfl, fun _ => ⟨desc, rfl⟩⟩
  . have hother {ok : Bool} {item : AmfItem} (h : ∀ desc, item ≠ .string desc)
        : Yields (pure (ok, item)) (IsString type) := by
      apply yields_pure
      intro _
      constructor
      . rintro ⟨desc, hitem⟩
        exact absurd hitem (h desc)
      . intro htype
        exact absurd htype hstring
    have hobject : Yields (decodeAmfObject >>= fun out => pure (out.1, AmfItem.object out.2)) (IsString type) :=
      yields_bind fun out => hother (by simp)
    unfold decodeBody
    refine yields_ite (fun _ => yields_bind fun value => hother (by simp)) fun _ => ?_
    refine yields_ite (fun _ => yields_bind fun value => hother (by simp)) fun _ => ?_
    refine yields_ite (fun htype => absurd htype hstring) fun _ => ?_
    refine yields_ite (fun _ => hobject) fun _ => ?_
    refine yields_ite (fun _ => hother (by simp)) fun _ => ?_
    refine yields_ite (fun _ => hother (by simp)) fun _ => ?_
    refine yields_ite (fun _ => yields_stop) fun _ => ?_
    refine yields_ite (fun _ => yields_bind fun len => hobject) fun _ => ?_
    refine yields_ite (fun _ => yields_bind fun len => yields_bind fun items => hother (by simp)) fun _ => ?_
    refine yields_ite (fun _ => yields_bind fun value => yields_bind fun _ => hother (by simp)) fun _ => ?_
    refine yields_ite (fun _ => yields_bind fun len => yields_bind fun desc => hother (by simp)) fun _ => ?_
    exact yields_ite (fun _ => hother (by simp)) fun _ => hother (by simp)

theorem decodeAt_string {fuel : Nat} {type : UInt8} {data left : List UInt8} {item : AmfItem}
    (hholds : Holds mem total (type :: data))
    (h : (decodeAt mem fuel (cursor total (type :: data))).2 = some ((true, item), cursor total left))
    : (∃ desc, item = .string desc) ↔ type = typeString := by
  cases fuel with
  | zero => cases h
  | succ fuel =>
    rw [decodeAt_eq, bind_some (peek_eq hholds (by simp))] at h
    change ((if typeUnsupported < type then _ else _ : Scanner (Bool × AmfItem)) _).2 = _ at h
    split at h
    . cases h
    . exact yields_bind (fun _ => decodeBody_yields) _ _ _ h rfl

end Complete

section Decode

/--
The outcome of a scanner is what is decoded of a list of bytes.
-/
def Same {α γ : Type} (result : Except AmfFault γ) (out : α × List UInt8 → γ)
    : Option (α × List UInt8) → Prop
  | none => ∃ fault, result = .error fault
  | some a => result = .ok (out a)

def sameValue (a : (Bool × AmfItem) × List UInt8) : Bool × AmfItem × List UInt8 := (a.1.1, a.1.2, a.2)

def sameFields (a : (Bool × List (List UInt8 × AmfItem)) × List UInt8)
    : Bool × List (List UInt8 × AmfItem) × List UInt8 := (a.1.1, a.1.2, a.2)

/--
What is decoded where the pointer stays inside the bytes that are left.
-/
def Kind.SameAt (mem : Nat → UInt8) (total fuel : Nat) (data : List UInt8) : Kind → Prop
  | .value =>
    Safe total (decodeAt mem fuel) (cursor total data) →
      Spec mem total (decodeAt mem fuel) data (Same (decode fuel data) sameValue)
  | .fields =>
    Safe total (decodeAmfObjectAt mem fuel) (cursor total data) →
      Spec mem total (decodeAmfObjectAt mem fuel) data (Same (decodeAmfObject fuel data) sameFields)
  | .items count =>
    Safe total (decodeAmfArrayAt mem fuel count) (cursor total data) →
      Spec mem total (decodeAmfArrayAt mem fuel count) data (Same (decodeAmfArray fuel count data) id)

variable {mem : Nat → UInt8} {total : Nat}

theorem takeBytes_of_le {n : Nat} {data : List UInt8} (h : n ≤ data.length)
    : takeBytes n data = .ok (data.take n, data.drop n) := if_pos h

theorem decodeBody_same {fuel : Nat} {type : UInt8} {data : List UInt8}
    (hholds : Holds mem total data) (htotal : total < 2 ^ 31) (htype : ¬ typeUnsupported < type)
    (hsafe : Safe total (decodeBody mem type (decodeAmfObjectAt mem fuel) (decodeAmfArrayAt mem fuel))
      (cursor total data))
    (ih : ∀ (kind : Kind) data, Holds mem total data → kind.SameAt mem total fuel data)
    : Spec mem total (decodeBody mem type (decodeAmfObjectAt mem fuel) (decodeAmfArrayAt mem fuel)) data
        (Same (decode (fuel + 1) (type :: data)) sameValue) := by
  have hcases := type_cases htype
  simp only [List.mem_cons, List.not_mem_nil, or_false] at hcases
  rcases hcases with rfl | rfl | rfl | rfl | rfl | rfl | rfl | rfl | rfl | rfl | rfl | rfl | rfl | rfl
  . have hlen := ((safe_take_bind hholds htotal).mp hsafe).1
    apply Spec.take hholds htotal hlen
    rw [decode_number, takeBytes_of_le hlen]
    exact .pure (hholds.drop 8) rfl
  . have hlen := ((safe_take_bind hholds htotal).mp hsafe).1
    apply Spec.take hholds htotal hlen
    rw [decode_bool, takeBytes_of_le hlen]
    exact .pure (hholds.drop 1) rfl
  . have hlen := (safe_take_bind hholds htotal).mp hsafe
    have hdesc := ((safe_take_bind (hholds.drop 2) htotal).mp hlen.2).1
    apply Spec.take hholds htotal hlen.1
    apply Spec.take (hholds.drop 2) htotal hdesc
    rw [decode_string, takeBytes_of_le hlen.1]
    simp only [bind, Except.bind, takeBytes_of_le hdesc]
    exact .pure ((hholds.drop 2).drop _) rfl
  . have hobject := ih .fields data hholds (safe_bind.mp hsafe).1
    rw [decode_object]
    apply Spec.bind hobject
    . rintro ⟨fault, hfault⟩
      exact ⟨fault, by rw [hfault]; rfl⟩
    . rintro ⟨ok, fields⟩ left hleft hsame
      exact .pure hleft (by unfold Same; rw [show decodeAmfObject fuel data = _ from hsame]; rfl)
  . exact .pure hholds rfl
  . exact .pure hholds rfl
  . exact .pure hholds rfl
  . exact .stop ⟨.abort, rfl⟩
  . have hlen := (safe_take_bind hholds htotal).mp hsafe
    have hobject := ih .fields _ (hholds.drop 4) (safe_bind.mp hlen.2).1
    apply Spec.take hholds htotal hlen.1
    rw [decode_mixedArray, takeBytes_of_le hlen.1]
    apply Spec.bind hobject
    . rintro ⟨fault, hfault⟩
      exact ⟨fault, by simp only [bind, Except.bind, hfault]⟩
    . rintro ⟨ok, fields⟩ left hleft hsame
      exact .pure hleft (by
        unfold Same
        simp only [bind, Except.bind, show decodeAmfObject fuel _ = _ from hsame]
        rfl)
  . exact .pure hholds rfl
  . have hlen := (safe_take_bind hholds htotal).mp hsafe
    have hitems := ih (.items _) _ (hholds.drop 4) (safe_bind.mp hlen.2).1
    apply Spec.take hholds htotal hlen.1
    rw [decode_array, takeBytes_of_le hlen.1]
    apply Spec.bind hitems
    . rintro ⟨fault, hfault⟩
      exact ⟨fault, by simp only [bind, Except.bind, hfault]⟩
    . intro items left hleft hsame
      exact .pure hleft (by
        unfold Same
        simp only [bind, Except.bind, show decodeAmfArray fuel _ _ = _ from hsame]
        rfl)
  . have hvalue := (safe_take_bind hholds htotal).mp hsafe
    have hzone := ((safe_advance_bind (hholds.drop 8) htotal (by decide)).mp hvalue.2).1
    apply Spec.take hholds htotal hvalue.1
    apply Spec.advance (hholds.drop 8) htotal hzone
    rw [decode_date, takeBytes_of_le hvalue.1]
    exact .pure ((hholds.drop 8).drop 2) rfl
  . have hlen := (safe_take_bind hholds htotal).mp hsafe
    have hdesc := ((safe_take_bind (hholds.drop 4) htotal).mp hlen.2).1
    apply Spec.take hholds htotal hlen.1
    apply Spec.take (hholds.drop 4) htotal hdesc
    rw [decode_longString, takeBytes_of_le hlen.1]
    simp only [bind, Except.bind, takeBytes_of_le hdesc]
    exact .pure ((hholds.drop 4).drop _) rfl
  . exact .pure hholds rfl

theorem decodeAmfObject_last (fuel : Nat) {data : List UInt8} (hlen : 2 ≤ data.length)
    (hkey : read2Bytes (data.take 2) = 0) (hone : 1 ≤ (data.drop 2).length)
    : decodeAmfObject (fuel + 1) data =
        if (data.drop 2).take 1 = [typeObjectEnd] then .ok (true, [], data.drop 2) else .error .abort := by
  rw [decodeAmfObject, takeBytes_of_le hlen]
  . simp only [bind, Except.bind, if_pos hkey, takeBytes_of_le hone]
  . rintro rfl
    cases hlen

theorem decodeAmfObject_next (fuel : Nat) {data : List UInt8} (hlen : 2 ≤ data.length)
    (hkey : read2Bytes (data.take 2) ≠ 0) (hkeyLen : read2Bytes (data.take 2) ≤ (data.drop 2).length)
    (hone : 1 ≤ ((data.drop 2).drop (read2Bytes (data.take 2))).length)
    : decodeAmfObject (fuel + 1) data =
        let key := (data.drop 2).take (read2Bytes (data.take 2))
        let rest := (data.drop 2).drop (read2Bytes (data.take 2))
        if typeUnsupported < (rest.take 1).headD 0 then .ok (false, [], rest)
        else decode fuel rest >>= fun (ok, item, rest) =>
          if ok then decodeAmfObject fuel rest >>= fun (ok, fields, rest) =>
            .ok (ok, insertField key item fields, rest)
          else .ok (false, [], rest) := by
  rw [decodeAmfObject, takeBytes_of_le hlen]
  . simp only [bind, Except.bind, if_neg hkey, takeBytes_of_le hkeyLen, takeBytes_of_le hone]
  . rintro rfl
    cases hlen

theorem decodeAt_same_value (htotal : total < 2 ^ 31) {fuel : Nat} {data : List UInt8}
    (hholds : Holds mem total data)
    (hsafe : Safe total (decodeAt mem (fuel + 1)) (cursor total data))
    (ih : ∀ (kind : Kind) data, Holds mem total data → kind.SameAt mem total fuel data)
    : Spec mem total (decodeAt mem (fuel + 1)) data (Same (decode (fuel + 1) data) sameValue) := by
  rw [decodeAt_eq, safe_peek_bind hholds] at hsafe
  rcases hsafe with ⟨hone, hsafe⟩
  cases data with
  | nil => cases hone
  | cons type data =>
    by_cases htype : typeUnsupported < type
    . rw [decodeAt_eq]
      apply Spec.peek hholds hone
      rw [if_pos (by exact htype)]
      apply Spec.pure hholds
      unfold Same
      rw [decode, if_pos htype]
      rfl
    . rw [if_neg (by exact htype), safe_advance_bind hholds htotal (by decide)] at hsafe
      apply decodeAt_spec hholds htotal htype
      intro hdata
      exact decodeBody_same hdata htotal htype hsafe.2 ih

theorem decodeAt_same_fields (htotal : total < 2 ^ 31) {fuel : Nat} {data : List UInt8}
    (hholds : Holds mem total data)
    (hsafe : Safe total (decodeAmfObjectAt mem (fuel + 1)) (cursor total data))
    (ih : ∀ (kind : Kind) data, Holds mem total data → kind.SameAt mem total fuel data)
    : Spec mem total (decodeAmfObjectAt mem (fuel + 1)) data
        (Same (decodeAmfObject (fuel + 1) data) sameFields) := by
  rw [decodeAmfObjectAt_eq, safe_left_bind] at hsafe
  rw [decodeAmfObjectAt_eq]
  apply Spec.left
  by_cases hempty : data = []
  . subst hempty
    rw [if_pos (by simp)]
    exact .pure hholds rfl
  have hpos : ¬ (data.length : Int) ≤ 0 := by
    have := List.length_pos_of_ne_nil hempty
    omega
  rw [if_neg hpos, safe_take_bind hholds htotal] at hsafe
  rcases hsafe with ⟨hlen, hsafe⟩
  rw [if_neg hpos]
  apply Spec.take hholds htotal hlen
  by_cases hkey : read2Bytes (data.take 2) = 0
  . rw [if_pos hkey, safe_peek_bind (hholds.drop 2)] at hsafe
    rw [if_pos hkey, decodeAmfObject_last fuel hlen hkey hsafe.1]
    apply Spec.peek (hholds.drop 2) hsafe.1
    by_cases hmarker : (data.drop 2).take 1 = [typeObjectEnd]
    . rw [if_pos hmarker, if_pos hmarker]
      exact .pure (hholds.drop 2) rfl
    . rw [if_neg hmarker, if_neg hmarker]
      exact .stop ⟨.abort, rfl⟩
  . rw [if_neg hkey, safe_take_bind (hholds.drop 2) htotal] at hsafe
    rcases hsafe with ⟨hkeyLen, hsafe⟩
    have hrest := (hholds.drop 2).drop (read2Bytes (data.take 2))
    rw [safe_peek_bind hrest] at hsafe
    rcases hsafe with ⟨hone, hsafe⟩
    rw [if_neg hkey, decodeAmfObject_next fuel hlen hkey hkeyLen hone]
    apply Spec.take (hholds.drop 2) htotal hkeyLen
    apply Spec.peek hrest hone
    generalize hkeyBytes : (data.drop 2).take (read2Bytes (data.take 2)) = key at hsafe ⊢
    generalize (data.drop 2).drop (read2Bytes (data.take 2)) = rest at hrest hsafe ⊢
    by_cases htype : typeUnsupported < (rest.take 1).headD 0
    . rw [if_pos (by exact htype), if_pos (by exact htype)]
      exact .pure hrest rfl
    . rw [if_neg (by exact htype), if_neg (by exact htype)]
      rw [if_neg (by exact htype)] at hsafe
      have hvalue := ih .value rest hrest (safe_bind.mp hsafe).1
      apply Spec.bind_of_safe hvalue hsafe
      . rintro ⟨fault, hfault⟩
        exact ⟨fault, by simp only [bind, Except.bind, hfault]⟩
      . rintro ⟨ok, item⟩ left hleft hsame hsafe
        have hdecode : decode fuel rest = .ok (ok, item, left) := hsame
        simp only [bind, Except.bind, hdecode]
        cases ok with
        | false => exact .pure hleft rfl
        | true =>
          simp only [if_true] at hsafe ⊢
          apply Spec.bind (ih .fields left hleft (safe_bind.mp hsafe).1)
          . rintro ⟨fault, hfault⟩
            exact ⟨fault, by simp only [hfault]⟩
          . rintro ⟨ok, fields⟩ behind hbehind hfields
            have hobject : decodeAmfObject fuel left = .ok (ok, fields, behind) := hfields
            apply Spec.pure hbehind
            unfold Same
            simp only [hobject]
            rfl

theorem decodeAt_same_items {fuel count : Nat} {data : List UInt8} (hholds : Holds mem total data)
    (hsafe : Safe total (decodeAmfArrayAt mem (fuel + 1) (count + 1)) (cursor total data))
    (ih : ∀ (kind : Kind) data, Holds mem total data → kind.SameAt mem total fuel data)
    : Spec mem total (decodeAmfArrayAt mem (fuel + 1) (count + 1)) data
        (Same (decodeAmfArray (fuel + 1) (count + 1) data) id) := by
  rw [decodeAmfArrayAt_eq] at hsafe ⊢
  apply Spec.bind_of_safe (ih .value data hholds (safe_bind.mp hsafe).1) hsafe
  . rintro ⟨fault, hfault⟩
    exact ⟨fault, by simp only [decodeAmfArray, bind, Except.bind, hfault]⟩
  . rintro ⟨ok, item⟩ left hleft hsame hsafe
    have hdecode : decode fuel data = .ok (ok, item, left) := hsame
    simp only [decodeAmfArray, bind, Except.bind, hdecode]
    cases ok with
    | false => exact .pure hleft rfl
    | true =>
      simp only [if_true] at hsafe ⊢
      apply Spec.bind (ih (.items count) left hleft (safe_bind.mp hsafe).1)
      . rintro ⟨fault, hfault⟩
        exact ⟨fault, by simp only [hfault]⟩
      . intro items behind hbehind hitems
        have harray : decodeAmfArray fuel count left = .ok (items, behind) := hitems
        apply Spec.pure hbehind
        unfold Same
        simp only [harray]
        rfl

theorem decodeAt_same (htotal : total < 2 ^ 31) {fuel : Nat} (kind : Kind) (data : List UInt8)
    (hholds : Holds mem total data) : kind.SameAt mem total fuel data := by
  induction fuel generalizing kind data with
  | zero =>
    cases kind with
    | value => exact fun _ => .stop ⟨.hang, by rw [decode]⟩
    | fields => exact fun _ => .stop ⟨.hang, by rw [decodeAmfObject]⟩
    | items count => exact fun _ => .stop ⟨.hang, by rw [decodeAmfArray]⟩
  | succ fuel ih =>
    cases kind with
    | value => exact fun hsafe => decodeAt_same_value htotal hholds hsafe ih
    | fields => exact fun hsafe => decodeAt_same_fields htotal hholds hsafe ih
    | items count =>
      cases count with
      | zero => exact fun _ => .pure hholds (by unfold Same; rw [decodeAmfArray]; rfl)
      | succ count => exact fun hsafe => decodeAt_same_items hholds hsafe ih

end Decode

section Buffers

/--
The bytes from the pointer on. Behind the buffer there may be anything.
-/
def memory (buffer : List UInt8) (beyond : Nat → UInt8) (i : Nat) : UInt8 := buffer.getD i (beyond i)

/--
However many calls are nested, `Decode` reads inside the first `leftLen` bytes only, its count does not
become negative, and it goes down by what the pointer advances.
-/
def StaysInBounds (buffer : List UInt8) (leftLen : Nat) : Prop :=
  ∀ beyond fuel, Safe leftLen (decodeAt (memory buffer beyond) fuel) ⟨0, leftLen⟩

theorem memory_holds {buffer : List UInt8} {leftLen : Nat} (h : leftLen ≤ buffer.length)
    (beyond : Nat → UInt8) : Holds (memory buffer beyond) leftLen (buffer.take leftLen) where
  length_le := List.length_take_le _ _
  bytes i hi := by
    rw [List.length_take, Nat.min_eq_left h] at hi ⊢
    rw [Nat.sub_self, Nat.zero_add, List.getElem_take]
    unfold memory
    rw [List.getD_eq_getElem?_getD, List.getElem?_eq_getElem (by omega), Option.getD_some]

theorem memory_cursor {buffer : List UInt8} {leftLen : Nat} (h : leftLen ≤ buffer.length)
    : cursor leftLen (buffer.take leftLen) = ⟨0, leftLen⟩ := by
  unfold cursor
  rw [List.length_take, Nat.min_eq_left h, Nat.sub_self]

/--
Inside the bounds it makes no difference that the pointer and the count are two.
-/
theorem StaysInBounds.decode_same {buffer : List UInt8} {leftLen : Nat}
    (h : StaysInBounds buffer leftLen) (hlen : leftLen ≤ buffer.length) (hint : leftLen < 2 ^ 31)
    (beyond : Nat → UInt8) (fuel : Nat)
    : Spec (memory buffer beyond) leftLen (decodeAt (memory buffer beyond) fuel) (buffer.take leftLen)
        (Same (decode fuel (buffer.take leftLen)) sameValue) := by
  apply decodeAt_same hint .value _ (memory_holds hlen beyond)
  rw [memory_cursor hlen]
  exact h beyond fuel

theorem staysInBounds_iff (buffer : List UInt8) (leftLen : Nat) (hlen : leftLen ≤ buffer.length)
    (hint : leftLen < 2 ^ 31)
    : StaysInBounds buffer leftLen ↔ ∃ out, Complete .value (buffer.take leftLen) out := by
  constructor
  . intro h
    have hsafe := h (fun _ => 0) (2 * (buffer.take leftLen).length + 1)
    rw [← memory_cursor hlen] at hsafe
    exact complete_of_safe hint .value _ (memory_holds hlen _) ⟨Nat.lt_succ_self _, hsafe⟩
  . rintro ⟨out, hcomplete⟩ beyond fuel
    rw [← memory_cursor hlen]
    exact (hcomplete.spec hint (memory_holds hlen beyond) fuel).safe

/--
An object with one field.
-/
theorem staysInBounds_sample : StaysInBounds [3, 0, 1, 97, 5, 0, 0, 9, 255] 8 := by
  apply (staysInBounds_iff _ 8 (by decide) (by decide)).mpr
  have hnull : Complete .value [5, 0, 0, 9] (some (true, [0, 0, 9])) :=
    @Complete.fixed 5 [0, 0, 9] 0 rfl (by decide)
  have hend : Complete .fields [0, 0, 9] (some (true, [9])) :=
    @Complete.lastField [0, 0, 9] (by decide) (by decide)
  have hfields : Complete .fields [0, 1, 97, 5, 0, 0, 9] (some (true, [9])) :=
    @Complete.field [0, 1, 97, 5, 0, 0, 9] _ _ (by decide) (by decide) (by decide) hnull hend
  exact ⟨_, .object hfields⟩

/--
A number of which only the type is left.
-/
theorem not_staysInBounds
    : ¬ ∀ (buffer : List UInt8) (leftLen : Nat), leftLen ≤ buffer.length → leftLen < 2 ^ 31 →
        StaysInBounds buffer leftLen := by
  intro h
  have hsafe := h [0] 1 (by decide) (by decide) (fun _ => 0) 1
  have hread : Access.Within 1 (.read 1 8) := hsafe _ (.tail _ (.tail _ (.head _)))
  exact absurd hread (by unfold Access.Within; decide)

end Buffers

end Amf
