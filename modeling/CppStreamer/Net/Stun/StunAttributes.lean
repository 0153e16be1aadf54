import CppStreamer.Basic.Reading
import CppStreamer.Net.Stun.Stun

/-!
This module contains STUN messages as sequences of attributes, and which of them are parsed to the values of these.
-/

open ByteStream ByteCrypto

/--
What the parser accesses: it reads of its input, and writes `data_` from the begin.
-/
inductive StunCheck where
  | read (span : Reading.Span)
  | write (len : Nat)
  deriving DecidableEq, Repr

def StunCheck.Within (total : Nat) : StunCheck → Prop
  | .read span => span.Within total
  | .write len => len ≤ 8192

namespace StunPacket

section Checked

def read (offset len : Nat) : Checked StunCheck Unit := Checked.check (.read ⟨offset, len⟩)

/--
The length that an attribute must have, if the parser checks it.
-/
def checkedLength (attrType : Nat) : Option Nat :=
  if attrType = Stun.priority then some 4
  else if attrType = Stun.iceControlling then some 8
  else if attrType = Stun.iceControlled then some 8
  else if attrType = Stun.useCandidate then some 0
  else if attrType = Stun.messageIntegrity then some 20
  else if attrType = Stun.fingerprint then some 4
  else if attrType = Stun.errorCode then some 4
  else if attrType = Stun.xorMappedAddress then some 8
  else none

/--
What is read of a value with the right length. Of an error code it is the second half, and the message integrity is only
pointed to.
-/
def valueSpan (attrType pos attrLen : Nat) : Reading.Span :=
  if attrType = Stun.username then ⟨pos, attrLen⟩
  else if attrType = Stun.messageIntegrity then ⟨pos, 0⟩
  else if attrType = Stun.errorCode then ⟨pos + 2, 2⟩
  else ⟨pos, (checkedLength attrType).getD 0⟩

def parseAttributesChecked (data : List UInt8) (p : Nat) (s : ParseState) : Checked StunCheck (Option (Nat × ParseState)) :=
  if p + 4 < data.length then do
    read p 2
    read (p + 2) 2
    let attrType := read2Bytes (data.drop p)
    let attrLen := read2Bytes (data.drop (p + 2))
    if data.length < p + 4 + attrLen then return none
    else if s.hasFingerprint then return none
    else if s.hasMessageIntegrity ∧ attrType ≠ Stun.fingerprint then return none
    else
      match parseAttribute s attrType ((data.drop (p + 4)).take attrLen) (p + 4) with
      | none => return none
      | some s => do
        Checked.check (.read (valueSpan attrType (p + 4) attrLen))
        parseAttributesChecked data (p + 4 + (padTo4Bytes (.ofNat attrLen)).toNat) s
  else
    return some (p, s)
termination_by data.length - p

/--
The two bytes of the length are that of what is behind the header.
-/
def lengthFits (data : List UInt8) : Bool :=
  read2Bytes (data.drop 2) = data.length - 20 ∧ read2Bytes (data.drop 2) % 4 = 0

/--
What the loop begins with.
-/
def parseStart (data : List UInt8) : ParseState where
  packet :=
    { data := data
      stunMethod := msgMethod (.ofNat (read2Bytes data))
      stunClass := msgClass (data.getD 0 0) (data.getD 1 0)
      transactionId := (data.drop 8).take 12 }

def isStunChecked (data : List UInt8) : Checked StunCheck Bool :=
  if data.length < Stun.stunHeaderSize then return false
  else do
    read 0 1
    if 3 ≤ data.getD 0 0 then return false
    else do
      read 4 4
      return (data.drop 4).take 4 = Stun.magicCookie

/--
The end of `Parse`, for where the loop has come to.
-/
def checkEnd (data : List UInt8) (p : Nat) (s : ParseState) : Checked StunCheck (Option StunPacket) :=
  if p ≠ data.length then return none
  else if s.hasFingerprint then do
    read 0 s.fingerprintPos
    if s.packet.fingerprint ≠ (getCrc32 (data.take s.fingerprintPos) ^^^ Stun.fingerprintXor).toNat then return none
    else return some { s.packet with hasFingerprint := true }
  else return some s.packet

/--
The rest of `Parse` behind the header. The constructor copies the whole input into `data_`.
-/
def parseBody (data : List UInt8) : Checked StunCheck (Option StunPacket) := do
  Checked.check (.read ⟨0, data.length⟩)
  Checked.check (.write data.length)
  read 0 2
  read 8 12
  match ← parseAttributesChecked data 20 (parseStart data) with
  | none => return none
  | some (p, s) => checkEnd data p s

/--
`Parse` with what it accesses.
-/
def parseChecked (data : List UInt8) : Checked StunCheck (Option StunPacket) := do
  let stun ← isStunChecked data
  if stun then do
    read 0 4
    if lengthFits data then parseBody data else return none
  else return none

theorem value_parseAttributesChecked (data : List UInt8) (p : Nat) (s : ParseState)
    : (parseAttributesChecked data p s).value = parseAttributes data p s := by
  fun_induction parseAttributes data p s with
  | case1 p s hmore attrLen hlong =>
    rw [parseAttributesChecked, if_pos hmore]
    simp only [Checked.value_bind]
    rw [if_pos hlong]
    rfl
  | case2 p s hmore attrLen hlong hfingerprint =>
    rw [parseAttributesChecked, if_pos hmore]
    simp only [Checked.value_bind]
    rw [if_neg hlong, if_pos hfingerprint]
    rfl
  | case3 p s hmore attrType attrLen hlong hfingerprint hintegrity =>
    rw [parseAttributesChecked, if_pos hmore]
    simp only [Checked.value_bind]
    rw [if_neg hlong, if_neg hfingerprint, if_pos hintegrity]
    rfl
  | case4 p s hmore attrType attrLen hlong hfingerprint hintegrity hparse =>
    rw [parseAttributesChecked, if_pos hmore]
    simp only [Checked.value_bind]
    rw [if_neg hlong, if_neg hfingerprint, if_neg hintegrity]
    simp only [attrType, attrLen] at hparse
    rw [hparse]
    rfl
  | case5 p s hmore attrType attrLen hlong hfingerprint hintegrity s' hparse ih =>
    rw [parseAttributesChecked, if_pos hmore]
    simp only [Checked.value_bind]
    rw [if_neg hlong, if_neg hfingerprint, if_neg hintegrity]
    simp only [attrType, attrLen] at hparse
    rw [hparse]
    exact ih
  | case6 p s hmore =>
    rw [parseAttributesChecked, if_neg hmore]
    rfl

theorem value_isStunChecked (data : List UInt8) : (isStunChecked data).value = isStun data := by
  unfold isStunChecked isStun
  by_cases hshort : data.length < Stun.stunHeaderSize
  . rw [if_pos hshort]
    exact (decide_eq_false fun h => Nat.not_le.mpr hshort h.left).symm
  . rw [if_neg hshort]
    simp only [Checked.value_bind]
    by_cases hfirst : 3 ≤ data.getD 0 0
    . rw [if_pos hfirst]
      exact (decide_eq_false fun h => UInt8.not_le.mpr h.right.left hfirst).symm
    . rw [if_neg hfirst]
      apply decide_eq_decide.mpr
      rw [and_iff_right (Nat.le_of_not_lt hshort), and_iff_right (UInt8.not_le.mp hfirst)]

theorem value_parseChecked (data : List UInt8) : (parseChecked data).value = parse data := by
  have hlength : lengthFits data = true
      ↔ ¬(read2Bytes (data.drop 2) ≠ data.length - 20 ∨ read2Bytes (data.drop 2) % 4 ≠ 0) := by
    rw [lengthFits, decide_eq_true_iff, not_or, not_not, not_not]
  unfold parseChecked parse
  simp only [Checked.value_bind, value_isStunChecked]
  by_cases hstun : isStun data = true
  . rw [if_pos hstun, if_pos hstun]
    by_cases hfits : lengthFits data = true
    . rw [if_neg (hlength.mp hfits)]
      simp only [Checked.value_bind, if_pos hfits]
      rw [parseBody]
      simp only [Checked.value_bind, value_parseAttributesChecked]
      rw [parseStart]
      cases parseAttributes data 20 _ with
      | none => rfl
      | some result =>
        simp only [checkEnd]
        split
        . rfl
        . split
          . simp only [Checked.value_bind]
            split <;> rfl
          . rfl
    . rw [if_pos (not_not.mp fun h => hfits (hlength.mpr h))]
      simp only [Checked.value_bind, if_neg hfits]
      rfl
  . rw [if_neg hstun, if_neg hstun]
    rfl

end Checked

section Attribute

variable {s s' : ParseState} {attrType pos : Nat} {value : List UInt8}

def LengthOk (attrType len : Nat) : Prop := ∀ n ∈ checkedLength attrType, len = n

instance {attrType len : Nat} : Decidable (LengthOk attrType len) := inferInstanceAs (Decidable (∀ n ∈ _, _))

/--
The state behind an attribute with the right length: each field is that of one type.
-/
def ParseState.record (s : ParseState) (attrType : Nat) (value : List UInt8) (pos : Nat) : ParseState where
  hasFingerprint := if attrType = Stun.fingerprint then true else s.hasFingerprint
  hasMessageIntegrity := if attrType = Stun.messageIntegrity then true else s.hasMessageIntegrity
  fingerprintPos := if attrType = Stun.fingerprint then pos - 4 else s.fingerprintPos
  packet :=
    { s.packet with
      messageIntegrity := if attrType = Stun.messageIntegrity then some pos else s.packet.messageIntegrity
      username := if attrType = Stun.username then value else s.packet.username
      fingerprint := if attrType = Stun.fingerprint then read4Bytes value else s.packet.fingerprint
      priority := if attrType = Stun.priority then read4Bytes value else s.packet.priority
      iceControlling := if attrType = Stun.iceControlling then read8Bytes value else s.packet.iceControlling
      iceControlled := if attrType = Stun.iceControlled then read8Bytes value else s.packet.iceControlled
      errorCode := if attrType = Stun.errorCode then (value.getD 2 0).toNat * 100 + (value.getD 3 0).toNat
        else s.packet.errorCode
      xorAddress := if attrType = Stun.xorMappedAddress then some (readXorAddress value) else s.packet.xorAddress
      hasUseCandidate := if attrType = Stun.useCandidate then true else s.packet.hasUseCandidate }

theorem lengthOk_of_checked {n len : Nat} (h : checkedLength attrType = some n) : LengthOk attrType len ↔ len = n := by
  rw [LengthOk, h]
  exact ⟨fun h => h n rfl, fun h m hm => h.trans (Option.some.inj hm)⟩

theorem parseAttribute_eq (s : ParseState) (attrType : Nat) (value : List UInt8) (pos : Nat)
    : parseAttribute s attrType value pos
      = if LengthOk attrType value.length then some (s.record attrType value pos) else none := by
  have hcheck : ∀ (n : Nat) (next : ParseState), checkedLength attrType = some n →
      next = s.record attrType value pos →
      (if value.length ≠ n then none else some next)
        = if LengthOk attrType value.length then some (s.record attrType value pos) else none := by
    intro n next hchecked hnext
    by_cases hlength : value.length = n
    . rw [if_neg (not_not.mpr hlength), if_pos ((lengthOk_of_checked hchecked).mpr hlength), hnext]
    . rw [if_pos hlength, if_neg fun hok => hlength ((lengthOk_of_checked hchecked).mp hok)]
  rw [parseAttribute]
  by_cases husername : attrType = Stun.username
  . rw [if_pos husername, if_pos (by rw [LengthOk, husername]; intro n hn; cases hn), husername]
    rfl
  rw [if_neg husername]
  by_cases hpriority : attrType = Stun.priority
  . rw [if_pos hpriority]
    exact hcheck 4 _ (by rw [hpriority]; rfl) (by rw [hpriority]; rfl)
  rw [if_neg hpriority]
  by_cases hiceControlling : attrType = Stun.iceControlling
  . rw [if_pos hiceControlling]
    exact hcheck 8 _ (by rw [hiceControlling]; rfl) (by rw [hiceControlling]; rfl)
  rw [if_neg hiceControlling]
  by_cases hiceControlled : attrType = Stun.iceControlled
  . rw [if_pos hiceControlled]
    exact hcheck 8 _ (by rw [hiceControlled]; rfl) (by rw [hiceControlled]; rfl)
  rw [if_neg hiceControlled]
  by_cases huseCandidate : attrType = Stun.useCandidate
  . rw [if_pos huseCandidate]
    exact hcheck 0 _ (by rw [huseCandidate]; rfl) (by rw [huseCandidate]; rfl)
  rw [if_neg huseCandidate]
  by_cases hmessageIntegrity : attrType = Stun.messageIntegrity
  . rw [if_pos hmessageIntegrity]
    exact hcheck 20 _ (by rw [hmessageIntegrity]; rfl) (by rw [hmessageIntegrity]; rfl)
  rw [if_neg hmessageIntegrity]
  by_cases hfingerprint : attrType = Stun.fingerprint
  . rw [if_pos hfingerprint]
    exact hcheck 4 _ (by rw [hfingerprint]; rfl) (by rw [hfingerprint]; rfl)
  rw [if_neg hfingerprint]
  by_cases herrorCode : attrType = Stun.errorCode
  . rw [if_pos herrorCode]
    exact hcheck 4 _ (by rw [herrorCode]; rfl) (by rw [herrorCode]; rfl)
  rw [if_neg herrorCode]
  by_cases hxorMappedAddress : attrType = Stun.xorMappedAddress
  . rw [if_pos hxorMappedAddress]
    exact hcheck 8 _ (by rw [hxorMappedAddress]; rfl) (by rw [hxorMappedAddress]; rfl)
  rw [if_neg hxorMappedAddress]
  have hnone : checkedLength attrType = none := by
    rw [checkedLength, if_neg hpriority, if_neg hiceControlling, if_neg hiceControlled, if_neg huseCandidate,
      if_neg hmessageIntegrity, if_neg hfingerprint, if_neg herrorCode, if_neg hxorMappedAddress]
  rw [if_pos (by rw [LengthOk, hnone]; intro n hn; cases hn)]
  simp only [ParseState.record, if_neg husername, if_neg hpriority, if_neg hiceControlling, if_neg hiceControlled,
    if_neg huseCandidate, if_neg hmessageIntegrity, if_neg hfingerprint, if_neg herrorCode, if_neg hxorMappedAddress]

/--
What is read of a value lies in it.
-/
theorem valueSpan_within {attrLen total : Nat} (hok : LengthOk attrType attrLen) (hle : pos + attrLen ≤ total)
    : (valueSpan attrType pos attrLen).Within total := by
  unfold valueSpan Reading.Span.Within
  split
  . exact hle
  . split
    . exact Nat.le_trans (Nat.le_add_right _ _) hle
    . split
      . next herror =>
        have hlength := (lengthOk_of_checked (by rw [herror]; rfl)).mp hok
        simp only
        omega
      . cases hchecked : checkedLength attrType with
        | none => exact Nat.le_trans (Nat.le_add_right _ _) hle
        | some n =>
          rw [(lengthOk_of_checked hchecked).mp hok] at hle
          exact hle

end Attribute

section Inside

variable {data : List UInt8}

theorem passes_read {offset len total : Nat}
    : (read offset len).Passes (StunCheck.Within total) ↔ offset + len ≤ total := Checked.passes_check _

theorem passes_parseAttributesChecked (data : List UInt8) (p : Nat) (s : ParseState)
    : (parseAttributesChecked data p s).Passes (StunCheck.Within data.length) := by
  fun_induction parseAttributes data p s with
  | case1 p s hmore attrLen hlong =>
    rw [parseAttributesChecked, if_pos hmore]
    simp only [Checked.passes_bind, passes_read]
    rw [if_pos hlong]
    exact ⟨by omega, by omega, Checked.passes_pure _⟩
  | case2 p s hmore attrLen hlong hfingerprint =>
    rw [parseAttributesChecked, if_pos hmore]
    simp only [Checked.passes_bind, passes_read]
    rw [if_neg hlong, if_pos hfingerprint]
    exact ⟨by omega, by omega, Checked.passes_pure _⟩
  | case3 p s hmore attrType attrLen hlong hfingerprint hintegrity =>
    rw [parseAttributesChecked, if_pos hmore]
    simp only [Checked.passes_bind, passes_read]
    rw [if_neg hlong, if_neg hfingerprint, if_pos hintegrity]
    exact ⟨by omega, by omega, Checked.passes_pure _⟩
  | case4 p s hmore attrType attrLen hlong hfingerprint hintegrity hparse =>
    rw [parseAttributesChecked, if_pos hmore]
    simp only [Checked.passes_bind, passes_read]
    rw [if_neg hlong, if_neg hfingerprint, if_neg hintegrity]
    simp only [attrType, attrLen] at hparse
    rw [hparse]
    exact ⟨by omega, by omega, Checked.passes_pure _⟩
  | case5 p s hmore attrType attrLen hlong hfingerprint hintegrity s' hparse ih =>
    have hle : p + 4 + attrLen ≤ data.length := Nat.le_of_not_lt hlong
    have hlength : ((data.drop (p + 4)).take attrLen).length = attrLen := by
      rw [List.length_take, List.length_drop]
      omega
    have hok : LengthOk attrType attrLen := by
      rw [parseAttribute_eq, hlength] at hparse
      split at hparse
      . assumption
      . cases hparse
    rw [parseAttributesChecked, if_pos hmore]
    simp only [Checked.passes_bind, passes_read]
    rw [if_neg hlong, if_neg hfingerprint, if_neg hintegrity]
    simp only [attrType, attrLen] at hparse
    rw [hparse]
    simp only [Checked.passes_bind, Checked.passes_check]
    exact ⟨by omega, by omega, valueSpan_within hok hle, ih⟩
  | case6 p s hmore =>
    rw [parseAttributesChecked, if_neg hmore]
    exact Checked.passes_pure _

theorem fingerprintPos_le {p p' : Nat} {s s' : ParseState} (h : parseAttributes data p s = some (p', s'))
    (hle : s.fingerprintPos ≤ data.length) : s'.fingerprintPos ≤ data.length := by
  fun_induction parseAttributes data p s with
  | case1 => cases h
  | case2 => cases h
  | case3 => cases h
  | case4 => cases h
  | case5 p s hmore attrType attrLen hlong hfingerprint hintegrity next hparse ih =>
    apply ih h
    rw [parseAttribute_eq] at hparse
    split at hparse
    . cases hparse
      simp only [ParseState.record]
      split
      . omega
      . exact hle
    . cases hparse
  | case6 p s hmore =>
    cases h
    exact hle

/--
Nothing outside of the input is read, and the only write is that of the whole input.
-/
theorem passes_parseChecked_iff (data : List UInt8)
    : (parseChecked data).Passes (StunCheck.Within data.length)
      ↔ (isStun data = true → lengthFits data = true → data.length ≤ 8192) := by
  have hstun : (isStunChecked data).Passes (StunCheck.Within data.length)
      ∧ (isStun data = true → 20 ≤ data.length) := by
    unfold isStunChecked
    constructor
    . split
      . exact Checked.passes_pure _
      . next hlong =>
        rw [Stun.stunHeaderSize] at hlong
        simp only [Checked.passes_bind, passes_read]
        refine ⟨by omega, ?_⟩
        split
        . exact Checked.passes_pure _
        . simp only [Checked.passes_bind, passes_read]
          exact ⟨by omega, Checked.passes_pure _⟩
    . intro h
      exact (of_decide_eq_true h).left
  have hend : ∀ (p : Nat) (s : ParseState), s.fingerprintPos ≤ data.length →
      (checkEnd data p s).Passes (StunCheck.Within data.length) := by
    intro p s hle
    unfold checkEnd
    split
    . exact Checked.passes_pure _
    . split
      . simp only [Checked.passes_bind, passes_read]
        refine ⟨by omega, ?_⟩
        split <;> exact Checked.passes_pure _
      . exact Checked.passes_pure _
  have hbody : 20 ≤ data.length →
      ((parseBody data).Passes (StunCheck.Within data.length) ↔ data.length ≤ 8192) := by
    intro hlong
    unfold parseBody
    simp only [Checked.passes_bind, Checked.passes_check, passes_read, value_parseAttributesChecked]
    have hrest : ((match parseAttributes data 20 (parseStart data) with
        | none => pure none
        | some (p, s) => checkEnd data p s) : Checked StunCheck (Option StunPacket)).Passes
          (StunCheck.Within data.length) := by
      cases hloop : parseAttributes data 20 (parseStart data) with
      | none => exact Checked.passes_pure _
      | some result => exact hend result.1 result.2 (fingerprintPos_le hloop (Nat.zero_le _))
    constructor
    . exact fun h => h.right.left
    . intro hfits
      exact ⟨(Nat.zero_add _).le, hfits, by omega, by omega, passes_parseAttributesChecked _ _ _, hrest⟩
  unfold parseChecked
  simp only [Checked.passes_bind, value_isStunChecked, and_iff_right hstun.left]
  by_cases h : isStun data = true
  . have hlong := hstun.right h
    rw [if_pos h, imp_iff_right h]
    simp only [Checked.passes_bind, passes_read]
    by_cases hlength : lengthFits data = true
    . rw [if_pos hlength, imp_iff_right hlength, hbody hlong, and_iff_right (by omega)]
    . rw [if_neg hlength]
      exact iff_of_true ⟨by omega, Checked.passes_pure _⟩ (fun h => absurd h hlength)
  . rw [if_neg h]
    exact iff_of_true (Checked.passes_pure _) (fun h' => absurd h' h)

end Inside

end StunPacket

/--
An attribute with any padding.
-/
structure PaddedAttribute extends StunAttribute where
  padding : List UInt8
  type_lt : type < 2 ^ 16
  length_lt : value.length < 2 ^ 16
  length_padding : padding.length = (value.length + 3) / 4 * 4 - value.length

def PaddedAttribute.block (a : PaddedAttribute) : List UInt8 :=
  write2Bytes a.type ++ (write2Bytes a.value.length ++ (a.value ++ a.padding))

theorem PaddedAttribute.length_block (a : PaddedAttribute) : a.block.length = 4 + (a.value.length + 3) / 4 * 4 := by
  simp only [block, List.length_append, length_write2Bytes, a.length_padding]
  omega

namespace StunPacket

section Loop

variable {data rest : List UInt8} {s s' : ParseState} {a : PaddedAttribute} {attrs : List PaddedAttribute} {p : Nat}

/--
What the loop does for one attribute.
-/
def attributeStep (s : ParseState) (pos : Nat) (a : PaddedAttribute) : Option ParseState :=
  if s.hasFingerprint then none
  else if s.hasMessageIntegrity ∧ a.type ≠ Stun.fingerprint then none
  else parseAttribute s a.type a.value (pos + 4)

def runAttributes : ParseState → Nat → List PaddedAttribute → Option ParseState
  | s, _, [] => some s
  | s, pos, a :: attrs => (attributeStep s pos a).bind fun s => runAttributes s (pos + a.block.length) attrs

theorem parseAttributes_block (hdata : data.drop p = a.block ++ rest) (hmore : 4 < (a.block ++ rest).length)
    (hlen : a.value.length + 3 < 2 ^ 16)
    : parseAttributes data p s = (attributeStep s p a).bind (parseAttributes data (p + a.block.length)) := by
  have hdrop : data.drop p = write2Bytes a.type ++ (write2Bytes a.value.length ++ (a.value ++ (a.padding ++ rest))) := by
    rw [hdata, PaddedAttribute.block]
    simp only [List.append_assoc]
  have hdrop2 : data.drop (p + 2) = write2Bytes a.value.length ++ (a.value ++ (a.padding ++ rest)) := by
    rw [← List.drop_drop, hdrop, List.drop_left' (length_write2Bytes _)]
  have hdrop4 : data.drop (p + 4) = a.value ++ (a.padding ++ rest) := by
    rw [show p + 4 = p + 2 + 2 from rfl, ← List.drop_drop, hdrop2, List.drop_left' (length_write2Bytes _)]
  have hlength := congrArg List.length hdata
  have hlength4 := congrArg List.length hdrop4
  rw [List.length_drop] at hlength hlength4
  rw [List.length_append] at hlength4
  have hpad : (padTo4Bytes (.ofNat a.value.length)).toNat = (a.value.length + 3) / 4 * 4 := by
    have hnat : (UInt16.ofNat a.value.length).toNat = a.value.length := by
      rw [UInt16.toNat_ofNat', Nat.mod_eq_of_lt (by omega)]
    rw [toNat_padTo4Bytes (by rw [hnat]; exact hlen), hnat]
  rw [parseAttributes, if_pos (by omega)]
  simp only
  rw [hdrop, hdrop2, hdrop4, read2Bytes_write2Bytes, read2Bytes_write2Bytes, Nat.mod_eq_of_lt a.type_lt,
    Nat.mod_eq_of_lt a.length_lt, List.take_left, if_neg (by omega), hpad, attributeStep, a.length_block,
    ← Nat.add_assoc]
  split
  . rfl
  . split
    . rfl
    . cases parseAttribute s a.type a.value (p + 4) <;> rfl

/--
The loop over attributes, of which the last one has more than its header or something behind it.
-/
theorem parseAttributes_append (hdata : data.drop p = attrs.flatMap (·.block) ++ rest)
    (hlast : ∀ a ∈ attrs.getLast?, 4 < (a.block ++ rest).length) (hlen : ∀ a ∈ attrs, a.value.length + 3 < 2 ^ 16)
    : parseAttributes data p s
      = (runAttributes s p attrs).bind (parseAttributes data (p + (attrs.flatMap (·.block)).length)) := by
  induction attrs generalizing p s with
  | nil => rfl
  | cons a attrs ih =>
    rw [List.flatMap_cons, List.append_assoc] at hdata
    have hmore : 4 < (a.block ++ (attrs.flatMap (·.block) ++ rest)).length := by
      cases attrs with
      | nil => exact hlast a rfl
      | cons b attrs =>
        have hb := b.length_block
        have ha := a.length_block
        simp only [List.length_append, List.flatMap_cons]
        omega
    have hnext : data.drop (p + a.block.length) = attrs.flatMap (·.block) ++ rest := by
      rw [← List.drop_drop, hdata, List.drop_left]
    have hlast' : ∀ b ∈ attrs.getLast?, 4 < (b.block ++ rest).length := by
      intro b hb
      apply hlast b
      cases attrs with
      | nil => cases hb
      | cons c attrs => exact hb
    rw [parseAttributes_block hdata hmore (hlen a List.mem_cons_self), runAttributes, List.flatMap_cons,
      List.length_append, ← Nat.add_assoc, Option.bind_assoc]
    congr 1
    funext next
    exact ih hnext hlast' fun b hb => hlen b (List.mem_cons_of_mem _ hb)

theorem le_of_parseAttributes {p' : Nat} (h : parseAttributes data p s = some (p', s')) : p ≤ p' := by
  fun_induction parseAttributes data p s with
  | case1 => cases h
  | case2 => cases h
  | case3 => cases h
  | case4 => cases h
  | case5 p s hmore attrType attrLen hlong hfingerprint hintegrity next hparse ih =>
    have hle := ih h
    omega
  | case6 p s hmore =>
    cases h
    exact Nat.le_refl _

theorem write2Bytes_read2Bytes_take {l : List UInt8} (h : 2 ≤ l.length) : write2Bytes (read2Bytes l) = l.take 2 := by
  have hlength : (l.take 2).length = 2 := by
    rw [List.length_take]
    omega
  have hread := read2Bytes_append (l.take 2) (l.drop 2) (by omega)
  rw [List.take_append_drop] at hread
  rw [hread, write2Bytes_read2Bytes hlength]

/--
An attribute can be cut off where there is enough for it and its padding.
-/
theorem exists_block (hlong : p + 4 + (read2Bytes (data.drop (p + 2)) + 3) / 4 * 4 ≤ data.length)
    : ∃ a : PaddedAttribute, a.type = read2Bytes (data.drop p)
      ∧ a.value = (data.drop (p + 4)).take (read2Bytes (data.drop (p + 2)))
      ∧ data.drop p = a.block ++ data.drop (p + a.block.length) := by
  have hlt := read2Bytes_lt (data.drop (p + 2))
  have htype := write2Bytes_read2Bytes_take (show 2 ≤ (data.drop p).length by rw [List.length_drop]; omega)
  have hattrLen := write2Bytes_read2Bytes_take (show 2 ≤ (data.drop (p + 2)).length by rw [List.length_drop]; omega)
  generalize read2Bytes (data.drop (p + 2)) = attrLen at hlong hlt hattrLen ⊢
  have hlength : ((data.drop (p + 4)).take attrLen).length = attrLen := by
    rw [List.length_take, List.length_drop]
    omega
  have hpadding : ((data.drop (p + 4 + attrLen)).take ((attrLen + 3) / 4 * 4 - attrLen)).length
      = (attrLen + 3) / 4 * 4 - attrLen := by
    rw [List.length_take, List.length_drop]
    omega
  let a : PaddedAttribute :=
    { type := read2Bytes (data.drop p)
      value := (data.drop (p + 4)).take attrLen
      padding := (data.drop (p + 4 + attrLen)).take ((attrLen + 3) / 4 * 4 - attrLen)
      type_lt := read2Bytes_lt _
      length_lt := by rwa [hlength]
      length_padding := by rw [hlength, hpadding] }
  have hblock : a.block.length = 4 + (attrLen + 3) / 4 * 4 := by
    rw [a.length_block, hlength]
  refine ⟨a, rfl, rfl, ?_⟩
  have hdrop : ∀ q len, (data.drop q).take len ++ data.drop (q + len) = data.drop q := by
    intro q len
    rw [← List.drop_drop, List.take_append_drop]
  have hend : p + a.block.length = p + 4 + attrLen + ((attrLen + 3) / 4 * 4 - attrLen) := by
    omega
  rw [hend, PaddedAttribute.block, htype, hlength, hattrLen, List.append_assoc, List.append_assoc, List.append_assoc,
    hdrop, hdrop, show p + 4 = p + 2 + 2 from rfl, hdrop, hdrop]

/--
A loop that comes to the end has found attributes.
-/
theorem exists_attributes (h : parseAttributes data p s = some (data.length, s')) (hsize : data.length - p < 2 ^ 16)
    : ∃ attrs : List PaddedAttribute, data.drop p = attrs.flatMap (·.block) ∧ runAttributes s p attrs = some s'
      ∧ ∀ a ∈ attrs.getLast?, a.value ≠ [] := by
  fun_induction parseAttributes data p s with
  | case1 => cases h
  | case2 => cases h
  | case3 => cases h
  | case4 => cases h
  | case5 p s hmore attrType attrLen hlong hfingerprint hintegrity next hparse ih =>
    have hle := le_of_parseAttributes h
    have hpad : (padTo4Bytes (.ofNat attrLen)).toNat = (attrLen + 3) / 4 * 4 := by
      have hnat : (UInt16.ofNat attrLen).toNat = attrLen := by
        rw [UInt16.toNat_ofNat', Nat.mod_eq_of_lt (by omega)]
      rw [toNat_padTo4Bytes (by omega), hnat]
    rw [hpad] at hle ih
    obtain ⟨a, htype, hvalue, hdata⟩ := @exists_block data p hle
    have hfits : attrLen ≤ data.length - (p + 4) := by
      omega
    have hlength : a.value.length = attrLen := by
      rw [hvalue, List.length_take, List.length_drop]
      exact Nat.min_eq_left hfits
    have hnext : p + a.block.length = p + 4 + (attrLen + 3) / 4 * 4 := by
      rw [a.length_block, hlength]
      omega
    obtain ⟨attrs, hattrs, hrun, hlast⟩ := ih (by rw [← hpad]; exact h) (by omega)
    rw [← hnext] at hattrs hrun
    refine ⟨a :: attrs, ?_, ?_, ?_⟩
    . rw [List.flatMap_cons, ← hattrs]
      exact hdata
    . rw [runAttributes, attributeStep, if_neg hfingerprint, htype, if_neg hintegrity, hvalue, hparse]
      exact hrun
    . cases attrs with
      | nil =>
        intro b hb hnil
        have hab : a = b := Option.some.inj hb
        have hrest := congrArg List.length hattrs
        rw [List.flatMap_nil, List.length_nil, List.length_drop] at hrest
        rw [hab, hnil, List.length_nil] at hlength
        omega
      | cons b attrs => exact hlast
  | case6 p s hmore =>
    cases h
    refine ⟨[], ?_, rfl, fun a ha => nomatch ha⟩
    rw [List.drop_length]
    rfl

end Loop

section Recording

variable {s s' : ParseState} {a : PaddedAttribute} {attrs : List PaddedAttribute} {pos : Nat}

/--
Nothing follows a fingerprint, and only a fingerprint follows a message integrity.
-/
def Follows (a b : PaddedAttribute) : Prop :=
  a.type ≠ Stun.fingerprint ∧ (a.type = Stun.messageIntegrity → b.type = Stun.fingerprint)

def recordAll : ParseState → Nat → List PaddedAttribute → ParseState
  | s, _, [] => s
  | s, pos, a :: attrs => recordAll (s.record a.type a.value (pos + 4)) (pos + a.block.length) attrs

theorem attributeStep_eq_some_iff
    : attributeStep s pos a = some s' ↔ (s.hasFingerprint = false
      ∧ (s.hasMessageIntegrity = true → a.type = Stun.fingerprint) ∧ LengthOk a.type a.value.length)
      ∧ s' = s.record a.type a.value (pos + 4) := by
  rw [attributeStep, parseAttribute_eq]
  by_cases hfingerprint : s.hasFingerprint = true
  . rw [if_pos hfingerprint, hfingerprint]
    exact iff_of_false (fun h => nomatch h) (fun h => nomatch h.left.left)
  . rw [if_neg hfingerprint, and_iff_right (Bool.eq_false_of_not_eq_true hfingerprint)]
    by_cases hintegrity : s.hasMessageIntegrity = true ∧ a.type ≠ Stun.fingerprint
    . rw [if_pos hintegrity]
      exact iff_of_false (fun h => nomatch h) (fun h => hintegrity.right (h.left.left hintegrity.left))
    . have hfollows : s.hasMessageIntegrity = true → a.type = Stun.fingerprint :=
        fun h => not_not.mp fun hne => hintegrity ⟨h, hne⟩
      rw [if_neg hintegrity, and_iff_right hfollows]
      by_cases hlength : LengthOk a.type a.value.length
      . rw [if_pos hlength, and_iff_right hlength, Option.some.injEq, eq_comm]
      . rw [if_neg hlength]
        exact iff_of_false (fun h => nomatch h) (fun h => hlength h.left)

theorem runAttributes_eq_some_iff
    : runAttributes s pos attrs = some s' ↔ ((∀ a ∈ attrs, LengthOk a.type a.value.length)
      ∧ attrs.Pairwise Follows ∧ (s.hasFingerprint = true → attrs = [])
      ∧ (s.hasMessageIntegrity = true → ∀ a ∈ attrs, a.type = Stun.fingerprint)) ∧ s' = recordAll s pos attrs := by
  induction attrs generalizing s pos with
  | nil =>
    rw [runAttributes, recordAll, Option.some.injEq, eq_comm]
    have htrue : (∀ a ∈ ([] : List PaddedAttribute), LengthOk a.type a.value.length)
        ∧ List.Pairwise Follows [] ∧ (s.hasFingerprint = true → ([] : List PaddedAttribute) = [])
        ∧ (s.hasMessageIntegrity = true → ∀ a ∈ ([] : List PaddedAttribute), a.type = Stun.fingerprint) :=
      ⟨List.forall_mem_nil _, List.Pairwise.nil, fun _ => rfl, fun _ => List.forall_mem_nil _⟩
    rw [and_iff_right htrue]
  | cons a attrs ih =>
    rw [runAttributes, recordAll, Option.bind_eq_some_iff, List.forall_mem_cons, List.pairwise_cons]
    constructor
    . rintro ⟨next, hstep, hrun⟩
      obtain ⟨⟨hfingerprint, hintegrity, hlength⟩, rfl⟩ := attributeStep_eq_some_iff.mp hstep
      obtain ⟨⟨hlengths, horder, hlast, hfollow⟩, rfl⟩ := ih.mp hrun
      simp only [ParseState.record] at hlast hfollow
      refine ⟨⟨⟨hlength, hlengths⟩, ⟨?_, horder⟩, ?_, ?_⟩, rfl⟩
      . intro b hb
        constructor
        . intro htype
          rw [hlast (if_pos htype)] at hb
          cases hb
        . exact fun htype => hfollow (if_pos htype) b hb
      . intro hset
        rw [hfingerprint] at hset
        cases hset
      . intro hset
        rw [List.forall_mem_cons]
        refine ⟨hintegrity hset, ?_⟩
        apply hfollow
        split
        . rfl
        . exact hset
    . rintro ⟨⟨⟨hlength, hlengths⟩, ⟨hfirst, horder⟩, hlast, hfollow⟩, rfl⟩
      have hfingerprint : s.hasFingerprint = false := by
        cases hset : s.hasFingerprint with
        | false => rfl
        | true => cases hlast hset
      have hintegrity : s.hasMessageIntegrity = true → a.type = Stun.fingerprint :=
        fun hset => hfollow hset a List.mem_cons_self
      refine ⟨_, attributeStep_eq_some_iff.mpr ⟨⟨hfingerprint, hintegrity, hlength⟩, rfl⟩, ?_⟩
      refine ih.mpr ⟨⟨hlengths, horder, ?_, ?_⟩, rfl⟩
      . simp only [ParseState.record, hfingerprint]
        intro hset
        have htype : a.type = Stun.fingerprint := by
          by_contra hne
          rw [if_neg hne] at hset
          cases hset
        apply List.eq_nil_iff_forall_not_mem.mpr
        exact fun b hb => (hfirst b hb).left htype
      . simp only [ParseState.record]
        intro hset b hb
        by_cases htype : a.type = Stun.messageIntegrity
        . exact (hfirst b hb).right htype
        . rw [if_neg htype] at hset
          exact hfollow hset b (List.mem_cons_of_mem _ hb)

/--
The value of the last attribute with a type.
-/
def lastValue (attrs : List PaddedAttribute) (attrType : Nat) : Option (List UInt8) :=
  ((attrs.filter fun a => a.type = attrType).getLast?).map (·.value)

theorem lastValue_cons (a : PaddedAttribute) (attrs : List PaddedAttribute) (attrType : Nat)
    : lastValue (a :: attrs) attrType
      = (lastValue attrs attrType).or (if a.type = attrType then some a.value else none) := by
  rw [lastValue, lastValue, List.filter_cons]
  by_cases htype : a.type = attrType
  . rw [if_pos (decide_eq_true htype), if_pos htype, List.getLast?_cons]
    cases (attrs.filter fun a => a.type = attrType).getLast? <;> rfl
  . rw [if_neg (by simpa using htype), if_neg htype, Option.or_none]

/--
A field that one type sets is that of the last attribute with this type.
-/
theorem recordAll_field {β : Type} (attrType : Nat) (field : ParseState → β) (f : List UInt8 → β)
    (hrecord : ∀ s t value pos, field (ParseState.record s t value pos) = if t = attrType then f value else field s)
    : field (recordAll s pos attrs) = ((lastValue attrs attrType).map f).getD (field s) := by
  induction attrs generalizing s pos with
  | nil => rfl
  | cons a attrs ih =>
    rw [recordAll, ih, hrecord, lastValue_cons]
    cases lastValue attrs attrType with
    | some value => rfl
    | none => by_cases htype : a.type = attrType <;> simp [htype]

theorem recordAll_kept {β : Type} (field : ParseState → β)
    (hrecord : ∀ s t value pos, field (ParseState.record s t value pos) = field s)
    : field (recordAll s pos attrs) = field s := by
  induction attrs generalizing s pos with
  | nil => rfl
  | cons a attrs ih => rw [recordAll, ih, hrecord]

theorem lastValue_eq_none_iff {attrType : Nat} : lastValue attrs attrType = none ↔ ∀ a ∈ attrs, a.type ≠ attrType := by
  rw [lastValue, Option.map_eq_none_iff, List.getLast?_eq_none_iff, List.filter_eq_nil_iff]
  simp only [decide_eq_true_eq]

theorem hasFingerprint_recordAll (hstart : s.hasFingerprint = false)
    : (recordAll s pos attrs).hasFingerprint = (lastValue attrs Stun.fingerprint).isSome := by
  rw [recordAll_field Stun.fingerprint (·.hasFingerprint) (fun _ => true) (fun _ _ _ _ => rfl), hstart]
  cases lastValue attrs Stun.fingerprint <;> rfl

theorem recordAll_append (front : List PaddedAttribute) (a : PaddedAttribute)
    : recordAll s pos (front ++ [a])
      = (recordAll s pos front).record a.type a.value (pos + (front.flatMap (·.block)).length + 4) := by
  induction front generalizing s pos with
  | nil => rfl
  | cons b front ih => rw [List.cons_append, recordAll, ih, recordAll, List.flatMap_cons, List.length_append, Nat.add_assoc pos]

/--
The message integrity points to the value of the last attribute with its type.
-/
theorem messageIntegrity_recordAll {data : List UInt8} (hdata : data.drop pos = attrs.flatMap (·.block))
    (hlengths : ∀ a ∈ attrs, LengthOk a.type a.value.length)
    : (recordAll s pos attrs).packet.messageIntegrity.map (fun at_ => (data.drop at_).take 20)
      = (lastValue attrs Stun.messageIntegrity).or
        (s.packet.messageIntegrity.map fun at_ => (data.drop at_).take 20) := by
  induction attrs generalizing s pos with
  | nil => rfl
  | cons a attrs ih =>
    rw [List.flatMap_cons] at hdata
    obtain ⟨hlength, hlengths⟩ := List.forall_mem_cons.mp hlengths
    have hnext : data.drop (pos + a.block.length) = attrs.flatMap (·.block) := by
      rw [← List.drop_drop, hdata, List.drop_left]
    have hvalue : data.drop (pos + 4) = a.value ++ (a.padding ++ attrs.flatMap (·.block)) := by
      rw [← List.drop_drop, hdata, PaddedAttribute.block, ← List.append_assoc (write2Bytes a.type), List.append_assoc,
        List.drop_left' (by rw [List.length_append, length_write2Bytes, length_write2Bytes]), List.append_assoc]
    rw [recordAll, ih hnext hlengths, lastValue_cons]
    cases lastValue attrs Stun.messageIntegrity with
    | some value => rfl
    | none =>
      simp only [Option.none_or, ParseState.record]
      by_cases htype : a.type = Stun.messageIntegrity
      . have htwenty : a.value.length = 20 := (lengthOk_of_checked (by rw [htype]; rfl)).mp hlength
        rw [if_pos htype, if_pos htype, Option.map_some, hvalue, List.take_left' htwenty]
        rfl
      . rw [if_neg htype, if_neg htype]
        rfl

end Recording

section Messages

variable {data : List UInt8} {attrs : List PaddedAttribute} {packet : StunPacket}

/--
A header, and attributes in an allowed order, of which those that are checked have their lengths. If the last one is a
fingerprint it is that of the bytes in front of it.
-/
structure WellFormed (data : List UInt8) (attrs : List PaddedAttribute) : Prop where
  isStun : isStun data = true
  length : read2Bytes (data.drop 2) = data.length - 20
  blocks : data.drop 20 = attrs.flatMap (·.block)
  lengths : ∀ a ∈ attrs, LengthOk a.type a.value.length
  order : attrs.Pairwise Follows
  fingerprint : ∀ a ∈ attrs.getLast?, a.type = Stun.fingerprint →
    read4Bytes a.value = (getCrc32 (data.take (data.length - 8)) ^^^ Stun.fingerprintXor).toNat

/--
The packet has the values of the attributes, of several ones with a type that of the last.
-/
structure Reports (data : List UInt8) (attrs : List PaddedAttribute) (packet : StunPacket) : Prop where
  username : packet.username = (lastValue attrs Stun.username).getD []
  priority : packet.priority = ((lastValue attrs Stun.priority).map read4Bytes).getD 0
  iceControlling : packet.iceControlling = ((lastValue attrs Stun.iceControlling).map read8Bytes).getD 0
  iceControlled : packet.iceControlled = ((lastValue attrs Stun.iceControlled).map read8Bytes).getD 0
  hasUseCandidate : packet.hasUseCandidate = (lastValue attrs Stun.useCandidate).isSome
  messageIntegrity : packet.messageIntegrity.map (fun pos => (data.drop pos).take 20)
    = lastValue attrs Stun.messageIntegrity
  fingerprint : packet.fingerprint = ((lastValue attrs Stun.fingerprint).map read4Bytes).getD 0
  hasFingerprint : packet.hasFingerprint = (lastValue attrs Stun.fingerprint).isSome
  errorCode : packet.errorCode = ((lastValue attrs Stun.errorCode).map fun value =>
    (value.getD 2 0).toNat * 100 + (value.getD 3 0).toNat).getD 0
  xorAddress : packet.xorAddress = (lastValue attrs Stun.xorMappedAddress).map readXorAddress

/--
A message is parsed to the values of its attributes, nothing else is parsed, and what is read and written lies in the
input and in `data_`.
-/
structure ParsesExactly (data : List UInt8) : Prop where
  accepts : ∀ attrs, WellFormed data attrs → ∃ packet, (parseChecked data).value = some packet
    ∧ Reports data attrs packet
  rejects : (∀ attrs, ¬WellFormed data attrs) → (parseChecked data).value = none
  inside : (parseChecked data).Passes (StunCheck.Within data.length)

/--
The packet at the end.
-/
def ParseState.finished (s : ParseState) : StunPacket :=
  if s.hasFingerprint then { s.packet with hasFingerprint := true } else s.packet

theorem parse_eq_some_iff
    : parse data = some packet ↔ isStun data = true ∧ lengthFits data = true
      ∧ ∃ s, parseAttributes data 20 (parseStart data) = some (data.length, s)
        ∧ (s.hasFingerprint = true →
          s.packet.fingerprint = (getCrc32 (data.take s.fingerprintPos) ^^^ Stun.fingerprintXor).toNat)
        ∧ packet = s.finished := by
  rw [← value_parseChecked, parseChecked]
  simp only [Checked.value_bind, value_isStunChecked]
  by_cases hstun : isStun data = true
  . rw [if_pos hstun, and_iff_right hstun]
    by_cases hfits : lengthFits data = true
    . rw [and_iff_right hfits]
      simp only [Checked.value_bind, if_pos hfits]
      rw [parseBody]
      simp only [Checked.value_bind, value_parseAttributesChecked]
      cases parseAttributes data 20 (parseStart data) with
      | none => exact iff_of_false (fun h => nomatch h) (fun ⟨s, h, _⟩ => nomatch h)
      | some result =>
        obtain ⟨p, s⟩ := result
        simp only [checkEnd, Option.some.injEq, Prod.mk.injEq]
        by_cases hend : p = data.length
        . rw [if_neg (not_not.mpr hend)]
          have hstate : (∃ s', (p = data.length ∧ s = s') ∧ (s'.hasFingerprint = true →
              s'.packet.fingerprint = (getCrc32 (data.take s'.fingerprintPos) ^^^ Stun.fingerprintXor).toNat)
              ∧ packet = s'.finished)
              ↔ (s.hasFingerprint = true →
                s.packet.fingerprint = (getCrc32 (data.take s.fingerprintPos) ^^^ Stun.fingerprintXor).toNat)
              ∧ packet = s.finished := by
            constructor
            . rintro ⟨s', ⟨-, rfl⟩, h⟩
              exact h
            . exact fun h => ⟨s, ⟨hend, rfl⟩, h⟩
          rw [hstate, ParseState.finished]
          by_cases hset : s.hasFingerprint = true
          . rw [if_pos hset, if_pos hset, imp_iff_right hset]
            simp only [Checked.value_bind]
            by_cases hcrc : s.packet.fingerprint
                = (getCrc32 (data.take s.fingerprintPos) ^^^ Stun.fingerprintXor).toNat
            . rw [if_neg (not_not.mpr hcrc), and_iff_right hcrc, Checked.value_pure, Option.some.injEq, eq_comm]
            . rw [if_pos hcrc]
              exact iff_of_false (fun h => nomatch h) (fun h => hcrc h.left)
          . rw [if_neg hset, if_neg hset, and_iff_right (fun h => absurd h hset), Checked.value_pure,
              Option.some.injEq, eq_comm]
        . rw [if_pos hend]
          exact iff_of_false (fun h => nomatch h) (fun ⟨s, h, _⟩ => hend h.left)
    . simp only [Checked.value_bind, if_neg hfits]
      exact iff_of_false (fun h => nomatch h) (fun h => hfits h.left)
  . rw [if_neg hstun]
    exact iff_of_false (fun h => nomatch h) (fun h => hstun h.left)

theorem WellFormed.le_length (h : WellFormed data attrs) : 20 ≤ data.length := (of_decide_eq_true h.isStun).left

theorem WellFormed.length_eq (h : WellFormed data attrs) : data.length = 20 + (attrs.flatMap (·.block)).length := by
  have hlength := congrArg List.length h.blocks
  have hle := h.le_length
  rw [List.length_drop] at hlength
  omega

theorem length_blocks_mod (attrs : List PaddedAttribute) : (attrs.flatMap (·.block)).length % 4 = 0 := by
  induction attrs with
  | nil => rfl
  | cons a attrs ih =>
    rw [List.flatMap_cons, List.length_append, a.length_block]
    omega

theorem WellFormed.lengthFits (h : WellFormed data attrs) : lengthFits data = true := by
  have hmod := length_blocks_mod attrs
  have hlength := h.length_eq
  have hfield := h.length
  apply decide_eq_true
  omega

theorem WellFormed.size_lt (h : WellFormed data attrs) : data.length - 20 < 2 ^ 16 := by
  rw [← h.length]
  exact read2Bytes_lt _

theorem WellFormed.value_lt (h : WellFormed data attrs) : ∀ a ∈ attrs, a.value.length + 3 < 2 ^ 16 := by
  intro a ha
  have hsize := h.size_lt
  have hlength := h.length_eq
  obtain ⟨front, back, rfl⟩ := List.append_of_mem ha
  rw [List.flatMap_append, List.flatMap_cons, List.length_append, List.length_append, a.length_block] at hlength
  omega

/--
The fingerprint is the last attribute, so that it is compared exactly if it is there.
-/
theorem fingerprint_recordAll_iff (hblocks : data.drop 20 = attrs.flatMap (·.block)) (hle : 20 ≤ data.length)
    (hlengths : ∀ a ∈ attrs, LengthOk a.type a.value.length) (horder : attrs.Pairwise Follows)
    : ((recordAll (parseStart data) 20 attrs).hasFingerprint = true →
        (recordAll (parseStart data) 20 attrs).packet.fingerprint
          = (getCrc32 (data.take (recordAll (parseStart data) 20 attrs).fingerprintPos) ^^^ Stun.fingerprintXor).toNat)
      ↔ ∀ a ∈ attrs.getLast?, a.type = Stun.fingerprint →
        read4Bytes a.value = (getCrc32 (data.take (data.length - 8)) ^^^ Stun.fingerprintXor).toNat := by
  rcases List.eq_nil_or_concat attrs with rfl | ⟨front, a, rfl⟩
  . exact iff_of_true (fun h => nomatch h) (fun a ha => nomatch ha)
  . rw [List.concat_eq_append] at *
    have hlast : (front ++ [a]).getLast? = some a := List.getLast?_concat
    have hlength := congrArg List.length hblocks
    rw [List.flatMap_append, List.flatMap_singleton, List.length_append, List.length_drop, a.length_block] at hlength
    rw [hlast, recordAll_append]
    simp only [Option.mem_some_iff, forall_eq', ParseState.record]
    by_cases htype : a.type = Stun.fingerprint
    . have hfour : a.value.length = 4 :=
        (lengthOk_of_checked (by rw [htype]; rfl)).mp (hlengths a (List.mem_append_right _ List.mem_cons_self))
      have hpos : 20 + (front.flatMap (·.block)).length + 4 - 4 = data.length - 8 := by
        omega
      rw [if_pos htype, if_pos htype, if_pos htype, hpos, imp_iff_right rfl, imp_iff_right htype]
    . rw [if_neg htype, if_neg htype, if_neg htype]
      refine iff_of_true ?_ (fun h => absurd h htype)
      have hfront : lastValue front Stun.fingerprint = none := by
        apply lastValue_eq_none_iff.mpr
        intro b hb
        exact ((List.pairwise_append.mp horder).right.right b hb a List.mem_cons_self).left
      rw [hasFingerprint_recordAll rfl, hfront]
      exact fun h => nomatch h

theorem reports_recordAll (hblocks : data.drop 20 = attrs.flatMap (·.block))
    (hlengths : ∀ a ∈ attrs, LengthOk a.type a.value.length)
    : Reports data attrs (recordAll (parseStart data) 20 attrs).finished := by
  have hset := @hasFingerprint_recordAll (parseStart data) attrs 20 rfl
  have hfinished : ∀ {β : Type} (field : StunPacket → β),
      (∀ packet b, field { packet with hasFingerprint := b } = field packet) →
      field (recordAll (parseStart data) 20 attrs).finished = field (recordAll (parseStart data) 20 attrs).packet := by
    intro β field hfield
    rw [ParseState.finished]
    split
    . exact hfield _ true
    . rfl
  constructor
  . rw [hfinished (·.username) fun _ _ => rfl, recordAll_field Stun.username (·.packet.username) id
      fun _ _ _ _ => rfl, Option.map_id, id]
    rfl
  . rw [hfinished (·.priority) fun _ _ => rfl, recordAll_field Stun.priority (·.packet.priority) read4Bytes
      fun _ _ _ _ => rfl]
    rfl
  . rw [hfinished (·.iceControlling) fun _ _ => rfl, recordAll_field Stun.iceControlling
      (·.packet.iceControlling) read8Bytes fun _ _ _ _ => rfl]
    rfl
  . rw [hfinished (·.iceControlled) fun _ _ => rfl, recordAll_field Stun.iceControlled
      (·.packet.iceControlled) read8Bytes fun _ _ _ _ => rfl]
    rfl
  . rw [hfinished (·.hasUseCandidate) fun _ _ => rfl, recordAll_field Stun.useCandidate
      (·.packet.hasUseCandidate) (fun _ => true) fun _ _ _ _ => rfl]
    cases lastValue attrs Stun.useCandidate <;> rfl
  . rw [hfinished (·.messageIntegrity) fun _ _ => rfl, messageIntegrity_recordAll hblocks hlengths]
    exact Option.or_none
  . rw [hfinished (·.fingerprint) fun _ _ => rfl, recordAll_field Stun.fingerprint
      (·.packet.fingerprint) read4Bytes fun _ _ _ _ => rfl]
    rfl
  . rw [← hset, ParseState.finished]
    split
    . next h => exact h.symm
    . next h =>
      rw [recordAll_kept (·.packet.hasFingerprint) fun _ _ _ _ => rfl, Bool.eq_false_of_not_eq_true h]
      rfl
  . rw [hfinished (·.errorCode) fun _ _ => rfl, recordAll_field Stun.errorCode
      (·.packet.errorCode) _ fun _ _ _ _ => rfl]
    rfl
  . rw [hfinished (·.xorAddress) fun _ _ => rfl, recordAll_field Stun.xorMappedAddress
      (·.packet.xorAddress) (fun value => some (readXorAddress value)) fun _ _ _ _ => rfl]
    cases lastValue attrs Stun.xorMappedAddress <;> rfl

theorem WellFormed.runAttributes (h : WellFormed data attrs)
    : runAttributes (parseStart data) 20 attrs = some (recordAll (parseStart data) 20 attrs) :=
  runAttributes_eq_some_iff.mpr ⟨⟨h.lengths, h.order, (fun h => nomatch h), (fun h => nomatch h)⟩, rfl⟩

theorem WellFormed.parse (h : WellFormed data attrs) (hlast : ∀ a ∈ attrs.getLast?, a.value ≠ [])
    : ∃ packet, parse data = some packet ∧ Reports data attrs packet := by
  have hmore : ∀ a ∈ attrs.getLast?, 4 < (a.block ++ []).length := by
    intro a ha
    have hpos := List.length_pos_iff.mpr (hlast a ha)
    rw [List.append_nil, a.length_block]
    omega
  have hloop := parseAttributes_append (s := parseStart data) (by rw [List.append_nil]; exact h.blocks) hmore h.value_lt
  rw [h.runAttributes, Option.bind_some, ← h.length_eq, parseAttributes_end] at hloop
  refine ⟨(recordAll (parseStart data) 20 attrs).finished, ?_, reports_recordAll h.blocks h.lengths⟩
  refine parse_eq_some_iff.mpr ⟨h.isStun, h.lengthFits, _, hloop, ?_, rfl⟩
  exact (fingerprint_recordAll_iff h.blocks h.le_length h.lengths h.order).mpr h.fingerprint

/--
The loop does not look at an attribute without a value at the end.
-/
theorem WellFormed.parse_of_last_empty (front : List PaddedAttribute) {a : PaddedAttribute}
    (h : WellFormed data (front ++ [a])) (hempty : a.value = []) : StunPacket.parse data = none := by
  have hblock : a.block.length = 4 := by
    rw [a.length_block, hempty]
    rfl
  have hlength := h.length_eq
  have hblocks := h.blocks
  rw [List.flatMap_append, List.flatMap_singleton, List.length_append, hblock] at hlength
  rw [List.flatMap_append, List.flatMap_singleton] at hblocks
  have hmore : ∀ b ∈ front.getLast?, 4 < (b.block ++ a.block).length := by
    intro b _
    rw [List.length_append, b.length_block, hblock]
    omega
  have hloop := parseAttributes_append (s := parseStart data) hblocks hmore
    fun b hb => h.value_lt b (List.mem_append_left _ hb)
  apply Option.eq_none_iff_forall_not_mem.mpr
  intro packet hparse
  obtain ⟨-, -, s, hend, -⟩ := parse_eq_some_iff.mp hparse
  rw [hloop] at hend
  obtain ⟨next, -, hstop⟩ := Option.bind_eq_some_iff.mp hend
  rw [parseAttributes, if_neg (by omega)] at hstop
  have hp := congrArg Prod.fst (Option.some.inj hstop)
  omega

theorem wellFormed_of_parse (h : parse data = some packet)
    : ∃ attrs, WellFormed data attrs ∧ ∀ a ∈ attrs.getLast?, a.value ≠ [] := by
  obtain ⟨hstun, hfits, s, hloop, hfingerprint, -⟩ := parse_eq_some_iff.mp h
  obtain ⟨hlength, -⟩ := of_decide_eq_true hfits
  have hle : 20 ≤ data.length := (of_decide_eq_true hstun).left
  have hsize : data.length - 20 < 2 ^ 16 := by
    rw [← hlength]
    exact read2Bytes_lt _
  obtain ⟨attrs, hblocks, hrun, hlast⟩ := exists_attributes hloop hsize
  obtain ⟨⟨hlengths, horder, -, -⟩, rfl⟩ := runAttributes_eq_some_iff.mp hrun
  have hcrc := (fingerprint_recordAll_iff hblocks hle hlengths horder).mp hfingerprint
  exact ⟨attrs, ⟨hstun, hlength, hblocks, hlengths, horder, hcrc⟩, hlast⟩

/--
The parser does what it should for every input that fits into `data_` if its header is accepted, and that does not end
with an attribute without a value if it is a message.
-/
theorem parsesExactly_iff (data : List UInt8)
    : ParsesExactly data ↔ (isStun data = true → lengthFits data = true → data.length ≤ 8192)
      ∧ ∀ attrs, WellFormed data attrs → ∀ a ∈ attrs.getLast?, a.value ≠ [] := by
  constructor
  . intro h
    refine ⟨(passes_parseChecked_iff data).mp h.inside, ?_⟩
    intro attrs hwf a ha hempty
    obtain ⟨front, rfl⟩ := List.getLast?_eq_some_iff.mp ha
    obtain ⟨packet, hparse, -⟩ := h.accepts _ hwf
    rw [value_parseChecked, hwf.parse_of_last_empty _ hempty] at hparse
    cases hparse
  . rintro ⟨hfits, hlast⟩
    refine ⟨?_, ?_, (passes_parseChecked_iff data).mpr hfits⟩
    . intro attrs hwf
      rw [value_parseChecked]
      exact hwf.parse (hlast attrs hwf)
    . intro hnone
      rw [value_parseChecked]
      apply Option.eq_none_iff_forall_not_mem.mpr
      intro packet hparse
      obtain ⟨attrs, hwf, -⟩ := wellFormed_of_parse hparse
      exact hnone attrs hwf

/--
A message with nothing but the flag for the candidate, which has no value.
-/
def useCandidateMessage : List UInt8 :=
  [0, 1, 0, 4] ++ Stun.magicCookie ++ [1, 2, 3, 4, 5, 6, 7, 8, 9, 10, 11, 12] ++ [0, 0x25, 0, 0]

def useCandidateAttribute : PaddedAttribute where
  type := Stun.useCandidate
  value := []
  padding := []
  type_lt := by decide
  length_lt := by decide
  length_padding := rfl

theorem not_parsesExactly_useCandidate : WellFormed useCandidateMessage [useCandidateAttribute]
    ∧ (parseChecked useCandidateMessage).value = none ∧ ¬ParsesExactly useCandidateMessage := by
  have hwf : WellFormed useCandidateMessage [useCandidateAttribute] := by
    refine ⟨by decide, by decide, by decide, ?_, List.pairwise_singleton _ _, ?_⟩
    . intro a ha
      rw [List.mem_singleton.mp ha]
      decide
    . intro a ha htype
      cases ha
      exact absurd htype (by decide)
  have hnone : (parseChecked useCandidateMessage).value = none := by
    rw [value_parseChecked]
    exact hwf.parse_of_last_empty [] rfl
  refine ⟨hwf, hnone, ?_⟩
  intro h
  obtain ⟨packet, hparse, -⟩ := h.accepts _ hwf
  rw [hnone] at hparse
  cases hparse

end Messages

end StunPacket
