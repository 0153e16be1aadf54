import CppStreamer.Format.MpegTs.Demux

/-!
This module contains when `DecodeUnit` stays within its unit: the lengths in the unit that it follows,
and that it reads inside exactly if each field it follows ends in front of the end of the unit.
-/

open ByteStream

namespace MpegTs

/--
A byte of the unit as a number, whatever is behind its end.
-/
def dataAt (data : List UInt8) (pos : Nat) : Nat := (data.getD pos 0).toNat

def lenIf (cond : Bool) (len : Nat) : Nat := if cond then len else 0

section Reads

variable {data : List UInt8}

theorem dataAt_eq {pos : Nat} (h : pos < data.length) : dataAt data pos = data[pos].toNat := by
  unfold dataAt
  rw [List.getD_eq_getElem?_getD, List.getElem?_eq_getElem h, Option.getD_some]

theorem dataAt_lt (data : List UInt8) (pos : Nat) : dataAt data pos < 256 := UInt8.toNat_lt _

theorem readByte_eq (data : List UInt8) (pos : Nat)
    : readByte data pos = if pos < data.length then some (dataAt data pos) else none := by
  unfold readByte
  by_cases h : pos < data.length
  . rw [if_pos h, List.getElem?_eq_getElem h, dataAt_eq h]
    rfl
  . rw [if_neg h, List.getElem?_eq_none (by omega)]
    rfl

theorem readByte_of_lt {pos : Nat} (h : pos < data.length)
    : readByte data pos = some (dataAt data pos) := by
  rw [readByte_eq, if_pos h]

theorem readByte_eq_some {pos value : Nat}
    : readByte data pos = some value ↔ pos < data.length ∧ value = dataAt data pos := by
  rw [readByte_eq]
  split
  . next h => simp [h, eq_comm]
  . next h => simp [h]

theorem readRange_eq_some {pos len : Nat} {bytes : List UInt8}
    : readRange data pos len = some bytes
        ↔ pos + len ≤ data.length ∧ bytes = (data.drop pos).take len := by
  unfold readRange
  split
  . next h => simp [h, eq_comm]
  . next h => simp [h]

theorem readRange_of_le {pos len : Nat} (h : pos + len ≤ data.length)
    : readRange data pos len = some ((data.drop pos).take len) := if_pos h

theorem skipIf_eq_some {cond : Bool} {pos len pos' : Nat}
    : skipIf data cond pos len = some pos'
        ↔ (cond → pos + len ≤ data.length) ∧ pos' = pos + lenIf cond len := by
  unfold skipIf lenIf
  cases cond with
  | false => simp [eq_comm]
  | true => simp [readRange, eq_comm]

theorem read2Bytes_take {pos len : Nat} (hlen : 2 ≤ len) (h : pos + 2 ≤ data.length)
    : read2Bytes ((data.drop pos).take len) = dataAt data pos * 256 + dataAt data (pos + 1) := by
  obtain ⟨n, rfl⟩ : ∃ n, len = n + 1 + 1 := ⟨len - 2, by omega⟩
  rw [List.drop_eq_getElem_cons (by omega), List.drop_eq_getElem_cons (by omega)]
  simp only [List.take_succ_cons, read2Bytes]
  rw [dataAt_eq (by omega), dataAt_eq (by omega)]

end Reads

section Adaptation

/--
Where the length of the private data is in an adaptation field with these flags.
-/
def privateDataPos (flags : Nat) : Nat :=
  6 + lenIf (testBit flags 4) 6 + lenIf (testBit flags 3) 6 + lenIf (testBit flags 2) 1

/--
The private data of an adaptation field end within the unit, whatever the length of the field.
-/
def AdaptationFits (data : List UInt8) (control : Nat) : Prop :=
  (control = 2 ∨ control = 3) → 0 < dataAt data 4 → testBit (dataAt data 5) 1 →
    privateDataPos (dataAt data 5) + 1 + dataAt data (privateDataPos (dataAt data 5)) ≤ unitSize

instance (data : List UInt8) (control : Nat) : Decidable (AdaptationFits data control) := by
  unfold AdaptationFits
  infer_instance

def payloadPos (data : List UInt8) (control : Nat) : Nat :=
  if control = 2 ∨ control = 3 then 4 + 1 + dataAt data 4 else 4

theorem privateDataPos_le (flags : Nat) : privateDataPos flags ≤ 19 := by
  unfold privateDataPos lenIf
  split <;> split <;> split <;> omega

theorem add_lenIf (cond : Bool) (pos len : Nat)
    : (if cond then pos + len else pos) = pos + lenIf cond len := by
  unfold lenIf
  split
  . rfl
  . rfl

theorem adaptationFields_isSome {data : List UInt8} (hlen : data.length = unitSize)
    : (adaptationFields data 5).isSome
        ↔ (testBit (dataAt data 5) 1 →
            privateDataPos (dataAt data 5) + 1 + dataAt data (privateDataPos (dataAt data 5))
              ≤ unitSize) := by
  have hpos := privateDataPos_le (dataAt data 5)
  have hlen' : data.length = 188 := hlen
  have hread {pos : Nat} (h : pos ≤ 21) : readByte data pos = some (dataAt data pos) := readByte_of_lt (by omega)
  have hprivate : 5 + 1 + lenIf (testBit (dataAt data 5) 4) 6 + lenIf (testBit (dataAt data 5) 3) 6
      + lenIf (testBit (dataAt data 5) 2) 1 = privateDataPos (dataAt data 5) := rfl
  unfold adaptationFields
  rw [hread (by omega)]
  simp only [Option.bind_eq_bind, Option.bind_some, add_lenIf, hprivate]
  generalize privateDataPos (dataAt data 5) = p at hpos ⊢
  rw [hread (show p ≤ 21 by omega), Option.bind_some]
  by_cases htag : testBit (dataAt data 5) 1
  . by_cases hfit : p + 1 + dataAt data p ≤ unitSize
    . rw [readRange_of_le (by omega)]
      simp [htag, hfit, hread (show p + 1 ≤ 21 by omega), hread (show p + 1 + 1 ≤ 21 by omega),
        apply_ite Option.isSome]
    . have hnone : readRange data (p + 1) (dataAt data p) = none := if_neg (by omega)
      simp [htag, hfit, hnone]
  . simp [htag, hread (show p ≤ 21 by omega), hread (show p + 1 ≤ 21 by omega),
      apply_ite Option.isSome]

theorem adaptationEnd_eq {data : List UInt8} (hlen : data.length = unitSize) (control : Nat)
    : adaptationEnd data control 4
        = if AdaptationFits data control then some (payloadPos data control) else none := by
  have hlen' : data.length = 188 := hlen
  unfold adaptationEnd payloadPos
  by_cases hcontrol : control = 2 ∨ control = 3
  . rw [if_pos hcontrol, if_pos hcontrol, readByte_of_lt (by omega)]
    by_cases hpos : 0 < dataAt data 4
    . have hfields := adaptationFields_isSome hlen
      have hfits : AdaptationFits data control ↔ (adaptationFields data 5).isSome := by
        rw [hfields]
        exact ⟨fun h => h hcontrol hpos, fun h _ _ => h⟩
      simp only [hfits, Option.bind_eq_bind, Option.bind_some, if_pos hpos]
      cases adaptationFields data (4 + 1) with
      | none => rfl
      | some _ => rfl
    . have hfits : AdaptationFits data control := fun _ h => absurd h hpos
      rw [if_pos hfits]
      simp [hpos]
  . have hfits : AdaptationFits data control := fun h => absurd h hcontrol
    rw [if_neg hcontrol, if_neg hcontrol, if_pos hfits]

end Adaptation

section Tables

variable {data : List UInt8}

/--
Where the section starts, behind the pointer field of a unit that starts a payload.
-/
def sectionPos (unitStart : Bool) (npos : Nat) : Nat := npos + lenIf unitStart 1

/--
A field of 12 bits.
-/
def length12At (data : List UInt8) (pos : Nat) : Nat :=
  (dataAt data pos * 256 + dataAt data (pos + 1)) % 2 ^ 12

def PatFits (unitStart : Bool) (npos : Nat) : Prop := sectionPos unitStart npos + 8 ≤ unitSize

/--
The loop over the programs ends in a section that ends within the unit.
-/
theorem patLoop_isSome (hlen : data.length = unitSize) {sectionEnd : Nat} (hend : sectionEnd ≤ unitSize)
    (fuel : Nat)
    : ∀ {pos : Nat}, sectionEnd ≤ pos + fuel → (patLoop data sectionEnd (fuel + 1) pos).isSome := by
  induction fuel with
  | zero =>
    intro pos hfuel
    unfold patLoop
    rw [if_neg (by omega)]
    rfl
  | succ fuel ih =>
    intro pos hfuel
    unfold patLoop
    by_cases h : pos + 4 ≤ sectionEnd
    . obtain ⟨infos, hinfos⟩ := Option.isSome_iff_exists.mp (@ih (pos + 4) (by omega))
      rw [if_pos h, readRange_of_le (by omega), readRange_of_le (by omega), hinfos]
      rfl
    . rw [if_neg h]
      rfl

theorem ite_pos_eq (unitStart : Bool) (npos : Nat)
    : (if unitStart then npos + 1 else npos) = sectionPos unitStart npos := add_lenIf unitStart npos 1

theorem parsePat_isSome (hlen : data.length = unitSize) (d : MpegtsDemux) (unitStart : Bool)
    (npos : Nat)
    : (d.parsePat data unitStart npos).isSome ↔ PatFits unitStart npos := by
  unfold MpegtsDemux.parsePat PatFits
  simp only [ite_pos_eq]
  generalize hpos : sectionPos unitStart npos = pos
  have hle : npos ≤ pos := by
    rw [← hpos]
    apply Nat.le_add_right
  by_cases hfit : pos + 8 ≤ unitSize
  . rw [readByte_of_lt (by omega), readRange_of_le (by omega)]
    simp only [Option.bind_eq_bind, Option.bind_some, hfit, iff_true]
    generalize read2Bytes _ % 2 ^ 12 = sectionLength
    split
    . rfl
    . split
      . rfl
      . next hleft =>
        have hloop : (patLoop data (sectionLength + npos) (unitSize + 1) (pos + 8)).isSome :=
          patLoop_isSome hlen (by omega) unitSize (by omega)
        obtain ⟨pids, hpids⟩ := Option.isSome_iff_exists.mp hloop
        rw [hpids]
        rfl
  . have hnone : readRange data (pos + 1) 7 = none := if_neg (by omega)
    cases readByte data pos with
    | none => simp [hfit]
    | some _ => simp [hfit, hnone]

/--
Each descriptor up to `infoEnd` is within the unit. The last one may go on behind `infoEnd`.
-/
inductive DescriptorsFit (data : List UInt8) (infoEnd : Nat) : Nat → Nat → Prop
  | done {pos : Nat} : infoEnd ≤ pos → DescriptorsFit data infoEnd pos pos
  | descriptor {pos next : Nat} : pos < infoEnd → pos + 2 + dataAt data (pos + 1) ≤ unitSize →
      DescriptorsFit data infoEnd (pos + 2 + dataAt data (pos + 1)) next →
      DescriptorsFit data infoEnd pos next

/--
Each entry of the section is within the unit with its descriptors, up to one that is longer than
the section has left.
-/
inductive StreamsFit (data : List UInt8) (sectionEnd : Nat) : Nat → Prop
  | done {pos : Nat} : sectionEnd < pos + 5 → StreamsFit data sectionEnd pos
  | cut {pos : Nat} : pos + 5 ≤ sectionEnd → pos + 5 ≤ unitSize →
      sectionEnd < pos + 5 + length12At data (pos + 3) → StreamsFit data sectionEnd pos
  | stream {pos next : Nat} : pos + 5 + length12At data (pos + 3) ≤ sectionEnd → pos + 5 ≤ unitSize →
      DescriptorsFit data (pos + 5 + length12At data (pos + 3)) (pos + 5) next →
      StreamsFit data sectionEnd next → StreamsFit data sectionEnd pos

theorem DescriptorsFit.bounds {infoEnd pos next : Nat} (h : DescriptorsFit data infoEnd pos next)
    : pos ≤ next ∧ (pos ≤ unitSize → next ≤ unitSize) := by
  induction h with
  | done _ => exact ⟨Nat.le_refl _, id⟩
  | descriptor _ hfit _ ih =>
    refine ⟨by omega, fun _ => ih.right hfit⟩

theorem DescriptorsFit.descriptorLoop {infoEnd pos next : Nat} (hlen : data.length = unitSize)
    (h : DescriptorsFit data infoEnd pos next) (fuel : Nat) (hpos : pos ≤ unitSize)
    (hfuel : unitSize ≤ pos + fuel)
    : ∃ infos, descriptorLoop data infoEnd (fuel + 1) pos = some (infos, next) := by
  induction h generalizing fuel with
  | done hend =>
    unfold MpegTs.descriptorLoop
    exact ⟨_, if_neg (by omega)⟩
  | @descriptor pos next hend hfit _ ih =>
    obtain ⟨fuel, rfl⟩ : ∃ n, fuel = n + 1 := ⟨fuel - 1, by omega⟩
    obtain ⟨infos, hinfos⟩ := ih fuel hfit (by omega)
    unfold MpegTs.descriptorLoop
    rw [if_pos hend, readByte_of_lt (by omega), readByte_of_lt (by omega)]
    simp only [Option.bind_eq_bind, Option.bind_some]
    rw [readRange_of_le (by omega), hinfos]
    exact ⟨_, rfl⟩

theorem descriptorsFit_of_descriptorLoop (hlen : data.length = unitSize) {infoEnd fuel pos : Nat}
    {result : List EsInfo × Nat} (h : descriptorLoop data infoEnd fuel pos = some result)
    : DescriptorsFit data infoEnd pos result.2 := by
  induction fuel generalizing pos result with
  | zero =>
    unfold descriptorLoop at h
    simp at h
  | succ fuel ih =>
    unfold descriptorLoop at h
    by_cases hend : pos < infoEnd
    . rw [if_pos hend] at h
      simp only [Option.bind_eq_bind, Option.bind_eq_some_iff, readByte_eq_some, readRange_eq_some] at h
      obtain ⟨_, _, _, ⟨_, rfl⟩, _, ⟨hfit, _⟩, ⟨infos, next⟩, hloop, hresult⟩ := h
      cases hresult
      apply DescriptorsFit.descriptor hend
      . omega
      . apply ih hloop
    . rw [if_neg hend] at h
      cases h
      apply DescriptorsFit.done
      omega

theorem length12At_eq {pos : Nat} (h : pos + 2 ≤ data.length)
    : read2Bytes ((data.drop pos).take 2) % 2 ^ 12 = length12At data pos := by
  rw [read2Bytes_take (by omega) h]
  rfl

theorem StreamsFit.pmtLoop {sectionEnd pos : Nat} (hlen : data.length = unitSize)
    (h : StreamsFit data sectionEnd pos) (fuel : Nat) (hpos : pos ≤ unitSize)
    (hfuel : unitSize ≤ pos + fuel)
    : (pmtLoop data sectionEnd (fuel + 1) pos).isSome := by
  induction h generalizing fuel with
  | done hend =>
    unfold MpegTs.pmtLoop
    rw [if_neg (by omega)]
    rfl
  | @cut pos hend hfit hcut =>
    have hinfo : read2Bytes ((data.drop (pos + 3)).take 2) % 2 ^ 12 = length12At data (pos + 3) :=
      length12At_eq (by omega)
    unfold MpegTs.pmtLoop
    rw [if_pos hend, readByte_of_lt (by omega), readRange_of_le (by omega), readRange_of_le (by omega)]
    simp only [Option.bind_eq_bind, Option.bind_some, hinfo]
    rw [if_pos hcut]
    rfl
  | @stream pos next hend hfit hdescriptors _ ih =>
    have hnext := hdescriptors.bounds
    obtain ⟨fuel, rfl⟩ : ∃ n, fuel = n + 1 := ⟨fuel - 1, by omega⟩
    obtain ⟨infos, hinfos⟩ := hdescriptors.descriptorLoop hlen unitSize hfit (by omega)
    obtain ⟨streams, hstreams⟩ := Option.isSome_iff_exists.mp
      (ih fuel (hnext.right hfit) (by omega))
    have hinfo : read2Bytes ((data.drop (pos + 3)).take 2) % 2 ^ 12 = length12At data (pos + 3) :=
      length12At_eq (by omega)
    unfold MpegTs.pmtLoop
    rw [if_pos (by omega), readByte_of_lt (by omega), readRange_of_le (by omega),
      readRange_of_le (by omega)]
    simp only [Option.bind_eq_bind, Option.bind_some, hinfo]
    rw [if_neg (by omega), hinfos]
    simp only [Option.bind_some]
    rw [hstreams]
    rfl

theorem streamsFit_of_pmtLoop (hlen : data.length = unitSize) {sectionEnd fuel pos : Nat}
    {streams : List StreamPidInfo} (h : pmtLoop data sectionEnd fuel pos = some streams)
    : StreamsFit data sectionEnd pos := by
  induction fuel generalizing pos streams with
  | zero =>
    unfold pmtLoop at h
    simp at h
  | succ fuel ih =>
    unfold pmtLoop at h
    by_cases hend : pos + 5 ≤ sectionEnd
    . rw [if_pos hend] at h
      simp only [Option.bind_eq_bind, Option.bind_eq_some_iff, readByte_eq_some, readRange_eq_some] at h
      obtain ⟨_, _, _, _, info, ⟨hfit, rfl⟩, hrest⟩ := h
      rw [length12At_eq hfit] at hrest
      by_cases hcut : sectionEnd < pos + 5 + length12At data (pos + 3)
      . apply StreamsFit.cut hend (by omega) hcut
      . rw [if_neg hcut] at hrest
        simp only [Option.bind_eq_some_iff] at hrest
        obtain ⟨⟨infos, next⟩, hdescriptors, _, hloop, _⟩ := hrest
        apply @StreamsFit.stream _ _ _ next
        . omega
        . omega
        . apply descriptorsFit_of_descriptorLoop hlen hdescriptors
        . apply ih hloop
    . rw [if_neg hend] at h
      apply StreamsFit.done
      omega

/--
The fields of a section are within the unit, and behind the table id of a program map the
descriptors of the program and all entries are as well.
-/
def PmtFits (data : List UInt8) (unitStart : Bool) (npos : Nat) : Prop :=
  let pos := sectionPos unitStart npos
  pos + 12 ≤ unitSize ∧ (dataAt data pos = 2 →
    pos + 12 + length12At data (pos + 10) ≤ unitSize
      ∧ StreamsFit data (length12At data (pos + 1) + npos) (pos + 12 + length12At data (pos + 10)))

theorem parsePmt_isSome (hlen : data.length = unitSize) (d : MpegtsDemux) (unitStart : Bool)
    (npos : Nat)
    : (d.parsePmt data unitStart npos).isSome ↔ PmtFits data unitStart npos := by
  unfold MpegtsDemux.parsePmt PmtFits
  simp only [ite_pos_eq]
  generalize sectionPos unitStart npos = pos
  by_cases hfit : pos + 12 ≤ unitSize
  . rw [readByte_of_lt (by omega), readRange_of_le (by omega)]
    simp only [Option.bind_eq_bind, Option.bind_some, hfit, true_and]
    have hsection : read2Bytes ((data.drop (pos + 1)).take 11) % 2 ^ 12 = length12At data (pos + 1) := by
      rw [read2Bytes_take (by omega) (by omega)]
      rfl
    have hprogram : read2Bytes (((data.drop (pos + 1)).take 11).drop 9) % 2 ^ 12
        = length12At data (pos + 10) := by
      rw [List.drop_take, List.drop_drop]
      exact length12At_eq (by omega)
    rw [hsection, hprogram]
    by_cases hid : dataAt data pos = 2
    . simp only [hid, ne_eq, not_true_eq_false, if_false, true_implies]
      by_cases hinfo : pos + 12 + length12At data (pos + 10) ≤ unitSize
      . rw [readRange_of_le (by omega), Option.bind_some]
        simp only [hinfo, true_and]
        constructor
        . intro h
          obtain ⟨_, h⟩ := Option.isSome_iff_exists.mp h
          obtain ⟨streams, hstreams, _⟩ := Option.bind_eq_some_iff.mp h
          apply streamsFit_of_pmtLoop hlen hstreams
        . intro h
          obtain ⟨streams, hstreams⟩ := Option.isSome_iff_exists.mp
            (h.pmtLoop hlen unitSize hinfo (by omega))
          rw [hstreams]
          rfl
      . have hnone : readRange data (pos + 12) (length12At data (pos + 10)) = none := if_neg (by omega)
        simp [hinfo, hnone]
    . simp [hid]
  . have hnone : readRange data (pos + 1) 11 = none := if_neg (by omega)
    cases readByte data pos with
    | none => simp [hfit]
    | some _ => simp [hfit, hnone]

end Tables

section Pes

variable {p : List UInt8}

def extensionLen (p : List UInt8) (pos : Nat) : Nat :=
  let flags := dataAt p pos
  let len := 1 + lenIf (testBit flags 7) 16 + lenIf (testBit flags 5) 2 + lenIf (testBit flags 4) 2
  len + lenIf (testBit flags 0) (1 + dataAt p (pos + len) % 128)

/--
The end of the time stamps, which are right behind the nine bytes in front.
-/
def timeStampsEnd (flags : Nat) : Nat :=
  if flags / 64 = 3 then 19 else if flags / 64 = 2 then 14 else 9

/--
The end of the other fields that the flags of a PES header announce.
-/
def fieldsLen (flags : Nat) : Nat :=
  timeStampsEnd flags
    + lenIf (testBit flags 5) 6 + lenIf (testBit flags 4) 3 + lenIf (testBit flags 3) 1
    + lenIf (testBit flags 2) 1 + lenIf (testBit flags 1) 2

def pesHeaderLen (p : List UInt8) : Nat :=
  let flags := dataAt p 7
  fieldsLen flags + if testBit flags 0 then extensionLen p (fieldsLen flags) else 0

/--
A PES that starts in the unit starts with a whole header there, or with something else than a header.
-/
def PesFits (p : List UInt8) : Prop :=
  6 ≤ p.length ∧ (read3Bytes p = 1 → dataAt p 3 ∉ plainStreamIds →
    7 ≤ p.length ∧ (dataAt p 6 / 64 = 2 → pesHeaderLen p ≤ p.length))

instance (p : List UInt8) : Decidable (PesFits p) := by
  unfold PesFits
  infer_instance

theorem pesExtension_eq (pos : Nat) (hfit : pos + extensionLen p pos ≤ p.length)
    : pesExtension p pos = some (pos + extensionLen p pos) := by
  unfold pesExtension
  have hread : pos < p.length := by
    simp only [extensionLen] at hfit
    omega
  rw [readByte_of_lt hread]
  simp only [Option.bind_eq_bind, Option.bind_some, add_lenIf]
  unfold extensionLen at hfit ⊢
  generalize dataAt p pos = flags at hfit ⊢
  by_cases hext : testBit flags 0
  . simp only [hext, lenIf, if_true] at hfit ⊢
    rw [readByte_of_lt (by omega), Option.bind_some]
    simp only [Nat.add_assoc]
    rfl
  . simp only [hext, lenIf, if_false, Bool.false_eq_true] at hfit ⊢
    simp only [Nat.add_assoc]
    rfl

theorem pesExtension_eq_some {pos pos' : Nat} (h : pesExtension p pos = some pos')
    : pos' = pos + extensionLen p pos := by
  unfold pesExtension at h
  simp only [Option.bind_eq_bind, Option.bind_eq_some_iff, readByte_eq_some, add_lenIf] at h
  obtain ⟨_, ⟨_, rfl⟩, h⟩ := h
  unfold extensionLen
  generalize dataAt p pos = flags at h ⊢
  by_cases hext : testBit flags 0
  . rw [if_pos hext] at h
    simp only [Option.bind_eq_some_iff, readByte_eq_some] at h
    obtain ⟨_, ⟨_, rfl⟩, h⟩ := h
    cases h
    simp only [hext, lenIf, if_true, Nat.add_assoc]
  . rw [if_neg hext] at h
    cases h
    simp only [hext, lenIf, if_false, Bool.false_eq_true, Nat.add_assoc]
    rfl

theorem lenIf_le (cond : Bool) (len : Nat) : lenIf cond len ≤ len := by
  unfold lenIf
  split
  . apply Nat.le_refl
  . apply Nat.zero_le

theorem timeStampsEnd_bounds (flags : Nat) : 9 ≤ timeStampsEnd flags ∧ timeStampsEnd flags ≤ 19 := by
  unfold timeStampsEnd
  split
  . omega
  . split
    . omega
    . omega

theorem fieldsLen_le (flags : Nat) : fieldsLen flags ≤ 32 := by
  have h5 := lenIf_le (testBit flags 5) 6
  have h4 := lenIf_le (testBit flags 4) 3
  have h3 := lenIf_le (testBit flags 3) 1
  have h2 := lenIf_le (testBit flags 2) 1
  have h1 := lenIf_le (testBit flags 1) 2
  have hstamps := timeStampsEnd_bounds flags
  unfold fieldsLen
  omega

theorem pesHeaderLen_le (p : List UInt8) : pesHeaderLen p ≤ 181 := by
  have hfields := fieldsLen_le (dataAt p 7)
  have hext : extensionLen p (fieldsLen (dataAt p 7)) ≤ 149 := by
    simp only [extensionLen]
    generalize dataAt p (fieldsLen (dataAt p 7)) = flags
    have h7 := lenIf_le (testBit flags 7) 16
    have h5 := lenIf_le (testBit flags 5) 2
    have h4 := lenIf_le (testBit flags 4) 2
    have h0 := lenIf_le (testBit flags 0) (1 + dataAt p (fieldsLen (dataAt p 7) + (1 + lenIf (testBit flags 7) 16
      + lenIf (testBit flags 5) 2 + lenIf (testBit flags 4) 2)) % 128)
    omega
  simp only [pesHeaderLen]
  split
  . omega
  . omega

theorem readTs_isSome {pos : Nat} (h : pos + 5 ≤ p.length) : ∃ ts, readTs p pos = some ts := by
  unfold readTs
  rw [readByte_of_lt (by omega), readByte_of_lt (by omega), readByte_of_lt (by omega),
    readByte_of_lt (by omega), readByte_of_lt (by omega)]
  exact ⟨_, rfl⟩

/--
The parser gives up, or it returns where the data start.
-/
inductive PesParsed (npos : Nat) (info : PesInfo) : Option Nat → Prop
  | spoiled : info.ret = 255 → info.retData = none → PesParsed npos info none
  | header (pos : Nat) : info.ret = pos → info.retData = some (pos, retSize npos pos) →
      PesParsed npos info (some pos)

/--
Where the data start according to a header.
-/
def dataPos (p : List UInt8) : Option Nat :=
  if read3Bytes p ≠ 1 then none
  else if dataAt p 3 ∈ plainStreamIds then some 6
  else if dataAt p 6 / 64 ≠ 2 then none
  else some (pesHeaderLen p)

theorem bind_ite {α β : Type} (cond : Prop) [Decidable cond] (x y : Option α) (f : α → Option β)
    : (if cond then x.bind f else y.bind f) = (if cond then x else y).bind f := by
  split
  . rfl
  . rfl

theorem read3Bytes_take {n : Nat} (hn : 3 ≤ n) (h : 3 ≤ p.length)
    : read3Bytes ((p.drop 0).take n) = read3Bytes p := by
  match p, n, h, hn with
  | b2 :: b1 :: b0 :: rest, n + 3, _, _ => rfl

theorem pesParsed_of_pesParse {npos : Nat} {info : PesInfo} (h : pesParse p npos = some info)
    : 6 ≤ p.length ∧ (read3Bytes p = 1 → dataAt p 3 ∉ plainStreamIds → 7 ≤ p.length)
        ∧ PesParsed npos info (dataPos p) := by
  unfold pesParse at h
  simp only [Option.bind_eq_bind, Option.bind_eq_some_iff, readByte_eq_some, readRange_eq_some] at h
  obtain ⟨_, ⟨hstart, rfl⟩, _, ⟨_, rfl⟩, h⟩ := h
  rw [read3Bytes_take (by omega) (by omega)] at h
  refine ⟨by omega, ?_⟩
  unfold dataPos
  by_cases hcode : read3Bytes p ≠ 1
  . rw [if_pos hcode] at h ⊢
    cases h
    exact ⟨fun hone => absurd hone hcode, PesParsed.spoiled rfl rfl⟩
  rw [if_neg hcode] at h ⊢
  by_cases hplain : dataAt p 3 ∈ plainStreamIds
  . rw [if_pos hplain] at h ⊢
    cases h
    exact ⟨fun _ hid => absurd hplain hid, PesParsed.header 6 rfl rfl⟩
  rw [if_neg hplain] at h ⊢
  simp only [Option.bind_eq_some_iff, readByte_eq_some] at h
  obtain ⟨_, ⟨hmarker, rfl⟩, h⟩ := h
  refine ⟨fun _ _ => hmarker, ?_⟩
  by_cases htwo : dataAt p 6 / 64 ≠ 2
  . rw [if_pos htwo] at h ⊢
    cases h
    apply PesParsed.spoiled rfl rfl
  rw [if_neg htwo] at h ⊢
  simp only [bind_ite, Option.bind_eq_some_iff, readByte_eq_some, skipIf_eq_some, add_lenIf] at h
  obtain ⟨_, ⟨_, rfl⟩, _, _, _, _, _, _, _, ⟨_, rfl⟩, _, ⟨_, rfl⟩, _, ⟨_, rfl⟩, pos, hpos, h⟩ := h
  cases h
  have hlen : pos = pesHeaderLen p := by
    unfold pesHeaderLen
    by_cases hext : testBit (dataAt p 7) 0
    . rw [if_pos hext] at hpos
      have hpos' := pesExtension_eq_some hpos
      simp only [hext, if_true]
      exact hpos'
    . rw [if_neg hext] at hpos
      cases hpos
      simp only [hext, if_false, Bool.false_eq_true]
      rfl
  subst hlen
  apply PesParsed.header _ rfl rfl

theorem readStamps_isSome {flags : Nat} (hflags : flags < 256) (h : timeStampsEnd flags ≤ p.length)
    : (∃ pts, (if 2 ≤ flags / 64 then readTs p 9 else some 0) = some pts)
        ∧ ∃ dts, (if flags / 64 = 3 then readTs p 14 else some 0) = some dts := by
  unfold timeStampsEnd at h
  by_cases hthree : flags / 64 = 3
  . rw [if_pos hthree] at h ⊢
    rw [if_pos (by omega)]
    exact ⟨readTs_isSome (by omega), readTs_isSome (by omega)⟩
  . rw [if_neg hthree] at h ⊢
    refine ⟨?_, _, rfl⟩
    by_cases htwo : 2 ≤ flags / 64
    . rw [if_pos htwo]
      rw [if_pos (by omega)] at h
      apply readTs_isSome (by omega)
    . exact ⟨_, if_neg htwo⟩

theorem skipIf_of_le {cond : Bool} {pos len : Nat} (h : pos + lenIf cond len ≤ p.length)
    : skipIf p cond pos len = some (pos + lenIf cond len) := by
  apply (skipIf_eq_some).mpr
  refine ⟨?_, rfl⟩
  intro hcond
  simpa only [hcond, lenIf, if_true] using h

theorem pesParse_of_fits (h : PesFits p) (npos : Nat) : ∃ info, pesParse p npos = some info := by
  obtain ⟨hstart, hheader⟩ := h
  unfold pesParse
  simp only [Option.bind_eq_bind, bind_ite]
  rw [readRange_of_le (by omega), readByte_of_lt (by omega), Option.bind_some, Option.bind_some]
  rw [read3Bytes_take (by omega) (by omega)]
  by_cases hcode : read3Bytes p ≠ 1
  . exact ⟨_, if_pos hcode⟩
  rw [if_neg hcode]
  by_cases hplain : dataAt p 3 ∈ plainStreamIds
  . exact ⟨_, if_pos hplain⟩
  obtain ⟨hmarker, hfields⟩ := hheader (Decidable.not_not.mp hcode) hplain
  rw [if_neg hplain, readByte_of_lt (by omega), Option.bind_some]
  by_cases htwo : dataAt p 6 / 64 ≠ 2
  . exact ⟨_, if_pos htwo⟩
  rw [if_neg htwo]
  have hfit := hfields (Decidable.not_not.mp htwo)
  have hfields : fieldsLen (dataAt p 7) ≤ p.length := Nat.le_trans (Nat.le_add_right _ _) hfit
  have hstamps := timeStampsEnd_bounds (dataAt p 7)
  unfold fieldsLen at hfields
  rw [readByte_of_lt (by omega), readByte_of_lt (by omega), Option.bind_some, Option.bind_some]
  obtain ⟨⟨pts, hpts⟩, dts, hdts⟩ := readStamps_isSome (p := p) (dataAt_lt p 7) (by omega)
  have hend : (if dataAt p 7 / 64 = 3 then 19 else if dataAt p 7 / 64 = 2 then 14 else 9)
      = timeStampsEnd (dataAt p 7) := rfl
  rw [hpts, hdts, Option.bind_some, Option.bind_some, hend, skipIf_of_le (by omega), Option.bind_some,
    skipIf_of_le (by omega), Option.bind_some, skipIf_of_le (by omega), Option.bind_some]
  simp only [add_lenIf]
  unfold pesHeaderLen at hfit
  by_cases hext : testBit (dataAt p 7) 0
  . simp only [hext, if_true] at hfit ⊢
    have hextension := pesExtension_eq _ hfit
    unfold fieldsLen at hextension
    rw [hextension]
    exact ⟨_, rfl⟩
  . rw [if_neg hext]
    exact ⟨_, rfl⟩

theorem pesFits_iff (npos : Nat)
    : PesFits p ↔ ∃ info, pesParse p npos = some info ∧ ∀ pos ∈ dataPos p, pos ≤ p.length := by
  constructor
  . intro h
    obtain ⟨info, hinfo⟩ := pesParse_of_fits h npos
    refine ⟨info, hinfo, ?_⟩
    intro pos hpos
    unfold dataPos at hpos
    by_cases hcode : read3Bytes p ≠ 1
    . rw [if_pos hcode] at hpos
      cases hpos
    rw [if_neg hcode] at hpos
    by_cases hplain : dataAt p 3 ∈ plainStreamIds
    . rw [if_pos hplain] at hpos
      cases hpos
      exact h.left
    rw [if_neg hplain] at hpos
    by_cases htwo : dataAt p 6 / 64 ≠ 2
    . rw [if_pos htwo] at hpos
      cases hpos
    rw [if_neg htwo] at hpos
    cases hpos
    exact (h.right (Decidable.not_not.mp hcode) hplain).right (Decidable.not_not.mp htwo)
  . intro ⟨info, hinfo, hpos⟩
    obtain ⟨hstart, hmarker, _⟩ := pesParsed_of_pesParse hinfo
    refine ⟨hstart, ?_⟩
    intro hcode hplain
    refine ⟨hmarker hcode hplain, ?_⟩
    intro htwo
    apply hpos
    simp [dataPos, hcode, hplain, htwo]

theorem dataPos_le {pos : Nat} (h : pos ∈ dataPos p) : pos ≤ 181 := by
  have hlen := pesHeaderLen_le p
  unfold dataPos at h
  split at h
  . cases h
  . split at h
    . cases h
      omega
    . split at h
      . cases h
      . cases h
        omega

end Pes

section Units

variable {data : List UInt8}

def StreamFits (h : TsHeader) (data : List UInt8) (npos : Nat) : Prop :=
  if h.payloadUnitStartIndicator then PesFits (data.drop npos) else npos ≤ unitSize

/--
The length with which one turn of the loop over the streams calls `InsertIntoDatabuf`.
-/
def insertLength (h : TsHeader) (data : List UInt8) (npos : Nat) : Option Nat :=
  if h.payloadUnitStartIndicator then do
    let info ← pesParse (data.drop npos) npos
    let (_, size) ← info.retData
    if info.ret ≤ unitSize ∧ 0 < size then some size else none
  else some ((unitSize + 2 ^ 64 - npos) % 2 ^ 64)

theorem retSize_of_le {npos pos : Nat} (h : npos + pos ≤ unitSize)
    : retSize npos pos = unitSize - (npos + pos) := by
  simp only [retSize, unitSize] at h ⊢
  omega

theorem retSize_of_lt {npos pos : Nat} (h : unitSize < npos + pos) (hsmall : npos + pos < 2 ^ 32)
    : 2 ^ 32 < retSize npos pos := by
  simp only [retSize, unitSize] at h ⊢
  omega

theorem decodePes_isSome (hlen : data.length = unitSize) (d : MpegtsDemux) (h : TsHeader) {npos : Nat}
    (hnpos : npos < 2 ^ 16)
    : (d.decodePes h data npos).isSome ↔ StreamFits h data npos := by
  unfold MpegtsDemux.decodePes StreamFits
  by_cases hstart : h.payloadUnitStartIndicator
  . rw [if_pos hstart, if_pos hstart, pesFits_iff npos]
    cases hparse : pesParse (data.drop npos) npos with
    | none => simp
    | some info =>
      obtain ⟨hsix, _, hparsed⟩ := pesParsed_of_pesParse hparse
      rw [List.length_drop, hlen] at hsix
      have hbound (pos : Nat) (hpos : pos ∈ dataPos (data.drop npos)) : pos ≤ 181 := dataPos_le hpos
      generalize dataPos (data.drop npos) = found at hparsed hbound
      cases hparsed with
      | spoiled hret hdata => simp [hret, unitSize]
      | header pos hret hdata =>
        have hle := hbound pos rfl
        have hnot : ¬unitSize < info.ret := by
          rw [hret]
          simp only [unitSize]
          omega
        simp only [Option.bind_eq_bind, Option.bind_some, hnot, if_false, hdata, Option.mem_def,
          Option.some.injEq, exists_eq_left', forall_eq', List.length_drop, hlen]
        by_cases hfit : npos + pos ≤ unitSize
        . have hle' : pos ≤ unitSize - npos := by omega
          rw [retSize_of_le hfit, readRange_of_le (by omega)]
          simp only [hle', iff_true]
          split
          . rfl
          . rfl
        . have hbig := retSize_of_lt (Nat.lt_of_not_le hfit) (by omega)
          have hnone : readRange data (npos + pos) (retSize npos pos) = none := by
            apply if_neg
            simp only [unitSize] at hlen
            omega
          rw [if_pos (by omega), hnone]
          simp only [Option.bind_none, Option.isSome_none, Bool.false_eq_true, false_iff]
          omega
  . rw [if_neg hstart, if_neg hstart]
    by_cases hfit : npos ≤ unitSize
    . rw [if_pos hfit, readRange_of_le (by omega)]
      simp [hfit]
    . simp [hfit]

theorem decodeStreams_isSome (hlen : data.length = unitSize) (h : TsHeader) {npos : Nat}
    (hnpos : npos < 2 ^ 16)
    : ∀ (infos : List StreamPidInfo) (d : MpegtsDemux), (MpegtsDemux.decodeStreams h data npos infos d).isSome
        ↔ ((∃ info ∈ infos, info.elementaryPid = h.pid) → StreamFits h data npos)
  | [], d => by simp [MpegtsDemux.decodeStreams]
  | info :: infos, d => by
    unfold MpegtsDemux.decodeStreams
    by_cases hpid : h.pid = info.elementaryPid
    . have hany : ∃ other ∈ info :: infos, other.elementaryPid = h.pid :=
        ⟨info, List.mem_cons_self, hpid.symm⟩
      rw [if_pos hpid]
      simp only [hany, true_implies]
      rw [← decodePes_isSome hlen d h hnpos]
      cases hdecoded : d.decodePes h data npos with
      | none => rfl
      | some decoded =>
        have hfits : StreamFits h data npos := by
          rw [← decodePes_isSome hlen d h hnpos, hdecoded]
          rfl
        simp only [Option.bind_eq_bind, Option.bind_some, Option.isSome_some, iff_true]
        split
        . rfl
        . have hrest := (decodeStreams_isSome hlen h hnpos infos decoded.demux).mpr (fun _ => hfits)
          obtain ⟨rest, hrest⟩ := Option.isSome_iff_exists.mp hrest
          rw [hrest]
          rfl
    . rw [if_neg hpid, decodeStreams_isSome hlen h hnpos infos d]
      simp [Ne.symm hpid]

theorem insertLength_le (hlen : data.length = unitSize) {h : TsHeader} {npos len : Nat} (hfour : 4 ≤ npos)
    (hfits : StreamFits h data npos) (hinsert : insertLength h data npos = some len) : len ≤ 184 := by
  unfold StreamFits at hfits
  unfold insertLength at hinsert
  by_cases hstart : h.payloadUnitStartIndicator
  . rw [if_pos hstart] at hfits hinsert
    obtain ⟨info, hparse, hbound⟩ := (pesFits_iff _).mp hfits
    obtain ⟨hsix, _, hparsed⟩ := pesParsed_of_pesParse hparse
    rw [hparse] at hinsert
    rw [List.length_drop, hlen] at hsix
    generalize dataPos (data.drop npos) = found at hparsed hbound
    cases hparsed with
    | spoiled hret hdata => simp [hdata] at hinsert
    | header pos hret hdata =>
      have hpos := hbound pos rfl
      rw [List.length_drop, hlen] at hpos
      simp only [hdata, Option.bind_eq_bind, Option.bind_some] at hinsert
      split at hinsert
      . cases hinsert
        rw [retSize_of_le (by omega)]
        simp only [unitSize]
        omega
      . cases hinsert
  . rw [if_neg hstart] at hfits hinsert
    cases hinsert
    simp only [unitSize] at hfits ⊢
    omega

namespace MpegtsDemux

def headerAt (data : List UInt8) : TsHeader :=
  ⟨testBit (dataAt data 1) 6, (dataAt data 1 * 256 + dataAt data 2) % 2 ^ 13, dataAt data 3 / 16 % 4⟩

theorem tsHeader_eq (hlen : data.length = unitSize) : tsHeader data = some (headerAt data) := by
  have hlen' : data.length = 188 := hlen
  unfold tsHeader
  rw [readByte_of_lt (by omega), readByte_of_lt (by omega), readByte_of_lt (by omega)]
  rfl

/--
The fields that the payload of a unit has according to its pid are within the unit.
-/
def PayloadFits (d : MpegtsDemux) (h : TsHeader) (data : List UInt8) (npos : Nat) : Prop :=
  if h.pid = 0 then PatFits h.payloadUnitStartIndicator npos
  else if h.pid ∈ [0x01, 0x02, 0x03, 0x11] then True
  else if d.isPmt h.pid then PmtFits data h.payloadUnitStartIndicator npos
  else if h.pid ∈ [0x42, 0x1fff] then True
  else (∃ info ∈ d.streamPidVec, info.elementaryPid = h.pid) → StreamFits h data npos

/--
Every field of the unit that the tables so far make `DecodeUnit` follow is within the unit.
-/
def UnitFits (d : MpegtsDemux) (data : List UInt8) : Prop :=
  let h := headerAt data
  AdaptationFits data h.adaptationFieldControl
    ∧ ((h.adaptationFieldControl = 1 ∨ h.adaptationFieldControl = 3) →
        d.PayloadFits h data (payloadPos data h.adaptationFieldControl))

/--
The lengths that `DecodeUnit` passes to `InsertIntoDatabuf`, one for each entry of the stream.
-/
def insertLengths (d : MpegtsDemux) (data : List UInt8) : List Nat :=
  let h := headerAt data
  if (h.adaptationFieldControl = 1 ∨ h.adaptationFieldControl = 3)
      ∧ h.pid ∉ [0x00, 0x01, 0x02, 0x03, 0x11] ∧ ¬d.isPmt h.pid ∧ h.pid ∉ [0x42, 0x1fff] then
    d.streamPidVec.filterMap fun info =>
      if h.pid = info.elementaryPid then
        insertLength h data (payloadPos data h.adaptationFieldControl)
      else none
  else []

theorem payloadPos_bounds (data : List UInt8) (control : Nat)
    : 4 ≤ payloadPos data control ∧ payloadPos data control < 2 ^ 16 := by
  have hbyte := dataAt_lt data 4
  unfold payloadPos
  split
  . omega
  . omega

theorem decodeUnit_isSome (hlen : data.length = unitSize) (d : MpegtsDemux)
    : (d.decodeUnit data).isSome ↔ d.UnitFits data := by
  have hbounds := payloadPos_bounds data (headerAt data).adaptationFieldControl
  unfold decodeUnit UnitFits
  simp only [tsHeader_eq hlen, Option.bind_eq_bind, Option.bind_some, adaptationEnd_eq hlen]
  generalize payloadPos data (headerAt data).adaptationFieldControl = npos at hbounds
  by_cases hadaptation : AdaptationFits data (headerAt data).adaptationFieldControl
  . rw [if_pos hadaptation, Option.bind_some]
    simp only [hadaptation, true_and]
    by_cases hpayload : (headerAt data).adaptationFieldControl = 1
        ∨ (headerAt data).adaptationFieldControl = 3
    . rw [if_pos hpayload]
      simp only [hpayload, true_implies]
      unfold PayloadFits
      split
      . apply parsePat_isSome hlen
      . split
        . simp
        . split
          . apply parsePmt_isSome hlen
          . split
            . simp
            . apply decodeStreams_isSome hlen _ hbounds.right
    . rw [if_neg hpayload]
      simp [hpayload]
  . rw [if_neg hadaptation]
    simp [hadaptation]

theorem insertLengths_le (hlen : data.length = unitSize) {d : MpegtsDemux} (hfits : d.UnitFits data)
    : ∀ len ∈ d.insertLengths data, len ≤ 184 := by
  intro len hmem
  unfold insertLengths at hmem
  by_cases hreach : ((headerAt data).adaptationFieldControl = 1
      ∨ (headerAt data).adaptationFieldControl = 3)
      ∧ (headerAt data).pid ∉ [0x00, 0x01, 0x02, 0x03, 0x11] ∧ ¬d.isPmt (headerAt data).pid
      ∧ (headerAt data).pid ∉ [0x42, 0x1fff]
  . simp only [if_pos hreach, List.mem_filterMap] at hmem
    obtain ⟨hpayload, hreserved, hpmt, hnull⟩ := hreach
    obtain ⟨info, hinfo, hinsert⟩ := hmem
    by_cases hpid : (headerAt data).pid = info.elementaryPid
    . rw [if_pos hpid] at hinsert
      have hstream := hfits.right hpayload
      unfold PayloadFits at hstream
      rw [if_neg, if_neg, if_neg hpmt, if_neg hnull] at hstream
      . apply insertLength_le hlen (payloadPos_bounds _ _).left _ hinsert
        exact hstream ⟨info, hinfo, hpid.symm⟩
      . intro hmem
        exact hreserved (List.mem_cons_of_mem _ hmem)
      . intro hzero
        exact hreserved (hzero ▸ List.mem_cons_self)
    . rw [if_neg hpid] at hinsert
      cases hinsert
  . rw [if_neg hreach] at hmem
    cases hmem

section Inserted

theorem dataBufferVec_onCallback (d : MpegtsDemux) (pid dts pts : Nat)
    : (d.onCallback pid dts pts).1.dataBufferVec <:+ d.dataBufferVec := by
  unfold onCallback
  split
  . apply List.suffix_rfl
  . apply List.nil_suffix

def bufferLengths (d : MpegtsDemux) : List Nat := d.dataBufferVec.map List.length

theorem bufferLengths_onCallback (d : MpegtsDemux) (pid dts pts : Nat)
    : (d.onCallback pid dts pts).1.bufferLengths <:+ d.bufferLengths :=
  (dataBufferVec_onCallback d pid dts pts).map _

theorem bufferLengths_insertIntoDatabuf (d : MpegtsDemux) (bytes : List UInt8) (pid : Nat)
    : (d.insertIntoDatabuf bytes pid).bufferLengths = d.bufferLengths ++ [bytes.length] := by
  simp [bufferLengths, insertIntoDatabuf]

theorem length_of_readRange {pos len : Nat} {bytes : List UInt8} (h : readRange data pos len = some bytes)
    : bytes.length = len := by
  obtain ⟨hfit, rfl⟩ := readRange_eq_some.mp h
  rw [List.length_take, List.length_drop]
  omega

/--
What a turn of the loop leaves in the buffer is what was there, or a part of it, and what it inserts.
-/
theorem bufferLengths_decodePes {d : MpegtsDemux} {h : TsHeader} {npos : Nat} {decoded : Decoded}
    (hlen : data.length = unitSize) (hdecoded : d.decodePes h data npos = some decoded)
    : decoded.demux.bufferLengths <:+ d.bufferLengths ++ (insertLength h data npos).toList
        ∧ (decoded.ret < 0 → insertLength h data npos = none) := by
  unfold decodePes at hdecoded
  unfold insertLength
  by_cases hstart : h.payloadUnitStartIndicator
  . rw [if_pos hstart] at hdecoded ⊢
    have hcallback := d.bufferLengths_onCallback d.lastPid d.lastDts d.lastPts
    generalize d.onCallback d.lastPid d.lastDts d.lastPts = called at hcallback hdecoded
    cases hparse : pesParse (data.drop npos) npos with
    | none => simp [hparse] at hdecoded
    | some info =>
      rw [hparse] at hdecoded
      simp only [Option.bind_eq_bind, Option.bind_some] at hdecoded ⊢
      by_cases hlong : unitSize < info.ret
      . rw [if_pos hlong] at hdecoded
        cases hdecoded
        have hnone : ¬(info.ret ≤ unitSize) := by omega
        simp only [hnone, false_and, if_false]
        cases info.retData with
        | none => exact ⟨by simpa using hcallback, fun _ => rfl⟩
        | some _ => exact ⟨by simpa using hcallback, fun _ => rfl⟩
      . rw [if_neg hlong] at hdecoded
        have hshort : info.ret ≤ unitSize := by omega
        cases hdata : info.retData with
        | none =>
          rw [hdata] at hdecoded
          cases hdecoded
          refine ⟨?_, fun _ => rfl⟩
          rw [Option.bind_none, Option.toList_none, List.append_nil]
          exact hcallback
        | some range =>
          obtain ⟨pos, size⟩ := range
          rw [hdata] at hdecoded
          simp only [Option.bind_some] at hdecoded ⊢
          by_cases hsize : 0 < size
          . rw [if_pos hsize] at hdecoded
            rw [if_pos ⟨hshort, hsize⟩]
            obtain ⟨bytes, hbytes, hdecoded⟩ := Option.bind_eq_some_iff.mp hdecoded
            cases hdecoded
            rw [bufferLengths_insertIntoDatabuf, length_of_readRange hbytes]
            refine ⟨?_, by simp⟩
            obtain ⟨front, hfront⟩ := hcallback
            rw [← hfront, List.append_assoc]
            apply List.suffix_append
          . rw [if_neg hsize] at hdecoded
            cases hdecoded
            have hnot : ¬(info.ret ≤ unitSize ∧ 0 < size) := fun hboth => hsize hboth.right
            rw [if_neg hnot]
            refine ⟨?_, fun _ => rfl⟩
            rw [Option.toList_none, List.append_nil]
            exact hcallback
  . rw [if_neg hstart] at hdecoded ⊢
    by_cases hfit : npos ≤ unitSize
    . rw [if_pos hfit, readRange_of_le (by omega)] at hdecoded
      cases hdecoded
      refine ⟨?_, by simp⟩
      rw [bufferLengths_insertIntoDatabuf, List.length_take, List.length_drop]
      have hsame : min (unitSize - npos) (data.length - npos) = (unitSize + 2 ^ 64 - npos) % 2 ^ 64 := by
        simp only [unitSize] at hlen hfit ⊢
        omega
      rw [hsame]
      apply List.suffix_rfl
    . rw [if_neg hfit] at hdecoded
      cases hdecoded

theorem bufferLengths_decodeStreams {h : TsHeader} {npos : Nat} (hlen : data.length = unitSize)
    : ∀ {infos : List StreamPidInfo} {d : MpegtsDemux} {decoded : Decoded},
        decodeStreams h data npos infos d = some decoded →
        decoded.demux.bufferLengths <:+ d.bufferLengths ++ infos.filterMap fun info =>
          if h.pid = info.elementaryPid then insertLength h data npos else none
  | [], d, decoded, hdecoded => by
    cases hdecoded
    simp
  | info :: infos, d, decoded, hdecoded => by
    unfold decodeStreams at hdecoded
    by_cases hpid : h.pid = info.elementaryPid
    . rw [if_pos hpid] at hdecoded
      obtain ⟨first, hfirst, hdecoded⟩ := Option.bind_eq_some_iff.mp hdecoded
      obtain ⟨hsuffix, hfailed⟩ := bufferLengths_decodePes hlen hfirst
      rw [List.filterMap_cons, if_pos hpid]
      by_cases hret : first.ret < 0
      . rw [if_pos hret] at hdecoded
        cases hdecoded
        rw [hfailed hret] at hsuffix ⊢
        have hnone : (infos.filterMap fun info =>
            if h.pid = info.elementaryPid then (none : Option Nat) else none) = [] := by
          simp
        simpa [hnone] using hsuffix
      . rw [if_neg hret] at hdecoded
        obtain ⟨rest, hrest, hdecoded⟩ := Option.bind_eq_some_iff.mp hdecoded
        cases hdecoded
        apply (bufferLengths_decodeStreams hlen hrest).trans
        obtain ⟨front, hfront⟩ := hsuffix
        cases hinsert : insertLength h data npos with
        | none =>
          simp only [hinsert, Option.toList_none, List.append_nil] at hfront
          refine ⟨front, ?_⟩
          rw [← hfront, List.append_assoc]
        | some len =>
          simp only [hinsert, Option.toList_some] at hfront
          refine ⟨front, ?_⟩
          rw [← List.append_assoc, hfront, List.append_assoc]
          rfl
    . rw [if_neg hpid] at hdecoded
      rw [List.filterMap_cons, if_neg hpid]
      exact bufferLengths_decodeStreams hlen hdecoded

theorem dataBufferVec_parsePat {d : MpegtsDemux} {unitStart : Bool} {npos : Nat} {decoded : Decoded}
    (h : d.parsePat data unitStart npos = some decoded)
    : decoded.demux.dataBufferVec = d.dataBufferVec := by
  unfold parsePat at h
  simp only [Option.bind_eq_bind, Option.bind_eq_some_iff] at h
  obtain ⟨_, _, _, _, h⟩ := h
  split at h
  . cases h
    rfl
  . split at h
    . cases h
      rfl
    . obtain ⟨_, _, h⟩ := Option.bind_eq_some_iff.mp h
      cases h
      rfl

theorem dataBufferVec_parsePmt {d : MpegtsDemux} {unitStart : Bool} {npos : Nat} {decoded : Decoded}
    (h : d.parsePmt data unitStart npos = some decoded)
    : decoded.demux.dataBufferVec = d.dataBufferVec := by
  unfold parsePmt at h
  simp only [Option.bind_eq_bind, Option.bind_eq_some_iff] at h
  obtain ⟨_, _, _, _, h⟩ := h
  split at h
  . cases h
    rfl
  . obtain ⟨_, _, h⟩ := Option.bind_eq_some_iff.mp h
    obtain ⟨_, _, h⟩ := Option.bind_eq_some_iff.mp h
    cases h
    rfl

/--
A call leaves in the buffer what was there, or the end of it, and what it inserts.
-/
theorem bufferLengths_decodeUnit {d : MpegtsDemux} {decoded : Decoded} (hlen : data.length = unitSize)
    (h : d.decodeUnit data = some decoded)
    : decoded.demux.bufferLengths <:+ d.bufferLengths ++ d.insertLengths data := by
  unfold decodeUnit at h
  rw [tsHeader_eq hlen] at h
  simp only [Option.bind_eq_bind, Option.bind_some, adaptationEnd_eq hlen] at h
  obtain ⟨npos, hnpos, h⟩ := Option.bind_eq_some_iff.mp h
  have hsame {d' : MpegtsDemux} (hvec : d'.dataBufferVec = d.dataBufferVec)
      : d'.bufferLengths <:+ d.bufferLengths ++ [] := by
    have hlengths : d'.bufferLengths = d.bufferLengths := congrArg (List.map _) hvec
    rw [List.append_nil]
    exact hlengths ▸ List.suffix_rfl
  unfold insertLengths
  by_cases hreach : ((headerAt data).adaptationFieldControl = 1
      ∨ (headerAt data).adaptationFieldControl = 3)
      ∧ (headerAt data).pid ∉ [0x00, 0x01, 0x02, 0x03, 0x11] ∧ ¬d.isPmt (headerAt data).pid
      ∧ (headerAt data).pid ∉ [0x42, 0x1fff]
  . simp only [if_pos hreach]
    obtain ⟨hpayload, hreserved, hpmt, hnull⟩ := hreach
    split at hnpos
    . cases hnpos
      rw [if_pos hpayload, if_neg, if_neg, if_neg hpmt, if_neg hnull] at h
      . exact bufferLengths_decodeStreams hlen h
      . intro hmem
        exact hreserved (List.mem_cons_of_mem _ hmem)
      . intro hzero
        exact hreserved (hzero ▸ List.mem_cons_self)
    . cases hnpos
  . simp only [if_neg hreach]
    split at h
    . next hpayload =>
      split at h
      . exact hsame (dataBufferVec_parsePat h)
      . next hzero =>
        split at h
        . cases h
          exact hsame rfl
        . next hreserved =>
          split at h
          . exact hsame (dataBufferVec_parsePmt h)
          . next hpmt =>
            split at h
            . cases h
              exact hsame rfl
            . next hnull =>
              refine absurd ⟨hpayload, ?_, hpmt, hnull⟩ hreach
              intro hmem
              cases List.mem_cons.mp hmem with
              | inl hpid => exact hzero hpid
              | inr hpid => exact hreserved hpid
    . cases h
      exact hsame rfl

end Inserted

/--
The demuxer reads each unit without a step outside of it, and keeps the length of every insertion.
-/
def RunInside : MpegtsDemux → List (List UInt8) → Prop
  | _, [] => True
  | d, data :: units =>
    (∀ len ∈ d.insertLengths data, len ≤ 184)
      ∧ ∃ decoded, d.decodeUnit data = some decoded ∧ RunInside decoded.demux units

def RunFits : MpegtsDemux → List (List UInt8) → Prop
  | _, [] => True
  | d, data :: units =>
    d.UnitFits data ∧ ∀ decoded, d.decodeUnit data = some decoded → RunFits decoded.demux units

theorem runInside_iff (d : MpegtsDemux) (units : List (List UInt8))
    (hlen : ∀ data ∈ units, data.length = unitSize) : d.RunInside units ↔ d.RunFits units := by
  induction units generalizing d with
  | nil => simp only [RunInside, RunFits]
  | cons data units ih =>
    have hdata := hlen data List.mem_cons_self
    have ih := fun d => ih d fun other hother => hlen other (List.mem_cons_of_mem _ hother)
    simp only [RunInside, RunFits, ih]
    constructor
    . intro ⟨_, decoded, hdecoded, hrest⟩
      refine ⟨?_, ?_⟩
      . rw [← decodeUnit_isSome hdata, hdecoded]
        rfl
      . intro other hother
        rw [hdecoded] at hother
        cases hother
        exact hrest
    . intro ⟨hfits, hrest⟩
      obtain ⟨decoded, hdecoded⟩ := Option.isSome_iff_exists.mp ((decodeUnit_isSome hdata d).mpr hfits)
      refine ⟨insertLengths_le hdata hfits, decoded, hdecoded, hrest decoded hdecoded⟩

theorem runInside_sample
    : RunInside {} [[0x47, 0x40, 0x00, 0x10, 0, 0, 0xb0, 13] ++ List.replicate 180 1] := by
  have hlen : ([0x47, 0x40, 0x00, 0x10, 0, 0, 0xb0, 13] ++ List.replicate 180 (1 : UInt8)).length
      = unitSize := by
    rw [List.length_append, List.length_replicate]
    rfl
  apply (runInside_iff {} _ (List.forall_mem_singleton.mpr hlen)).mpr
  refine ⟨⟨by decide, fun _ => ?_⟩, fun _ _ => trivial⟩
  have hfits : PatFits true 4 := by
    unfold PatFits
    decide
  exact hfits

/--
A length of private data that leads behind the end of the unit.
-/
def spoiledUnit : List UInt8 := [0x47, 0x00, 0x00, 0x20, 2, 0x02, 0xff] ++ List.replicate 181 0

theorem not_runInside
    : ¬∀ units : List (List UInt8), (∀ data ∈ units, data.length = unitSize) → RunInside {} units := by
  intro h
  have hlen : spoiledUnit.length = unitSize := by
    unfold spoiledUnit
    rw [List.length_append, List.length_replicate]
    rfl
  obtain ⟨_, decoded, hdecoded, _⟩ := h [spoiledUnit] (List.forall_mem_singleton.mpr hlen)
  have hnone : decodeUnit {} spoiledUnit = none := by decide +kernel
  rw [hnone] at hdecoded
  cases hdecoded

end MpegtsDemux

end Units

end MpegTs
