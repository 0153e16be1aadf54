import CppStreamer.Basic.Reading
import CppStreamer.Format.ParameterSets

/-!
This module contains `GetHevcDecInfoFromExtradata` with what it reads, and `GetVpsSpsPpsFromHevcDecInfo` with the arrays
that it takes a NALU from.
-/

open ByteStream Checked Reading

namespace Hevc

/--
One array of NALUs.
-/
structure HevcNaluUnit where
  arrayCompleteness : UInt8
  nalUnitType : UInt8
  numNalus : Nat
  nalDataVec : List (List UInt8)
  deriving DecidableEq, Repr

/--
The loop over the NALUs of an array: these and the position behind them, `none` if one leads behind the end.
-/
def nalDataFrom (mem : Nat → UInt8) (endPos : Nat) : Nat → Nat → Checked Span (Option (List (List UInt8) × Nat))
  | 0, p => return some ([], p)
  | count + 1, p => do
    let nalUnitLength := read2Bytes (← readBytes mem p 2)
    if endPos < p + 2 + nalUnitLength then return none
    else do
      let naluData ← readBytes mem (p + 2) nalUnitLength
      let rest ← nalDataFrom mem endPos count (p + 2 + nalUnitLength)
      return rest.map fun (nalus, p') => (naluData :: nalus, p')

/--
The loop over the arrays: whether it comes to the end, and the arrays up to there.
-/
def unitsFrom (mem : Nat → UInt8) (endPos : Nat) : Nat → Nat → Checked Span (Bool × List HevcNaluUnit)
  | 0, _ => return (true, [])
  | count + 1, p =>
    if endPos < p + 5 then return (false, [])
    else do
      let b ← readByte mem p
      let numNalus := read2Bytes (← readBytes mem (p + 1) 2)
      match ← nalDataFrom mem endPos numNalus (p + 3) with
      | none => return (false, [])
      | some (nalDataVec, p') => do
        let rest ← unitsFrom mem endPos count p'
        return (rest.1, ⟨b >>> 7 &&& 0x01, b &&& 0x3f, numNalus, nalDataVec⟩ :: rest.2)

/--
The configuration of a decoder.
-/
structure HevcDecConfRecord where
  configurationVersion : UInt8
  generalProfileSpace : UInt8 := 0
  generalTierFlag : UInt8 := 0
  generalProfileIdc : UInt8 := 0
  generalProfileCompatibilityFlags : Nat := 0
  generalConstraintIndicatorFlags : Nat := 0
  generalLevelIdc : UInt8 := 0
  minSpatialSegmentationIdc : Nat := 0
  parallelismType : UInt8 := 0
  chromaFormat : UInt8 := 0
  bitdepthLumaminus8 : UInt8 := 0
  bitdepthChromaminus8 : UInt8 := 0
  avgFramerate : Nat := 0
  constantFrameRate : UInt8 := 0
  numTemporallayers : UInt8 := 0
  temporalidNested : UInt8 := 0
  lengthsizeMinusone : UInt8 := 0
  naluVec : List HevcNaluUnit := []
  deriving DecidableEq, Repr

/--
The fields in front of the arrays.
-/
def readFields (mem : Nat → UInt8) (configurationVersion : UInt8) : Checked Span HevcDecConfRecord := do
  let profile ← readByte mem 1
  let compatibility ← readBytes mem 2 4
  let constraintHigh ← readBytes mem 6 4
  let constraintLow ← readBytes mem 10 2
  let level ← readByte mem 12
  let segmentation ← readBytes mem 13 2
  let parallelism ← readByte mem 15
  let chroma ← readByte mem 16
  let bitdepthLuma ← readByte mem 17
  let bitdepthChroma ← readByte mem 18
  let framerate ← readBytes mem 19 2
  let layers ← readByte mem 21
  return {
    configurationVersion
    generalProfileSpace := profile >>> 6 &&& 0x03
    generalTierFlag := profile >>> 5 &&& 0x01
    generalProfileIdc := profile &&& 0x1f
    generalProfileCompatibilityFlags := read4Bytes compatibility
    generalConstraintIndicatorFlags := read4Bytes constraintHigh * 2 ^ 16 + read2Bytes constraintLow
    generalLevelIdc := level
    minSpatialSegmentationIdc := read2Bytes segmentation % 2 ^ 12
    parallelismType := parallelism &&& 0x03
    chromaFormat := chroma &&& 0x03
    bitdepthLumaminus8 := bitdepthLuma &&& 0x07
    bitdepthChromaminus8 := bitdepthChroma &&& 0x07
    avgFramerate := read2Bytes framerate
    constantFrameRate := layers >>> 6 &&& 0x03
    numTemporallayers := layers >>> 3 &&& 0x07
    temporalidNested := layers >>> 2 &&& 0x01
    lengthsizeMinusone := layers &&& 0x03
  }

/--
Whether 0 is returned, and the record. The length is only looked at in front of the arrays.
-/
def getHevcDecInfoFromExtradata (mem : Nat → UInt8) (extraLen : Nat) : Checked Span (Bool × HevcDecConfRecord) := do
  let configurationVersion ← readByte mem 0
  if configurationVersion ≠ 1 then return (false, { configurationVersion })
  else do
    let record ← readFields mem configurationVersion
    let arraysNum ← readByte mem 22
    let units ← unitsFrom mem extraLen arraysNum.toNat 23
    return (units.1, { record with naluVec := units.2 })

section Coding

/--
A NALU with its length in front.
-/
def coded (nalu : List UInt8) : List UInt8 := write2Bytes nalu.length ++ nalu

/--
An array as it is written. The first byte has its completeness, a reserved bit and the type of its NALUs.
-/
structure HevcArray where
  header : UInt8
  nalus : List (List UInt8)
  count_lt : nalus.length < 2 ^ 16
  nalu_lt : ∀ nalu ∈ nalus, nalu.length < 2 ^ 16

namespace HevcArray

def bytes (a : HevcArray) : List UInt8 := a.header :: (write2Bytes a.nalus.length ++ a.nalus.flatMap coded)

def unit (a : HevcArray) : HevcNaluUnit := ⟨a.header >>> 7 &&& 0x01, a.header &&& 0x3f, a.nalus.length, a.nalus⟩

end HevcArray

/--
The rest of an array ends within the length of a NALU.
-/
inductive CutInLength : Nat → List UInt8 → Prop where
  | here {count : Nat} {tail : List UInt8} (h : tail.length < 2) : CutInLength (count + 1) tail
  | nalu {count : Nat} {rest nalu : List UInt8} (hlt : nalu.length < 2 ^ 16) (h : CutInLength count rest)
      : CutInLength (count + 1) (coded nalu ++ rest)

/--
Arrays of which one ends within the length of a NALU that is not its first one.
-/
inductive CutInArray : Nat → List UInt8 → Prop where
  | here {count num : Nat} {header : UInt8} {body : List UInt8} (hlt : num < 2 ^ 16) (hbody : 2 ≤ body.length)
      (h : CutInLength num body) : CutInArray (count + 1) (header :: (write2Bytes num ++ body))
  | array {count : Nat} {rest : List UInt8} (a : HevcArray) (h : CutInArray count rest)
      : CutInArray (count + 1) (a.bytes ++ rest)

theorem length_coded (nalu : List UInt8) : (coded nalu).length = 2 + nalu.length := List.length_append

theorem read2Bytes_coded {nalu : List UInt8} (hlt : nalu.length < 2 ^ 16) (rest : List UInt8)
    : read2Bytes (coded nalu ++ rest) = nalu.length := by
  unfold coded
  rw [List.append_assoc, read2Bytes_write2Bytes]
  omega

theorem coded_inj {nalu nalu' rest rest' : List UInt8} (hlt : nalu.length < 2 ^ 16) (hlt' : nalu'.length < 2 ^ 16)
    (h : coded nalu ++ rest = coded nalu' ++ rest') : nalu = nalu' ∧ rest = rest' := by
  have hlen := read2Bytes_coded hlt rest
  rw [h, read2Bytes_coded hlt'] at hlen
  have hcoded : (coded nalu).length = (coded nalu').length := by rw [length_coded, length_coded, hlen]
  rcases List.append_inj h hcoded with ⟨hnalu, hrest⟩
  exact ⟨(List.append_inj hnalu rfl).right, hrest⟩

/--
What a length is followed by.
-/
theorem exists_coded {data : List UInt8} (hlen : 2 + read2Bytes data ≤ data.length)
    : ∃ nalu rest, nalu.length < 2 ^ 16 ∧ data = coded nalu ++ rest := by
  have htwo : (data.take 2).length = 2 := by
    rw [List.length_take]
    omega
  have hwrite := write2Bytes_read2Bytes htwo
  have hnalu : ((data.drop 2).take (read2Bytes data)).length = read2Bytes data := by
    rw [List.length_take, List.length_drop]
    omega
  rw [← read2Bytes_append _ (data.drop 2) htwo.ge, List.take_append_drop] at hwrite
  refine ⟨(data.drop 2).take (read2Bytes data), (data.drop 2).drop (read2Bytes data), ?_, ?_⟩
  . rw [hnalu]
    exact read2Bytes_lt data
  . rw [coded, hnalu, hwrite, List.append_assoc, List.take_append_drop, List.take_append_drop]

end Coding

section Nalus

variable {mem : Nat → UInt8} {p endPos count : Nat} {data rest nalu : List UInt8}

theorem read2Bytes_bytesAt (hmem : HoldsAt mem p data) (hlen : 2 ≤ data.length)
    : read2Bytes (bytesAt mem p 2) = read2Bytes data := by
  rw [bytesAt_take hmem hlen, ← read2Bytes_append _ (data.drop 2), List.take_append_drop]
  rw [List.length_take]
  omega

theorem nalDataFrom_short (hend : p + data.length = endPos) (hlen : data.length < 2)
    : ¬(nalDataFrom mem endPos (count + 1) p).Passes (Span.Within endPos) := by
  intro h
  rw [nalDataFrom, passes_bind, readBytes_passes] at h
  omega

theorem nalDataFrom_long (hmem : HoldsAt mem p data) (hend : p + data.length = endPos) (hlen : 2 ≤ data.length)
    (hlong : data.length < 2 + read2Bytes data)
    : (nalDataFrom mem endPos (count + 1) p).value = none
        ∧ (nalDataFrom mem endPos (count + 1) p).Passes (Span.Within endPos) := by
  rw [nalDataFrom, passes_bind, value_bind, readBytes_passes, readBytes_value, read2Bytes_bytesAt hmem hlen,
    if_pos (by omega)]
  exact ⟨rfl, by omega, passes_pure _⟩

theorem nalDataFrom_coded (hmem : HoldsAt mem p (coded nalu ++ rest)) (hlt : nalu.length < 2 ^ 16)
    (hend : p + (coded nalu ++ rest).length = endPos) (count : Nat)
    : (nalDataFrom mem endPos (count + 1) p).value
          = (nalDataFrom mem endPos count (p + (coded nalu).length)).value.map (fun next => (nalu :: next.1, next.2))
        ∧ ((nalDataFrom mem endPos (count + 1) p).Passes (Span.Within endPos)
          ↔ (nalDataFrom mem endPos count (p + (coded nalu).length)).Passes (Span.Within endPos)) := by
  have hcoded := length_coded nalu
  have hsum : (coded nalu ++ rest).length = (coded nalu).length + rest.length := List.length_append
  have hlength := read2Bytes_bytesAt hmem (by omega)
  have hnalu : bytesAt mem (p + 2) nalu.length = nalu := by
    unfold coded at hmem
    rw [List.append_assoc] at hmem
    exact bytesAt_append (hmem.right rfl) rfl
  have hnext : p + 2 + nalu.length = p + (coded nalu).length := by omega
  rw [read2Bytes_coded hlt] at hlength
  rw [nalDataFrom, value_bind, passes_bind, readBytes_value, readBytes_passes, hlength, if_neg (by omega), value_bind,
    passes_bind, readBytes_passes, readBytes_value, hnalu, hnext, value_bind, passes_bind]
  constructor
  . rfl
  . constructor
    . rintro ⟨-, -, h, -⟩
      exact h
    . intro h
      exact ⟨by omega, by omega, h, passes_pure _⟩

theorem nalDataFrom_passes (hmem : HoldsAt mem p data) (hend : p + data.length = endPos)
    : (nalDataFrom mem endPos count p).Passes (Span.Within endPos) ↔ ¬CutInLength count data := by
  induction count generalizing p data with
  | zero =>
    apply iff_of_true
    . exact passes_pure _
    . rintro ⟨⟩
  | succ count ih =>
    by_cases hshort : data.length < 2
    . apply iff_of_false
      . exact nalDataFrom_short hend hshort
      . exact fun h => h (.here hshort)
    . by_cases hlong : data.length < 2 + read2Bytes data
      . apply iff_of_true
        . exact (nalDataFrom_long hmem hend (by omega) hlong).right
        . intro h
          cases h with
          | here h => exact hshort h
          | @nalu _ rest nalu hlt _ =>
            rw [read2Bytes_coded hlt, List.length_append, length_coded] at hlong
            omega
      . rcases exists_coded (by omega : 2 + read2Bytes data ≤ data.length) with ⟨nalu, rest, hlt, rfl⟩
        have hrest := ih (hmem.right rfl) (end_right hend)
        rw [(nalDataFrom_coded hmem hlt hend count).right, hrest, not_iff_not]
        constructor
        . exact .nalu hlt
        . intro h
          generalize hdata : coded nalu ++ rest = data at h hshort
          cases h with
          | here h => exact absurd h hshort
          | nalu hlt' h =>
            rcases coded_inj hlt hlt' hdata with ⟨-, rfl⟩
            exact h

/--
The NALUs of an array that is inside.
-/
theorem nalDataFrom_flatMap {nalus : List (List UInt8)} (hlt : ∀ nalu ∈ nalus, nalu.length < 2 ^ 16)
    (hmem : HoldsAt mem p (nalus.flatMap coded ++ rest)) (hend : p + (nalus.flatMap coded ++ rest).length = endPos)
    : (nalDataFrom mem endPos nalus.length p).value = some (nalus, p + (nalus.flatMap coded).length)
        ∧ (nalDataFrom mem endPos nalus.length p).Passes (Span.Within endPos) := by
  induction nalus generalizing p with
  | nil => exact ⟨rfl, passes_pure _⟩
  | cons nalu nalus ih =>
    rcases List.forall_mem_cons.mp hlt with ⟨hnalu, hlt⟩
    rw [List.flatMap_cons, List.append_assoc] at hmem hend
    rcases nalDataFrom_coded hmem hnalu hend nalus.length with ⟨hvalue, hpasses⟩
    rcases ih hlt (hmem.right rfl) (end_right hend) with ⟨hvalue', hpasses'⟩
    rw [List.length_cons, hvalue, hpasses, hvalue', List.flatMap_cons, List.length_append, ← Nat.add_assoc]
    exact ⟨rfl, hpasses'⟩

theorem nalDataFrom_some {nalus : List (List UInt8)} {p' : Nat} (hmem : HoldsAt mem p data)
    (hend : p + data.length = endPos) (hpasses : (nalDataFrom mem endPos count p).Passes (Span.Within endPos))
    (h : (nalDataFrom mem endPos count p).value = some (nalus, p'))
    : nalus.length = count ∧ (∀ nalu ∈ nalus, nalu.length < 2 ^ 16) ∧ ∃ rest, data = nalus.flatMap coded ++ rest := by
  induction count generalizing p data nalus p' with
  | zero =>
    cases h
    exact ⟨rfl, fun _ hnalu => absurd hnalu List.not_mem_nil, data, rfl⟩
  | succ count ih =>
    have hlen : 2 ≤ data.length := by
      by_contra hlen
      exact nalDataFrom_short hend (by omega) hpasses
    have hfits : 2 + read2Bytes data ≤ data.length := by
      by_contra hlong
      rw [(nalDataFrom_long hmem hend hlen (by omega)).left] at h
      cases h
    rcases exists_coded hfits with ⟨nalu, rest, hlt, rfl⟩
    rcases nalDataFrom_coded hmem hlt hend count with ⟨hvalue, hpasses'⟩
    rw [hvalue, Option.map_eq_some_iff] at h
    rw [hpasses'] at hpasses
    rcases h with ⟨⟨nalus, p''⟩, h, ⟨⟩⟩
    rcases ih (hmem.right rfl) (end_right hend) hpasses h
      with ⟨hcount, hnalus, rest', rfl⟩
    refine ⟨congrArg (· + 1) hcount, List.forall_mem_cons.mpr ⟨hlt, hnalus⟩, rest', ?_⟩
    rw [List.flatMap_cons, List.append_assoc]

end Nalus

section Arrays

variable {mem : Nat → UInt8} {p endPos count num : Nat} {header : UInt8} {data rest body : List UInt8}

theorem exists_header (hlen : 3 ≤ data.length)
    : ∃ header num body, num < 2 ^ 16 ∧ data = header :: (write2Bytes num ++ body) := by
  match data, hlen with
  | header :: b1 :: b0 :: body, _ =>
    have hwrite : write2Bytes (read2Bytes [b1, b0]) = [b1, b0] := write2Bytes_read2Bytes rfl
    refine ⟨header, read2Bytes [b1, b0], body, read2Bytes_lt _, ?_⟩
    rw [hwrite]
    rfl

theorem header_inj {header' : UInt8} {num' : Nat} {body' : List UInt8} (hnum : num < 2 ^ 16) (hnum' : num' < 2 ^ 16)
    (h : header :: (write2Bytes num ++ body) = header' :: (write2Bytes num' ++ body'))
    : header = header' ∧ num = num' ∧ body = body' := by
  rcases List.cons.inj h with ⟨hheader, hrest⟩
  rcases List.append_inj hrest rfl with ⟨hwrite, hbody⟩
  have hread := congrArg read2Bytes hwrite
  rw [read2Bytes_write2Bytes_of_lt hnum, read2Bytes_write2Bytes_of_lt hnum'] at hread
  exact ⟨hheader, hread, hbody⟩

theorem unitsFrom_short (hend : p + data.length = endPos) (hlen : data.length < 5)
    : (unitsFrom mem endPos (count + 1) p).value = (false, [])
        ∧ (unitsFrom mem endPos (count + 1) p).Passes (Span.Within endPos) := by
  rw [unitsFrom, if_pos (by omega)]
  exact ⟨rfl, passes_pure _⟩

theorem unitsFrom_header (hmem : HoldsAt mem p (header :: (write2Bytes num ++ body))) (hnum : num < 2 ^ 16)
    (hbody : 2 ≤ body.length) (hend : p + 3 + body.length = endPos) (count : Nat)
    : (unitsFrom mem endPos (count + 1) p).value
          = ((nalDataFrom mem endPos num (p + 3)).value.elim (false, []) fun next =>
            ((unitsFrom mem endPos count next.2).value.1,
              ⟨header >>> 7 &&& 0x01, header &&& 0x3f, num, next.1⟩ :: (unitsFrom mem endPos count next.2).value.2))
        ∧ ((unitsFrom mem endPos (count + 1) p).Passes (Span.Within endPos)
          ↔ (nalDataFrom mem endPos num (p + 3)).Passes (Span.Within endPos)
            ∧ (nalDataFrom mem endPos num (p + 3)).value.elim True fun next =>
              (unitsFrom mem endPos count next.2).Passes (Span.Within endPos)) := by
  have hheader : mem p = header := hmem.head
  have hcount : read2Bytes (bytesAt mem (p + 1) 2) = num := by
    have hbytes : bytesAt mem (p + 1) 2 = write2Bytes num := bytesAt_append hmem.tail rfl
    rw [hbytes, read2Bytes_write2Bytes_of_lt hnum]
  rw [unitsFrom, if_neg (by omega)]
  simp only [value_bind, passes_bind, readByte_value, readByte_passes, readBytes_value, readBytes_passes, hheader,
    hcount]
  cases (nalDataFrom mem endPos num (p + 3)).value with
  | none =>
    simp only [value_pure, passes_pure, Option.elim_none, and_true, true_and]
    constructor
    . rintro ⟨-, -, h⟩
      exact h
    . intro h
      exact ⟨by omega, by omega, h⟩
  | some next =>
    simp only [value_bind, passes_bind, value_pure, passes_pure, Option.elim_some, and_true, true_and]
    constructor
    . rintro ⟨-, -, h⟩
      exact h
    . intro h
      exact ⟨by omega, by omega, h⟩

theorem HevcArray.length_bytes (a : HevcArray) : a.bytes.length = 3 + (a.nalus.flatMap coded).length := by
  rw [bytes, List.length_cons, List.length_append, length_write2Bytes]
  omega

/--
An array that is inside, and behind whose first bytes there are two more.
-/
theorem unitsFrom_array (a : HevcArray) (hmem : HoldsAt mem p (a.bytes ++ rest))
    (hend : p + (a.bytes ++ rest).length = endPos) (hlen : 5 ≤ (a.bytes ++ rest).length) (count : Nat)
    : (unitsFrom mem endPos (count + 1) p).value
          = ((unitsFrom mem endPos count (p + a.bytes.length)).value.1,
            a.unit :: (unitsFrom mem endPos count (p + a.bytes.length)).value.2)
        ∧ ((unitsFrom mem endPos (count + 1) p).Passes (Span.Within endPos)
          ↔ (unitsFrom mem endPos count (p + a.bytes.length)).Passes (Span.Within endPos)) := by
  have hbytes := a.length_bytes
  have hbody : 3 + (a.nalus.flatMap coded ++ rest).length = (a.bytes ++ rest).length := by
    rw [List.length_append, List.length_append, hbytes, Nat.add_assoc]
  have hsplit : a.bytes ++ rest
      = a.header :: (write2Bytes a.nalus.length ++ (a.nalus.flatMap coded ++ rest)) := by
    rw [HevcArray.bytes, List.cons_append, List.append_assoc]
  rw [hsplit] at hmem
  have hnalus : HoldsAt mem (p + 3) (a.nalus.flatMap coded ++ rest) := hmem.tail.right rfl
  have hnalusEnd : p + 3 + (a.nalus.flatMap coded ++ rest).length = endPos := by omega
  rcases nalDataFrom_flatMap a.nalu_lt hnalus hnalusEnd with ⟨hvalue, hpasses⟩
  rcases unitsFrom_header hmem a.count_lt (by omega) hnalusEnd count with ⟨hunits, hunitsPass⟩
  have hnext : p + 3 + (a.nalus.flatMap coded).length = p + a.bytes.length := by omega
  rw [hunits, hunitsPass, hvalue, Option.elim_some, Option.elim_some, hnext]
  exact ⟨rfl, and_iff_right hpasses⟩

theorem CutInArray.length_ge (h : CutInArray count data) : 5 ≤ data.length := by
  induction h with
  | @here _ num _ body _ hbody _ =>
    rw [List.length_cons, List.length_append, length_write2Bytes]
    omega
  | array a _ ih =>
    rw [List.length_append]
    omega

theorem cutInArray_iff (hnum : num < 2 ^ 16)
    : CutInArray (count + 1) (header :: (write2Bytes num ++ body))
        ↔ (2 ≤ body.length ∧ CutInLength num body)
          ∨ ∃ (nalus : List (List UInt8)) (rest : List UInt8), nalus.length = num
            ∧ (∀ nalu ∈ nalus, nalu.length < 2 ^ 16) ∧ body = nalus.flatMap coded ++ rest ∧ CutInArray count rest := by
  constructor
  . generalize hdata : header :: (write2Bytes num ++ body) = data
    intro h
    cases h with
    | here hnum' hbody h =>
      rcases header_inj hnum hnum' hdata with ⟨-, rfl, rfl⟩
      exact Or.inl ⟨hbody, h⟩
    | array a h =>
      rw [HevcArray.bytes, List.cons_append, List.append_assoc] at hdata
      rcases header_inj hnum a.count_lt hdata with ⟨-, rfl, rfl⟩
      exact Or.inr ⟨a.nalus, _, rfl, a.nalu_lt, rfl, h⟩
  . rintro (⟨hbody, h⟩ | ⟨nalus, rest, rfl, hlt, rfl, h⟩)
    . exact .here hnum hbody h
    . have harray := CutInArray.array ⟨header, nalus, hnum, hlt⟩ h
      rwa [HevcArray.bytes, List.cons_append, List.append_assoc] at harray

theorem unitsFrom_passes (hmem : HoldsAt mem p data) (hend : p + data.length = endPos)
    : (unitsFrom mem endPos count p).Passes (Span.Within endPos) ↔ ¬CutInArray count data := by
  induction count generalizing p data with
  | zero =>
    apply iff_of_true
    . exact passes_pure _
    . rintro ⟨⟩
  | succ count ih =>
    by_cases hshort : data.length < 5
    . apply iff_of_true
      . exact (unitsFrom_short hend hshort).right
      . intro h
        have := h.length_ge
        omega
    . rcases exists_header (by omega : 3 ≤ data.length) with ⟨header, num, body, hnum, rfl⟩
      have hlen : (header :: (write2Bytes num ++ body)).length = 3 + body.length := by
        rw [List.length_cons, List.length_append, length_write2Bytes]
        omega
      have hbody : HoldsAt mem (p + 3) body := hmem.tail.right rfl
      have hbodyEnd : p + 3 + body.length = endPos := by omega
      have hnalus : (nalDataFrom mem endPos num (p + 3)).Passes _ ↔ _ := nalDataFrom_passes hbody hbodyEnd
      rw [(unitsFrom_header hmem hnum (by omega) hbodyEnd count).right, cutInArray_iff hnum]
      by_cases hpasses : (nalDataFrom mem endPos num (p + 3)).Passes (Span.Within endPos)
      . have hcut := hnalus.mp hpasses
        rw [and_iff_right hpasses, or_iff_right fun h => hcut h.right]
        cases hvalue : (nalDataFrom mem endPos num (p + 3)).value with
        | none =>
          apply iff_of_true trivial
          rintro ⟨nalus, rest, rfl, hlt, rfl, -⟩
          rw [(nalDataFrom_flatMap hlt hbody hbodyEnd).left] at hvalue
          cases hvalue
        | some next =>
          rcases next with ⟨units, p'⟩
          rcases nalDataFrom_some hbody hbodyEnd hpasses hvalue with ⟨rfl, hlt, rest, rfl⟩
          rw [(nalDataFrom_flatMap hlt hbody hbodyEnd).left] at hvalue
          cases hvalue
          rw [Option.elim_some, ih (hbody.right rfl) (end_right hbodyEnd), not_iff_not]
          constructor
          . exact fun h => ⟨_, rest, rfl, hlt, rfl, h⟩
          . rintro ⟨nalus, rest', hcount, hlt', hdata, h⟩
            -- the loop finds the same NALUs in both ways to split the array
            have hsame := (nalDataFrom_flatMap hlt' (hdata ▸ hbody) (hdata ▸ hbodyEnd)).left
            rw [hcount, (nalDataFrom_flatMap hlt hbody hbodyEnd).left] at hsame
            cases hsame
            rwa [List.append_cancel_left hdata]
      . apply iff_of_false
        . exact fun h => hpasses h.left
        . intro h
          apply h
          refine Or.inl ⟨by omega, ?_⟩
          exact not_not.mp (mt hnalus.mpr hpasses)

/--
The NALUs and the arrays that the muxers take from a record.
-/
theorem hevcNaluData_eq (mem : Nat → UInt8) (endPos count p : Nat)
    : ParameterSets.hevcNaluData mem endPos count p = (nalDataFrom mem endPos count p).value := by
  induction count generalizing p with
  | zero => rfl
  | succ count ih =>
    rw [ParameterSets.hevcNaluData, nalDataFrom, value_bind, readBytes_value]
    simp only
    split
    . next hlong =>
      have hlong' : endPos < p + 2 + read2Bytes (bytesAt mem p 2) := hlong
      rw [if_pos hlong']
      rfl
    . next hshort =>
      have hshort' : ¬endPos < p + 2 + read2Bytes (bytesAt mem p 2) := hshort
      rw [if_neg hshort', ih]
      rfl

theorem hevcUnits_eq (mem : Nat → UInt8) (endPos count p : Nat)
    : ParameterSets.hevcUnits mem endPos count p
        = if (unitsFrom mem endPos count p).value.1 then
            some ((unitsFrom mem endPos count p).value.2.map fun unit => ⟨unit.nalUnitType, unit.nalDataVec⟩)
          else none := by
  induction count generalizing p with
  | zero => rfl
  | succ count ih =>
    rw [ParameterSets.hevcUnits, unitsFrom, hevcNaluData_eq]
    split
    . rfl
    . rw [value_bind, value_bind, readByte_value, readBytes_value, value_bind]
      have hcount : ParameterSets.readAt mem (p + 1) 2 = bytesAt mem (p + 1) 2 := rfl
      rw [hcount]
      cases (nalDataFrom mem endPos (read2Bytes (bytesAt mem (p + 1) 2)) (p + 3)).value with
      | none => rfl
      | some next =>
        rcases next with ⟨nalus, p'⟩
        have hrest := ih p'
        rcases hunits : (unitsFrom mem endPos count p').value with ⟨ok, units⟩
        rw [hunits] at hrest
        simp only [value_bind, value_pure, hunits, Option.bind_eq_bind, Option.bind_some, hrest]
        cases ok
        all_goals rfl

end Arrays

section Record

/--
A record that is well formed. The fields behind its version are not looked at.
-/
structure RecordBytes where
  fields : List UInt8
  arrays : List HevcArray
  length_fields : fields.length = 21
  count_lt : arrays.length < 256

def RecordBytes.bytes (r : RecordBytes) : List UInt8 :=
  1 :: (r.fields ++ UInt8.ofNat r.arrays.length :: r.arrays.flatMap HevcArray.bytes)

/--
The record is accepted, with its arrays.
-/
def Parsed (mem : Nat → UInt8) (r : RecordBytes) : Prop :=
  (getHevcDecInfoFromExtradata mem r.bytes.length).value.1 = true
    ∧ (getHevcDecInfoFromExtradata mem r.bytes.length).value.2.naluVec = r.arrays.map HevcArray.unit

/--
The last array has a NALU, if there is an array.
-/
def LastHasNalu (arrays : List HevcArray) : Prop := ∀ a, arrays.getLast? = some a → a.nalus ≠ []

/--
There is a version, and behind the right one there are all fields, and no array that ends within the length of a NALU.
-/
def ReadsInside (data : List UInt8) : Prop :=
  data ≠ [] ∧ (data.getD 0 0 = 1 → 23 ≤ data.length ∧ ¬CutInArray (data.getD 22 0).toNat (data.drop 23))

variable {mem : Nat → UInt8} {p endPos total : Nat} {data : List UInt8}

theorem HevcArray.length_ge (a : HevcArray) : 5 ≤ a.bytes.length ↔ a.nalus ≠ [] := by
  rw [length_bytes]
  cases a.nalus with
  | nil => simp
  | cons nalu nalus =>
    rw [List.flatMap_cons, List.length_append, length_coded]
    simp only [ne_eq, reduceCtorEq, not_false_eq_true, iff_true]
    omega

theorem unitsFrom_arrays {arrays : List HevcArray} (hmem : HoldsAt mem p (arrays.flatMap HevcArray.bytes))
    (hend : p + (arrays.flatMap HevcArray.bytes).length = endPos)
    : ((unitsFrom mem endPos arrays.length p).value.1 = true
          ∧ (unitsFrom mem endPos arrays.length p).value.2 = arrays.map HevcArray.unit)
        ↔ LastHasNalu arrays := by
  induction arrays generalizing p with
  | nil =>
    apply iff_of_true
    . exact ⟨rfl, rfl⟩
    . rintro _ ⟨⟩
  | cons a arrays ih =>
    have hbytes := a.length_bytes
    rw [List.flatMap_cons] at hmem hend
    by_cases hlen : 5 ≤ (a.bytes ++ arrays.flatMap HevcArray.bytes).length
    . rw [List.length_cons, (unitsFrom_array a hmem hend hlen arrays.length).left, List.map_cons]
      have hrest := ih (hmem.right rfl) (end_right hend)
      have hlast : LastHasNalu (a :: arrays) ↔ LastHasNalu arrays := by
        cases arrays with
        | nil =>
          rw [List.flatMap_nil, List.append_nil, HevcArray.length_ge] at hlen
          apply iff_of_true
          . rintro _ ⟨⟩
            exact hlen
          . rintro _ ⟨⟩
        | cons next arrays =>
          unfold LastHasNalu
          rw [List.getLast?_cons_cons]
      rw [hlast, ← hrest, List.cons.injEq, and_iff_right rfl]
    . have harrays : arrays = [] := by
        cases arrays with
        | nil => rfl
        | cons next arrays =>
          rw [List.flatMap_cons, List.length_append, List.length_append, next.length_bytes, hbytes] at hlen
          omega
      subst harrays
      rw [List.length_cons, (unitsFrom_short hend (by omega)).left]
      rw [List.flatMap_nil, List.append_nil, HevcArray.length_ge, not_not] at hlen
      apply iff_of_false
      . rintro ⟨⟨⟩, -⟩
      . exact fun h => h a rfl hlen

theorem RecordBytes.parsed_iff {r : RecordBytes} (hmem : HoldsAt mem 0 r.bytes)
    : Parsed mem r ↔ LastHasNalu r.arrays := by
  have hversion : mem 0 = 1 := hmem.head
  have hcountAt : HoldsAt mem 22 (UInt8.ofNat r.arrays.length :: r.arrays.flatMap HevcArray.bytes) := by
    apply hmem.tail.right
    rw [r.length_fields]
  have hcount : (mem 22).toNat = r.arrays.length := by
    rw [hcountAt.head, UInt8.toNat_ofNat']
    exact Nat.mod_eq_of_lt r.count_lt
  have hend : 23 + (r.arrays.flatMap HevcArray.bytes).length = r.bytes.length := by
    rw [bytes, List.length_cons, List.length_append, List.length_cons, r.length_fields]
    omega
  have hunits := unitsFrom_arrays hcountAt.tail hend
  unfold Parsed getHevcDecInfoFromExtradata
  rw [value_bind, readByte_value, hversion, if_neg (not_not_intro rfl)]
  simp only [value_bind, value_pure, readByte_value, hcount]
  exact hunits

theorem readFields_passes (version : UInt8)
    : (readFields mem version).Passes (Span.Within total) ↔ 22 ≤ total := by
  unfold readFields
  simp only [passes_bind, readByte_passes, readBytes_passes, passes_pure, and_true]
  omega

theorem getHevcDecInfoFromExtradata_passes (hmem : HoldsAt mem 0 data)
    : (getHevcDecInfoFromExtradata mem data.length).Passes (Span.Within data.length) ↔ ReadsInside data := by
  have hbyte {i : Nat} (hi : i < data.length) : mem i = data.getD i 0 := by
    rw [← hmem.getD hi, Nat.zero_add]
  unfold getHevcDecInfoFromExtradata ReadsInside
  rw [passes_bind, readByte_passes, readByte_value]
  by_cases hempty : data = []
  . simp [hempty]
  . have hpos : 0 < data.length := List.length_pos_of_ne_nil hempty
    rw [hbyte hpos]
    by_cases hversion : data.getD 0 0 = 1
    . have hunits (hlen : 23 ≤ data.length)
          : (unitsFrom mem data.length (data.getD 22 0).toNat 23).Passes (Span.Within data.length)
            ↔ ¬CutInArray (data.getD 22 0).toNat (data.drop 23) := by
        apply unitsFrom_passes
        . exact hmem.behind 23
        . rw [List.length_drop]
          omega
      rw [if_neg (not_not_intro hversion)]
      simp only [passes_bind, readFields_passes, readByte_passes, readByte_value, passes_pure, and_true]
      constructor
      . rintro ⟨-, -, hlen, hpasses⟩
        rw [hbyte hlen, hunits hlen] at hpasses
        exact ⟨hempty, fun _ => ⟨hlen, hpasses⟩⟩
      . rintro ⟨-, h⟩
        rcases h hversion with ⟨hlen, hcut⟩
        rw [hbyte hlen, hunits hlen]
        exact ⟨hpos, by omega, hlen, hcut⟩
    . rw [if_pos hversion]
      constructor
      . exact fun _ => ⟨hempty, fun h => absurd h hversion⟩
      . exact fun _ => ⟨hpos, passes_pure _⟩

end Record

section Sets

/--
The parameter sets that are copied, and an array that the first NALU is taken from.
-/
structure Sets where
  vps : List UInt8 := []
  sps : List UInt8 := []
  pps : List UInt8 := []
  deriving DecidableEq, Repr

def firstNalu (unit : HevcNaluUnit) : Checked (List (List UInt8)) (List UInt8) := do
  check unit.nalDataVec
  return unit.nalDataVec.headD []

def Sets.copyUnit (s : Sets) (unit : HevcNaluUnit) : Checked (List (List UInt8)) Sets :=
  if unit.nalUnitType = MpegTs.naluTypeVps then do
    let vps ← firstNalu unit
    return { s with vps }
  else if unit.nalUnitType = MpegTs.naluTypeHevcSps then do
    let sps ← firstNalu unit
    return { s with sps }
  else if unit.nalUnitType = MpegTs.naluTypeHevcPps then do
    let pps ← firstNalu unit
    return { s with pps }
  else return s

/--
Whether 0 is returned, and the parameter sets.
-/
def getVpsSpsPpsFromHevcDecInfo (units : List HevcNaluUnit) : Checked (List (List UInt8)) (Bool × Sets) := do
  let s ← Checked.run Sets.copyUnit {} units
  return (s.vps ≠ [] ∧ s.sps ≠ [] ∧ s.pps ≠ [], s)

def IsSetType (type : UInt8) : Prop :=
  type = MpegTs.naluTypeVps ∨ type = MpegTs.naluTypeHevcSps ∨ type = MpegTs.naluTypeHevcPps

/--
The first NALU of the first array of a type, empty if there is none.
-/
def firstOfType (units : List HevcNaluUnit) (type : UInt8) : List UInt8 :=
  ((units.find? fun unit => unit.nalUnitType = type).map fun unit => unit.nalDataVec.headD []).getD []

/--
The parameter set of a type.
-/
def Sets.ofType (s : Sets) (type : UInt8) : List UInt8 :=
  if type = MpegTs.naluTypeVps then s.vps
  else if type = MpegTs.naluTypeHevcSps then s.sps
  else s.pps

variable {type : UInt8} {units : List HevcNaluUnit}

theorem setTypes_ne : MpegTs.naluTypeHevcSps ≠ MpegTs.naluTypeVps ∧ MpegTs.naluTypeHevcPps ≠ MpegTs.naluTypeVps
    ∧ MpegTs.naluTypeHevcPps ≠ MpegTs.naluTypeHevcSps := by
  decide

theorem copyUnit_ofType (h : IsSetType type) (s : Sets) (unit : HevcNaluUnit)
    : (s.copyUnit unit).value.ofType type
        = if unit.nalUnitType = type then unit.nalDataVec.headD [] else s.ofType type := by
  rcases setTypes_ne with ⟨hsps, hpps, hboth⟩
  unfold Sets.copyUnit
  rcases h with rfl | rfl | rfl
  . by_cases hvps : unit.nalUnitType = MpegTs.naluTypeVps
    . rw [if_pos hvps, if_pos hvps]
      rfl
    . rw [if_neg hvps, if_neg hvps]
      split
      . rfl
      . split
        all_goals rfl
  . by_cases hunit : unit.nalUnitType = MpegTs.naluTypeHevcSps
    . rw [hunit, if_neg hsps, if_pos rfl, if_pos rfl]
      rfl
    . rw [if_neg hunit, if_neg hunit]
      split
      . rfl
      . split
        all_goals rfl
  . by_cases hunit : unit.nalUnitType = MpegTs.naluTypeHevcPps
    . rw [hunit, if_neg hpps, if_neg hboth, if_pos rfl, if_pos rfl]
      rfl
    . rw [if_neg hunit, if_neg hunit]
      split
      . rfl
      . split
        all_goals rfl

theorem run_ofType_of_none (h : IsSetType type) (s : Sets) (hnone : ∀ unit ∈ units, unit.nalUnitType ≠ type)
    : (Checked.run Sets.copyUnit s units).value.ofType type = s.ofType type := by
  induction units generalizing s with
  | nil => rfl
  | cons unit units ih =>
    rcases List.forall_mem_cons.mp hnone with ⟨hunit, hnone⟩
    rw [run, value_bind, ih _ hnone, copyUnit_ofType h, if_neg hunit]

theorem run_ofType_eq (h : IsSetType type) (hnodup : (units.map HevcNaluUnit.nalUnitType).Nodup) (s : Sets)
    : (Checked.run Sets.copyUnit s units).value.ofType type
        = ((units.find? fun unit => unit.nalUnitType = type).map fun unit => unit.nalDataVec.headD []).getD
          (s.ofType type) := by
  induction units generalizing s with
  | nil => rfl
  | cons unit units ih =>
    rw [List.map_cons, List.nodup_cons] at hnodup
    rw [run, value_bind]
    by_cases hunit : unit.nalUnitType = type
    . rw [run_ofType_of_none h, copyUnit_ofType h, if_pos hunit, List.find?_cons_of_pos (by simpa using hunit)]
      . rfl
      . intro other hother htype
        apply hnodup.left
        rw [hunit, ← htype]
        exact List.mem_map_of_mem hother
    . rw [ih hnodup.right, copyUnit_ofType h, if_neg hunit, List.find?_cons_of_neg (by simpa using hunit)]

theorem run_ofType (h : IsSetType type) (hnodup : (units.map HevcNaluUnit.nalUnitType).Nodup)
    : (Checked.run Sets.copyUnit {} units).value.ofType type = firstOfType units type := by
  rw [run_ofType_eq h hnodup]
  rcases h with rfl | rfl | rfl
  all_goals rfl

theorem copyUnit_passes (s : Sets) (unit : HevcNaluUnit)
    : (s.copyUnit unit).Passes (· ≠ []) ↔ (IsSetType unit.nalUnitType → unit.nalDataVec ≠ []) := by
  have hfirst : (firstNalu unit).Passes (· ≠ []) ↔ unit.nalDataVec ≠ [] := by
    simp [firstNalu]
  unfold Sets.copyUnit IsSetType
  simp only [passes_ite, passes_bind, passes_pure, hfirst, and_true, implies_true]
  by_cases hvps : unit.nalUnitType = MpegTs.naluTypeVps
  . simp [hvps]
  . by_cases hsps : unit.nalUnitType = MpegTs.naluTypeHevcSps
    . simp [hsps]
    . simp [hvps, hsps]

theorem getVpsSpsPps_passes
    : (getVpsSpsPpsFromHevcDecInfo units).Passes (· ≠ [])
        ↔ ∀ unit ∈ units, IsSetType unit.nalUnitType → unit.nalDataVec ≠ [] := by
  unfold getVpsSpsPpsFromHevcDecInfo
  rw [passes_bind, and_iff_left (passes_pure _), run_passes_iff_runMeets (fun _ => True) _
    (fun s unit _ => copyUnit_passes s unit) (fun _ _ _ _ => trivial) trivial]
  apply runMeets_iff_forall

theorem getVpsSpsPps_value (hnodup : (units.map HevcNaluUnit.nalUnitType).Nodup)
    : (getVpsSpsPpsFromHevcDecInfo units).value.2
        = ⟨firstOfType units MpegTs.naluTypeVps, firstOfType units MpegTs.naluTypeHevcSps,
          firstOfType units MpegTs.naluTypeHevcPps⟩ := by
  rw [← run_ofType (Or.inl rfl) hnodup, ← run_ofType (Or.inr (Or.inl rfl)) hnodup,
    ← run_ofType (Or.inr (Or.inr rfl)) hnodup]
  rfl

end Sets

theorem noArrays_lt : ([] : List HevcArray).length < 256 := Nat.zero_lt_succ 255

def noArrays : RecordBytes := ⟨List.replicate 21 0, [], rfl, noArrays_lt⟩

/--
An array of VPS without a NALU.
-/
def emptyVps : HevcArray := ⟨32, [], Nat.two_pow_pos 16, fun _ h => absurd h List.not_mem_nil⟩

def emptyLast : RecordBytes := ⟨List.replicate 21 0, [emptyVps], rfl, Nat.one_lt_succ_succ 254⟩

end Hevc
