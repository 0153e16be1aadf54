import CppStreamer.Format.AvcRecord

/-!
This module contains the two decoders of the AudioSpecificConfig of AAC, and where they return what is encoded and the
same as each other.
-/

open ByteStream Checked Reading Flv

namespace Asc

/--
How the sampling rate is given: as an index of the table, or as a number of 24 bits.
-/
inductive SamplingRate where
  | index (i : Nat)
  | explicit (rate : Nat)
  deriving DecidableEq, Repr

namespace SamplingRate

/--
The index 15 announces a number.
-/
def Valid : SamplingRate → Prop
  | index i => i < 15
  | explicit rate => rate < 2 ^ 24

/--
A reserved index stands for no rate.
-/
def value : SamplingRate → Nat
  | index i => MpegTs.mpeg4AudioSampleRates.getD i 0
  | explicit rate => rate

end SamplingRate

/--
A configuration with three bits and any bytes behind its fields.
-/
structure AudioSpecificConfig where
  objectType : Nat
  rate : SamplingRate
  channel : Nat
  spare : Nat
  rest : List UInt8
  objectType_lt : objectType < 31
  rate_valid : rate.Valid
  channel_lt : channel < 2 ^ 4
  spare_lt : spare < 2 ^ 3

namespace AudioSpecificConfig

def bytes (asc : AudioSpecificConfig) : List UInt8 :=
  match asc.rate with
  | .index i => write2Bytes (asc.objectType * 2 ^ 11 + i * 2 ^ 7 + asc.channel * 2 ^ 3 + asc.spare) ++ asc.rest
  | .explicit rate =>
    let bits := asc.objectType * 2 ^ 35 + 15 * 2 ^ 31 + rate * 2 ^ 7 + asc.channel * 2 ^ 3 + asc.spare
    byteAt bits 4 :: write4Bytes bits ++ asc.rest

def info (asc : AudioSpecificConfig) : AudioInfo := ⟨asc.objectType, asc.rate.value, asc.channel⟩

/--
The rate is given by an index, or the lower 17 bits of the number are 0 and the channels are known beforehand.
-/
def Decoded (asc : AudioSpecificConfig) (info : AudioInfo) : Prop :=
  match asc.rate with
  | .index _ => True
  | .explicit rate => rate % 2 ^ 17 = 0 ∧ info.channel = asc.channel

end AudioSpecificConfig

/--
The size of the data is not looked at. The index is compared with the number of bytes of the table.
-/
def getAudioInfo2ByAsc (p : Nat → UInt8) (data : Nat) : Checked TagCheck (Option AudioInfo) := do
  check (.read data 1)
  let audioType := (p data).toNat / 2 ^ 3 % 2 ^ 5
  if audioType = 31 then return none
  else do
    check (.read (data + 1) 1)
    let sampleRateIndex := (p data).toNat % 2 ^ 3 * 2 + (p (data + 1)).toNat / 2 ^ 7
    if 16 * 4 < sampleRateIndex then return none
    else do
      let sampleRate := MpegTs.mpeg4AudioSampleRates.getD sampleRateIndex 0
      let channel := (p (data + 1)).toNat / 2 ^ 3 % 2 ^ 4
      if audioType = 5 ∨ audioType = 29 then do
        check (.read (data + 1) 2)
        let sampleRateIndex := (p (data + 1)).toNat * 2 % 2 ^ 4 + (p (data + 2)).toNat / 2 ^ 7
        return some ⟨audioType, MpegTs.mpeg4AudioSampleRates.getD sampleRateIndex 0, channel⟩
      else return some ⟨audioType, sampleRate, channel⟩

def typeAt (p : Nat → UInt8) : Nat := (p 0).toNat / 2 ^ 3

def indexAt (p : Nat → UInt8) : Nat := (p 0).toNat % 2 ^ 3 * 2 + (p 1).toNat / 2 ^ 7

/--
The index that follows the channels if the type announces an extension.
-/
def extensionIndexAt (p : Nat → UInt8) : Nat := (p 1).toNat % 2 ^ 3 * 2 + (p 2).toNat / 2 ^ 7

def HasExtension (p : Nat → UInt8) : Prop := typeAt p = 5 ∨ typeAt p = 29

instance (p : Nat → UInt8) : Decidable (HasExtension p) := inferInstanceAs (Decidable (_ ∨ _))

/--
The rate is given by an index, and an extension does not have another one. Or it is given by a number that begins with
zeros, there is no extension, and no channels are known beforehand.
-/
def Agree (p : Nat → UInt8) (info : AudioInfo) : Prop :=
  (indexAt p ≠ 15 ∧ (HasExtension p →
      MpegTs.mpeg4AudioSampleRates.getD (extensionIndexAt p) 0 = MpegTs.mpeg4AudioSampleRates.getD (indexAt p) 0))
    ∨ (indexAt p = 15 ∧ ¬HasExtension p ∧ (p 1).toNat % 2 ^ 7 = 0 ∧ (p 2).toNat < 2 ∧ info.channel = 0)

section Decode

variable {p : Nat → UInt8} {asc : AudioSpecificConfig}

/--
What the decoder returns for a type that has five bits.
-/
theorem getAudioInfoByAsc_value (p : Nat → UInt8) (dataSize : Nat) (info : AudioInfo)
    {field : Nat} (hfield : read2Bytes (ParameterSets.readAt p 0 2) = field) (htype : field / 2 ^ 11 ≠ 31)
    : (getAudioInfoByAsc p 0 dataSize info).value
        = if field / 2 ^ 7 % 2 ^ 4 = 0x0f then
            ⟨field / 2 ^ 11, field % 2 ^ 7 * 2 ^ 17 + read2Bytes (ParameterSets.readAt p 1 2) / 2 % 2 ^ 7,
              info.channel⟩
          else ⟨field / 2 ^ 11, MpegTs.mpeg4AudioSampleRates.getD (field / 2 ^ 7 % 2 ^ 4) 0, field / 2 ^ 3 % 2 ^ 4⟩ := by
  unfold getAudioInfoByAsc
  simp only [value_bind, hfield]
  rw [if_neg htype]
  split
  . rfl
  . rfl

theorem read2Bytes_readAt (p : Nat → UInt8) (offset : Nat)
    : read2Bytes (ParameterSets.readAt p offset 2) = (p offset).toNat * 2 ^ 8 + (p (offset + 1)).toNat := rfl

theorem getAudioInfoByAsc_index (hmem : HoldsAt p 0 asc.bytes) (info : AudioInfo) {i : Nat}
    (hrate : asc.rate = .index i)
    : (getAudioInfoByAsc p 0 asc.bytes.length info).Passes (TagCheck.Holds asc.bytes.length)
        ∧ (getAudioInfoByAsc p 0 asc.bytes.length info).value = asc.info := by
  have htype := asc.objectType_lt
  have hchannel := asc.channel_lt
  have hspare := asc.spare_lt
  have hindex : i < 15 := by
    have := asc.rate_valid
    rwa [hrate] at this
  have hbytes : asc.bytes
      = write2Bytes (asc.objectType * 2 ^ 11 + i * 2 ^ 7 + asc.channel * 2 ^ 3 + asc.spare) ++ asc.rest := by
    rw [AudioSpecificConfig.bytes, hrate]
  have hinfo : asc.info = ⟨asc.objectType, MpegTs.mpeg4AudioSampleRates.getD i 0, asc.channel⟩ := by
    rw [AudioSpecificConfig.info, hrate]
    rfl
  generalize hfield : asc.objectType * 2 ^ 11 + i * 2 ^ 7 + asc.channel * 2 ^ 3 + asc.spare = field at hbytes
  have hread : read2Bytes (ParameterSets.readAt p 0 2) = field := by
    have hwrite : ParameterSets.readAt p 0 2 = write2Bytes field := bytesAt_append (hbytes ▸ hmem) rfl
    rw [hwrite, read2Bytes_write2Bytes_of_lt (by omega)]
  have hlen : 2 ≤ asc.bytes.length := by
    rw [hbytes, List.length_append, length_write2Bytes]
    omega
  constructor
  . rw [getAudioInfoByAsc_passes _ _ _ _ hread]
    refine ⟨hlen, by omega, ?_, ?_⟩
    . intro hextended
      omega
    . intro _ hexplicit
      omega
  . have htypeField : field / 2 ^ 11 = asc.objectType := by omega
    have hindexField : field / 2 ^ 7 % 2 ^ 4 = i := by omega
    have hchannelField : field / 2 ^ 3 % 2 ^ 4 = asc.channel := by omega
    rw [getAudioInfoByAsc_value p _ info hread (by omega), htypeField, hindexField, hchannelField, if_neg (by omega),
      hinfo]

/--
Of a number, the upper 7 bits are returned and 7 more bits, 10 positions too low.
-/
theorem getAudioInfoByAsc_explicit (hmem : HoldsAt p 0 asc.bytes) (info : AudioInfo) {rate : Nat}
    (hrate : asc.rate = .explicit rate)
    : (getAudioInfoByAsc p 0 asc.bytes.length info).Passes (TagCheck.Holds asc.bytes.length)
        ∧ (getAudioInfoByAsc p 0 asc.bytes.length info).value
          = ⟨asc.objectType, rate / 2 ^ 17 * 2 ^ 17 + rate / 2 ^ 10 % 2 ^ 7, info.channel⟩ := by
  have htype := asc.objectType_lt
  have hchannel := asc.channel_lt
  have hspare := asc.spare_lt
  have hlt : rate < 2 ^ 24 := by
    have := asc.rate_valid
    rwa [hrate] at this
  obtain ⟨bits, hbits⟩
      : ∃ bits, bits = asc.objectType * 2 ^ 35 + 15 * 2 ^ 31 + rate * 2 ^ 7 + asc.channel * 2 ^ 3 + asc.spare :=
    ⟨_, rfl⟩
  have hbytes : asc.bytes = byteAt bits 4 :: write4Bytes bits ++ asc.rest := by
    rw [AudioSpecificConfig.bytes, hrate, hbits]
  have hlen : 5 ≤ asc.bytes.length := by
    rw [hbytes, List.length_append, List.length_cons, length_write4Bytes]
    omega
  have hbyte (i : Nat) (hi : i < asc.bytes.length)
      : p i = (byteAt bits 4 :: write4Bytes bits ++ asc.rest).getD i 0 := by
    rw [← hbytes, ← hmem.getD hi, Nat.zero_add]
  have hfirst : p 0 = byteAt bits 4 := hbyte 0 (by omega)
  have hsecond : p 1 = byteAt bits 3 := hbyte 1 (by omega)
  have hthird : p 2 = byteAt bits 2 := hbyte 2 (by omega)
  have hread : read2Bytes (ParameterSets.readAt p 0 2) = bits / 2 ^ 24 := by
    rw [read2Bytes_readAt, hfirst, hsecond, byteAt_toNat, byteAt_toNat]
    omega
  have hlast : read2Bytes (ParameterSets.readAt p 1 2) = bits / 2 ^ 16 % 2 ^ 16 := by
    rw [read2Bytes_readAt, hsecond, hthird, byteAt_toNat, byteAt_toNat]
    omega
  constructor
  . rw [getAudioInfoByAsc_passes _ _ _ _ hread]
    refine ⟨by omega, by omega, ?_, ?_⟩
    . intro hextended
      omega
    . intro _ _
      omega
  . have htypeField : bits / 2 ^ 24 / 2 ^ 11 = asc.objectType := by omega
    have hindexField : bits / 2 ^ 24 / 2 ^ 7 % 2 ^ 4 = 0x0f := by omega
    have hupper : bits / 2 ^ 24 % 2 ^ 7 = rate / 2 ^ 17 := by omega
    have hlower : bits / 2 ^ 16 % 2 ^ 16 / 2 % 2 ^ 7 = rate / 2 ^ 10 % 2 ^ 7 := by omega
    rw [getAudioInfoByAsc_value p _ info hread (by omega), htypeField, hindexField, hlast, hupper, hlower, if_pos rfl]

theorem getAudioInfoByAsc_decoded (hmem : HoldsAt p 0 asc.bytes) (info : AudioInfo)
    : (getAudioInfoByAsc p 0 asc.bytes.length info).Passes (TagCheck.Holds asc.bytes.length)
        ∧ ((getAudioInfoByAsc p 0 asc.bytes.length info).value = asc.info ↔ asc.Decoded info) := by
  unfold AudioSpecificConfig.Decoded
  cases hrate : asc.rate with
  | index i =>
    rcases getAudioInfoByAsc_index hmem info hrate with ⟨hpasses, hvalue⟩
    exact ⟨hpasses, iff_of_true hvalue trivial⟩
  | explicit rate =>
    rcases getAudioInfoByAsc_explicit hmem info hrate with ⟨hpasses, hvalue⟩
    have hlt : rate < 2 ^ 24 := by
      have := asc.rate_valid
      rwa [hrate] at this
    have hdiv : rate / 2 ^ 10 / 2 ^ 7 = rate / 2 ^ 17 := Nat.div_div_eq_div_mul rate _ _
    refine ⟨hpasses, ?_⟩
    have hinfo : asc.info = ⟨asc.objectType, rate, asc.channel⟩ := by
      rw [AudioSpecificConfig.info, hrate]
      rfl
    rw [hvalue, hinfo, AudioInfo.mk.injEq]
    constructor
    . rintro ⟨-, hsame, hchannel⟩
      exact ⟨by omega, hchannel⟩
    . rintro ⟨hzero, hchannel⟩
      exact ⟨rfl, by omega, hchannel⟩

end Decode

section Agreement

variable {p : Nat → UInt8}

theorem getAudioInfo2ByAsc_value (p : Nat → UInt8)
    : (getAudioInfo2ByAsc p 0).value
        = if typeAt p = 31 then none
          else some ⟨typeAt p, MpegTs.mpeg4AudioSampleRates.getD
            (if HasExtension p then extensionIndexAt p else indexAt p) 0, (p 1).toNat / 2 ^ 3 % 2 ^ 4⟩ := by
  have hbyte := (p 0).toNat_lt
  have hbyte' := (p 1).toNat_lt
  have htype : (p 0).toNat / 2 ^ 3 % 2 ^ 5 = typeAt p := by
    unfold typeAt
    omega
  have hextension : (p 1).toNat * 2 % 2 ^ 4 + (p 2).toNat / 2 ^ 7 = extensionIndexAt p := by
    unfold extensionIndexAt
    omega
  have hindex : ¬16 * 4 < (p 0).toNat % 2 ^ 3 * 2 + (p 1).toNat / 2 ^ 7 := by omega
  unfold getAudioInfo2ByAsc
  rw [value_bind]
  simp only [Nat.zero_add]
  rw [htype, hextension]
  by_cases hreserved : typeAt p = 31
  . rw [if_pos hreserved, if_pos hreserved]
    rfl
  . rw [if_neg hreserved, if_neg hreserved, value_bind, if_neg hindex]
    by_cases hhas : HasExtension p
    . have htypes : typeAt p = 5 ∨ typeAt p = 29 := hhas
      rw [if_pos htypes, if_pos hhas]
      rfl
    . have htypes : ¬(typeAt p = 5 ∨ typeAt p = 29) := hhas
      rw [if_neg htypes, if_neg hhas]
      rfl

theorem sampleRates_le (i : Nat) : MpegTs.mpeg4AudioSampleRates.getD i 0 ≤ 96000 := by
  by_cases hlen : i < MpegTs.mpeg4AudioSampleRates.length
  . have hall : ∀ rate ∈ MpegTs.mpeg4AudioSampleRates, rate ≤ 96000 := by decide
    apply hall
    rw [← List.getElem_eq_getD 0]
    exact List.getElem_mem hlen
  . rw [List.getD_eq_getElem?_getD, List.getElem?_eq_none (by omega)]
    exact Nat.zero_le _

/--
The numbers that the first decoder returns are those of the second one only if they are 0.
-/
theorem explicit_rate_eq (p : Nat → UInt8)
    : MpegTs.mpeg4AudioSampleRates.getD (if HasExtension p then extensionIndexAt p else 15) 0
          = (p 1).toNat % 2 ^ 7 * 2 ^ 17 + (p 2).toNat / 2
        ↔ ¬HasExtension p ∧ (p 1).toNat % 2 ^ 7 = 0 ∧ (p 2).toNat < 2 := by
  have hlow := (p 2).toNat_lt
  by_cases hhas : HasExtension p
  . rw [if_pos hhas]
    apply iff_of_false
    . intro h
      have hle := sampleRates_le (extensionIndexAt p)
      have hzero : (p 1).toNat % 2 ^ 7 = 0 := by omega
      have hindex : extensionIndexAt p = 0 ∨ extensionIndexAt p = 1 := by
        unfold extensionIndexAt
        omega
      -- the first two rates of the table are too large
      rcases hindex with hindex | hindex
      . rw [hindex] at h
        change 96000 = _ at h
        omega
      . rw [hindex] at h
        change 88200 = _ at h
        omega
    . exact fun h => h.left hhas
  . rw [if_neg hhas]
    change 0 = _ ↔ _
    simp only [hhas, not_false_eq_true, true_and]
    omega

theorem getAudioInfoByAsc_agree (dataSize : Nat) (info info' : AudioInfo)
    (h : (getAudioInfo2ByAsc p 0).value = some info')
    : (getAudioInfoByAsc p 0 dataSize info).value = info' ↔ Agree p info := by
  have hfirst := (p 0).toNat_lt
  have hsecond := (p 1).toNat_lt
  have hthird := (p 2).toNat_lt
  have hfield : read2Bytes (ParameterSets.readAt p 0 2) = (p 0).toNat * 2 ^ 8 + (p 1).toNat := read2Bytes_readAt p 0
  have hlast : read2Bytes (ParameterSets.readAt p 1 2) / 2 % 2 ^ 7 = (p 2).toNat / 2 := by
    rw [read2Bytes_readAt]
    change ((p 1).toNat * 2 ^ 8 + (p 2).toNat) / 2 % 2 ^ 7 = _
    omega
  have htype : ((p 0).toNat * 2 ^ 8 + (p 1).toNat) / 2 ^ 11 = typeAt p := by
    unfold typeAt
    omega
  have hindex : ((p 0).toNat * 2 ^ 8 + (p 1).toNat) / 2 ^ 7 % 2 ^ 4 = indexAt p := by
    unfold indexAt
    omega
  have hupper : ((p 0).toNat * 2 ^ 8 + (p 1).toNat) % 2 ^ 7 = (p 1).toNat % 2 ^ 7 := by omega
  have hchannel : ((p 0).toNat * 2 ^ 8 + (p 1).toNat) / 2 ^ 3 % 2 ^ 4 = (p 1).toNat / 2 ^ 3 % 2 ^ 4 := by omega
  rw [getAudioInfo2ByAsc_value] at h
  split at h
  . cases h
  . next hne =>
    cases h
    rw [getAudioInfoByAsc_value p _ info hfield (by omega), htype, hindex, hupper, hlast, hchannel]
    unfold Agree
    by_cases hexplicit : indexAt p = 15
    . have hrate := explicit_rate_eq p
      rw [hexplicit, if_pos rfl]
      simp only [AudioInfo.mk.injEq, ne_eq, not_true_eq_false, false_and, false_or, true_and]
      rw [eq_comm, hrate]
      constructor
      . rintro ⟨⟨hhas, hzero, hsmall⟩, hchannels⟩
        exact ⟨hhas, hzero, hsmall, by omega⟩
      . rintro ⟨hhas, hzero, hsmall, hchannels⟩
        exact ⟨⟨hhas, hzero, hsmall⟩, by omega⟩
    . rw [if_neg hexplicit]
      simp only [AudioInfo.mk.injEq, ne_eq, hexplicit, not_false_eq_true, true_and, and_true, false_and, or_false]
      by_cases hhas : HasExtension p
      . simp only [hhas, if_true, true_implies]
        exact eq_comm
      . simp only [hhas, if_false, false_implies]

end Agreement

/--
Where the first decoder returns what is encoded, and where it returns the same as the second one.
-/
theorem getAudioInfo_decoders (p : Nat → UInt8) (info info' : AudioInfo)
    : (∀ asc : AudioSpecificConfig, HoldsAt p 0 asc.bytes →
          (getAudioInfoByAsc p 0 asc.bytes.length info).Passes (TagCheck.Holds asc.bytes.length)
            ∧ ((getAudioInfoByAsc p 0 asc.bytes.length info).value = asc.info ↔ asc.Decoded info))
        ∧ ∀ dataSize, 2 ≤ dataSize → (getAudioInfo2ByAsc p 0).value = some info' →
          ((getAudioInfoByAsc p 0 dataSize info).value = info' ↔ Agree p info) := by
  constructor
  . exact fun asc hmem => getAudioInfoByAsc_decoded hmem info
  . exact fun dataSize _ h => getAudioInfoByAsc_agree dataSize info info' h

/--
AAC LC with two channels at 44100 Hz, by index and by number.
-/
def sampleAsc (rate : SamplingRate) (h : rate.Valid) : AudioSpecificConfig where
  objectType := 2
  rate
  channel := 2
  spare := 0
  rest := []
  objectType_lt := Nat.lt_of_sub_eq_succ rfl
  rate_valid := h
  channel_lt := Nat.lt_of_sub_eq_succ rfl
  spare_lt := Nat.two_pow_pos 3

theorem index4_valid : (SamplingRate.index 4).Valid := Nat.lt_of_sub_eq_succ rfl

theorem explicit44100_valid : (SamplingRate.explicit 44100).Valid := Nat.lt_of_sub_eq_succ rfl

theorem getAudioInfo_decoders_index
    : (getAudioInfoByAsc ((sampleAsc (.index 4) index4_valid).bytes.getD · 0) 0
          (sampleAsc (.index 4) index4_valid).bytes.length {}).value
        = (sampleAsc (.index 4) index4_valid).info :=
  (((getAudioInfo_decoders _ {} {}).left _ (holdsAt_getD _ _)).right).mpr trivial

theorem getAudioInfo_decoders_explicit
    : (getAudioInfoByAsc ((sampleAsc (.explicit 44100) explicit44100_valid).bytes.getD · 0) 0
          (sampleAsc (.explicit 44100) explicit44100_valid).bytes.length {}).value
        ≠ (sampleAsc (.explicit 44100) explicit44100_valid).info := by
  rw [(getAudioInfoByAsc_explicit (holdsAt_getD _ _) {} rfl).right]
  intro h
  exact absurd (congrArg AudioInfo.sampleRate h) (by decide)

end Asc
