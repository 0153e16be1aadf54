import CppStreamer.Basic.Reading
import CppStreamer.Format.Flv.TagChecks

/-!
This module contains the record of AVC parameter sets between `get_video_extradata` and `GetSpsPpsFromExtraData`, and
the records that are read safely where the code reads one.
-/

open ByteStream Checked Reading ParameterSets

namespace AvcRecord

/--
The functions that read a record, each into two arrays.
-/
inductive CallSite where
  | flvDemux
  | mpegtsMux
  | rtmpPlay
  | mp4Demux
  deriving DecidableEq, Repr

/--
The arrays of `Mp4Demuxer` have four bytes in front for a start code.
-/
def CallSite.arraySize : CallSite → Nat
  | flvDemux | mpegtsMux | rtmpPlay => 512
  | mp4Demux => 2048 - 4

/--
The record of two parameter sets.
-/
def record (pps sps : List UInt8) : List UInt8 := (getVideoExtradata ⟨pps, pps.length⟩ ⟨sps, sps.length⟩).value

/--
Only the record is read, and no more is written than the arrays hold.
-/
structure SafeAt (site : CallSite) (mem : Nat → UInt8) (data : List UInt8) : Prop where
  reads : (Flv.checkSpsPps mem 0 data.length).Passes (Flv.TagCheck.Holds data.length)
  writes : ∀ pps sps : ParameterSet, pps.array.length = site.arraySize → sps.array.length = site.arraySize →
    (getSpsPpsFromExtraData mem data.length pps sps).Passes CopyCheck.Holds

def spsLen (data : List UInt8) : Nat := read2Bytes (data.drop 6)

def ppsLen (data : List UInt8) : Nat := read2Bytes (data.drop (9 + spsLen data))

/--
The record is empty, or it is refused for a marker byte that it has, or it has both parameter sets in it and none of
them is longer than the arrays.
-/
def RecordFits (site : CallSite) (data : List UInt8) : Prop :=
  data = [] ∨ (5 ≤ data.length ∧ data.getD 4 0 ≠ 0xff) ∨ (6 ≤ data.length ∧ data.getD 5 0 ≠ 0xe1)
    ∨ (11 + spsLen data + ppsLen data ≤ data.length ∧ spsLen data ≤ site.arraySize ∧ ppsLen data ≤ site.arraySize)

section RoundTrip

variable {mem : Nat → UInt8} {pps sps : List UInt8}

theorem record_eq (pps sps : List UInt8)
    : record pps sps = [0x01, sps.getD 1 0, sps.getD 2 0, sps.getD 3 0, 0xff, 0xe1]
        ++ (write2Bytes sps.length ++ (sps ++ ([0x01] ++ (write2Bytes pps.length ++ pps)))) := by
  unfold record getVideoExtradata
  simp only [value_bind, value_pure, Filling.put_value, Filling.memcpy_value, List.drop_zero, Int.toNat_natCast,
    List.take_length, List.append_assoc, List.nil_append]

theorem getSpsPpsFromExtraData_record (hmem : HoldsAt mem 0 (record pps sps)) (hsps : sps.length < 2 ^ 16)
    (hpps : pps.length < 2 ^ 16) (pps₀ sps₀ : ParameterSet)
    : (getSpsPpsFromExtraData mem (record pps sps).length pps₀ sps₀).value
        = some ((pps₀.copy pps).value, (sps₀.copy sps).value) := by
  have hlen : 4 < (record pps sps).length := by
    rw [record_eq, List.length_append, List.length_cons, List.length_cons, List.length_cons, List.length_cons,
      List.length_cons]
    omega
  rw [record_eq] at hmem
  have hmarker : mem 4 = 0xff ∧ mem 5 = 0xe1 := ⟨hmem 4 (by simp), hmem 5 (by simp)⟩
  have hspsLen : HoldsAt mem 6 (write2Bytes sps.length ++ (sps ++ ([0x01] ++ (write2Bytes pps.length ++ pps)))) :=
    hmem.right rfl
  have hspsAt : HoldsAt mem 8 (sps ++ ([0x01] ++ (write2Bytes pps.length ++ pps))) := hspsLen.right rfl
  have hppsLen : HoldsAt mem (8 + sps.length + 1) (write2Bytes pps.length ++ pps) := (hspsAt.right rfl).right rfl
  have hppsAt : HoldsAt mem (8 + sps.length + 1 + 2) pps := hppsLen.right rfl
  have hreadSps : read2Bytes (readAt mem 6 2) = sps.length := by
    have hread : readAt mem 6 2 = write2Bytes sps.length := bytesAt_append hspsLen rfl
    rw [hread, read2Bytes_write2Bytes_of_lt hsps]
  have hreadPps : read2Bytes (readAt mem (8 + sps.length + 1) 2) = pps.length := by
    have hread : readAt mem (8 + sps.length + 1) 2 = write2Bytes pps.length := bytesAt_append hppsLen rfl
    rw [hread, read2Bytes_write2Bytes_of_lt hpps]
  have hspsBytes : readAt mem 8 sps.length = sps := bytesAt_append hspsAt rfl
  have hppsBytes : readAt mem (8 + sps.length + 1 + 2) pps.length = pps := bytesAt_eq hppsAt
  unfold getSpsPpsFromExtraData
  rw [if_neg (by omega), if_neg (by rintro ⟨-, h | h⟩; exacts [h hmarker.left, h hmarker.right])]
  simp only [value_bind, value_pure, hreadSps, hspsBytes, hreadPps, hppsBytes]

end RoundTrip

section Safety

variable {mem : Nat → UInt8} {data : List UInt8}

theorem holds_of_holdsAt (h : HoldsAt mem 0 data) : Scan.Holds mem data.length data where
  length_le := Nat.le_refl _
  bytes i hi := by
    rw [Nat.sub_self]
    exact h i hi

/--
What is written, as the record that is inside says it.
-/
theorem avcFits_of_inside (hmem : HoldsAt mem 0 data) (size : Nat)
    (hinside : 11 + spsLen data + ppsLen data ≤ data.length)
    : AvcFits mem data.length size
        ↔ (mem 4 ≠ 0xff ∨ mem 5 ≠ 0xe1) ∨ (spsLen data ≤ size ∧ ppsLen data ≤ size) := by
  have hholds := holds_of_holdsAt hmem
  have hread (offset : Nat) (h : offset + 2 ≤ data.length)
      : read2Bytes (readAt mem offset 2) = read2Bytes (data.drop offset) := by
    have hread := Flv.read2Bytes_readAt hholds (Nat.zero_add _) h
    rwa [Nat.zero_add] at hread
  have hsps : read2Bytes (readAt mem 6 2) = spsLen data := hread 6 (by omega)
  have hpps : read2Bytes (readAt mem (8 + spsLen data + 1) 2) = ppsLen data := by
    rw [hread _ (by omega), ppsLen]
    congr 2
    omega
  have hzero : data.length ≠ 0 := by omega
  have hfour : 4 < data.length := by omega
  unfold AvcFits
  rw [hsps, hpps]
  simp only [hzero, hfour, false_or, true_and]

theorem safeAt_iff (hmem : HoldsAt mem 0 data) (site : CallSite) : SafeAt site mem data ↔ RecordFits site data := by
  have hholds := holds_of_holdsAt hmem
  have hreads := Flv.checkSpsPps_passes hholds (Nat.zero_add _)
  have hfourth (h : 4 < data.length) : mem 4 = data.getD 4 0 := by
    rw [← Flv.byte_eq hholds (Nat.zero_add _) h]
  have hfifth (h : 5 < data.length) : mem 5 = data.getD 5 0 := by
    rw [← Flv.byte_eq hholds (Nat.zero_add _) h]
  constructor
  . intro h
    have hwrites := h.writes (.empty site.arraySize 0) (.empty site.arraySize 0) List.length_replicate
      List.length_replicate
    rw [getSpsPpsFromExtraData_passes List.length_replicate List.length_replicate] at hwrites
    rcases hreads.mp h.reads with hempty | hmarker | hmarker | hinside
    . exact Or.inl hempty
    . exact Or.inr (Or.inl hmarker)
    . exact Or.inr (Or.inr (Or.inl hmarker))
    . change 11 + spsLen data + ppsLen data ≤ data.length at hinside
      rw [avcFits_of_inside hmem _ hinside, hfourth (by omega), hfifth (by omega)] at hwrites
      rcases hwrites with (hmarker | hmarker) | ⟨hsps, hpps⟩
      . exact Or.inr (Or.inl ⟨by omega, hmarker⟩)
      . exact Or.inr (Or.inr (Or.inl ⟨by omega, hmarker⟩))
      . exact Or.inr (Or.inr (Or.inr ⟨hinside, hsps, hpps⟩))
  . intro h
    constructor
    . rw [hreads]
      rcases h with hempty | hmarker | hmarker | ⟨hinside, -, -⟩
      . exact Or.inl hempty
      . exact Or.inr (Or.inl hmarker)
      . exact Or.inr (Or.inr (Or.inl hmarker))
      . exact Or.inr (Or.inr (Or.inr hinside))
    . intro pps sps hpps hsps
      rw [getSpsPpsFromExtraData_passes hpps hsps]
      rcases h with rfl | ⟨hlen, hmarker⟩ | ⟨hlen, hmarker⟩ | ⟨hinside, hfit⟩
      . exact Or.inl rfl
      . refine Or.inr (Or.inl ⟨hlen, Or.inl ?_⟩)
        rwa [hfourth hlen]
      . refine Or.inr (Or.inl ⟨by omega, Or.inr ?_⟩)
        rwa [hfifth hlen]
      . rw [avcFits_of_inside hmem _ hinside]
        exact Or.inr hfit

end Safety

end AvcRecord
