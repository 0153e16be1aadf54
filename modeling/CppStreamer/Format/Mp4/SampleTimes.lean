import CppStreamer.Format.Mp4.SampleItems
import Mathlib.Data.List.Find

/-!
This module contains the times of samples as the tables of a track have them, and the samples for which the items have
these times.
-/

namespace Mp4

section DecodeTimes

/--
The delta of each sample.
-/
def TrakInfo.deltas (trakinfo : TrakInfo) : List Nat :=
  RunLength.expand (trakinfo.sampleEntries.map fun entry => (entry.sampleCount.toNat, entry.samplesDelta.toNat))

/--
The sum of the deltas of the samples in front of a sample.
-/
def decodeTime (trakinfo : TrakInfo) (n : Nat) : Nat := (trakinfo.deltas.take (n - 1)).sum

/--
The sum of as many deltas, from that of the second sample on.
-/
def shiftedTime (trakinfo : TrakInfo) (n : Nat) : Nat := (trakinfo.deltas.tail.take (n - 1)).sum

/--
The item of a sample is stored with the decode time of the sample in microseconds.
-/
def StoresDecodeTime (trakinfo : TrakInfo) (sampleItems : List (Int × MovItem)) (n : Nat) : Prop :=
  ∃ item, sampleItem trakinfo n = some item ∧ (item.dts, item) ∈ sampleItems
    ∧ item.dts = (decodeTime trakinfo n * 1000000 / trakinfo.timescale.toNat : Nat)

/--
The delta of a sample is that of the first one, or they differ by less than what the division leaves off. The products
fit into 64 bits.
-/
def KeepsStep (trakinfo : TrakInfo) (n : Nat) : Prop :=
  shiftedTime trakinfo n * 1000000 < 2 ^ 63
    ∧ (trakinfo.deltas[n - 1]? = trakinfo.deltas[0]?
      ∨ (1000000 < trakinfo.timescale
        ∧ shiftedTime trakinfo n * 1000000 / trakinfo.timescale.toNat
          = decodeTime trakinfo n * 1000000 / trakinfo.timescale.toNat))

instance {trakinfo : TrakInfo} {n : Nat} : Decidable (KeepsStep trakinfo n) :=
  inferInstanceAs (Decidable (_ ∧ (_ ∨ _ ∧ _)))

variable {trakinfo : TrakInfo} {n : Nat}

theorem durationFrom_eq {entries : List SampleEntry} {start index : Nat} (hle : start ≤ index) (hindex : index < 2 ^ 32)
    (htotal : start + (RunLength.expand (entries.map fun entry : SampleEntry =>
      (entry.sampleCount.toNat, entry.samplesDelta.toNat))).length < 2 ^ 32)
    : durationFrom (UInt32.ofNat index) (UInt32.ofNat start) entries
      = ((RunLength.expand (entries.map fun entry : SampleEntry =>
        (entry.sampleCount.toNat, entry.samplesDelta.toNat)))[index - start]?.getD 0 : Nat) := by
  induction entries generalizing start with
  | nil => rfl
  | cons entry entries ih =>
    rw [List.map_cons, RunLength.length_expand_cons] at htotal
    have hnext : UInt32.ofNat start + entry.sampleCount = UInt32.ofNat (start + entry.sampleCount.toNat) := by
      rw [UInt32.ofNat_add, UInt32.ofNat_toNat]
    have hcond : (UInt32.ofNat start ≤ UInt32.ofNat index
        ∧ UInt32.ofNat index < UInt32.ofNat (start + entry.sampleCount.toNat))
        ↔ index - start < entry.sampleCount.toNat := by
      rw [UInt32.le_iff_toNat_le, UInt32.lt_iff_toNat_lt, UInt32.toNat_ofNat', UInt32.toNat_ofNat', UInt32.toNat_ofNat',
        Nat.mod_eq_of_lt hindex, Nat.mod_eq_of_lt (by omega), Nat.mod_eq_of_lt (by omega)]
      omega
    rw [durationFrom]
    simp only [hnext]
    rw [List.map_cons]
    by_cases hlt : index - start < entry.sampleCount.toNat
    . rw [if_pos (hcond.mpr hlt), RunLength.getElem?_expand_lt hlt, Option.getD_some]
    . have hge := Nat.le_of_not_lt hlt
      have hsub : index - start - entry.sampleCount.toNat = index - (start + entry.sampleCount.toNat) := by
        omega
      rw [if_neg (fun h => hlt (hcond.mp h)), RunLength.getElem?_expand_ge hge, hsub]
      exact ih (by omega) (by omega)

theorem getDurationBySampleIndex_eq {index : Nat} (hindex : index < 2 ^ 32) (htotal : trakinfo.deltas.length < 2 ^ 32)
    : getDurationBySampleIndex (UInt32.ofNat index) trakinfo = (trakinfo.deltas[index]?.getD 0 : Nat) :=
  durationFrom_eq (Nat.zero_le _) hindex (by rwa [Nat.zero_add])

theorem sum_take_succ (l : List Nat) (n : Nat) : (l.take (n + 1)).sum = (l.take n).sum + l[n]?.getD 0 := by
  have hopt : ∀ o : Option Nat, o.toList.sum = o.getD 0 := by
    rintro (_ | _)
    all_goals rfl
  rw [List.take_add_one, List.sum_append, hopt]

theorem shiftedTime_succ (n : Nat)
    : shiftedTime trakinfo (n + 2) = shiftedTime trakinfo (n + 1) + trakinfo.deltas[n + 1]?.getD 0 := by
  rw [← List.getElem?_tail]
  exact sum_take_succ _ n

theorem decodeTime_succ (n : Nat)
    : decodeTime trakinfo (n + 2) = decodeTime trakinfo (n + 1) + trakinfo.deltas[n]?.getD 0 :=
  sum_take_succ _ n

/--
The time that the loops come to is that of the next deltas.
-/
theorem rawDts_eq {index : Nat} (hindex : index < 2 ^ 32) (htotal : trakinfo.deltas.length < 2 ^ 32)
    : rawDts trakinfo index = int64 (shiftedTime trakinfo (index + 1)) := by
  induction index with
  | zero =>
    rw [rawDts, shiftedTime, Nat.add_sub_cancel, List.take_zero]
    exact Int.zero_bmod.symm
  | succ index ih =>
    rw [rawDts, ih (by omega), getDurationBySampleIndex_eq hindex htotal, shiftedTime_succ, Nat.cast_add]
    exact Int.bmod_add_bmod

/--
The items are ahead by the delta of their sample and behind by that of the first one.
-/
theorem shiftedTime_add (n : Nat)
    : shiftedTime trakinfo (n + 1) + trakinfo.deltas[0]?.getD 0
      = decodeTime trakinfo (n + 1) + trakinfo.deltas[n]?.getD 0 := by
  induction n with
  | zero => rfl
  | succ n ih =>
    rw [shiftedTime_succ, decodeTime_succ, ← ih]
    omega

theorem delta_lt (n : Nat) : trakinfo.deltas[n]?.getD 0 < 2 ^ 32 := by
  have hall : ∀ delta ∈ trakinfo.deltas, delta < 2 ^ 32 := by
    intro delta hdelta
    obtain ⟨run, hrun, hdelta⟩ := List.mem_flatMap.mp hdelta
    obtain ⟨entry, _, rfl⟩ := List.mem_map.mp hrun
    rw [(List.mem_replicate.mp hdelta).right]
    exact entry.samplesDelta.toNat_lt
  cases hdelta : trakinfo.deltas[n]? with
  | none => exact Nat.two_pow_pos 32
  | some delta => exact hall delta (List.mem_of_getElem? hdelta)

/--
Times are told apart by their microseconds where the timescale is not finer than these.
-/
theorem div_timescale_inj {x y timescale : Nat} (hpos : 0 < timescale) (hle : timescale ≤ 1000000)
    (h : x * 1000000 / timescale = y * 1000000 / timescale) : x = y := by
  have hlt : ∀ {x y : Nat}, x * 1000000 / timescale = y * 1000000 / timescale → ¬x < y := by
    intro x y h hlt
    have hstep : x * 1000000 + timescale ≤ y * 1000000 := by
      omega
    have hdiv := Nat.div_le_div_right (c := timescale) hstep
    rw [Nat.add_div_right _ hpos] at hdiv
    omega
  have hxy := hlt h
  have hyx := hlt h.symm
  omega

/--
Where a product does not fit into 64 bits, its quotient is that of no product close to it.
-/
theorem tdiv_int64_ne {x y timescale : Nat} (hpos : 0 < timescale) (hlt : timescale < 2 ^ 32) (hge : 2 ^ 63 ≤ x)
    (hclose : x ≤ y + 2 ^ 32 * 1000000) : (int64 x).tdiv timescale ≠ (y / timescale : Nat) := by
  have hle : int64 x ≤ x - 2 ^ 64 := by
    have hdef := Int.bmod_def (x : Int) (2 ^ 64)
    rw [int64]
    omega
  have hstep : int64 x + timescale ≤ y := by
    omega
  by_cases hneg : int64 x < 0
  . have hcast : (0 : Int) < timescale := by
      omega
    have hquotient := Int.tdiv_le_tdiv hcast hneg.le
    have hone : 1 ≤ y / timescale := (Nat.one_le_div_iff hpos).mpr (by omega)
    rw [Int.zero_tdiv] at hquotient
    omega
  . obtain ⟨z, hz⟩ := Int.eq_ofNat_of_zero_le (Int.not_lt.mp hneg)
    rw [hz] at hstep ⊢
    have hdiv := Nat.div_le_div_right (c := timescale) (show z + timescale ≤ y by omega)
    rw [Nat.add_div_right _ hpos] at hdiv
    rw [← Int.ofNat_tdiv]
    omega

theorem scaled_rawDts {index : Nat} (hts : 0 < trakinfo.timescale) (hindex : index < 2 ^ 32)
    (htotal : trakinfo.deltas.length < 2 ^ 32)
    : scaled trakinfo (rawDts trakinfo index)
      = (int64 (shiftedTime trakinfo (index + 1) * 1000000 : Nat)).tdiv trakinfo.timescale.toNat := by
  rw [scaled, if_pos hts, rawDts_eq hindex htotal, Nat.cast_mul, Nat.cast_ofNat, int64, int64, int64,
    Int.bmod_mul_bmod]

/--
The time of a sample is right where the table keeps its step.
-/
theorem scaled_rawDts_iff (hts : 0 < trakinfo.timescale) (hpos : 1 ≤ n) (hn : n ≤ trakinfo.deltas.length)
    (htotal : trakinfo.deltas.length < 2 ^ 32)
    : scaled trakinfo (rawDts trakinfo (n - 1)) = (decodeTime trakinfo n * 1000000 / trakinfo.timescale.toNat : Nat)
      ↔ KeepsStep trakinfo n := by
  have htsPos : 0 < trakinfo.timescale.toNat := by
    rwa [UInt32.lt_iff_toNat_lt] at hts
  have hadd := @shiftedTime_add trakinfo (n - 1)
  have hfirst := @delta_lt trakinfo 0
  have hdelta := @delta_lt trakinfo (n - 1)
  rw [Nat.sub_add_cancel hpos] at hadd
  rw [scaled_rawDts hts (by omega) htotal, Nat.sub_add_cancel hpos, KeepsStep]
  by_cases hfits : shiftedTime trakinfo n * 1000000 < 2 ^ 63
  . have hint : int64 (shiftedTime trakinfo n * 1000000 : Nat) = (shiftedTime trakinfo n * 1000000 : Nat) := by
      apply Int.bmod_eq_of_le <;> omega
    have hsame : trakinfo.deltas[n - 1]? = trakinfo.deltas[0]? ↔ shiftedTime trakinfo n = decodeTime trakinfo n := by
      rw [List.getElem?_eq_getElem (by omega), List.getElem?_eq_getElem (by omega), Option.some.injEq]
      rw [List.getElem?_eq_getElem (by omega), List.getElem?_eq_getElem (by omega), Option.getD_some,
        Option.getD_some] at hadd
      omega
    rw [hint, ← Int.ofNat_tdiv, Nat.cast_inj, and_iff_right hfits, hsame]
    constructor
    . intro heq
      by_cases hfine : 1000000 < trakinfo.timescale
      . exact Or.inr ⟨hfine, heq⟩
      . have hcoarse : trakinfo.timescale.toNat ≤ 1000000 := by
          rw [UInt32.lt_iff_toNat_lt] at hfine
          exact Nat.le_of_not_lt hfine
        exact Or.inl (div_timescale_inj htsPos hcoarse heq)
    . rintro (heq | ⟨-, heq⟩)
      . rw [heq]
      . exact heq
  . apply iff_of_false
    . exact tdiv_int64_ne htsPos trakinfo.timescale.toNat_lt (Nat.le_of_not_lt hfits) (by omega)
    . exact fun h => hfits h.left

/--
Where every sample of the table has its item, an item is stored with the decode time exactly if the table keeps its step
at the sample.
-/
theorem storesDecodeTime_iff {around : Surroundings} {traksInfo : List TrakInfo} {headers : List MediaPacket}
    {sampleItems : List (Int × MovItem)} (hmake : makeMovItems around traksInfo = some (headers, sampleItems))
    (htrak : trakinfo ∈ traksInfo) (hts : 0 < trakinfo.timescale)
    (hall : ∀ n, 1 ≤ n → n ≤ trakinfo.deltas.length → (sampleItem trakinfo n).isSome)
    (hpos : 1 ≤ n) (hn : n ≤ trakinfo.deltas.length)
    : StoresDecodeTime trakinfo sampleItems n ↔ KeepsStep trakinfo n := by
  have htotal : trakinfo.deltas.length < 2 ^ 32 := by
    obtain ⟨last, hlast⟩ := Option.isSome_iff_exists.mp (hall _ (Nat.le_trans hpos hn) (Nat.le_refl _))
    exact Nat.lt_of_le_of_lt (sampleItem_eq (Nat.le_trans hpos hn) hlast).left trakinfo.sampleSizes_lt
  obtain ⟨item, hitem⟩ := Option.isSome_iff_exists.mp (hall n hpos hn)
  obtain ⟨-, avType, sampleOffset, sampleSize, -, hmovItem⟩ := sampleItem_eq hpos hitem
  have hdts : item.dts = scaled trakinfo (rawDts trakinfo (n - 1)) := by
    rw [hmovItem]
    rfl
  rw [← scaled_rawDts_iff hts hpos hn htotal, ← hdts]
  constructor
  . rintro ⟨item', hitem', -, h⟩
    rw [hitem] at hitem'
    cases hitem'
    exact h
  . exact fun h => ⟨item, hitem, mem_makeMovItems hmake htrak hitem, h⟩

section Samples

def sampleSizes : List UInt32 := [5, 6]

theorem length_sampleSizes : sampleSizes.length < 2 ^ 32 := by
  decide

/--
An audio track with two samples in a chunk, the deltas of its runs.
-/
def audioTrak (first second : UInt32) : TrakInfo where
  timescale := 1000
  handlerType := soun
  codecType := .aac
  sampleEntries := [⟨1, first⟩, ⟨1, second⟩]
  chunkSampleVec := [⟨1, 2, 1⟩]
  sampleSizesVec := sampleSizes
  chunkOffsetsVec := [100]
  sampleSizes_lt := length_sampleSizes

def itemsOf (trakinfo : TrakInfo) : List (Int × MovItem) :=
  ((makeMovItems zeroed [trakinfo]).map Prod.snd).getD []

example : (itemsOf (audioTrak 10 10)).map (fun item => (item.1, item.2.offset, item.2.len))
    = [(0, 100, 5), (10000, 105, 6)] := by decide

theorem storesDecodeTime_evenStep : StoresDecodeTime (audioTrak 10 10) (itemsOf (audioTrak 10 10)) 2 := by
  have hmake : makeMovItems zeroed [audioTrak 10 10]
      = some ([sendMediaPacket .audio .aac 0 0 false true []], itemsOf (audioTrak 10 10)) := rfl
  have hall : ∀ n, 1 ≤ n → n ≤ (audioTrak 10 10).deltas.length → (sampleItem (audioTrak 10 10) n).isSome
    | 1, _, _ => by decide
    | 2, _, _ => by decide
    | n + 3, _, h => absurd (show n + 3 ≤ 2 from h) (by omega)
  exact (storesDecodeTime_iff hmake List.mem_cons_self (by decide) hall (by decide) (by decide)).mpr (by decide)

/--
The second sample is 10 ms behind the first one, which its item has as 20 ms.
-/
theorem not_storesDecodeTime_unevenStep : (makeMovItems zeroed [audioTrak 10 20]).isSome
    ∧ ¬StoresDecodeTime (audioTrak 10 20) (itemsOf (audioTrak 10 20)) 2 := by
  refine ⟨by decide, ?_⟩
  rintro ⟨item, hitem, -, hdts⟩
  have hstored : (sampleItem (audioTrak 10 20) 2).map (·.dts) = some 20000 := by
    decide
  rw [hitem, Option.map_some, hdts] at hstored
  exact absurd hstored (by decide)

end Samples

end DecodeTimes

section CompositionTimes

def TrakInfo.offsetRuns (trakinfo : TrakInfo) : List (Nat × UInt32) :=
  trakinfo.sampleOffsetVec.map fun item => (item.sampleCounts.toNat, item.sampleOffsets)

/--
The offset of the run that a sample is in, 0 if there is none.
-/
def offsetOf (trakinfo : TrakInfo) (n : UInt32) : UInt32 :=
  (RunLength.expand trakinfo.offsetRuns)[n.toNat - 1]?.getD 0

/--
A sample is the last one of its run.
-/
def EndsRun (trakinfo : TrakInfo) (n : UInt32) : Prop := ∃ e ∈ RunLength.ends 0 trakinfo.offsetRuns, e.1 = n.toNat

/--
The offset of the first run that ends a multiple of 2 ^ 32 samples behind a sample, 0 if there is none.
-/
def laterOffset (trakinfo : TrakInfo) (n : UInt32) : UInt32 :=
  (((RunLength.ends 0 trakinfo.offsetRuns).find? fun e => n.toNat < e.1 ∧ UInt32.ofNat e.1 = n).map Prod.snd).getD 0

variable {trakinfo : TrakInfo} {n : UInt32}

theorem ctsFrom_eq (items : List SampleOffset) (start : Nat)
    : ctsFrom n (UInt32.ofNat start) items
      = (((RunLength.ends start (items.map fun item => (item.sampleCounts.toNat, item.sampleOffsets))).find? fun e =>
          UInt32.ofNat e.1 = n).map Prod.snd).getD 0 := by
  induction items generalizing start with
  | nil => rfl
  | cons item items ih =>
    have hcount : UInt32.ofNat start + item.sampleCounts = UInt32.ofNat (start + item.sampleCounts.toNat) := by
      rw [UInt32.ofNat_add, UInt32.ofNat_toNat]
    rw [ctsFrom, List.map_cons, RunLength.ends, List.find?_cons]
    simp only [hcount]
    by_cases hend : UInt32.ofNat (start + item.sampleCounts.toNat) = n
    . rw [if_pos hend, decide_eq_true hend]
      rfl
    . rw [if_neg hend, decide_eq_false hend]
      exact ih _

/--
The run that a sample is the last of is the first one found.
-/
theorem find?_ends {runs : List (Nat × UInt32)} {start : Nat} (hlt : start < n.toNat)
    (hends : ∃ e ∈ RunLength.ends start runs, e.1 = n.toNat)
    : ((RunLength.ends start runs).find? fun e => UInt32.ofNat e.1 = n).map Prod.snd
      = (RunLength.expand runs)[n.toNat - 1 - start]? := by
  induction runs generalizing start with
  | nil =>
    obtain ⟨e, he, -⟩ := hends
    cases he
  | cons run runs ih =>
    obtain ⟨e, he, hn⟩ := hends
    rw [RunLength.ends] at he ⊢
    rw [List.find?_cons]
    rcases Nat.lt_trichotomy (start + run.1) n.toNat with hbehind | hhere | hbeyond
    . have hne : UInt32.ofNat (start + run.1) ≠ n := by
        intro heq
        have hsize := n.toNat_lt
        rw [← heq, UInt32.toNat_ofNat', Nat.mod_eq_of_lt (by omega)] at hbehind
        exact Nat.lt_irrefl _ hbehind
      have hrest : e ∈ RunLength.ends (start + run.1) runs := by
        rcases List.mem_cons.mp he with rfl | he
        . exact absurd hn hbehind.ne
        . exact he
      have hsub : n.toNat - 1 - start - run.1 = n.toNat - 1 - (start + run.1) := by
        omega
      rw [decide_eq_false hne, RunLength.getElem?_expand_ge (by omega), hsub]
      exact ih hbehind ⟨e, hrest, hn⟩
    . have heq : UInt32.ofNat (start + run.1) = n := by
        rw [hhere, UInt32.ofNat_toNat]
      rw [decide_eq_true heq, RunLength.getElem?_expand_lt (by omega)]
      rfl
    . have hle : start + run.1 ≤ e.1 := by
        rcases List.mem_cons.mp he with rfl | he
        . exact Nat.le_refl _
        . exact RunLength.le_of_mem_ends he
      omega

theorem ctsFrom_of_endsRun (hpos : 1 ≤ n) (hends : EndsRun trakinfo n)
    : ctsFrom n 0 trakinfo.sampleOffsetVec = offsetOf trakinfo n := by
  have hfind := find?_ends (by rwa [UInt32.le_iff_toNat_le] at hpos) hends
  exact (ctsFrom_eq trakinfo.sampleOffsetVec 0).trans (congrArg (·.getD 0) hfind)

theorem ctsFrom_of_not_endsRun (hends : ¬EndsRun trakinfo n)
    : ctsFrom n 0 trakinfo.sampleOffsetVec = laterOffset trakinfo n := by
  have hsame : ∀ e ∈ RunLength.ends 0 trakinfo.offsetRuns,
      decide (UInt32.ofNat e.1 = n) = decide (n.toNat < e.1 ∧ UInt32.ofNat e.1 = n) := by
    intro e he
    apply decide_eq_decide.mpr
    refine ⟨fun heq => ⟨?_, heq⟩, And.right⟩
    have hne : e.1 ≠ n.toNat := fun h => hends ⟨e, he, h⟩
    rw [← heq, UInt32.toNat_ofNat'] at hne ⊢
    have hmod := Nat.mod_le e.1 (2 ^ 32)
    omega
  exact (ctsFrom_eq trakinfo.sampleOffsetVec 0).trans (congrArg (fun e => (e.map Prod.snd).getD 0) (List.find?_congr hsame))

/--
The offset of a sample is found exactly if the sample ends its run, or if the offset is the one found instead.
-/
theorem getPtsBySampleIndex_iff (trakinfo : TrakInfo) (dts : Int64) (hpos : 1 ≤ n)
    : getPtsBySampleIndex n dts.toInt trakinfo = dts.toInt + (offsetOf trakinfo n).toNat
      ↔ dts.toInt + (offsetOf trakinfo n).toNat < 2 ^ 63
        ∧ (EndsRun trakinfo n ∨ offsetOf trakinfo n = laterOffset trakinfo n) := by
  have hcts : ctsFrom n 0 trakinfo.sampleOffsetVec = offsetOf trakinfo n
      ↔ EndsRun trakinfo n ∨ offsetOf trakinfo n = laterOffset trakinfo n := by
    by_cases hends : EndsRun trakinfo n
    . exact iff_of_true (ctsFrom_of_endsRun hpos hends) (Or.inl hends)
    . rw [ctsFrom_of_not_endsRun hends, or_iff_right hends, eq_comm]
  rw [← hcts, getPtsBySampleIndex]
  generalize ctsFrom n 0 trakinfo.sampleOffsetVec = cts
  generalize offsetOf trakinfo n = offset
  have hlow := dts.le_toInt
  have hhigh := dts.toInt_lt
  have hctsLt := cts.toNat_lt
  have hoffsetLt := offset.toNat_lt
  rw [← UInt32.toNat_inj, int64, Int.bmod_def]
  split <;> omega

def composedTrak : TrakInfo := { audioTrak 10 10 with sampleOffsetVec := [⟨2, 5⟩] }

theorem getPtsBySampleIndex_endsRun : getPtsBySampleIndex 2 (10 : Int64).toInt composedTrak = 15 :=
  (getPtsBySampleIndex_iff composedTrak 10 (by decide)).mpr ⟨by decide, Or.inl ⟨(2, 5), by decide, by decide⟩⟩

/--
The first sample of a run of two is composed without the offset of the run.
-/
theorem getPtsBySampleIndex_withinRun : offsetOf composedTrak 1 = 5
    ∧ getPtsBySampleIndex 1 (0 : Int64).toInt composedTrak ≠ (0 : Int64).toInt + (offsetOf composedTrak 1).toNat := by
  decide

end CompositionTimes

end Mp4
