import CppStreamer.Basic.Traverse
import CppStreamer.Format.Mp4.MovItems

/-!
This module contains what the items of a track are: one for each sample in the order of the samples, with a time that
only depends on the number of the sample.
-/

namespace Mp4

/--
The time that the loops have come to in front of the sample at an index, counted from 0.
-/
def rawDts (trakinfo : TrakInfo) : Nat → Int
  | 0 => 0
  | index + 1 =>
    int64 (rawDts trakinfo index + getDurationBySampleIndex (UInt32.ofNat (index + 1)) trakinfo)

/--
The items of samples that lie one behind the other, the first of them at an index.
-/
def itemsFrom (trakinfo : TrakInfo) (avType : MediaPktType) (index sampleOffset : Nat) : List UInt32 → List MovItem
  | [] => []
  | sampleSize :: sampleSizes =>
    movItem trakinfo avType (UInt32.ofNat (index + 1)) sampleOffset sampleSize (rawDts trakinfo index)
      :: itemsFrom trakinfo avType (index + 1) (sampleOffset + sampleSize.toNat) sampleSizes

/--
The item of a sample. Samples are numbered from 1.
-/
def sampleItem (trakinfo : TrakInfo) (n : Nat) : Option MovItem := (trakItems trakinfo).bind (·[n - 1]?)

variable {trakinfo : TrakInfo} {avType : MediaPktType} {index left sampleOffset : Nat}

theorem length_itemsFrom (sampleSizes : List UInt32)
    : (itemsFrom trakinfo avType index sampleOffset sampleSizes).length = sampleSizes.length := by
  induction sampleSizes generalizing index sampleOffset with
  | nil => rfl
  | cons sampleSize sampleSizes ih => rw [itemsFrom, List.length_cons, List.length_cons, ih]

theorem getElem?_itemsFrom {sampleSizes : List UInt32} {j : Nat} {sampleSize : UInt32}
    (h : sampleSizes[j]? = some sampleSize)
    : ∃ sampleOffset', (itemsFrom trakinfo avType index sampleOffset sampleSizes)[j]?
        = some (movItem trakinfo avType (UInt32.ofNat (index + j + 1)) sampleOffset' sampleSize
          (rawDts trakinfo (index + j))) := by
  induction sampleSizes generalizing index sampleOffset j with
  | nil => cases h
  | cons size sampleSizes ih =>
    cases j with
    | zero =>
      cases h
      exact ⟨sampleOffset, rfl⟩
    | succ j =>
      obtain ⟨sampleOffset', hitem⟩ := @ih (index + 1) (sampleOffset + size.toNat) j h
      have hindex : index + 1 + j = index + (j + 1) := by
        omega
      rw [hindex] at hitem
      exact ⟨sampleOffset', hitem⟩

theorem getElem?_pred (h : index ≤ trakinfo.sampleSizesVec.length)
    : trakinfo.sampleSizesVec[(UInt32.ofNat (index + 1) - 1).toNat]? = trakinfo.sampleSizesVec[index]? := by
  have hlt := trakinfo.sampleSizes_lt
  have hpred : UInt32.ofNat (index + 1) - 1 = UInt32.ofNat index := by
    rw [UInt32.ofNat_add]
    exact UInt32.add_sub_cancel _ _
  rw [hpred, UInt32.toNat_ofNat', Nat.mod_eq_of_lt (Nat.lt_of_le_of_lt h hlt)]

theorem samplesInChunk_eq (h : index + left ≤ trakinfo.sampleSizesVec.length)
    : samplesInChunk trakinfo avType left (UInt32.ofNat (index + 1)) sampleOffset (rawDts trakinfo index)
      = some (itemsFrom trakinfo avType index sampleOffset ((trakinfo.sampleSizesVec.drop index).take left),
        rawDts trakinfo (index + left)) := by
  induction left generalizing index sampleOffset with
  | zero => rfl
  | succ left ih =>
    have hlt : index < trakinfo.sampleSizesVec.length := by
      omega
    have hnext := @ih (index + 1) (sampleOffset + trakinfo.sampleSizesVec[index].toNat) (by omega)
    have hleft : index + 1 + left = index + (left + 1) := by
      omega
    rw [hleft, rawDts, UInt32.ofNat_add (index + 1) 1] at hnext
    rw [samplesInChunk, getElem?_pred hlt.le, List.getElem?_eq_getElem hlt, List.drop_eq_getElem_cons hlt,
      List.take_succ_cons, itemsFrom]
    simp only [Option.bind_eq_bind, Option.bind_some]
    rw [show (1 : UInt32) = UInt32.ofNat 1 from rfl, hnext]
    rfl

theorem samplesInChunk_none (hindex : index ≤ trakinfo.sampleSizesVec.length)
    (h : trakinfo.sampleSizesVec.length < index + left)
    : samplesInChunk trakinfo avType left (UInt32.ofNat (index + 1)) sampleOffset (rawDts trakinfo index) = none := by
  induction left generalizing index sampleOffset with
  | zero => omega
  | succ left ih =>
    rw [samplesInChunk, getElem?_pred hindex]
    by_cases hlt : index < trakinfo.sampleSizesVec.length
    . have hnext := @ih (index + 1) (sampleOffset + trakinfo.sampleSizesVec[index].toNat) hlt (by omega)
      rw [rawDts, UInt32.ofNat_add (index + 1) 1] at hnext
      rw [List.getElem?_eq_getElem hlt]
      simp only [Option.bind_eq_bind, Option.bind_some]
      rw [show (1 : UInt32) = UInt32.ofNat 1 from rfl, hnext]
      rfl
    . rw [List.getElem?_eq_none (Nat.le_of_not_lt hlt)]
      rfl

/--
The loops have made one item for each sample up to where they have come.
-/
structure Progress.Made (trakinfo : TrakInfo) (avType : MediaPktType) (p : Progress) : Prop where
  length_le : p.items.length ≤ trakinfo.sampleSizesVec.length
  sampleIndex : p.sampleIndex = UInt32.ofNat (p.items.length + 1)
  dts : p.dts = rawDts trakinfo p.items.length
  items : ∀ index < p.items.length, ∃ sampleOffset sampleSize,
    p.items[index]? = some (movItem trakinfo avType (UInt32.ofNat (index + 1)) sampleOffset sampleSize
      (rawDts trakinfo index))

theorem Progress.made_start (trakinfo : TrakInfo) (avType : MediaPktType) : Progress.Made trakinfo avType {} where
  length_le := Nat.zero_le _
  sampleIndex := rfl
  dts := rfl
  items := fun _ h => absurd h (Nat.not_lt_zero _)

/--
What the loops come to for one chunk in one run of `stsc`.
-/
def Progress.next (trakinfo : TrakInfo) (avType : MediaPktType) (chunkOffset samples : UInt32) (p : Progress)
    : Progress where
  items := p.items ++ itemsFrom trakinfo avType p.items.length chunkOffset.toNat
    ((trakinfo.sampleSizesVec.drop p.items.length).take samples.toNat)
  sampleIndex := p.sampleIndex + samples
  dts := rawDts trakinfo (p.items.length + samples.toNat)

theorem Progress.Made.length_next {p : Progress} {chunkOffset samples : UInt32}
    (h : p.items.length + samples.toNat ≤ trakinfo.sampleSizesVec.length)
    : (p.next trakinfo avType chunkOffset samples).items.length = p.items.length + samples.toNat := by
  rw [next, List.length_append, length_itemsFrom, List.length_take, List.length_drop]
  omega

theorem Progress.Made.next {p : Progress} (hmade : p.Made trakinfo avType) {chunkOffset samples : UInt32}
    (h : p.items.length + samples.toNat ≤ trakinfo.sampleSizesVec.length)
    : (p.next trakinfo avType chunkOffset samples).Made trakinfo avType where
  length_le := by
    rw [length_next h]
    exact h
  sampleIndex := by
    have hsum : p.items.length + samples.toNat + 1 = p.items.length + 1 + samples.toNat := by
      omega
    rw [length_next h, hsum, UInt32.ofNat_add, UInt32.ofNat_toNat, ← hmade.sampleIndex]
    rfl
  dts := by
    rw [length_next h]
    rfl
  items := by
    intro index hindex
    rw [length_next h] at hindex
    by_cases hold : index < p.items.length
    . obtain ⟨sampleOffset, sampleSize, hitem⟩ := hmade.items index hold
      exact ⟨sampleOffset, sampleSize, (List.getElem?_append_left hold).trans hitem⟩
    . have hge := Nat.le_of_not_lt hold
      have hlt : index < trakinfo.sampleSizesVec.length := by omega
      have hsize : ((trakinfo.sampleSizesVec.drop p.items.length).take samples.toNat)[index - p.items.length]?
          = some trakinfo.sampleSizesVec[index] := by
        rw [List.getElem?_take_of_lt (by omega), List.getElem?_drop, Nat.add_sub_cancel' hge, List.getElem?_eq_getElem]
      obtain ⟨sampleOffset, hitem⟩ := @getElem?_itemsFrom trakinfo avType p.items.length chunkOffset.toNat _ _ _ hsize
      rw [Nat.add_sub_cancel' hge] at hitem
      exact ⟨sampleOffset, _, (List.getElem?_append_right hge).trans hitem⟩

theorem Progress.Made.getSampleInfoInChunk {p : Progress} (hmade : p.Made trakinfo avType)
    (hav : trakinfo.avType = some avType) (chunkOffset samples : UInt32)
    : (getSampleInfoInChunk chunkOffset samples p.sampleIndex p.dts trakinfo).map
        (fun made => Progress.mk (p.items ++ made.1) (p.sampleIndex + samples) made.2)
      = if p.items.length + samples.toNat ≤ trakinfo.sampleSizesVec.length then
          some (p.next trakinfo avType chunkOffset samples)
        else none := by
  rw [Mp4.getSampleInfoInChunk, hav, hmade.sampleIndex, hmade.dts]
  simp only
  split
  . next hle =>
    rw [samplesInChunk_eq hle, Progress.next, hmade.sampleIndex]
    rfl
  . next hle =>
    rw [samplesInChunk_none hmade.length_le (Nat.lt_of_not_le hle)]
    rfl

theorem Progress.Made.runsOfChunk_cons {p : Progress} (hmade : p.Made trakinfo avType)
    (hav : trakinfo.avType = some avType) (chunkIndex : Nat) (chunkOffset : UInt32) (run : ChunkSample)
    (runs : List ChunkSample)
    : runsOfChunk trakinfo chunkIndex chunkOffset (run :: runs) p
      = if found chunkIndex run runs then
          if p.items.length + run.samplesPerChunk.toNat ≤ trakinfo.sampleSizesVec.length then
            runsOfChunk trakinfo chunkIndex chunkOffset runs (p.next trakinfo avType chunkOffset run.samplesPerChunk)
          else none
        else runsOfChunk trakinfo chunkIndex chunkOffset runs p := by
  have hchunk := hmade.getSampleInfoInChunk hav chunkOffset run.samplesPerChunk
  rw [runsOfChunk]
  cases found chunkIndex run runs with
  | false => rfl
  | true =>
    simp only [if_true]
    cases hsamples : Mp4.getSampleInfoInChunk chunkOffset run.samplesPerChunk p.sampleIndex p.dts trakinfo with
    | none =>
      rw [hsamples, Option.map_none] at hchunk
      by_cases hle : p.items.length + run.samplesPerChunk.toNat ≤ trakinfo.sampleSizesVec.length
      . rw [if_pos hle] at hchunk
        cases hchunk
      . rw [if_neg hle]
        rfl
    | some made =>
      rw [hsamples, Option.map_some] at hchunk
      by_cases hle : p.items.length + run.samplesPerChunk.toNat ≤ trakinfo.sampleSizesVec.length
      . rw [if_pos hle] at hchunk ⊢
        rw [← Option.some.inj hchunk]
        rfl
      . rw [if_neg hle] at hchunk
        cases hchunk

theorem Progress.Made.runsOfChunk {p p' : Progress} (hav : trakinfo.avType = some avType) {chunkIndex : Nat}
    {chunkOffset : UInt32} {runs : List ChunkSample} (hmade : p.Made trakinfo avType)
    (h : runsOfChunk trakinfo chunkIndex chunkOffset runs p = some p') : p'.Made trakinfo avType := by
  induction runs generalizing p with
  | nil =>
    cases h
    exact hmade
  | cons run runs ih =>
    rw [hmade.runsOfChunk_cons hav] at h
    split at h
    . split at h
      . next hle => exact ih (hmade.next hle) h
      . cases h
    . exact ih hmade h

theorem Progress.Made.chunksFrom {p p' : Progress} (hav : trakinfo.avType = some avType) {chunkIndex : Nat}
    {chunkOffsets : List UInt32} (hmade : p.Made trakinfo avType)
    (h : chunksFrom trakinfo chunkIndex chunkOffsets p = some p') : p'.Made trakinfo avType := by
  induction chunkOffsets generalizing p chunkIndex with
  | nil =>
    cases h
    exact hmade
  | cons chunkOffset chunkOffsets ih =>
    rw [Mp4.chunksFrom] at h
    obtain ⟨next, hruns, hrest⟩ := Option.bind_eq_some_iff.mp h
    exact ih (hmade.runsOfChunk hav hruns) hrest

/--
A track that is not demuxed has no items.
-/
theorem runsOfChunk_other (hav : trakinfo.avType = none) (chunkIndex : Nat) (chunkOffset : UInt32)
    (runs : List ChunkSample) (p : Progress)
    : ∃ p', runsOfChunk trakinfo chunkIndex chunkOffset runs p = some p' ∧ p'.items = p.items := by
  induction runs generalizing p with
  | nil => exact ⟨p, rfl, rfl⟩
  | cons run runs ih =>
    rw [runsOfChunk]
    split
    . simp only [getSampleInfoInChunk, hav, Option.bind_eq_bind, Option.bind_some, List.append_nil]
      exact ih _
    . exact ih _

theorem chunksFrom_other (hav : trakinfo.avType = none) (chunkIndex : Nat) (chunkOffsets : List UInt32) (p : Progress)
    : ∃ p', chunksFrom trakinfo chunkIndex chunkOffsets p = some p' ∧ p'.items = p.items := by
  induction chunkOffsets generalizing p chunkIndex with
  | nil => exact ⟨p, rfl, rfl⟩
  | cons chunkOffset chunkOffsets ih =>
    obtain ⟨next, hruns, hitems⟩ := runsOfChunk_other hav chunkIndex chunkOffset trakinfo.chunkSampleVec p
    rw [chunksFrom, hruns, ← hitems]
    exact ih (chunkIndex + 1) next

theorem trakItems_other (hav : trakinfo.avType = none) : trakItems trakinfo = some [] := by
  obtain ⟨p, hchunks, hitems⟩ := chunksFrom_other hav 1 trakinfo.chunkOffsetsVec {}
  rw [trakItems, hchunks, Option.map_some, hitems]

/--
The item of a sample has the number, the size and the time of the sample.
-/
theorem sampleItem_eq {n : Nat} {item : MovItem} (hpos : 1 ≤ n) (h : sampleItem trakinfo n = some item)
    : n ≤ trakinfo.sampleSizesVec.length ∧ ∃ avType sampleOffset sampleSize, trakinfo.avType = some avType
      ∧ item = movItem trakinfo avType (UInt32.ofNat n) sampleOffset sampleSize (rawDts trakinfo (n - 1)) := by
  obtain ⟨items, hitems, hitem⟩ := Option.bind_eq_some_iff.mp h
  have hlt := (List.getElem?_eq_some_iff.mp hitem).choose
  cases hav : trakinfo.avType with
  | none =>
    rw [trakItems_other hav] at hitems
    cases hitems
    exact absurd hlt (Nat.not_lt_zero _)
  | some avType =>
    obtain ⟨p, hchunks, rfl⟩ := Option.map_eq_some_iff.mp hitems
    have hmade := (Progress.made_start trakinfo avType).chunksFrom hav hchunks
    have hle := hmade.length_le
    obtain ⟨sampleOffset, sampleSize, hmovItem⟩ := hmade.items _ hlt
    rw [hitem, Nat.sub_add_cancel hpos] at hmovItem
    exact ⟨by omega, avType, sampleOffset, sampleSize, rfl, Option.some.inj hmovItem⟩

section Made

variable {around : Surroundings} {traksInfo : List TrakInfo} {headers : List MediaPacket}
variable {sampleItems : List (Int × MovItem)}

theorem makeMovItems_eq_some_iff
    : makeMovItems around traksInfo = some (headers, sampleItems)
      ↔ (∃ sent, traksInfo.mapM (sequenceHeaders around) = some sent ∧ sent.flatten = headers)
        ∧ ∃ items, traksInfo.mapM trakItems = some items
          ∧ Multimap.ofList Prod.fst (items.flatten.map fun item => (item.dts, item)) = sampleItems := by
  rw [makeMovItems]
  constructor
  . intro hmake
    obtain ⟨sent, hsent, hmake⟩ := Option.bind_eq_some_iff.mp hmake
    obtain ⟨items, hitems, hmake⟩ := Option.bind_eq_some_iff.mp hmake
    cases hmake
    exact ⟨⟨sent, hsent, rfl⟩, items, hitems, rfl⟩
  . rintro ⟨⟨sent, hsent, rfl⟩, items, hitems, rfl⟩
    rw [hsent, hitems]
    rfl

/--
The item of a sample is in the map.
-/
theorem mem_makeMovItems (hmake : makeMovItems around traksInfo = some (headers, sampleItems))
    (htrak : trakinfo ∈ traksInfo) {n : Nat} {item : MovItem} (h : sampleItem trakinfo n = some item)
    : (item.dts, item) ∈ sampleItems := by
  obtain ⟨-, all, hall, rfl⟩ := makeMovItems_eq_some_iff.mp hmake
  obtain ⟨items, hitems, hitem⟩ := Option.bind_eq_some_iff.mp h
  have hmem : items ∈ all := Traverse.mem_of_mapM hall htrak hitems
  apply (Multimap.ofList_perm Prod.fst _).mem_iff.mpr
  apply List.mem_map_of_mem
  exact List.mem_flatten_of_mem hmem (List.mem_of_getElem? hitem)

/--
What is in the map is the item of a sample, with its time as the key.
-/
theorem of_mem_makeMovItems (hmake : makeMovItems around traksInfo = some (headers, sampleItems))
    {entry : Int × MovItem} (h : entry ∈ sampleItems)
    : entry.1 = entry.2.dts ∧ ∃ trakinfo ∈ traksInfo, ∃ n, 1 ≤ n ∧ sampleItem trakinfo n = some entry.2 := by
  obtain ⟨-, all, hall, rfl⟩ := makeMovItems_eq_some_iff.mp hmake
  obtain ⟨item, hitem, rfl⟩ := List.mem_map.mp ((Multimap.ofList_perm Prod.fst _).mem_iff.mp h)
  obtain ⟨items, hitems, hmem⟩ := List.mem_flatten.mp hitem
  obtain ⟨trakinfo, htrak, hmade⟩ := Traverse.of_mem hall hitems
  obtain ⟨index, hindex⟩ := List.mem_iff_getElem?.mp hmem
  refine ⟨rfl, trakinfo, htrak, index + 1, Nat.le_add_left 1 index, ?_⟩
  rw [sampleItem, hmade]
  exact hindex

theorem makeMovItems_sorted (hmake : makeMovItems around traksInfo = some (headers, sampleItems))
    : sampleItems.Pairwise fun a b => a.1 ≤ b.1 := by
  obtain ⟨-, items, -, rfl⟩ := makeMovItems_eq_some_iff.mp hmake
  exact Multimap.ofList_sorted Prod.fst _

end Made

end Mp4
