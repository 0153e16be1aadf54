import CppStreamer.Format.Mp4.SampleItems
import CppStreamer.Format.Mp4.SampleTables

/-!
This module contains where the tables of a track say that its samples are, and the movies whose items are there.
-/

open StringEx

namespace Mp4

/--
What says where the data of a sample is, and for which kind of packet.
-/
structure Location where
  avType : MediaPktType
  size : Nat
  offset : Nat
  deriving DecidableEq, Repr

def MovItem.location (item : MovItem) : Location := ⟨item.avType, item.len, item.offset⟩

/--
The samples of a chunk lie one behind the other.
-/
def samplesAt (avType : MediaPktType) (offset : Nat) : List UInt32 → List Location
  | [] => []
  | size :: sizes => ⟨avType, size.toNat, offset⟩ :: samplesAt avType (offset + size.toNat) sizes

/--
The samples of all chunks from one on, each chunk has as many of the sizes as `stsc` says.
-/
def locationsFrom (avType : MediaPktType) (runs : List ChunkSample) (chunk : Nat)
    : List UInt32 → List UInt32 → List Location
  | [], _ => []
  | chunkOffset :: chunkOffsets, sizes =>
    samplesAt avType chunkOffset.toNat (sizes.take (samplesOf runs chunk))
      ++ locationsFrom avType runs (chunk + 1) chunkOffsets (sizes.drop (samplesOf runs chunk))

theorem samplesFrom_succ (runs : List ChunkSample) (chunk chunks : Nat)
    : samplesFrom runs chunk (chunks + 1) = samplesOf runs chunk + samplesFrom runs (chunk + 1) chunks := by
  have hrest : (List.range chunks).map ((fun i => samplesOf runs (chunk + i)) ∘ Nat.succ)
      = (List.range chunks).map fun i => samplesOf runs (chunk + 1 + i) := by
    apply List.map_congr_left
    intro i _
    have hchunk : chunk + (i + 1) = chunk + 1 + i := by
      omega
    rw [Function.comp_apply, Nat.succ_eq_add_one, hchunk]
  rw [samplesFrom, List.range_succ_eq_map, List.map_cons, List.map_map, List.sum_cons, hrest, Nat.add_zero, samplesFrom]

section Walk

variable {trakinfo : TrakInfo} {avType : MediaPktType} {runs : List ChunkSample} {chunkIndex : Nat} {p : Progress}

theorem location_itemsFrom (index sampleOffset : Nat) (sizes : List UInt32)
    : (itemsFrom trakinfo avType index sampleOffset sizes).map MovItem.location = samplesAt avType sampleOffset sizes := by
  induction sizes generalizing index sampleOffset with
  | nil => rfl
  | cons size sizes ih =>
    rw [itemsFrom, List.map_cons, ih]
    rfl

theorem runOf_none (hbehind : ∀ run ∈ runs, chunkIndex < run.firstChunk.toNat) : runOf runs chunkIndex = none := by
  rw [runOf, List.filter_eq_nil_iff.mpr]
  . rfl
  . intro run hrun h
    exact absurd (hbehind run hrun) (Nat.not_lt_of_le (of_decide_eq_true h))

theorem behind_of_next {next : ChunkSample} (hincreasing : (next :: runs).Pairwise fun a b => a.firstChunk < b.firstChunk)
    (h : chunkIndex < next.firstChunk.toNat) : ∀ run ∈ next :: runs, chunkIndex < run.firstChunk.toNat := by
  intro run hrun
  rcases List.mem_cons.mp hrun with rfl | hrun
  . exact h
  . have hlt := (List.pairwise_cons.mp hincreasing).left run hrun
    rw [UInt32.lt_iff_toNat_lt] at hlt
    omega

theorem behind_of_found {run : ChunkSample} (hincreasing : runs.Pairwise fun a b => a.firstChunk < b.firstChunk)
    (hfound : found chunkIndex run runs = true) : ∀ other ∈ runs, chunkIndex < other.firstChunk.toNat := by
  cases runs with
  | nil => exact List.forall_mem_nil _
  | cons next runs => exact behind_of_next hincreasing (of_decide_eq_true hfound).right

/--
The run in front of others is that of a chunk exactly if it is found.
-/
theorem runOf_cons {run : ChunkSample} (hincreasing : runs.Pairwise fun a b => a.firstChunk < b.firstChunk)
    (hrun : ∀ other ∈ runs, run.firstChunk < other.firstChunk)
    : runOf (run :: runs) chunkIndex = if found chunkIndex run runs then some run else runOf runs chunkIndex := by
  by_cases hfound : found chunkIndex run runs = true
  . have hnil : runs.filter (fun run => run.firstChunk.toNat ≤ chunkIndex) = [] := by
      apply List.filter_eq_nil_iff.mpr
      intro other hother h
      exact absurd (behind_of_found hincreasing hfound other hother) (Nat.not_lt_of_le (of_decide_eq_true h))
    have hfirst : run.firstChunk.toNat ≤ chunkIndex := by
      cases runs with
      | nil => exact of_decide_eq_true hfound
      | cons next runs => exact (of_decide_eq_true hfound).left
    rw [if_pos hfound, runOf, List.filter_cons, hnil, if_pos (decide_eq_true hfirst)]
    rfl
  . rw [if_neg hfound, runOf, runOf, List.filter_cons]
    split
    . next hfirst =>
      cases runs with
      | nil => exact absurd hfirst hfound
      | cons next runs =>
        have hnext : next.firstChunk.toNat ≤ chunkIndex := by
          apply Nat.le_of_not_lt
          exact fun h => hfound (decide_eq_true ⟨of_decide_eq_true hfirst, h⟩)
        rw [List.filter_cons, if_pos (decide_eq_true hnext), List.getLast?_cons_cons]
    . rfl

/--
For one chunk the loop takes the samples of its run, as long as there are sizes for them.
-/
theorem runsOfChunk_eq (hav : trakinfo.avType = some avType) (chunkOffset : UInt32)
    (hincreasing : runs.Pairwise fun a b => a.firstChunk < b.firstChunk) (hmade : p.Made trakinfo avType)
    : runsOfChunk trakinfo chunkIndex chunkOffset runs p
      = match runOf runs chunkIndex with
        | none => some p
        | some run =>
          if p.items.length + run.samplesPerChunk.toNat ≤ trakinfo.sampleSizesVec.length then
            some (p.next trakinfo avType chunkOffset run.samplesPerChunk)
          else none := by
  induction runs generalizing p with
  | nil => rfl
  | cons run runs ih =>
    obtain ⟨hrun, hrest⟩ := List.pairwise_cons.mp hincreasing
    rw [hmade.runsOfChunk_cons hav, runOf_cons hrest hrun]
    by_cases hfound : found chunkIndex run runs = true
    . have hnone : runOf runs chunkIndex = none := runOf_none (behind_of_found hrest hfound)
      rw [if_pos hfound, if_pos hfound]
      simp only
      split
      . next hle =>
        rw [ih hrest (hmade.next hle), hnone]
      . rfl
    . rw [if_neg hfound, if_neg hfound]
      exact ih hrest hmade

/--
The loop over the chunks puts an item at each location, as long as there are sizes for all samples.
-/
theorem chunksFrom_locations (hav : trakinfo.avType = some avType)
    (hincreasing : trakinfo.chunkSampleVec.Pairwise fun a b => a.firstChunk < b.firstChunk)
    (hmade : p.Made trakinfo avType) (chunkOffsets : List UInt32)
    : (chunksFrom trakinfo chunkIndex chunkOffsets p).map (·.items.map MovItem.location)
      = if p.items.length + samplesFrom trakinfo.chunkSampleVec chunkIndex chunkOffsets.length
            ≤ trakinfo.sampleSizesVec.length then
          some (p.items.map MovItem.location ++ locationsFrom avType trakinfo.chunkSampleVec chunkIndex chunkOffsets
            (trakinfo.sampleSizesVec.drop p.items.length))
        else none := by
  induction chunkOffsets generalizing p chunkIndex with
  | nil =>
    have hle : p.items.length + samplesFrom trakinfo.chunkSampleVec chunkIndex ([] : List UInt32).length
        ≤ trakinfo.sampleSizesVec.length := hmade.length_le
    rw [if_pos hle, locationsFrom, List.append_nil]
    rfl
  | cons chunkOffset chunkOffsets ih =>
    rw [chunksFrom, runsOfChunk_eq hav chunkOffset hincreasing hmade, List.length_cons, samplesFrom_succ, locationsFrom,
      samplesOf]
    cases runOf trakinfo.chunkSampleVec chunkIndex with
    | none =>
      simp only [Option.bind_eq_bind, Option.bind_some, Option.map_none, Option.getD_none, Nat.zero_add, List.take_zero,
        samplesAt, List.nil_append, List.drop_zero]
      exact ih hmade
    | some run =>
      simp only [Option.map_some, Option.getD_some]
      split
      . next hle =>
        have hlen := @Progress.Made.length_next trakinfo avType p chunkOffset _ hle
        simp only [Option.bind_eq_bind, Option.bind_some]
        rw [ih (hmade.next hle), hlen, Nat.add_assoc, Progress.next, List.map_append, location_itemsFrom,
          List.append_assoc, List.drop_drop]
      . next hle =>
        rw [if_neg (by omega)]
        rfl

theorem trakItems_locations (hav : trakinfo.avType = some avType)
    (hincreasing : trakinfo.chunkSampleVec.Pairwise fun a b => a.firstChunk < b.firstChunk)
    : (trakItems trakinfo).map (List.map MovItem.location)
      = if samplesFrom trakinfo.chunkSampleVec 1 trakinfo.chunkOffsetsVec.length ≤ trakinfo.sampleSizesVec.length then
          some (locationsFrom avType trakinfo.chunkSampleVec 1 trakinfo.chunkOffsetsVec trakinfo.sampleSizesVec)
        else none := by
  have h := @chunksFrom_locations trakinfo avType 1 {} hav hincreasing (Progress.made_start trakinfo avType)
    trakinfo.chunkOffsetsVec
  rw [trakItems, Option.map_map]
  simp only [List.length_nil, Nat.zero_add, List.map_nil, List.nil_append, List.drop_zero] at h
  exact h

end Walk

section Movies

/--
A track as it is stored: its tables, and the forms of two of their boxes with what is behind them. The track is given as
it is without these two boxes.
-/
structure StoredTrack where
  base : TrakInfo
  tables : SampleTables
  stscForm : BoxForm
  stszForm : BoxForm
  stscFlag : UInt32
  stszFlag : UInt32
  behindStsc : List UInt8
  behindStsz : List UInt8
  stsc_fits : BoxFits stscForm (tables.stscContent stscFlag)
  stsz_fits : BoxFits stszForm (tables.stszContent stszFlag)
  no_runs : base.chunkSampleVec = []
  no_sizes : base.sampleSizesVec = []
  entries : base.sampleEntries = tables.entries
  chunkOffsets : base.chunkOffsetsVec = tables.chunkOffsets

namespace StoredTrack

def stsc (t : StoredTrack) : List UInt8 :=
  boxBytes t.stscForm (utf8 "stsc") (t.tables.stscContent t.stscFlag) ++ t.behindStsc

def stsz (t : StoredTrack) : List UInt8 :=
  boxBytes t.stszForm (utf8 "stsz") (t.tables.stszContent t.stszFlag) ++ t.behindStsz

def parsed (t : StoredTrack) : Option TrakInfo := do
  let trakinfo ← StscBox.parse t.stsc t.base
  StszBox.parse t.stsz trakinfo

/--
Where the samples are, for a track that is demuxed.
-/
def locations (t : StoredTrack) : List Location :=
  match t.base.avType with
  | none => []
  | some avType => locationsFrom avType t.tables.runs 1 t.tables.chunkOffsets t.tables.sizes.list

theorem parsed_eq (t : StoredTrack)
    : ∃ trakinfo, t.parsed = some trakinfo ∧ trakinfo.chunkSampleVec = t.tables.runs
      ∧ trakinfo.sampleSizesVec = t.tables.sizes.kept ∧ trakinfo.chunkOffsetsVec = t.tables.chunkOffsets
      ∧ trakinfo.avType = t.base.avType
      ∧ ∀ around, sequenceHeaders around trakinfo = sequenceHeaders around t.base := by
  have hstsc := parse_stsc t.tables t.stscFlag t.stsc_fits t.behindStsc t.base
  obtain ⟨trakinfo, hstsz, hsizes, heq⟩ := parse_stsz t.tables t.stszFlag t.stsz_fits t.behindStsz
    { t.base with chunkSampleVec := t.base.chunkSampleVec ++ t.tables.runs } t.no_sizes
  have hparsed : t.parsed = some trakinfo := by
    rw [parsed, stsc, hstsc]
    exact hstsz
  refine ⟨trakinfo, hparsed, ?_, hsizes, ?_, ?_, ?_⟩
  . rw [heq, t.no_runs, List.nil_append]
  . rw [heq]
    exact t.chunkOffsets
  . rw [heq]
    rfl
  . intro around
    rw [heq]
    rfl

end StoredTrack

/--
Each track is parsed, and the items are at the locations of the samples, each once.
-/
def PlacesSamples (around : Surroundings) (tracks : List StoredTrack) : Prop :=
  ∃ traksInfo headers sampleItems, tracks.mapM StoredTrack.parsed = some traksInfo
    ∧ makeMovItems around traksInfo = some (headers, sampleItems)
    ∧ (sampleItems.map fun item => item.2.location).Perm (tracks.flatMap StoredTrack.locations)

theorem trakItems_parsed {t : StoredTrack} {trakinfo : TrakInfo} (hparsed : t.parsed = some trakinfo)
    (hsizes : t.base.avType.isSome → t.tables.sizes.PerSample)
    : (trakItems trakinfo).map (List.map MovItem.location) = some t.locations := by
  obtain ⟨trakinfo', hparsed', hruns, hkept, hchunks, hav, -⟩ := t.parsed_eq
  rw [hparsed] at hparsed'
  cases hparsed'
  rw [StoredTrack.locations]
  cases havType : t.base.avType with
  | none =>
    rw [havType] at hav
    rw [trakItems_other hav]
    rfl
  | some avType =>
    rw [havType] at hav hsizes
    have hlist : t.tables.sizes.kept = t.tables.sizes.list := by
      have hper := hsizes rfl
      cases hform : t.tables.sizes with
      | constant size count pos =>
        rw [hform] at hper
        rw [SampleSizes.list, show count = 0 from hper]
        rfl
      | each sizes length_lt => rfl
    rw [trakItems_locations hav (by rw [hruns]; exact t.tables.increasing), hruns, hkept, hchunks, hlist,
      t.tables.samples_eq, if_pos (Nat.le_refl _)]

/--
Where there is one size for all samples, there is no size for the first one.
-/
theorem trakItems_constant {t : StoredTrack} {trakinfo : TrakInfo} (hparsed : t.parsed = some trakinfo)
    (hsome : t.base.avType.isSome) (hsizes : ¬t.tables.sizes.PerSample) : trakItems trakinfo = none := by
  obtain ⟨trakinfo', hparsed', hruns, hkept, hchunks, hav, -⟩ := t.parsed_eq
  rw [hparsed] at hparsed'
  cases hparsed'
  obtain ⟨avType, havType⟩ := Option.isSome_iff_exists.mp hsome
  rw [havType] at hav
  have hlocations := trakItems_locations hav (by rw [hruns]; exact t.tables.increasing)
  rw [hruns, hkept, hchunks, t.tables.samples_eq, if_neg] at hlocations
  . exact Option.map_eq_none_iff.mp hlocations
  . cases hform : t.tables.sizes with
    | constant size count pos =>
      rw [hform] at hsizes
      rw [SampleSizes.list, SampleSizes.kept, List.length_replicate, List.length_nil, Nat.le_zero]
      exact fun h => hsizes (UInt32.toNat_inj.mp h)
    | each sizes length_lt =>
      rw [hform] at hsizes
      exact absurd trivial hsizes

theorem mapM_trakItems {tracks : List StoredTrack} {traksInfo : List TrakInfo}
    (hparsed : tracks.mapM StoredTrack.parsed = some traksInfo)
    (hsizes : ∀ t ∈ tracks, t.base.avType.isSome → t.tables.sizes.PerSample)
    : ∃ items, traksInfo.mapM trakItems = some items
      ∧ items.flatten.map MovItem.location = tracks.flatMap StoredTrack.locations := by
  have hall := Traverse.mapM_eq_some_iff.mp hparsed
  clear hparsed
  induction hall with
  | nil => exact ⟨[], rfl, rfl⟩
  | cons hfirst _ ih =>
    rw [List.forall_mem_cons] at hsizes
    obtain ⟨items, hitems, hlocations⟩ := ih hsizes.right
    obtain ⟨first, hitem, hlocation⟩ := Option.map_eq_some_iff.mp (trakItems_parsed hfirst hsizes.left)
    refine ⟨first :: items, ?_, ?_⟩
    . rw [List.mapM_cons, hitem, hitems]
      rfl
    . rw [List.flatten_cons, List.map_append, hlocation, hlocations, List.flatMap_cons]

theorem mapM_sequenceHeaders {around : Surroundings} {tracks : List StoredTrack} {traksInfo : List TrakInfo}
    (hparsed : tracks.mapM StoredTrack.parsed = some traksInfo)
    (hheaders : ∀ t ∈ tracks, (sequenceHeaders around t.base).isSome)
    : ∃ headers, traksInfo.mapM (sequenceHeaders around) = some headers := by
  apply Traverse.exists_mapM
  have hall := Traverse.mapM_eq_some_iff.mp hparsed
  clear hparsed
  induction hall with
  | nil => exact List.forall_mem_nil _
  | @cons t trakinfo _ _ hfirst _ ih =>
    rw [List.forall_mem_cons] at hheaders ⊢
    refine ⟨?_, ih hheaders.right⟩
    obtain ⟨trakinfo', hparsed', -, -, -, -, hsame⟩ := t.parsed_eq
    rw [hfirst] at hparsed'
    cases hparsed'
    rw [hsame]
    exact hheaders.left

theorem perSample_of_placesSamples {around : Surroundings} {tracks : List StoredTrack}
    (h : PlacesSamples around tracks) : ∀ t ∈ tracks, t.base.avType.isSome → t.tables.sizes.PerSample := by
  obtain ⟨traksInfo, headers, sampleItems, hparsed, hmake, -⟩ := h
  intro t ht hsome
  by_contra hsizes
  obtain ⟨trakinfo, hmem, htrak⟩ := Traverse.exists_of_mem hparsed ht
  obtain ⟨-, items, hitems, -⟩ := makeMovItems_eq_some_iff.mp hmake
  obtain ⟨_, -, hsomeItems⟩ := Traverse.exists_of_mem hitems hmem
  rw [trakItems_constant htrak hsome hsizes] at hsomeItems
  cases hsomeItems

/--
The samples are placed exactly if no track that is demuxed has one size for all its samples.
-/
theorem placesSamples_iff {around : Surroundings} {tracks : List StoredTrack}
    (hheaders : ∀ t ∈ tracks, (sequenceHeaders around t.base).isSome)
    : PlacesSamples around tracks ↔ ∀ t ∈ tracks, t.base.avType.isSome → t.tables.sizes.PerSample := by
  constructor
  . exact perSample_of_placesSamples
  . intro hsizes
    have hall : ∀ t ∈ tracks, t.parsed.isSome := by
      intro t _
      obtain ⟨trakinfo, hparsed, -⟩ := t.parsed_eq
      rw [hparsed]
      rfl
    obtain ⟨traksInfo, hparsed⟩ := Traverse.exists_mapM hall
    obtain ⟨items, hitems, hlocations⟩ := mapM_trakItems hparsed hsizes
    obtain ⟨headers, hsent⟩ := mapM_sequenceHeaders hparsed hheaders
    refine ⟨traksInfo, headers.flatten,
      Multimap.ofList Prod.fst (items.flatten.map fun item => (item.dts, item)), hparsed, ?_, ?_⟩
    . exact makeMovItems_eq_some_iff.mpr ⟨⟨headers, hsent, rfl⟩, items, hitems, rfl⟩
    . have hperm := (Multimap.ofList_perm Prod.fst (items.flatten.map fun item => (item.dts, item))).map
        fun item => item.2.location
      rw [List.map_map] at hperm
      rw [← hlocations]
      exact hperm

section Samples

def twoRuns : List ChunkSample := [⟨1, 2, 1⟩, ⟨2, 1, 1⟩]

theorem twoRuns_increasing : twoRuns.Pairwise fun a b => a.firstChunk < b.firstChunk := by
  decide

theorem twoRuns_first : ∀ run ∈ twoRuns.head?, run.firstChunk = 1 := by
  decide

theorem twoRuns_lt : twoRuns.length < 2 ^ 32 := by
  decide

theorem noSizes_lt : ([] : List UInt32).length < 2 ^ 32 := by
  decide

/--
Two chunks, with two samples in the first one and one in the second one.
-/
def twoChunks (sizes : SampleSizes) (h : 3 = sizes.list.length) : SampleTables where
  runs := twoRuns
  sizes
  chunkOffsets := [100, 200]
  entries := [⟨3, 10⟩]
  increasing := twoRuns_increasing
  first := twoRuns_first
  runs_lt := twoRuns_lt
  samples_eq := h
  entries_eq := h

/--
The track without the boxes of its samples.
-/
def withoutBoxes : TrakInfo where
  timescale := 1000
  handlerType := soun
  codecType := .aac
  sampleEntries := [⟨3, 10⟩]
  chunkOffsetsVec := [100, 200]
  sampleSizes_lt := noSizes_lt

theorem twoChunks_stsc_fits (sizes : SampleSizes) (h : 3 = sizes.list.length)
    : BoxFits .long ((twoChunks sizes h).stscContent 0) := by
  have hlen : ((twoChunks sizes h).stscContent 0).length = 32 := rfl
  rw [BoxFits, hlen]
  decide

def storedTrack (sizes : SampleSizes) (h : 3 = sizes.list.length)
    (hfits : BoxFits .short ((twoChunks sizes h).stszContent 0)) : StoredTrack where
  base := withoutBoxes
  tables := twoChunks sizes h
  stscForm := .long
  stszForm := .short
  stscFlag := 0
  stszFlag := 0
  behindStsc := []
  behindStsz := []
  stsc_fits := twoChunks_stsc_fits sizes h
  stsz_fits := hfits
  no_runs := rfl
  no_sizes := rfl
  entries := rfl
  chunkOffsets := rfl

theorem threeSizes_lt : ([5, 6, 7] : List UInt32).length < 2 ^ 32 := by
  decide

theorem five_ne : (5 : UInt32) ≠ 0 := by
  decide

theorem each_fits : BoxFits .short ((twoChunks (.each [5, 6, 7] threeSizes_lt) rfl).stszContent 0) := by
  have hlen : ((twoChunks (.each [5, 6, 7] threeSizes_lt) rfl).stszContent 0).length = 24 := rfl
  rw [BoxFits, hlen]
  decide

theorem constant_fits : BoxFits .short ((twoChunks (.constant 5 3 five_ne) rfl).stszContent 0) := by
  have hlen : ((twoChunks (.constant 5 3 five_ne) rfl).stszContent 0).length = 12 := rfl
  rw [BoxFits, hlen]
  decide

def eachTrack : StoredTrack := storedTrack (.each [5, 6, 7] threeSizes_lt) rfl each_fits

def constantTrack : StoredTrack := storedTrack (.constant 5 3 five_ne) rfl constant_fits

example : eachTrack.locations = [⟨.audio, 5, 100⟩, ⟨.audio, 6, 105⟩, ⟨.audio, 7, 200⟩] := by decide

theorem placesSamples_each : PlacesSamples zeroed [eachTrack] := by
  have hheaders : ∀ t ∈ [eachTrack], (sequenceHeaders zeroed t.base).isSome := by
    rw [List.forall_mem_singleton]
    rfl
  apply (placesSamples_iff hheaders).mpr
  rw [List.forall_mem_singleton]
  exact fun _ => trivial

/--
All samples of a track have the size 5.
-/
theorem not_placesSamples_constant : (sequenceHeaders zeroed constantTrack.base).isSome
    ∧ ¬PlacesSamples zeroed [constantTrack] := by
  refine ⟨rfl, ?_⟩
  intro h
  have hsizes := perSample_of_placesSamples h constantTrack List.mem_cons_self rfl
  exact absurd (show (3 : UInt32) = 0 from hsizes) (by decide)

end Samples

end Movies

end Mp4
