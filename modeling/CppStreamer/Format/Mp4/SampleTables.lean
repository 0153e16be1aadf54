import CppStreamer.Format.Mp4.Mp4Box

/-!
This module contains the tables that say where the samples of a track are, the boxes that two of them are stored in, and
what the parsers make of these boxes.
-/

open ByteStream StringEx

namespace Mp4

/--
What `stsz` has: one size for all samples, or a size for each.
-/
inductive SampleSizes where
  | constant (size count : UInt32) (pos : size ≠ 0)
  | each (sizes : List UInt32) (length_lt : sizes.length < 2 ^ 32)

namespace SampleSizes

def list : SampleSizes → List UInt32
  | constant size count _ => List.replicate count.toNat size
  | each sizes _ => sizes

/--
There is a size for each sample, or there is no sample.
-/
def PerSample (s : SampleSizes) : Prop :=
  match s with
  | constant _ count _ => count = 0
  | each _ _ => True

/--
The content of the box, behind its version and flags.
-/
def content : SampleSizes → List UInt8
  | constant size count _ => write4Bytes size.toNat ++ write4Bytes count.toNat
  | each sizes _ => write4Bytes 0 ++ (write4Bytes sizes.length ++ sizes.flatMap fun size => write4Bytes size.toNat)

/--
What is kept of the sizes.
-/
def kept : SampleSizes → List UInt32
  | constant _ _ _ => []
  | each sizes _ => sizes

end SampleSizes

/--
The samples of a chunk: those of the last run that does not begin behind it.
-/
def runOf (runs : List ChunkSample) (chunk : Nat) : Option ChunkSample :=
  (runs.filter fun run => run.firstChunk.toNat ≤ chunk).getLast?

def samplesOf (runs : List ChunkSample) (chunk : Nat) : Nat :=
  ((runOf runs chunk).map fun run => run.samplesPerChunk.toNat).getD 0

/--
How many samples the chunks have, from one on.
-/
def samplesFrom (runs : List ChunkSample) (chunk chunks : Nat) : Nat :=
  ((List.range chunks).map fun i => samplesOf runs (chunk + i)).sum

/--
The tables of a track that are consistent: the runs of `stsc` are in order and begin with the first chunk, and the
chunks of `stco` have as many samples as `stsz` and `stts`.
-/
structure SampleTables where
  runs : List ChunkSample
  sizes : SampleSizes
  chunkOffsets : List UInt32
  entries : List SampleEntry
  increasing : runs.Pairwise fun a b => a.firstChunk < b.firstChunk
  first : ∀ run ∈ runs.head?, run.firstChunk = 1
  runs_lt : runs.length < 2 ^ 32
  samples_eq : samplesFrom runs 1 chunkOffsets.length = sizes.list.length
  entries_eq : (entries.map fun entry => entry.sampleCount.toNat).sum = sizes.list.length

/--
A box with a 32-bit size, or with a 64-bit size behind its type.
-/
inductive BoxForm where
  | short
  | long
  deriving DecidableEq, Repr

def boxBytes (form : BoxForm) (type content : List UInt8) : List UInt8 :=
  match form with
  | .short => write4Bytes (8 + content.length) ++ (type ++ content)
  | .long => write4Bytes 1 ++ (type ++ (write8Bytes (16 + content.length) ++ content))

/--
The size of a box fits.
-/
def BoxFits (form : BoxForm) (content : List UInt8) : Prop :=
  match form with
  | .short => 8 + content.length < 2 ^ 32
  | .long => 16 + content.length < 2 ^ 64

namespace SampleTables

def runBytes (run : ChunkSample) : List UInt8 :=
  write4Bytes run.firstChunk.toNat ++ (write4Bytes run.samplesPerChunk.toNat
    ++ write4Bytes run.sampleDescriptionIndex.toNat)

def stscContent (t : SampleTables) (versionFlag : UInt32) : List UInt8 :=
  write4Bytes versionFlag.toNat ++ (write4Bytes t.runs.length ++ t.runs.flatMap runBytes)

def stszContent (t : SampleTables) (versionFlag : UInt32) : List UInt8 :=
  write4Bytes versionFlag.toNat ++ t.sizes.content

end SampleTables

section Parsing

variable {data rest content : List UInt8} {p : Nat}

theorem read4_of_drop {value : Nat} (h : data.drop p = write4Bytes value ++ rest)
    : read4 data p = some (UInt32.ofNat value) := by
  have hlen := congrArg List.length h
  rw [List.length_drop, List.length_append, length_write4Bytes] at hlen
  rw [read4, if_pos (by omega), h, read4Bytes_write4Bytes]
  exact congrArg some UInt32.ofNat_mod_size

theorem drop_behind {front : List UInt8} {q : Nat} (h : data.drop p = front ++ rest) (hq : q = p + front.length)
    : data.drop q = rest := by
  rw [hq, ← List.drop_drop, h, List.drop_left]

theorem read8_of_drop {value : Nat} (h : data.drop p = write8Bytes value ++ rest) (hlt : value < 2 ^ 64)
    : read8 data p = some value := by
  have hlen := congrArg List.length h
  have h8 : (write8Bytes value).length = 8 := rfl
  rw [List.length_drop, List.length_append, h8] at hlen
  rw [read8, if_pos (by omega), h, read8Bytes_write8Bytes_append, Nat.mod_eq_of_lt hlt]

/--
The header of a box is read back, and its content is behind the offset.
-/
theorem parse_boxBytes {form : BoxForm} {type : List UInt8} (htype : type.length = 4) (hfits : BoxFits form content)
    : ∃ box, Mp4BoxBase.parse (boxBytes form type content ++ rest) = some box ∧ box.type = type
      ∧ box.boxSize = box.offset + content.length
      ∧ (boxBytes form type content ++ rest).drop box.offset = content ++ rest := by
  have hread : ∀ {data : List UInt8}, 8 ≤ data.length → ∃ value, read4 data 4 = some value := by
    intro data hlen
    exact ⟨_, if_pos hlen⟩
  cases form with
  | short =>
    have hlt : 8 + content.length < 2 ^ 32 := hfits
    have hsize : read4 (boxBytes .short type content ++ rest) 0 = some (UInt32.ofNat (8 + content.length)) := by
      apply read4_of_drop
      rw [List.drop_zero, boxBytes, List.append_assoc]
    have hbehind : (boxBytes .short type content ++ rest).drop 4 = type ++ (content ++ rest) := by
      rw [boxBytes, List.append_assoc, List.append_assoc]
      rfl
    obtain ⟨value, hvalue⟩ := @hread (boxBytes .short type content ++ rest) (by
      rw [boxBytes, List.length_append, List.length_append, List.length_append, length_write4Bytes]
      omega)
    have hnat : (UInt32.ofNat (8 + content.length)).toNat = 8 + content.length := by
      rw [UInt32.toNat_ofNat', Nat.mod_eq_of_lt hlt]
    have hne : UInt32.ofNat (8 + content.length) ≠ 1 := by
      intro h
      rw [h] at hnat
      have hone : (1 : UInt32).toNat = 1 := rfl
      omega
    refine ⟨⟨8 + content.length, type, 8⟩, ?_, rfl, rfl, drop_behind hbehind (by rw [htype])⟩
    rw [Mp4BoxBase.parse, hsize, hvalue, hbehind]
    simp only [Option.bind_eq_bind, Option.bind_some]
    rw [if_neg hne, hnat, List.take_left' htype]
  | long =>
    have hlt : 16 + content.length < 2 ^ 64 := hfits
    have hsize : read4 (boxBytes .long type content ++ rest) 0 = some (UInt32.ofNat 1) := by
      apply read4_of_drop
      rw [List.drop_zero, boxBytes, List.append_assoc]
    have hbehind : (boxBytes .long type content ++ rest).drop 4
        = type ++ (write8Bytes (16 + content.length) ++ (content ++ rest)) := by
      rw [boxBytes, List.append_assoc, List.append_assoc, List.append_assoc]
      rfl
    have hlong := drop_behind (q := 8) hbehind (by rw [htype])
    have h8 : (write8Bytes (16 + content.length)).length = 8 := rfl
    obtain ⟨value, hvalue⟩ := @hread (boxBytes .long type content ++ rest) (by
      rw [boxBytes, List.length_append, List.length_append, List.length_append, length_write4Bytes]
      omega)
    refine ⟨⟨16 + content.length, type, 16⟩, ?_, rfl, rfl, drop_behind hlong (by rw [h8])⟩
    rw [Mp4BoxBase.parse, hsize, hvalue, hbehind]
    simp only [Option.bind_eq_bind, Option.bind_some]
    have hone : UInt32.ofNat 1 = 1 := rfl
    rw [if_pos hone, read8_of_drop hlong hlt, Option.bind_some, List.take_left' htype]

theorem entries_runs {runs : List ChunkSample} {boxSize : Nat}
    (h : data.drop p = runs.flatMap SampleTables.runBytes ++ rest) (hend : p + 12 * runs.length ≤ boxSize)
    : StscBox.entries data boxSize runs.length p = some (runs, p + 12 * runs.length) := by
  induction runs generalizing p with
  | nil => rfl
  | cons run runs ih =>
    rw [List.length_cons] at hend
    rw [List.flatMap_cons, SampleTables.runBytes, List.append_assoc, List.append_assoc, List.append_assoc] at h
    have hsamples := drop_behind (q := p + 4) h rfl
    have hdescription := drop_behind (q := p + 8) hsamples rfl
    have hrest := drop_behind (q := p + 12) hdescription rfl
    rw [List.length_cons, StscBox.entries, if_neg (by omega), read4_of_drop h, read4_of_drop hsamples,
      read4_of_drop hdescription]
    simp only [Option.bind_eq_bind, Option.bind_some, UInt32.ofNat_toNat]
    rw [ih hrest (by omega)]
    have hpos : p + 12 + 12 * runs.length = p + 12 * (runs.length + 1) := by
      omega
    rw [Option.bind_some, hpos]

theorem length_runs (runs : List ChunkSample) : (runs.flatMap SampleTables.runBytes).length = 12 * runs.length := by
  induction runs with
  | nil => rfl
  | cons run runs ih =>
    have hrun : (SampleTables.runBytes run).length = 12 := rfl
    rw [List.flatMap_cons, List.length_append, ih, hrun, List.length_cons]
    omega

/--
The runs are put behind those that the track has.
-/
theorem parse_stsc (t : SampleTables) (versionFlag : UInt32) {form : BoxForm}
    (hfits : BoxFits form (t.stscContent versionFlag)) (rest : List UInt8) (trak : TrakInfo)
    : StscBox.parse (boxBytes form (utf8 "stsc") (t.stscContent versionFlag) ++ rest) trak
      = some { trak with chunkSampleVec := trak.chunkSampleVec ++ t.runs } := by
  obtain ⟨box, hparse, -, hsize, hcontent⟩ := @parse_boxBytes rest _ form (utf8 "stsc") rfl hfits
  generalize boxBytes form (utf8 "stsc") (t.stscContent versionFlag) ++ rest = data at hparse hcontent
  have hlen : (t.stscContent versionFlag).length = 8 + 12 * t.runs.length := by
    rw [SampleTables.stscContent, List.length_append, List.length_append, length_runs, length_write4Bytes,
      length_write4Bytes]
    omega
  rw [SampleTables.stscContent, List.append_assoc, List.append_assoc] at hcontent
  have hcount := drop_behind (q := box.offset + 4) hcontent rfl
  have hruns := drop_behind (q := box.offset + 8) hcount rfl
  have hnat : (UInt32.ofNat t.runs.length).toNat = t.runs.length := by
    rw [UInt32.toNat_ofNat', Nat.mod_eq_of_lt t.runs_lt]
  rw [StscBox.parse, hparse]
  simp only [Option.bind_eq_bind, Option.bind_some]
  rw [read4_of_drop hcontent, Option.bind_some, read4_of_drop hcount, Option.bind_some, hnat,
    entries_runs hruns (by omega), Option.bind_some]
  simp only
  rw [if_pos (by omega)]

theorem words_of_drop {sizes : List UInt32} (h : data.drop p = (sizes.flatMap fun size => write4Bytes size.toNat) ++ rest)
    : words data p sizes.length = sizes := by
  induction sizes generalizing p with
  | nil => rfl
  | cons size sizes ih =>
    rw [List.flatMap_cons, List.append_assoc] at h
    have hrest := ih (drop_behind (q := p + 4) h rfl)
    rw [words] at hrest ⊢
    rw [List.length_cons, List.range_succ_eq_map, List.map_cons, List.map_map, Nat.mul_zero, Nat.add_zero, h,
      read4Bytes_write4Bytes]
    have hsize : UInt32.ofNat (size.toNat % 2 ^ 32) = size := by
      rw [UInt32.ofNat_mod_size, UInt32.ofNat_toNat]
    rw [hsize]
    congr 1
    refine Eq.trans ?_ hrest
    apply List.map_congr_left
    intro i _
    have hpos : p + 4 * (i + 1) = p + 4 + 4 * i := by
      omega
    rw [Function.comp_apply, Nat.succ_eq_add_one, hpos]

theorem length_sizes (sizes : List UInt32) : (sizes.flatMap fun size => write4Bytes size.toNat).length = 4 * sizes.length := by
  induction sizes with
  | nil => rfl
  | cons size sizes ih =>
    rw [List.flatMap_cons, List.length_append, ih, length_write4Bytes, List.length_cons]
    omega

/--
The sizes are kept if there is one for each sample, otherwise the track keeps what it has.
-/
theorem parse_stsz (t : SampleTables) (versionFlag : UInt32) {form : BoxForm}
    (hfits : BoxFits form (t.stszContent versionFlag)) (rest : List UInt8) (trak : TrakInfo)
    (hnone : trak.sampleSizesVec = [])
    : ∃ trak', StszBox.parse (boxBytes form (utf8 "stsz") (t.stszContent versionFlag) ++ rest) trak = some trak'
      ∧ trak'.sampleSizesVec = t.sizes.kept
      ∧ trak' = { trak with sampleSizesVec := trak'.sampleSizesVec, sampleSizes_lt := trak'.sampleSizes_lt } := by
  obtain ⟨box, hparse, -, hsize, hcontent⟩ := @parse_boxBytes rest _ form (utf8 "stsz") rfl hfits
  generalize boxBytes form (utf8 "stsz") (t.stszContent versionFlag) ++ rest = data at hparse hcontent
  have hend := congrArg List.length hcontent
  rw [List.length_drop, List.length_append] at hend
  rw [StszBox.parse, hparse]
  simp only [Option.bind_eq_bind, Option.bind_some]
  rw [SampleTables.stszContent] at hcontent hsize hend
  cases hsizes : t.sizes with
  | constant size count pos =>
    rw [hsizes, SampleSizes.content, List.append_assoc, List.append_assoc] at hcontent
    rw [hsizes] at hsize
    have hconstant := drop_behind (q := box.offset + 4) hcontent rfl
    have hcount := drop_behind (q := box.offset + 8) hconstant rfl
    have hboxSize : box.offset + 12 = box.boxSize := hsize.symm
    rw [read4_of_drop hcontent, Option.bind_some, read4_of_drop hconstant, Option.bind_some, read4_of_drop hcount,
      Option.bind_some, UInt32.ofNat_toNat, if_neg pos, if_pos hboxSize]
    exact ⟨trak, rfl, hnone, rfl⟩
  | each sizes length_lt =>
    have hnat : (UInt32.ofNat sizes.length).toNat = sizes.length := by
      rw [UInt32.toNat_ofNat', Nat.mod_eq_of_lt length_lt]
    rw [hsizes, SampleSizes.content, List.length_append, List.length_append, List.length_append, length_sizes,
      length_write4Bytes, length_write4Bytes, length_write4Bytes] at hsize hend
    rw [hsizes, SampleSizes.content, List.append_assoc, List.append_assoc, List.append_assoc] at hcontent
    have hconstant := drop_behind (q := box.offset + 4) hcontent rfl
    have hcount := drop_behind (q := box.offset + 8) hconstant rfl
    have hwords := drop_behind (q := box.offset + 12) hcount rfl
    have hzero : UInt32.ofNat 0 = 0 := rfl
    have hinside : ¬data.length < box.offset + 12 + 4 * (UInt32.ofNat sizes.length).toNat := by
      omega
    have hboxSize : box.offset + 12 + 4 * (UInt32.ofNat sizes.length).toNat = box.boxSize := by
      omega
    rw [read4_of_drop hcontent, Option.bind_some, read4_of_drop hconstant, Option.bind_some, read4_of_drop hcount,
      Option.bind_some, if_pos hzero, if_neg hinside, if_pos hboxSize]
    refine ⟨_, rfl, ?_, rfl⟩
    simp only [hnat]
    exact words_of_drop hwords

end Parsing

end Mp4
