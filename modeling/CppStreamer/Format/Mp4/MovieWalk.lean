import CppStreamer.Format.Mp4.WellFormed

/-!
This module contains what the demuxer makes of a movie that is whole or cut, in a buffer and in a file.
-/

open ByteStream Checked Looping Reading StringEx
open Mp4.Layout (Box Movie)

namespace Mp4.Boxes

variable {b : Buffer} {p base : Nat} {x : Box} {xs : List Box} {Q : Nat → Prop}

section Root

theorem rootFits_iff (h : At b b.size p x) (hroot : Layout.Root x) (hfree : x.type = utf8 "free" → x.body = [])
    : rootFits b x.type p Q ↔ Q (p + x.size) := by
  unfold Layout.Root at hroot
  unfold rootFits
  split
  . next hftyp =>
    rw [if_pos hftyp] at hroot
    exact FtypBox.fits_iff h hroot
  . next hftyp =>
    rw [if_neg hftyp] at hroot
    split
    . next hmoov =>
      rw [if_pos hmoov] at hroot
      exact MoovBox.fits_iff h hroot
    split
    . next hspace => exact FreeBox.fits_iff h (hfree hspace)
    split
    . exact anyFits_iff h
    . exact anyFits_iff h

theorem rootFits_iff_const (h : At b b.size p x) (hroot : Layout.Root x) {R : Prop}
    : rootFits b x.type p (fun _ => R) ↔ R := by
  by_cases hspace : x.type = utf8 "free"
  . have hftyp : x.type ≠ utf8 "ftyp" := by
      rw [hspace]
      decide
    have hmoov : x.type ≠ utf8 "moov" := by
      rw [hspace]
      decide
    unfold rootFits
    rw [if_neg hftyp, if_neg hmoov, if_pos hspace, FreeBox.Fits, and_iff_right h.placed]
  . exact rootFits_iff h hroot fun h => absurd h hspace

end Root

section Buffers

abbrev bufferChain (base : Nat) (b : Buffer) (Q : Nat → Prop) : Nat × Bool → Prop :=
  Chain (fun s => s.2 ∧ s.1 < b.size) (RootFits base b) fun s => Q s.1

theorem rootTurn_iff (h : At b b.size p x) (hbase : base + b.size < 2 ^ 64) {more : Bool} {R : Nat × Bool → Prop}
    : RootFits base b (p, more) R ↔ rootFits b x.type p fun next => R (next, true) := by
  have hinside := h.inside
  have hsum : (base + p + x.size) % 2 ^ 64 = base + p + x.size := Nat.mod_eq_of_lt (by omega)
  unfold RootFits
  rw [and_iff_right h.placed.header, h.header.boxSize, h.header.boxType, hsum, if_neg (by omega)]

theorem bufferChain_boxes (hroot : ∀ x ∈ xs, Layout.Root x) (hpacked : ∀ x ∈ xs, x.type = utf8 "free" → x.body = [])
    (hbase : base + b.size < 2 ^ 64) (hmem : HoldsAt b.mem p (xs.flatMap Box.bytes))
    (hlen : p + (xs.flatMap Box.bytes).length ≤ b.size)
    : bufferChain base b Q (p, true) ↔ bufferChain base b Q (p + (xs.flatMap Box.bytes).length, true) := by
  induction xs generalizing p with
  | nil => rfl
  | cons x xs ih =>
    have hsize : x.size = x.headerLen + x.body.length := rfl
    have hheader := headerLen_ge x
    rw [length_flatMap_cons] at hlen
    rw [List.flatMap_cons] at hmem
    have hat : At b b.size p x := ⟨hmem.left, by omega, Nat.le_refl _⟩
    have hrest : HoldsAt b.mem (p + x.size) (xs.flatMap Box.bytes) := by
      apply hmem.right
      rw [length_boxBytes]
    rw [length_flatMap_cons, ← Nat.add_assoc, ← ih (fun y hy => hroot y (List.mem_cons_of_mem _ hy))
      (fun y hy => hpacked y (List.mem_cons_of_mem _ hy)) hrest (by omega)]
    apply chain_step
    . exact decide_eq_true ⟨rfl, by omega⟩
    . intro R
      rw [rootTurn_iff hat hbase, rootFits_iff hat (hroot x List.mem_cons_self) (hpacked x List.mem_cons_self)]

theorem take_bytes {n : Nat} (hn : x.headerLen ≤ n)
    : x.bytes.take n = x.header ++ x.body.take (n - x.headerLen) := by
  rw [Box.bytes, List.take_append, length_header, List.take_of_length_le (by rw [length_header]; exact hn)]

theorem bufferChain_cut {n : Nat} (hmem : HoldsAt b.mem p (x.bytes.take n)) (hsize : b.size = p + n) (hn : n < x.size)
    (hheader : x.headerLen ≤ n) (hbase : base + p + x.size < 2 ^ 64)
    : bufferChain base b Q (p, true) ↔ Q p := by
  rw [take_bytes hheader] at hmem
  have hread := headerRead hmem
  have hlen := headerLen_ge x
  have hcontent : b.content p ≤ b.size := by
    rw [Buffer.content, hread.headerLen]
    omega
  have hmore : decide (true = true ∧ p < b.size) = true := decide_eq_true ⟨rfl, by omega⟩
  have hsum : (base + p + x.size) % 2 ^ 64 = base + p + x.size := Nat.mod_eq_of_lt hbase
  refine Iff.trans (chain_step (p, false) hmore ?_) (chain_of_not_more rfl)
  intro R
  unfold RootFits
  rw [and_iff_right hcontent, hread.boxSize, hsum, if_pos (by omega)]

theorem not_bufferChain_cut {n : Nat} (hmem : HoldsAt b.mem p (x.bytes.take n)) (hsize : b.size = p + n) (hn : 0 < n)
    (hheader : n < x.headerLen)
    : ¬bufferChain base b Q (p, true) := by
  have hcontent : ¬b.content p ≤ b.size := by
    unfold Buffer.content
    rcases headerLen_cases b p with ⟨-, hlen, -⟩ | ⟨hword, hlen, -⟩
    . have hle := headerLen_le x
      omega
    . intro hle
      have hwide : x.wide = true := by
        by_contra hnarrow
        rw [headerLen_of_narrow hnarrow] at hheader
        omega
      have hfront : bytesAt b.mem p 4 = write4Bytes 1 := by
        have htake : (x.bytes.take n).take 4 = write4Bytes 1 := by
          rw [List.take_take, Nat.min_eq_left (by omega), Box.bytes, Box.header, if_pos hwide, List.append_assoc]
          rfl
        rw [← htake]
        apply bytesAt_take hmem
        rw [List.length_take, length_boxBytes, Box.size]
        omega
      apply hword
      unfold Buffer.word Buffer.bytes
      rw [hfront, read4Bytes_write4Bytes_of_lt (by decide)]
  intro h
  cases h with
  | done hmore _ => exact absurd ⟨rfl, by omega⟩ (of_decide_eq_false hmore)
  | next R _ hturn _ => exact hcontent hturn.left

/--
Zeros behind the header of free space are taken for a box without any bytes, which the walk does not get past.
-/
theorem not_bufferChain_zeros (hmem : HoldsAt b.mem p (List.replicate 8 0)) (hlen : p + 8 ≤ b.size)
    (hbase : base + b.size < 2 ^ 64)
    : ¬bufferChain base b Q (p, true) := by
  have hzeros {i len : Nat} (hle : i + len ≤ 8) : b.bytes (p + i) len = List.replicate len 0 := by
    unfold Buffer.bytes
    rw [bytesAt_take (hmem.drop i), List.drop_replicate, List.take_replicate, Nat.min_eq_left (by omega)]
    rw [List.length_drop, List.length_replicate]
    omega
  have hword : b.word p = 0 := by
    unfold Buffer.word
    exact congrArg read4Bytes (hzeros (Nat.le_of_ble_eq_true rfl : 0 + 4 ≤ 8))
  have hheader : b.headerLen p = 8 := by
    rw [Buffer.headerLen, hword]
    rfl
  have hsize : b.boxSize p = 0 := by
    rw [Buffer.boxSize, hword]
    rfl
  have htype : b.boxType p = List.replicate 4 0 := hzeros (by omega)
  have hsum : (base + p + 0) % 2 ^ 64 = base + p + 0 := Nat.mod_eq_of_lt (by omega)
  apply not_chain_of_back
  . exact decide_eq_true ⟨rfl, by omega⟩
  . rintro R ⟨-, hturn⟩
    rw [hsize, hsum, if_neg (by omega), htype] at hturn
    have hrest : anyFits b b.size p fun next => R (next, true) := hturn
    have hback := hrest.right
    rwa [Buffer.boxEnd, hsize, Nat.add_zero] at hback

end Buffers

section Movies

variable {front tail : List UInt8}

theorem holdsAt_front (front tail : List UInt8) : HoldsAt (Buffer.ofList (front ++ tail)).mem 0 front :=
  (holdsAt_getD (front ++ tail) 0).left

theorem holdsAt_tail (front tail : List UInt8)
    : HoldsAt (Buffer.ofList (front ++ tail)).mem front.length tail :=
  (holdsAt_getD (front ++ tail) 0).right (Nat.zero_add _).symm

theorem sourceData_behind {movie : Movie} (hpacked : movie.Packed)
    (hbase : base + (Buffer.ofList (movie.bytes ++ tail)).size < 2 ^ 64)
    : (sourceData base (.ofList (movie.bytes ++ tail))).Ends Mark.Good Q
        ↔ bufferChain base (.ofList (movie.bytes ++ tail)) Q (movie.bytes.length, true) := by
  have hlen : 0 + movie.bytes.length ≤ (Buffer.ofList (movie.bytes ++ tail)).size := by
    change 0 + movie.bytes.length ≤ (movie.bytes ++ tail).length
    rw [List.length_append]
    omega
  have hboxes := bufferChain_boxes (Q := Q) movie.root hpacked hbase (holdsAt_front movie.bytes tail) hlen
  rw [ends_sourceData]
  rw [Nat.zero_add] at hboxes
  exact hboxes

def sampleHandler : List UInt8 := List.replicate 8 0 ++ (Mp4.soun ++ List.replicate 12 0)

theorem hdlr_sampleHandler : Layout.Hdlr sampleHandler := by
  change 24 ≤ sampleHandler.length
  decide

theorem handlerTypeOf_sampleHandler : Layout.handlerTypeOf sampleHandler = Mp4.soun := by
  decide

def sampleMovie : Movie :=
  let stts : Box := ⟨false, utf8 "stts", List.replicate 8 0, rfl, by decide⟩
  let stbl : Box := ⟨false, utf8 "stbl", stts.bytes, rfl, by decide⟩
  let minf : Box := ⟨false, utf8 "minf", stbl.bytes, rfl, by decide⟩
  let hdlr : Box := ⟨false, utf8 "hdlr", sampleHandler, rfl, by decide⟩
  let mdia : Box := ⟨false, utf8 "mdia", hdlr.bytes ++ minf.bytes, rfl, by decide⟩
  let trak : Box := ⟨false, utf8 "trak", mdia.bytes, rfl, by decide⟩
  let moov : Box := ⟨false, utf8 "moov", trak.bytes, rfl, by decide⟩
  have hstbl : Layout.Stbl Mp4.soun stbl.body := ⟨[stts], rfl, .cons ⟨rfl, rfl⟩ .nil⟩
  have hminf : Layout.Minf Mp4.soun minf.body := ⟨[stbl], rfl, .cons ⟨hstbl, rfl⟩ .nil⟩
  have hmdia : Layout.Mdia [] mdia.body Mp4.soun :=
    ⟨[hdlr, minf], rfl, .cons ⟨hdlr_sampleHandler, handlerTypeOf_sampleHandler.symm⟩ (.cons ⟨hminf, rfl⟩ .nil)⟩
  have htrak : Layout.Trak trak.body := ⟨Mp4.soun, [mdia], rfl, .cons hmdia .nil⟩
  { boxes := [moov]
    root := by
      intro x hx
      cases List.mem_singleton.mp hx
      exact (⟨[trak], rfl, .cons ⟨htrak, rfl⟩ .nil⟩ : Layout.Moov trak.bytes) }

theorem packed_sampleMovie : sampleMovie.Packed := by
  rintro x hx hfree
  cases List.mem_singleton.mp hx
  exact absurd hfree (by decide)

def sampleData : Box := ⟨false, utf8 "mdat", [1, 2, 3, 4], rfl, by decide⟩

def sampleSpace : Box := ⟨false, utf8 "free", List.replicate 16 0, rfl, by decide⟩

end Movies

section Files

/--
The rest of a file behind its boxes: a part of one more box, which is less than 2 GiB of it.
-/
def CutBox (tail : List UInt8) : Prop := ∃ (x : Box) (n : Nat), n < x.size ∧ n < 2 ^ 31 ∧ tail = x.bytes.take n

variable {file buffer tail : List UInt8} {offset : Nat} {Q : Unit → Prop}

abbrev fileChain (file : List UInt8) (Q : Unit → Prop) : Nat × List UInt8 × Bool → Prop :=
  Chain (fun s => s.2.2) (FileTurn file) fun _ => Q ()

theorem readFewer_of_lt {read len : Nat} (hread : read < 2 ^ 31) (hlt : read < len) : readFewer read len = true := by
  have hmod : Int.bmod read (2 ^ 32) = read := by
    apply Int.bmod_eq_of_le
    . omega
    . omega
  unfold readFewer
  rw [hmod]
  apply decide_eq_true
  omega

theorem fileChain_short (hshort : (readFile file offset minSize).length < minSize)
    : fileChain file Q (offset, buffer, true) ↔ Q () := by
  refine Iff.trans (chain_step (offset, frontRead file offset buffer, false) rfl ?_) (chain_of_not_more rfl)
  intro R
  unfold FileTurn
  exact Iff.of_eq (if_pos hshort)

theorem headerRead_front (hdrop : file.drop offset = x.header ++ tail)
    : HeaderRead (.ofList (frontRead file offset buffer)) 0 x
        ∧ x.headerLen ≤ (frontRead file offset buffer).length := by
  have hle : x.headerLen ≤ minSize := headerLen_le x
  have hread : readFile file offset minSize = x.header ++ tail.take (minSize - x.headerLen) := by
    unfold readFile
    rw [hdrop, List.take_append, length_header, List.take_of_length_le (by rw [length_header]; exact hle)]
  have hfront : ∃ rest, frontRead file offset buffer = x.header ++ rest := by
    unfold frontRead readTo
    rw [hread, List.append_assoc]
    exact ⟨_, rfl⟩
  obtain ⟨rest, hfront⟩ := hfront
  rw [hfront, List.length_append, length_header]
  exact ⟨headerRead (holdsAt_getD _ 0), Nat.le_add_right _ _⟩

theorem fileTurn_iff (hlong : minSize ≤ (readFile file offset minSize).length)
    (hdrop : file.drop offset = x.header ++ tail) {R : Nat × List UInt8 × Bool → Prop}
    : FileTurn file (offset, buffer, true) R
        ↔ if readFewer (readFile file offset x.size).length x.size then
            R (offset, boxRead file offset x.size (frontRead file offset buffer), false)
          else
            rootFits (.ofList (boxRead file offset x.size (frontRead file offset buffer))) x.type 0 fun _ =>
              R (offset + x.size, boxRead file offset x.size (frontRead file offset buffer), true) := by
  obtain ⟨hread, hlen⟩ : HeaderRead (.ofList (frontRead file offset buffer)) 0 x
      ∧ x.headerLen ≤ (frontRead file offset buffer).length := headerRead_front hdrop
  have hcontent : (Buffer.ofList (frontRead file offset buffer)).content 0
      ≤ (Buffer.ofList (frontRead file offset buffer)).size := by
    rw [Buffer.content, hread.headerLen, Nat.zero_add]
    exact hlen
  simp only [FileTurn]
  rw [if_neg (Nat.not_lt.mpr hlong), and_iff_right hcontent, hread.boxSize, hread.boxType]

theorem fileChain_cut (hdrop : file.drop offset = tail) (hcut : CutBox tail)
    : fileChain file Q (offset, buffer, true) ↔ Q () := by
  obtain ⟨x, n, hn, hlt, rfl⟩ := hcut
  by_cases hlong : minSize ≤ (readFile file offset minSize).length
  . have hlen : (x.bytes.take n).length = n := by
      rw [List.length_take, length_boxBytes, Nat.min_eq_left (by omega)]
    have hread : (readFile file offset x.size).length = n := by
      unfold readFile
      rw [hdrop, List.length_take, hlen, Nat.min_eq_right (by omega)]
    have hheader : x.headerLen ≤ n := by
      have hle : x.headerLen ≤ minSize := headerLen_le x
      unfold readFile at hlong
      rw [hdrop, List.length_take, hlen] at hlong
      omega
    rw [take_bytes hheader] at hdrop
    refine Iff.trans (chain_step (offset, boxRead file offset x.size (frontRead file offset buffer), false) rfl ?_)
      (chain_of_not_more rfl)
    intro R
    rw [fileTurn_iff hlong hdrop, hread, readFewer_of_lt hlt hn, if_pos rfl]
  . exact fileChain_short (Nat.lt_of_not_le hlong)

theorem fileChain_boxes (hroot : ∀ x ∈ xs, Layout.Root x) (hcut : CutBox tail)
    (hdrop : file.drop offset = xs.flatMap Box.bytes ++ tail)
    : fileChain file Q (offset, buffer, true) ↔ Q () := by
  induction xs generalizing offset buffer with
  | nil => exact fileChain_cut hdrop hcut
  | cons x xs ih =>
    rw [List.flatMap_cons, List.append_assoc] at hdrop
    have hnext : file.drop (offset + x.size) = xs.flatMap Box.bytes ++ tail := by
      rw [← List.drop_drop, hdrop, ← length_boxBytes, List.drop_left]
    by_cases hlong : minSize ≤ (readFile file offset minSize).length
    . have hread : readFile file offset x.size = x.bytes := by
        unfold readFile
        rw [hdrop, ← length_boxBytes, List.take_left]
      have hat : At (.ofList (boxRead file offset x.size (frontRead file offset buffer)))
          (boxRead file offset x.size (frontRead file offset buffer)).length 0 x := by
        unfold boxRead readTo
        rw [hread]
        refine ⟨holdsAt_front _ _, ?_, Nat.le_refl _⟩
        rw [List.length_append, length_boxBytes]
        omega
      have hheader : file.drop offset = x.header ++ (x.body ++ (xs.flatMap Box.bytes ++ tail)) := by
        rw [hdrop, Box.bytes, List.append_assoc]
      by_cases hfewer : readFewer x.size x.size = true
      . refine Iff.trans (chain_step (offset, boxRead file offset x.size (frontRead file offset buffer), false) rfl ?_)
          (chain_of_not_more rfl)
        intro R
        rw [fileTurn_iff hlong hheader, hread, length_boxBytes, if_pos hfewer]
      . refine Iff.trans
          (chain_step (offset + x.size, boxRead file offset x.size (frontRead file offset buffer), true) rfl ?_)
          (ih (fun y hy => hroot y (List.mem_cons_of_mem _ hy)) hnext)
        intro R
        rw [fileTurn_iff hlong hheader, hread, length_boxBytes, if_neg hfewer]
        exact rootFits_iff_const hat (hroot x List.mem_cons_self)
    . exact fileChain_short (Nat.lt_of_not_le hlong)

end Files

end Mp4.Boxes
