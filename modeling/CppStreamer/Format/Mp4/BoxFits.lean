import CppStreamer.Format.Mp4.BoxWalk

/-!
This module contains what the bytes of a box have to be like for its parser to end and to read only what it may, for the
boxes that have no others in them.

What follows on a box is asked of the position where the walk goes on, and not at all where an exception is thrown.
-/

open ByteStream Checked Looping Reading StringEx

namespace Mp4.Boxes

namespace Buffer

variable (b : Buffer)

def bytes (p len : Nat) : List UInt8 := bytesAt b.mem p len

def word (p : Nat) : Nat := read4Bytes (b.bytes p 4)

/--
The size that a box has according to its header, and the length of the header.
-/
def boxSize (p : Nat) : Nat := if b.word p = 1 then read8Bytes (b.bytes (p + 8) 8) else b.word p

def headerLen (p : Nat) : Nat := if b.word p = 1 then 16 else 8

def boxType (p : Nat) : List UInt8 := b.bytes (p + 4) 4

def content (p : Nat) : Nat := p + b.headerLen p

def boxEnd (p : Nat) : Nat := p + b.boxSize p

def base (p : Nat) : Mp4BoxBase := ⟨b.boxSize p, b.boxType p, b.headerLen p⟩

/--
The header is in the buffer, and the box in the one around it, which ends at `stop`.
-/
structure Placed (stop p : Nat) : Prop where
  header : b.content p ≤ b.size
  inside : b.boxEnd p ≤ stop

end Buffer

variable {b : Buffer} {stop p len count : Nat} {widths : List Nat}

section Reads

@[simp]
theorem ends_assert {q : Prop} [Decidable q] {Q : Unit → Prop} : (assert q).Ends Mark.Good Q ↔ q ∧ Q () := by
  unfold assert
  rw [ends_check]
  apply and_congr_left
  intro _
  exact decide_eq_true_iff

@[simp]
theorem ends_read {Q : List UInt8 → Prop}
    : (b.read p len).Ends Mark.Good Q ↔ p + len ≤ b.size ∧ Q (b.bytes p len) := by
  unfold Buffer.read
  rw [ends_lift]
  exact and_congr_left fun _ => readBytes_passes

@[simp]
theorem ends_read4 {Q : Nat → Prop} : (b.read4 p).Ends Mark.Good Q ↔ p + 4 ≤ b.size ∧ Q (b.word p) := by
  unfold Buffer.read4
  rw [ends_bind, ends_read, ends_pure]
  rfl

theorem ends_fieldsAs {note : Span → Mark} {limit : Nat}
    (hnote : ∀ span : Span, (note span).Good ↔ span.Within limit) (hne : widths ≠ []) {Q : Nat → Prop}
    : (b.fieldsAs note widths p).Ends Mark.Good Q ↔ p + widths.sum ≤ limit ∧ Q (p + widths.sum) := by
  induction widths generalizing p with
  | nil => exact absurd rfl hne
  | cons width widths ih =>
    have hspan : (readBytes b.mem p width).Passes (fun span => (note span).Good) ↔ p + width ≤ limit := by
      simp only [hnote]
      exact readBytes_passes
    rw [Buffer.fieldsAs, ends_bind, ends_lift, hspan, List.sum_cons, ← Nat.add_assoc]
    cases widths with
    | nil => simp [Buffer.fieldsAs]
    | cons width' widths =>
      rw [ih (List.cons_ne_nil _ _), and_iff_right_of_imp]
      rintro ⟨h, -⟩
      omega

theorem ends_fields (hne : widths ≠ []) {Q : Nat → Prop}
    : (b.fields widths p).Ends Mark.Good Q ↔ p + widths.sum ≤ b.size ∧ Q (p + widths.sum) :=
  ends_fieldsAs (fun _ => Iff.rfl) hne

theorem ends_word {Q : Nat → Prop} : (b.fields [4] p).Ends Mark.Good Q ↔ p + 4 ≤ b.size ∧ Q (p + 4) :=
  ends_fields (List.cons_ne_nil _ _)

theorem ends_pair {Q : Nat → Prop} : (b.fields [4, 4] p).Ends Mark.Good Q ↔ p + 8 ≤ b.size ∧ Q (p + 8) :=
  ends_fields (List.cons_ne_nil _ _)

theorem ends_triple {Q : Nat → Prop} : (b.fields [4, 4, 4] p).Ends Mark.Good Q ↔ p + 12 ≤ b.size ∧ Q (p + 12) :=
  ends_fields (List.cons_ne_nil _ _)

theorem ends_row (hstop : stop ≤ b.size) (hne : widths ≠ []) {Q : Nat → Prop}
    : (b.row stop widths p).Ends Mark.Good Q ↔ p + widths.sum ≤ stop ∧ Q (p + widths.sum) := by
  apply ends_fieldsAs _ hne
  intro span
  apply and_iff_left_of_imp
  intro h
  exact Nat.le_trans h hstop

theorem ends_wordRow (hstop : stop ≤ b.size) {Q : Nat → Prop}
    : (b.row stop [4] p).Ends Mark.Good Q ↔ p + 4 ≤ stop ∧ Q (p + 4) :=
  ends_row hstop (List.cons_ne_nil _ _)

theorem ends_tripleRow (hstop : stop ≤ b.size) {Q : Nat → Prop}
    : (b.row stop [4, 4, 4] p).Ends Mark.Good Q ↔ p + 12 ≤ stop ∧ Q (p + 12) :=
  ends_row hstop (List.cons_ne_nil _ _)

theorem ends_entryBox (hstop : stop ≤ b.size) {Q : Unit → Prop}
    : (entryBox b stop p).Ends Mark.Good Q ↔ p + 8 ≤ stop ∧ Q () := by
  unfold entryBox
  rw [ends_check]
  apply and_congr_left
  intro _
  apply and_iff_left_of_imp
  intro h
  exact Nat.le_trans h hstop

theorem ends_rows {body : Nat → Walk Nat} {width : Nat}
    (hbody : ∀ p (Q : Nat → Prop), (body p).Ends Mark.Good Q ↔ p + width ≤ stop ∧ Q (p + width)) {Q : Nat → Prop}
    : (times body count p).Ends Mark.Good Q
        ↔ (count = 0 ∨ p + width * count ≤ stop) ∧ Q (p + width * count) := by
  induction count generalizing p with
  | zero => simp [ends_times_zero]
  | succ count ih =>
    have hsum : p + width * (count + 1) = p + width + width * count := by
      rw [Nat.mul_succ]
      omega
    rw [ends_times_succ, hbody, ih, hsum]
    constructor
    . rintro ⟨hrow, hrest, hq⟩
      refine ⟨Or.inr ?_, hq⟩
      rcases hrest with rfl | hrest
      . exact hrow
      . exact hrest
    . rintro ⟨hrest | hrest, hq⟩
      . exact absurd hrest (Nat.succ_ne_zero count)
      . exact ⟨by omega, Or.inr hrest, hq⟩

theorem ends_pairRow (hstop : stop ≤ b.size) {Q : Nat → Prop}
    : (pairRow b stop p).Ends Mark.Good Q ↔ p + 8 ≤ stop ∧ Q (p + 8) := by
  unfold pairRow
  simp only [ends_bind, ends_row hstop (List.cons_ne_nil _ _), ends_assert, ends_pure]
  exact and_congr_right fun h => and_iff_right h

theorem headerLen_cases (b : Buffer) (p : Nat)
    : (b.word p = 1 ∧ b.headerLen p = 16 ∧ b.boxSize p = read8Bytes (b.bytes (p + 8) 8))
        ∨ (b.word p ≠ 1 ∧ b.headerLen p = 8 ∧ b.boxSize p = b.word p) := by
  unfold Buffer.headerLen Buffer.boxSize
  by_cases hlarge : b.word p = 1
  . rw [if_pos hlarge, if_pos hlarge]
    exact Or.inl ⟨hlarge, rfl, rfl⟩
  . rw [if_neg hlarge, if_neg hlarge]
    exact Or.inr ⟨hlarge, rfl, rfl⟩

@[simp]
theorem ends_getBoxHeaderInfo {Q : Nat × List UInt8 → Prop}
    : (getBoxHeaderInfo b p).Ends Mark.Good Q ↔ b.content p ≤ b.size ∧ Q (b.boxSize p, b.boxType p) := by
  unfold getBoxHeaderInfo Buffer.content
  rw [ends_bind, ends_read4]
  rcases headerLen_cases b p with ⟨hword, hlen, hsize⟩ | ⟨hword, hlen, hsize⟩
  . simp only [hword, if_pos, ends_bind, ends_read, ends_pure, hlen, hsize]
    constructor
    . rintro ⟨-, hread, -, hq⟩
      exact ⟨by omega, hq⟩
    . rintro ⟨hread, hq⟩
      exact ⟨by omega, by omega, by omega, hq⟩
  . simp only [if_neg hword, ends_bind, ends_read, ends_pure, hlen, hsize]
    constructor
    . rintro ⟨-, hread, hq⟩
      exact ⟨by omega, hq⟩
    . rintro ⟨hread, hq⟩
      exact ⟨by omega, by omega, hq⟩

theorem content_base : p + (b.base p).offset = b.content p := by
  rw [Buffer.content, Buffer.base]

theorem boxEnd_base : p + (b.base p).boxSize = b.boxEnd p := by
  rw [Buffer.boxEnd, Buffer.base]

@[simp]
theorem ends_base {Q : Mp4BoxBase → Prop}
    : (Mp4BoxBase.parse b stop p).Ends Mark.Good Q
        ↔ b.Placed stop p ∧ Q (b.base p) := by
  have hplaced : b.Placed stop p ↔ b.content p ≤ b.size ∧ b.boxEnd p ≤ stop := ⟨fun h => ⟨h.1, h.2⟩, fun h => ⟨h.1, h.2⟩⟩
  unfold Mp4BoxBase.parse
  rw [hplaced, Buffer.content, Buffer.boxEnd, Buffer.base, ends_bind, ends_read4]
  rcases headerLen_cases b p with ⟨hword, hlen, hsize⟩ | ⟨hword, hlen, hsize⟩
  . simp only [hword, if_pos, ends_bind, ends_read, ends_check, ends_pure, hlen, hsize, Mark.Good]
    constructor
    . rintro ⟨-, -, hread, hchild, hq⟩
      exact ⟨⟨hread, hchild⟩, hq⟩
    . rintro ⟨⟨hread, hchild⟩, hq⟩
      exact ⟨by omega, by omega, hread, hchild, hq⟩
  . simp only [if_neg hword, ends_bind, ends_read, ends_check, ends_pure, hlen, hsize, Mark.Good]
    constructor
    . rintro ⟨-, hread, hchild, hq⟩
      exact ⟨⟨by omega, hchild⟩, hq⟩
    . rintro ⟨⟨hread, hchild⟩, hq⟩
      exact ⟨by omega, by omega, hchild, hq⟩

end Reads

section Leaves

/--
What the rest of the walk is asked is passed on as `Q`.
-/
abbrev Condition : Type := Buffer → Nat → Nat → (Nat → Prop) → Prop

/--
A box with `extra` bytes behind its header.
-/
def Sized (extra : Nat) : Condition := fun b stop p Q =>
  b.Placed stop p ∧ b.boxSize p = b.headerLen p + extra ∧ Q (b.boxEnd p)

/--
The length of a time, which only the first version of a box has in 32 bits.
-/
def timeLen (b : Buffer) (p : Nat) : Nat := if b.word (b.content p) / 2 ^ 24 = 0 then 4 else 8

def entryCount (b : Buffer) (p : Nat) : Nat := b.word (b.content p + 4)

def FtypBox.Fits : Condition := fun b stop p Q => ∃ brands ≤ brandsMax, Sized (8 + 4 * brands) b stop p Q

def MvhdBox.Fits : Condition := Sized 100

def TkhdBox.Fits : Condition := fun b stop p => Sized (72 + 3 * timeLen b p) b stop p

/--
The size is not compared with the fields.
-/
def MdhdBox.Fits : Condition := fun b stop p Q =>
  b.Placed stop p ∧ b.content p + (8 + 3 * timeLen b p) ≤ b.size ∧ Q (b.boxEnd p)

def handlerTypeOf (b : Buffer) (p : Nat) : List UInt8 := uint32ToString (b.bytes (b.content p + 8) 4)

def HdlrBox.Fits (b : Buffer) (stop p : Nat) (Q : Nat × List UInt8 → Prop) : Prop :=
  b.Placed stop p ∧ b.content p + 24 ≤ b.size ∧ (b.content p + 24 ≤ b.boxEnd p → Q (b.boxEnd p, handlerTypeOf b p))

def SmhdBox.Fits : Condition := Sized 8

def VmhdBox.Fits : Condition := Sized 12

def restFits : Condition := fun b stop p Q =>
  b.Placed stop p ∧ b.content p + 4 ≤ b.size ∧ (b.content p + 4 ≤ b.boxEnd p → Q (b.boxEnd p))

def UrlBox.Fits : Condition := restFits

/--
The boxes of the entries end where this one does.
-/
def DrefBox.Fits : Condition := fun b stop p Q =>
  b.Placed stop p ∧ b.content p + 8 ≤ b.size
    ∧ Times (fun entry R => entry + 8 ≤ b.boxEnd p ∧ UrlBox.Fits b (b.boxEnd p) entry R)
      (fun last => last = b.boxEnd p ∧ Q (b.boxEnd p)) (entryCount b p) (b.content p + 8)

def DinfBox.Fits : Condition := fun b stop p Q =>
  b.Placed stop p ∧ DrefBox.Fits b (b.boxEnd p) (b.content p) fun last => last = b.boxEnd p ∧ Q (b.boxEnd p)

def SttsBox.Fits : Condition := fun b stop p => Sized (8 + 8 * entryCount b p) b stop p

def openTable (width : Nat) : Condition := fun b stop p Q =>
  b.Placed stop p ∧ b.content p + 8 ≤ b.size
    ∧ (entryCount b p = 0 ∨ b.content p + 8 + width * entryCount b p ≤ b.boxEnd p) ∧ Q (b.boxEnd p)

def StssBox.Fits : Condition := openTable 4

def CttsBox.Fits : Condition := openTable 8

/--
There may be fewer entries than announced.
-/
def StscBox.Fits : Condition := fun b stop p Q => ∃ count ≤ entryCount b p, Sized (8 + 12 * count) b stop p Q

def StszBox.Fits : Condition := fun b stop p =>
  Sized (if entryCount b p = 0 then 12 + 4 * b.word (b.content p + 8) else 12) b stop p

def StcoBox.Fits : Condition := fun b stop p => Sized (8 + 4 * entryCount b p) b stop p

def ElstBox.Fits : Condition := fun b stop p =>
  Sized (8 + (2 * timeLen b p + 4) * entryCount b p) b stop p

def EdtsBox.Fits : Condition := fun b stop p Q =>
  b.Placed stop p ∧ ElstBox.Fits b (b.boxEnd p) (b.content p) fun last => last = b.boxEnd p ∧ Q (b.boxEnd p)

def MetaBox.Fits : Condition := restFits

def UdtaBox.Fits : Condition := fun b stop p Q =>
  b.Placed stop p
    ∧ if b.content p < b.boxEnd p then
        MetaBox.Fits b (b.boxEnd p) (b.content p) fun last => last = b.boxEnd p ∧ Q (b.boxEnd p)
      else b.content p = b.boxEnd p ∧ Q (b.boxEnd p)

def anyFits : Condition := fun b stop p Q => b.Placed stop p ∧ Q (b.boxEnd p)

def FreeBox.Fits : Condition := fun b stop p Q => b.Placed stop p ∧ Q (b.content p)

variable {Q : Nat → Prop}

theorem Buffer.Placed.end_le (h : b.Placed stop p) (hstop : stop ≤ b.size) : b.boxEnd p ≤ b.size :=
  Nat.le_trans h.inside hstop

theorem boxEnd_eq {extra : Nat} : b.content p + extra = b.boxEnd p ↔ b.boxSize p = b.headerLen p + extra := by
  unfold Buffer.content Buffer.boxEnd
  omega

theorem ends_fixedBox (hstop : stop ≤ b.size) (hne : widths ≠ [])
    : (fixedBox widths b stop p).Ends Mark.Good Q ↔ Sized widths.sum b stop p Q := by
  unfold fixedBox Sized
  rw [ends_bind, ends_base]
  apply and_congr_right
  intro hplaced
  have hend := hplaced.end_le hstop
  simp only [ends_bind, ends_fields hne, ends_assert, ends_pure]
  rw [content_base, boxEnd_base, ← boxEnd_eq]
  apply and_iff_right_of_imp
  rintro ⟨hsize, -⟩
  omega

theorem ends_tableBox {body : Nat → Nat → Walk Nat} {Q : Mp4BoxBase × Nat → Prop}
    : (tableBox body b stop p).Ends Mark.Good Q
        ↔ b.Placed stop p ∧ b.content p + 8 ≤ b.size
          ∧ (times (body (b.boxEnd p)) (entryCount b p) (b.content p + 8)).Ends Mark.Good
            fun last => Q (b.base p, last) := by
  unfold tableBox
  rw [ends_bind, ends_base]
  apply and_congr_right
  intro _
  simp only [ends_bind, ends_word, ends_read4, ends_pure, content_base,
    boxEnd_base, Nat.add_assoc]
  constructor
  . rintro ⟨-, hcount, h⟩
    exact ⟨hcount, h⟩
  . rintro ⟨hcount, h⟩
    exact ⟨by omega, hcount, h⟩

theorem ends_closedTable {body : Nat → Nat → Walk Nat} {width : Nat} (hstop : stop ≤ b.size)
    (hbody : ∀ stop ≤ b.size, ∀ p (Q : Nat → Prop), (body stop p).Ends Mark.Good Q ↔ p + width ≤ stop ∧ Q (p + width))
    : (tableBox body b stop p).Ends Mark.Good (fun r => r.2 = p + r.1.boxSize ∧ Q (p + r.1.boxSize))
        ↔ Sized (8 + width * entryCount b p) b stop p Q := by
  rw [ends_tableBox, Sized]
  apply and_congr_right
  intro hplaced
  have hend := hplaced.end_le hstop
  rw [ends_rows (hbody _ hend), ← boxEnd_eq, boxEnd_base, ← Nat.add_assoc]
  constructor
  . rintro ⟨-, -, h⟩
    exact h
  . rintro ⟨hsize, hq⟩
    exact ⟨by omega, Or.inr (by omega), hsize, hq⟩

theorem ends_openTable {body : Nat → Nat → Walk Nat} {width : Nat} (hstop : stop ≤ b.size)
    (hbody : ∀ stop ≤ b.size, ∀ p (Q : Nat → Prop), (body stop p).Ends Mark.Good Q ↔ p + width ≤ stop ∧ Q (p + width))
    : (tableBox body b stop p).Ends Mark.Good (fun r => Q (p + r.1.boxSize)) ↔ openTable width b stop p Q := by
  rw [ends_tableBox, openTable]
  apply and_congr_right
  intro hplaced
  rw [ends_rows (hbody _ (hplaced.end_le hstop)), boxEnd_base]

theorem MvhdBox.ends_parse (hstop : stop ≤ b.size)
    : (MvhdBox.parse b stop p).Ends Mark.Good Q ↔ MvhdBox.Fits b stop p Q :=
  ends_fixedBox hstop (List.cons_ne_nil _ _)

theorem SmhdBox.ends_parse (hstop : stop ≤ b.size)
    : (SmhdBox.parse b stop p).Ends Mark.Good Q ↔ SmhdBox.Fits b stop p Q :=
  ends_fixedBox hstop (List.cons_ne_nil _ _)

theorem VmhdBox.ends_parse (hstop : stop ≤ b.size)
    : (VmhdBox.parse b stop p).Ends Mark.Good Q ↔ VmhdBox.Fits b stop p Q :=
  ends_fixedBox hstop (List.cons_ne_nil _ _)

theorem SttsBox.ends_parse (hstop : stop ≤ b.size)
    : (SttsBox.parse b stop p).Ends Mark.Good Q ↔ SttsBox.Fits b stop p Q := by
  rw [SttsBox.Fits, ← ends_closedTable hstop fun _ h _ _ => ends_pairRow h]
  simp only [SttsBox.parse, ends_bind, ends_assert, ends_pure]

theorem StssBox.ends_parse (hstop : stop ≤ b.size)
    : (StssBox.parse b stop p).Ends Mark.Good Q ↔ StssBox.Fits b stop p Q := by
  rw [StssBox.Fits, ← ends_openTable hstop fun _ h _ _ => ends_wordRow h]
  simp only [StssBox.parse, ends_bind, ends_pure]

theorem CttsBox.ends_parse (hstop : stop ≤ b.size)
    : (CttsBox.parse b stop p).Ends Mark.Good Q ↔ CttsBox.Fits b stop p Q := by
  rw [CttsBox.Fits, ← ends_openTable hstop fun _ h _ _ => ends_pairRow h]
  simp only [CttsBox.parse, ends_bind, ends_pure]

theorem StcoBox.ends_parse (hstop : stop ≤ b.size)
    : (StcoBox.parse b stop p).Ends Mark.Good Q ↔ StcoBox.Fits b stop p Q := by
  rw [StcoBox.Fits, ← ends_closedTable hstop fun _ h _ _ => ends_wordRow h]
  simp only [StcoBox.parse, ends_bind, ends_assert, ends_pure]

theorem sized_iff {extra : Nat} (hstop : stop ≤ b.size)
    : Sized extra b stop p Q
        ↔ b.Placed stop p ∧ b.content p + extra ≤ b.size ∧ b.content p + extra = b.boxEnd p ∧ Q (b.boxEnd p) := by
  unfold Sized
  rw [← boxEnd_eq]
  apply and_congr_right
  intro hplaced
  have hend := hplaced.end_le hstop
  symm
  apply and_iff_right_of_imp
  rintro ⟨hsize, -⟩
  omega

theorem TkhdBox.ends_parse (hstop : stop ≤ b.size)
    : (TkhdBox.parse b stop p).Ends Mark.Good Q ↔ TkhdBox.Fits b stop p Q := by
  have hsum (time : Nat)
      : ([time, time, 4, 4, time, 4, 4, 2, 2, 2, 2] ++ List.replicate 9 4 ++ [4, 4]).sum = 3 * time + 68 := by
    have hmatrix : (List.replicate 9 4).sum = 36 := rfl
    simp only [List.sum_append, List.sum_cons, List.sum_nil, hmatrix]
    omega
  have hne (time : Nat) : [time, time, 4, 4, time, 4, 4, 2, 2, 2, 2] ++ List.replicate 9 4 ++ [4, 4] ≠ [] :=
    List.append_ne_nil_of_right_ne_nil _ (List.cons_ne_nil _ _)
  have hextra : b.content p + 4 + (3 * timeLen b p + 68) = b.content p + (72 + 3 * timeLen b p) := by omega
  unfold TkhdBox.parse TkhdBox.Fits
  rw [sized_iff hstop, ends_bind, ends_base]
  apply and_congr_right
  intro _
  simp only [ends_bind, ends_read4, ends_fields (hne _), hsum, ends_assert, ends_pure]
  rw [content_base, boxEnd_base]
  change (_ ∧ b.content p + 4 + (3 * timeLen b p + 68) ≤ _ ∧ b.content p + 4 + (3 * timeLen b p + 68) = _ ∧ _) ↔ _
  rw [hextra]
  apply and_iff_right_of_imp
  rintro ⟨hread, -⟩
  omega

theorem MdhdBox.ends_parse : (MdhdBox.parse b stop p).Ends Mark.Good Q ↔ MdhdBox.Fits b stop p Q := by
  have hsum (time : Nat) : [time, time, 4, time].sum = 3 * time + 4 := by
    simp only [List.sum_cons, List.sum_nil]
    omega
  unfold MdhdBox.parse MdhdBox.Fits
  rw [ends_bind, ends_base]
  apply and_congr_right
  intro _
  simp only [ends_bind, ends_read4, ends_fields (List.cons_ne_nil _ _), hsum, ends_pure, content_base, boxEnd_base]
  change (_ ∧ b.content p + 4 + (3 * timeLen b p + 4) ≤ _ ∧ _) ↔ _
  constructor
  . rintro ⟨-, hread, hq⟩
    exact ⟨by omega, hq⟩
  . rintro ⟨hread, hq⟩
    exact ⟨by omega, by omega, hq⟩

theorem HdlrBox.ends_parse (hstop : stop ≤ b.size) {Q : Nat × List UInt8 → Prop}
    : (HdlrBox.parse b stop p).Ends Mark.Good Q ↔ HdlrBox.Fits b stop p Q := by
  unfold HdlrBox.parse HdlrBox.Fits
  rw [ends_bind, ends_base]
  apply and_congr_right
  intro hplaced
  have hend := hplaced.end_le hstop
  simp only [ends_bind, ends_pair,
    ends_triple, ends_read, ends_ite, ends_throw, ends_pure,
    content_base, boxEnd_base]
  constructor
  . rintro ⟨-, -, hread, hrest⟩
    refine ⟨by omega, fun hle => ?_⟩
    rw [if_neg (by omega)] at hrest
    exact hrest.right
  . rintro ⟨hread, hrest⟩
    refine ⟨by omega, by omega, by omega, ?_⟩
    split
    . trivial
    . exact ⟨by omega, hrest (by omega)⟩

theorem ends_restBox (hstop : stop ≤ b.size) : (restBox b stop p).Ends Mark.Good Q ↔ restFits b stop p Q := by
  unfold restBox restFits
  rw [ends_bind, ends_base]
  apply and_congr_right
  intro hplaced
  have hend := hplaced.end_le hstop
  simp only [ends_bind, ends_word, ends_read, ends_ite, ends_throw,
    ends_pure, content_base, boxEnd_base]
  apply and_congr_right
  intro _
  split
  . next hlt => exact iff_of_true trivial fun hle => absurd hlt (by omega)
  . next hle =>
    constructor
    . exact fun h _ => h.right
    . exact fun h => ⟨by omega, h (by omega)⟩

theorem DrefBox.ends_parse (hstop : stop ≤ b.size)
    : (DrefBox.parse b stop p).Ends Mark.Good Q ↔ DrefBox.Fits b stop p Q := by
  simp only [DrefBox.parse, ends_bind, ends_assert, ends_pure]
  rw [ends_tableBox, DrefBox.Fits]
  apply and_congr_right
  intro hplaced
  have hend := hplaced.end_le hstop
  apply and_congr_right
  intro _
  simp only [boxEnd_base]
  apply ends_times_iff
  intro entry R
  rw [ends_bind, ends_entryBox hend]
  exact and_congr_right fun _ => ends_restBox hend

theorem DinfBox.ends_parse (hstop : stop ≤ b.size)
    : (DinfBox.parse b stop p).Ends Mark.Good Q ↔ DinfBox.Fits b stop p Q := by
  unfold DinfBox.parse DinfBox.Fits
  rw [ends_bind, ends_base]
  apply and_congr_right
  intro hplaced
  rw [content_base, boxEnd_base, ends_bind, DrefBox.ends_parse (hplaced.end_le hstop)]
  simp only [ends_bind, ends_assert, ends_pure]

theorem ends_breakingRows (hstop : stop ≤ b.size) {R : Prop}
    : (times (fun p => if stop ≤ p then pure p else b.row stop [4, 4, 4] p) count p).Ends Mark.Good
          (fun last => last = stop ∧ R)
        ↔ ∃ k ≤ count, p + 12 * k = stop ∧ R := by
  induction count generalizing p with
  | zero =>
    rw [ends_times_zero]
    constructor
    . rintro ⟨hp, hr⟩
      exact ⟨0, Nat.le_refl 0, hp, hr⟩
    . rintro ⟨k, hk, hp, hr⟩
      exact ⟨by omega, hr⟩
  | succ count ih =>
    rw [ends_times_succ, ends_ite]
    split
    . next hle =>
      rw [ends_pure, ih]
      constructor
      . rintro ⟨k, hk, h⟩
        exact ⟨k, by omega, h⟩
      . rintro ⟨k, hk, hp, hr⟩
        exact ⟨0, Nat.zero_le _, by omega, hr⟩
    . next hlt =>
      rw [ends_tripleRow hstop, ih]
      constructor
      . rintro ⟨-, k, hk, hp, hr⟩
        exact ⟨k + 1, by omega, by omega, hr⟩
      . rintro ⟨k, hk, hp, hr⟩
        exact ⟨by omega, k - 1, by omega, by omega, hr⟩

theorem StscBox.ends_parse (hstop : stop ≤ b.size)
    : (StscBox.parse b stop p).Ends Mark.Good Q ↔ StscBox.Fits b stop p Q := by
  simp only [StscBox.parse, ends_bind, ends_assert, ends_pure]
  rw [ends_tableBox, StscBox.Fits]
  simp only [boxEnd_base, Sized, ← boxEnd_eq]
  constructor
  . rintro ⟨hplaced, -, h⟩
    obtain ⟨k, hk, hp, hq⟩ := (ends_breakingRows (hplaced.end_le hstop)).mp h
    exact ⟨k, hk, hplaced, by omega, hq⟩
  . rintro ⟨k, hk, hplaced, hp, hq⟩
    have hend := hplaced.end_le hstop
    exact ⟨hplaced, by omega, (ends_breakingRows hend).mpr ⟨k, hk, by omega, hq⟩⟩

theorem StszBox.ends_parse (hstop : stop ≤ b.size)
    : (StszBox.parse b stop p).Ends Mark.Good Q ↔ StszBox.Fits b stop p Q := by
  unfold StszBox.parse StszBox.Fits
  rw [sized_iff hstop, ends_bind, ends_base]
  apply and_congr_right
  intro hplaced
  have hend := hplaced.end_le hstop
  have hcount : b.content p + 4 + 4 = b.content p + 8 := Nat.add_assoc _ _ _
  simp only [ends_bind, ends_word, ends_read4, ends_assert, ends_pure,
    ends_ite, content_base, boxEnd_base, hcount]
  change (_ ∧ _ ∧ _ ∧ if entryCount b p = 0 then _ else _) ↔ _
  split
  . rw [ends_rows fun _ _ => ends_wordRow hend]
    constructor
    . rintro ⟨-, -, hread, -, hsize, hq⟩
      exact ⟨by omega, by omega, hq⟩
    . rintro ⟨hread, hsize, hq⟩
      exact ⟨by omega, by omega, by omega, Or.inr (by omega), by omega, hq⟩
  . constructor
    . rintro ⟨-, -, hread, hsize, hq⟩
      exact ⟨by omega, by omega, hq⟩
    . rintro ⟨hread, hsize, hq⟩
      exact ⟨by omega, by omega, by omega, by omega, hq⟩

theorem ElstBox.ends_parse (hstop : stop ≤ b.size)
    : (ElstBox.parse b stop p).Ends Mark.Good Q ↔ ElstBox.Fits b stop p Q := by
  unfold ElstBox.parse ElstBox.Fits
  rw [sized_iff hstop, ends_bind, ends_base]
  apply and_congr_right
  intro hplaced
  have hend := hplaced.end_le hstop
  have hsum (time : Nat) : [time, time, 2, 2].sum = 2 * time + 4 := by
    simp only [List.sum_cons, List.sum_nil]
    omega
  have hrow (time p' : Nat) (Q : Nat → Prop)
      : (b.row (b.boxEnd p) [time, time, 2, 2] p').Ends Mark.Good Q
        ↔ p' + (2 * time + 4) ≤ b.boxEnd p ∧ Q (p' + (2 * time + 4)) := by
    rw [ends_row hend (List.cons_ne_nil _ _), hsum]
  simp only [ends_bind, ends_read4, ends_rows (hrow _), ends_assert, ends_pure, content_base, boxEnd_base]
  change (_ ∧ _ ∧ (_ ∨ _ + (2 * timeLen b p + 4) * entryCount b p ≤ _)
    ∧ _ + (2 * timeLen b p + 4) * entryCount b p = _ ∧ _) ↔ _
  constructor
  . rintro ⟨-, -, -, hsize, hq⟩
    exact ⟨by omega, by omega, hq⟩
  . rintro ⟨hread, hsize, hq⟩
    exact ⟨by omega, by omega, Or.inr (by omega), by omega, hq⟩

theorem EdtsBox.ends_parse (hstop : stop ≤ b.size)
    : (EdtsBox.parse b stop p).Ends Mark.Good Q ↔ EdtsBox.Fits b stop p Q := by
  unfold EdtsBox.parse EdtsBox.Fits
  rw [ends_bind, ends_base]
  apply and_congr_right
  intro hplaced
  rw [content_base, boxEnd_base, ends_bind, ElstBox.ends_parse (hplaced.end_le hstop)]
  simp only [ends_bind, ends_assert, ends_pure]

theorem UdtaBox.ends_parse (hstop : stop ≤ b.size)
    : (UdtaBox.parse b stop p).Ends Mark.Good Q ↔ UdtaBox.Fits b stop p Q := by
  unfold UdtaBox.parse UdtaBox.Fits
  rw [ends_bind, ends_base]
  apply and_congr_right
  intro hplaced
  simp only [content_base, boxEnd_base, ends_bind, ends_ite, ends_assert, ends_pure]
  split
  . exact ends_restBox (hplaced.end_le hstop)
  . rfl

theorem MdatBox.ends_parse : (MdatBox.parse b stop p).Ends Mark.Good Q ↔ anyFits b stop p Q := by
  simp only [MdatBox.parse, ends_bind, ends_base, ends_pure, boxEnd_base, anyFits]

theorem FreeBox.ends_parse : (FreeBox.parse b stop p).Ends Mark.Good Q ↔ FreeBox.Fits b stop p Q := by
  simp only [FreeBox.parse, ends_bind, ends_base, ends_pure, content_base, FreeBox.Fits]

theorem ends_brands {i : Nat} (hstop : stop ≤ b.size) (hi : i ≤ brandsMax) {R : Prop}
    : (loop (fun s => s.1 < stop)
          (fun (p, i) => do
            Looping.check (.slot i brandsMax)
            let p ← b.row stop [4] p
            return (p, i + 1))
          (p, i)).Ends Mark.Good (fun s => s.1 = stop ∧ R)
        ↔ ∃ brands, i + brands ≤ brandsMax ∧ p + 4 * brands = stop ∧ R := by
  induction hleft : stop - p using Nat.strong_induction_on generalizing p i with
  | _ left ih =>
    subst hleft
    rw [ends_loop]
    simp only [decide_eq_true_eq, ends_bind, ends_check, ends_wordRow hstop, ends_pure, Mark.Good]
    split
    . next hlt =>
      constructor
      . rintro ⟨hslot, hrow, h⟩
        rw [ih (stop - (p + 4)) (by omega) hslot rfl] at h
        obtain ⟨brands, hbrands, hp, hr⟩ := h
        exact ⟨brands + 1, by omega, by omega, hr⟩
      . rintro ⟨brands, hbrands, hp, hr⟩
        have hslot : i + 1 ≤ brandsMax := by omega
        rw [ih (stop - (p + 4)) (by omega) hslot rfl]
        exact ⟨hslot, by omega, brands - 1, by omega, by omega, hr⟩
    . next hge =>
      constructor
      . rintro ⟨hp, hr⟩
        exact ⟨0, hi, hp, hr⟩
      . rintro ⟨brands, hbrands, hp, hr⟩
        exact ⟨by omega, hr⟩

theorem FtypBox.ends_parse (hstop : stop ≤ b.size)
    : (FtypBox.parse b stop p).Ends Mark.Good Q ↔ FtypBox.Fits b stop p Q := by
  unfold FtypBox.parse FtypBox.Fits
  simp only [ends_bind, ends_base, ends_pair, ends_assert, ends_pure, content_base, boxEnd_base, Sized, ← boxEnd_eq]
  constructor
  . rintro ⟨hplaced, -, h⟩
    obtain ⟨brands, hbrands, hp, hq⟩ := (ends_brands (hplaced.end_le hstop) (Nat.zero_le _)).mp h
    exact ⟨brands, by omega, hplaced, by omega, hq⟩
  . rintro ⟨brands, hbrands, hplaced, hp, hq⟩
    have hend := hplaced.end_le hstop
    exact ⟨hplaced, by omega, (ends_brands hend (Nat.zero_le _)).mpr ⟨brands, by omega, by omega, hq⟩⟩

theorem ends_unknownBox : (unknownBox b stop p).Ends Mark.Good Q ↔ anyFits b stop p Q := by
  simp only [unknownBox, ends_bind, ends_base, ends_pure, boxEnd_base, anyFits]

end Leaves

end Mp4.Boxes
