import CppStreamer.Format.Mp4.BoxLayout
import CppStreamer.Format.Mp4.DemuxWalk

/-!
This module contains that what the parsers of the boxes need of a buffer is there where a movie is laid out in it, so that
the demuxer comes to the end of every movie, and what comes of a movie that is cut.
-/

open ByteStream Checked Looping Reading StringEx
open Mp4.Layout (Box)

namespace Mp4.Boxes

structure At (b : Buffer) (stop p : Nat) (x : Box) : Prop where
  holds : HoldsAt b.mem p x.bytes
  inside : p + x.size ≤ stop
  bounded : stop ≤ b.size

variable {b : Buffer} {stop p : Nat} {x : Box} {Q : Nat → Prop} {σ : Type}

section Headers

theorem headerLen_of_wide (hwide : x.wide = true) : x.headerLen = 16 := if_pos hwide

theorem headerLen_of_narrow (hwide : ¬x.wide = true) : x.headerLen = 8 := if_neg hwide

theorem headerLen_ge (x : Box) : 8 ≤ x.headerLen := by
  unfold Box.headerLen
  split
  . omega
  . omega

theorem headerLen_le (x : Box) : x.headerLen ≤ 16 := by
  unfold Box.headerLen
  split
  . omega
  . omega

theorem length_header (x : Box) : x.header.length = x.headerLen := by
  unfold Box.header
  split
  . next hwide =>
    rw [headerLen_of_wide hwide, List.length_append, List.length_append, x.length_type]
    rfl
  . next hwide =>
    rw [headerLen_of_narrow hwide, List.length_append, x.length_type]
    rfl

theorem length_boxBytes (x : Box) : x.bytes.length = x.size := by
  rw [Box.bytes, List.length_append, length_header, Box.size]

theorem size_lt_of_wide (hwide : x.wide = true) : x.size < 2 ^ 64 := by
  have hlt := x.size_lt
  rwa [if_pos hwide, ← headerLen_of_wide hwide] at hlt

theorem size_lt_of_narrow (hwide : ¬x.wide = true) : x.size < 2 ^ 32 := by
  have hlt := x.size_lt
  rwa [if_neg hwide, ← headerLen_of_narrow hwide] at hlt

structure HeaderRead (b : Buffer) (p : Nat) (x : Box) : Prop where
  headerLen : b.headerLen p = x.headerLen
  boxSize : b.boxSize p = x.size
  boxType : b.boxType p = x.type

theorem headerRead (h : HoldsAt b.mem p (x.header ++ tail)) : HeaderRead b p x := by
  unfold Box.header at h
  by_cases hwide : x.wide = true
  . rw [if_pos hwide, List.append_assoc, List.append_assoc] at h
    have hrest : HoldsAt b.mem (p + 4) (x.type ++ (write8Bytes x.size ++ tail)) := h.right rfl
    have hsize : HoldsAt b.mem (p + 8) (write8Bytes x.size ++ tail) := by
      apply hrest.right
      rw [x.length_type]
    have hfront : bytesAt b.mem p 4 = write4Bytes 1 := bytesAt_append h rfl
    have hlong : bytesAt b.mem (p + 8) 8 = write8Bytes x.size := bytesAt_append hsize rfl
    have hword : b.word p = 1 := by
      unfold Buffer.word Buffer.bytes
      rw [hfront, read4Bytes_write4Bytes_of_lt (by decide)]
    refine ⟨?_, ?_, bytesAt_append hrest x.length_type.symm⟩
    . rw [headerLen_of_wide hwide, Buffer.headerLen, if_pos hword]
    . unfold Buffer.boxSize Buffer.bytes
      rw [if_pos hword, hlong, read8Bytes_write8Bytes (size_lt_of_wide hwide)]
  . rw [if_neg hwide, List.append_assoc] at h
    have hrest : HoldsAt b.mem (p + 4) (x.type ++ tail) := h.right rfl
    have hfront : bytesAt b.mem p 4 = write4Bytes x.size := bytesAt_append h rfl
    have hword : b.word p = x.size := by
      unfold Buffer.word Buffer.bytes
      rw [hfront, read4Bytes_write4Bytes_of_lt (size_lt_of_narrow hwide)]
    have hne : b.word p ≠ 1 := by
      have hlen := headerLen_ge x
      rw [hword, Box.size]
      omega
    refine ⟨?_, ?_, bytesAt_append hrest x.length_type.symm⟩
    . rw [headerLen_of_narrow hwide, Buffer.headerLen, if_neg hne]
    . rw [Buffer.boxSize, if_neg hne, hword]

end Headers

namespace At

theorem header (h : At b stop p x) : HeaderRead b p x := headerRead h.holds

theorem content_eq (h : At b stop p x) : b.content p = p + x.headerLen := by
  rw [Buffer.content, h.header.headerLen]

theorem boxEnd_eq (h : At b stop p x) : b.boxEnd p = p + x.size := by
  rw [Buffer.boxEnd, h.header.boxSize]

theorem content_add (h : At b stop p x) : b.content p + x.body.length = p + x.size := by
  rw [h.content_eq, Box.size, Nat.add_assoc]

theorem placed (h : At b stop p x) : b.Placed stop p := by
  have hadd := h.content_add
  have hinside := h.inside
  have hbounded := h.bounded
  refine ⟨by omega, ?_⟩
  rw [h.boxEnd_eq]
  exact hinside

theorem body (h : At b stop p x) : HoldsAt b.mem (b.content p) x.body := by
  apply h.holds.right
  rw [h.content_eq, length_header]

theorem bytes_body (h : At b stop p x) {i len : Nat} (hlen : i + len ≤ x.body.length)
    : b.bytes (b.content p + i) len = (x.body.drop i).take len := by
  apply bytesAt_take (h.body.drop i)
  rw [List.length_drop]
  omega

theorem word_body (h : At b stop p x) {i : Nat} (hlen : i + 4 ≤ x.body.length)
    : b.word (b.content p + i) = Layout.word x.body i := by
  have htake : ((x.body.drop i).take 4).length = 4 := by
    rw [List.length_take, List.length_drop]
    omega
  unfold Buffer.word Layout.word
  rw [h.bytes_body hlen, ← read4Bytes_append _ ((x.body.drop i).drop 4) (by omega), List.take_append_drop]

theorem timeLen_eq (h : At b stop p x) (hlen : 4 ≤ x.body.length) : timeLen b p = Layout.timeLen x.body := by
  have hword := h.word_body (i := 0) (by omega)
  unfold timeLen Layout.timeLen
  rw [← hword, Nat.add_zero]

theorem entryCount_eq (h : At b stop p x) (hlen : 8 ≤ x.body.length) : entryCount b p = Layout.word x.body 4 :=
  h.word_body (by omega)

theorem only (h : At b stop p x) {y : Box} (hy : x.body = y.bytes) : At b (b.boxEnd p) (b.content p) y where
  holds := hy ▸ h.body
  inside := by
    rw [h.boxEnd_eq, ← h.content_add, hy, length_boxBytes]
  bounded := h.placed.end_le h.bounded

theorem only_end (h : At b stop p x) {y : Box} (hy : x.body = y.bytes) : b.content p + y.size = b.boxEnd p := by
  rw [h.boxEnd_eq, ← h.content_add, hy, length_boxBytes]

end At

section Leaves

theorem sized_iff_of (h : At b stop p x) {extra : Nat} (hlen : x.body.length = extra)
    : Sized extra b stop p Q ↔ Q (p + x.size) := by
  unfold Sized
  rw [h.header.boxSize, h.header.headerLen, h.boxEnd_eq, and_iff_right h.placed, and_iff_right]
  rw [Box.size, hlen]

theorem anyFits_iff (h : At b stop p x) : anyFits b stop p Q ↔ Q (p + x.size) := by
  unfold anyFits
  rw [and_iff_right h.placed, h.boxEnd_eq]

theorem exists_sized_iff (h : At b stop p x) {bound : Nat} {extra : Nat → Nat}
    (hlen : ∃ n ≤ bound, x.body.length = extra n)
    : (∃ n ≤ bound, Sized (extra n) b stop p Q) ↔ Q (p + x.size) := by
  constructor
  . rintro ⟨n, -, -, -, hq⟩
    rwa [h.boxEnd_eq] at hq
  . intro hq
    obtain ⟨n, hn, hlen⟩ := hlen
    exact ⟨n, hn, (sized_iff_of h hlen).mpr hq⟩

theorem FtypBox.fits_iff (h : At b stop p x) (hx : Layout.Ftyp x.body) : FtypBox.Fits b stop p Q ↔ Q (p + x.size) :=
  exists_sized_iff h hx

theorem MvhdBox.fits_iff (h : At b stop p x) (hx : Layout.Mvhd x.body) : MvhdBox.Fits b stop p Q ↔ Q (p + x.size) :=
  sized_iff_of h hx

theorem TkhdBox.fits_iff (h : At b stop p x) (hx : Layout.Tkhd x.body) : TkhdBox.Fits b stop p Q ↔ Q (p + x.size) := by
  unfold Layout.Tkhd at hx
  unfold TkhdBox.Fits
  rw [h.timeLen_eq (by omega)]
  exact sized_iff_of h hx

theorem MdhdBox.fits_iff (h : At b stop p x) (hx : Layout.Mdhd x.body) : MdhdBox.Fits b stop p Q ↔ Q (p + x.size) := by
  have hadd := h.content_add
  have hinside := h.inside
  have hbounded := h.bounded
  unfold Layout.Mdhd at hx
  unfold MdhdBox.Fits
  rw [and_iff_right h.placed, h.timeLen_eq (by omega), and_iff_right (by omega), h.boxEnd_eq]

theorem HdlrBox.fits_iff (h : At b stop p x) (hx : Layout.Hdlr x.body) {Q : Nat × List UInt8 → Prop}
    : HdlrBox.Fits b stop p Q ↔ Q (p + x.size, Layout.handlerTypeOf x.body) := by
  have hadd := h.content_add
  have hinside := h.inside
  have hbounded := h.bounded
  unfold Layout.Hdlr at hx
  have htype : handlerTypeOf b p = Layout.handlerTypeOf x.body := by
    unfold handlerTypeOf uint32ToString Layout.handlerTypeOf
    rw [h.bytes_body (by omega)]
  unfold HdlrBox.Fits
  rw [and_iff_right h.placed, and_iff_right (by omega), h.boxEnd_eq, htype]
  exact forall_prop_of_true (by omega)

theorem SmhdBox.fits_iff (h : At b stop p x) (hx : Layout.Smhd x.body) : SmhdBox.Fits b stop p Q ↔ Q (p + x.size) :=
  sized_iff_of h hx

theorem VmhdBox.fits_iff (h : At b stop p x) (hx : Layout.Vmhd x.body) : VmhdBox.Fits b stop p Q ↔ Q (p + x.size) :=
  sized_iff_of h hx

theorem restFits_iff (h : At b stop p x) (hx : Layout.Versioned x.body) : restFits b stop p Q ↔ Q (p + x.size) := by
  have hadd := h.content_add
  have hinside := h.inside
  have hbounded := h.bounded
  unfold Layout.Versioned at hx
  unfold restFits
  rw [and_iff_right h.placed, and_iff_right (by omega), h.boxEnd_eq]
  exact forall_prop_of_true (by omega)

theorem table_iff (h : At b stop p x) {width : Nat} (hx : Layout.Table x.body width)
    : Sized (8 + width * entryCount b p) b stop p Q ↔ Q (p + x.size) := by
  unfold Layout.Table at hx
  rw [h.entryCount_eq (by omega)]
  exact sized_iff_of h hx

theorem openTable_iff (h : At b stop p x) {width : Nat} (hx : Layout.OpenTable x.body width)
    : openTable width b stop p Q ↔ Q (p + x.size) := by
  have hadd := h.content_add
  have hinside := h.inside
  have hbounded := h.bounded
  unfold Layout.OpenTable at hx
  unfold openTable
  rw [h.entryCount_eq (by omega), and_iff_right h.placed, and_iff_right (by omega), h.boxEnd_eq, and_iff_right]
  right
  omega

theorem SttsBox.fits_iff (h : At b stop p x) (hx : Layout.Table x.body 8) : SttsBox.Fits b stop p Q ↔ Q (p + x.size) :=
  table_iff h hx

theorem StscBox.fits_iff (h : At b stop p x) (hx : Layout.Table x.body 12)
    : StscBox.Fits b stop p Q ↔ Q (p + x.size) := by
  unfold Layout.Table at hx
  apply exists_sized_iff h
  refine ⟨entryCount b p, Nat.le_refl _, ?_⟩
  rw [h.entryCount_eq (by omega), hx]

theorem StszBox.fits_iff (h : At b stop p x) (hx : Layout.Stsz x.body) : StszBox.Fits b stop p Q ↔ Q (p + x.size) := by
  unfold Layout.Stsz at hx
  unfold StszBox.Fits
  rw [h.entryCount_eq (by omega), h.word_body (by omega)]
  apply sized_iff_of h
  rw [hx]
  split
  . rfl
  . rfl

theorem StcoBox.fits_iff (h : At b stop p x) (hx : Layout.Table x.body 4) : StcoBox.Fits b stop p Q ↔ Q (p + x.size) :=
  table_iff h hx

theorem ElstBox.fits_iff (h : At b stop p x) (hx : Layout.Elst x.body) : ElstBox.Fits b stop p Q ↔ Q (p + x.size) := by
  unfold ElstBox.Fits
  unfold Layout.Elst at hx
  rw [h.timeLen_eq]
  . exact table_iff h hx
  . unfold Layout.Table at hx
    omega

theorem EdtsBox.fits_iff (h : At b stop p x) (hx : Layout.Edts x.body) : EdtsBox.Fits b stop p Q ↔ Q (p + x.size) := by
  obtain ⟨y, hy, helst⟩ := hx
  unfold EdtsBox.Fits
  rw [and_iff_right h.placed, ElstBox.fits_iff (h.only hy) helst, h.only_end hy, and_iff_right rfl, h.boxEnd_eq]

theorem UdtaBox.fits_iff (h : At b stop p x) (hx : Layout.Udta x.body) : UdtaBox.Fits b stop p Q ↔ Q (p + x.size) := by
  have hadd := h.content_add
  have hend := h.boxEnd_eq
  unfold UdtaBox.Fits
  rw [and_iff_right h.placed]
  rcases hx with hempty | ⟨y, hy, hversioned⟩
  . rw [hempty, List.length_nil] at hadd
    rw [if_neg (by omega), and_iff_right (by omega), hend]
  . have hsize := length_boxBytes y
    have hlen := headerLen_ge y
    rw [hy, hsize, Box.size] at hadd
    rw [if_pos (by omega)]
    exact (restFits_iff (h.only hy) hversioned).trans (by rw [h.only_end hy, and_iff_right rfl, hend])

theorem FreeBox.fits_iff (h : At b stop p x) (hx : x.body = []) : FreeBox.Fits b stop p Q ↔ Q (p + x.size) := by
  have hadd := h.content_add
  rw [hx] at hadd
  unfold FreeBox.Fits
  rw [and_iff_right h.placed, ← hadd]
  rfl

end Leaves

section Children

/--
Of a box that is as `child` says the walk asks nothing more.
-/
def Reads (b : Buffer) (stop : Nat) (fit : Option (Fit σ)) (child : σ → Box → σ → Prop) : Prop :=
  ∀ s s' x p, child s x s' → At b stop p x → ∀ R : Nat × σ → Prop,
    (match fit with
      | some fit => fit p s R
      | none => leafFit (anyFits b stop) p s R) ↔ R (p + x.size, s')

theorem Reads.any : Reads b stop (none : Option (Fit σ)) Layout.any := by
  rintro s _ x p rfl h R
  exact anyFits_iff h

theorem Reads.leaf {fits : Nat → (Nat → Prop) → Prop} {content : List UInt8 → Prop}
    (h : ∀ {x p} {Q : Nat → Prop}, At b stop p x → content x.body → (fits p Q ↔ Q (p + x.size)))
    : Reads b stop (some (leafFit fits : Fit σ)) (Layout.leaf content) := by
  rintro s _ x p ⟨hcontent, rfl⟩ hat R
  exact h hat hcontent

theorem Reads.ite {c : Prop} [Decidable c] {fit fit' : Option (Fit σ)} {child child' : σ → Box → σ → Prop}
    (h : Reads b stop fit child) (h' : Reads b stop fit' child')
    : Reads b stop (if c then fit else fit') (if c then child else child') := by
  split
  . exact h
  . exact h'

variable {s s' : σ} {xs : List Box}

theorem length_flatMap_cons (x : Box) (xs : List Box)
    : ((x :: xs).flatMap Box.bytes).length = x.size + (xs.flatMap Box.bytes).length := by
  rw [List.flatMap_cons, List.length_append, length_boxBytes]

theorem at_first (hmem : HoldsAt b.mem p ((x :: xs).flatMap Box.bytes))
    (hend : p + ((x :: xs).flatMap Box.bytes).length = stop) (hstop : stop ≤ b.size)
    : At b stop p x ∧ HoldsAt b.mem (p + x.size) (xs.flatMap Box.bytes)
        ∧ p + x.size + (xs.flatMap Box.bytes).length = stop := by
  rw [length_flatMap_cons] at hend
  rw [List.flatMap_cons] at hmem
  refine ⟨⟨hmem.left, by omega, hstop⟩, hmem.right ?_, by omega⟩
  rw [length_boxBytes]

theorem childrenFit_iff {child : Layout.Child σ} {fits : List UInt8 → Option (Fit σ)} {slack : Nat}
    (hreads : ∀ type, Reads b stop (fits type) (child type)) (hboxes : Layout.Boxes child s xs s') (hslack : slack < 8)
    (hmem : HoldsAt b.mem p (xs.flatMap Box.bytes)) (hend : p + (xs.flatMap Box.bytes).length = stop)
    (hstop : stop ≤ b.size) {Q : Nat × σ → Prop}
    : ChildrenFit b stop slack fits Q (p, s) ↔ Q (stop, s') := by
  induction hboxes generalizing p with
  | nil =>
    rw [List.flatMap_nil, List.length_nil, Nat.add_zero] at hend
    subst hend
    exact chain_of_not_more (decide_eq_false (Nat.not_lt.mpr (Nat.le_add_right _ _)))
  | @cons s s₁ s' x xs hx _ ih =>
    obtain ⟨hat, hrest, hrestEnd⟩ := at_first hmem hend hstop
    have hlen := headerLen_ge x
    have hsize : x.size = x.headerLen + x.body.length := rfl
    refine Iff.trans (chain_step (p + x.size, s₁) (decide_eq_true ?_) ?_) (ih hrest hrestEnd)
    . change p + slack < stop
      omega
    . intro R
      unfold ChildFits
      rw [and_iff_right hat.placed.header, hat.header.boxType]
      exact hreads x.type s s₁ x p hx hat R

theorem At.childrenFit_iff {child : Layout.Child σ} {fits : List UInt8 → Option (Fit σ)} {slack : Nat}
    {front boxes : List UInt8} (h : At b stop p x) (hx : x.body = front ++ boxes) (hboxes : Layout.Body child s boxes s')
    (hslack : slack < 8) (hreads : ∀ type, Reads b (b.boxEnd p) (fits type) (child type)) {Q : Nat × σ → Prop}
    : ChildrenFit b (b.boxEnd p) slack fits Q (b.content p + front.length, s) ↔ Q (b.boxEnd p, s') := by
  obtain ⟨xs, rfl, hxs⟩ := hboxes
  apply Boxes.childrenFit_iff hreads hxs hslack
  . apply HoldsAt.right _ rfl
    rw [← hx]
    exact h.body
  . have hadd := h.content_add
    rw [hx, List.length_append] at hadd
    rw [h.boxEnd_eq]
    omega
  . exact h.placed.end_le h.bounded

theorem At.allChildren_iff {child : Layout.Child σ} {fits : List UInt8 → Option (Fit σ)} {slack : Nat} (h : At b stop p x)
    (hx : Layout.Body child s x.body s') (hslack : slack < 8)
    (hreads : ∀ type, Reads b (b.boxEnd p) (fits type) (child type)) {Q : Nat × σ → Prop}
    : ChildrenFit b (b.boxEnd p) slack fits Q (b.content p, s) ↔ Q (b.boxEnd p, s') :=
  h.childrenFit_iff (List.nil_append _).symm hx hslack hreads

theorem times_iff {turn : Nat → (Nat → Prop) → Prop} {content : Box → Prop} {start : Nat}
    (hturn : ∀ {x p} {R : Nat → Prop}, start ≤ p → content x → At b stop p x → (turn p R ↔ R (p + x.size)))
    (hxs : ∀ x ∈ xs, content x) (hstart : start ≤ p) (hmem : HoldsAt b.mem p (xs.flatMap Box.bytes))
    (hend : p + (xs.flatMap Box.bytes).length = stop) (hstop : stop ≤ b.size)
    : Times turn Q xs.length p ↔ Q stop := by
  induction xs generalizing p with
  | nil =>
    rw [List.flatMap_nil, List.length_nil, Nat.add_zero] at hend
    subst hend
    rfl
  | cons x xs ih =>
    obtain ⟨hat, hrest, hrestEnd⟩ := at_first hmem hend hstop
    have hcontent := hxs x List.mem_cons_self
    refine (hturn hstart hcontent hat).trans (ih ?_ (by omega) hrest hrestEnd)
    intro y hy
    exact hxs y (List.mem_cons_of_mem _ hy)

theorem At.times_iff {turn : Nat → (Nat → Prop) → Prop} {content : Box → Prop} (h : At b stop p x)
    (hx : Layout.Counted content x.body)
    (hturn : ∀ {x p'} {R : Nat → Prop}, b.content p + 8 ≤ p' → content x → At b (b.boxEnd p) p' x
      → (turn p' R ↔ R (p' + x.size)))
    : b.content p + 8 ≤ b.size ∧ Times turn Q (entryCount b p) (b.content p + 8) ↔ Q (b.boxEnd p) := by
  obtain ⟨front, xs, hfront, hcount, hbody, hxs⟩ := hx
  have hadd := h.content_add
  have hinside := h.inside
  have hbounded := h.bounded
  have hlen : 8 + (xs.flatMap Box.bytes).length = x.body.length := by
    rw [hbody, List.length_append, List.length_append, length_write4Bytes, hfront]
    omega
  have hentries : entryCount b p = xs.length := by
    rw [h.entryCount_eq (by omega), Layout.word, hbody, ← hfront, List.drop_left, read4Bytes_write4Bytes]
    exact Nat.mod_eq_of_lt hcount
  have hmem : HoldsAt b.mem (b.content p + 8) (xs.flatMap Box.bytes) := by
    have hall := h.body
    rw [hbody, ← List.append_assoc] at hall
    apply hall.right
    rw [List.length_append, length_write4Bytes, hfront]
  rw [and_iff_right (by omega), hentries]
  apply Boxes.times_iff hturn hxs (Nat.le_refl _) hmem
  . rw [h.boxEnd_eq]
    omega
  . exact h.placed.end_le h.bounded

theorem DrefBox.fits_iff (h : At b stop p x) (hx : Layout.Dref x.body) : DrefBox.Fits b stop p Q ↔ Q (p + x.size) := by
  unfold DrefBox.Fits
  rw [and_iff_right h.placed, h.times_iff hx ?_, and_iff_right rfl, h.boxEnd_eq]
  intro y p' R _ hy hat
  have hinside := hat.inside
  have hsize : y.size = y.headerLen + y.body.length := rfl
  have hlen := headerLen_ge y
  rw [and_iff_right (by omega)]
  exact restFits_iff hat hy

theorem DinfBox.fits_iff (h : At b stop p x) (hx : Layout.Dinf x.body) : DinfBox.Fits b stop p Q ↔ Q (p + x.size) := by
  obtain ⟨y, hy, hdref⟩ := hx
  unfold DinfBox.Fits
  rw [and_iff_right h.placed, DrefBox.fits_iff (h.only hy) hdref, h.only_end hy, and_iff_right rfl, h.boxEnd_eq]

end Children

section SampleDescriptions

theorem At.body_eq (h : At b stop p x) : b.body p = x.body := by
  have hadd := h.content_add
  have hlen : b.boxEnd p - b.content p = x.body.length := by
    rw [h.boxEnd_eq]
    omega
  unfold Buffer.body Buffer.bytes
  rw [hlen, bytesAt_eq h.body]

theorem PaspBox.fits_iff (h : At b stop p x) (hx : x.body.length = 8) : PaspBox.Fits b stop p Q ↔ Q (p + x.size) := by
  have hadd := h.content_add
  have hinside := h.inside
  have hbounded := h.bounded
  rw [hx] at hadd
  unfold PaspBox.Fits
  rw [and_iff_right h.placed, and_iff_right (by omega), hadd]

theorem VideoSequenceBox.fits_iff (h : At b stop p x) : VideoSequenceBox.Fits b stop p Q ↔ Q (p + x.size) := by
  unfold VideoSequenceBox.Fits
  rw [and_iff_right h.placed, h.boxEnd_eq, h.header.headerLen, h.header.boxSize]
  exact forall_prop_of_true (Nat.le_add_right _ _)

theorem Mp4aBox.fits_iff (h : At b stop p x) (hx : Layout.Mp4a x.body) : Mp4aBox.Fits b stop p Q ↔ Q (p + x.size) := by
  have hadd := h.content_add
  unfold Layout.Mp4a at hx
  unfold Mp4aBox.Fits
  rw [and_iff_right h.placed, h.boxEnd_eq, and_iff_right (by omega)]

theorem StriBox.fits_iff (h : At b stop p x) (hx : 5 ≤ x.body.length) : StriBox.Fits b stop p Q ↔ Q (p + x.size) := by
  have hadd := h.content_add
  have hinside := h.inside
  have hbounded := h.bounded
  unfold StriBox.Fits
  rw [and_iff_right h.placed, and_iff_right (by omega), h.boxEnd_eq]

theorem LhvCBox.fits_iff (h : At b stop p x) (hx : Layout.LhvC x.body) : LhvCBox.Fits b stop p Q ↔ Q (p + x.size) := by
  obtain ⟨r, hr⟩ := hx
  unfold LhvCBox.Fits
  rw [and_iff_right h.placed, h.body_eq, hr, and_iff_right r.readsInside, h.boxEnd_eq]

theorem HvcCBox.fits_iff (h : At b stop p x) (hx : Layout.HvcC x.body) : HvcCBox.Fits b stop p Q ↔ Q (p + x.size) := by
  obtain ⟨r, hr, hlast, hlen⟩ := hx
  have hdecodes : HvcCBox.decodes b p = true := by
    have hmem := holdsAt_body b p
    have hbodyLen : b.boxEnd p - b.content p = r.bytes.length := by
      rw [← length_body, h.body_eq, hr]
    rw [h.body_eq, hr] at hmem
    unfold HvcCBox.decodes
    rw [hbodyLen]
    exact (Hevc.RecordBytes.parsed_iff hmem |>.mpr hlast).left
  have hheader : b.headerLen p ≤ b.boxSize p := by
    rw [h.header.headerLen, h.header.boxSize]
    exact Nat.le_add_right _ _
  unfold HvcCBox.Fits
  rw [and_iff_right h.placed, h.body_eq, h.boxEnd_eq, hdecodes, hr]
  rw [hr] at hlen
  simp only [hheader, hlen, r.readsInside, true_and, forall_const]

theorem EyesBox.fits_iff (h : At b stop p x) (hx : Layout.Eyes x.body) : EyesBox.Fits b stop p Q ↔ Q (p + x.size) := by
  unfold EyesBox.Fits
  rw [and_iff_right h.placed, ← h.boxEnd_eq]
  apply h.allChildren_iff hx
  . omega
  intro type
  apply Reads.ite
  . exact .leaf fun h hx => StriBox.fits_iff h hx
  . exact .any

theorem VexuBox.fits_iff (h : At b stop p x) (hx : Layout.Vexu x.body) : VexuBox.Fits b stop p Q ↔ Q (p + x.size) := by
  unfold VexuBox.Fits
  rw [and_iff_right h.placed, ← h.boxEnd_eq]
  apply h.allChildren_iff hx
  . omega
  intro type
  apply Reads.ite
  . exact .leaf fun h hx => EyesBox.fits_iff h hx
  split
  -- the box is as one that is not known
  . exact Reads.any
  . exact .any

theorem Hvc1Box.fits_iff (h : At b stop p x) (hx : Layout.Hvc1 x.body) : Hvc1Box.Fits b stop p Q ↔ Q (p + x.size) := by
  obtain ⟨info, boxes, hinfo, hbody, hboxes⟩ := hx
  have hadd := h.content_add
  have hinside := h.inside
  have hbounded := h.bounded
  have hlen : info.length = avcInfoLen := hinfo
  rw [hbody, List.length_append] at hadd
  unfold Hvc1Box.Fits
  rw [and_iff_right h.placed, ← hlen, and_iff_right (by omega), ← h.boxEnd_eq]
  apply h.childrenFit_iff hbody hboxes
  . omega
  intro type
  apply Reads.ite
  . exact .leaf fun h hx => HvcCBox.fits_iff h hx
  apply Reads.ite
  . exact .leaf fun h hx => LhvCBox.fits_iff h hx
  apply Reads.ite
  . exact .leaf fun h hx => VexuBox.fits_iff h hx
  . exact .any

theorem Avc1Box.fits_iff (h : At b stop p x) (hx : Layout.Avc1 x.body) : Avc1Box.Fits b stop p Q ↔ Q (p + x.size) := by
  obtain ⟨info, sets, boxes, hinfo, hbody, hboxes⟩ := hx
  have hadd := h.content_add
  have hinside := h.inside
  have hbounded := h.bounded
  have hlen : info.length = avcInfoLen := hinfo
  have hsets := length_boxBytes sets
  have hfront : x.body = (info ++ sets.bytes) ++ boxes := by
    rw [hbody, List.append_assoc]
  have hat : At b (b.boxEnd p) (b.content p + info.length) sets := by
    have hall := h.body
    rw [hbody] at hall
    rw [hbody, List.length_append, List.length_append] at hadd
    refine ⟨(hall.right rfl).left, ?_, h.placed.end_le h.bounded⟩
    rw [h.boxEnd_eq]
    omega
  have hnext : b.content p + info.length + sets.size = b.content p + (info ++ sets.bytes).length := by
    rw [List.length_append, hsets, Nat.add_assoc]
  rw [hbody, List.length_append, List.length_append] at hadd
  unfold Avc1Box.Fits
  rw [and_iff_right h.placed, ← hlen, and_iff_right (by omega), VideoSequenceBox.fits_iff hat, hnext,
    h.childrenFit_iff hfront hboxes (Nat.succ_pos 7), and_iff_right rfl, h.boxEnd_eq]
  intro type
  apply Reads.ite
  . exact .leaf fun h hx => PaspBox.fits_iff h hx
  . exact .any

theorem sampleEntryFits_iff {handlerType : List UInt8} (h : At b stop p x) (hx : Layout.Entry handlerType x)
    : sampleEntryFits handlerType x.type b stop p Q ↔ Q (p + x.size) := by
  unfold Layout.Entry at hx
  unfold sampleEntryFits
  split at hx
  . next hvideo =>
    rw [if_pos hvideo]
    split at hx
    . next havc =>
      rw [if_pos havc]
      exact Avc1Box.fits_iff h hx
    . next havc =>
      rw [if_neg havc]
      split at hx
      . next hhevc =>
        rw [if_pos hhevc]
        exact Hvc1Box.fits_iff h hx
      . next hhevc =>
        rw [if_neg hhevc]
        exact anyFits_iff h
  . next hvideo =>
    rw [if_neg hvideo]
    split at hx
    . next hsound =>
      rw [if_pos hsound]
      split at hx
      . next hmp4a =>
        rw [if_pos hmp4a]
        exact Mp4aBox.fits_iff h hx
      . next hmp4a =>
        rw [if_neg hmp4a]
        exact anyFits_iff h
    . next hsound =>
      rw [if_neg hsound]
      exact anyFits_iff h

theorem StsdBox.fits_iff {handlerType : List UInt8} (h : At b stop p x) (hx : Layout.Stsd handlerType x.body)
    : StsdBox.Fits handlerType b stop p Q ↔ Q (p + x.size) := by
  unfold StsdBox.Fits
  rw [and_iff_right h.placed, h.times_iff hx ?_, and_iff_right rfl, h.boxEnd_eq]
  intro y p' R hstart hy hat
  have hinside := hat.inside
  have hlen := headerLen_ge y
  have hsize : y.size = y.headerLen + y.body.length := rfl
  have hsmaller : y.size < x.size := by
    have hcontent := h.content_eq
    have hend := h.boxEnd_eq
    omega
  rw [and_iff_right (by omega), and_iff_right hat.placed.header, hat.header.boxSize, h.header.boxSize,
    and_iff_right hsmaller, hat.header.boxType, sampleEntryFits_iff hat hy, and_iff_right hinside]

end SampleDescriptions

section Containers

theorem StblBox.fits_iff {handlerType : List UInt8} (h : At b stop p x) (hx : Layout.Stbl handlerType x.body)
    : StblBox.Fits handlerType b stop p Q ↔ Q (p + x.size) := by
  unfold StblBox.Fits
  rw [and_iff_right h.placed]
  refine Iff.trans (h.allChildren_iff hx ?_ ?_) ?_
  . omega
  . intro type
    apply Reads.ite
    . exact .leaf fun h hx => StsdBox.fits_iff h hx
    apply Reads.ite
    . exact .leaf fun h hx => SttsBox.fits_iff h hx
    apply Reads.ite
    . exact .leaf fun h hx => openTable_iff h hx
    apply Reads.ite
    . exact .leaf fun h hx => openTable_iff h hx
    apply Reads.ite
    . exact .leaf fun h hx => StscBox.fits_iff h hx
    apply Reads.ite
    . exact .leaf fun h hx => StszBox.fits_iff h hx
    apply Reads.ite
    . exact .leaf fun h hx => StcoBox.fits_iff h hx
    . exact .any
  . rw [and_iff_right rfl, h.boxEnd_eq]

theorem MinfBox.fits_iff {handlerType : List UInt8} (h : At b stop p x) (hx : Layout.Minf handlerType x.body)
    : MinfBox.Fits handlerType b stop p Q ↔ Q (p + x.size) := by
  unfold MinfBox.Fits
  rw [and_iff_right h.placed]
  refine Iff.trans (h.allChildren_iff hx ?_ ?_) ?_
  . omega
  . intro type
    apply Reads.ite
    . exact .leaf fun h hx => SmhdBox.fits_iff h hx
    apply Reads.ite
    . exact .leaf fun h hx => VmhdBox.fits_iff h hx
    apply Reads.ite
    . exact .leaf fun h hx => DinfBox.fits_iff h hx
    apply Reads.ite
    . exact .leaf fun h hx => StblBox.fits_iff h hx
    . exact .any
  . rw [and_iff_right rfl, h.boxEnd_eq]

theorem MdiaBox.fits_iff {handlerType handlerType' : List UInt8} (h : At b stop p x)
    (hx : Layout.Mdia handlerType x.body handlerType') {Q : Nat × List UInt8 → Prop}
    : MdiaBox.Fits b stop p handlerType Q ↔ Q (p + x.size, handlerType') := by
  unfold MdiaBox.Fits
  rw [and_iff_right h.placed]
  refine Iff.trans (h.allChildren_iff hx ?_ ?_) ?_
  . omega
  . intro type
    apply Reads.ite
    . exact .leaf fun h hx => MdhdBox.fits_iff h hx
    apply Reads.ite
    . rintro s _ y p' ⟨hhdlr, rfl⟩ hat R
      exact HdlrBox.fits_iff hat hhdlr
    apply Reads.ite
    . rintro s _ y p' ⟨hminf, rfl⟩ hat R
      exact MinfBox.fits_iff hat hminf
    . exact .any
  . rw [and_iff_right rfl, h.boxEnd_eq]

theorem TrakBox.fits_iff (h : At b stop p x) (hx : Layout.Trak x.body) : TrakBox.Fits b stop p Q ↔ Q (p + x.size) := by
  obtain ⟨handlerType, hx⟩ := hx
  unfold TrakBox.Fits
  rw [and_iff_right h.placed, ← h.boxEnd_eq]
  apply h.allChildren_iff hx
  . omega
  intro type
  apply Reads.ite
  . exact .leaf fun h hx => TkhdBox.fits_iff h hx
  apply Reads.ite
  . exact .leaf fun h hx => EdtsBox.fits_iff h hx
  apply Reads.ite
  . intro s s' y p' hmdia hat R
    exact MdiaBox.fits_iff hat hmdia
  . exact .any

theorem MoovBox.fits_iff (h : At b stop p x) (hx : Layout.Moov x.body) : MoovBox.Fits b stop p Q ↔ Q (p + x.size) := by
  unfold MoovBox.Fits
  rw [and_iff_right h.placed, ← h.boxEnd_eq]
  apply h.allChildren_iff hx
  . omega
  intro type
  apply Reads.ite
  . exact .leaf fun h hx => MvhdBox.fits_iff h hx
  apply Reads.ite
  . exact .leaf fun h hx => TrakBox.fits_iff h hx
  apply Reads.ite
  . exact .leaf fun h hx => UdtaBox.fits_iff h hx
  . exact .any

end Containers

end Mp4.Boxes
