import CppStreamer.Format.Mp4.BoxFits

/-!
This module contains what the bytes of a box with others in it have to be like for its parser to end and to read only what
it may, from the descriptions of the samples up to the movie.
-/

open ByteStream Checked Looping Reading StringEx

namespace Mp4.Boxes

variable {b : Buffer} {stop p : Nat} {Q : Nat → Prop} {σ : Type}

section Children

/--
What a parser of a box is asked that may change the type of the track.
-/
abbrev Fit (σ : Type) : Type := Nat → σ → (Nat × σ → Prop) → Prop

def leafFit (fits : Nat → (Nat → Prop) → Prop) : Fit σ := fun p s R => fits p fun last => R (last, s)

/--
One turn of a loop over boxes that end at `stop` at the latest.
-/
def ChildFits (b : Buffer) (stop : Nat) (fits : List UInt8 → Option (Fit σ)) (s : Nat × σ) (R : Nat × σ → Prop) : Prop :=
  b.content s.1 ≤ b.size
    ∧ match fits (b.boxType s.1) with
      | some fit => fit s.1 s.2 R
      | none => leafFit (anyFits b stop) s.1 s.2 R

/--
The boxes in a box: one behind the other until no more than `slack` bytes are left.
-/
def ChildrenFit (b : Buffer) (stop slack : Nat) (fits : List UInt8 → Option (Fit σ)) (Q : Nat × σ → Prop)
    : Nat × σ → Prop :=
  Chain (fun s => s.1 + slack < stop) (ChildFits b stop fits) Q

/--
A parser and what it is asked, for a type that both know or neither.
-/
def Agree : Option (Nat → σ → Walk (Nat × σ)) → Option (Fit σ) → Prop :=
  Option.Rel fun parse fit => ∀ p s R, (parse p s).Ends Mark.Good R ↔ fit p s R

theorem Agree.none : Agree (Option.none : Option (Nat → σ → Walk (Nat × σ))) Option.none := Option.Rel.none

theorem Agree.leaf {parse : Nat → Walk Nat} {fits : Nat → (Nat → Prop) → Prop}
    (h : ∀ p Q, (parse p).Ends Mark.Good Q ↔ fits p Q)
    : Agree (some (leaf parse)) (some (leafFit fits : Fit σ)) := by
  apply Option.Rel.some
  intro p s R
  unfold Boxes.leaf leafFit
  rw [ends_bind, h]
  simp only [ends_pure]

theorem Agree.ite {c : Prop} [Decidable c] {known known' : Option (Nat → σ → Walk (Nat × σ))}
    {fits fits' : Option (Fit σ)} (h : Agree known fits) (h' : Agree known' fits')
    : Agree (if c then known else known') (if c then fits else fits') := by
  split
  . exact h
  . exact h'

theorem ends_childBoxes {slack : Nat} {known : List UInt8 → Option (Nat → σ → Walk (Nat × σ))}
    {fits : List UInt8 → Option (Fit σ)} (h : ∀ type, Agree (known type) (fits type)) {Q : Nat × σ → Prop} {s : Nat × σ}
    : (childBoxes b stop slack known s).Ends Mark.Good Q ↔ ChildrenFit b stop slack fits Q s := by
  apply ends_loop_iff_chain
  rintro ⟨p, s⟩ R
  rw [ends_bind, ends_getBoxHeaderInfo, ChildFits]
  apply and_congr_right
  intro _
  have hagree := h (b.boxType p)
  simp only
  cases hknown : known (b.boxType p) with
  | none =>
    rw [hknown] at hagree
    generalize fits (b.boxType p) = fit at hagree
    cases hagree
    simp only [ends_bind, ends_pure]
    exact ends_unknownBox
  | some parse =>
    rw [hknown] at hagree
    generalize fits (b.boxType p) = fit at hagree
    cases hagree with
    | some hparse => exact hparse p s R

end Children

section SampleDescriptions

def VideoSequenceBox.Fits : Condition := fun b stop p Q =>
  b.Placed stop p ∧ (b.headerLen p ≤ b.boxSize p → Q (b.boxEnd p))

def PaspBox.Fits : Condition := fun b stop p Q =>
  b.Placed stop p ∧ b.content p + 8 ≤ b.size ∧ Q (b.content p + 8)

def Mp4aBox.Fits : Condition := fun b stop p Q =>
  b.Placed stop p ∧ b.content p + 28 < b.boxEnd p ∧ Q (b.boxEnd p)

def Buffer.body (b : Buffer) (p : Nat) : List UInt8 := b.bytes (b.content p) (b.boxEnd p - b.content p)

def LhvCBox.Fits : Condition := fun b stop p Q =>
  b.Placed stop p ∧ Hevc.LReadsInside (b.body p) ∧ Q (b.boxEnd p)

def HvcCBox.decodes (b : Buffer) (p : Nat) : Bool :=
  (Hevc.getHevcDecInfoFromExtradata (fun i => b.mem (b.content p + i)) (b.boxEnd p - b.content p)).value.1

/--
A record that is not even looked at because of its length is as well as one that cannot be decoded an exception.
-/
def HvcCBox.Fits : Condition := fun b stop p Q =>
  b.Placed stop p ∧ (b.headerLen p ≤ b.boxSize p → (b.body p).length ≤ 5 * 1024 →
    Hevc.ReadsInside (b.body p) ∧ (HvcCBox.decodes b p = true → Q (b.boxEnd p)))

def StriBox.Fits : Condition := fun b stop p Q =>
  b.Placed stop p ∧ b.content p + 5 ≤ b.size ∧ Q (b.boxEnd p)

def EyesBox.Fits : Condition := fun b stop p Q =>
  b.Placed stop p ∧ ChildrenFit b (b.boxEnd p) 6
    (fun type => if type = utf8 "stri" then some (leafFit (StriBox.Fits b (b.boxEnd p))) else none)
    (fun _ => Q (b.boxEnd p)) (b.content p, ())

def VexuBox.Fits : Condition := fun b stop p Q =>
  b.Placed stop p ∧ ChildrenFit b (b.boxEnd p) 6
    (fun type =>
      if type = utf8 "eyes" then some (leafFit (EyesBox.Fits b (b.boxEnd p)))
      else if type = utf8 "must" then some (leafFit (anyFits b (b.boxEnd p)))
      else none)
    (fun _ => Q (b.boxEnd p)) (b.content p, ())

def avcInfoLen : Nat := 78

def Hvc1Box.Fits : Condition := fun b stop p Q =>
  b.Placed stop p ∧ b.content p + avcInfoLen ≤ b.size ∧ ChildrenFit b (b.boxEnd p) 6
    (fun type =>
      if type = utf8 "hvcC" then some (leafFit (HvcCBox.Fits b (b.boxEnd p)))
      else if type = utf8 "lhvC" then some (leafFit (LhvCBox.Fits b (b.boxEnd p)))
      else if type = utf8 "vexu" then some (leafFit (VexuBox.Fits b (b.boxEnd p)))
      else none)
    (fun _ => Q (b.boxEnd p)) (b.content p + avcInfoLen, ())

/--
The first box is taken for the parameter sets, whatever its type.
-/
def Avc1Box.Fits : Condition := fun b stop p Q =>
  b.Placed stop p ∧ b.content p + avcInfoLen ≤ b.size
    ∧ VideoSequenceBox.Fits b (b.boxEnd p) (b.content p + avcInfoLen) fun next =>
      ChildrenFit b (b.boxEnd p) 0
        (fun type => if type = utf8 "pasp" then some (leafFit (PaspBox.Fits b (b.boxEnd p))) else none)
        (fun s => s.1 = b.boxEnd p ∧ Q (b.boxEnd p)) (next, ())

def sampleEntryFits (handlerType type : List UInt8) : Condition :=
  if handlerType = vide then
    if type = utf8 "avc1" then Avc1Box.Fits
    else if type = utf8 "hvc1" then Hvc1Box.Fits
    else anyFits
  else if handlerType = soun then
    if type = utf8 "mp4a" then Mp4aBox.Fits
    else anyFits
  else anyFits

/--
The descriptions are as many as announced, each smaller than the box, and end where it does.
-/
def StsdBox.Fits (handlerType : List UInt8) : Condition := fun b stop p Q =>
  b.Placed stop p ∧ b.content p + 8 ≤ b.size
    ∧ Times
      (fun entry R => entry + 8 ≤ b.boxEnd p ∧ b.content entry ≤ b.size ∧ b.boxSize entry < b.boxSize p
        ∧ sampleEntryFits handlerType (b.boxType entry) b (b.boxEnd p) entry fun next => next ≤ b.boxEnd p ∧ R next)
      (fun last => last = b.boxEnd p ∧ Q (b.boxEnd p)) (entryCount b p) (b.content p + 8)

theorem VideoSequenceBox.ends_parse (hstop : stop ≤ b.size)
    : (VideoSequenceBox.parse b stop p).Ends Mark.Good Q ↔ VideoSequenceBox.Fits b stop p Q := by
  unfold VideoSequenceBox.parse VideoSequenceBox.Fits
  rw [ends_bind, ends_base]
  apply and_congr_right
  intro hplaced
  have hend := hplaced.end_le hstop
  have hsize : (b.base p).boxSize = b.boxSize p := rfl
  have hlen : (b.base p).offset = b.headerLen p := rfl
  rw [ends_ite, ends_bind, ends_read]
  simp only [ends_throw, ends_pure, hsize, hlen]
  split
  . next hlt => exact iff_of_true trivial fun hle => absurd hlt (by omega)
  . next hle =>
    unfold Buffer.boxEnd at hend
    constructor
    . exact fun h _ => h.right
    . exact fun h => ⟨by omega, h (by omega)⟩

theorem PaspBox.ends_parse : (PaspBox.parse b stop p).Ends Mark.Good Q ↔ PaspBox.Fits b stop p Q := by
  simp only [PaspBox.parse, PaspBox.Fits, ends_bind, ends_base, ends_pair, content_base]

theorem Mp4aBox.ends_parse (hstop : stop ≤ b.size)
    : (Mp4aBox.parse b stop p).Ends Mark.Good Q ↔ Mp4aBox.Fits b stop p Q := by
  have hfields {Q : Nat → Prop} {p : Nat}
      : (b.fields [4, 2, 2, 2, 2, 4, 2, 2, 2, 2, 4] p).Ends Mark.Good Q ↔ p + 28 ≤ b.size ∧ Q (p + 28) :=
    ends_fields (List.cons_ne_nil _ _)
  unfold Mp4aBox.parse Mp4aBox.Fits
  rw [ends_bind, ends_base]
  apply and_congr_right
  intro hplaced
  have hend := hplaced.end_le hstop
  simp only [ends_bind, hfields, ends_assert, ends_read, ends_pure, content_base, boxEnd_base]
  constructor
  . rintro ⟨-, hlt, -, hq⟩
    exact ⟨hlt, hq⟩
  . rintro ⟨hlt, hq⟩
    exact ⟨by omega, hlt, by omega, hq⟩

theorem StsdAvcInfo.ends_parse
    : (StsdAvcInfo.parse b p).Ends Mark.Good Q ↔ p + avcInfoLen ≤ b.size ∧ Q (p + avcInfoLen) := by
  unfold StsdAvcInfo.parse
  rw [ends_fields (List.append_ne_nil_of_right_ne_nil _ (List.cons_ne_nil _ _))]
  rfl

theorem ends_record {α : Type} {decode : (Nat → UInt8) → Checked Span α} (hstop : stop ≤ b.size) (hp : p ≤ stop)
    {Q : α → Prop}
    : (b.record stop p decode).Ends Mark.Good Q
        ↔ (decode fun i => b.mem (p + i)).Passes (Span.Within (stop - p)) ∧ Q (decode fun i => b.mem (p + i)).value := by
  unfold Buffer.record
  rw [ends_lift]
  apply and_congr_left
  intro _
  apply forall₂_congr
  intro span _
  change (p + span.offset + span.len ≤ stop ∧ p + span.offset + span.len ≤ b.size) ↔ span.offset + span.len ≤ stop - p
  omega

theorem holdsAt_bytes (b : Buffer) (p len : Nat) : HoldsAt (fun i => b.mem (p + i)) 0 (b.bytes p len) := by
  intro i hi
  simp only [Buffer.bytes, bytesAt, List.getElem_map, List.getElem_range, Nat.zero_add]

theorem holdsAt_body (b : Buffer) (p : Nat) : HoldsAt (fun i => b.mem (b.content p + i)) 0 (b.body p) :=
  holdsAt_bytes b _ _

theorem length_body : (b.body p).length = b.boxEnd p - b.content p := length_bytesAt

theorem body_len : (b.base p).boxSize - (b.base p).offset = (b.body p).length := by
  rw [length_body, Buffer.boxEnd, Buffer.content, Nat.add_sub_add_left]
  rfl

theorem LhvCBox.ends_parse (hstop : stop ≤ b.size)
    : (LhvCBox.parse b stop p).Ends Mark.Good Q ↔ LhvCBox.Fits b stop p Q := by
  unfold LhvCBox.parse LhvCBox.Fits
  rw [ends_bind, ends_base]
  apply and_congr_right
  intro hplaced
  simp only [content_base, boxEnd_base, ends_bind, ends_pure, body_len]
  by_cases hle : b.content p ≤ b.boxEnd p
  . rw [ends_record (hplaced.end_le hstop) hle, ← length_body,
      Hevc.getLHevcDecInfoFromExtradata_passes (holdsAt_body b p)]
  . -- the first byte is read behind the box
    apply iff_of_false
    . rintro h
      unfold Buffer.record Hevc.getLHevcDecInfoFromExtradata at h
      rw [ends_lift, passes_bind, readByte, passes_bind, passes_check] at h
      have hread : b.content p + 0 + 1 ≤ b.boxEnd p := h.left.left.left.left
      omega
    . rintro ⟨⟨hlen, -⟩, -⟩
      rw [length_body] at hlen
      omega

theorem HvcCBox.ends_parse (hstop : stop ≤ b.size)
    : (HvcCBox.parse b stop p).Ends Mark.Good Q ↔ HvcCBox.Fits b stop p Q := by
  unfold HvcCBox.parse HvcCBox.Fits
  rw [ends_bind, ends_base]
  apply and_congr_right
  intro hplaced
  have hend := hplaced.end_le hstop
  have hheader : b.headerLen p ≤ b.boxSize p ↔ b.content p ≤ b.boxEnd p := by
    unfold Buffer.content Buffer.boxEnd
    omega
  have hsize : (b.base p).boxSize < (b.base p).offset ↔ ¬b.headerLen p ≤ b.boxSize p := Nat.not_le.symm
  simp only [content_base, boxEnd_base, body_len, hsize, ends_ite, ends_bind, ends_read, ends_throw, ends_pure]
  by_cases hle : b.headerLen p ≤ b.boxSize p
  . have hend' := hheader.mp hle
    have hlen := length_body (b := b) (p := p)
    by_cases hlong : 5 * 1024 < (b.body p).length
    . rw [if_pos (Or.inr hlong)]
      exact iff_of_true trivial fun _ hshort => absurd hlong (by omega)
    . rw [if_neg (not_or.mpr ⟨not_not_intro hle, hlong⟩), ends_record hend hend', ← length_body,
        Hevc.getHevcDecInfoFromExtradata_passes (holdsAt_body b p)]
      have hrest : b.content p + (b.body p).length ≤ b.size := by omega
      have hshort : (b.body p).length ≤ 5 * 1024 := by omega
      simp only [hle, hshort, hrest, true_and, forall_const, HvcCBox.decodes, ← length_body]
      apply and_congr_right
      intro _
      split
      . next hfail => simp [hfail]
      . next hok => simp [Bool.eq_true_of_not_eq_false hok]
  . rw [if_pos (Or.inl hle)]
    exact iff_of_true trivial fun h => absurd h hle

theorem StriBox.ends_parse : (StriBox.parse b stop p).Ends Mark.Good Q ↔ StriBox.Fits b stop p Q := by
  have hfields {Q : Nat → Prop} {p : Nat} : (b.fields [4, 1] p).Ends Mark.Good Q ↔ p + 5 ≤ b.size ∧ Q (p + 5) :=
    ends_fields (List.cons_ne_nil _ _)
  simp only [StriBox.parse, StriBox.Fits, ends_bind, ends_base, hfields, ends_pure, content_base, boxEnd_base]

theorem MustBox.ends_parse : (MustBox.parse b stop p).Ends Mark.Good Q ↔ anyFits b stop p Q := by
  simp only [MustBox.parse, ends_bind, ends_base, ends_pure, boxEnd_base, anyFits]

theorem EyesBox.ends_parse : (EyesBox.parse b stop p).Ends Mark.Good Q ↔ EyesBox.Fits b stop p Q := by
  unfold EyesBox.parse EyesBox.Fits
  rw [ends_bind, ends_base]
  apply and_congr_right
  intro _
  simp only [content_base, boxEnd_base, ends_bind, ends_pure]
  apply ends_childBoxes
  intro type
  apply Agree.ite
  . exact .leaf fun _ _ => StriBox.ends_parse
  . exact .none

theorem VexuBox.ends_parse : (VexuBox.parse b stop p).Ends Mark.Good Q ↔ VexuBox.Fits b stop p Q := by
  unfold VexuBox.parse VexuBox.Fits
  rw [ends_bind, ends_base]
  apply and_congr_right
  intro _
  simp only [content_base, boxEnd_base, ends_bind, ends_pure]
  apply ends_childBoxes
  intro type
  apply Agree.ite
  . exact .leaf fun _ _ => EyesBox.ends_parse
  apply Agree.ite
  . exact .leaf fun _ _ => MustBox.ends_parse
  . exact .none

theorem Hvc1Box.ends_parse (hstop : stop ≤ b.size)
    : (Hvc1Box.parse b stop p).Ends Mark.Good Q ↔ Hvc1Box.Fits b stop p Q := by
  unfold Hvc1Box.parse Hvc1Box.Fits
  rw [ends_bind, ends_base]
  apply and_congr_right
  intro hplaced
  have hend := hplaced.end_le hstop
  simp only [content_base, boxEnd_base, ends_bind, StsdAvcInfo.ends_parse, ends_pure]
  apply and_congr_right
  intro _
  apply ends_childBoxes
  intro type
  apply Agree.ite
  . exact .leaf fun _ _ => HvcCBox.ends_parse hend
  apply Agree.ite
  . exact .leaf fun _ _ => LhvCBox.ends_parse hend
  apply Agree.ite
  . exact .leaf fun _ _ => VexuBox.ends_parse
  . exact .none

/--
Where the parameter sets are all that there is the loop makes no turn.
-/
theorem Avc1Box.ends_parse (hstop : stop ≤ b.size)
    : (Avc1Box.parse b stop p).Ends Mark.Good Q ↔ Avc1Box.Fits b stop p Q := by
  unfold Avc1Box.parse Avc1Box.Fits
  rw [ends_bind, ends_base]
  apply and_congr_right
  intro hplaced
  have hend := hplaced.end_le hstop
  simp only [content_base, boxEnd_base, ends_bind, StsdAvcInfo.ends_parse, VideoSequenceBox.ends_parse hend, ends_ite,
    ends_assert, ends_pure]
  apply and_congr_right
  intro _
  have hnext (next : Nat)
      : (if next = b.boxEnd p then Q (b.boxEnd p)
          else (childBoxes b (b.boxEnd p) 0
            (fun type => if type = utf8 "pasp" then some (leaf (PaspBox.parse b (b.boxEnd p))) else none)
            (next, ())).Ends Mark.Good fun s => s.1 = b.boxEnd p ∧ Q (b.boxEnd p))
        ↔ ChildrenFit b (b.boxEnd p) 0
            (fun type => if type = utf8 "pasp" then some (leafFit (PaspBox.Fits b (b.boxEnd p))) else none)
            (fun s => s.1 = b.boxEnd p ∧ Q (b.boxEnd p)) (next, ()) := by
    split
    . next heq =>
      subst heq
      rw [ChildrenFit, chain_of_not_more (by simp)]
      exact (and_iff_right rfl).symm
    . apply ends_childBoxes
      intro type
      apply Agree.ite
      . exact .leaf fun _ _ => PaspBox.ends_parse
      . exact .none
  simp only [hnext]

theorem ends_sampleEntry {handlerType type : List UInt8} (hstop : stop ≤ b.size)
    : (sampleEntry b handlerType type stop p).Ends Mark.Good Q ↔ sampleEntryFits handlerType type b stop p Q := by
  unfold sampleEntry sampleEntryFits
  split
  . split
    . exact Avc1Box.ends_parse hstop
    . split
      . exact Hvc1Box.ends_parse hstop
      . exact ends_unknownBox
  . split
    . split
      . exact Mp4aBox.ends_parse hstop
      . exact ends_unknownBox
    . exact ends_unknownBox

theorem StsdBox.ends_parse {handlerType : List UInt8} (hstop : stop ≤ b.size)
    : (StsdBox.parse b handlerType stop p).Ends Mark.Good Q ↔ StsdBox.Fits handlerType b stop p Q := by
  unfold StsdBox.parse StsdBox.Fits
  rw [ends_bind, ends_base]
  apply and_congr_right
  intro hplaced
  have hend := hplaced.end_le hstop
  simp only [content_base, boxEnd_base, ends_bind, ends_word, ends_read4, ends_assert, ends_pure]
  have hentries : (b.content p + 4 ≤ b.size ∧ b.content p + 4 + 4 ≤ b.size) ↔ b.content p + 8 ≤ b.size := by omega
  rw [← and_assoc, hentries]
  apply and_congr_right
  intro _
  apply ends_times_iff
  intro entry R
  have hsize : (b.base p).boxSize = b.boxSize p := rfl
  simp only [ends_bind, ends_entryBox hend, ends_getBoxHeaderInfo, ends_assert, ends_sampleEntry hend, ends_pure, hsize]

end SampleDescriptions

section Containers

def StblBox.Fits (handlerType : List UInt8) : Condition := fun b stop p Q =>
  b.Placed stop p ∧ ChildrenFit b (b.boxEnd p) 0
    (fun type =>
      if type = utf8 "stsd" then some (leafFit (StsdBox.Fits handlerType b (b.boxEnd p)))
      else if type = utf8 "stts" then some (leafFit (SttsBox.Fits b (b.boxEnd p)))
      else if type = utf8 "ctts" then some (leafFit (CttsBox.Fits b (b.boxEnd p)))
      else if type = utf8 "stss" then some (leafFit (StssBox.Fits b (b.boxEnd p)))
      else if type = utf8 "stsc" then some (leafFit (StscBox.Fits b (b.boxEnd p)))
      else if type = utf8 "stsz" then some (leafFit (StszBox.Fits b (b.boxEnd p)))
      else if type = utf8 "stco" then some (leafFit (StcoBox.Fits b (b.boxEnd p)))
      else none)
    (fun s => s.1 = b.boxEnd p ∧ Q (b.boxEnd p)) (b.content p, ())

def MinfBox.Fits (handlerType : List UInt8) : Condition := fun b stop p Q =>
  b.Placed stop p ∧ ChildrenFit b (b.boxEnd p) 6
    (fun type =>
      if type = utf8 "smhd" then some (leafFit (SmhdBox.Fits b (b.boxEnd p)))
      else if type = utf8 "vmhd" then some (leafFit (VmhdBox.Fits b (b.boxEnd p)))
      else if type = utf8 "dinf" then some (leafFit (DinfBox.Fits b (b.boxEnd p)))
      else if type = utf8 "stbl" then some (leafFit (StblBox.Fits handlerType b (b.boxEnd p)))
      else none)
    (fun s => s.1 = b.boxEnd p ∧ Q (b.boxEnd p)) (b.content p, ())

def MdiaBox.Fits (b : Buffer) (stop : Nat) : Fit (List UInt8) := fun p handlerType Q =>
  b.Placed stop p ∧ ChildrenFit b (b.boxEnd p) 6
    (fun type =>
      if type = utf8 "mdhd" then some (leafFit (MdhdBox.Fits b (b.boxEnd p)))
      else if type = utf8 "hdlr" then some fun p' _ => HdlrBox.Fits b (b.boxEnd p) p'
      else if type = utf8 "minf" then
        some fun p' handlerType => leafFit (MinfBox.Fits handlerType b (b.boxEnd p)) p' handlerType
      else none)
    (fun s => s.1 = b.boxEnd p ∧ Q (b.boxEnd p, s.2)) (b.content p, handlerType)

def TrakBox.Fits : Condition := fun b stop p Q =>
  b.Placed stop p ∧ ChildrenFit b (b.boxEnd p) 0
    (fun type =>
      if type = utf8 "tkhd" then some (leafFit (TkhdBox.Fits b (b.boxEnd p)))
      else if type = utf8 "edts" then some (leafFit (EdtsBox.Fits b (b.boxEnd p)))
      else if type = utf8 "mdia" then some (MdiaBox.Fits b (b.boxEnd p))
      else none)
    (fun _ => Q (b.boxEnd p)) (b.content p, [])

def MoovBox.Fits : Condition := fun b stop p Q =>
  b.Placed stop p ∧ ChildrenFit b (b.boxEnd p) 0
    (fun type =>
      if type = utf8 "mvhd" then some (leafFit (MvhdBox.Fits b (b.boxEnd p)))
      else if type = utf8 "trak" then some (leafFit (TrakBox.Fits b (b.boxEnd p)))
      else if type = utf8 "udta" then some (leafFit (UdtaBox.Fits b (b.boxEnd p)))
      else none)
    (fun _ => Q (b.boxEnd p)) (b.content p, ())

theorem StblBox.ends_parse {handlerType : List UInt8} (hstop : stop ≤ b.size)
    : (StblBox.parse b handlerType stop p).Ends Mark.Good Q ↔ StblBox.Fits handlerType b stop p Q := by
  unfold StblBox.parse StblBox.Fits
  rw [ends_bind, ends_base]
  apply and_congr_right
  intro hplaced
  have hend := hplaced.end_le hstop
  simp only [content_base, boxEnd_base, ends_bind, ends_assert, ends_pure]
  apply ends_childBoxes
  intro type
  apply Agree.ite
  . exact .leaf fun _ _ => StsdBox.ends_parse hend
  apply Agree.ite
  . exact .leaf fun _ _ => SttsBox.ends_parse hend
  apply Agree.ite
  . exact .leaf fun _ _ => CttsBox.ends_parse hend
  apply Agree.ite
  . exact .leaf fun _ _ => StssBox.ends_parse hend
  apply Agree.ite
  . exact .leaf fun _ _ => StscBox.ends_parse hend
  apply Agree.ite
  . exact .leaf fun _ _ => StszBox.ends_parse hend
  apply Agree.ite
  . exact .leaf fun _ _ => StcoBox.ends_parse hend
  . exact .none

theorem MinfBox.ends_parse {handlerType : List UInt8} (hstop : stop ≤ b.size)
    : (MinfBox.parse b handlerType stop p).Ends Mark.Good Q ↔ MinfBox.Fits handlerType b stop p Q := by
  unfold MinfBox.parse MinfBox.Fits
  rw [ends_bind, ends_base]
  apply and_congr_right
  intro hplaced
  have hend := hplaced.end_le hstop
  simp only [content_base, boxEnd_base, ends_bind, ends_assert, ends_pure]
  apply ends_childBoxes
  intro type
  apply Agree.ite
  . exact .leaf fun _ _ => SmhdBox.ends_parse hend
  apply Agree.ite
  . exact .leaf fun _ _ => VmhdBox.ends_parse hend
  apply Agree.ite
  . exact .leaf fun _ _ => DinfBox.ends_parse hend
  apply Agree.ite
  . exact .leaf fun _ _ => StblBox.ends_parse hend
  . exact .none

theorem MdiaBox.ends_parse {handlerType : List UInt8} (hstop : stop ≤ b.size) {Q : Nat × List UInt8 → Prop}
    : (MdiaBox.parse b stop p handlerType).Ends Mark.Good Q ↔ MdiaBox.Fits b stop p handlerType Q := by
  unfold MdiaBox.parse MdiaBox.Fits
  rw [ends_bind, ends_base]
  apply and_congr_right
  intro hplaced
  have hend := hplaced.end_le hstop
  simp only [content_base, boxEnd_base, ends_bind, ends_assert, ends_pure]
  apply ends_childBoxes
  intro type
  apply Agree.ite
  . exact .leaf fun _ _ => MdhdBox.ends_parse
  apply Agree.ite
  . exact Option.Rel.some fun _ _ _ => HdlrBox.ends_parse hend
  apply Agree.ite
  . apply Option.Rel.some
    intro p' handlerType R
    unfold leaf leafFit
    rw [ends_bind, MinfBox.ends_parse hend]
    simp only [ends_pure]
  . exact .none

theorem TrakBox.ends_parse (hstop : stop ≤ b.size)
    : (TrakBox.parse b stop p).Ends Mark.Good Q ↔ TrakBox.Fits b stop p Q := by
  unfold TrakBox.parse TrakBox.Fits
  rw [ends_bind, ends_base]
  apply and_congr_right
  intro hplaced
  have hend := hplaced.end_le hstop
  simp only [content_base, boxEnd_base, ends_bind, ends_pure]
  apply ends_childBoxes
  intro type
  apply Agree.ite
  . exact .leaf fun _ _ => TkhdBox.ends_parse hend
  apply Agree.ite
  . exact .leaf fun _ _ => EdtsBox.ends_parse hend
  apply Agree.ite
  . exact Option.Rel.some fun _ _ _ => MdiaBox.ends_parse hend
  . exact .none

theorem MoovBox.ends_parse (hstop : stop ≤ b.size)
    : (MoovBox.parse b stop p).Ends Mark.Good Q ↔ MoovBox.Fits b stop p Q := by
  unfold MoovBox.parse MoovBox.Fits
  rw [ends_bind, ends_base]
  apply and_congr_right
  intro hplaced
  have hend := hplaced.end_le hstop
  simp only [content_base, boxEnd_base, ends_bind, ends_pure]
  apply ends_childBoxes
  intro type
  apply Agree.ite
  . exact .leaf fun _ _ => MvhdBox.ends_parse hend
  apply Agree.ite
  . exact .leaf fun _ _ => TrakBox.ends_parse hend
  apply Agree.ite
  . exact .leaf fun _ _ => UdtaBox.ends_parse hend
  . exact .none

end Containers

end Mp4.Boxes
