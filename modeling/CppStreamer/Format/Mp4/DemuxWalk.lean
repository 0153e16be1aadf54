import CppStreamer.Format.Mp4.BoxTree

/-!
This module contains what a buffer and a file have to be like for the demuxer to come to their end and to read only what
it may.
-/

open ByteStream Checked Looping Reading StringEx

namespace Mp4.Boxes

def rootFits (b : Buffer) (type : List UInt8) : Nat → (Nat → Prop) → Prop :=
  if type = utf8 "ftyp" then FtypBox.Fits b b.size
  else if type = utf8 "moov" then MoovBox.Fits b b.size
  else if type = utf8 "free" then FreeBox.Fits b b.size
  else if type = utf8 "mdat" then anyFits b b.size
  else anyFits b b.size

/--
One turn of the loop over a buffer. A box that is not complete is left where it is.
-/
def RootFits (base : Nat) (b : Buffer) (s : Nat × Bool) (R : Nat × Bool → Prop) : Prop :=
  b.content s.1 ≤ b.size
    ∧ if base + b.size < (base + s.1 + b.boxSize s.1) % 2 ^ 64 then R (s.1, false)
      else rootFits b (b.boxType s.1) s.1 fun next => R (next, true)

/--
From the beginning of the buffer on, each box that the walk comes to has its header in the buffer, and is either not
complete or as its parser needs it.
-/
def BufferFits (base : Nat) (b : Buffer) : Prop :=
  Chain (fun s => s.2 ∧ s.1 < b.size) (RootFits base b) (fun _ => True) (0, true)

/--
One turn of the loop over a file. The last box is one that the file ends in.
-/
def FileTurn (file : List UInt8) (s : Nat × List UInt8 × Bool) (R : Nat × List UInt8 × Bool → Prop) : Prop :=
  let front := frontRead file s.1 s.2.1
  if (readFile file s.1 minSize).length < minSize then R (s.1, front, false)
  else
    let b := Buffer.ofList front
    let whole := boxRead file s.1 (b.boxSize 0) front
    b.content 0 ≤ b.size
      ∧ if readFewer (readFile file s.1 (b.boxSize 0)).length (b.boxSize 0) then R (s.1, whole, false)
        else rootFits (Buffer.ofList whole) (b.boxType 0) 0 fun _ => R (s.1 + b.boxSize 0, whole, true)

def FileFits (file : List UInt8) : Prop :=
  Chain (fun s => s.2.2) (FileTurn file) (fun _ => True) (0, List.replicate minSize 0, true)

variable {b : Buffer} {p : Nat} {Q : Nat → Prop}

theorem ends_rootBox {type : List UInt8} : (rootBox b type p).Ends Mark.Good Q ↔ rootFits b type p Q := by
  have hsize : b.size ≤ b.size := Nat.le_refl _
  unfold rootBox rootFits
  split
  . exact FtypBox.ends_parse hsize
  split
  . exact MoovBox.ends_parse hsize
  split
  . exact FreeBox.ends_parse
  split
  . exact MdatBox.ends_parse
  . exact ends_unknownBox

theorem ends_sourceData {base : Nat}
    : (sourceData base b).Ends Mark.Good Q
        ↔ Chain (fun s => s.2 ∧ s.1 < b.size) (RootFits base b) (fun s => Q s.1) (0, true) := by
  unfold sourceData
  simp only [ends_bind, ends_pure]
  apply ends_loop_iff_chain
  rintro ⟨p, more⟩ R
  rw [ends_bind, ends_getBoxHeaderInfo, RootFits]
  apply and_congr_right
  intro _
  simp only [ends_ite, ends_bind, ends_rootBox, ends_pure]

theorem ends_onRead {file : List UInt8} {Q : Unit → Prop}
    : (onRead file).Ends Mark.Good Q
        ↔ Chain (fun s => s.2.2) (FileTurn file) (fun _ => Q ()) (0, List.replicate minSize 0, true) := by
  unfold onRead
  simp only [ends_bind, ends_pure]
  apply ends_loop_iff_chain
  rintro ⟨offset, buffer, more⟩ R
  simp only [FileTurn, ends_ite, ends_bind, ends_getBoxHeaderInfo, ends_rootBox, ends_pure]

end Mp4.Boxes
