import CppStreamer.Basic.Looping
import CppStreamer.Format.LHevcRecord
import CppStreamer.Format.Mp4.Mp4Box

/-!
This module contains the parsers of the boxes of a movie with what they read of a buffer and where they go on. Of the
fields that they read only those are kept that the rest of the walk depends on.

No parser knows how large the buffer is, and none but `StsdBox::Parse` where the box around its own one ends. Both are
only passed on for what is noted down.
-/

open ByteStream Reading StringEx

namespace Mp4.Boxes

/--
A buffer as the memory that begins with it, and how many bytes it has.
-/
structure Buffer where
  mem : Nat → UInt8
  size : Nat

/--
What a walk over boxes relies on.
-/
inductive Mark where
  /-- A read in a buffer that has `size` bytes. -/
  | read (span : Span) (size : Nat)
  /-- A read of an entry of a table, in a box that ends at `stop`. -/
  | row (span : Span) (stop size : Nat)
  /-- A box with `boxSize` bytes, in one that ends at `stop`. -/
  | child (start boxSize stop : Nat)
  /-- An index of an array. -/
  | slot (i bound : Nat)
  | assertion (holds : Bool)

namespace Mark

def Good : Mark → Prop
  | read span size => span.Within size
  | row span stop size => span.Within stop ∧ span.Within size
  | child start boxSize stop => start + boxSize ≤ stop
  | slot i bound => i < bound
  | assertion holds => holds = true

end Mark

abbrev Walk (α : Type) : Type := Looping Mark α

def assert (p : Prop) [Decidable p] : Walk Unit := Looping.check (.assertion (decide p))

section Reads

variable (b : Buffer)

def Buffer.read (p len : Nat) : Walk (List UInt8) := Looping.lift (fun span => .read span b.size) (readBytes b.mem p len)

def Buffer.read4 (p : Nat) : Walk Nat := do
  let data ← b.read p 4
  return read4Bytes data

/--
Fields of these widths, one behind the other: the position behind them.
-/
def Buffer.fieldsAs (note : Span → Mark) : List Nat → Nat → Walk Nat
  | [], p => return p
  | width :: widths, p => do
    let _ ← Looping.lift note (readBytes b.mem p width)
    fieldsAs note widths (p + width)

def Buffer.fields (widths : List Nat) (p : Nat) : Walk Nat := b.fieldsAs (fun span => .read span b.size) widths p

/--
An entry with these fields, of a table in a box that ends at `stop`.
-/
def Buffer.row (stop : Nat) (widths : List Nat) (p : Nat) : Walk Nat :=
  b.fieldsAs (fun span => .row span stop b.size) widths p

/--
A record that begins at `p` and is read with its length.
-/
def Buffer.record {α : Type} (stop p : Nat) (decode : (Nat → UInt8) → Checked Span α) : Walk α :=
  Looping.lift (fun span => .row ⟨p + span.offset, span.len⟩ stop b.size) (decode fun i => b.mem (p + i))

end Reads

def getBoxHeaderInfo (b : Buffer) (p : Nat) : Walk (Nat × List UInt8) := do
  let boxSize ← b.read4 p
  if boxSize = 1 then do
    let boxSize ← b.read (p + 8) 8
    let type ← b.read (p + 4) 4
    return (read8Bytes boxSize, type)
  else do
    let type ← b.read (p + 4) 4
    return (boxSize, type)

/--
`stop` is where the box around this one ends.
-/
def Mp4BoxBase.parse (b : Buffer) (stop start : Nat) : Walk Mp4BoxBase := do
  let boxSize ← b.read4 start
  let type ← b.read (start + 4) 4
  if boxSize = 1 then do
    let boxSize ← b.read (start + 8) 8
    Looping.check (.child start (read8Bytes boxSize) stop)
    return ⟨read8Bytes boxSize, type, 16⟩
  else do
    Looping.check (.child start boxSize stop)
    return ⟨boxSize, type, 8⟩

section Leaves

def fixedBox (widths : List Nat) (b : Buffer) (stop start : Nat) : Walk Nat := do
  let box ← Mp4BoxBase.parse b stop start
  let p ← b.fields widths (start + box.offset)
  assert (p = start + box.boxSize)
  return start + box.boxSize

/--
A version, the number of entries and the entries, which are read by `body`: the box, and the position behind the entries.
-/
def tableBox (body : Nat → Nat → Walk Nat) (b : Buffer) (stop start : Nat) : Walk (Mp4BoxBase × Nat) := do
  let box ← Mp4BoxBase.parse b stop start
  let p ← b.fields [4] (start + box.offset)
  let entryCount ← b.read4 p
  let p ← Looping.times (body (start + box.boxSize)) entryCount (p + 4)
  return (box, p)

/--
The brands are stored in an array of `BRANDS_MAX`.
-/
def brandsMax : Nat := 8

def FtypBox.parse (b : Buffer) (stop start : Nat) : Walk Nat := do
  let box ← Mp4BoxBase.parse b stop start
  let p ← b.fields [4, 4] (start + box.offset)
  let (p, _) ← Looping.loop (fun s => s.1 < start + box.boxSize)
    (fun (p, i) => do
      Looping.check (.slot i brandsMax)
      let p ← b.row (start + box.boxSize) [4] p
      return (p, i + 1))
    (p, 0)
  assert (p = start + box.boxSize)
  return start + box.boxSize

def MvhdBox.parse : Buffer → Nat → Nat → Walk Nat :=
  fixedBox ([4, 4, 4, 4, 4, 4, 2, 2, 4, 4] ++ List.replicate 9 4 ++ List.replicate 6 4 ++ [4])

/--
The times and the duration have 64 bits in all versions but the first one.
-/
def TkhdBox.parse (b : Buffer) (stop start : Nat) : Walk Nat := do
  let box ← Mp4BoxBase.parse b stop start
  let versionFlag ← b.read4 (start + box.offset)
  let time := if versionFlag / 2 ^ 24 = 0 then 4 else 8
  let p ← b.fields ([time, time, 4, 4, time, 4, 4, 2, 2, 2, 2] ++ List.replicate 9 4 ++ [4, 4])
    (start + box.offset + 4)
  assert (p = start + box.boxSize)
  return start + box.boxSize

def MdhdBox.parse (b : Buffer) (stop start : Nat) : Walk Nat := do
  let box ← Mp4BoxBase.parse b stop start
  let versionFlag ← b.read4 (start + box.offset)
  let time := if versionFlag / 2 ^ 24 = 0 then 4 else 8
  let _ ← b.fields [time, time, 4, time] (start + box.offset + 4)
  return start + box.boxSize

def uint32ToString (value : List UInt8) : List UInt8 := value.map fun c => if c = 0 then 0x20 else c

/--
Where the walk goes on, and the type of the track. The description is a string whose length is too large if the box is
too small, so that an exception is thrown.
-/
def HdlrBox.parse (b : Buffer) (stop start : Nat) : Walk (Nat × List UInt8) := do
  let box ← Mp4BoxBase.parse b stop start
  let p ← b.fields [4, 4] (start + box.offset)
  let handlerType ← b.read p 4
  let p ← b.fields [4, 4, 4] (p + 4)
  if start + box.boxSize < p then Looping.throw
  else do
    let _handlerDescr ← b.read p (start + box.boxSize - p)
    return (start + box.boxSize, uint32ToString handlerType)

def SmhdBox.parse : Buffer → Nat → Nat → Walk Nat := fixedBox [4, 2, 2]

def VmhdBox.parse : Buffer → Nat → Nat → Walk Nat := fixedBox [4, 2, 2, 2, 2]

/--
A box with a version and then a string or a vector up to its end, whose length is too large if the box is too small.
-/
def restBox (b : Buffer) (stop start : Nat) : Walk Nat := do
  let box ← Mp4BoxBase.parse b stop start
  let p ← b.fields [4] (start + box.offset)
  if start + box.boxSize < p then Looping.throw
  else do
    let _rest ← b.read p (start + box.boxSize - p)
    return start + box.boxSize

def UrlBox.parse : Buffer → Nat → Nat → Walk Nat := restBox

/--
An entry of a box that is a box itself has at least its header in the box.
-/
def entryBox (b : Buffer) (stop p : Nat) : Walk Unit := Looping.check (.row ⟨p, 8⟩ stop b.size)

def DrefBox.parse (b : Buffer) (stop start : Nat) : Walk Nat := do
  let (box, p) ← tableBox (fun stop p => do
      entryBox b stop p
      UrlBox.parse b stop p) b stop start
  assert (p = start + box.boxSize)
  return start + box.boxSize

def DinfBox.parse (b : Buffer) (stop start : Nat) : Walk Nat := do
  let box ← Mp4BoxBase.parse b stop start
  let p ← DrefBox.parse b (start + box.boxSize) (start + box.offset)
  assert (p = start + box.boxSize)
  return start + box.boxSize

/--
An entry of two numbers, behind which the box does not end before.
-/
def pairRow (b : Buffer) (stop p : Nat) : Walk Nat := do
  let p ← b.row stop [4, 4] p
  assert (p ≤ stop)
  return p

def SttsBox.parse (b : Buffer) (stop start : Nat) : Walk Nat := do
  let (box, p) ← tableBox (pairRow b) b stop start
  assert (p = start + box.boxSize)
  return start + box.boxSize

def StssBox.parse (b : Buffer) (stop start : Nat) : Walk Nat := do
  let (box, _) ← tableBox (fun stop p => b.row stop [4] p) b stop start
  return start + box.boxSize

def CttsBox.parse (b : Buffer) (stop start : Nat) : Walk Nat := do
  let (box, _) ← tableBox (pairRow b) b stop start
  return start + box.boxSize

/--
The turns behind the end of the box, where the loop is left, do nothing.
-/
def StscBox.parse (b : Buffer) (stop start : Nat) : Walk Nat := do
  let (box, p) ← tableBox (fun stop p => if stop ≤ p then return p else b.row stop [4, 4, 4] p) b stop start
  assert (p = start + box.boxSize)
  return start + box.boxSize

def StszBox.parse (b : Buffer) (stop start : Nat) : Walk Nat := do
  let box ← Mp4BoxBase.parse b stop start
  let p ← b.fields [4] (start + box.offset)
  let constantSize ← b.read4 p
  let sampleCount ← b.read4 (p + 4)
  let p ← if constantSize = 0 then Looping.times (b.row (start + box.boxSize) [4]) sampleCount (p + 8)
    else pure (p + 8)
  assert (p = start + box.boxSize)
  return start + box.boxSize

def StcoBox.parse (b : Buffer) (stop start : Nat) : Walk Nat := do
  let (box, p) ← tableBox (fun stop p => b.row stop [4] p) b stop start
  assert (p = start + box.boxSize)
  return start + box.boxSize

def ElstBox.parse (b : Buffer) (stop start : Nat) : Walk Nat := do
  let box ← Mp4BoxBase.parse b stop start
  let versionFlag ← b.read4 (start + box.offset)
  let entryCount ← b.read4 (start + box.offset + 4)
  let time := if versionFlag / 2 ^ 24 = 0 then 4 else 8
  let p ← Looping.times (b.row (start + box.boxSize) [time, time, 2, 2]) entryCount (start + box.offset + 8)
  assert (p = start + box.boxSize)
  return start + box.boxSize

def EdtsBox.parse (b : Buffer) (stop start : Nat) : Walk Nat := do
  let box ← Mp4BoxBase.parse b stop start
  let p ← ElstBox.parse b (start + box.boxSize) (start + box.offset)
  assert (p = start + box.boxSize)
  return start + box.boxSize

def MetaBox.parse : Buffer → Nat → Nat → Walk Nat := restBox

def UdtaBox.parse (b : Buffer) (stop start : Nat) : Walk Nat := do
  let box ← Mp4BoxBase.parse b stop start
  let p ← if start + box.offset < start + box.boxSize then
      MetaBox.parse b (start + box.boxSize) (start + box.offset)
    else pure (start + box.offset)
  assert (p = start + box.boxSize)
  return start + box.boxSize

def MdatBox.parse (b : Buffer) (stop start : Nat) : Walk Nat := do
  let box ← Mp4BoxBase.parse b stop start
  return start + box.boxSize

/--
The parser is that of the base class: the walk goes on behind the header.
-/
def FreeBox.parse (b : Buffer) (stop start : Nat) : Walk Nat := do
  let box ← Mp4BoxBase.parse b stop start
  return start + box.offset

def unknownBox (b : Buffer) (stop start : Nat) : Walk Nat := do
  let box ← Mp4BoxBase.parse b stop start
  return start + box.boxSize

end Leaves

section SampleDescriptions

def VideoSequenceBox.parse (b : Buffer) (stop start : Nat) : Walk Nat := do
  let box ← Mp4BoxBase.parse b stop start
  if box.boxSize < box.offset then Looping.throw
  else do
    let _data ← b.read (start + box.offset) (box.boxSize - box.offset)
    return start + box.boxSize

/--
The walk goes on behind the fields, not behind the box.
-/
def PaspBox.parse (b : Buffer) (stop start : Nat) : Walk Nat := do
  let box ← Mp4BoxBase.parse b stop start
  b.fields [4, 4] (start + box.offset)

def Mp4aBox.parse (b : Buffer) (stop start : Nat) : Walk Nat := do
  let box ← Mp4BoxBase.parse b stop start
  let p ← b.fields [4, 2, 2, 2, 2, 4, 2, 2, 2, 2, 4] (start + box.offset)
  assert (p < start + box.boxSize)
  let _sequenceData ← b.read p (start + box.boxSize - p)
  return start + box.boxSize

def StsdAvcInfo.parse (b : Buffer) (p : Nat) : Walk Nat :=
  b.fields ([4, 2, 2, 2, 2] ++ List.replicate 3 4 ++ [2, 2, 4, 4, 4, 2] ++ List.replicate 32 1 ++ [2, 2]) p

/--
In a box that is smaller than its header the record has no room: `end` is in front of it.
-/
def LhvCBox.parse (b : Buffer) (stop start : Nat) : Walk Nat := do
  let box ← Mp4BoxBase.parse b stop start
  let _ ← b.record (start + box.boxSize) (start + box.offset) fun mem =>
    Hevc.getLHevcDecInfoFromExtradata mem (box.boxSize - box.offset)
  return start + box.boxSize

def HvcCBox.parse (b : Buffer) (stop start : Nat) : Walk Nat := do
  let box ← Mp4BoxBase.parse b stop start
  if box.boxSize < box.offset ∨ 5 * 1024 < box.boxSize - box.offset then Looping.throw
  else do
    let (ok, _) ← b.record (start + box.boxSize) (start + box.offset) fun mem =>
      Hevc.getHevcDecInfoFromExtradata mem (box.boxSize - box.offset)
    if ok = false then Looping.throw
    else do
      let _hexData ← b.read (start + box.offset) (box.boxSize - box.offset)
      return start + box.boxSize

def StriBox.parse (b : Buffer) (stop start : Nat) : Walk Nat := do
  let box ← Mp4BoxBase.parse b stop start
  let _ ← b.fields [4, 1] (start + box.offset)
  return start + box.boxSize

def MustBox.parse (b : Buffer) (stop start : Nat) : Walk Nat := do
  let box ← Mp4BoxBase.parse b stop start
  return start + box.boxSize

/--
The loop over the boxes in a box, as long as more than `slack` bytes are left up to `stop`. `known` has the parsers of
the types that the box knows.
-/
def childBoxes {σ : Type} (b : Buffer) (stop slack : Nat) (known : List UInt8 → Option (Nat → σ → Walk (Nat × σ)))
    : Nat × σ → Walk (Nat × σ) :=
  Looping.loop (fun s => s.1 + slack < stop) fun (p, s) => do
    let (_, type) ← getBoxHeaderInfo b p
    match known type with
    | some parse => parse p s
    | none => do
      let p ← unknownBox b stop p
      return (p, s)

def leaf {σ : Type} (parse : Nat → Walk Nat) (p : Nat) (s : σ) : Walk (Nat × σ) := do
  let p ← parse p
  return (p, s)

def EyesBox.parse (b : Buffer) (stop start : Nat) : Walk Nat := do
  let box ← Mp4BoxBase.parse b stop start
  let _ ← childBoxes b (start + box.boxSize) 6
    (fun type => if type = utf8 "stri" then some (leaf (StriBox.parse b (start + box.boxSize))) else none)
    (start + box.offset, ())
  return start + box.boxSize

def VexuBox.parse (b : Buffer) (stop start : Nat) : Walk Nat := do
  let box ← Mp4BoxBase.parse b stop start
  let _ ← childBoxes b (start + box.boxSize) 6
    (fun type =>
      if type = utf8 "eyes" then some (leaf (EyesBox.parse b (start + box.boxSize)))
      else if type = utf8 "must" then some (leaf (MustBox.parse b (start + box.boxSize)))
      else none)
    (start + box.offset, ())
  return start + box.boxSize

def Hvc1Box.parse (b : Buffer) (stop start : Nat) : Walk Nat := do
  let box ← Mp4BoxBase.parse b stop start
  let p ← StsdAvcInfo.parse b (start + box.offset)
  let _ ← childBoxes b (start + box.boxSize) 6
    (fun type =>
      if type = utf8 "hvcC" then some (leaf (HvcCBox.parse b (start + box.boxSize)))
      else if type = utf8 "lhvC" then some (leaf (LhvCBox.parse b (start + box.boxSize)))
      else if type = utf8 "vexu" then some (leaf (VexuBox.parse b (start + box.boxSize)))
      else none)
    (p, ())
  return start + box.boxSize

def Avc1Box.parse (b : Buffer) (stop start : Nat) : Walk Nat := do
  let box ← Mp4BoxBase.parse b stop start
  let p ← StsdAvcInfo.parse b (start + box.offset)
  let p ← VideoSequenceBox.parse b (start + box.boxSize) p
  if p = start + box.boxSize then return start + box.boxSize
  else do
    let (p, _) ← childBoxes b (start + box.boxSize) 0
      (fun type => if type = utf8 "pasp" then some (leaf (PaspBox.parse b (start + box.boxSize))) else none) (p, ())
    assert (p = start + box.boxSize)
    return start + box.boxSize

def sampleEntry (b : Buffer) (handlerType type : List UInt8) : Nat → Nat → Walk Nat :=
  if handlerType = vide then
    if type = utf8 "avc1" then Avc1Box.parse b
    else if type = utf8 "hvc1" then Hvc1Box.parse b
    else unknownBox b
  else if handlerType = soun then
    if type = utf8 "mp4a" then Mp4aBox.parse b
    else unknownBox b
  else unknownBox b

def StsdBox.parse (b : Buffer) (handlerType : List UInt8) (stop start : Nat) : Walk Nat := do
  let box ← Mp4BoxBase.parse b stop start
  let p ← b.fields [4] (start + box.offset)
  let entryCount ← b.read4 p
  let p ← Looping.times
    (fun p => do
      entryBox b (start + box.boxSize) p
      let (mediaBoxSize, mediaBoxType) ← getBoxHeaderInfo b p
      assert (mediaBoxSize < box.boxSize)
      let p ← sampleEntry b handlerType mediaBoxType (start + box.boxSize) p
      assert (p ≤ start + box.boxSize)
      return p)
    entryCount (p + 4)
  assert (p = start + box.boxSize)
  return start + box.boxSize

end SampleDescriptions

section Containers

def StblBox.parse (b : Buffer) (handlerType : List UInt8) (stop start : Nat) : Walk Nat := do
  let box ← Mp4BoxBase.parse b stop start
  let (p, _) ← childBoxes b (start + box.boxSize) 0
    (fun type =>
      if type = utf8 "stsd" then some (leaf (StsdBox.parse b handlerType (start + box.boxSize)))
      else if type = utf8 "stts" then some (leaf (SttsBox.parse b (start + box.boxSize)))
      else if type = utf8 "ctts" then some (leaf (CttsBox.parse b (start + box.boxSize)))
      else if type = utf8 "stss" then some (leaf (StssBox.parse b (start + box.boxSize)))
      else if type = utf8 "stsc" then some (leaf (StscBox.parse b (start + box.boxSize)))
      else if type = utf8 "stsz" then some (leaf (StszBox.parse b (start + box.boxSize)))
      else if type = utf8 "stco" then some (leaf (StcoBox.parse b (start + box.boxSize)))
      else none)
    (start + box.offset, ())
  assert (p = start + box.boxSize)
  return start + box.boxSize

def MinfBox.parse (b : Buffer) (handlerType : List UInt8) (stop start : Nat) : Walk Nat := do
  let box ← Mp4BoxBase.parse b stop start
  let (p, _) ← childBoxes b (start + box.boxSize) 6
    (fun type =>
      if type = utf8 "smhd" then some (leaf (SmhdBox.parse b (start + box.boxSize)))
      else if type = utf8 "vmhd" then some (leaf (VmhdBox.parse b (start + box.boxSize)))
      else if type = utf8 "dinf" then some (leaf (DinfBox.parse b (start + box.boxSize)))
      else if type = utf8 "stbl" then some (leaf (StblBox.parse b handlerType (start + box.boxSize)))
      else none)
    (start + box.offset, ())
  assert (p = start + box.boxSize)
  return start + box.boxSize

/--
Where the walk goes on, and the type of the track.
-/
def MdiaBox.parse (b : Buffer) (stop start : Nat) (handlerType : List UInt8) : Walk (Nat × List UInt8) := do
  let box ← Mp4BoxBase.parse b stop start
  let (p, handlerType) ← childBoxes b (start + box.boxSize) 6
    (fun type =>
      if type = utf8 "mdhd" then some (leaf (MdhdBox.parse b (start + box.boxSize)))
      else if type = utf8 "hdlr" then some fun p _ => HdlrBox.parse b (start + box.boxSize) p
      else if type = utf8 "minf" then
        some fun p handlerType => leaf (MinfBox.parse b handlerType (start + box.boxSize)) p handlerType
      else none)
    (start + box.offset, handlerType)
  assert (p = start + box.boxSize)
  return (start + box.boxSize, handlerType)

def TrakBox.parse (b : Buffer) (stop start : Nat) : Walk Nat := do
  let box ← Mp4BoxBase.parse b stop start
  let _ ← childBoxes b (start + box.boxSize) 0
    (fun type =>
      if type = utf8 "tkhd" then some (leaf (TkhdBox.parse b (start + box.boxSize)))
      else if type = utf8 "edts" then some (leaf (EdtsBox.parse b (start + box.boxSize)))
      else if type = utf8 "mdia" then some (MdiaBox.parse b (start + box.boxSize))
      else none)
    (start + box.offset, [])
  return start + box.boxSize

def MoovBox.parse (b : Buffer) (stop start : Nat) : Walk Nat := do
  let box ← Mp4BoxBase.parse b stop start
  let _ ← childBoxes b (start + box.boxSize) 0
    (fun type =>
      if type = utf8 "mvhd" then some (leaf (MvhdBox.parse b (start + box.boxSize)))
      else if type = utf8 "trak" then some (leaf (TrakBox.parse b (start + box.boxSize)))
      else if type = utf8 "udta" then some (leaf (UdtaBox.parse b (start + box.boxSize)))
      else none)
    (start + box.offset, ())
  return start + box.boxSize

end Containers

section Demuxer

def rootBox (b : Buffer) (type : List UInt8) : Nat → Walk Nat :=
  if type = utf8 "ftyp" then FtypBox.parse b b.size
  else if type = utf8 "moov" then MoovBox.parse b b.size
  else if type = utf8 "free" then FreeBox.parse b b.size
  else if type = utf8 "mdat" then MdatBox.parse b b.size
  else unknownBox b b.size

/--
The loop over the buffer, which begins at the address `base`: how much is consumed. It is left in front of a box that is
not complete yet, where the sum that is compared is one of addresses.
-/
def sourceData (base : Nat) (b : Buffer) : Walk Nat := do
  let (p, _) ← Looping.loop (fun s => s.2 ∧ s.1 < b.size)
    (fun (p, _) => do
      let (boxSize, type) ← getBoxHeaderInfo b p
      if base + b.size < (base + p + boxSize) % 2 ^ 64 then return (p, false)
      else do
        let p ← rootBox b type p
        return (p, true))
    (0, true)
  return p

def readFile (file : List UInt8) (offset len : Nat) : List UInt8 := (file.drop offset).take len

def readTo (buffer data : List UInt8) : List UInt8 := data ++ buffer.drop data.length

def minSize : Nat := 16

/--
Whether fewer bytes have been read than there should be. The number that has been read is an `int`.
-/
def readFewer (read len : Nat) : Bool := ((Int.bmod read (2 ^ 32)) % (2 ^ 64)).toNat < len

def Buffer.ofList (buffer : List UInt8) : Buffer := ⟨(buffer.getD · 0), buffer.length⟩

def frontRead (file : List UInt8) (offset : Nat) (buffer : List UInt8) : List UInt8 :=
  readTo buffer (readFile file offset minSize)

def boxRead (file : List UInt8) (offset boxSize : Nat) (buffer : List UInt8) : List UInt8 :=
  readTo (buffer ++ List.replicate (boxSize - buffer.length) 0) (readFile file offset boxSize)

/--
The loop over a file: a box is read into the buffer and is parsed there.
-/
def onRead (file : List UInt8) : Walk Unit := do
  let _ ← Looping.loop (fun s => s.2.2)
    (fun (offset, buffer, _) => do
      let front := frontRead file offset buffer
      if (readFile file offset minSize).length < minSize then return (offset, front, false)
      else do
        let (boxSize, type) ← getBoxHeaderInfo (Buffer.ofList front) 0
        let whole := boxRead file offset boxSize front
        if readFewer (readFile file offset boxSize).length boxSize then return (offset, whole, false)
        else do
          let _ ← rootBox (Buffer.ofList whole) type 0
          return (offset + boxSize, whole, true))
    (0, List.replicate minSize 0, true)

end Demuxer

end Mp4.Boxes
