import CppStreamer.Format.LHevcRecord
import CppStreamer.Format.Mp4.Mp4Box

/-!
This module contains how a movie is laid out: what stands in the body of each box that the demuxer looks into, said of
the boxes alone, without a buffer or a position.
-/

open ByteStream StringEx

namespace Mp4.Layout

structure Box where
  wide : Bool
  type : List UInt8
  body : List UInt8
  length_type : type.length = 4
  size_lt : if wide then 16 + body.length < 2 ^ 64 else 8 + body.length < 2 ^ 32

namespace Box

variable (x : Box)

def headerLen : Nat := if x.wide then 16 else 8

def size : Nat := x.headerLen + x.body.length

def header : List UInt8 :=
  if x.wide then write4Bytes 1 ++ (x.type ++ write8Bytes x.size) else write4Bytes x.size ++ x.type

def bytes : List UInt8 := x.header ++ x.body

end Box

section Children

variable {σ : Type}

/--
What a box in another one is like, by its type, where the state is what is known of the track in front of it and behind
it.
-/
abbrev Child (σ : Type) : Type := List UInt8 → σ → Box → σ → Prop

inductive Boxes (child : Child σ) : σ → List Box → σ → Prop where
  | nil {s : σ} : Boxes child s [] s
  | cons {s s' s'' : σ} {x : Box} {xs : List Box} (hx : child x.type s x s') (hrest : Boxes child s' xs s'')
      : Boxes child s (x :: xs) s''

def Body (child : Child σ) (s : σ) (body : List UInt8) (s' : σ) : Prop :=
  ∃ xs : List Box, body = xs.flatMap Box.bytes ∧ Boxes child s xs s'

def leaf (content : List UInt8 → Prop) : σ → Box → σ → Prop := fun s x s' => content x.body ∧ s' = s

def any : σ → Box → σ → Prop := fun s _ s' => s' = s

def Counted (content : Box → Prop) (body : List UInt8) : Prop :=
  ∃ (front : List UInt8) (xs : List Box), front.length = 4 ∧ xs.length < 2 ^ 32
    ∧ body = front ++ (write4Bytes xs.length ++ xs.flatMap Box.bytes) ∧ ∀ x ∈ xs, content x

end Children

section Leaves

variable (body : List UInt8)

def word (i : Nat) : Nat := read4Bytes (body.drop i)

/--
The length of a time, which the version says.
-/
def timeLen : Nat := if word body 0 / 2 ^ 24 = 0 then 4 else 8

def Ftyp : Prop := ∃ brands ≤ 8, body.length = 8 + 4 * brands

def Mvhd : Prop := body.length = 100

def Tkhd : Prop := body.length = 72 + 3 * timeLen body

def Mdhd : Prop := 8 + 3 * timeLen body ≤ body.length

def Hdlr : Prop := 24 ≤ body.length

/--
The type of the track. A character that is not there is a space.
-/
def handlerTypeOf : List UInt8 := ((body.drop 8).take 4).map fun c => if c = 0 then 0x20 else c

def Smhd : Prop := body.length = 8

def Vmhd : Prop := body.length = 12

def Versioned : Prop := 4 ≤ body.length

def Dref : Prop := Counted (fun x => Versioned x.body) body

def Dinf : Prop := ∃ x : Box, body = x.bytes ∧ Dref x.body

/--
As many entries as are announced, each with `width` bytes.
-/
def Table (width : Nat) : Prop := body.length = 8 + width * word body 4

/--
A table behind which something may follow.
-/
def OpenTable (width : Nat) : Prop := 8 + width * word body 4 ≤ body.length

def Stsz : Prop := body.length = 12 + if word body 4 = 0 then 4 * word body 8 else 0

def Elst : Prop := Table body (2 * timeLen body + 4)

def Edts : Prop := ∃ x : Box, body = x.bytes ∧ Elst x.body

def Udta : Prop := body = [] ∨ ∃ x : Box, body = x.bytes ∧ Versioned x.body

end Leaves

section SampleDescriptions

def infoLen : Nat := 78

/--
The fields, the parameter sets, and boxes of which one that has the aspect of a pixel has nothing else.
-/
def Avc1 (body : List UInt8) : Prop :=
  ∃ (info : List UInt8) (sets : Box) (boxes : List UInt8), info.length = infoLen ∧ body = info ++ (sets.bytes ++ boxes)
    ∧ Body (fun type => if type = utf8 "pasp" then leaf (fun body => body.length = 8) else any) () boxes ()

def Eyes (body : List UInt8) : Prop :=
  Body (fun type => if type = utf8 "stri" then leaf (fun body => 5 ≤ body.length) else any) () body ()

def Vexu (body : List UInt8) : Prop := Body (fun type => if type = utf8 "eyes" then leaf Eyes else any) () body ()

/--
A record whose last array has a NALU, and which is not too long for the demuxer.
-/
def HvcC (body : List UInt8) : Prop :=
  ∃ r : Hevc.RecordBytes, body = r.bytes ∧ Hevc.LastHasNalu r.arrays ∧ body.length ≤ 5 * 1024

def LhvC (body : List UInt8) : Prop := ∃ r : Hevc.LRecordBytes, body = r.bytes

def Hvc1 (body : List UInt8) : Prop :=
  ∃ info boxes : List UInt8, info.length = infoLen ∧ body = info ++ boxes
    ∧ Body
      (fun type =>
        if type = utf8 "hvcC" then leaf HvcC
        else if type = utf8 "lhvC" then leaf LhvC
        else if type = utf8 "vexu" then leaf Vexu
        else any) () boxes ()

def Mp4a (body : List UInt8) : Prop := 28 < body.length

def Entry (handlerType : List UInt8) (x : Box) : Prop :=
  if handlerType = vide then
    if x.type = utf8 "avc1" then Avc1 x.body
    else if x.type = utf8 "hvc1" then Hvc1 x.body
    else True
  else if handlerType = soun then
    if x.type = utf8 "mp4a" then Mp4a x.body
    else True
  else True

def Stsd (handlerType body : List UInt8) : Prop := Counted (Entry handlerType) body

end SampleDescriptions

section Containers

def Stbl (handlerType body : List UInt8) : Prop :=
  Body
    (fun type =>
      if type = utf8 "stsd" then leaf (Stsd handlerType)
      else if type = utf8 "stts" then leaf (Table · 8)
      else if type = utf8 "ctts" then leaf (OpenTable · 8)
      else if type = utf8 "stss" then leaf (OpenTable · 4)
      else if type = utf8 "stsc" then leaf (Table · 12)
      else if type = utf8 "stsz" then leaf Stsz
      else if type = utf8 "stco" then leaf (Table · 4)
      else any) () body ()

def Minf (handlerType body : List UInt8) : Prop :=
  Body
    (fun type =>
      if type = utf8 "smhd" then leaf Smhd
      else if type = utf8 "vmhd" then leaf Vmhd
      else if type = utf8 "dinf" then leaf Dinf
      else if type = utf8 "stbl" then leaf (Stbl handlerType)
      else any) () body ()

/--
The type of the track is known behind `hdlr`.
-/
def Mdia (handlerType body handlerType' : List UInt8) : Prop :=
  Body
    (fun type =>
      if type = utf8 "mdhd" then leaf Mdhd
      else if type = utf8 "hdlr" then fun _ x handlerType => Hdlr x.body ∧ handlerType = handlerTypeOf x.body
      else if type = utf8 "minf" then fun handlerType => leaf (Minf handlerType) handlerType
      else any) handlerType body handlerType'

def Trak (body : List UInt8) : Prop :=
  ∃ handlerType : List UInt8,
    Body
      (fun type =>
        if type = utf8 "tkhd" then leaf Tkhd
        else if type = utf8 "edts" then leaf Edts
        else if type = utf8 "mdia" then fun handlerType x handlerType' => Mdia handlerType x.body handlerType'
        else any) [] body handlerType

def Moov (body : List UInt8) : Prop :=
  Body
    (fun type =>
      if type = utf8 "mvhd" then leaf Mvhd
      else if type = utf8 "trak" then leaf Trak
      else if type = utf8 "udta" then leaf Udta
      else any) () body ()

def Root (x : Box) : Prop :=
  if x.type = utf8 "ftyp" then Ftyp x.body
  else if x.type = utf8 "moov" then Moov x.body
  else True

end Containers

structure Movie where
  boxes : List Box
  root : ∀ x ∈ boxes, Root x

def Movie.bytes (movie : Movie) : List UInt8 := movie.boxes.flatMap Box.bytes

/--
No box of the movie is one of free space, but for those without any.
-/
def Movie.Packed (movie : Movie) : Prop := ∀ x ∈ movie.boxes, x.type = utf8 "free" → x.body = []

end Mp4.Layout
