import CppStreamer.Format.OpusHeader

/-!
This module contains the packets of Opus with their control headers, and which of them are taken apart without a loss.
-/

open ByteStream

namespace Opus

section Encode

/--
A length of one byte, or of two from 252 on.
-/
def lacing (n : Nat) : List UInt8 :=
  if n < 252 then [UInt8.ofNat n] else [UInt8.ofNat (252 + n % 4), UInt8.ofNat ((n - (252 + n % 4)) / 4)]

/--
A size of any number of bytes.
-/
def auSize (n : Nat) : List UInt8 := List.replicate (n / 255) 255 ++ [UInt8.ofNat (n % 255)]

/--
Padding with its length, in which each byte of 255 stands for 254 bytes.
-/
structure Padding where
  runs : Nat
  last : Nat
  bytes : List UInt8
  last_lt : last < 255
  length_bytes : bytes.length = 254 * runs + last

def Padding.lengths (padding : Padding) : List UInt8 :=
  List.replicate padding.runs 255 ++ [UInt8.ofNat padding.last]

/--
The four ways to put frames into a packet.
-/
inductive Body where
  | one (frame : List UInt8)
  | equal (frame frame' : List UInt8)
  | two (frame frame' : List UInt8)
  | many (vbr : Bool) (frames : List (List UInt8)) (padding : Option Padding)

namespace Body

def code : Body → Nat
  | one _ => 0
  | equal _ _ => 1
  | two _ _ => 2
  | many _ _ _ => 3

def frames : Body → List (List UInt8)
  | one frame => [frame]
  | equal frame frame' => [frame, frame']
  | two frame frame' => [frame, frame']
  | many _ frames _ => frames

/--
The byte with the number of frames, and whether their sizes are given and padding is there.
-/
def countByte (vbr : Bool) (count : Nat) (padding : Bool) : UInt8 :=
  UInt8.ofNat (count + padding.toNat * 2 ^ 6 + vbr.toNat * 2 ^ 7)

def paddingLengths (padding : Option Padding) : List UInt8 := (padding.map Padding.lengths).getD []

def sizes (vbr : Bool) (frames : List (List UInt8)) : List UInt8 :=
  if vbr then frames.dropLast.flatMap fun frame => lacing frame.length else []

/--
What is between the TOC byte and the first frame.
-/
def front : Body → List UInt8
  | one _ => []
  | equal _ _ => []
  | two frame _ => lacing frame.length
  | many vbr frames padding =>
    countByte vbr frames.length padding.isSome :: (paddingLengths padding ++ sizes vbr frames)

/--
What is behind the last frame.
-/
def back : Body → List UInt8
  | many _ _ padding => (padding.map Padding.bytes).getD []
  | _ => []

/--
The lengths that the format allows.
-/
def Valid : Body → Prop
  | one frame => frame.length ≤ 1275
  | equal frame frame' => frame.length = frame'.length ∧ frame.length ≤ 1275
  | two frame frame' => frame.length ≤ 1275 ∧ frame'.length ≤ 1275
  | many vbr frames _ =>
    1 ≤ frames.length ∧ frames.length ≤ 48 ∧ (∀ frame ∈ frames, frame.length ≤ 1275)
      ∧ (vbr = false → ∀ frame ∈ frames, ∀ frame' ∈ frames, frame.length = frame'.length)

end Body

/--
A packet, `config` are the six bits in front of the code.
-/
structure Packet where
  config : Nat
  body : Body
  config_lt : config < 2 ^ 6
  valid : body.Valid

namespace Packet

/--
The TOC byte of the packet with another code.
-/
def tocWith (p : Packet) (code : Nat) : UInt8 := UInt8.ofNat (p.config * 4 + code)

def head (p : Packet) : List UInt8 := p.tocWith p.body.code :: p.body.front

def bytes (p : Packet) : List UInt8 := p.head ++ (p.body.frames.flatten ++ p.body.back)

end Packet

/--
What a control header has besides the prefix and the size.
-/
structure Control where
  startTrim : Option (UInt8 × UInt8)
  endTrim : Option (UInt8 × UInt8)
  extension : Option (List UInt8)
  reserved : Nat
  reserved_lt : reserved < 2 ^ 2
  extension_lt : ∀ data, extension = some data → data.length < 2 ^ 8

namespace Control

def flags (startTrim endTrim extension : Bool) (reserved : Nat) : Nat :=
  startTrim.toNat * 2 ^ 4 + endTrim.toNat * 2 ^ 3 + extension.toNat * 2 ^ 2 + reserved

def controlPrefix (c : Control) : Nat :=
  0x7fe0 + flags c.startTrim.isSome c.endTrim.isSome c.extension.isSome c.reserved

def trim (value : Option (UInt8 × UInt8)) : List UInt8 := (value.map fun (high, low) => [high, low]).getD []

def extensionBytes (c : Control) : List UInt8 :=
  (c.extension.map fun data => UInt8.ofNat data.length :: data).getD []

def bytes (c : Control) (size : Nat) : List UInt8 :=
  write2Bytes c.controlPrefix ++ (auSize size ++ (trim c.startTrim ++ (trim c.endTrim ++ c.extensionBytes)))

end Control

/--
A packet behind its control header.
-/
structure AccessUnit where
  control : Control
  packet : Packet

def AccessUnit.bytes (unit : AccessUnit) : List UInt8 :=
  unit.control.bytes unit.packet.bytes.length ++ unit.packet.bytes

def unitStream (units : List AccessUnit) : List UInt8 := units.flatMap AccessUnit.bytes

/--
Every frame behind the TOC byte of its packet with the code for one frame.
-/
def Packet.pieces (p : Packet) : List (List UInt8) := p.body.frames.map (p.tocWith 0 :: ·)

/--
Exactly the frames of all packets are returned.
-/
def Repacketised (units : List AccessUnit) : Prop :=
  ∃ frames, getOpusFrameVector (unitStream units) = .ok frames
    ∧ frames.map (·.bytes (unitStream units)) = (units.flatMap fun unit => unit.packet.pieces).map some

/--
A packet that is refused: the first of two frames is empty, or frames of the same size are longer than 48 bytes.
-/
def Body.Refused : Body → Prop
  | two frame _ => frame = []
  | many false frames _ => ∃ frame ∈ frames, 48 < frame.length
  | _ => False

/--
The body is not refused, the sizes of its frames are not given one by one, and the byte in front of every frame happens
to be the TOC byte that the frame should have.
-/
structure Packet.Kept (p : Packet) : Prop where
  accepted : ¬p.body.Refused
  constant : ∀ frames padding, p.body ≠ .many true frames padding
  toc : ∀ before frame after, p.body.frames = before ++ frame :: after →
    (p.head ++ before.flatten).getLast? = some (p.tocWith 0)

end Encode

section Header

theorem unitSize_replicate {b : UInt8} (h : b ≠ 255) (runs : Nat) (rest : List UInt8)
    : unitSize (List.replicate runs 255 ++ b :: rest) = (255 * runs + b.toNat, runs + 1) := by
  induction runs with
  | zero =>
    rw [List.replicate_zero, List.nil_append, unitSize_stop h]
    simp
  | succ runs ih =>
    rw [List.replicate_succ, List.cons_append, unitSize_run, ih]
    . rw [Prod.mk.injEq]
      constructor
      . simp only
        omega
      . rfl
    . exact List.append_ne_nil_of_right_ne_nil _ (List.cons_ne_nil _ _)

theorem ofNat_ne_max {n : Nat} (h : n < 255) : UInt8.ofNat n ≠ 255 := by
  intro heq
  have hnat := congrArg UInt8.toNat heq
  rw [UInt8.toNat_ofNat', Nat.mod_eq_of_lt (by omega)] at hnat
  change n = 255 at hnat
  omega

theorem toNat_ofNat_of_lt {n : Nat} (h : n < 2 ^ 8) : (UInt8.ofNat n).toNat = n := by
  rw [UInt8.toNat_ofNat']
  exact Nat.mod_eq_of_lt h

theorem length_auSize (n : Nat) : (auSize n).length = n / 255 + 1 := by
  rw [auSize, List.length_append, List.length_replicate, List.length_singleton]

theorem unitSize_auSize (n : Nat) (rest : List UInt8) : unitSize (auSize n ++ rest) = (n, (auSize n).length) := by
  have hlt : n % 255 < 255 := Nat.mod_lt _ (by omega)
  rw [length_auSize, auSize, List.append_assoc, List.singleton_append, unitSize_replicate (ofNat_ne_max hlt),
    toNat_ofNat_of_lt (by omega), Nat.div_add_mod]

namespace Control

variable (c : Control)

theorem flags_spec : ∀ startTrim endTrim extension : Bool, ∀ reserved < 2 ^ 2,
    (0x7fe0 + flags startTrim endTrim extension reserved < 2 ^ 16
      ∧ (0x7fe0 + flags startTrim endTrim extension reserved) / 2 ^ 5 = 0x3ff)
      ∧ (0x7fe0 + flags startTrim endTrim extension reserved).testBit 4 = startTrim
      ∧ (0x7fe0 + flags startTrim endTrim extension reserved).testBit 3 = endTrim
      ∧ (0x7fe0 + flags startTrim endTrim extension reserved).testBit 2 = extension := by
  decide

theorem length_trim (value : Option (UInt8 × UInt8)) : (trim value).length = if value.isSome then 2 else 0 := by
  cases value with
  | none => rfl
  | some value => rfl

theorem length_bytes (size : Nat)
    : (c.bytes size).length
        = 2 + (auSize size).length + (trim c.startTrim).length + (trim c.endTrim).length + c.extensionBytes.length := by
  simp only [bytes, List.length_append, length_write2Bytes]
  omega

theorem read2Bytes_bytes (size : Nat) (rest : List UInt8)
    : read2Bytes (c.bytes size ++ rest) = c.controlPrefix := by
  rcases flags_spec c.startTrim.isSome c.endTrim.isSome c.extension.isSome c.reserved c.reserved_lt
    with ⟨⟨hlt, -⟩, -⟩
  rw [bytes, List.append_assoc, read2Bytes_append _ _ (Nat.le_refl _)]
  exact read2Bytes_write2Bytes_of_lt hlt

theorem unitSize_bytes (size : Nat) (rest : List UInt8)
    : unitSize ((c.bytes size ++ rest).drop 2) = (size, (auSize size).length) := by
  rw [bytes, List.append_assoc, List.drop_left' (length_write2Bytes _), List.append_assoc, unitSize_auSize]

theorem controlEnd_bytes (size : Nat) (rest : List UInt8)
    : controlEnd (c.bytes size ++ rest) = .ok (c.bytes size).length := by
  rcases flags_spec c.startTrim.isSome c.endTrim.isSome c.extension.isSome c.reserved c.reserved_lt
    with ⟨-, hstart, hend, hext⟩
  have hpos (n : Nat) (value : Option (UInt8 × UInt8))
      : (if value.isSome = true then n + 2 else n) = n + (trim value).length := by
    rw [length_trim]
    split
    all_goals rfl
  unfold controlEnd
  simp only [read2Bytes_bytes, unitSize_bytes]
  change (if (0x7fe0 + flags _ _ _ _).testBit 2 = true then _ else _) = _
  simp only [controlPrefix, hstart, hend, hext, hpos]
  rw [length_bytes]
  cases hextension : c.extension with
  | none =>
    have hnone : c.extensionBytes = [] := by rw [extensionBytes, hextension]; rfl
    rw [hnone]
    rfl
  | some data =>
    have hsome : c.extensionBytes = UInt8.ofNat data.length :: data := by rw [extensionBytes, hextension]; rfl
    have hsplit : c.bytes size ++ rest = (write2Bytes c.controlPrefix ++ (auSize size ++ (trim c.startTrim
        ++ trim c.endTrim))) ++ UInt8.ofNat data.length :: (data ++ rest) := by
      rw [bytes, hsome]
      simp only [List.append_assoc, List.cons_append]
    have hbyte : readByte (c.bytes size ++ rest)
        (2 + (auSize size).length + (trim c.startTrim).length + (trim c.endTrim).length) = .ok data.length := by
      have hlen : 2 + (auSize size).length + (trim c.startTrim).length + (trim c.endTrim).length
          = (write2Bytes c.controlPrefix ++ (auSize size ++ (trim c.startTrim ++ trim c.endTrim))).length := by
        simp only [List.length_append, length_write2Bytes]
        omega
      rw [readByte, hsplit, hlen, List.getElem?_append_right (Nat.le_refl _), Nat.sub_self, List.getElem?_cons_zero]
      simp only [toNat_ofNat_of_lt (c.extension_lt data hextension)]
    rw [hbyte, hsome]
    simp only [Option.isSome_some, if_true, Functor.map, Except.map, List.length_cons]
    congr 1
    omega

theorem getOpusHeader_bytes {data : List UInt8} (rest : List UInt8)
    : getOpusHeader (c.bytes data.length ++ (data ++ rest)) = .ok ((c.bytes data.length).length, data.length) := by
  rcases flags_spec c.startTrim.isSome c.endTrim.isSome c.extension.isSome c.reserved c.reserved_lt
    with ⟨⟨-, hmark⟩, -⟩
  have hlen := c.length_bytes data.length
  have hauSize := length_auSize data.length
  unfold getOpusHeader
  rw [if_neg, read2Bytes_bytes, if_neg, controlEnd_bytes, unitSize_bytes]
  . simp only [bind, Except.bind, List.length_append]
    rw [if_neg]
    omega
  . rw [controlPrefix, hmark]
    exact fun h => h rfl
  . rw [List.length_append]
    omega

end Control

end Header

section Parse

theorem xiphLacing16bit_lacing {n : Nat} (h : n ≤ 1275) (rest : List UInt8)
    : xiphLacing16bit (lacing n ++ rest) = .ok (n, (lacing n).length) := by
  unfold lacing
  split
  . next hlt =>
    have hnot : ¬252 ≤ (UInt8.ofNat n).toNat := by
      rw [toNat_ofNat_of_lt (by omega)]
      omega
    rw [List.singleton_append]
    cases rest with
    | nil => rw [xiphLacing16bit, if_neg hnot, toNat_ofNat_of_lt (by omega), List.length_singleton]
    | cons next rest => rw [xiphLacing16bit, if_neg hnot, toNat_ofNat_of_lt (by omega), List.length_singleton]
  . next hge =>
    have hfirst : (UInt8.ofNat (252 + n % 4)).toNat = 252 + n % 4 := toNat_ofNat_of_lt (by omega)
    have hsecond : (UInt8.ofNat ((n - (252 + n % 4)) / 4)).toNat = (n - (252 + n % 4)) / 4 :=
      toNat_ofNat_of_lt (by omega)
    rw [List.cons_append, List.cons_append, xiphLacing16bit, hfirst, hsecond, if_pos (by omega)]
    congr 2
    omega

theorem frameSizes_flatMap {ns : List Nat} (h : ∀ n ∈ ns, n ≤ 1275) (rest : List UInt8)
    : frameSizes ns.length (ns.flatMap lacing ++ rest) = .ok (ns, (ns.flatMap lacing).length) := by
  induction ns with
  | nil => rfl
  | cons n ns ih =>
    rcases List.forall_mem_cons.mp h with ⟨hn, hns⟩
    rw [List.length_cons, List.flatMap_cons, frameSizes, List.append_assoc, xiphLacing16bit_lacing hn]
    simp only [bind, Except.bind, List.drop_left, ih hns, List.length_append]

theorem xiphLacingFull_replicate {last : Nat} (hlast : last < 255) (rest : List UInt8) {runs val : Nat} (len : Nat)
    (hval : val + 254 * runs ≤ 0x7fffffff - 254)
    : xiphLacingFull val len (List.replicate runs 255 ++ UInt8.ofNat last :: rest)
        = .ok (val + 254 * runs + last, len + runs + 1) := by
  induction runs generalizing val len with
  | zero =>
    have hlt : UInt8.ofNat last < 255 := by
      rw [UInt8.lt_iff_toNat_lt, toNat_ofNat_of_lt (by omega)]
      exact hlast
    rw [List.replicate_zero, List.nil_append, xiphLacingFull, if_neg (by omega), if_pos hlt,
      toNat_ofNat_of_lt (by omega)]
    rfl
  | succ runs ih =>
    have hmax : ¬(255 : UInt8) < 255 := by decide
    rw [List.replicate_succ, List.cons_append, xiphLacingFull, if_neg (by omega), if_neg hmax, ih _ (by omega)]
    congr 2
    all_goals omega

theorem xiphLacingFull_lengths (padding : Padding) (hshort : 255 * padding.runs < 2 ^ 31 - 3) (rest : List UInt8)
    : xiphLacingFull 0 0 (padding.lengths ++ rest) = .ok (padding.bytes.length, padding.lengths.length) := by
  rw [Padding.lengths, List.append_assoc, List.singleton_append,
    xiphLacingFull_replicate padding.last_lt _ _ (by omega), padding.length_bytes]
  simp

theorem Body.countByte_spec : ∀ vbr padding : Bool, ∀ count ≤ 48,
    (countByte vbr count padding).toNat % 2 ^ 6 = count ∧ (countByte vbr count padding).toNat.testBit 6 = padding
      ∧ (countByte vbr count padding).toNat.testBit 7 = vbr := by
  decide

theorem Packet.toNat_tocWith (p : Packet) {code : Nat} (h : code < 4) : (p.tocWith code).toNat % 4 = code := by
  have := p.config_lt
  rw [tocWith, toNat_ofNat_of_lt (by omega)]
  omega

/--
Frames from a position on, each of them with the byte in front of it.
-/
def framesAt (pos : Nat) : List (List UInt8) → List OpusFrame
  | [] => []
  | frame :: frames => ⟨pos - 1, frame.length + 1⟩ :: framesAt (pos + frame.length) frames

theorem framesAt_equal {pos size : Nat} {frames : List (List UInt8)} (h : ∀ frame ∈ frames, frame.length = size)
    : framesAt pos frames = (List.range frames.length).map fun i => ⟨pos - 1 + i * size, size + 1⟩ := by
  induction frames generalizing pos with
  | nil => rfl
  | cons frame frames ih =>
    rcases List.forall_mem_cons.mp h with ⟨hframe, hframes⟩
    rw [framesAt, List.length_cons, List.range_succ_eq_map, List.map_cons, List.map_map, ih hframes, hframe]
    congr 1
    . simp
    . apply List.map_congr_left
      intro i _
      simp only [Function.comp_apply, OpusFrame.mk.injEq, Nat.cast_add, Nat.succ_eq_add_one, Nat.cast_one, and_true,
        add_mul, one_mul]
      omega

theorem length_vbrFrames (p : Nat) (lastLen : Int) (ns : List Nat) : (vbrFrames p lastLen ns).length = ns.length := by
  induction ns generalizing p with
  | nil => rfl
  | cons n ns ih =>
    cases ns with
    | nil => rfl
    | cons next ns => rw [vbrFrames, List.length_cons, ih, ← List.length_cons]

end Parse

section Codes

/--
The frames behind the padding length of a packet that has any number of them.
-/
def countedFrames (data : List UInt8) (len index padding lacing : Nat) : Except OpusFault (List OpusFrame) :=
  if index.testBit 7 then do
    let (sizes, lacing') ← frameSizes (index % 2 ^ 6 - 1) ((data.take len).drop (2 + lacing))
    let frameLen : Int := len - (2 + lacing + lacing' : Nat) - padding
    if frameLen < sizes.sum then .error .refused
    else .ok (vbrFrames (2 + lacing + lacing') (frameLen - sizes.sum) sizes)
  else
    let frameLen : Int := len - (2 + lacing : Nat) - padding
    if frameLen.tmod (index % 2 ^ 6 : Nat) ≠ 0 ∨ 48 < frameLen.tdiv (index % 2 ^ 6 : Nat) then .error .refused
    else
      let frameLen := frameLen.tdiv (index % 2 ^ 6 : Nat)
      .ok ((List.range (index % 2 ^ 6)).map fun (i : Nat) => ⟨(2 + lacing : Nat) - 1 + i * frameLen, frameLen + 1⟩)

variable {data : List UInt8} {len type index : Nat}

theorem getOpusFrame_code0 (htype : readByte data 0 = .ok type) (hcode : type % 4 = 0)
    : getOpusFrame data len = .ok [⟨0, len - 1 + 1⟩] := by
  unfold getOpusFrame
  simp only [htype, hcode, bind, Except.bind, if_true]

theorem getOpusFrame_code1 (htype : readByte data 0 = .ok type) (hcode : type % 4 = 1)
    : getOpusFrame data len
        = if ((len : Int) - 1).tmod 2 = 1 then .error .refused
          else .ok [⟨0, ((len : Int) - 1).tdiv 2 + 1⟩, ⟨((len : Int) - 1).tdiv 2, ((len : Int) - 1).tdiv 2 + 1⟩] := by
  unfold getOpusFrame
  simp only [htype, hcode, bind, Except.bind, if_true]
  rw [if_neg (by omega)]

theorem getOpusFrame_code2 (htype : readByte data 0 = .ok type) (hcode : type % 4 = 2)
    : getOpusFrame data len = xiphLacing16bit ((data.take len).drop 1) >>= fun (frameLen, lacing) =>
        if frameLen = 0 then .error .refused
        else .ok [⟨(1 + lacing : Nat) - 1, frameLen + 1⟩,
          ⟨(1 + lacing : Nat) + frameLen - 1, len - ((1 + lacing : Nat) + frameLen : Int) + 1⟩] := by
  unfold getOpusFrame
  simp only [htype, hcode, bind, Except.bind, if_true]
  rw [if_neg (by omega), if_neg (by omega)]

theorem getOpusFrame_code3 (htype : readByte data 0 = .ok type) (hcode : type % 4 = 3)
    (hindex : readByte data 1 = .ok index)
    : getOpusFrame data len
        = if index % 2 ^ 6 = 0 ∨ 48 < index % 2 ^ 6 then .error .refused
          else (if index.testBit 6 then xiphLacingFull 0 0 ((data.take len).drop 2) else .ok (0, 0))
            >>= fun read => countedFrames data len index read.1 read.2 := by
  have hrange (ns : List Nat)
      : ns.flatMap (fun n : Nat => (pure (n : Int) : List Int)) = ns.map (fun n : Nat => (n : Int)) :=
    List.flatMap_pure_eq_map _ _
  unfold getOpusFrame
  simp only [htype, hcode, hindex, bind, Except.bind]
  rw [if_neg (by omega), if_neg (by omega), if_neg (by omega)]
  congr 1
  unfold countedFrames
  split
  . simp only [hrange, List.map_map]
    rfl
  . simp only [hrange, List.map_map]
    rfl

end Codes

section Frames

variable (p : Packet) (rest : List UInt8)

theorem Packet.readByte_toc : readByte (p.bytes ++ rest) 0 = .ok (p.tocWith p.body.code).toNat := rfl

theorem Packet.take_drop
    : ((p.bytes ++ rest).take p.bytes.length).drop 1 = p.body.front ++ (p.body.frames.flatten ++ p.body.back) := by
  rw [List.take_left]
  rfl

theorem Packet.length_bytes
    : p.bytes.length = 1 + p.body.front.length + p.body.frames.flatten.length + p.body.back.length := by
  simp only [bytes, head, List.length_append, List.length_cons]
  omega

theorem length_flatten_equal {size : Nat} {frames : List (List UInt8)} (h : ∀ frame ∈ frames, frame.length = size)
    : frames.flatten.length = frames.length * size := by
  rw [List.length_flatten, List.map_congr_left h, List.map_const', List.sum_replicate_nat]

theorem Packet.getOpusFrame_one {frame : List UInt8} (h : p.body = .one frame)
    : getOpusFrame (p.bytes ++ rest) p.bytes.length = .ok (framesAt p.head.length p.body.frames) := by
  have hlen := p.length_bytes
  have htoc := p.readByte_toc rest
  rw [h] at hlen htoc ⊢
  rw [getOpusFrame_code0 htoc (p.toNat_tocWith (by omega : 0 < 4)), Packet.head, h, Body.front, Body.frames, framesAt,
    framesAt]
  simp only [Body.front, Body.frames, Body.back, List.length_nil, List.flatten_cons, List.flatten_nil, List.append_nil]
    at hlen
  congr 2
  rw [hlen, OpusFrame.mk.injEq]
  constructor
  . rfl
  . push_cast
    omega

theorem Packet.getOpusFrame_equal {frame frame' : List UInt8} (h : p.body = .equal frame frame')
    : getOpusFrame (p.bytes ++ rest) p.bytes.length = .ok (framesAt p.head.length p.body.frames) := by
  have hvalid := p.valid
  have hlen := p.length_bytes
  have htoc := p.readByte_toc rest
  rw [h] at hvalid hlen htoc ⊢
  have hsize : frame.length = frame'.length := hvalid.left
  simp only [Body.front, Body.frames, Body.back, List.length_nil, List.flatten_cons, List.flatten_nil, List.append_nil,
    List.length_append] at hlen
  have hleft : ((p.bytes.length : Int) - 1) = 2 * frame.length := by
    rw [hlen, ← hsize]
    push_cast
    omega
  have hmod : (2 * (frame.length : Int)).tmod 2 = 0 := Int.mul_tmod_right 2 _
  have hdiv : (2 * (frame.length : Int)).tdiv 2 = frame.length := Int.mul_tdiv_cancel_left _ (by omega)
  rw [getOpusFrame_code1 htoc (p.toNat_tocWith (by omega : 1 < 4)), hleft, hmod, hdiv, if_neg (by omega), Packet.head,
    h, Body.front, Body.frames, framesAt, framesAt, framesAt, ← hsize]
  congr 2
  simp

theorem Packet.getOpusFrame_two {frame frame' : List UInt8} (h : p.body = .two frame frame')
    : getOpusFrame (p.bytes ++ rest) p.bytes.length
        = if frame = [] then .error .refused else .ok (framesAt p.head.length p.body.frames) := by
  have hvalid := p.valid
  have hlen := p.length_bytes
  have htoc := p.readByte_toc rest
  have htake := p.take_drop rest
  rw [h] at hvalid hlen htoc htake ⊢
  simp only [Body.front, Body.frames, Body.back, List.length_nil, List.flatten_cons, List.flatten_nil, List.append_nil,
    List.length_append, Nat.add_zero] at hlen
  rw [getOpusFrame_code2 htoc (p.toNat_tocWith (by omega : 2 < 4)), htake, Body.front,
    xiphLacing16bit_lacing hvalid.left]
  simp only [bind, Except.bind, List.length_eq_zero_iff]
  split
  . rfl
  . rw [Packet.head, h, Body.front, Body.frames, framesAt, framesAt, framesAt, List.length_cons, hlen]
    simp only [Except.ok.injEq, List.cons.injEq, OpusFrame.mk.injEq, and_true]
    push_cast
    omega

variable {frames : List (List UInt8)} {padding : Option Padding}

/--
What is in front of any number of frames is read, and the frames begin behind it.
-/
theorem Packet.getOpusFrame_many {vbr : Bool} (h : p.body = .many vbr frames padding) (hshort : p.bytes.length < 2 ^ 31)
    : getOpusFrame (p.bytes ++ rest) p.bytes.length
          = countedFrames (p.bytes ++ rest) p.bytes.length (Body.countByte vbr frames.length padding.isSome).toNat
            p.body.back.length (Body.paddingLengths padding).length
        ∧ ((p.bytes ++ rest).take p.bytes.length).drop (2 + (Body.paddingLengths padding).length)
          = Body.sizes vbr frames ++ (frames.flatten ++ p.body.back) := by
  have hvalid := p.valid
  have htoc := p.readByte_toc rest
  have hlen := p.length_bytes
  have htake := p.take_drop rest
  have hback : p.body.back = (padding.map Padding.bytes).getD [] := by rw [h]; rfl
  have hfront : p.body.front = Body.countByte vbr frames.length padding.isSome
      :: (Body.paddingLengths padding ++ Body.sizes vbr frames) := by
    rw [h]
    rfl
  have hframes : p.body.frames = frames := by rw [h]; rfl
  rw [hfront, hframes] at hlen htake
  have hdrop : ((p.bytes ++ rest).take p.bytes.length).drop 2
      = Body.paddingLengths padding ++ (Body.sizes vbr frames ++ (frames.flatten ++ p.body.back)) := by
    have htail := congrArg List.tail htake
    rw [List.tail_drop, List.cons_append, List.tail_cons, List.append_assoc] at htail
    exact htail
  have hindex : readByte (p.bytes ++ rest) 1 = .ok (Body.countByte vbr frames.length padding.isSome).toNat := by
    rw [bytes, head, hfront]
    rfl
  have hpadding : (if padding.isSome then xiphLacingFull 0 0 (((p.bytes ++ rest).take p.bytes.length).drop 2)
      else .ok (0, 0)) = .ok (p.body.back.length, (Body.paddingLengths padding).length) := by
    rw [hdrop, hback]
    cases padding with
    | none => rfl
    | some padding =>
      simp only [Body.paddingLengths, Option.map_some, Option.getD_some, Option.isSome_some, if_true]
      apply xiphLacingFull_lengths
      rw [hback] at hlen
      simp only [Body.paddingLengths, Option.map_some, Option.getD_some, List.length_cons, List.length_append,
        padding.length_bytes, Padding.lengths, List.length_replicate] at hlen
      omega
  rw [h] at hvalid htoc
  rcases hvalid with ⟨hpos, hcount, -⟩
  rcases Body.countByte_spec vbr padding.isSome frames.length hcount with ⟨hnum, hpad, -⟩
  constructor
  . rw [getOpusFrame_code3 htoc (p.toNat_tocWith (by omega : 3 < 4)) hindex, hnum, if_neg (by omega), hpad, hpadding]
    rfl
  . rw [← List.drop_drop, hdrop, List.drop_left]

theorem Packet.getOpusFrame_vbr (h : p.body = .many true frames padding) (hshort : p.bytes.length < 2 ^ 31)
    : ∃ fs, getOpusFrame (p.bytes ++ rest) p.bytes.length = .ok fs ∧ fs.length + 1 = frames.length := by
  have hvalid := p.valid
  have hlen := p.length_bytes
  rcases p.getOpusFrame_many rest h hshort with ⟨hmany, hdrop⟩
  rw [h] at hvalid hlen hmany hdrop
  rcases hvalid with ⟨hpos, hcount, hframe, -⟩
  rcases Body.countByte_spec true padding.isSome frames.length hcount with ⟨hnum, -, hvbr⟩
  rw [hmany, countedFrames, hvbr, if_pos rfl, hdrop, hnum]
  have hne : frames ≠ [] := List.ne_nil_of_length_pos hpos
  have hsum : frames.flatten.length = (frames.dropLast.map List.length).sum + (frames.getLast hne).length := by
    conv =>
      lhs
      rw [← List.dropLast_append_getLast hne]
    rw [List.flatten_append, List.length_append, List.length_flatten, List.flatten_singleton]
  have hsizes : Body.sizes true frames = (frames.dropLast.map List.length).flatMap lacing := by
    rw [Body.sizes, if_pos rfl, List.flatMap_map]
  have hnum : frames.length - 1 = (frames.dropLast.map List.length).length := by
    rw [List.length_map, List.length_dropLast]
  have hshort : ∀ n ∈ frames.dropLast.map List.length, n ≤ 1275 := by
    intro n hn
    rcases List.mem_map.mp hn with ⟨frame, hmem, rfl⟩
    exact hframe frame (List.dropLast_subset _ hmem)
  simp only [Body.front, Body.frames, List.length_cons, List.length_append, hsizes] at hlen
  rw [hsizes, hnum, frameSizes_flatMap hshort]
  simp only [bind, Except.bind]
  rw [if_neg]
  . refine ⟨_, rfl, ?_⟩
    rw [length_vbrFrames, ← hnum]
    omega
  . rw [hlen, hsum]
    push_cast
    omega

theorem Packet.getOpusFrame_cbr (h : p.body = .many false frames padding) (hshort : p.bytes.length < 2 ^ 31)
    : getOpusFrame (p.bytes ++ rest) p.bytes.length
        = if ∃ frame ∈ frames, 48 < frame.length then .error .refused else .ok (framesAt p.head.length frames) := by
  have hvalid := p.valid
  have hlen := p.length_bytes
  have hmany := (p.getOpusFrame_many rest h hshort).left
  rw [h] at hvalid hlen hmany
  rcases hvalid with ⟨hpos, hcount, -, hconstant⟩
  rcases Body.countByte_spec false padding.isSome frames.length hcount with ⟨hnum, -, hvbr⟩
  rw [hmany, countedFrames, hvbr, hnum]
  rcases List.exists_mem_of_length_pos hpos with ⟨first, hfirst⟩
  have hsize (frame : List UInt8) (hframe : frame ∈ frames) : frame.length = first.length :=
    hconstant rfl frame hframe first hfirst
  have hsum := length_flatten_equal hsize
  have hlong : (∃ frame ∈ frames, 48 < frame.length) ↔ 48 < first.length := by
    constructor
    . rintro ⟨frame, hframe, hlt⟩
      rwa [hsize frame hframe] at hlt
    . exact fun hlt => ⟨first, hfirst, hlt⟩
  have hhead : p.head.length = 2 + (Body.paddingLengths padding).length := by
    rw [head, h]
    simp only [Body.front, Body.sizes, List.length_cons, List.length_append, Bool.false_eq_true, if_false,
      List.length_nil]
    omega
  simp only [Body.front, Body.frames, Body.sizes, List.length_cons, List.length_append, Bool.false_eq_true, if_false,
    List.length_nil, hsum] at hlen
  have hleft : ((p.bytes.length : Int) - (2 + (Body.paddingLengths padding).length : Nat)
      - (Body.back (.many false frames padding)).length) = frames.length * first.length := by
    rw [hlen]
    push_cast
    omega
  have hmod : ((frames.length : Int) * first.length).tmod frames.length = 0 := Int.mul_tmod_right _ _
  have hdiv : ((frames.length : Int) * first.length).tdiv frames.length = first.length :=
    Int.mul_tdiv_cancel_left _ (by omega)
  simp only [hleft, hmod, hdiv, Bool.false_eq_true, if_false, ne_eq, not_true_eq_false, false_or]
  by_cases hlt : 48 < first.length
  . rw [if_pos (by omega), if_pos (hlong.mpr hlt)]
  . rw [if_neg (by omega), if_neg (fun h => hlt (hlong.mp h)), framesAt_equal hsize, hhead]

/--
What becomes of a packet.
-/
theorem Packet.getOpusFrame_bytes (hshort : p.bytes.length < 2 ^ 31)
    : (p.body.Refused ∧ getOpusFrame (p.bytes ++ rest) p.bytes.length = .error .refused)
        ∨ (¬p.body.Refused ∧ (∀ frames padding, p.body ≠ .many true frames padding)
          ∧ getOpusFrame (p.bytes ++ rest) p.bytes.length = .ok (framesAt p.head.length p.body.frames))
        ∨ ((∃ frames padding, p.body = .many true frames padding)
          ∧ ∃ fs, getOpusFrame (p.bytes ++ rest) p.bytes.length = .ok fs ∧ fs.length + 1 = p.body.frames.length) := by
  cases h : p.body with
  | one frame =>
    refine Or.inr (Or.inl ⟨not_false, by rintro _ _ ⟨⟩, ?_⟩)
    rw [p.getOpusFrame_one rest h, h]
  | equal frame frame' =>
    refine Or.inr (Or.inl ⟨not_false, by rintro _ _ ⟨⟩, ?_⟩)
    rw [p.getOpusFrame_equal rest h, h]
  | two frame frame' =>
    have hframes := p.getOpusFrame_two rest h
    by_cases hempty : frame = []
    . rw [if_pos hempty] at hframes
      exact Or.inl ⟨hempty, hframes⟩
    . rw [if_neg hempty, h] at hframes
      exact Or.inr (Or.inl ⟨hempty, by rintro _ _ ⟨⟩, hframes⟩)
  | many vbr frames padding =>
    cases vbr with
    | true => exact Or.inr (Or.inr ⟨⟨frames, padding, rfl⟩, p.getOpusFrame_vbr rest h hshort⟩)
    | false =>
      have hframes := p.getOpusFrame_cbr rest h hshort
      by_cases hlong : ∃ frame ∈ frames, 48 < frame.length
      . rw [if_pos hlong] at hframes
        exact Or.inl ⟨hlong, hframes⟩
      . rw [if_neg hlong] at hframes
        exact Or.inr (Or.inl ⟨hlong, by rintro _ _ ⟨⟩, hframes⟩)

end Frames

section Pieces

/--
Each frame with the byte in front of it.
-/
def piecesBehind (front : List UInt8) : List (List UInt8) → List (List UInt8)
  | [] => []
  | frame :: frames => (front.getLast?.toList ++ frame) :: piecesBehind (front ++ frame) frames

theorem length_piecesBehind (front : List UInt8) (frames : List (List UInt8))
    : (piecesBehind front frames).length = frames.length := by
  induction frames generalizing front with
  | nil => rfl
  | cons frame frames ih => rw [piecesBehind, List.length_cons, List.length_cons, ih]

theorem OpusFrame.bytes_at {frame : OpusFrame} {front piece back : List UInt8} (hoffset : frame.offset = front.length)
    (hsize : frame.size = piece.length)
    : frame.bytes (front ++ (piece ++ back)) = some piece := by
  unfold OpusFrame.bytes
  rw [hoffset, hsize]
  split
  . next hzero =>
    have hnil : piece = [] := List.length_eq_zero_iff.mp (by omega)
    rw [hnil]
  . next hpos =>
    simp only [List.length_append, Int.toNat_natCast, List.drop_left, List.take_left]
    rw [if_pos (by omega)]

theorem bytes_framesAt {done front back : List UInt8} (hfront : front ≠ []) (frames : List (List UInt8))
    : ((framesAt front.length frames).map (·.shift done.length)).map
          (·.bytes (done ++ (front ++ (frames.flatten ++ back))))
        = (piecesBehind front frames).map some := by
  induction frames generalizing front with
  | nil => rfl
  | cons frame frames ih =>
    rw [framesAt, piecesBehind, List.map_cons, List.map_cons, List.map_cons]
    have hassoc : front ++ ((frame :: frames).flatten ++ back) = (front ++ frame) ++ (frames.flatten ++ back) := by
      rw [List.flatten_cons, List.append_assoc, List.append_assoc]
    congr 1
    . rcases List.eq_nil_or_concat' front with hnil | ⟨before, b, rfl⟩
      . exact absurd hnil hfront
      . have hlast : (before ++ [b]).getLast?.toList = [b] := by
          rw [List.getLast?_concat]
          rfl
        have hsplit : done ++ ((before ++ [b]) ++ ((frame :: frames).flatten ++ back))
            = (done ++ before) ++ (([b] ++ frame) ++ (frames.flatten ++ back)) := by
          simp only [List.flatten_cons, List.append_assoc]
        rw [hlast, hsplit]
        apply OpusFrame.bytes_at
        . simp only [OpusFrame.shift, List.length_append, List.length_singleton]
          push_cast
          omega
        . simp only [OpusFrame.shift, List.length_append, List.length_singleton]
          push_cast
          omega
    . rw [hassoc, ← List.length_append]
      exact ih (List.append_ne_nil_of_left_ne_nil hfront _)

theorem forall_split_cons {front frame : List UInt8} {frames : List (List UInt8)} (P : List UInt8 → Prop)
    : (∀ before frame' after, frame :: frames = before ++ frame' :: after → P (front ++ before.flatten))
        ↔ P front ∧ ∀ before frame' after, frames = before ++ frame' :: after
          → P ((front ++ frame) ++ before.flatten) := by
  constructor
  . intro h
    constructor
    . have hfirst := h [] frame frames rfl
      rwa [List.flatten_nil, List.append_nil] at hfirst
    . rintro before frame' after rfl
      have hnext := h (frame :: before) frame' after rfl
      rwa [List.flatten_cons, ← List.append_assoc] at hnext
  . rintro ⟨hfirst, hnext⟩ before frame' after hsplit
    rcases List.cons_eq_append_iff.mp hsplit with ⟨rfl, -⟩ | ⟨before, rfl, hframes⟩
    . rwa [List.flatten_nil, List.append_nil]
    . rw [List.flatten_cons, ← List.append_assoc]
      exact hnext before frame' after hframes

theorem piecesBehind_eq_iff {b : UInt8} (front : List UInt8) (frames : List (List UInt8))
    : piecesBehind front frames = frames.map (b :: ·)
        ↔ ∀ before frame after, frames = before ++ frame :: after → (front ++ before.flatten).getLast? = some b := by
  induction frames generalizing front with
  | nil =>
    apply iff_of_true rfl
    intro before frame after h
    cases before with
    | nil => cases h
    | cons frame' before => cases h
  | cons frame frames ih =>
    rw [forall_split_cons fun data => data.getLast? = some b, ← ih, piecesBehind, List.map_cons, List.cons.injEq]
    apply and_congr_left'
    cases hlast : front.getLast? with
    | none => simp
    | some last => simp

end Pieces

section Units

theorem AccessUnit.length_bytes (unit : AccessUnit)
    : unit.bytes.length = (unit.control.bytes unit.packet.bytes.length).length + unit.packet.bytes.length := by
  rw [bytes, List.length_append]

/--
The packet that comes next, in a stream of which some units are done.
-/
theorem framesFrom_unit (done rest : List UInt8) (unit : AccessUnit)
    : framesFrom (done ++ (unit.bytes ++ rest)) done.length = (do
        let frames ← getOpusFrame (unit.packet.bytes ++ rest) unit.packet.bytes.length
        let frames' ← framesFrom ((done ++ unit.bytes) ++ rest) (done ++ unit.bytes).length
        .ok (frames.map (·.shift (done ++ unit.control.bytes unit.packet.bytes.length).length) ++ frames')) := by
  have hheader : getOpusHeader ((done ++ (unit.bytes ++ rest)).drop done.length)
      = .ok ((unit.control.bytes unit.packet.bytes.length).length, unit.packet.bytes.length) := by
    rw [List.drop_left, AccessUnit.bytes, List.append_assoc]
    exact unit.control.getOpusHeader_bytes rest
  have hpos := getOpusHeader_pos hheader
  have hlen := unit.length_bytes
  have hdrop : (done ++ (unit.bytes ++ rest)).drop (done.length + (unit.control.bytes unit.packet.bytes.length).length)
      = unit.packet.bytes ++ rest := by
    rw [← List.drop_drop, List.drop_left, AccessUnit.bytes, List.append_assoc, List.drop_left]
  rw [framesFrom, if_pos (by simp only [List.length_append]; omega)]
  split
  . next fault hfault =>
    rw [hheader] at hfault
    cases hfault
  . next i size hok =>
    rw [hheader] at hok
    cases hok
    rw [hdrop, List.append_assoc, List.length_append, List.length_append, hlen, Nat.add_assoc]

theorem framesFrom_end (done : List UInt8) : framesFrom (done ++ []) done.length = .ok [] := by
  rw [framesFrom, if_neg]
  simp

theorem unitStream_cons (unit : AccessUnit) (units : List AccessUnit)
    : unitStream (unit :: units) = unit.bytes ++ unitStream units := List.flatMap_cons

theorem append_unitStream (done : List UInt8) (unit : AccessUnit) (units : List AccessUnit)
    : done ++ unitStream (unit :: units) = (done ++ unit.bytes) ++ unitStream units := by
  rw [unitStream_cons, List.append_assoc]

theorem framesFrom_unit_ok {done : List UInt8} {unit : AccessUnit} {units : List AccessUnit} {frames : List OpusFrame}
    : framesFrom (done ++ unitStream (unit :: units)) done.length = .ok frames
        ↔ ∃ fs frames', getOpusFrame (unit.packet.bytes ++ unitStream units) unit.packet.bytes.length = .ok fs
          ∧ framesFrom ((done ++ unit.bytes) ++ unitStream units) (done ++ unit.bytes).length = .ok frames'
          ∧ frames = fs.map (·.shift (done ++ unit.control.bytes unit.packet.bytes.length).length) ++ frames' := by
  rw [unitStream_cons, framesFrom_unit]
  constructor
  . intro h
    cases hfs : getOpusFrame (unit.packet.bytes ++ unitStream units) unit.packet.bytes.length with
    | error fault =>
      rw [hfs] at h
      cases h
    | ok fs =>
      rw [hfs] at h
      cases hframes : framesFrom ((done ++ unit.bytes) ++ unitStream units) (done ++ unit.bytes).length with
      | error fault =>
        rw [hframes] at h
        cases h
      | ok frames' =>
        rw [hframes] at h
        cases h
        exact ⟨fs, frames', rfl, rfl, rfl⟩
  . rintro ⟨fs, frames', hfs, hframes, rfl⟩
    rw [hfs, hframes]
    rfl

theorem AccessUnit.length_lt {done : List UInt8} {unit : AccessUnit} {units : List AccessUnit}
    (h : (done ++ unitStream (unit :: units)).length < 2 ^ 31) : unit.packet.bytes.length < 2 ^ 31 := by
  have hlen := unit.length_bytes
  rw [append_unitStream, List.length_append, List.length_append] at h
  omega

theorem length_framesAt (pos : Nat) (frames : List (List UInt8)) : (framesAt pos frames).length = frames.length := by
  induction frames generalizing pos with
  | nil => rfl
  | cons frame frames ih => rw [framesAt, List.length_cons, List.length_cons, ih]

theorem Packet.length_pieces (p : Packet) : p.pieces.length = p.body.frames.length := List.length_map _

/--
There are not more frames than there should be.
-/
theorem length_framesFrom {done : List UInt8} {units : List AccessUnit} {frames : List OpusFrame}
    (hlen : (done ++ unitStream units).length < 2 ^ 31)
    (h : framesFrom (done ++ unitStream units) done.length = .ok frames)
    : frames.length ≤ (units.flatMap fun unit => unit.packet.pieces).length := by
  induction units generalizing done frames with
  | nil =>
    rw [unitStream, List.flatMap_nil, framesFrom_end] at h
    cases h
    exact Nat.zero_le _
  | cons unit units ih =>
    rcases framesFrom_unit_ok.mp h with ⟨fs, frames', hfs, hframes, rfl⟩
    have hrest := ih (by rwa [← append_unitStream]) hframes
    have hfirst : fs.length ≤ unit.packet.body.frames.length := by
      rcases unit.packet.getOpusFrame_bytes (unitStream units) (AccessUnit.length_lt hlen)
        with ⟨-, hrefused⟩ | ⟨-, -, hok⟩ | ⟨-, fs', hok, hcount⟩
      . rw [hrefused] at hfs
        cases hfs
      . rw [hok] at hfs
        cases hfs
        exact Nat.le_of_eq (length_framesAt _ _)
      . rw [hok] at hfs
        cases hfs
        omega
    rw [List.length_append, List.length_map, List.flatMap_cons, List.length_append, unit.packet.length_pieces]
    omega

/--
Exactly the frames are returned from here on.
-/
def RepacketisedFrom (done : List UInt8) (units : List AccessUnit) : Prop :=
  ∃ frames, framesFrom (done ++ unitStream units) done.length = .ok frames
    ∧ frames.map (·.bytes (done ++ unitStream units)) = (units.flatMap fun unit => unit.packet.pieces).map some

/--
The frames of a packet that is accepted, where they are in the stream.
-/
theorem AccessUnit.bytes_frames (done : List UInt8) (unit : AccessUnit) (units : List AccessUnit)
    : ((framesAt unit.packet.head.length unit.packet.body.frames).map
          (·.shift (done ++ unit.control.bytes unit.packet.bytes.length).length)).map
            (·.bytes (done ++ unitStream (unit :: units)))
        = (piecesBehind unit.packet.head unit.packet.body.frames).map some := by
  have hsplit : done ++ unitStream (unit :: units) = (done ++ unit.control.bytes unit.packet.bytes.length)
      ++ (unit.packet.head ++ (unit.packet.body.frames.flatten ++ (unit.packet.body.back ++ unitStream units))) := by
    rw [append_unitStream, AccessUnit.bytes]
    conv =>
      lhs
      arg 1
      arg 2
      arg 2
      rw [Packet.bytes]
    simp only [List.append_assoc]
  rw [hsplit]
  exact bytes_framesAt (List.cons_ne_nil _ _) _

theorem repacketised_iff_from (units : List AccessUnit) : Repacketised units ↔ RepacketisedFrom [] units := Iff.rfl

theorem repacketisedFrom_iff {done : List UInt8} {units : List AccessUnit}
    (hlen : (done ++ unitStream units).length < 2 ^ 31)
    : RepacketisedFrom done units ↔ ∀ unit ∈ units, unit.packet.Kept := by
  induction units generalizing done with
  | nil =>
    apply iff_of_true
    . exact ⟨[], framesFrom_end done, rfl⟩
    . exact fun _ hunit => absurd hunit List.not_mem_nil
  | cons unit units ih =>
    have hlen' : ((done ++ unit.bytes) ++ unitStream units).length < 2 ^ 31 := by rwa [← append_unitStream]
    rw [List.forall_mem_cons]
    rcases unit.packet.getOpusFrame_bytes (unitStream units) (AccessUnit.length_lt hlen)
      with ⟨hrefused, hframes⟩ | ⟨haccepted, hconstant, hframes⟩ | ⟨⟨frames, padding, hbody⟩, fs, hframes, hcount⟩
    . apply iff_of_false
      . rintro ⟨_, hok, -⟩
        rcases framesFrom_unit_ok.mp hok with ⟨fs, _, hfs, -⟩
        rw [hframes] at hfs
        cases hfs
      . exact fun h => h.left.accepted hrefused
    . have hpieces : unit.packet.Kept ↔ piecesBehind unit.packet.head unit.packet.body.frames = unit.packet.pieces := by
        rw [Packet.pieces, piecesBehind_eq_iff]
        constructor
        . exact fun h => h.toc
        . exact fun h => ⟨haccepted, hconstant, h⟩
      rw [hpieces, ← ih hlen']
      constructor
      . rintro ⟨_, hok, hbytes⟩
        rcases framesFrom_unit_ok.mp hok with ⟨fs, frames', hfs, hrest, rfl⟩
        rw [hframes] at hfs
        cases hfs
        rw [List.map_append, AccessUnit.bytes_frames, List.flatMap_cons, List.map_append] at hbytes
        rcases List.append_inj hbytes (by
          rw [List.length_map, List.length_map, length_piecesBehind, Packet.length_pieces]) with ⟨hfirst, hnext⟩
        refine ⟨List.map_injective_iff.mpr (Option.some_injective _) hfirst, frames', hrest, ?_⟩
        rwa [← append_unitStream]
      . rintro ⟨hfirst, frames', hrest, hnext⟩
        refine ⟨_, framesFrom_unit_ok.mpr ⟨_, _, hframes, hrest, rfl⟩, ?_⟩
        rw [List.map_append, AccessUnit.bytes_frames, List.flatMap_cons, List.map_append, hfirst, append_unitStream,
          hnext]
    . apply iff_of_false
      . rintro ⟨_, hok, hbytes⟩
        rcases framesFrom_unit_ok.mp hok with ⟨fs', frames', hfs, hrest, rfl⟩
        rw [hframes] at hfs
        cases hfs
        have hmore := length_framesFrom hlen' hrest
        have hsame := congrArg List.length hbytes
        rw [List.length_map, List.length_map, List.length_append, List.length_map, List.flatMap_cons,
          List.length_append, Packet.length_pieces] at hsame
        omega
      . exact fun h => h.left.constant frames padding hbody

end Units

/--
Exactly the frames of the packets are returned if each of them is kept.
-/
theorem getOpusFrameVector_repacketised_iff {units : List AccessUnit} (hlen : (unitStream units).length < 2 ^ 31)
    : Repacketised units ↔ ∀ unit ∈ units, unit.packet.Kept := by
  rw [repacketised_iff_from, repacketisedFrom_iff hlen]

/--
Mono packets of 20 ms with the frames as the code says.
-/
def sampleUnit (body : Body) (hvalid : body.Valid) : AccessUnit :=
  ⟨⟨none, none, none, 0, by decide, nofun⟩, ⟨62, body, by decide, hvalid⟩⟩

theorem getOpusFrameVector_repacketised_one
    : Repacketised [sampleUnit (.one [7, 8]) (by unfold Body.Valid; decide)] := by
  apply (getOpusFrameVector_repacketised_iff (by decide)).mpr
  intro unit hunit
  rw [List.mem_singleton.mp hunit]
  refine ⟨not_false, by rintro _ _ ⟨⟩, ?_⟩
  apply (piecesBehind_eq_iff _ _).mp
  decide

/--
Two frames of one byte behind the code for two frames of the same size.
-/
theorem getOpusFrameVector_equal : ¬Repacketised [sampleUnit (.equal [7] [8]) (by unfold Body.Valid; decide)] := by
  rw [repacketised_iff_from, repacketisedFrom_iff (by decide)]
  intro h
  have hkept := (h _ (List.mem_singleton_self _)).toc [] [7] [[8]] rfl
  revert hkept
  decide

end Opus
