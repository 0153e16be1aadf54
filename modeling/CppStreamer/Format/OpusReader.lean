import CppStreamer.Basic.Reading
import CppStreamer.Format.OpusHeader

/-!
This module contains `GetOpusFrameVector` with the bytes that it reads, the frames that it returns and the sums that
have to be an `int`, and the data for which all of them are as they should be.
-/

open ByteStream Checked Reading

namespace OpusReader

/--
What is relied on: a byte that is read, a sum of sizes, and a frame.
-/
inductive OpusCheck where
  | read (offset : Nat)
  | int (value : Nat)
  | slice (frame : Opus.OpusFrame)

def OpusCheck.Holds (total : Nat) : OpusCheck → Prop
  | read offset => offset < total
  | int value => value ≤ 0x7fffffff
  | slice frame => 0 ≤ frame.size ∧ 0 ≤ frame.offset ∧ frame.offset + frame.size ≤ total

section Model

variable (mem : Nat → UInt8)

def readByte (offset : Nat) : Checked OpusCheck Nat := do
  check (.read offset)
  return (mem offset).toNat

/--
The loop over the bytes of the size, `i` is the last one of them up to here: the size, and how many bytes follow.
-/
def unitSizeFrom (endPos i unitSize : Nat) : Checked OpusCheck (Nat × Nat) :=
  if i + 1 < endPos then do
    if (← readByte mem i) = 255 then do
      let next ← readByte mem (i + 1)
      let (unitSize, count) ← unitSizeFrom endPos (i + 1) (unitSize + next)
      return (unitSize, count + 1)
    else return (unitSize, 0)
  else return (unitSize, 0)
termination_by endPos - i

/--
The size of an extension, with the byte that has it, 0 if there is none.
-/
def extensionSize (control ptr : Nat) : Checked OpusCheck Nat :=
  if control.testBit 2 then do
    let size ← readByte mem ptr
    return 1 + size
  else return 0

/--
A packet that ends behind the position of its control header.
-/
structure OpusUnit (pos : Nat) where
  data : Nat
  len : Nat
  progress : pos < data + len

/--
The packet behind a control header.
-/
def controlledUnit (pos endPos control : Nat) : Checked OpusCheck (Option (OpusUnit pos)) := do
  let first ← readByte mem (pos + 2)
  let (unitSize, count) ← unitSizeFrom mem endPos (pos + 2) first
  let i := 3 + count + (control.testBit 4).toNat * 2 + (control.testBit 3).toNat * 2
  let extension ← extensionSize mem control (pos + i)
  -- the sums on the way are not larger
  check (.int (i + extension + unitSize))
  if endPos < pos + (i + extension + unitSize) then return none
  else return some ⟨pos + (i + extension), unitSize, by omega⟩

def getOpusHeader (pos endPos : Nat) : Checked OpusCheck (Option (OpusUnit pos)) :=
  if h : endPos < pos + 3 then return none
  else do
    let high ← readByte mem pos
    let low ← readByte mem (pos + 1)
    let control := high * 2 ^ 8 + low
    -- the eleven bits of the prefix
    if control / 2 ^ 5 ≠ 0x3ff then return some ⟨pos, endPos - pos, by omega⟩
    else controlledUnit mem pos endPos control

/--
A length of one or two bytes, and the position behind it.
-/
def xiphLacing16bit (endPos ptr : Nat) : Checked OpusCheck (Option (Nat × Nat)) :=
  if endPos ≤ ptr then return none
  else do
    let val ← readByte mem ptr
    if 252 ≤ val then
      if endPos ≤ ptr + 1 then return none
      else do
        let next ← readByte mem (ptr + 1)
        return some (val + 4 * next, ptr + 2)
    else return some (val, ptr + 1)

def xiphLacingFull (endPos ptr val : Nat) : Checked OpusCheck (Option (Nat × Nat)) :=
  if endPos ≤ ptr ∨ 0x7fffffff - 254 < val then return none
  else do
    let next ← readByte mem ptr
    if next < 255 then return some (val + next, ptr + 1) else xiphLacingFull endPos (ptr + 1) (val + 254)
termination_by endPos - ptr

def frameSizes (endPos : Nat) : Nat → Nat → Checked OpusCheck (Option (List Nat × Nat))
  | 0, ptr => return some ([], ptr)
  | count + 1, ptr => do
    match ← xiphLacing16bit mem endPos ptr with
    | none => return none
    | some (size, ptr) => do
      let rest ← frameSizes endPos count ptr
      return rest.map fun (sizes, ptr) => (size :: sizes, ptr)

/--
The frames are noted down, in their order.
-/
def pushFrames : List Opus.OpusFrame → Checked OpusCheck (Option (List Opus.OpusFrame))
  | [] => return some []
  | frame :: frames => do
    check (.slice frame)
    let rest ← pushFrames frames
    return rest.map (frame :: ·)

/--
Two frames of different sizes.
-/
def twoFrames (endPos ptr : Nat) : Checked OpusCheck (Option (List Opus.OpusFrame)) := do
  match ← xiphLacing16bit mem endPos ptr with
  | none => return none
  | some (frameLen, p) =>
    if frameLen = 0 then return none
    else pushFrames [⟨p - 1, frameLen + 1⟩, ⟨p + frameLen - 1, endPos - (p + frameLen : Int) + 1⟩]

/--
The frames of one size in `frameLen` bytes, which are fewer than 0 behind too much padding.
-/
def constantFrames (frameCount p : Nat) (frameLen : Int) : Checked OpusCheck (Option (List Opus.OpusFrame)) :=
  if frameLen.tmod frameCount ≠ 0 ∨ 48 < frameLen.tdiv frameCount then return none
  else pushFrames ((List.range frameCount).map fun (i : Nat) =>
    ⟨p - 1 + i * frameLen.tdiv frameCount, frameLen.tdiv frameCount + 1⟩)

/--
The frames behind the padding length of a packet that has any number of them.
-/
def countedFrames (endPos index padding p : Nat) : Checked OpusCheck (Option (List Opus.OpusFrame)) :=
  if index.testBit 7 then do
    match ← frameSizes mem endPos (index % 2 ^ 6 - 1) p with
    | none => return none
    | some (sizes, p) =>
      let frameLen : Int := endPos - p - padding
      if frameLen < sizes.sum then return none else pushFrames (Opus.vbrFrames p (frameLen - sizes.sum) sizes)
  else constantFrames (index % 2 ^ 6) p (endPos - p - padding)

/--
The padding that is announced, and the position behind its length.
-/
def announcedPadding (endPos index ptr : Nat) : Checked OpusCheck (Option (Nat × Nat)) :=
  if index.testBit 6 then xiphLacingFull mem endPos ptr 0 else return some (0, ptr)

/--
Any number of frames, `ptr` is the position of the byte with this number.
-/
def manyFrames (endPos ptr : Nat) : Checked OpusCheck (Option (List Opus.OpusFrame)) := do
  let index ← readByte mem ptr
  if index % 2 ^ 6 = 0 ∨ 48 < index % 2 ^ 6 then return none
  else do
    match ← announcedPadding mem endPos index (ptr + 1) with
    | none => return none
    | some (padding, p) => countedFrames mem endPos index padding p

def getOpusFrame (data len : Nat) : Checked OpusCheck (Option (List Opus.OpusFrame)) := do
  let type ← readByte mem data
  let left : Int := len - 1
  if type % 4 = 0 then pushFrames [⟨data, left + 1⟩]
  else if type % 4 = 1 then
    if left.tmod 2 = 1 then return none
    else pushFrames [⟨data, left.tdiv 2 + 1⟩, ⟨data + left.tdiv 2, left.tdiv 2 + 1⟩]
  else if type % 4 = 2 then twoFrames mem (data + len) (data + 1)
  else manyFrames mem (data + len) (data + 1)

/--
The frames of all packets from `pos` on.
-/
def framesFrom (endPos pos : Nat) : Checked OpusCheck (Option (List Opus.OpusFrame)) :=
  if pos < endPos then do
    match ← getOpusHeader mem pos endPos with
    | none => return none
    | some unit => do
      match ← getOpusFrame mem unit.data unit.len with
      | none => return none
      | some frames => do
        let rest ← framesFrom endPos (unit.data + unit.len)
        return rest.map (frames ++ ·)
  else return some []
termination_by endPos - pos
decreasing_by
  have := unit.progress
  omega

def getOpusFrameVector (len : Nat) : Checked OpusCheck (Option (List Opus.OpusFrame)) := framesFrom mem len 0

end Model

section Condition

/--
The eleven bits of the prefix of a control header.
-/
def HasControl (rest : List UInt8) : Prop := read2Bytes rest / 2 ^ 5 = 0x3ff

instance (rest : List UInt8) : Decidable (HasControl rest) := inferInstanceAs (Decidable (_ = _))

def unitLen (rest : List UInt8) : Nat := (Opus.unitSize (rest.drop 2)).1

/--
The position behind the size and what is trimmed.
-/
def extensionPos (rest : List UInt8) : Nat :=
  2 + (Opus.unitSize (rest.drop 2)).2 + ((read2Bytes rest).testBit 4).toNat * 2
    + ((read2Bytes rest).testBit 3).toNat * 2

def headerLen (rest : List UInt8) : Nat :=
  extensionPos rest + if (read2Bytes rest).testBit 2 then 1 + (rest.getD (extensionPos rest) 0).toNat else 0

/--
A control header whose extension begins within the data, and whose sums are not too large.
-/
structure HeaderFits (rest : List UInt8) : Prop where
  extension : (read2Bytes rest).testBit 2 = true → extensionPos rest < rest.length
  sum : headerLen rest + unitLen rest ≤ 0x7fffffff

/--
The position of the packet and its size. Without a control header all of the data is one packet.
-/
def unitAt (rest : List UInt8) : Option (Nat × Nat) :=
  if rest.length < 3 then none
  else if ¬HasControl rest then some (0, rest.length)
  else if rest.length < headerLen rest + unitLen rest then none
  else some (headerLen rest, unitLen rest)

def code (rest : List UInt8) : Nat := (rest.getD 0 0).toNat % 4

def countIndex (rest : List UInt8) : Nat := (rest.getD 1 0).toNat

def frameCount (rest : List UInt8) : Nat := countIndex rest % 2 ^ 6

def ValidCount (rest : List UInt8) : Prop := 1 ≤ frameCount rest ∧ frameCount rest ≤ 48

/--
The size of the first of two frames, and how many bytes it takes.
-/
def firstSize (len : Nat) (rest : List UInt8) : Except Opus.OpusFault (Nat × Nat) :=
  Opus.xiphLacing16bit ((rest.take len).drop 1)

/--
The padding that is announced, and how many bytes its length takes.
-/
def paddingSize (len : Nat) (rest : List UInt8) : Except Opus.OpusFault (Nat × Nat) :=
  if (countIndex rest).testBit 6 then Opus.xiphLacingFull 0 0 ((rest.take len).drop 2) else .ok (0, 0)

/--
What the padding leaves, below 0 if there is less than it announces.
-/
def bytesLeft (len lacing padding : Nat) : Int := len - (2 + lacing : Nat) - padding

/--
The packet of `len` bytes at `pos` has a TOC byte and a byte for the number of frames, its first frame of two does not
go past its end, and padding does not go past it either. There may be one byte more of a frame if it is within the data,
and as many bytes of padding as there are frames, each of them then ends where it begins.
-/
structure PacketFits (pos len : Nat) (rest : List UInt8) : Prop where
  toc : 1 ≤ rest.length
  two : code rest = 2 → ∀ frameLen lacing, firstSize len rest = .ok (frameLen, lacing) → frameLen ≠ 0 →
    lacing + frameLen ≤ len ∧ lacing + frameLen < rest.length
  count : code rest = 3 → 2 ≤ rest.length
  constant : code rest = 3 → ValidCount rest → (countIndex rest).testBit 7 = false →
    ∀ padding lacing, paddingSize len rest = .ok (padding, lacing) →
      0 ≤ bytesLeft len lacing padding ∨ ¬(frameCount rest : Int) ∣ bytesLeft len lacing padding
        ∨ (bytesLeft len lacing padding = -frameCount rest ∧ frameCount rest ≤ pos + 2 + lacing)

/--
The sizes of the frames of a VBR packet leave nothing below 0.
-/
def SizesFit (len lacing padding : Nat) (rest : List UInt8) : Prop :=
  ∃ sizes lacing', Opus.frameSizes (frameCount rest - 1) ((rest.take len).drop (2 + lacing)) = .ok (sizes, lacing')
    ∧ sizes.sum ≤ bytesLeft len (lacing + lacing') padding

/--
The frames of a CBR packet have one size, which is not too large.
-/
def SizeFits (len lacing padding : Nat) (rest : List UInt8) : Prop :=
  (frameCount rest : Int) ∣ bytesLeft len lacing padding ∧ bytesLeft len lacing padding ≤ 48 * frameCount rest

/--
The packet is not refused.
-/
def Accepted (len : Nat) (rest : List UInt8) : Prop :=
  code rest = 0 ∨ (code rest = 1 ∧ (len % 2 = 1 ∨ len = 0))
    ∨ (code rest = 2 ∧ ∃ frameLen lacing, firstSize len rest = .ok (frameLen, lacing) ∧ frameLen ≠ 0)
    ∨ (code rest = 3 ∧ ValidCount rest ∧ ∃ padding lacing, paddingSize len rest = .ok (padding, lacing)
      ∧ if (countIndex rest).testBit 7 then SizesFit len lacing padding rest else SizeFits len lacing padding rest)

/--
All headers and packets fit from a position on, up to the first one that is refused.
-/
inductive Fits (data : List UInt8) : Nat → Prop where
  | done {pos : Nat} (hend : data.length ≤ pos) : Fits data pos
  | unit {pos : Nat} (hpos : pos < data.length)
    (header : 3 ≤ (data.drop pos).length → HasControl (data.drop pos) → HeaderFits (data.drop pos))
    (packet : ∀ i len, unitAt (data.drop pos) = some (i, len) → PacketFits (pos + i) len (data.drop (pos + i)))
    (next : ∀ i len, unitAt (data.drop pos) = some (i, len) → Accepted len (data.drop (pos + i)) →
      Fits data (pos + i + len)) : Fits data pos

end Condition

section Loops

variable {mem : Nat → UInt8} {endPos ptr total : Nat} {data : List UInt8}

@[simp]
theorem readByte_value : (readByte mem ptr).value = (mem ptr).toNat := rfl

@[simp]
theorem readByte_passes : (readByte mem ptr).Passes (OpusCheck.Holds total) ↔ ptr < total := by
  simp [readByte, OpusCheck.Holds]

theorem xiphLacing16bit_value (hmem : HoldsAt mem ptr data) (hlen : data.length = endPos - ptr)
    : (xiphLacing16bit mem endPos ptr).value
        = (Opus.xiphLacing16bit data).toOption.map fun (val, len) => (val, ptr + len) := by
  unfold xiphLacing16bit
  cases data with
  | nil =>
    rw [if_pos (by rw [List.length_nil] at hlen; omega)]
    rfl
  | cons val data =>
    rw [List.length_cons] at hlen
    rw [if_neg (by omega)]
    simp only [value_bind, readByte_value, hmem.head]
    cases data with
    | nil =>
      rw [List.length_nil] at hlen
      rw [Opus.xiphLacing16bit]
      split
      . rw [if_pos (by omega)]
        rfl
      . rfl
    | cons next data =>
      rw [List.length_cons] at hlen
      rw [Opus.xiphLacing16bit]
      split
      . rw [if_neg (by omega), value_bind, readByte_value, hmem.tail.head]
        rfl
      . rfl

theorem xiphLacing16bit_passes (hend : endPos ≤ total)
    : (xiphLacing16bit mem endPos ptr).Passes (OpusCheck.Holds total) := by
  unfold xiphLacing16bit
  simp only [passes_ite, passes_bind, passes_pure, readByte_passes, and_true, implies_true, true_and]
  omega

theorem xiphLacingFull_value {base len : Nat} (hptr : ptr = base + len) (hmem : HoldsAt mem ptr data)
    (hlen : data.length = endPos - ptr) (val : Nat)
    : (xiphLacingFull mem endPos ptr val).value
        = (Opus.xiphLacingFull val len data).toOption.map fun (val, len) => (val, base + len) := by
  induction data generalizing ptr len val with
  | nil =>
    rw [List.length_nil] at hlen
    rw [xiphLacingFull, if_pos (by omega), Opus.xiphLacingFull]
    rfl
  | cons next data ih =>
    rw [List.length_cons] at hlen
    have hlt : (mem ptr).toNat < 255 ↔ next < 255 := by
      rw [hmem.head, UInt8.lt_iff_toNat_lt]
      rfl
    rw [xiphLacingFull, Opus.xiphLacingFull]
    by_cases hval : 0x7fffffff - 254 < val
    . rw [if_pos (Or.inr hval), if_pos hval]
      rfl
    . rw [if_neg (by omega), if_neg hval, value_bind, readByte_value]
      by_cases hnext : next < 255
      . rw [if_pos (hlt.mpr hnext), if_pos hnext, hmem.head, hptr]
        rfl
      . rw [if_neg (hnext ∘ hlt.mp), if_neg hnext]
        apply ih
        . omega
        . exact hmem.tail
        . omega

theorem xiphLacingFull_passes (hend : endPos ≤ total) (val : Nat)
    : (xiphLacingFull mem endPos ptr val).Passes (OpusCheck.Holds total) := by
  induction h : endPos - ptr generalizing ptr val with
  | zero =>
    rw [xiphLacingFull, if_pos (by omega)]
    exact passes_pure _
  | succ left ih =>
    rw [xiphLacingFull]
    simp only [passes_ite, passes_bind, passes_pure, readByte_passes, implies_true, true_and]
    intro hmore
    refine ⟨by omega, fun _ => ?_⟩
    apply ih
    omega

theorem frameSizes_value (hmem : HoldsAt mem ptr data) (hlen : data.length = endPos - ptr) (count : Nat)
    : (frameSizes mem endPos count ptr).value
        = (Opus.frameSizes count data).toOption.map fun (sizes, len) => (sizes, ptr + len) := by
  induction count generalizing ptr data with
  | zero => rfl
  | succ count ih =>
    rw [frameSizes, value_bind, xiphLacing16bit_value hmem hlen, Opus.frameSizes]
    cases hfirst : Opus.xiphLacing16bit data with
    | error fault => rfl
    | ok first =>
      rcases first with ⟨size, len⟩
      have hrest := ih (hmem.drop len) (by rw [List.length_drop]; omega)
      simp only [Except.toOption, Option.map_some]
      rw [value_bind, value_pure, hrest]
      cases hsizes : Opus.frameSizes count (data.drop len) with
      | error fault =>
        simp only [bind, Except.bind, hsizes]
        rfl
      | ok rest =>
        simp only [bind, Except.bind, hsizes, Except.toOption, Option.map_some, Nat.add_assoc]

theorem frameSizes_passes (hend : endPos ≤ total) (count : Nat)
    : (frameSizes mem endPos count ptr).Passes (OpusCheck.Holds total) := by
  induction count generalizing ptr with
  | zero => exact passes_pure _
  | succ count ih =>
    rw [frameSizes, passes_bind]
    refine ⟨xiphLacing16bit_passes hend, ?_⟩
    cases (xiphLacing16bit mem endPos ptr).value with
    | none => exact passes_pure _
    | some first =>
      rw [passes_bind]
      exact ⟨ih, passes_pure _⟩

theorem unitSizeFrom_value {b : UInt8} (hmem : HoldsAt mem ptr (b :: data)) (hlen : ptr + 1 + data.length = endPos)
    (sum : Nat)
    : (unitSizeFrom mem endPos ptr (sum + b.toNat)).value.1 = sum + (Opus.unitSize (b :: data)).1
        ∧ (unitSizeFrom mem endPos ptr (sum + b.toNat)).value.2 + 1 = (Opus.unitSize (b :: data)).2 := by
  have hmax : (mem ptr).toNat = 255 ↔ b = 255 := by
    rw [hmem.head]
    exact UInt8.toNat_inj (b := 255)
  induction data generalizing b ptr sum with
  | nil =>
    rw [List.length_nil] at hlen
    rw [unitSizeFrom, if_neg (by omega)]
    exact ⟨rfl, rfl⟩
  | cons next data ih =>
    rw [List.length_cons] at hlen
    rw [unitSizeFrom, if_pos (by omega), value_bind, readByte_value]
    by_cases hb : b = 255
    . have hrest := ih hmem.tail (by omega) (sum + 255) (by
        rw [hmem.tail.head]
        exact UInt8.toNat_inj (b := 255))
      rw [if_pos (hmax.mpr hb), hb, Opus.unitSize_run (List.cons_ne_nil _ _), value_bind, readByte_value,
        hmem.tail.head]
      rw [← Nat.add_assoc, ← hrest.left, ← hrest.right]
      exact ⟨rfl, rfl⟩
    . rw [if_neg (hb ∘ hmax.mp), Opus.unitSize_stop hb]
      exact ⟨rfl, rfl⟩

theorem unitSizeFrom_passes (hend : endPos ≤ total) (unitSize : Nat)
    : (unitSizeFrom mem endPos ptr unitSize).Passes (OpusCheck.Holds total) := by
  induction h : endPos - ptr generalizing ptr unitSize with
  | zero =>
    rw [unitSizeFrom, if_neg (by omega)]
    exact passes_pure _
  | succ left ih =>
    rw [unitSizeFrom]
    simp only [passes_ite, passes_bind, passes_pure, readByte_passes, implies_true, and_true]
    intro hmore
    refine ⟨by omega, fun _ => ⟨by omega, ?_⟩⟩
    apply ih
    omega

end Loops

section Header

variable {mem : Nat → UInt8} {pos endPos : Nat} {rest : List UInt8}

@[simp]
theorem extensionSize_value {control ptr : Nat}
    : (extensionSize mem control ptr).value = if control.testBit 2 then 1 + (mem ptr).toNat else 0 := by
  unfold extensionSize
  split
  all_goals rfl

@[simp]
theorem extensionSize_passes {control ptr : Nat}
    : (extensionSize mem control ptr).Passes (OpusCheck.Holds endPos) ↔ (control.testBit 2 = true → ptr < endPos) := by
  unfold extensionSize
  simp

/--
The packet behind a control header is where the fields of the header say, if its extension begins within the data.
-/
theorem controlledUnit_spec (hmem : HoldsAt mem pos rest) (hlen : 3 ≤ rest.length) (hend : pos + rest.length = endPos)
    : ((controlledUnit mem pos endPos (read2Bytes rest)).Passes (OpusCheck.Holds endPos) ↔ HeaderFits rest)
        ∧ (HeaderFits rest →
          (controlledUnit mem pos endPos (read2Bytes rest)).value.map (fun unit => (unit.data, unit.len))
            = if rest.length < headerLen rest + unitLen rest then none
              else some (pos + headerLen rest, unitLen rest)) := by
  rcases rest with _ | ⟨a, _ | ⟨b, _ | ⟨c, tail⟩⟩⟩
  . simp at hlen
  . simp at hlen
  . simp at hlen
  . have hsum : pos + 2 + 1 + tail.length = endPos := by
      simp only [List.length_cons] at hend
      omega
    have hbehind : HoldsAt mem (pos + 2) (c :: tail) := hmem.tail.tail
    have hfirst : mem (pos + 2) = c := hbehind.head
    rcases unitSizeFrom_value hbehind hsum 0 with ⟨hunit, hcount⟩
    rw [Nat.zero_add, Nat.zero_add] at hunit
    rw [Nat.zero_add] at hcount
    change _ = unitLen (a :: b :: c :: tail) at hunit
    have hpos : 3 + (unitSizeFrom mem endPos (pos + 2) c.toNat).value.2
        + ((read2Bytes (a :: b :: c :: tail)).testBit 4).toNat * 2
        + ((read2Bytes (a :: b :: c :: tail)).testBit 3).toNat * 2 = extensionPos (a :: b :: c :: tail) := by
      change _ = (Opus.unitSize ((a :: b :: c :: tail).drop 2)).2 at hcount
      rw [extensionPos, ← hcount]
      omega
    generalize hrest : a :: b :: c :: tail = rest at *
    have hbyte (h : extensionPos rest < rest.length)
        : mem (pos + extensionPos rest) = rest.getD (extensionPos rest) 0 := hmem.getD h 0
    have hheader (h : (read2Bytes rest).testBit 2 = true → extensionPos rest < rest.length)
        : extensionPos rest
              + (if (read2Bytes rest).testBit 2 then 1 + (mem (pos + extensionPos rest)).toNat else 0)
            = headerLen rest := by
      unfold headerLen
      split
      . next hext => rw [hbyte (h hext)]
      . rfl
    have hloop : (unitSizeFrom mem endPos (pos + 2) c.toNat).Passes (OpusCheck.Holds endPos) :=
      unitSizeFrom_passes (Nat.le_refl _) _
    unfold controlledUnit
    rw [passes_bind, readByte_passes, readByte_value, hfirst, passes_bind, value_bind, readByte_value, hfirst,
      value_bind]
    generalize (unitSizeFrom mem endPos (pos + 2) c.toNat).value = read at hunit hpos
    rcases read with ⟨unitSize, count⟩
    simp only at hunit hpos
    rw [hunit]
    simp only [passes_bind, value_bind, extensionSize_passes, extensionSize_value, passes_check, passes_ite,
      passes_pure, implies_true, and_true, hpos]
    constructor
    . constructor
      . rintro ⟨-, -, hread, hint⟩
        have hext (h : (read2Bytes rest).testBit 2 = true) : extensionPos rest < rest.length := by
          have hlt := hread h
          omega
        rw [hheader hext] at hint
        exact ⟨hext, hint⟩
      . intro hfits
        rw [hheader hfits.extension]
        refine ⟨by omega, hloop, fun h => ?_, hfits.sum⟩
        have hext := hfits.extension h
        omega
    . intro hfits
      simp only [hheader hfits.extension]
      by_cases hlt : rest.length < headerLen rest + unitLen rest
      . rw [if_pos (by omega), if_pos hlt]
        rfl
      . rw [if_neg (by omega), if_neg hlt]
        rfl

theorem getOpusHeader_spec (hmem : HoldsAt mem pos rest) (hend : pos + rest.length = endPos)
    : ((getOpusHeader mem pos endPos).Passes (OpusCheck.Holds endPos)
          ↔ (3 ≤ rest.length → HasControl rest → HeaderFits rest))
        ∧ ((3 ≤ rest.length → HasControl rest → HeaderFits rest) →
          (getOpusHeader mem pos endPos).value.map (fun unit => (unit.data, unit.len))
            = (unitAt rest).map fun (i, len) => (pos + i, len)) := by
  unfold getOpusHeader unitAt
  by_cases hlen : rest.length < 3
  . rw [dif_pos (by omega), if_pos hlen]
    refine ⟨iff_of_true (passes_pure _) (fun h => absurd h (by omega)), fun _ => rfl⟩
  . have hcontrol : (mem pos).toNat * 2 ^ 8 + (mem (pos + 1)).toNat = read2Bytes rest := by
      rcases rest with _ | ⟨a, _ | ⟨b, tail⟩⟩
      . simp at hlen
      . simp at hlen
      . rw [hmem.head, hmem.tail.head]
        rfl
    have hlength : 3 ≤ rest.length := by omega
    rcases controlledUnit_spec hmem hlength hend with ⟨hpasses, hvalue⟩
    rw [dif_neg (by omega), if_neg hlen]
    rw [passes_bind, readByte_passes, readByte_value, passes_bind, readByte_passes, readByte_value, hcontrol,
      value_bind, readByte_value, value_bind, readByte_value, hcontrol]
    by_cases hprefix : HasControl rest
    . have heq : ¬read2Bytes rest / 2 ^ 5 ≠ 0x3ff := not_not_intro hprefix
      rw [if_neg heq, if_neg (not_not_intro hprefix), hpasses]
      constructor
      . constructor
        . exact fun h _ _ => h.right.right
        . exact fun h => ⟨by omega, by omega, h hlength hprefix⟩
      . intro hfits
        rw [hvalue (hfits hlength hprefix)]
        split
        . rfl
        . rfl
    . have hne : read2Bytes rest / 2 ^ 5 ≠ 0x3ff := hprefix
      rw [if_pos hne, if_pos hprefix]
      constructor
      . exact iff_of_true ⟨by omega, by omega, passes_pure _⟩ (fun _ h => absurd h hprefix)
      . intro _
        simp only [value_pure, Option.map_some, Nat.add_zero, Option.some.injEq, Prod.mk.injEq, true_and]
        omega

end Header

section Frames

variable {mem : Nat → UInt8} {pos len total : Nat} {rest : List UInt8}

@[simp]
theorem pushFrames_value (frames : List Opus.OpusFrame) : (pushFrames frames).value = some frames := by
  induction frames with
  | nil => rfl
  | cons frame frames ih =>
    rw [pushFrames, value_bind, value_bind, ih]
    rfl

@[simp]
theorem pushFrames_passes (frames : List Opus.OpusFrame)
    : (pushFrames frames).Passes (OpusCheck.Holds total)
        ↔ ∀ frame ∈ frames, (OpusCheck.slice frame).Holds total := by
  induction frames with
  | nil => simp [pushFrames]
  | cons frame frames ih => simp [pushFrames, ih]

theorem holds_slice {frame : Opus.OpusFrame}
    : (OpusCheck.slice frame).Holds total ↔ 0 ≤ frame.size ∧ 0 ≤ frame.offset ∧ frame.offset + frame.size ≤ total :=
  Iff.rfl

/--
What is behind the first bytes of the packet.
-/
theorem holdsAt_packet (hmem : HoldsAt mem pos rest) (hlen : len ≤ rest.length) (front : Nat)
    : HoldsAt mem (pos + front) ((rest.take len).drop front)
        ∧ ((rest.take len).drop front).length = (pos + len) - (pos + front) := by
  constructor
  . apply HoldsAt.drop
    rw [← List.take_append_drop len rest] at hmem
    exact hmem.left
  . rw [List.length_drop, List.length_take]
    omega

theorem twoFrames_spec (hmem : HoldsAt mem pos rest) (hlen : len ≤ rest.length) (htotal : pos + rest.length = total)
    : ((twoFrames mem (pos + len) (pos + 1)).Passes (OpusCheck.Holds total)
          ↔ ∀ frameLen lacing, firstSize len rest = .ok (frameLen, lacing) → frameLen ≠ 0 →
            lacing + frameLen ≤ len ∧ lacing + frameLen < rest.length)
        ∧ ((twoFrames mem (pos + len) (pos + 1)).value.isSome = true
          ↔ ∃ frameLen lacing, firstSize len rest = .ok (frameLen, lacing) ∧ frameLen ≠ 0) := by
  rcases holdsAt_packet hmem hlen 1 with ⟨hbehind, hlength⟩
  have hvalue := xiphLacing16bit_value hbehind hlength
  have hpasses : (xiphLacing16bit mem (pos + len) (pos + 1)).Passes (OpusCheck.Holds total) :=
    xiphLacing16bit_passes (by omega)
  unfold twoFrames
  rw [passes_bind, value_bind, hvalue, firstSize]
  cases Opus.xiphLacing16bit ((rest.take len).drop 1) with
  | error fault =>
    constructor
    . exact iff_of_true ⟨hpasses, passes_pure _⟩ (by rintro _ _ ⟨⟩)
    . exact iff_of_false (by rintro ⟨⟩) (by rintro ⟨_, _, ⟨⟩, _⟩)
  | ok first =>
    rcases first with ⟨frameLen, lacing⟩
    simp only [Except.toOption, Option.map_some, Except.ok.injEq, Prod.mk.injEq]
    by_cases hzero : frameLen = 0
    . rw [if_pos hzero]
      constructor
      . apply iff_of_true ⟨hpasses, passes_pure _⟩
        rintro _ _ ⟨rfl, rfl⟩ hne
        exact absurd hzero hne
      . apply iff_of_false (by rintro ⟨⟩)
        rintro ⟨_, _, ⟨rfl, rfl⟩, hne⟩
        exact hne hzero
    . rw [if_neg hzero, pushFrames_value, pushFrames_passes]
      constructor
      . rw [and_iff_right hpasses, List.forall_mem_cons, List.forall_mem_singleton, holds_slice, holds_slice]
        constructor
        . rintro ⟨hfirst, hsecond⟩ _ _ ⟨rfl, rfl⟩ -
          push_cast at hfirst hsecond
          omega
        . intro h
          have hfits := h _ _ ⟨rfl, rfl⟩ hzero
          push_cast
          omega
      . exact iff_of_true rfl ⟨_, _, ⟨rfl, rfl⟩, hzero⟩

theorem vbrFrames_inside {sizes : List Nat} {p : Nat} {lastLen : Int} (hlast : 0 ≤ lastLen) (hpos : 1 ≤ p)
    (hend : p + sizes.sum + lastLen ≤ total)
    : ∀ frame ∈ Opus.vbrFrames p lastLen sizes, (OpusCheck.slice frame).Holds total := by
  induction sizes generalizing p with
  | nil =>
    intro frame hframe
    cases hframe
  | cons size sizes ih =>
    rw [List.sum_cons, Nat.cast_add] at hend
    cases sizes with
    | nil =>
      rw [Opus.vbrFrames, List.forall_mem_singleton, holds_slice]
      rw [List.sum_nil] at hend
      simp only
      omega
    | cons next sizes =>
      rw [Opus.vbrFrames, List.forall_mem_cons, holds_slice]
      constructor
      . simp only
        omega
      . apply ih
        . omega
        . rw [Nat.cast_add]
          omega

/--
Frames of one size, which is below 0 if there is less than the padding announces.
-/
theorem constantFrames_inside {p count : Nat} {size : Int} (hcount : 1 ≤ count) (hpos : 1 ≤ p)
    (hend : p + count * size ≤ total) (hp : p ≤ total + 1)
    : (∀ frame ∈ (List.range count).map fun (i : Nat) => (⟨p - 1 + i * size, size + 1⟩ : Opus.OpusFrame),
        (OpusCheck.slice frame).Holds total) ↔ 0 ≤ size ∨ (size = -1 ∧ count ≤ p) := by
  simp only [List.forall_mem_map, List.mem_range, holds_slice]
  constructor
  . intro h
    have hfirst := h 0 (by omega)
    have hlast := h (count - 1) (by omega)
    by_cases hsize : 0 ≤ size
    . exact Or.inl hsize
    . have hone : size = -1 := by omega
      rw [hone] at hlast
      omega
  . rintro (hsize | ⟨rfl, hback⟩) i hi
    . have hmul : ((i : Int) + 1) * size ≤ count * size := by
        apply Int.mul_le_mul_of_nonneg_right
        . omega
        . exact hsize
      have hnonneg : 0 ≤ (i : Int) * size := Int.mul_nonneg (by omega) hsize
      rw [Int.add_mul, Int.one_mul] at hmul
      omega
    . omega

theorem constantFrames_spec {p count : Nat} {left : Int} (hcount : 1 ≤ count) (hpos : 1 ≤ p) (hend : p + left ≤ total)
    (hp : p ≤ total + 1)
    : ((constantFrames count p left).Passes (OpusCheck.Holds total)
          ↔ 0 ≤ left ∨ ¬(count : Int) ∣ left ∨ (left = -count ∧ count ≤ p))
        ∧ ((constantFrames count p left).value.isSome = true ↔ (count : Int) ∣ left ∧ left ≤ 48 * count) := by
  unfold constantFrames
  by_cases hdvd : (count : Int) ∣ left
  . have hmod := Int.tmod_eq_zero_of_dvd hdvd
    rcases hdvd with ⟨size, rfl⟩
    have hdiv : ((count : Int) * size).tdiv count = size := Int.mul_tdiv_cancel_left _ (by omega)
    have hsign : 0 ≤ (count : Int) * size ↔ 0 ≤ size := by
      constructor
      . exact fun h => Int.nonneg_of_mul_nonneg_right h (by omega)
      . exact fun h => Int.mul_nonneg (by omega) h
    have hlarge : (count : Int) * size ≤ 48 * count ↔ size ≤ 48 := by
      rw [Int.mul_comm 48]
      constructor
      . exact fun h => Int.le_of_mul_le_mul_left h (by omega)
      . exact fun h => Int.mul_le_mul_of_nonneg_left h (by omega)
    have hback : (count : Int) * size = -count ↔ size = -1 := by
      rw [show -(count : Int) = count * -1 by omega]
      constructor
      . exact fun h => Int.eq_of_mul_eq_mul_left (by omega) h
      . rintro rfl
        rfl
    have hdvd : (count : Int) ∣ count * size := Int.dvd_mul_right _ _
    rw [hmod, hdiv, hsign, hback, hlarge, and_iff_right hdvd]
    by_cases hlt : 48 < size
    . rw [if_pos (Or.inr hlt)]
      constructor
      . exact iff_of_true (passes_pure _) (Or.inl (by omega))
      . exact iff_of_false (by rintro ⟨⟩) (by omega)
    . rw [if_neg (by omega), pushFrames_value, pushFrames_passes, constantFrames_inside hcount hpos hend hp]
      constructor
      . rw [iff_false_intro (not_not_intro hdvd), false_or]
      . exact iff_of_true rfl (by omega)
  . have hmod : left.tmod count ≠ 0 := hdvd ∘ Int.dvd_of_tmod_eq_zero
    rw [if_pos (Or.inl hmod)]
    constructor
    . exact iff_of_true (passes_pure _) (Or.inr (Or.inl hdvd))
    . exact iff_of_false (by rintro ⟨⟩) (fun h => hdvd h.left)

theorem countedFrames_spec {padding lacing : Nat} (hmem : HoldsAt mem pos rest) (hlen : len ≤ rest.length)
    (htotal : pos + rest.length = total) (hcount : ValidCount rest) (hlacing : 2 + lacing ≤ rest.length)
    : ((countedFrames mem (pos + len) (countIndex rest) padding (pos + (2 + lacing))).Passes (OpusCheck.Holds total)
          ↔ ((countIndex rest).testBit 7 = false → 0 ≤ bytesLeft len lacing padding
            ∨ ¬(frameCount rest : Int) ∣ bytesLeft len lacing padding
            ∨ (bytesLeft len lacing padding = -frameCount rest ∧ frameCount rest ≤ pos + 2 + lacing)))
        ∧ ((countedFrames mem (pos + len) (countIndex rest) padding (pos + (2 + lacing))).value.isSome = true
          ↔ if (countIndex rest).testBit 7 then SizesFit len lacing padding rest
            else SizeFits len lacing padding rest) := by
  rcases hcount with ⟨hpos, hmax⟩
  unfold countedFrames
  by_cases hvbr : (countIndex rest).testBit 7 = true
  . rcases holdsAt_packet hmem hlen (2 + lacing) with ⟨hbehind, hlength⟩
    have hpasses : (frameSizes mem (pos + len) (countIndex rest % 2 ^ 6 - 1) (pos + (2 + lacing))).Passes
        (OpusCheck.Holds total) := frameSizes_passes (by omega) _
    rw [if_pos hvbr, if_pos hvbr, passes_bind, value_bind, frameSizes_value hbehind hlength, SizesFit, frameCount]
    rw [and_iff_right hpasses, iff_true_right (by rw [hvbr]; rintro ⟨⟩)]
    cases Opus.frameSizes (countIndex rest % 2 ^ 6 - 1) ((rest.take len).drop (2 + lacing)) with
    | error fault =>
      constructor
      . exact passes_pure _
      . exact iff_of_false (by rintro ⟨⟩) (by rintro ⟨_, _, ⟨⟩, _⟩)
    | ok first =>
      rcases first with ⟨sizes, lacing'⟩
      simp only [Except.toOption, Option.map_some, Except.ok.injEq, Prod.mk.injEq]
      have hleft : ((pos + len : Nat) : Int) - (pos + (2 + lacing) + lacing' : Nat) - padding
          = bytesLeft len (lacing + lacing') padding := by
        rw [bytesLeft]
        push_cast
        omega
      rw [hleft]
      by_cases hlt : bytesLeft len (lacing + lacing') padding < sizes.sum
      . rw [if_pos hlt]
        constructor
        . exact passes_pure _
        . apply iff_of_false (by rintro ⟨⟩)
          rintro ⟨_, _, ⟨rfl, rfl⟩, hle⟩
          omega
      . rw [if_neg hlt, pushFrames_value, pushFrames_passes]
        constructor
        . apply vbrFrames_inside
          . omega
          . omega
          . rw [bytesLeft]
            push_cast
            omega
        . exact iff_of_true rfl ⟨_, _, ⟨rfl, rfl⟩, by omega⟩
  . have hleft : ((pos + len : Nat) : Int) - (pos + (2 + lacing) : Nat) - padding = bytesLeft len lacing padding := by
      rw [bytesLeft]
      push_cast
      omega
    have hconstant : (countIndex rest).testBit 7 = false := Bool.not_eq_true _ ▸ hvbr
    rw [if_neg hvbr, if_neg hvbr, SizeFits, hleft, iff_true_intro hconstant, true_implies, Nat.add_assoc]
    apply constantFrames_spec hpos (by omega)
    . rw [bytesLeft]
      push_cast
      omega
    . omega

theorem xiphLacingFull_le {val len : Nat} {data : List UInt8} {padding lacing : Nat}
    (h : Opus.xiphLacingFull val len data = .ok (padding, lacing)) : lacing ≤ len + data.length := by
  induction data generalizing val len with
  | nil => cases h
  | cons next data ih =>
    rw [Opus.xiphLacingFull] at h
    rw [List.length_cons]
    split at h
    . cases h
    . split at h
      . cases h
        omega
      . have hle := ih h
        omega

theorem paddingSize_le {padding lacing : Nat} (hlen : len ≤ rest.length) (hindex : 2 ≤ rest.length)
    (h : paddingSize len rest = .ok (padding, lacing)) : 2 + lacing ≤ rest.length := by
  unfold paddingSize at h
  split at h
  . have hle := xiphLacingFull_le h
    rw [List.length_drop, List.length_take] at hle
    omega
  . cases h
    exact hindex

theorem announcedPadding_spec (hmem : HoldsAt mem pos rest) (hlen : len ≤ rest.length)
    (htotal : pos + rest.length = total)
    : (announcedPadding mem (pos + len) (countIndex rest) (pos + 2)).Passes (OpusCheck.Holds total)
        ∧ (announcedPadding mem (pos + len) (countIndex rest) (pos + 2)).value
          = (paddingSize len rest).toOption.map fun (padding, lacing) => (padding, pos + (2 + lacing)) := by
  unfold announcedPadding paddingSize
  split
  . rcases holdsAt_packet hmem hlen 2 with ⟨hbehind, hlength⟩
    constructor
    . exact xiphLacingFull_passes (by omega) _
    . rw [xiphLacingFull_value (Nat.add_zero (pos + 2)).symm hbehind hlength 0]
      congr 1
      funext ⟨padding, lacing⟩
      change (padding, pos + 2 + lacing) = (padding, pos + (2 + lacing))
      rw [Nat.add_assoc]
  . exact ⟨passes_pure _, rfl⟩

theorem manyFrames_spec (hmem : HoldsAt mem pos rest) (hlen : len ≤ rest.length) (htotal : pos + rest.length = total)
    : ((manyFrames mem (pos + len) (pos + 1)).Passes (OpusCheck.Holds total)
          ↔ 2 ≤ rest.length ∧ (ValidCount rest → (countIndex rest).testBit 7 = false →
            ∀ padding lacing, paddingSize len rest = .ok (padding, lacing) →
              0 ≤ bytesLeft len lacing padding ∨ ¬(frameCount rest : Int) ∣ bytesLeft len lacing padding
                ∨ (bytesLeft len lacing padding = -frameCount rest ∧ frameCount rest ≤ pos + 2 + lacing)))
        ∧ (2 ≤ rest.length → ((manyFrames mem (pos + len) (pos + 1)).value.isSome = true
          ↔ ValidCount rest ∧ ∃ padding lacing, paddingSize len rest = .ok (padding, lacing)
            ∧ if (countIndex rest).testBit 7 then SizesFit len lacing padding rest
              else SizeFits len lacing padding rest)) := by
  unfold manyFrames
  rw [passes_bind, readByte_passes, value_bind, readByte_value]
  by_cases hindex : 2 ≤ rest.length
  . have hbyte : (mem (pos + 1)).toNat = countIndex rest := congrArg UInt8.toNat (hmem.getD hindex 0)
    rw [hbyte, and_iff_right (show pos + 1 < total by omega), and_iff_right hindex, iff_true_intro hindex, true_implies]
    by_cases hcount : ValidCount rest
    . have hnot : ¬(countIndex rest % 2 ^ 6 = 0 ∨ 48 < countIndex rest % 2 ^ 6) := by
        have hpos : 1 ≤ countIndex rest % 2 ^ 6 := hcount.left
        have hmax : countIndex rest % 2 ^ 6 ≤ 48 := hcount.right
        omega
      rcases announcedPadding_spec hmem hlen htotal with ⟨hpasses, hvalue⟩
      rw [if_neg hnot, passes_bind, and_iff_right hpasses, value_bind, hvalue, iff_true_intro hcount, true_implies,
        true_and]
      cases hpadding : paddingSize len rest with
      | error fault =>
        constructor
        . exact iff_of_true (passes_pure _) (by rintro _ _ _ ⟨⟩)
        . exact iff_of_false (by rintro ⟨⟩) (by rintro ⟨_, _, ⟨⟩, _⟩)
      | ok padding =>
        rcases padding with ⟨padding, lacing⟩
        have hle := paddingSize_le hlen hindex hpadding
        rcases countedFrames_spec hmem hlen htotal hcount hle with ⟨hframes, hsome⟩
        simp only [Except.toOption, Option.map_some, Except.ok.injEq, Prod.mk.injEq]
        rw [hframes, hsome]
        constructor
        . constructor
          . rintro h hconstant _ _ ⟨rfl, rfl⟩
            exact h hconstant
          . exact fun h hconstant => h hconstant _ _ ⟨rfl, rfl⟩
        . constructor
          . exact fun h => ⟨_, _, ⟨rfl, rfl⟩, h⟩
          . rintro ⟨_, _, ⟨rfl, rfl⟩, h⟩
            exact h
    . have hrefused : countIndex rest % 2 ^ 6 = 0 ∨ 48 < countIndex rest % 2 ^ 6 := by
        unfold ValidCount frameCount at hcount
        omega
      rw [if_pos hrefused]
      constructor
      . exact iff_of_true (passes_pure _) (fun h => absurd h hcount)
      . exact iff_of_false (by rintro ⟨⟩) (fun h => hcount h.left)
  . constructor
    . exact iff_of_false (fun h => by omega) (fun h => hindex h.left)
    . exact fun h => absurd h hindex

/--
Two frames of one size are within the packet. A packet without a byte gives its TOC byte twice.
-/
theorem equalFrames_inside (hlen : pos + len ≤ total) (htoc : pos < total) (hodd : len % 2 = 1 ∨ len = 0)
    : ∀ frame ∈ ([⟨pos, ((len : Int) - 1).tdiv 2 + 1⟩, ⟨pos + ((len : Int) - 1).tdiv 2, ((len : Int) - 1).tdiv 2 + 1⟩]
        : List Opus.OpusFrame), (OpusCheck.slice frame).Holds total := by
  rw [List.forall_mem_cons, List.forall_mem_singleton, holds_slice, holds_slice]
  rcases hodd with hodd | rfl
  . rw [Int.tdiv_eq_ediv_of_nonneg (by omega)]
    simp only
    omega
  . rw [show ((0 : Nat) - 1 : Int).tdiv 2 = 0 from rfl]
    simp only
    omega

theorem tmod_left_iff (len : Nat) : ((len : Int) - 1).tmod 2 = 1 ↔ ¬(len % 2 = 1 ∨ len = 0) := by
  cases len with
  | zero => decide
  | succ left =>
    rw [Int.tmod_eq_emod_of_nonneg (by omega)]
    omega

theorem packetFits_of_code (htoc : 1 ≤ rest.length) (hcode : code rest < 2) : PacketFits pos len rest where
  toc := htoc
  two := fun h => by omega
  count := fun h => by omega
  constant := fun h => by omega

theorem accepted_code1 (hcode : code rest = 1) : Accepted len rest ↔ len % 2 = 1 ∨ len = 0 := by
  constructor
  . rintro (h | ⟨-, h⟩ | ⟨h, -⟩ | ⟨h, -⟩)
    . omega
    . exact h
    . omega
    . omega
  . exact fun h => Or.inr (Or.inl ⟨hcode, h⟩)

theorem accepted_code2 (hcode : code rest = 2)
    : Accepted len rest ↔ ∃ frameLen lacing, firstSize len rest = .ok (frameLen, lacing) ∧ frameLen ≠ 0 := by
  constructor
  . rintro (h | ⟨h, -⟩ | ⟨-, h⟩ | ⟨h, -⟩)
    . omega
    . omega
    . exact h
    . omega
  . exact fun h => Or.inr (Or.inr (Or.inl ⟨hcode, h⟩))

theorem accepted_code3 (hcode : code rest = 3)
    : Accepted len rest
        ↔ ValidCount rest ∧ ∃ padding lacing, paddingSize len rest = .ok (padding, lacing)
          ∧ if (countIndex rest).testBit 7 then SizesFit len lacing padding rest
            else SizeFits len lacing padding rest := by
  constructor
  . rintro (h | ⟨h, -⟩ | ⟨h, -⟩ | ⟨-, h⟩)
    . omega
    . omega
    . omega
    . exact h
  . exact fun h => Or.inr (Or.inr (Or.inr ⟨hcode, h⟩))

theorem getOpusFrame_spec (hmem : HoldsAt mem pos rest) (hlen : len ≤ rest.length) (htotal : pos + rest.length = total)
    : ((getOpusFrame mem pos len).Passes (OpusCheck.Holds total) ↔ PacketFits pos len rest)
        ∧ (PacketFits pos len rest → ((getOpusFrame mem pos len).value.isSome = true ↔ Accepted len rest)) := by
  unfold getOpusFrame
  rw [passes_bind, readByte_passes, value_bind, readByte_value]
  by_cases htoc : 1 ≤ rest.length
  . have hcode : (mem pos).toNat % 4 = code rest := congrArg (·.toNat % 4) (hmem.getD htoc 0)
    rw [and_iff_right (show pos < total by omega)]
    simp only [hcode]
    split
    . next hzero =>
      rw [pushFrames_value, pushFrames_passes, List.forall_mem_singleton, holds_slice]
      constructor
      . apply iff_of_true
        . simp only
          omega
        . exact packetFits_of_code htoc (by omega)
      . exact fun _ => iff_of_true rfl (Or.inl hzero)
    . split
      . next hone =>
        have hfits : PacketFits pos len rest := packetFits_of_code htoc (by omega)
        rw [accepted_code1 hone]
        by_cases hodd : len % 2 = 1 ∨ len = 0
        . rw [if_neg (not_not_intro hodd ∘ (tmod_left_iff len).mp), pushFrames_value, pushFrames_passes]
          constructor
          . exact iff_of_true (equalFrames_inside (by omega) (by omega) hodd) hfits
          . exact fun _ => iff_of_true rfl hodd
        . rw [if_pos ((tmod_left_iff len).mpr hodd)]
          constructor
          . exact iff_of_true (passes_pure _) hfits
          . exact fun _ => iff_of_false (by rintro ⟨⟩) hodd
      . split
        . next htwo =>
          rcases twoFrames_spec hmem hlen htotal with ⟨hpasses, hsome⟩
          rw [hpasses, hsome, accepted_code2 htwo]
          constructor
          . constructor
            . exact fun h => ⟨htoc, fun _ => h, fun h => by omega, fun h => by omega⟩
            . exact fun h => h.two htwo
          . exact fun _ => Iff.rfl
        . next hzero hone htwo =>
          have hthree : code rest = 3 := by
            have hlt : code rest < 4 := Nat.mod_lt _ (by omega)
            omega
          rcases manyFrames_spec hmem hlen htotal with ⟨hpasses, hsome⟩
          rw [hpasses, accepted_code3 hthree]
          constructor
          . constructor
            . exact fun h => ⟨htoc, fun h => by omega, fun _ => h.left, fun _ => h.right⟩
            . exact fun h => ⟨h.count hthree, h.constant hthree⟩
          . exact fun hfits => hsome (hfits.count hthree)
  . constructor
    . exact iff_of_false (fun h => by omega) (fun h => htoc h.toc)
    . exact fun h => absurd h.toc htoc

end Frames

section Run

variable {mem : Nat → UInt8} {pos : Nat} {data : List UInt8}

theorem unitAt_le {rest : List UInt8} {i len : Nat} (h : unitAt rest = some (i, len)) : i + len ≤ rest.length := by
  unfold unitAt at h
  split at h
  . cases h
  . split at h
    . cases h
      omega
    . split at h
      . cases h
      . cases h
        omega

theorem forall_unit_iff {rest : List UInt8} {i len : Nat} (h : unitAt rest = some (i, len)) (P : Nat → Nat → Prop)
    : (∀ i' len', unitAt rest = some (i', len') → P i' len') ↔ P i len := by
  constructor
  . exact fun hall => hall i len h
  . intro hp i' len' h'
    rw [h] at h'
    cases h'
    exact hp

/--
What one unit relies on, and what the ones behind it do.
-/
theorem framesFrom_passes_iff (hmem : HoldsAt mem 0 data) (hpos : pos < data.length)
    : (framesFrom mem data.length pos).Passes (OpusCheck.Holds data.length)
        ↔ (3 ≤ (data.drop pos).length → HasControl (data.drop pos) → HeaderFits (data.drop pos))
          ∧ (∀ i len, unitAt (data.drop pos) = some (i, len) → PacketFits (pos + i) len (data.drop (pos + i)))
          ∧ ∀ i len, unitAt (data.drop pos) = some (i, len) → Accepted len (data.drop (pos + i)) →
            (framesFrom mem data.length (pos + i + len)).Passes (OpusCheck.Holds data.length) := by
  have hlength : pos + (data.drop pos).length = data.length := by
    rw [List.length_drop]
    omega
  rcases getOpusHeader_spec (hmem.behind pos) hlength with ⟨hheader, hvalue⟩
  rw [framesFrom, if_pos hpos, passes_bind, hheader]
  apply and_congr_right
  intro hfits
  have hunit := hvalue hfits
  cases hread : (getOpusHeader mem pos data.length).value with
  | none =>
    rw [hread, Option.map_none, eq_comm, Option.map_eq_none_iff] at hunit
    rw [hunit]
    exact iff_of_true (passes_pure _) ⟨by rintro _ _ ⟨⟩, by rintro _ _ ⟨⟩⟩
  | some unit =>
    rw [hread, Option.map_some, eq_comm, Option.map_eq_some_iff] at hunit
    rcases hunit with ⟨⟨i, len⟩, hunit, heq⟩
    rcases Prod.mk.inj heq with ⟨hdata, hlen⟩
    have hle := unitAt_le hunit
    rw [List.length_drop] at hle
    have hleft : pos + i + (data.drop (pos + i)).length = data.length := by
      rw [List.length_drop]
      omega
    rcases getOpusFrame_spec (hmem.behind (pos + i)) (by rw [List.length_drop]; omega : len ≤ _) hleft
      with ⟨hpasses, hsome⟩
    rw [forall_unit_iff hunit fun i len => PacketFits (pos + i) len (data.drop (pos + i)),
      forall_unit_iff hunit fun i len => Accepted len (data.drop (pos + i)) →
        (framesFrom mem data.length (pos + i + len)).Passes (OpusCheck.Holds data.length)]
    dsimp only
    rw [← hdata, ← hlen, passes_bind, hpasses]
    apply and_congr_right
    intro hpacket
    cases hframes : (getOpusFrame mem (pos + i) len).value with
    | none =>
      rw [hframes] at hsome
      apply iff_of_true (passes_pure _)
      intro haccepted
      cases (hsome hpacket).mpr haccepted
    | some frames =>
      rw [hframes] at hsome
      rw [iff_true_intro ((hsome hpacket).mp rfl), true_implies, passes_bind]
      exact and_iff_left (passes_pure _)

theorem fits_unit (hpos : pos < data.length)
    : Fits data pos
        ↔ (3 ≤ (data.drop pos).length → HasControl (data.drop pos) → HeaderFits (data.drop pos))
          ∧ (∀ i len, unitAt (data.drop pos) = some (i, len) → PacketFits (pos + i) len (data.drop (pos + i)))
          ∧ ∀ i len, unitAt (data.drop pos) = some (i, len) → Accepted len (data.drop (pos + i)) →
            Fits data (pos + i + len) := by
  constructor
  . intro h
    cases h with
    | done hend => omega
    | unit _ header packet next => exact ⟨header, packet, next⟩
  . rintro ⟨header, packet, next⟩
    exact Fits.unit hpos header packet next

theorem unitAt_progress {rest : List UInt8} {i len : Nat} (h : unitAt rest = some (i, len)) : 0 < i + len := by
  have hheader : 2 ≤ headerLen rest := by
    unfold headerLen extensionPos
    omega
  unfold unitAt at h
  split at h
  . cases h
  . split at h
    . cases h
      omega
    . split at h
      . cases h
      . cases h
        omega

theorem framesFrom_fits (hmem : HoldsAt mem 0 data)
    : (framesFrom mem data.length pos).Passes (OpusCheck.Holds data.length) ↔ Fits data pos := by
  induction hleft : data.length - pos using Nat.strong_induction_on generalizing pos with
  | _ left ih =>
    by_cases hpos : pos < data.length
    . rw [framesFrom_passes_iff hmem hpos, fits_unit hpos]
      apply and_congr_right'
      apply and_congr_right'
      apply forall_congr'
      intro i
      apply forall_congr'
      intro len
      apply imp_congr_right
      intro hunit
      have hprogress := unitAt_progress hunit
      rw [ih (data.length - (pos + i + len)) (by omega) rfl]
    . rw [framesFrom, if_neg hpos]
      exact iff_of_true (passes_pure _) (Fits.done (by omega))

end Run

section Returned

/--
The frames that are returned are noted down.
-/
def Pushes (m : Checked OpusCheck (Option (List Opus.OpusFrame))) : Prop :=
  ∀ P : OpusCheck → Prop, m.Passes P → ∀ frames, m.value = some frames → ∀ frame ∈ frames, P (.slice frame)

theorem pushes_none : Pushes (pure none) := by
  rintro _ _ _ ⟨⟩

theorem pushes_pushFrames (frames : List Opus.OpusFrame) : Pushes (pushFrames frames) := by
  intro P hpasses frames' hvalue
  rw [pushFrames_value] at hvalue
  cases hvalue
  induction frames with
  | nil => exact fun _ hframe => absurd hframe List.not_mem_nil
  | cons frame frames ih =>
    simp only [pushFrames, passes_bind, passes_check, passes_pure, and_true] at hpasses
    exact List.forall_mem_cons.mpr ⟨hpasses.left, ih hpasses.right⟩

theorem pushes_bind {α : Type} {m : Checked OpusCheck α}
    {f : α → Checked OpusCheck (Option (List Opus.OpusFrame))} (h : ∀ a, Pushes (f a)) : Pushes (m >>= f) := by
  intro P hpasses frames hvalue
  exact h m.value P (passes_bind.mp hpasses).right frames hvalue

theorem pushes_ite {p : Prop} [Decidable p] {m m' : Checked OpusCheck (Option (List Opus.OpusFrame))} (h : Pushes m)
    (h' : Pushes m') : Pushes (if p then m else m') := by
  split
  . exact h
  . exact h'

variable (mem : Nat → UInt8)

theorem twoFrames_pushes (endPos ptr : Nat) : Pushes (twoFrames mem endPos ptr) := by
  apply pushes_bind
  intro first
  cases first with
  | none => exact pushes_none
  | some first => exact pushes_ite pushes_none (pushes_pushFrames _)

theorem countedFrames_pushes (endPos index padding p : Nat) : Pushes (countedFrames mem endPos index padding p) := by
  apply pushes_ite
  . apply pushes_bind
    intro sizes
    cases sizes with
    | none => exact pushes_none
    | some sizes => exact pushes_ite pushes_none (pushes_pushFrames _)
  . exact pushes_ite pushes_none (pushes_pushFrames _)

theorem manyFrames_pushes (endPos ptr : Nat) : Pushes (manyFrames mem endPos ptr) := by
  apply pushes_bind
  intro index
  apply pushes_ite pushes_none
  apply pushes_bind
  intro padding
  cases padding with
  | none => exact pushes_none
  | some padding => apply countedFrames_pushes

theorem getOpusFrame_pushes (data len : Nat) : Pushes (getOpusFrame mem data len) := by
  apply pushes_bind
  intro type
  apply pushes_ite
  . apply pushes_pushFrames
  . apply pushes_ite
    . exact pushes_ite pushes_none (pushes_pushFrames _)
    . apply pushes_ite
      . apply twoFrames_pushes
      . apply manyFrames_pushes

theorem framesFrom_pushes (endPos pos : Nat) : Pushes (framesFrom mem endPos pos) := by
  induction hleft : endPos - pos using Nat.strong_induction_on generalizing pos with
  | _ left ih =>
    rw [framesFrom]
    split
    . apply pushes_bind
      intro unit
      cases unit with
      | none => exact pushes_none
      | some unit =>
        have hprogress := unit.progress
        intro P hpasses frames hvalue
        rcases passes_bind.mp hpasses with ⟨hfirst, hpasses⟩
        rw [value_bind] at hvalue
        cases hframes : (getOpusFrame mem unit.data unit.len).value with
        | none =>
          rw [hframes] at hvalue
          cases hvalue
        | some first =>
          rw [hframes] at hpasses hvalue
          dsimp only at hpasses hvalue
          rw [value_bind, value_pure, Option.map_eq_some_iff] at hvalue
          rcases hvalue with ⟨others, hothers, rfl⟩
          rw [List.forall_mem_append]
          constructor
          . exact getOpusFrame_pushes mem _ _ P hfirst first hframes
          . exact ih _ (by omega) _ rfl P (passes_bind.mp hpasses).left others hothers
    . rintro _ _ _ ⟨⟩ _ hframe
      exact absurd hframe List.not_mem_nil

end Returned

/--
Only the data is read, no sum is too large for an `int`, and every frame that is returned is within the data.
-/
structure Safe (mem : Nat → UInt8) (data : List UInt8) : Prop where
  inside : (getOpusFrameVector mem data.length).Passes (OpusCheck.Holds data.length)
  slices : ∀ frames, (getOpusFrameVector mem data.length).value = some frames →
    ∀ frame ∈ frames, 0 ≤ frame.size ∧ 0 ≤ frame.offset ∧ frame.offset + frame.size ≤ data.length

theorem getOpusFrameVector_safe_iff {mem : Nat → UInt8} {data : List UInt8} (hmem : HoldsAt mem 0 data)
    : Safe mem data ↔ Fits data 0 := by
  rw [← framesFrom_fits hmem]
  constructor
  . exact fun h => h.inside
  . exact fun h => ⟨h, framesFrom_pushes mem data.length 0 _ h⟩

theorem getOpusFrameVector_safe_one : Safe ([0xfc, 1, 2].getD · 0) [0xfc, 1, 2] := by
  have hunit : unitAt ([0xfc, 1, 2].drop 0) = some (0, 3) := by decide
  have hcode : code ([0xfc, 1, 2].drop 0) = 0 := by decide
  apply (getOpusFrameVector_safe_iff (holdsAt_getD _ _)).mpr
  rw [fits_unit (by decide), forall_unit_iff hunit fun i len => PacketFits (0 + i) len ([0xfc, 1, 2].drop (0 + i)),
    forall_unit_iff hunit fun i len => Accepted len ([0xfc, 1, 2].drop (0 + i)) → Fits [0xfc, 1, 2] (0 + i + len)]
  refine ⟨?_, ⟨by decide, ?_, ?_, ?_⟩, ?_⟩
  . intro _ hcontrol
    exact absurd hcontrol (by decide)
  . exact fun htwo => absurd (hcode.symm.trans htwo) (by decide)
  . exact fun hthree => absurd (hcode.symm.trans hthree) (by decide)
  . exact fun hthree => absurd (hcode.symm.trans hthree) (by decide)
  . exact fun _ => Fits.done (by decide)

/--
A first frame of 100 bytes in a packet of three bytes.
-/
theorem getOpusFrameVector_two_outside : ¬Safe ([2, 100, 0].getD · 0) [2, 100, 0] := by
  intro h
  have hfits := (framesFrom_fits (holdsAt_getD [2, 100, 0] 0)).mp h.inside
  rw [fits_unit (by decide)] at hfits
  have hunit : unitAt ([2, 100, 0].drop 0) = some (0, 3) := by decide
  have htwo := (hfits.right.left 0 3 hunit).two rfl 100 1 rfl (by decide)
  revert htwo
  decide

end OpusReader
