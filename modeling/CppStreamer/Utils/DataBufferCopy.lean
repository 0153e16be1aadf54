import CppStreamer.Basic.Heap
import CppStreamer.Utils.DataBuffer

/-!
This module contains the copies of a `DataBuffer`, with the allocations in which the buffers keep their bytes.
-/

namespace DataBuffer

section Calls

def call (b : DataBuffer) : Call → DataBuffer
  | .append input => (b.appendData input).1
  | .consume len => (b.consumeData len).2
  | .reset => b.reset

/--
What `AppendData` keeps in an `int` fits into one.
-/
def Fits (b : DataBuffer) : Call → Prop
  | .append input =>
    if b.Grows input then getNewSize (b.dataLen + input.length + extraLen) < 2 ^ 31
    else (b.appendData input).1.end_ < 2 ^ 31
  | .consume _ => True
  | .reset => True

def CallStep (b : DataBuffer) (c : Call) (b' : DataBuffer) : Prop := b.Fits c ∧ b' = b.call c

/--
In every run the data lie in the allocation, and so does what `AppendData` copies.
-/
def StaysInside (b : DataBuffer) : Prop :=
  ∀ calls b', Interleave.Run CallStep b calls b' → b'.start + b'.dataLen ≤ b'.allocSize
    ∧ ∀ input, b'.Fits (.append input) → ∀ c ∈ (b'.appendData input).2, c.InBounds

end Calls

section Objects

/--
A `DataBuffer` with the address of its allocation.
-/
structure Object where
  address : Nat
  allocSize : Nat
  bufferSize : Nat
  dataLen : Nat
  start : Nat
  end_ : Nat

/--
The buffer that an object stands for.
-/
def Object.view (o : Object) (heap : Heap (Memory UInt8)) : DataBuffer where
  buffer := heap.contents o.address
  allocSize := o.allocSize
  bufferSize := o.bufferSize
  dataLen := o.dataLen
  start := o.start
  end_ := o.end_

def object (b : DataBuffer) (address : Nat) : Object where
  address := address
  allocSize := b.allocSize
  bufferSize := b.bufferSize
  dataLen := b.dataLen
  start := b.start
  end_ := b.end_

/--
A new allocation takes the place of the old one, which is deleted.
-/
def Object.call (o : Object) (heap : Heap (Memory UInt8)) (c : Call) : Object × Heap (Memory UInt8) :=
  let b := (o.view heap).call c
  match c with
  | .append input =>
    if (o.view heap).Grows input then (b.object heap.next, (heap.set o.address fun _ => none).alloc b.buffer)
    else (b.object o.address, heap.set o.address b.buffer)
  | .consume _ => (b.object o.address, heap)
  | .reset => (b.object o.address, heap)

variable (input : Object) (heap : Heap (Memory UInt8)) (fresh : Memory UInt8)

/--
What is done to copy a buffer, for the memory that the allocation is made of. As many bytes are copied as there are
data, from the begin of the allocation.
-/
def deepCopy : Object × Heap (Memory UInt8) :=
  ({ input with address := heap.next, allocSize := input.bufferSize + preReserveHeaderSize },
    heap.alloc (fresh.write 0 ((heap.contents input.address).read 0 input.dataLen)))

def copyConstructor : Object × Heap (Memory UInt8) := deepCopy input heap fresh

/--
Nothing of the target is used, its allocation is not deleted.
-/
def assign (_target : Object) : Object × Heap (Memory UInt8) := deepCopy input heap fresh

end Objects

section Pairs

inductive Which where
  | original
  | copy
  deriving DecidableEq, Repr

structure Pair where
  original : Object
  copy : Object
  heap : Heap (Memory UInt8)

namespace Pair

def view (p : Pair) : Which → DataBuffer
  | .original => p.original.view p.heap
  | .copy => p.copy.view p.heap

def call (p : Pair) (which : Which) (c : Call) : Pair :=
  match which with
  | .original => let (original, heap) := p.original.call p.heap c; { p with original, heap }
  | .copy => let (copy, heap) := p.copy.call p.heap c; { p with copy, heap }

def run (p : Pair) (calls : List (Which × Call)) : Pair := calls.foldl (fun p c => p.call c.1 c.2) p

/--
Each of the two is what its own calls make of it.
-/
def Independent (p : Pair) : Prop :=
  ∀ calls which, (p.run calls).view which
    = ((calls.filter fun c => c.1 = which).map Prod.snd).foldl DataBuffer.call (p.view which)

end Pair

/--
The copy has the bytes of the buffer, stays in its allocation and has nothing to do with the buffer any more, which is
still what it was.
-/
structure Pair.Copied (p : Pair) (b : DataBuffer) : Prop where
  original : p.view .original = b
  dataLen : (p.view .copy).dataLen = b.dataLen
  data : (p.view .copy).data = b.data
  inside : (p.view .copy).StaysInside
  independent : p.Independent

/--
The two ways to copy a buffer, which is anywhere, into memory with any contents. The bytes that are copied lie in both
allocations.
-/
structure CopiesWell (b : DataBuffer) : Prop where
  inBounds : b.dataLen ≤ b.allocSize ∧ b.dataLen ≤ b.bufferSize + preReserveHeaderSize
  construct : ∀ heap address fresh, address < heap.next → heap.contents address = b.buffer →
    (Pair.mk (b.object address) (copyConstructor (b.object address) heap fresh).1
      (copyConstructor (b.object address) heap fresh).2).Copied b
  assign : ∀ heap address fresh target, address < heap.next → heap.contents address = b.buffer →
    target.address < heap.next → target.address ≠ address →
    (Pair.mk (b.object address) (assign (b.object address) heap fresh target).1
      (assign (b.object address) heap fresh target).2).Copied b

end Pairs

section Apart

variable {o : Object} {heap : Heap (Memory UInt8)} {c : Call}

theorem view_object (b : DataBuffer) (address : Nat) (h : heap.contents address = b.buffer)
    : (b.object address).view heap = b := by
  rw [Object.view, show (b.object address).address = address from rfl, h]
  rfl

theorem buffer_consumeData (b : DataBuffer) (len : Int) : (b.consumeData len).2.buffer = b.buffer := by
  rw [consumeData]
  split
  . rfl
  . split <;> rfl

theorem Object.view_call : (o.call heap c).1.view (o.call heap c).2 = (o.view heap).call c := by
  unfold Object.call
  cases c with
  | append input =>
    simp only
    split
    . exact view_object _ _ (Heap.contents_alloc _ _)
    . exact view_object _ _ (Heap.contents_set _ _ _)
  | consume len => exact view_object _ _ (buffer_consumeData (o.view heap) len).symm
  | reset => rfl

theorem Object.contents_call {address : Nat} (hlt : address < heap.next) (hne : address ≠ o.address)
    : (o.call heap c).2.contents address = heap.contents address := by
  unfold Object.call
  cases c with
  | append input =>
    simp only
    split
    . exact (Heap.contents_alloc_of_lt (heap.set o.address fun _ => none) _ hlt).trans
        (Heap.contents_set_of_ne heap _ hne)
    . exact Heap.contents_set_of_ne heap _ hne
  | consume len => rfl
  | reset => rfl

/--
An object stays where it is or goes where nothing has been.
-/
theorem Object.address_call (hlt : o.address < heap.next)
    : (o.call heap c).1.address < (o.call heap c).2.next ∧ heap.next ≤ (o.call heap c).2.next
      ∧ ((o.call heap c).1.address = o.address ∨ (o.call heap c).1.address = heap.next) := by
  unfold Object.call
  cases c with
  | append input =>
    simp only
    split
    . exact ⟨Nat.lt_succ_self _, Nat.le_succ _, Or.inr rfl⟩
    . exact ⟨hlt, Nat.le_refl _, Or.inl rfl⟩
  | consume len => exact ⟨hlt, Nat.le_refl _, Or.inl rfl⟩
  | reset => exact ⟨hlt, Nat.le_refl _, Or.inl rfl⟩

/--
The two objects have an allocation each.
-/
structure Pair.Apart (p : Pair) : Prop where
  original : p.original.address < p.heap.next
  copy : p.copy.address < p.heap.next
  ne : p.original.address ≠ p.copy.address

theorem Pair.Apart.call {p : Pair} (h : p.Apart) (which : Which) (c : Call) : (p.call which c).Apart := by
  have horiginal := h.original
  have hcopy := h.copy
  have hne := h.ne
  cases which with
  | original =>
    obtain ⟨hlt, hle, hplace⟩ := Object.address_call (c := c) horiginal
    refine ⟨hlt, Nat.lt_of_lt_of_le hcopy hle, ?_⟩
    show (p.original.call p.heap c).1.address ≠ p.copy.address
    omega
  | copy =>
    obtain ⟨hlt, hle, hplace⟩ := Object.address_call (c := c) hcopy
    refine ⟨Nat.lt_of_lt_of_le horiginal hle, hlt, ?_⟩
    show p.original.address ≠ (p.copy.call p.heap c).1.address
    omega

theorem Object.view_congr {heap' : Heap (Memory UInt8)} (h : heap'.contents o.address = heap.contents o.address)
    : o.view heap' = o.view heap := by
  rw [view, view, h]

theorem Pair.Apart.view_call {p : Pair} (h : p.Apart) (which which' : Which) (c : Call)
    : (p.call which c).view which' = if which = which' then (p.view which').call c else p.view which' := by
  cases which with
  | original =>
    cases which' with
    | original => exact Object.view_call
    | copy => exact Object.view_congr (Object.contents_call h.copy h.ne.symm)
  | copy =>
    cases which' with
    | original => exact Object.view_congr (Object.contents_call h.original h.ne)
    | copy => exact Object.view_call

/--
Calls of one object change nothing of an other one with an allocation of its own.
-/
theorem Pair.Apart.independent {p : Pair} (h : p.Apart) : p.Independent := by
  intro calls which
  induction calls generalizing p with
  | nil => rfl
  | cons c calls ih =>
    rw [run, List.foldl_cons, ← run, ih (h.call c.1 c.2), h.view_call, List.filter_cons]
    by_cases hwhich : c.1 = which
    . rw [if_pos hwhich, decide_eq_true hwhich, if_pos rfl, List.map_cons, List.foldl_cons]
    . rw [if_neg hwhich, decide_eq_false hwhich, if_neg Bool.false_ne_true]

end Apart

section Inside

variable {b b' : DataBuffer} {c : Call} {input : List UInt8}

/--
A buffer of at least 200 bytes has its data in the allocation.
-/
structure Sound (b : DataBuffer) : Prop where
  end_eq : b.end_ = b.start + b.dataLen
  bufferSize_lt : b.bufferSize + preReserveHeaderSize < 2 ^ 64
  bufferSize_le : b.bufferSize ≤ b.allocSize
  allocSize_le : b.allocSize ≤ b.bufferSize + preReserveHeaderSize
  end_le : preReserveHeaderSize ≤ b.bufferSize → b.end_ ≤ b.allocSize

theorem Sound.new {dataSize : Nat} (h : dataSize + preReserveHeaderSize < 2 ^ 64) : (new dataSize).Sound where
  end_eq := rfl
  bufferSize_lt := h
  bufferSize_le := Nat.le_add_right _ _
  allocSize_le := Nat.le_refl _
  end_le := fun _ => Nat.le_add_left _ _

theorem appendData_cases (b : DataBuffer) (input : List UInt8)
    : (input = [] ∧ b.appendData input = (b, []))
      ∨ (b.Grows input ∧ b.appendData input = b.grow input)
      ∨ (¬b.Grows input ∧ b.limit < b.end_ + input.length ∧ b.dataLen + input.length < b.limit
        ∧ b.appendData input = b.compact input)
      ∨ (¬b.Grows input ∧ b.end_ + input.length ≤ b.limit ∧ b.appendData input = b.extend input) := by
  unfold appendData Grows
  by_cases hinput : input = []
  . exact Or.inl ⟨hinput, if_pos hinput⟩
  . rw [if_neg hinput]
    by_cases hlimit : b.limit < b.end_ + input.length
    . rw [if_pos hlimit]
      by_cases hgrow : b.limit ≤ b.dataLen + input.length
      . exact Or.inr (Or.inl ⟨⟨hinput, hlimit, hgrow⟩, if_pos hgrow⟩)
      . exact Or.inr (Or.inr (Or.inl ⟨fun h => hgrow h.right.right, hlimit, Nat.lt_of_not_le hgrow, if_neg hgrow⟩))
    . exact Or.inr (Or.inr (Or.inr ⟨fun h => hlimit h.right.left, Nat.le_of_not_lt hlimit, if_neg hlimit⟩))

theorem Sound.appendData (h : b.Sound) (hfits : b.Fits (.append input)) : (b.appendData input).1.Sound := by
  have hend := h.end_eq
  have hlt := h.bufferSize_lt
  have hle := h.bufferSize_le
  have hle' := h.allocSize_le
  have hend' := h.end_le
  have hlimit := limit_eq hlt
  have hnew := le_getNewSize (b.dataLen + input.length + extraLen)
  unfold preReserveHeaderSize at *
  rcases appendData_cases b input with ⟨-, heq⟩ | ⟨hgrows, heq⟩ | ⟨-, hgt, hroom, heq⟩ | ⟨-, hroom, heq⟩
  . rw [heq]
    exact h
  . rw [Fits, if_pos hgrows] at hfits
    rw [heq]
    unfold extraLen at *
    refine ⟨rfl, ?_, Nat.le_refl _, Nat.le_add_right _ _, ?_⟩
    all_goals
      simp only [DataBuffer.grow, preReserveHeaderSize, extraLen]
      omega
  . rw [heq]
    refine ⟨rfl, hlt, hle, hle', ?_⟩
    simp only [DataBuffer.compact, preReserveHeaderSize]
    omega
  . rw [heq]
    refine ⟨?_, hlt, hle, hle', ?_⟩
    all_goals
      simp only [DataBuffer.extend, preReserveHeaderSize]
      omega

theorem Sound.consumeData (h : b.Sound) (len : Int) : (b.consumeData len).2.Sound := by
  have hend := h.end_eq
  unfold DataBuffer.consumeData
  split
  . exact h
  . split
    . exact h
    . refine ⟨?_, h.bufferSize_lt, h.bufferSize_le, h.allocSize_le, h.end_le⟩
      simp only
      omega

theorem Sound.call (h : b.Sound) (hfits : b.Fits c) : (b.call c).Sound := by
  cases c with
  | append input => exact h.appendData hfits
  | consume len => exact h.consumeData len
  | reset =>
    have hle := h.bufferSize_le
    exact ⟨rfl, h.bufferSize_lt, hle, h.allocSize_le, fun hlarge => Nat.le_trans hlarge hle⟩

theorem le_bufferSize_grow : preReserveHeaderSize ≤ (b.grow input).1.bufferSize := by
  have hnew := (getNewSize_bounds (b.dataLen + input.length + extraLen)).left
  unfold grow preReserveHeaderSize
  generalize getNewSize _ = size at hnew ⊢
  simp only
  omega

theorem le_bufferSize_call (h : preReserveHeaderSize ≤ b.bufferSize) : preReserveHeaderSize ≤ (b.call c).bufferSize := by
  cases c with
  | append input =>
    rw [call]
    rcases appendData_cases b input with ⟨-, heq⟩ | ⟨-, heq⟩ | ⟨-, -, -, heq⟩ | ⟨-, -, heq⟩
    . rwa [heq]
    . rw [heq]
      exact le_bufferSize_grow
    . rwa [heq]
    . rwa [heq]
  | consume len =>
    rw [call, consumeData]
    split
    . exact h
    . split <;> exact h
  | reset => exact h

/--
What `AppendData` copies lies in the allocations.
-/
theorem Sound.inBounds (h : b.Sound) (hlarge : preReserveHeaderSize ≤ b.bufferSize)
    : ∀ m ∈ (b.appendData input).2, m.InBounds := by
  have hend := h.end_eq
  have hle := h.bufferSize_le
  have hend' := h.end_le hlarge
  have hlimit := limit_eq h.bufferSize_lt
  have hnew := le_getNewSize (b.dataLen + input.length + extraLen)
  unfold preReserveHeaderSize at *
  rcases appendData_cases b input with ⟨-, heq⟩ | ⟨hgrows, heq⟩ | ⟨-, hgt, hroom, heq⟩ | ⟨-, hroom, heq⟩
  . rw [heq]
    exact List.forall_mem_nil _
  . rw [heq]
    unfold extraLen at hnew
    simp only [DataBuffer.grow, List.forall_mem_cons, Memory.Copy.InBounds, preReserveHeaderSize, extraLen]
    exact ⟨by omega, by omega, List.forall_mem_nil _⟩
  . rw [heq]
    simp only [DataBuffer.compact, List.forall_mem_append, List.forall_mem_cons, Memory.Copy.InBounds,
      preReserveHeaderSize]
    refine ⟨?_, by omega, List.forall_mem_nil _⟩
    split
    . simp only [List.forall_mem_cons]
      exact ⟨by omega, by omega, List.forall_mem_nil _⟩
    . simp only [List.forall_mem_cons]
      exact ⟨by omega, List.forall_mem_nil _⟩
  . rw [heq]
    simp only [DataBuffer.extend, List.forall_mem_cons, Memory.Copy.InBounds]
    exact ⟨by omega, List.forall_mem_nil _⟩

theorem Sound.staysInside (h : b.Sound) (hlarge : preReserveHeaderSize ≤ b.bufferSize) : b.StaysInside := by
  intro calls b' hrun
  have hinv : b'.Sound ∧ preReserveHeaderSize ≤ b'.bufferSize := by
    apply hrun.invariant (P := fun b => b.Sound ∧ preReserveHeaderSize ≤ b.bufferSize) _ ⟨h, hlarge⟩
    rintro b c b' ⟨hsound, hlarge⟩ ⟨hfits, rfl⟩
    exact ⟨hsound.call hfits, le_bufferSize_call hlarge⟩
  refine ⟨?_, fun input _ => hinv.left.inBounds hinv.right⟩
  rw [← hinv.left.end_eq]
  exact hinv.left.end_le hinv.right

/--
A smaller buffer never grows, so that what is put into it lies behind its end at some time.
-/
theorem StaysInside.large (h : b.StaysInside) (hle : b.allocSize ≤ b.bufferSize + preReserveHeaderSize)
    : preReserveHeaderSize ≤ b.bufferSize := by
  by_contra hsmall
  obtain ⟨-, hcopies⟩ := h [.reset] b.reset (.cons ⟨trivial, rfl⟩ (.nil _))
  obtain ⟨input, hlength⟩ : ∃ input : List UInt8, input.length = b.bufferSize + 1 := 
    ⟨List.replicate (b.bufferSize + 1) 0, List.length_replicate⟩
  have hlimit : b.reset.limit = 2 ^ 64 - preReserveHeaderSize + b.bufferSize := by
    unfold preReserveHeaderSize at hsmall ⊢
    unfold limit reset preReserveHeaderSize
    simp only
    omega
  have hend : b.reset.end_ = preReserveHeaderSize := rfl
  rcases appendData_cases b.reset input with ⟨rfl, -⟩ | ⟨hgrows, -⟩ | ⟨-, hgt, -, -⟩ | ⟨hgrows, -, heq⟩
  . cases hlength
  . have hgt := hgrows.right.left
    unfold preReserveHeaderSize at *
    omega
  . unfold preReserveHeaderSize at *
    omega
  . have hfits : b.reset.Fits (.append input) := by
      rw [Fits, if_neg hgrows, heq]
      simp only [extend, hend, hlength]
      unfold preReserveHeaderSize at *
      omega
    have hin := hcopies _ hfits
    rw [heq] at hin
    have hlast := hin _ List.mem_cons_self
    unfold Memory.Copy.InBounds at hlast
    rw [hend, hlength] at hlast
    simp only [reset] at hlast
    omega

end Inside

section Copies

variable {b : DataBuffer} {heap : Heap (Memory UInt8)} {address : Nat} {fresh : Memory UInt8}

/--
The buffer that the copy of a buffer stands for.
-/
def copied (b : DataBuffer) (fresh : Memory UInt8) : DataBuffer :=
  { b with
    buffer := fresh.write 0 (b.buffer.read 0 b.dataLen)
    allocSize := b.bufferSize + preReserveHeaderSize }

theorem view_deepCopy (h : heap.contents address = b.buffer)
    : (deepCopy (b.object address) heap fresh).1.view (deepCopy (b.object address) heap fresh).2 = b.copied fresh := by
  unfold deepCopy copied Object.view
  simp only [Heap.contents_alloc]
  rw [show (b.object address).address = address from rfl, h]
  rfl

theorem buffer_copied (b : DataBuffer) (fresh : Memory UInt8) (i : Nat)
    : (b.copied fresh).buffer i = if i < b.dataLen then b.buffer i else fresh i := by
  unfold copied Memory.write
  simp only
  rw [if_neg (Nat.not_lt_zero i), Nat.sub_zero]
  split
  . next hlt =>
    rw [b.buffer.getElem?_read 0 hlt, Nat.zero_add]
    rfl
  . next hlt =>
    rw [List.getElem?_eq_none (by rw [Memory.length_read]; exact Nat.le_of_not_lt hlt)]
    rfl

/--
The bytes are those of the buffer, in all memory, if there are none or if they are at the begin of the allocation.
-/
theorem data_copied_iff : (∀ fresh, (b.copied fresh).data = b.data) ↔ b.start = 0 ∨ b.dataLen = 0 := by
  have hdata : ∀ fresh, (b.copied fresh).data = (b.copied fresh).buffer.read b.start b.dataLen := fun _ => rfl
  constructor
  . intro h
    by_contra hne
    obtain ⟨hstart, hlen⟩ := not_or.mp hne
    -- the last byte is not copied
    have hlast : ∀ fresh : Memory UInt8, fresh (b.start + (b.dataLen - 1)) = b.buffer (b.start + (b.dataLen - 1)) := by
      intro fresh
      have hbyte := congrArg (·[b.dataLen - 1]?) (h fresh)
      rw [hdata, data, Memory.getElem?_read _ _ (by omega), Memory.getElem?_read _ _ (by omega), buffer_copied,
        if_neg (by omega)] at hbyte
      exact Option.some.inj hbyte
    have hnone := hlast fun _ => none
    rw [← hlast fun _ => some 0] at hnone
    cases hnone
  . intro h fresh
    rw [hdata, data]
    apply List.map_congr_left
    intro i hi
    have hlt := List.mem_range.mp hi
    rw [buffer_copied, if_pos (by omega)]

theorem Sound.copied (h : b.Sound) (hlarge : preReserveHeaderSize ≤ b.bufferSize) (fresh : Memory UInt8)
    : (b.copied fresh).Sound where
  end_eq := h.end_eq
  bufferSize_lt := h.bufferSize_lt
  bufferSize_le := Nat.le_add_right _ _
  allocSize_le := Nat.le_refl _
  end_le := fun _ => Nat.le_trans (h.end_le hlarge) h.allocSize_le

theorem apart_deepCopy (hlt : address < heap.next)
    : (Pair.mk (b.object address) (deepCopy (b.object address) heap fresh).1
      (deepCopy (b.object address) heap fresh).2).Apart where
  original := Nat.lt_succ_of_lt hlt
  copy := Nat.lt_succ_self _
  ne := Nat.ne_of_lt hlt

theorem Sound.copied_deepCopy (h : b.Sound) (hlarge : preReserveHeaderSize ≤ b.bufferSize)
    (hdata : b.start = 0 ∨ b.dataLen = 0) (hlt : address < heap.next) (hcontents : heap.contents address = b.buffer)
    : (Pair.mk (b.object address) (deepCopy (b.object address) heap fresh).1
      (deepCopy (b.object address) heap fresh).2).Copied b := by
  have hcopy := @view_deepCopy b heap address fresh hcontents
  have happart := @apart_deepCopy b heap address fresh hlt
  constructor
  . exact view_object b address ((Heap.contents_alloc_of_lt heap _ hlt).trans hcontents)
  . rw [Pair.view, hcopy]
    rfl
  . rw [Pair.view, hcopy]
    exact data_copied_iff.mpr hdata fresh
  . rw [Pair.view, hcopy]
    exact (h.copied hlarge fresh).staysInside hlarge
  . exact happart.independent

/--
The copies of a buffer in a run are right exactly if the buffer is not too small and has its data, if any, at the begin
of its allocation.
-/
theorem copiesWell_iff {dataSize : Nat} (hdataSize : dataSize + preReserveHeaderSize < 2 ^ 64) {calls : List Call}
    (hrun : Interleave.Run CallStep (new dataSize) calls b)
    : CopiesWell b ↔ preReserveHeaderSize ≤ b.bufferSize ∧ (b.start = 0 ∨ b.dataLen = 0) := by
  have hsound : b.Sound := by
    apply hrun.invariant _ (Sound.new hdataSize)
    rintro b c b' hsound ⟨hfits, rfl⟩
    exact hsound.call hfits
  constructor
  . intro h
    have hcopied : ∀ fresh, (b.copied fresh).StaysInside ∧ (b.copied fresh).data = b.data := by
      intro fresh
      have hcopy := h.construct ⟨fun _ => b.buffer, 1⟩ 0 fresh Nat.zero_lt_one rfl
      have hview := @view_deepCopy b ⟨fun _ => b.buffer, 1⟩ 0 fresh rfl
      exact ⟨hview ▸ hcopy.inside, hview ▸ hcopy.data⟩
    exact ⟨(hcopied fun _ => none).left.large (Nat.le_refl _), data_copied_iff.mp fun fresh => (hcopied fresh).right⟩
  . rintro ⟨hlarge, hdata⟩
    have hend := hsound.end_le hlarge
    have hend' := hsound.end_eq
    have hle := hsound.allocSize_le
    constructor
    . omega
    . exact fun heap address fresh hlt hcontents => hsound.copied_deepCopy hlarge hdata hlt hcontents
    . exact fun heap address fresh target hlt hcontents _ _ => hsound.copied_deepCopy hlarge hdata hlt hcontents

/--
All of the reserve is given back, so that the data begin where the allocation does.
-/
theorem copiesWell_reserve : CopiesWell ((new 1000).call (.consume (-200))) := by
  have hrun : Interleave.Run CallStep (new 1000) [.consume (-200)] ((new 1000).call (.consume (-200))) :=
    .cons ⟨trivial, rfl⟩ (.nil _)
  exact (copiesWell_iff (by decide) hrun).mpr ⟨by decide, by decide⟩

/--
The byte is behind the reserve, from where nothing is copied.
-/
theorem not_copiesWell_byte : ¬CopiesWell ((new 1000).call (.append [1])) := by
  intro h
  have hcopy := h.construct ⟨fun _ => ((new 1000).call (.append [1])).buffer, 1⟩ 0 (fun _ => some 0) Nat.zero_lt_one rfl
  exact absurd hcopy.data (by decide)

end Copies

end DataBuffer
