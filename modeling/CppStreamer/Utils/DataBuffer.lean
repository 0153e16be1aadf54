import CppStreamer.Basic.Interleave
import CppStreamer.Basic.Memory

/-!
This module contains the model of `DataBuffer`, and its refinement of a byte queue that can give back
what was taken from it.
-/

def extraLen : Nat := 10 * 1024

def preReserveHeaderSize : Nat := 200

/--
`allocSize` is the size of the allocation, `bufferSize` is what the code keeps of it.
-/
structure DataBuffer where
  buffer : Memory UInt8
  allocSize : Nat
  bufferSize : Nat
  dataLen : Nat
  start : Nat
  end_ : Nat

namespace DataBuffer

def new (dataSize : Nat) : DataBuffer where
  buffer i := if i < dataSize then some 0 else none
  allocSize := dataSize + preReserveHeaderSize
  bufferSize := dataSize
  dataLen := 0
  start := preReserveHeaderSize
  end_ := preReserveHeaderSize

def getNewSize (newLen : Nat) : Nat :=
  if newLen ≤ 50 * 1024 then 50 * 1024
  else if newLen ≤ 100 * 1024 then 100 * 1024
  else if newLen ≤ 200 * 1024 then 200 * 1024
  else if newLen ≤ 500 * 1024 then 500 * 1024
  else newLen + 10 * 1024

/--
`buffer_size_ - PRE_RESERVE_HEADER_SIZE` in `size_t`.
-/
def limit (b : DataBuffer) : Nat := (b.bufferSize + (2 ^ 64 - preReserveHeaderSize)) % 2 ^ 64

/--
The data and the input behind the reserve of an allocation.
-/
def moveTo (b : DataBuffer) (target : Memory UInt8) (input : List UInt8) : Memory UInt8 :=
  (target.write preReserveHeaderSize (b.buffer.read b.start b.dataLen)).write
    (preReserveHeaderSize + b.dataLen) (input.map some)

def grow (b : DataBuffer) (input : List UInt8) : DataBuffer × List Memory.Copy :=
  let newLen := getNewSize (b.dataLen + input.length + extraLen)
  ({ buffer := b.moveTo (fun _ => none) input
     allocSize := newLen
     bufferSize := newLen
     dataLen := b.dataLen + input.length
     start := preReserveHeaderSize
     end_ := preReserveHeaderSize + (b.dataLen + input.length) },
   [⟨newLen, preReserveHeaderSize, none, b.dataLen⟩,
    ⟨newLen, preReserveHeaderSize + b.dataLen, none, input.length⟩])

def compact (b : DataBuffer) (input : List UInt8) : DataBuffer × List Memory.Copy :=
  ({ b with
     buffer := b.moveTo b.buffer input
     dataLen := b.dataLen + input.length
     start := preReserveHeaderSize
     end_ := preReserveHeaderSize + (b.dataLen + input.length) },
   (if b.start ≤ b.dataLen then
      [⟨b.dataLen, 0, none, b.dataLen⟩, ⟨b.allocSize, preReserveHeaderSize, none, b.dataLen⟩]
    else
      [⟨b.allocSize, preReserveHeaderSize, some b.start, b.dataLen⟩])
   ++ [⟨b.allocSize, preReserveHeaderSize + b.dataLen, none, input.length⟩])

def extend (b : DataBuffer) (input : List UInt8) : DataBuffer × List Memory.Copy :=
  ({ b with
     buffer := b.buffer.write b.end_ (input.map some)
     dataLen := b.dataLen + input.length
     end_ := b.end_ + input.length },
   [⟨b.allocSize, b.end_, none, input.length⟩])

/--
The buffer afterwards and the calls of `memcpy`. The return value is `dataLen`, or 0 without input.
-/
def appendData (b : DataBuffer) (input : List UInt8) : DataBuffer × List Memory.Copy :=
  if input = [] then (b, [])
  else if b.limit < b.end_ + input.length then
    if b.limit ≤ b.dataLen + input.length then b.grow input else b.compact input
  else b.extend input

/--
`AppendData` gets a new buffer.
-/
def Grows (b : DataBuffer) (input : List UInt8) : Prop :=
  input ≠ [] ∧ b.limit < b.end_ + input.length ∧ b.limit ≤ b.dataLen + input.length

instance (b : DataBuffer) (input : List UInt8) : Decidable (b.Grows input) := inferInstanceAs (Decidable (_ ∧ _ ∧ _))

/--
The offset of the data, `none` is the null pointer of a refused call.
-/
def consumeData (b : DataBuffer) (consumeLen : Int) : Option Nat × DataBuffer :=
  if b.dataLen < consumeLen then (none, b)
  else if consumeLen < 0 ∧ b.start + consumeLen < 0 then (none, b)
  else
    let start := (b.start + consumeLen).toNat
    (some start, { b with start := start, dataLen := (b.dataLen - consumeLen).toNat })

def reset (b : DataBuffer) : DataBuffer :=
  { b with start := preReserveHeaderSize, end_ := preReserveHeaderSize, dataLen := 0 }

def data (b : DataBuffer) : List (Option UInt8) := b.buffer.read b.start b.dataLen

end DataBuffer

/--
A queue of bytes with the bytes taken from its front, the last one first. What was in front of all
bytes ever appended is not known.
-/
structure ByteQueue where
  data : List (Option UInt8) := []
  front : List (Option UInt8) := []

namespace ByteQueue

def append (q : ByteQueue) (input : List UInt8) : ByteQueue :=
  { q with data := q.data ++ input.map some }

def take (q : ByteQueue) (len : Nat) : ByteQueue where
  data := q.data.drop len
  front := (q.data.take len).reverse ++ q.front

def restore (q : ByteQueue) (len : Nat) : ByteQueue where
  data := (List.range len).map (fun i => (q.front[len - 1 - i]?).join) ++ q.data
  front := q.front.drop len

def consume (q : ByteQueue) (len : Int) : ByteQueue :=
  if 0 ≤ len then q.take len.toNat else q.restore (-len).toNat

end ByteQueue

namespace DataBuffer

inductive Call where
  | append (input : List UInt8)
  | consume (len : Int)
  | reset

/--
The buffer, the queue it stands for, and the bytes appended and restored so far.
-/
structure History where
  buffer : DataBuffer
  queue : ByteQueue
  size : Nat

namespace History

def start (dataSize : Nat) : History := ⟨new dataSize, {}, 0⟩

def next (s : History) : Call → History
  | .append input => ⟨(s.buffer.appendData input).1, s.queue.append input, s.size + input.length⟩
  | .consume len =>
    match s.buffer.consumeData len with
    | (none, buffer) => { s with buffer := buffer }
    | (some _, buffer) => ⟨buffer, s.queue.consume len, s.size + (-len).toNat⟩
  | .reset => ⟨s.buffer.reset, {}, s.size⟩

end History

/--
`AppendData` is fine in a buffer of at least 200 bytes that it does not have to compact. A smaller one
never grows, and bytes move without a detour if the free space in front of them is as long as they are.
-/
structure CanAppend (b : DataBuffer) (input : List UInt8) : Prop where
  small : b.bufferSize < preReserveHeaderSize →
    b.end_ + input.length ≤ b.bufferSize + preReserveHeaderSize
  compact : b.limit < b.end_ + input.length → b.dataLen + input.length < b.limit →
    b.dataLen < b.start → b.dataLen = 0 ∨ preReserveHeaderSize + b.dataLen ≤ b.start
      ∨ b.end_ ≤ preReserveHeaderSize

/--
The restored bytes are still in the buffer: they have not been moved below the reserve.
-/
def CanRestore (b : DataBuffer) (q : ByteQueue) (len : Nat) : Prop :=
  len ≤ b.start → ∀ i < len, ∀ x, q.front[i]? = some (some x) → i + preReserveHeaderSize < b.start

def History.Can (s : History) : Call → Prop
  | .append input => input ≠ [] → s.buffer.CanAppend input
  | .consume len => s.buffer.CanRestore s.queue (-len).toNat
  | .reset => True

def History.Step (s : History) (call : Call) (s' : History) : Prop :=
  s.Can call ∧ s' = s.next call ∧ s'.size < 2 ^ 30

/--
What relates the buffer to its queue. Bytes of `front` are gone once they lie below the reserve.
-/
structure Refines (b : DataBuffer) (q : ByteQueue) (size : Nat) : Prop where
  end_eq : b.end_ = b.start + b.dataLen
  end_le : b.end_ ≤ preReserveHeaderSize + size
  dataLen_le : b.dataLen ≤ size
  length : q.data.length = b.dataLen
  data : b.buffer.Holds b.start q.data
  front : ∀ i x, q.front[i]? = some (some x) → i + preReserveHeaderSize < b.start →
    b.buffer (b.start - 1 - i) = some x
  bufferSize_lt : b.bufferSize + preReserveHeaderSize < 2 ^ 64
  bufferSize_le : b.bufferSize ≤ b.allocSize
  small : b.bufferSize < preReserveHeaderSize → b.allocSize = b.bufferSize + preReserveHeaderSize

theorem le_getNewSize (newLen : Nat) : newLen ≤ getNewSize newLen := by
  unfold getNewSize
  split_ifs
  all_goals omega

theorem getNewSize_bounds (newLen : Nat)
    : 50 * 1024 ≤ getNewSize newLen ∧ getNewSize newLen ≤ newLen + 500 * 1024 := by
  unfold getNewSize
  split_ifs
  all_goals omega

/--
The limit is below the buffer size, except that it wraps around for the smallest buffers.
-/
theorem limit_eq {b : DataBuffer} (h : b.bufferSize + preReserveHeaderSize < 2 ^ 64)
    : (preReserveHeaderSize ≤ b.bufferSize ∧ b.limit = b.bufferSize - preReserveHeaderSize)
      ∨ (b.bufferSize < preReserveHeaderSize
        ∧ b.limit = 2 ^ 64 - preReserveHeaderSize + b.bufferSize) := by
  unfold limit
  unfold preReserveHeaderSize at *
  omega

section Append

variable {b : DataBuffer} {q : ByteQueue} {size : Nat} {input : List UInt8}

/--
Both the growing and the compacting path move the data right behind the reserve.
-/
theorem Refines.holds_moveTo (h : b.Refines q size) (target : Memory UInt8)
    : (b.moveTo target input).Holds preReserveHeaderSize (q.append input).data := by
  unfold moveTo
  have hcopy := h.data.copy target preReserveHeaderSize
  rw [h.length] at hcopy
  apply Memory.Holds.append
  . apply hcopy.write _ (Nat.le_of_eq _)
    rw [h.length]
  . rw [h.length]
    apply Memory.Holds.write_self

theorem Refines.grow (h : b.Refines q size) (hsize : size + input.length < 2 ^ 30)
    : (b.grow input).1.Refines (q.append input) (size + input.length) := by
  have hbounds := getNewSize_bounds (b.dataLen + input.length + extraLen)
  have hlen := h.dataLen_le
  unfold DataBuffer.grow
  constructor
  . rfl
  . apply Nat.add_le_add_left
    omega
  . show b.dataLen + input.length ≤ size + input.length
    omega
  . simp [ByteQueue.append, h.length]
  . apply h.holds_moveTo
  . intro i x _ hi
    simp only at hi
    omega
  . simp only [extraLen, preReserveHeaderSize] at hbounds ⊢
    omega
  . apply Nat.le_refl
  . simp only [preReserveHeaderSize] at hbounds ⊢
    omega

theorem Refines.compact (h : b.Refines q size)
    : (b.compact input).1.Refines (q.append input) (size + input.length) := by
  have hlen := h.dataLen_le
  unfold DataBuffer.compact
  constructor
  . rfl
  . apply Nat.add_le_add_left
    omega
  . show b.dataLen + input.length ≤ size + input.length
    omega
  . simp [ByteQueue.append, h.length]
  . apply h.holds_moveTo
  . intro i x _ hi
    simp only at hi
    omega
  . exact h.bufferSize_lt
  . exact h.bufferSize_le
  . exact h.small

theorem Refines.extend (h : b.Refines q size)
    : (b.extend input).1.Refines (q.append input) (size + input.length) := by
  have hend := h.end_eq
  have hend' := h.end_le
  have hlen := h.dataLen_le
  unfold DataBuffer.extend
  constructor
  . simp only
    omega
  . simp only
    omega
  . simp only
    omega
  . simp [ByteQueue.append, h.length]
  . apply Memory.Holds.append
    . apply h.data.write _ (Nat.le_of_eq _)
      rw [h.length, hend]
    . rw [h.length, ← hend]
      apply Memory.Holds.write_self
  . intro i x hi hlt
    simp only at hlt ⊢
    rw [Memory.write_of_lt _ _ (by omega)]
    apply h.front _ _ hi hlt
  . exact h.bufferSize_lt
  . exact h.bufferSize_le
  . exact h.small

theorem Refines.appendData (h : b.Refines q size) (hsize : size + input.length < 2 ^ 30)
    : (b.appendData input).1.Refines (q.append input) (size + input.length) := by
  unfold DataBuffer.appendData
  split
  next hinput =>
    subst hinput
    simpa [ByteQueue.append] using h
  next =>
    split
    next =>
      split
      next => apply h.grow hsize
      next => apply h.compact
    next => apply h.extend

theorem Refines.copies (h : b.Refines q size) (hsize : size + input.length < 2 ^ 30)
    (hcan : input ≠ [] → b.CanAppend input)
    : ∀ c ∈ (b.appendData input).2, c.InBounds ∧ c.Disjoint := by
  have hend := h.end_eq
  have hend' := h.end_le
  have halloc := h.bufferSize_le
  have hsmall := h.small
  have hlimit := limit_eq h.bufferSize_lt
  have hnew := le_getNewSize (b.dataLen + input.length + extraLen)
  unfold DataBuffer.appendData
  split
  next => simp
  next hinput =>
    rcases hcan hinput with ⟨hcanSmall, hcanCompact⟩
    unfold preReserveHeaderSize at hlimit hend' hsmall hcanSmall hcanCompact
    split
    next hlt =>
      -- the limit has not wrapped around, `bufferSize` is at least 200
      split
      next =>
        unfold DataBuffer.grow
        unfold extraLen at hnew ⊢
        simp only [List.forall_mem_cons, Memory.Copy.InBounds, preReserveHeaderSize]
        refine ⟨⟨by omega, Memory.Copy.disjoint_of_none⟩, ⟨by omega, Memory.Copy.disjoint_of_none⟩, ?_⟩
        simp
      next hfits =>
        have hlast : (⟨b.allocSize, preReserveHeaderSize + b.dataLen, none, input.length⟩
            : Memory.Copy).InBounds := by
          show 200 + b.dataLen + input.length ≤ b.allocSize
          omega
        unfold DataBuffer.compact
        simp only [List.forall_mem_append, List.forall_mem_cons]
        refine ⟨?_, ⟨hlast, Memory.Copy.disjoint_of_none⟩, by simp⟩
        split
        next =>
          simp only [List.forall_mem_cons, Memory.Copy.InBounds, preReserveHeaderSize]
          refine ⟨⟨by omega, Memory.Copy.disjoint_of_none⟩,
            ⟨by omega, Memory.Copy.disjoint_of_none⟩, by simp⟩
        next hstart =>
          simp only [List.forall_mem_cons, Memory.Copy.InBounds, preReserveHeaderSize]
          refine ⟨⟨by omega, ?_⟩, by simp⟩
          intro src hsrc
          cases hsrc
          have := hcanCompact hlt (by omega) (by omega)
          simp only
          omega
    next =>
      unfold DataBuffer.extend
      simp only [List.forall_mem_cons, Memory.Copy.InBounds]
      refine ⟨⟨by omega, Memory.Copy.disjoint_of_none⟩, by simp⟩

end Append

section Consume

variable {b : DataBuffer} {q : ByteQueue} {size : Nat}

theorem Refines.take (h : b.Refines q size) {len : Nat} (hlen : len ≤ b.dataLen)
    : { b with start := b.start + len, dataLen := b.dataLen - len }.Refines (q.take len) size := by
  have hend := h.end_eq
  have hdataLen := h.dataLen_le
  have hlength := h.length
  constructor
  . simp only
    omega
  . exact h.end_le
  . simp only
    omega
  . simp [ByteQueue.take, h.length]
  . apply h.data.drop
  . intro i x hi hlt
    simp only [ByteQueue.take] at hi hlt ⊢
    by_cases hlt' : i < len
    . rw [List.getElem?_append_left (by simp; omega), List.getElem?_reverse (by simp; omega),
        List.length_take, List.getElem?_take_of_lt (by omega)] at hi
      have := h.data _ _ hi
      rwa [show b.start + (min len q.data.length - 1 - i) = b.start + len - 1 - i by omega] at this
    . rw [List.getElem?_append_right (by simp; omega), List.length_reverse, List.length_take] at hi
      have := h.front _ _ hi (by omega)
      rwa [show b.start - 1 - (i - min len q.data.length) = b.start + len - 1 - i by omega] at this
  . exact h.bufferSize_lt
  . exact h.bufferSize_le
  . exact h.small

theorem Refines.restore (h : b.Refines q size) {len : Nat} (hlen : len ≤ b.start)
    (hcan : b.CanRestore q len)
    : { b with start := b.start - len, dataLen := b.dataLen + len }.Refines (q.restore len)
        (size + len) := by
  have hend := h.end_eq
  have hend' := h.end_le
  have hdataLen := h.dataLen_le
  constructor
  . simp only
    omega
  . simp only
    omega
  . simp only
    omega
  . simp [ByteQueue.restore, h.length, Nat.add_comm]
  . intro i x hi
    simp only [ByteQueue.restore] at hi ⊢
    by_cases hlt : i < len
    . rw [List.getElem?_append_left (by simpa using hlt)] at hi
      simp only [List.getElem?_map, List.getElem?_range hlt, Option.map_some, Option.some.injEq,
        Option.join_eq_some_iff] at hi
      have := h.front _ _ hi (hcan hlen _ (by omega) _ hi)
      rwa [show b.start - 1 - (len - 1 - i) = b.start - len + i by omega] at this
    . rw [List.getElem?_append_right (by simpa using hlt), List.length_map, List.length_range] at hi
      have := h.data _ _ hi
      rwa [show b.start + (i - len) = b.start - len + i by omega] at this
  . intro i x hi hlt
    simp only [ByteQueue.restore, List.getElem?_drop] at hi hlt ⊢
    have := h.front _ _ hi (by omega)
    rwa [show b.start - 1 - (len + i) = b.start - len - 1 - i by omega] at this
  . exact h.bufferSize_lt
  . exact h.bufferSize_le
  . exact h.small

theorem consumeData_refused (len : Int) (h : (b.consumeData len).1 = none)
    : (b.consumeData len).2 = b := by
  unfold consumeData at h ⊢
  split_ifs at h ⊢
  . rfl
  . rfl

theorem Refines.consumeData (h : b.Refines q size) (len : Int) {offset : Nat}
    (hcan : b.CanRestore q (-len).toNat) (haccepted : (b.consumeData len).1 = some offset)
    : (b.consumeData len).2.Refines (q.consume len) (size + (-len).toNat) := by
  unfold DataBuffer.consumeData at haccepted ⊢
  split_ifs at haccepted ⊢ with hlong hfront
  unfold ByteQueue.consume
  split
  next hpos =>
    have htake := h.take (show len.toNat ≤ b.dataLen by omega)
    rw [show (-len).toNat = 0 by omega, Nat.add_zero,
      show (b.start + len).toNat = b.start + len.toNat by omega,
      show (b.dataLen - len).toNat = b.dataLen - len.toNat by omega]
    exact htake
  next hneg =>
    have hrestore := h.restore (show (-len).toNat ≤ b.start by omega) hcan
    rw [show (b.start + len).toNat = b.start - (-len).toNat by omega,
      show (b.dataLen - len).toNat = b.dataLen + (-len).toNat by omega]
    exact hrestore

end Consume

theorem Refines.reset {b : DataBuffer} {q : ByteQueue} {size : Nat} (h : b.Refines q size)
    : b.reset.Refines {} size := by
  unfold DataBuffer.reset
  constructor
  . rfl
  . apply Nat.le_add_right
  . apply Nat.zero_le
  . rfl
  . intro i x hi
    simp at hi
  . intro i x hi
    simp at hi
  . exact h.bufferSize_lt
  . exact h.bufferSize_le
  . exact h.small

theorem Refines.new {dataSize : Nat} (h : dataSize + preReserveHeaderSize < 2 ^ 64)
    : (new dataSize).Refines {} 0 := by
  unfold DataBuffer.new
  constructor
  . rfl
  . apply Nat.le_refl
  . apply Nat.le_refl
  . rfl
  . intro i x hi
    simp at hi
  . intro i x hi
    simp at hi
  . exact h
  . apply Nat.le_add_right
  . intro _
    rfl

def History.Inv (s : History) : Prop := s.buffer.Refines s.queue s.size

theorem History.inv_step (s : History) (call : Call) (s' : History) (h : s.Inv)
    (hstep : s.Step call s')
    : s'.Inv := by
  rcases hstep with ⟨hcan, rfl, hsize⟩
  unfold History.Inv at h ⊢
  cases call with
  | append input => apply h.appendData hsize
  | consume len =>
    unfold History.next
    rcases hres : s.buffer.consumeData len with ⟨accepted, buffer⟩
    simp only [hres]
    cases accepted with
    | none =>
      have := consumeData_refused len (congrArg Prod.fst hres)
      rw [hres] at this
      simp only at this
      rwa [this]
    | some offset =>
      have := h.consumeData len hcan (congrArg Prod.fst hres)
      rwa [hres] at this
  | reset => exact h.reset

/--
In every run of calls that the buffer is up to, the data are the bytes of the queue, `AppendData` writes
within its allocation and copies without overlap, and a refused `ConsumeData` changes nothing.
-/
theorem refines_byteQueue (dataSize : Nat) (hdataSize : dataSize + preReserveHeaderSize < 2 ^ 64)
    (calls : List Call) (s : History)
    (hrun : Interleave.Run History.Step (.start dataSize) calls s)
    : s.buffer.data.length = s.queue.data.length
      ∧ (∀ (i : Nat) (x : UInt8), s.queue.data[i]? = some (some x) → s.buffer.data[i]? = some (some x))
      ∧ (∀ input, s.Can (.append input) → s.size + input.length < 2 ^ 30 →
          ∀ c ∈ (s.buffer.appendData input).2, c.InBounds ∧ c.Disjoint)
      ∧ (∀ len, (s.buffer.consumeData len).1 = none → (s.buffer.consumeData len).2 = s.buffer) := by
  have hinv : s.buffer.Refines s.queue s.size :=
    hrun.invariant History.inv_step (Refines.new hdataSize)
  refine ⟨?_, ?_, ?_, ?_⟩
  . rw [data, Memory.length_read, hinv.length]
  . intro i x hi
    have hlt : i < s.buffer.dataLen := by
      rw [← hinv.length]
      exact (List.getElem?_eq_some_iff.mp hi).1
    rw [data, Memory.getElem?_read _ _ hlt, hinv.data _ _ hi]
  . intro input hcan hsize
    apply hinv.copies hsize hcan
  . intro len
    apply consumeData_refused len

def sampleCalls : List Call := [.append [1, 2, 3], .consume 2, .consume (-1), .append [4]]

theorem refines_byteQueue_sample
    : ∃ s, Interleave.Run History.Step (.start 1000) sampleCalls s
      ∧ s.buffer.data.length = 3 ∧ s.buffer.data[1]? = some (some 3)
      ∧ ∀ c ∈ (s.buffer.appendData [5]).2, c.InBounds ∧ c.Disjoint := by
  have hcan (b : DataBuffer) (h : b.bufferSize = 1000) (hend : b.end_ ≤ 300) (input : List UInt8)
      (hinput : input.length ≤ 100) : b.CanAppend input := by
    constructor
    all_goals
      intro hlt
      unfold limit at *
      unfold preReserveHeaderSize at *
      omega
  have hrun : Interleave.Run History.Step (.start 1000) sampleCalls
      (sampleCalls.foldl History.next (.start 1000)) := by
    refine .cons ⟨fun _ => ?_, rfl, by decide⟩ (.cons ⟨?_, rfl, by decide⟩
      (.cons ⟨?_, rfl, by decide⟩ (.cons ⟨fun _ => ?_, rfl, by decide⟩ (.nil _))))
    . apply hcan <;> decide
    . intro _ i hi
      cases hi
    . intro _ i hi x _
      have : i = 0 := by simpa using hi
      rw [this]
      decide
    . apply hcan <;> decide
  have hall := refines_byteQueue 1000 (by decide) _ _ hrun
  refine ⟨_, hrun, hall.1, hall.2.1 1 3 rfl, hall.2.2.1 [5] (fun _ => ?_) (by decide)⟩
  apply hcan <;> decide

/--
A small buffer is overrun, data at the reserve are copied onto themselves, and bytes that were taken do
not come back after the data have been moved.
-/
theorem refines_byteQueue_fails
    : (¬∀ c ∈ ((new 0).appendData [1]).2, c.InBounds)
      ∧ (¬∀ c ∈ (((new 400).appendData [1]).1.appendData [2]).2, c.Disjoint)
      ∧ (([.append [7], .consume 1, .append [8], .consume (-1)] : List Call).foldl History.next
          (.start 400)).queue.data = [some 7, some 8]
      ∧ (([.append [7], .consume 1, .append [8], .consume (-1)] : List Call).foldl History.next
          (.start 400)).buffer.data = [some 0, some 8] := by
  refine ⟨?_, ?_, by decide, by decide⟩
  . intro h
    have := h ⟨200, 200, none, 1⟩ (by decide)
    revert this
    unfold Memory.Copy.InBounds
    decide
  . intro h
    have := h ⟨600, 200, some 200, 1⟩ (by decide) 200 rfl
    revert this
    decide

end DataBuffer
