import CppStreamer.Net.RtpRtcp.RtpPacket
import CppStreamer.Utils.ByteStream
import Mathlib.Logic.Function.Basic

/-!
This module contains RTP packets in memory: how the bytes of a packet are parsed, and the buffers that
packets are cloned to.
-/

open ByteStream

def rtpPacketMaxSize : Nat := 1500

/--
Where the payload is in the bytes of a packet.
-/
structure RtpLayout where
  payload : Nat
  payloadLen : Nat
  padLen : Nat
  deriving DecidableEq, Repr

namespace RtpLayout

def sizeofRtpCommonHeader : Nat := 12

def csrcCount (data : List UInt8) : Nat := (data.getD 0 0 &&& 0x0f).toNat

def hasExtension (data : List UInt8) : Bool := data.getD 0 0 &&& 0x10 ≠ 0

def hasPadding (data : List UInt8) : Bool := data.getD 0 0 &&& 0x20 ≠ 0

def extensionPos (data : List UInt8) : Nat := sizeofRtpCommonHeader + 4 * csrcCount data

/--
The end of the header with its extension, `none` if the extension goes beyond the data.
-/
def headerEnd (data : List UInt8) : Option Nat :=
  let pos := extensionPos data
  if hasExtension data then
    if data.length < pos + 4 then none
    else
      let extensionByte := read2Bytes (data.drop (pos + 2)) * 4
      if data.length < pos + 4 + extensionByte then none else some (pos + 4 + extensionByte)
  else
    some pos

/--
Whether the elements of one byte headers stay in the extension.
-/
def onebyteExtFits : List UInt8 → Bool
  | [] => true
  | first :: rest =>
    let id := first >>> 4
    let len := (first &&& 0x0f).toNat + 1
    if id = 0x0f then true
    else if id ≠ 0 then
      if rest.length < len then false else onebyteExtFits ((rest.drop len).dropWhile (· = 0))
    else onebyteExtFits (rest.dropWhile (· = 0))
termination_by ext => ext.length
decreasing_by
  . have := (List.dropWhile_sublist (l := rest.drop ((first &&& 0x0f).toNat + 1)) (· = 0)).length_le
    simp only [List.length_drop, List.length_cons] at *
    omega
  . have := (List.dropWhile_sublist (l := rest) (· = 0)).length_le
    simp only [List.length_cons]
    omega

def twobytesExtFits : List UInt8 → Bool
  | id :: len :: rest =>
    if id ≠ 0 then
      if rest.length < len.toNat then false
      else twobytesExtFits ((rest.drop len.toNat).dropWhile (· = 0))
    else twobytesExtFits ((len :: rest).dropWhile (· = 0))
  | _ => true
termination_by ext => ext.length
decreasing_by
  . have := (List.dropWhile_sublist (l := rest.drop len.toNat) (· = 0)).length_le
    simp only [List.length_drop, List.length_cons] at *
    omega
  . have := (List.dropWhile_sublist (l := len :: rest) (· = 0)).length_le
    simp only [List.length_cons] at *
    omega

/--
Whether `ParseExt` returns without an exception.
-/
def parseExt (data : List UInt8) : Bool :=
  let pos := extensionPos data
  let id := read2Bytes (data.drop pos)
  let value := (data.drop (pos + 4)).take (read2Bytes (data.drop (pos + 2)) * 4)
  if hasExtension data then
    if id = 0xbede then onebyteExtFits value
    else if id / 16 = 0x100 then twobytesExtFits value
    else false
  else
    true

/--
The bytes of padding, `none` if these leave no payload.
-/
def parsePadding (data : List UInt8) (payloadLen : Nat) : Option Nat :=
  if hasPadding data then
    let padLen := (data.getLastD 0).toNat
    if 0 < padLen ∧ payloadLen ≤ padLen then none else some padLen
  else
    some 0

/--
`RtpPacket::Parse`, `none` for an exception.
-/
def parse (data : List UInt8) : Option RtpLayout :=
  if rtpPacketMaxSize < data.length then none
  else
    match headerEnd data with
    | none => none
    | some payload =>
      if data.length ≤ payload then none
      else
        match parsePadding data (data.length - payload) with
        | none => none
        | some padLen =>
          if parseExt data then
            some { payload := payload, payloadLen := data.length - payload - padLen, padLen := padLen }
          else
            none

end RtpLayout

namespace RtpPacket

/--
What the getters read of the bytes of a packet.
-/
def ofData (data : List UInt8) (layout : RtpLayout) (localMs : Int) : RtpPacket where
  marker := data.getD 1 0 &&& 0x80 ≠ 0
  payloadType := data.getD 1 0 &&& 0x7f
  seq := UInt16.ofNat (read2Bytes (data.drop 2))
  timestamp := UInt32.ofNat (read4Bytes (data.drop 4))
  ssrc := UInt32.ofNat (read4Bytes (data.drop 8))
  payload := (data.drop layout.payload).take layout.payloadLen
  localMs := localMs

def parse (data : List UInt8) (now : Int) : Option RtpPacket :=
  (RtpLayout.parse data).map fun layout => ofData data layout now

/--
A packet of `MakeRtpPacket` without an extension.
-/
def bytes (pkt : RtpPacket) : List UInt8 :=
  0x80 :: ((if pkt.marker then 0x80 else 0) ||| (pkt.payloadType &&& 0x7f))
    :: (write2Bytes pkt.seq.toNat ++ write4Bytes pkt.timestamp.toNat ++ write4Bytes pkt.ssrc.toNat
      ++ pkt.payload)

@[simp]
theorem length_bytes (pkt : RtpPacket) : pkt.bytes.length = 12 + pkt.payload.length := by
  simp [bytes]
  omega

theorem parse_bytes (pkt : RtpPacket) (hpos : 0 < pkt.payload.length)
    (hlen : pkt.bytes.length ≤ rtpPacketMaxSize)
    : RtpLayout.parse pkt.bytes = some ⟨12, pkt.payload.length, 0⟩ := by
  have hfirst : pkt.bytes.getD 0 0 = 0x80 := rfl
  have hextension : RtpLayout.hasExtension pkt.bytes = false := by
    unfold RtpLayout.hasExtension
    rw [hfirst]
    decide
  have hheader : RtpLayout.headerEnd pkt.bytes = some 12 := by
    unfold RtpLayout.headerEnd RtpLayout.extensionPos RtpLayout.csrcCount
    rw [hextension, hfirst]
    rfl
  have hpadding (n : Nat) : RtpLayout.parsePadding pkt.bytes n = some 0 := by
    unfold RtpLayout.parsePadding RtpLayout.hasPadding
    rw [hfirst]
    rfl
  have hext : RtpLayout.parseExt pkt.bytes = true := by
    unfold RtpLayout.parseExt
    rw [hextension]
    rfl
  unfold RtpLayout.parse
  rw [if_neg (by omega), hheader]
  simp only [hpadding, hext]
  rw [if_neg (by rw [length_bytes]; omega), length_bytes]
  simp only [if_true, Nat.add_sub_cancel_left, Nat.sub_zero]

end RtpPacket

/--
A slot of a pool, or what the `number`-th `new` has returned.
-/
inductive BufferId where
  | pool (index : Nat)
  | heap (number : Nat)
  deriving DecidableEq, Repr

/--
A packet object: the pointers into its buffer are offsets.
-/
structure RtpPacketRef extends RtpLayout where
  buffer : BufferId
  dataLen : Nat
  localMs : Int
  deriving DecidableEq, Repr

/--
The bytes of the buffers, any bytes are in a buffer before it is written to.
-/
structure RtpMemory where
  data : BufferId → List UInt8
  allocated : Nat := 0

namespace RtpMemory

def getData (m : RtpMemory) (p : RtpPacketRef) : List UInt8 := (m.data p.buffer).take p.dataLen

def load (m : RtpMemory) (p : RtpPacketRef) : RtpPacket :=
  .ofData (m.getData p) p.toRtpLayout p.localMs

def memcpy (m : RtpMemory) (buffer : BufferId) (data : List UInt8) : RtpMemory :=
  { m with
    data := Function.update m.data buffer (data ++ (m.data buffer).drop data.length) }

/--
`Clone` of a packet with these bytes. The assertion and an exception of `Parse` end it with `none`.
-/
def clone (m : RtpMemory) (data : List UInt8) (buffer : Option BufferId) (now : Int)
    : RtpMemory × Option RtpPacketRef :=
  let (m, newData) := match buffer with
    | some buffer => (m, buffer)
    | none => ({ m with allocated := m.allocated + 1 }, .heap m.allocated)
  if data.length < rtpPacketMaxSize then
    (m.memcpy newData data, (RtpLayout.parse data).map fun layout =>
      { layout with buffer := newData, dataLen := data.length, localMs := now })
  else
    (m, none)

@[simp]
theorem allocated_memcpy (m : RtpMemory) (buffer : BufferId) (data : List UInt8)
    : (m.memcpy buffer data).allocated = m.allocated := rfl

@[simp]
theorem data_memcpy_self (m : RtpMemory) (buffer : BufferId) (data : List UInt8)
    : (m.memcpy buffer data).data buffer = data ++ (m.data buffer).drop data.length := by
  simp [memcpy]

theorem data_memcpy_of_ne {m : RtpMemory} {buffer buffer' : BufferId} (hne : buffer' ≠ buffer)
    (data : List UInt8) : (m.memcpy buffer data).data buffer' = m.data buffer' := by
  simp [memcpy, hne]

theorem load_congr {m m' : RtpMemory} {p : RtpPacketRef} (hdata : m'.data p.buffer = m.data p.buffer)
    : m'.load p = m.load p := by
  unfold load getData
  rw [hdata]

/--
A packet in a buffer has these bytes, and what `Parse` finds in them.
-/
structure Stores (m : RtpMemory) (p : RtpPacketRef) (data : List UInt8) : Prop where
  getData : m.getData p = data
  parse : RtpLayout.parse data = some p.toRtpLayout

theorem clone_stores {m m' : RtpMemory} {data : List UInt8} {buffer : Option BufferId} {now : Int}
    {p : RtpPacketRef} (hclone : m.clone data buffer now = (m', some p))
    : m'.Stores p data ∧ p.buffer = buffer.getD (.heap m.allocated) ∧ p.localMs = now := by
  unfold clone at hclone
  cases buffer with
  | some buffer =>
    simp only at hclone
    split at hclone
    next =>
      rw [Prod.mk.injEq, Option.map_eq_some_iff] at hclone
      rcases hclone with ⟨rfl, layout, hparse, rfl⟩
      exact ⟨⟨by simp [RtpMemory.getData], hparse⟩, rfl, rfl⟩
    next => cases hclone
  | none =>
    simp only at hclone
    split at hclone
    next =>
      rw [Prod.mk.injEq, Option.map_eq_some_iff] at hclone
      rcases hclone with ⟨rfl, layout, hparse, rfl⟩
      exact ⟨⟨by simp [RtpMemory.getData], hparse⟩, rfl, rfl⟩
    next => cases hclone

variable {m m' : RtpMemory} {data : List UInt8} {layout : RtpLayout}

theorem clone_pool (hlen : data.length < rtpPacketMaxSize) (hparse : RtpLayout.parse data = some layout)
    (buffer : BufferId) (now : Int)
    : m.clone data (some buffer) now = (m.memcpy buffer data,
        some { layout with buffer := buffer, dataLen := data.length, localMs := now }) := by
  unfold clone
  simp only
  rw [if_pos hlen, hparse]
  rfl

theorem clone_heap (hlen : data.length < rtpPacketMaxSize) (hparse : RtpLayout.parse data = some layout)
    (now : Int)
    : m.clone data none now
      = ({ m with allocated := m.allocated + 1 }.memcpy (.heap m.allocated) data,
        some { layout with buffer := .heap m.allocated, dataLen := data.length, localMs := now }) := by
  unfold clone
  simp only
  rw [if_pos hlen, hparse]
  rfl

/--
Nothing in the buffers allocated before has changed.
-/
structure Extends (m m' : RtpMemory) : Prop where
  allocated : m.allocated ≤ m'.allocated
  data : ∀ n < m.allocated, m'.data (.heap n) = m.data (.heap n)

theorem Extends.refl (m : RtpMemory) : m.Extends m := ⟨Nat.le_refl _, fun _ _ => rfl⟩

theorem extends_memcpy_pool (m : RtpMemory) (index : Nat) (data : List UInt8)
    : m.Extends (m.memcpy (.pool index) data) := by
  refine ⟨Nat.le_refl _, ?_⟩
  intro n _
  apply data_memcpy_of_ne
  simp

theorem extends_memcpy_heap (m : RtpMemory) (data : List UInt8)
    : m.Extends ({ m with allocated := m.allocated + 1 }.memcpy (.heap m.allocated) data) := by
  refine ⟨Nat.le_succ _, ?_⟩
  intro n hn
  apply data_memcpy_of_ne
  simp
  omega

theorem Extends.trans {m'' : RtpMemory} (h : m.Extends m') (h' : m'.Extends m'') : m.Extends m'' := by
  refine ⟨Nat.le_trans h.allocated h'.allocated, ?_⟩
  intro n hn
  rw [h'.data n (Nat.lt_of_lt_of_le hn h.allocated), h.data n hn]

theorem Extends.stores (h : m.Extends m') {p : RtpPacketRef} {n : Nat}
    (hbuffer : p.buffer = .heap n) (hn : n < m.allocated) (hstores : m.Stores p data)
    : m'.Stores p data := by
  refine ⟨?_, hstores.parse⟩
  have hget := hstores.getData
  unfold RtpMemory.getData at hget ⊢
  rwa [hbuffer, h.data n hn, ← hbuffer]

end RtpMemory
