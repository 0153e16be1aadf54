import CppStreamer.Net.Rtmp.ChunkHeader
import CppStreamer.Net.Rtmp.ClientLossless

/-!
This module contains the messages of a peer on several chunk streams, with headers of all formats, and
the conditions under which a client session hands them on with their own bytes.
-/

namespace Rtmp

open ByteStream Incremental

/--
A chunk of a message on a chunk stream, cut at `offset` with the chunk size `size`.
-/
structure SpecChunk where
  csid : Nat
  msg : SpecMessage
  offset : Nat
  size : Nat

namespace SpecChunk

def fmt (c : SpecChunk) : Nat := if c.offset = 0 then c.msg.fmt else 3

def data (c : SpecChunk) : List UInt8 := c.msg.piece c.offset c.size

/--
The chunk behind its basic header.
-/
def body (c : SpecChunk) : List UInt8 :=
  (if c.offset = 0 then c.msg.header else []) ++ (c.msg.extTs ++ c.data)

def bytes (c : SpecChunk) : List UInt8 := UInt8.ofNat (c.fmt * 64 + c.csid) :: c.body

def last (c : SpecChunk) : Bool := decide (c.msg.payload.length ≤ c.offset + c.size)

/--
Chunk stream, length, type and bytes of the message.
-/
def message (c : SpecChunk) : Nat × Nat × UInt8 × List UInt8 :=
  (c.csid, c.msg.payload.length, c.msg.typeId, c.msg.payload)

end SpecChunk

namespace ChunkStream

def message (cs : ChunkStream) : Nat × Nat × UInt8 × List UInt8 :=
  (cs.csid, cs.msgLen, cs.typeId, cs.chunkData)

/--
The types for which `ReceiveRespMessage` resets the chunk stream.
-/
def isSupported (cs : ChunkStream) : Bool :=
  RtmpSessionBase.isControlMessage cs || decide (cs.typeId = rtmpCommandMessagesAmf0)
    || isMediaMessage cs

/--
What is on a chunk stream when a chunk has been read and the message handled that it completed.
-/
def follow (cs : ChunkStream) (c : SpecChunk) : ChunkStream :=
  let cs := ({ cs with chunkSize := c.size }.readChunk c.fmt c.csid c.body).2.1
  if cs.isReady && cs.isSupported then cs.reset else cs

/--
Whether `ReadMsgFormat3` takes an extended timestamp off the chunk.
-/
def takesExtTs (cs : ChunkStream) (body : List UInt8) : Bool :=
  if cs.remain = 0 then cs.extTsFlag && decide (cs.fmt ≤ 2)
  else cs.extTsFlag && decide (read4Bytes body = cs.timestamp32)

/--
A message header arrives on a chunk stream that was reset behind the message before, or that message was
empty and the next one is complete with its first chunk. A chunk without a message header has an extended
timestamp if and only if one is taken off it, and once there was one, the four bytes that are looked at
belong to the chunk.
-/
def Understands (cs : ChunkStream) (c : SpecChunk) : Prop :=
  if c.fmt = 3 then
    cs.takesExtTs c.body = c.msg.isExt
      ∧ (cs.extTsFlag = true → cs.remain ≠ 0 → extTsLen ≤ c.body.length)
  else
    cs.chunkReady = true → cs.chunkData = [] ∧ c.last = true

end ChunkStream

/--
The messages that may come next. The first one has a header of format 0, a header only leaves out what
is in force already, and one of format 3 repeats the header before.
-/
structure Timeline.Admits (σ : Timeline) (m : SpecMessage) : Prop where
  fmt_le : m.fmt ≤ 3
  field_lt : m.field < 2 ^ 32
  length_lt : m.payload.length < 2 ^ 24
  explicit : m.fmt ≠ 0 → σ.explicitFmt ≠ none
  length : 2 ≤ m.fmt → m.payload.length = σ.msgLen
  typeId : 2 ≤ m.fmt → m.typeId = σ.typeId
  repeated : m.fmt = 3 → m.field = σ.field

/--
A chunk stream from both ends: what the messages have put in force, the message of which some bytes have
been sent, and what the reader has.
-/
structure Link where
  timeline : Timeline
  progress : Option (SpecMessage × Nat)
  reader : ChunkStream

namespace Link

def start (csid : Nat) : Link := ⟨{}, none, ChunkStream.new 0 csid chunkDefSize⟩

/--
The chunk is the next one of the chunk stream.
-/
def Allows (l : Link) (c : SpecChunk) : Prop :=
  match l.progress with
  | none => c.offset = 0 ∧ l.timeline.Admits c.msg
  | some (m, n) => c.msg = m ∧ c.offset = n

def next (l : Link) (c : SpecChunk) : Link where
  timeline := if c.offset = 0 then l.timeline.next c.msg else l.timeline
  progress := if c.last then none else some (c.msg, c.offset + c.size)
  reader := l.reader.follow c

/--
The reader is where the sender is.
-/
structure Agrees (l : Link) : Prop where
  phase : l.reader.phase = .header
  idle : l.progress = none →
    l.reader.remain = 0 ∧ (l.reader.chunkReady = false → l.reader.chunkData = [])
  inForce : l.timeline.explicitFmt ≠ none →
    l.reader.msgLen = l.timeline.msgLen ∧ l.reader.typeId = l.timeline.typeId
  busy : ∀ m n, l.progress = some (m, n) → 0 < n ∧ n < m.payload.length
    ∧ l.reader.chunkReady = false ∧ l.reader.remain = m.payload.length - n
    ∧ l.reader.chunkData = m.payload.take n ∧ l.reader.msgLen = m.payload.length
    ∧ l.reader.typeId = m.typeId

theorem agrees_start (csid : Nat) : (start csid).Agrees where
  phase := rfl
  idle := fun _ => ⟨rfl, fun _ => rfl⟩
  inForce := fun h => absurd rfl h
  busy := fun _ _ h => nomatch h

end Link

/--
The chunk stream between the header and the payload of a chunk.
-/
structure ChunkStream.Opened (cs : ChunkStream) (c : SpecChunk) : Prop where
  phase : cs.phase = .payload
  chunkReady : cs.chunkReady = true → c.last = true
  remain : cs.remain = c.msg.payload.length - c.offset
  chunkData : cs.chunkData = c.msg.payload.take c.offset
  msgLen : cs.msgLen = c.msg.payload.length
  typeId : cs.typeId = c.msg.typeId
  csid : cs.csid = c.csid
  chunkSize : cs.chunkSize = c.size

namespace ChunkStream

theorem readMsgByFormat_header (cs : ChunkStream) {σ : Timeline} {m : SpecMessage} (hm : σ.Admits m)
    (hfmt : m.fmt ≠ 3) (hdata : cs.chunkData = [])
    (hready : cs.chunkReady = true → SpecChunk.last ⟨0, m, 0, cs.chunkSize⟩ = true)
    (hforce : σ.explicitFmt ≠ none → cs.msgLen = σ.msgLen ∧ cs.typeId = σ.typeId) (csid : Nat)
    (body : List UInt8)
    : ∃ cs', cs.readMsgByFormat m.fmt csid (m.header ++ (m.extTs ++ body)) = (.ok, cs', body)
      ∧ { cs' with phase := .payload }.Opened ⟨csid, m, 0, cs.chunkSize⟩ := by
  have hlen (rest : List UInt8) : read3Bytes (write3Bytes m.payload.length ++ rest) = m.payload.length := by
    rw [read3Bytes_write3Bytes, Nat.mod_eq_of_lt hm.length_lt]
  have hle := hm.fmt_le
  have hcases : m.fmt = 0 ∨ m.fmt = 1 ∨ m.fmt = 2 := by omega
  unfold readMsgByFormat SpecMessage.header
  rcases hcases with hfmt | hfmt | hfmt
  . simp only [hfmt]
    refine ⟨_, readMsgFormat_field _ body rfl hm.field_lt, ?_⟩
    have hlen := hlen (m.typeId :: write4Bytes m.msgStreamId)
    exact ⟨rfl, hready, hlen, hdata, hlen, rfl, rfl, rfl⟩
  . simp only [hfmt]
    refine ⟨_, readMsgFormat_field _ body rfl hm.field_lt, ?_⟩
    have hlen := hlen [m.typeId]
    exact ⟨rfl, hready, hlen, hdata, hlen, rfl, rfl, rfl⟩
  . simp only [hfmt]
    rw [← List.append_nil (write3Bytes m.ts24)]
    have hforce := hforce (hm.explicit (by omega))
    have hlength := hforce.1.trans (hm.length (by omega)).symm
    have htype := hforce.2.trans (hm.typeId (by omega)).symm
    refine ⟨_, readMsgFormat_field _ body rfl hm.field_lt, ?_⟩
    exact ⟨rfl, hready, hlength, hdata, hlength, htype, rfl, rfl⟩

theorem readMessageHeader_of_readMsgByFormat {cs cs' : ChunkStream} {fmt csid : Nat}
    {buffer rest : List UInt8} (hphase : cs.phase = .header)
    (hread : cs.readMsgByFormat fmt csid buffer = (.ok, cs', rest))
    : cs.readMessageHeader fmt csid buffer = (.ok, { cs' with phase := .payload }, rest) := by
  unfold readMessageHeader
  rw [hphase, hread]

theorem readMsgFormat3_start (cs : ChunkStream) {m : SpecMessage} (hremain : cs.remain = 0)
    (hlen : cs.msgLen = m.payload.length) (htype : cs.typeId = m.typeId) (csid : Nat)
    (body : List UInt8) (hext : (cs.extTsFlag && decide (cs.fmt ≤ 2)) = m.isExt)
    : ∃ cs', cs.readMsgFormat3 3 csid (m.extTs ++ body) = (.ok, cs', body)
      ∧ { cs' with phase := .payload }.Opened ⟨csid, m, 0, cs.chunkSize⟩ := by
  unfold readMsgFormat3 SpecMessage.extTs
  rw [if_pos hremain]
  cases hisExt : m.isExt with
  | true =>
    rw [hisExt, Bool.and_eq_true, decide_eq_true_eq] at hext
    have hlong : ¬ (write4Bytes m.field ++ body).length < extTsLen := by
      rw [List.length_append, length_write4Bytes]
      unfold extTsLen
      omega
    rw [if_pos hext, if_pos rfl, if_neg hlong]
    exact ⟨_, rfl, rfl, (nomatch ·), hlen, rfl, hlen, htype, rfl, rfl⟩
  | false =>
    have hnot : ¬ (cs.extTsFlag = true ∧ cs.fmt ≤ 2) := by
      rintro ⟨hflag, hfmt⟩
      rw [hflag, decide_eq_true hfmt, hisExt] at hext
      cases hext
    rw [if_neg hnot, if_neg Bool.false_ne_true, List.nil_append]
    split
    . exact ⟨_, rfl, rfl, (nomatch ·), hlen, rfl, hlen, htype, rfl, rfl⟩
    . exact ⟨_, rfl, rfl, (nomatch ·), hlen, rfl, hlen, htype, rfl, rfl⟩

theorem readMsgFormat3_continue (cs : ChunkStream) {m : SpecMessage} (hremain : cs.remain ≠ 0)
    (csid : Nat) (body : List UInt8)
    (hext : (cs.extTsFlag && decide (read4Bytes (m.extTs ++ body) = cs.timestamp32)) = m.isExt)
    (hlong : cs.extTsFlag = true → extTsLen ≤ (m.extTs ++ body).length)
    : cs.readMsgFormat3 3 csid (m.extTs ++ body) = (.ok, { cs with fmt := 3, csid := csid }, body) := by
  unfold readMsgFormat3
  rw [if_neg hremain]
  cases hflag : cs.extTsFlag with
  | false =>
    rw [hflag, Bool.false_and] at hext
    unfold SpecMessage.extTs
    rw [← hext]
    rfl
  | true =>
    rw [hflag, Bool.true_and] at hext
    rw [if_pos rfl, if_neg (Nat.not_lt.mpr (hlong hflag))]
    cases hisExt : m.isExt with
    | true =>
      rw [hisExt, decide_eq_true_eq] at hext
      rw [if_pos hext]
      unfold SpecMessage.extTs
      rw [hisExt]
      rfl
    | false =>
      rw [hisExt, decide_eq_false_iff_not] at hext
      rw [if_neg hext]
      unfold SpecMessage.extTs
      rw [hisExt]
      rfl

end ChunkStream

namespace ChunkStream

/--
The chunk stream behind a chunk.
-/
structure Holds (cs : ChunkStream) (c : SpecChunk) : Prop where
  phase : cs.phase = .header
  chunkReady : cs.chunkReady = c.last
  remain : cs.remain = c.msg.payload.length - (c.offset + c.size)
  chunkData : cs.chunkData = c.msg.payload.take (c.offset + c.size)
  msgLen : cs.msgLen = c.msg.payload.length
  typeId : cs.typeId = c.msg.typeId
  csid : cs.csid = c.csid

theorem Holds.message {cs : ChunkStream} {c : SpecChunk} (h : cs.Holds c) (hlast : c.last = true)
    : cs.message = c.message := by
  have hlen := of_decide_eq_true hlast
  unfold ChunkStream.message SpecChunk.message
  rw [h.csid, h.msgLen, h.typeId, h.chunkData, List.take_of_length_le hlen]

theorem Opened.readMessagePayload {cs : ChunkStream} {c : SpecChunk} (h : cs.Opened c)
    : ∃ cs', cs.readMessagePayload c.data = (.ok, cs', []) ∧ cs'.Holds c := by
  have hdata : c.data.length = min c.size (c.msg.payload.length - c.offset) := by
    unfold SpecChunk.data SpecMessage.piece
    rw [List.length_take, List.length_drop]
  have hremain := h.remain
  have hlen : c.data.length = cs.requireLen := by
    unfold requireLen
    rw [hdata, h.chunkSize, hremain]
    split
    . omega
    . omega
  have hread := readMessagePayload_eq [] h.phase hlen
  rw [List.append_nil] at hread
  refine ⟨_, hread, ?_⟩
  constructor
  . rfl
  . have hlast : decide (cs.remain - c.data.length = 0) = c.last := by
      unfold SpecChunk.last
      rw [decide_eq_decide]
      omega
    simp only [hlast]
    cases hready : cs.chunkReady with
    | false => rfl
    | true => exact (h.chunkReady hready).symm
  . simp only
    omega
  . simp only [h.chunkData, SpecChunk.data, SpecMessage.piece, List.take_add]
  . exact h.msgLen
  . exact h.typeId
  . exact h.csid

end ChunkStream

namespace Link

open ChunkStream

variable {l : Link} {c : SpecChunk}

theorem Agrees.readMessageHeader (h : l.Agrees) (hc : l.Allows c) (hu : l.reader.Understands c)
    : ∃ cs, { l.reader with chunkSize := c.size }.readMessageHeader c.fmt c.csid c.body
        = (.ok, cs, c.data)
      ∧ cs.Opened c := by
  suffices hread : ∃ cs, { l.reader with chunkSize := c.size }.readMsgByFormat c.fmt c.csid c.body
      = (.ok, cs, c.data) ∧ { cs with phase := .payload }.Opened c by
    rcases hread with ⟨cs, hread, hopened⟩
    exact ⟨_, readMessageHeader_of_readMsgByFormat h.phase hread, hopened⟩
  rcases c with ⟨csid, m, offset, size⟩
  unfold Allows at hc
  unfold Understands at hu
  unfold SpecChunk.body SpecChunk.data at hu ⊢
  split at hc
  . next hprogress =>
    -- the first chunk of a message
    rcases hc with ⟨hoffset, hm⟩
    simp only at hoffset hm
    subst hoffset
    have hfmt : SpecChunk.fmt ⟨csid, m, 0, size⟩ = m.fmt := rfl
    have hidle := h.idle hprogress
    simp only [if_true, hfmt] at hu ⊢
    by_cases h3 : m.fmt = 3
    . have hheader : m.header = [] := by
        simp [SpecMessage.header, h3]
      rw [if_pos h3, hheader, List.nil_append] at hu
      have hforce := h.inForce (hm.explicit (by omega))
      have hext := hu.1
      unfold takesExtTs at hext
      rw [if_pos hidle.1] at hext
      rw [h3, hheader, List.nil_append]
      exact readMsgFormat3_start { l.reader with chunkSize := size } hidle.1
        (hforce.1.trans (hm.length (by omega)).symm) (hforce.2.trans (hm.typeId (by omega)).symm) csid _ hext
    . rw [if_neg h3] at hu
      have hdata : l.reader.chunkData = [] := by
        cases hready : l.reader.chunkReady with
        | false => exact hidle.2 hready
        | true => exact (hu hready).1
      exact readMsgByFormat_header { l.reader with chunkSize := size } hm h3 hdata
        (fun hready => (hu hready).2) h.inForce csid _
  . next m' n hprogress =>
    -- a chunk that goes on with a message
    rcases hc with ⟨hmsg, hoffset⟩
    simp only at hmsg hoffset
    subst hmsg hoffset
    rcases h.busy _ _ hprogress with ⟨hpos, hlt, hready, hremain, hdata, hlen, htype⟩
    have hne : offset ≠ 0 := by omega
    have hfmt : SpecChunk.fmt ⟨csid, m, offset, size⟩ = 3 := if_neg hne
    have hremain' : l.reader.remain ≠ 0 := by omega
    simp only [if_neg hne, hfmt, if_true, List.nil_append] at hu ⊢
    have hext := hu.1
    unfold takesExtTs at hext
    rw [if_neg hremain'] at hext
    have hread : { l.reader with chunkSize := size }.readMsgFormat3 3 csid (m.extTs ++ m.piece offset size)
        = _ := readMsgFormat3_continue { l.reader with chunkSize := size } hremain' csid _ hext (fun hflag => hu.2 hflag hremain')
    refine ⟨_, hread, ?_⟩
    exact ⟨rfl, fun htrue => absurd (hready.symm.trans htrue) (by simp), hremain, hdata, hlen, htype,
      rfl, rfl⟩

theorem Agrees.readChunk (h : l.Agrees) (hc : l.Allows c) (hu : l.reader.Understands c)
    : ∃ cs, { l.reader with chunkSize := c.size }.readChunk c.fmt c.csid c.body = (.ok, cs, [])
      ∧ cs.Holds c := by
  rcases h.readMessageHeader hc hu with ⟨cs, hheader, hopened⟩
  rcases hopened.readMessagePayload with ⟨cs', hpayload, hholds⟩
  unfold ChunkStream.readChunk
  simp only [hheader]
  exact ⟨cs', hpayload, hholds⟩

theorem Allows.fmt_start {csid : Nat} (h : (Link.start csid).Allows c) : c.fmt = 0 := by
  have hadmits := h.2
  unfold SpecChunk.fmt
  rw [if_pos h.1]
  apply Classical.byContradiction
  intro hne
  exact hadmits.explicit hne rfl

theorem Agrees.fmt_lt (h : l.Agrees) (hc : l.Allows c) : c.fmt < 4 := by
  unfold SpecChunk.fmt
  unfold Allows at hc
  split at hc
  . next hprogress =>
    have hle := hc.2.fmt_le
    rw [if_pos hc.1]
    omega
  . next m n hprogress =>
    have hpos := (h.busy m n hprogress).1
    rw [if_neg (by omega)]
    omega

theorem next_reader {cs : ChunkStream} {rest : List UInt8} {ret : Ret}
    (hread : { l.reader with chunkSize := c.size }.readChunk c.fmt c.csid c.body = (ret, cs, rest))
    : (l.next c).reader = if cs.isReady && cs.isSupported then cs.reset else cs := by
  unfold Link.next follow
  simp only [hread]

theorem Agrees.next (h : l.Agrees) (hc : l.Allows c) (hu : l.reader.Understands c) (hpos : 0 < c.size)
    : (l.next c).Agrees := by
  rcases h.readChunk hc hu with ⟨cs, hread, hholds⟩
  have hreader := next_reader hread
  have hforce : (l.next c).timeline.explicitFmt ≠ none →
      (l.next c).timeline.msgLen = c.msg.payload.length ∧ (l.next c).timeline.typeId = c.msg.typeId := by
    intro hexplicit
    unfold Link.next at hexplicit ⊢
    by_cases hoffset : c.offset = 0
    . rw [if_pos hoffset]
      exact ⟨rfl, rfl⟩
    . rw [if_neg hoffset] at hexplicit ⊢
      have hold := h.inForce hexplicit
      unfold Allows at hc
      split at hc
      . exact absurd hc.1 hoffset
      . next m n hprogress =>
        have hbusy := h.busy m n hprogress
        rw [hc.1, ← hold.1, ← hold.2]
        exact ⟨hbusy.2.2.2.2.2.1, hbusy.2.2.2.2.2.2⟩
  have hprogress : (l.next c).progress = if c.last then none else some (c.msg, c.offset + c.size) := rfl
  cases hlast : c.last with
  | true =>
    have hlen := of_decide_eq_true hlast
    have hready : cs.isReady = true := hholds.chunkReady.trans hlast
    have hremain : cs.remain = 0 := by
      rw [hholds.remain]
      omega
    rw [hready, Bool.true_and] at hreader
    constructor
    . rw [hreader]
      split
      . rfl
      . exact hholds.phase
    . intro _
      rw [hreader]
      split
      . exact ⟨hremain, fun _ => rfl⟩
      . refine ⟨hremain, fun hnot => ?_⟩
        rw [show cs.chunkReady = true from hready] at hnot
        cases hnot
    . intro hexplicit
      rw [hreader, (hforce hexplicit).1, (hforce hexplicit).2]
      split
      . exact ⟨hholds.msgLen, hholds.typeId⟩
      . exact ⟨hholds.msgLen, hholds.typeId⟩
    . intro m n hbusy
      rw [hprogress, hlast] at hbusy
      cases hbusy
  | false =>
    have hlen := of_decide_eq_false hlast
    have hready : cs.isReady = false := hholds.chunkReady.trans hlast
    rw [hready, Bool.false_and, if_neg Bool.false_ne_true] at hreader
    constructor
    . rw [hreader]
      exact hholds.phase
    . intro hidle
      rw [hprogress, hlast] at hidle
      cases hidle
    . intro hexplicit
      rw [hreader, (hforce hexplicit).1, (hforce hexplicit).2]
      exact ⟨hholds.msgLen, hholds.typeId⟩
    . intro m n hbusy
      rw [hprogress, hlast] at hbusy
      cases hbusy
      rw [hreader]
      exact ⟨by omega, by omega, hready, hholds.remain, hholds.chunkData, hholds.msgLen, hholds.typeId⟩

end Link

/--
A peer: the chunk size it cuts with and its chunk streams.
-/
structure Conversation where
  size : Nat
  link : Nat → Link

namespace Conversation

def start (size : Nat) : Conversation := ⟨size, Link.start⟩

/--
The chunk size behind a message.
-/
def announced (size : Nat) (m : SpecMessage) : Nat :=
  if m.typeId = rtmpControlSetChunkSize ∧ 4 ≤ m.payload.length then read4Bytes m.payload else size

/--
The peer sends the next chunk of a message on one of its chunk streams.
-/
structure Step (σ : Conversation) (c : SpecChunk) (σ' : Conversation) : Prop where
  csid : 2 ≤ c.csid ∧ c.csid < 64
  size : c.size = σ.size
  size_pos : 0 < c.size
  allows : (σ.link c.csid).Allows c
  next : σ' = {
    size := if c.last then announced σ.size c.msg else σ.size,
    link := Function.update σ.link c.csid ((σ.link c.csid).next c) }

/--
A chunk whose header is read as it is meant.
-/
def ClearStep (σ : Conversation) (c : SpecChunk) (σ' : Conversation) : Prop :=
  σ.Step c σ' ∧ (σ.link c.csid).reader.Understands c

end Conversation

namespace RtmpSessionBase

section KeepHandler

/--
What `ReceiveRespMessage` does with the chunk streams and the chunk size, whatever else a message does.
-/
def keepHandle (s : RtmpSessionBase) (cs : ChunkStream)
    : Incremental.Result RtmpSessionBase ChunkStream :=
  let size :=
    if cs.typeId = rtmpControlSetChunkSize ∧ 4 ≤ cs.chunkData.length then read4Bytes cs.chunkData
    else s.chunkSize
  let s := s.setChunkSize size
  ([cs], some (if cs.isSupported then s.resetChunkStream cs else s))

def keepHandler : Handler ChunkStream where
  handle := keepHandle
  handle_feed s cs x := by
    unfold keepHandle
    simp only [Option.map_some]
    split
    . rfl
    . rfl
  handle_frame s cs t h := by
    unfold keepHandle at h
    simp only [Option.some.injEq] at h
    rw [← h]
    split
    . exact ⟨rfl, rfl⟩
    . exact ⟨rfl, rfl⟩

end KeepHandler

section Following

/--
A session at a chunk boundary that has read the chunks of a peer.
-/
structure Follows (s : RtmpSessionBase) (σ : Conversation) : Prop where
  recvBuffer : s.recvBuffer = []
  fmtReady : s.fmtReady = false
  chunkSize : s.chunkSize = σ.size
  absent : ∀ c, s.csMap (UInt8.ofNat c) = none → σ.link c = Link.start c
  present : ∀ c cs, 2 ≤ c → c < 64 → s.csMap (UInt8.ofNat c) = some cs → cs = (σ.link c).reader
  agrees : ∀ c, (σ.link c).Agrees

variable {s : RtmpSessionBase} {σ σ' : Conversation} {c : SpecChunk}

theorem Follows.currentChunkStream (hs : s.Follows σ) (hstep : σ.Step c σ')
    : (s.atHeader c.fmt c.csid).currentChunkStream
      = { (σ.link c.csid).reader with chunkSize := c.size } := by
  have hsize : (s.atHeader c.fmt c.csid).chunkSize = c.size := hs.chunkSize.trans hstep.size.symm
  unfold RtmpSessionBase.currentChunkStream
  rw [hsize]
  split
  . next hnone =>
    have hlink := hs.absent c.csid hnone
    have hallows := hstep.allows
    rw [hlink] at hallows ⊢
    have hfmt : (s.atHeader c.fmt c.csid).fmt = 0 := Link.Allows.fmt_start hallows
    rw [hfmt]
    rfl
  . next cs hsome =>
    rw [hs.present c.csid cs hstep.csid.1 hstep.csid.2 hsome]

theorem Follows.update (s' : RtmpSessionBase) (hs : s.Follows σ) {csid size : Nat} {l : Link}
    (hcsid : csid < 64) (hbuffer : s'.recvBuffer = []) (hready : s'.fmtReady = false)
    (hsize : s'.chunkSize = size)
    (hmap : s'.csMap = Function.update s.csMap (UInt8.ofNat csid) (some l.reader)) (hl : l.Agrees)
    : s'.Follows { size := size, link := Function.update σ.link csid l } := by
  constructor
  . exact hbuffer
  . exact hready
  . exact hsize
  . intro d hnone
    rw [hmap] at hnone
    by_cases hkey : UInt8.ofNat d = UInt8.ofNat csid
    . rw [hkey, Function.update_self] at hnone
      cases hnone
    . rw [Function.update_of_ne hkey] at hnone
      have hne : d ≠ csid := by
        rintro rfl
        exact hkey rfl
      simp only [Function.update_of_ne hne]
      exact hs.absent d hnone
  . intro d cs hd hd' hsome
    rw [hmap] at hsome
    by_cases hne : d = csid
    . rw [hne, Function.update_self, Option.some.injEq] at hsome
      simp only [hne, Function.update_self, hsome]
    . have hkey : UInt8.ofNat d ≠ UInt8.ofNat csid := fun h => hne (ofNat_csid_inj hd' hcsid h)
      rw [Function.update_of_ne hkey] at hsome
      simp only [Function.update_of_ne hne]
      exact hs.present d cs hd hd' hsome
  . intro d
    by_cases hne : d = csid
    . simp only [hne, Function.update_self]
      exact hl
    . simp only [Function.update_of_ne hne]
      exact hs.agrees d

theorem keepHandle_holds (s : RtmpSessionBase) {cs : ChunkStream} (h : cs.Holds c) (hlast : c.last = true)
    : ∃ t, keepHandle s cs = ([cs], some t) ∧ t.recvBuffer = s.recvBuffer ∧ t.fmtReady = s.fmtReady
      ∧ t.chunkSize = Conversation.announced s.chunkSize c.msg
      ∧ t.csMap = if cs.isSupported then (s.resetChunkStream cs).csMap else s.csMap := by
  have hdata : cs.chunkData = c.msg.payload := by
    rw [h.chunkData, List.take_of_length_le (of_decide_eq_true hlast)]
  refine ⟨_, rfl, ?_⟩
  rw [hdata, h.typeId]
  split
  . exact ⟨rfl, rfl, rfl, rfl⟩
  . exact ⟨rfl, rfl, rfl, rfl⟩

theorem Follows.drains_chunk (hs : s.Follows σ) (hstep : σ.ClearStep c σ')
    : ∃ out s', (chunkReader keepHandler).Drains (s.feed c.bytes) out s'
      ∧ out.map ChunkStream.message = (if c.last then [c.message] else []) ∧ s'.Follows σ' := by
  rcases hstep with ⟨hstep, hclear⟩
  have hagrees := hs.agrees c.csid
  have hnext := hagrees.next hstep.allows hclear hstep.size_pos
  rcases hagrees.readChunk hstep.allows hclear with ⟨cs, hread, hholds⟩
  have hreader := Link.next_reader hread
  have hbuffer : (s.feed c.bytes).recvBuffer = UInt8.ofNat (c.fmt * 64 + c.csid) :: c.body := by
    unfold feed SpecChunk.bytes
    rw [hs.recvBuffer]
    rfl
  have hready : (s.feed c.bytes).fmtReady = false := hs.fmtReady
  rw [← hs.currentChunkStream hstep] at hread
  rcases receive_chunk (h := keepHandler) hready (hagrees.fmt_lt hstep.allows) hstep.csid hbuffer
    hread with ⟨hfits, hreceive⟩
  generalize hput : { (s.feed c.bytes).atHeader c.fmt c.csid with recvBuffer := [] }.putChunkStream cs
    = t at hreceive
  have hptr : t.csPtr = some cs := by
    rw [← hput, csPtr_putChunkStream]
  have hmap : t.csMap = Function.update s.csMap (UInt8.ofNat c.csid) (some cs) := by
    rw [← hput]
    rfl
  have hisReady : cs.isReady = c.last := hholds.chunkReady
  have htBuffer : t.recvBuffer = [] := by
    rw [← hput]
    rfl
  have htReady : t.fmtReady = false := by
    rw [← hput]
    exact hs.fmtReady
  have htSize : t.chunkSize = σ.size := by
    rw [← hput]
    exact hs.chunkSize
  unfold dispatch at hreceive
  simp only [hptr, hisReady] at hreceive
  rw [hstep.next]
  cases hlast : c.last with
  | false =>
    rw [hisReady, hlast, Bool.false_and, if_neg Bool.false_ne_true] at hreader
    rw [hlast, if_neg Bool.false_ne_true] at hreceive
    rw [← hreader] at hmap
    have ht := hs.update t hstep.csid.2 htBuffer htReady htSize hmap hnext
    exact ⟨[], t, .next hfits hreceive (drains_of_empty htBuffer htReady), rfl, ht⟩
  | true =>
    rw [hisReady, hlast, Bool.true_and] at hreader
    rcases keepHandle_holds t hholds hlast with ⟨u, hhandle, huBuffer, huReady, huSize, huMap⟩
    have hhandle' : keepHandler.handle t cs = ([cs], some u) := hhandle
    rw [hlast, if_pos rfl, hhandle'] at hreceive
    have huMap : u.csMap = Function.update s.csMap (UInt8.ofNat c.csid)
        (some ((σ.link c.csid).next c).reader) := by
      rw [huMap, hreader]
      split
      . rw [resetChunkStream, ← hput, putChunkStream_putChunkStream]
        rfl
      . exact hmap
    rw [htSize] at huSize
    have hu := hs.update u hstep.csid.2 (huBuffer.trans htBuffer) (huReady.trans htReady) huSize huMap hnext
    refine ⟨[cs], u, ?_, ?_, hu⟩
    . exact .next hfits hreceive (drains_of_empty hu.recvBuffer hu.fmtReady)
    . rw [if_pos rfl, List.map_singleton, hholds.message hlast]

theorem Follows.drains_run {chunks : List SpecChunk} (hs : s.Follows σ)
    (hrun : Interleave.Run Conversation.ClearStep σ chunks σ')
    : ∃ out s', (chunkReader keepHandler).Drains (s.feed (chunks.flatMap SpecChunk.bytes)) out s'
      ∧ out.map ChunkStream.message = (chunks.filter SpecChunk.last).map SpecChunk.message
      ∧ s'.Follows σ' := by
  induction hrun generalizing s with
  | nil => exact ⟨[], s, by simpa using drains_of_empty hs.recvBuffer hs.fmtReady, rfl, hs⟩
  | @cons σ₁ σ₂ σ₃ c chunks hstep _ ih =>
    rcases hs.drains_chunk hstep with ⟨out, t, hdrains, hout, ht⟩
    rcases ih ht with ⟨out', u, hdrains', hout', hu⟩
    refine ⟨out ++ out', u, ?_, ?_, hu⟩
    . rw [List.flatMap_cons]
      exact hdrains.append hdrains'
    . rw [List.map_append, hout, hout', List.filter_cons]
      split
      . rfl
      . rfl

end Following

section Reads

/--
What the reading of messages looks at.
-/
def core (s : RtmpSessionBase) : RtmpSessionBase :=
  { s with remoteWindowAcksize := 0, req := {}, clientPhase := .initial }

theorem readMessage_core (s : RtmpSessionBase)
    : s.core.readMessage = (s.readMessage.1, s.readMessage.2.core) := by
  unfold readMessage
  have hcurrent : s.core.currentChunkStream = s.currentChunkStream := rfl
  rw [hcurrent]
  simp only
  split
  . next hok =>
    rw [if_pos (by exact hok)]
    rfl
  . next hok =>
    rw [if_neg (by exact hok)]
    rfl

theorem readFmtCsid_core (s : RtmpSessionBase)
    : s.core.readFmtCsid = (s.readFmtCsid.1, s.readFmtCsid.2.core) := by
  have hbuffer : s.core.recvBuffer = s.recvBuffer := rfl
  unfold readFmtCsid
  rw [hbuffer]
  simp only
  repeat' split
  all_goals rfl

theorem readChunkStream_core {s t : RtmpSessionBase} {ret : Ret} (h : s.readChunkStream = (ret, t))
    : s.core.readChunkStream = (ret, t.core) := by
  have hready : s.core.fmtReady = s.fmtReady := rfl
  unfold readChunkStream at h ⊢
  rw [hready, readFmtCsid_core]
  split
  . next hfmt =>
    rw [if_pos hfmt] at h
    rw [readMessage_core, h]
  . next hfmt =>
    rw [if_neg hfmt] at h
    rcases hread : s.readFmtCsid with ⟨ret', u⟩
    rw [hread] at h
    cases ret' with
    | ok =>
      have hu : { u.core with fmtReady := true } = { u with fmtReady := true }.core := rfl
      simp only at h ⊢
      rw [hu, readMessage_core, h]
    | needReadMore =>
      cases h
      rfl
    | error =>
      cases h
      rfl

theorem keepHandle_of_not_control {s : RtmpSessionBase} {cs : ChunkStream}
    (h : isControlMessage cs = false)
    : keepHandle s cs = ([cs], some (if cs.isSupported then s.resetChunkStream cs else s)) := by
  have htype : ¬ (cs.typeId = rtmpControlSetChunkSize ∧ 4 ≤ cs.chunkData.length) := by
    rintro ⟨htype, _⟩
    unfold isControlMessage at h
    rw [htype] at h
    cases h
  unfold keepHandle
  rw [if_neg htype]
  rfl

theorem keepHandle_control {s t : RtmpSessionBase} {cs : ChunkStream} {sent : List (List UInt8)}
    (hcontrol : isControlMessage cs = true) (h : s.handleRtmpControlMessage cs = some (t, sent))
    : keepHandle s.core cs = ([cs], some (t.resetChunkStream cs).core) := by
  have hsupported : cs.isSupported = true := by
    unfold ChunkStream.isSupported
    rw [hcontrol]
    rfl
  unfold keepHandle
  rw [hsupported]
  simp only [handleRtmpControlMessage] at h
  split at h
  . next htype =>
    split at h
    . cases h
    . next hlen =>
      rw [if_pos ⟨htype, by omega⟩]
      cases h
      rfl
  . next htype =>
    rw [if_neg (fun hset => htype hset.1)]
    split at h
    . split at h
      . cases h
      . cases h
        rfl
    . cases h
      rfl

theorem keepHandle_core {s t : RtmpSessionBase} {cs : ChunkStream} {out : List ClientEvent}
    (h : s.handleReady cs = (out, some t)) : keepHandle s.core cs = ([cs], some t.core) := by
  simp only [handleReady] at h
  cases hcontrol : isControlMessage cs with
  | true =>
    rw [if_pos hcontrol] at h
    split at h
    . next hhandle =>
      cases h
      exact keepHandle_control hcontrol hhandle
    . cases h
  | false =>
    have hsupported : cs.isSupported
        = (decide (cs.typeId = rtmpCommandMessagesAmf0) || isMediaMessage cs) := by
      unfold ChunkStream.isSupported
      rw [hcontrol, Bool.false_or]
    rw [keepHandle_of_not_control hcontrol, hsupported]
    rw [if_neg (by rw [hcontrol]; exact Bool.false_ne_true)] at h
    split at h
    . next hamf =>
      rw [decide_eq_true hamf, Bool.true_or, if_pos rfl]
      split at h
      . cases h
        rfl
      . cases h
    . next hamf =>
      rw [decide_eq_false hamf, Bool.false_or]
      split at h
      . next hmedia =>
        rw [if_pos hmedia]
        split at h
        . split at h
          . cases h
          . cases h
            rfl
        . cases h
      . next hmedia =>
        rw [if_neg hmedia]
        cases h
        rfl

theorem dispatch_unready {s : RtmpSessionBase} (h : s.readyChunkStream = none)
    : dispatch keepHandler s.core = .next s.core [] := by
  have hptr : s.core.csPtr = s.csPtr := rfl
  unfold readyChunkStream at h
  unfold dispatch
  rw [hptr]
  split
  . rfl
  . next cs hcs =>
    rw [hcs, Option.filter_eq_none_iff] at h
    rw [if_neg (h cs rfl)]

theorem dispatch_ready {s t : RtmpSessionBase} {cs : ChunkStream} (h : s.readyChunkStream = some cs)
    (hhandle : keepHandle s.core cs = ([cs], some t))
    : dispatch keepHandler s.core = .next t [cs] := by
  have hptr : s.core.csPtr = s.csPtr := rfl
  have hhandle : keepHandler.handle s.core cs = ([cs], some t) := hhandle
  unfold readyChunkStream at h
  rw [Option.filter_eq_some_iff] at h
  unfold dispatch
  simp only [hptr, h.1, if_pos h.2, hhandle]

theorem drain_core {s : RtmpSessionBase} (hbuffer : s.recvBuffer = []) (hready : s.fmtReady = false)
    : (chunkReader keepHandler).drain s.core = ([], some s.core) := by
  apply Incremental.Reader.drain_of_quiet
  exact quiet_of_empty hbuffer hready

/--
One call of `ReceiveRespMessage`. The reader that keeps on handles the same messages, and it is in the
same state behind them unless the call failed.
-/
theorem receiveLoop_keep {fuel : Nat} {s t : RtmpSessionBase} {ret : Ret} {out : List ClientEvent}
    (hfuel : 2 * s.recvBuffer.length + s.fmtReady.toNat < fuel)
    (h : receiveLoop fuel s = (ret, out, t))
    : messages out <+: ((chunkReader keepHandler).drain s.core).1
      ∧ (ret ≠ .error → (chunkReader keepHandler).drain s.core = (messages out, some t.core)) := by
  induction fuel generalizing s out with
  | zero => omega
  | succ fuel ih =>
    rw [receiveLoop] at h
    rcases hread : s.readChunkStream with ⟨ret', u⟩
    have hcore := readChunkStream_core hread
    have hstep : (chunkReader keepHandler).step s.core = receive keepHandler s.core := rfl
    rw [receive, hcore] at hstep
    rw [hread] at h
    cases ret' with
    | needReadMore =>
      cases h
      rw [Incremental.Reader.drain_stall _ hstep]
      exact ⟨List.prefix_rfl, fun _ => rfl⟩
    | error =>
      cases h
      exact ⟨List.nil_prefix, fun hne => absurd rfl hne⟩
    | ok =>
      have hrank := readChunkStream_rank_lt hread
      simp only at h hstep
      cases hready : u.readyChunkStream with
      | none =>
        rw [dispatch_unready hready] at hstep
        rw [Incremental.Reader.drain_next _ hstep, Incremental.Result.andThen_some, List.nil_append]
        simp only [hready] at h
        by_cases hempty : u.recvBuffer = []
        . rw [if_pos hempty] at h
          cases h
          rw [drain_core hempty hrank.1]
          exact ⟨List.prefix_rfl, fun _ => rfl⟩
        . rw [if_neg hempty] at h
          exact ih (by rw [hrank.1, Bool.toNat_false]; omega) h
      | some cs =>
        have hmessages := messages_handleReady u cs
        simp only [hready] at h
        rcases hhandle : u.handleReady cs with ⟨out', _ | v⟩
        . rw [hhandle] at hmessages h
          simp only at hmessages h
          cases h
          rw [dispatch_ready hready rfl] at hstep
          rw [Incremental.Reader.drain_next _ hstep, Incremental.Result.andThen_some, hmessages]
          exact ⟨List.prefix_append _ _, fun hne => absurd rfl hne⟩
        . rw [hhandle] at hmessages h
          simp only at hmessages h
          have hframe := handleReady_frame hhandle
          rw [dispatch_ready hready (keepHandle_core hhandle)] at hstep
          rw [Incremental.Reader.drain_next _ hstep, Incremental.Result.andThen_some]
          by_cases hreply : isReply cs ∧ v.recvBuffer = []
          . rw [if_pos hreply] at h
            cases h
            rw [drain_core hreply.2 (hframe.2.1.trans hrank.1), List.append_nil, hmessages]
            exact ⟨List.prefix_rfl, fun _ => rfl⟩
          . rw [if_neg hreply] at h
            rcases hloop : receiveLoop fuel v with ⟨ret'', out'', w⟩
            rw [hloop] at h
            cases h
            have hv := ih (by rw [hframe.1, hframe.2.1, hrank.1, Bool.toNat_false]; omega) hloop
            rw [messages_append, hmessages]
            refine ⟨(List.prefix_append_right_inj _).mpr hv.1, fun hne => ?_⟩
            rw [hv.2 hne]

theorem receiveRespMessage_keep {s t : RtmpSessionBase} {ret : Ret} {out : List ClientEvent}
    (h : s.receiveRespMessage = (ret, out, t))
    : messages out <+: ((chunkReader keepHandler).drain s.core).1
      ∧ (ret ≠ .error → (chunkReader keepHandler).drain s.core = (messages out, some t.core)) := by
  have := s.fmtReady.toNat_le
  exact receiveLoop_keep (by omega) h

/--
Calls of `ReceiveRespMessage`, each in a phase and with the bytes that arrived in front of it.
-/
def receiveReads (s : RtmpSessionBase) : List (ClientPhase × List UInt8) → List ClientEvent
  | [] => []
  | (phase, data) :: reads =>
    match ((s.setPhase phase).feed data).receiveRespMessage with
    | (.error, out, _) => out
    | (_, out, s) => out ++ receiveReads s reads

theorem receiveReads_keep (s : RtmpSessionBase) (reads : List (ClientPhase × List UInt8))
    : messages (receiveReads s reads)
      <+: ((chunkReader keepHandler).run s.core (reads.map Prod.snd)).1 := by
  induction reads generalizing s with
  | nil => exact List.prefix_rfl
  | cons read reads ih =>
    rcases read with ⟨phase, data⟩
    have hfeed : ((s.setPhase phase).feed data).core = (chunkReader keepHandler).feed s.core data := rfl
    rw [List.map_cons, Incremental.Reader.run, ← hfeed, receiveReads]
    rcases hresp : ((s.setPhase phase).feed data).receiveRespMessage with ⟨ret, out, t⟩
    rcases receiveRespMessage_keep hresp with ⟨hfront', hdrain⟩
    have hgo (hne : ret ≠ .error) : messages (out ++ receiveReads t reads)
        <+: (((chunkReader keepHandler).drain ((s.setPhase phase).feed data).core).andThen fun s' =>
          (chunkReader keepHandler).run s' (reads.map Prod.snd)).1 := by
      rw [hdrain hne, Incremental.Result.andThen_some, messages_append]
      exact (List.prefix_append_right_inj _).mpr (ih t)
    cases ret with
    | error =>
      apply hfront'.trans
      unfold Incremental.Result.andThen
      split
      . exact List.prefix_append _ _
      . exact List.prefix_rfl
    | ok => exact hgo (by simp)
    | needReadMore => exact hgo (by simp)

/--
The messages a session hands on, in whatever phases and pieces it receives them, are the messages of the
peer with the bytes of each of them and no others.
-/
theorem receiveReads_own (req : RtmpRequest) (chunks : List SpecChunk) (σ : Conversation)
    (hrun : Interleave.Run Conversation.ClearStep (Conversation.start chunkDefSize) chunks σ)
    (reads : List (ClientPhase × List UInt8))
    (hreads : (reads.map Prod.snd).flatten <+: chunks.flatMap SpecChunk.bytes)
    : (messages (receiveReads (handshaken req) reads)).map ChunkStream.message
      <+: (chunks.filter SpecChunk.last).map SpecChunk.message := by
  have hstart : (handshaken req).core.Follows (Conversation.start chunkDefSize) := by
    constructor
    . rfl
    . rfl
    . rfl
    . exact fun _ _ => rfl
    . intro _ _ _ _ hsome
      cases hsome
    . exact Link.agrees_start
  rcases hstart.drains_run hrun with ⟨out, t, hdrains, hout, _⟩
  rcases hreads with ⟨rest, hrest⟩
  rw [← hrest] at hdrains
  rcases hdrains.of_append with ⟨out₁, out₂, u, hdrains, happend⟩
  have hrun := hdrains.run_eq (quiet_of_empty hstart.recvBuffer hstart.fmtReady)
  have hkeep := receiveReads_keep (handshaken req) reads
  rw [hrun] at hkeep
  rw [← hout, happend]
  exact (hkeep.trans (List.prefix_append _ _)).map _

def sampleChunks : List SpecChunk :=
  [⟨4, ⟨0, 0, 22, 0, [9]⟩, 0, chunkDefSize⟩, ⟨4, ⟨3, 0, 22, 0, [7]⟩, 0, chunkDefSize⟩]

theorem receiveReads_own_sample
    : (messages (receiveReads (handshaken {})
          [(.mediaHandle, sampleChunks.flatMap SpecChunk.bytes)])).map ChunkStream.message
        <+: (sampleChunks.filter SpecChunk.last).map SpecChunk.message := by
  apply receiveReads_own {} sampleChunks
  . refine .cons ⟨⟨by decide, rfl, by decide, ?_, rfl⟩, ?_⟩
      (.cons ⟨⟨by decide, rfl, by decide, ?_, rfl⟩, ?_⟩ (.nil _))
    . exact ⟨rfl, by decide, by decide, by decide, by decide, by decide, by decide, by decide⟩
    . exact fun h => nomatch h
    . exact ⟨rfl, by decide, by decide, by decide, by decide, by decide, by decide, by decide⟩
    . exact ⟨rfl, fun h => nomatch h⟩
  . simp only [List.map_singleton, List.flatten_singleton, List.prefix_rfl]

/--
Two messages on one chunk stream, the first one of a type the client does not support.
-/
def unsupportedChunks : List SpecChunk :=
  [⟨4, ⟨0, 0, 22, 0, [9]⟩, 0, chunkDefSize⟩,
    ⟨4, ⟨0, 0, rtmpMediaPacketAudio, 0, [0xaf, 1, 5]⟩, 0, chunkDefSize⟩]

/--
A message of a type the client does not support stays in front of the next message.
-/
theorem not_receiveReads_own
    : ¬ ∀ (req : RtmpRequest) (chunks : List SpecChunk) (σ : Conversation),
        Interleave.Run Conversation.Step (Conversation.start chunkDefSize) chunks σ →
        ∀ reads : List (ClientPhase × List UInt8),
          (reads.map Prod.snd).flatten <+: chunks.flatMap SpecChunk.bytes →
          (messages (receiveReads (handshaken req) reads)).map ChunkStream.message
            <+: (chunks.filter SpecChunk.last).map SpecChunk.message := by
  intro h
  have hown := h {} unsupportedChunks _
    (.cons ⟨by decide, rfl, by decide,
        ⟨rfl, by decide, by decide, by decide, by decide, by decide, by decide, by decide⟩, rfl⟩
      (.cons ⟨by decide, rfl, by decide,
          ⟨rfl, by decide, by decide, by decide, by decide, by decide, by decide, by decide⟩, rfl⟩
        (.nil _)))
    [(.mediaHandle, unsupportedChunks.flatMap SpecChunk.bytes)]
    (by simp only [List.map_singleton, List.flatten_singleton, List.prefix_rfl])
  have hmessages : (messages (receiveReads (handshaken {})
      [(.mediaHandle, unsupportedChunks.flatMap SpecChunk.bytes)])).map ChunkStream.message
      = [(4, 1, 22, [9]), (4, 3, rtmpMediaPacketAudio, [9, 0xaf, 1, 5])] := by
    decide
  rw [hmessages] at hown
  revert hown
  decide

end Reads

end RtmpSessionBase

end Rtmp
