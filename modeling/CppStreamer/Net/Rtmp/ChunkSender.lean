import CppStreamer.Basic.Interleave
import CppStreamer.Net.Rtmp.SessionBase

/-!
This module contains messages and the chunks a sender cuts them into, and the proof that reading one
chunk keeps a session in step with the sender.
-/

namespace Rtmp

open ByteStream Incremental

/--
What a completed message looks like to the receiver.
-/
structure DecodedMessage where
  csid : Nat
  timestamp32 : Nat
  msgLen : Nat
  typeId : UInt8
  msgStreamId : Nat
  chunkData : List UInt8
  deriving DecidableEq, Repr

def ChunkStream.decoded (cs : ChunkStream) : DecodedMessage where
  csid := cs.csid
  timestamp32 := cs.timestamp32
  msgLen := cs.msgLen
  typeId := cs.typeId
  msgStreamId := cs.msgStreamId
  chunkData := cs.chunkData

/--
A message whose chunk headers are neither extended nor longer than usual.
-/
structure RtmpMessage where
  csid : Nat
  timestamp : Nat
  typeId : UInt8
  msgStreamId : Nat
  payload : List UInt8
  two_le_csid : 2 ≤ csid
  csid_lt : csid < 64
  timestamp_lt : timestamp < 0xffffff
  msgStreamId_lt : msgStreamId < 2 ^ 32
  length_lt : payload.length < 2 ^ 24
  deriving DecidableEq

namespace RtmpMessage

def decoded (m : RtmpMessage) : DecodedMessage where
  csid := m.csid
  timestamp32 := m.timestamp
  msgLen := m.payload.length
  typeId := m.typeId
  msgStreamId := m.msgStreamId
  chunkData := m.payload

def header (m : RtmpMessage) : List UInt8 :=
  write3Bytes m.timestamp ++ (write3Bytes m.payload.length ++ m.typeId :: write4Bytes m.msgStreamId)

end RtmpMessage

/--
A chunk of a message, cut at `offset` with the chunk size `size`.
-/
structure Chunk where
  msg : RtmpMessage
  offset : Nat
  size : Nat

namespace Chunk

def last (c : Chunk) : Bool := decide (c.msg.payload.length ≤ c.offset + c.size)

def fmt (c : Chunk) : Nat := if c.offset = 0 then 0 else 3

def data (c : Chunk) : List UInt8 := (c.msg.payload.drop c.offset).take c.size

/--
The chunk behind its basic header.
-/
def body (c : Chunk) : List UInt8 := (if c.offset = 0 then c.msg.header else []) ++ c.data

def bytes (c : Chunk) : List UInt8 := UInt8.ofNat (c.fmt * 64 + c.msg.csid) :: c.body

end Chunk

/--
How far a sender is with the message of a chunk stream: nothing to be continued, or a message of
which some bytes have been sent.
-/
abbrev Progress := Option (RtmpMessage × Nat)

namespace Chunk

/--
The chunk is the next one of its chunk stream.
-/
def Follows (c : Chunk) (p : Progress) : Prop :=
  match p with
  | none => c.offset = 0
  | some (m, n) => c.msg = m ∧ c.offset = n

def after (c : Chunk) : Progress :=
  if c.last then none else some (c.msg, c.offset + c.size)

end Chunk

namespace ChunkStream

/--
The chunk stream of a receiver agrees with the progress of the sender.
-/
structure Tracks (cs : ChunkStream) (p : Progress) : Prop where
  phase : cs.phase = .header
  chunkReady : cs.chunkReady = false
  extTsFlag : cs.extTsFlag = false
  idle : p = none → cs.chunkData = []
  busy : ∀ m n, p = some (m, n) → 0 < n ∧ n < m.payload.length ∧ cs.remain = m.payload.length - n
    ∧ { cs with csid := m.csid }.decoded = { m.decoded with chunkData := m.payload.take n }

theorem tracks_new (fmt csid chunkSize : Nat) : (ChunkStream.new fmt csid chunkSize).Tracks none where
  phase := rfl
  chunkReady := rfl
  extTsFlag := rfl
  idle := fun _ => rfl
  busy := by simp

theorem Tracks.reset {cs : ChunkStream} (h : cs.extTsFlag = false) : cs.reset.Tracks none where
  phase := rfl
  chunkReady := rfl
  extTsFlag := h
  idle := fun _ => rfl
  busy := by simp

theorem Tracks.setChunkSize {cs : ChunkStream} {p : Progress} (h : cs.Tracks p) (chunkSize : Nat)
    : { cs with chunkSize := chunkSize }.Tracks p where
  phase := h.phase
  chunkReady := h.chunkReady
  extTsFlag := h.extTsFlag
  idle := h.idle
  busy := h.busy

theorem readMsgFormat_eq_of_lt {cs : ChunkStream} {inputFmt inputCsid headerLen : Nat}
    {assign : ChunkStream → Nat → List UInt8 → ChunkStream} {header : List UInt8}
    (body : List UInt8) (hlen : header.length = headerLen) (h3 : 3 ≤ headerLen)
    (hts : read3Bytes header < 0xffffff)
    : cs.readMsgFormat inputFmt inputCsid (header ++ body) headerLen assign
      = (.ok, assign { cs with fmt := inputFmt, csid := inputCsid } (read3Bytes header) header,
        body) := by
  have hlong : ¬(header ++ body).length < headerLen := by simp only [List.length_append]; omega
  have hread := read3Bytes_append header body (by omega)
  simp only [readMsgFormat, if_neg hlong, hread]
  rw [if_neg (by omega), List.take_left' hlen, List.drop_left' hlen]

theorem readMessagePayload_eq {cs : ChunkStream} {data : List UInt8} (rest : List UInt8)
    (hphase : cs.phase = .payload) (hlen : data.length = cs.requireLen)
    : cs.readMessagePayload (data ++ rest)
      = (.ok,
        { cs with
          chunkData := cs.chunkData ++ data, remain := cs.remain - data.length,
          chunkReady := cs.chunkReady || decide (cs.remain - data.length = 0), phase := .header },
        rest) := by
  have hlong : ¬(data ++ rest).length < cs.requireLen := by simp only [List.length_append]; omega
  unfold readMessagePayload
  simp only [hphase, if_neg hlong, List.take_left' hlen, List.drop_left' hlen, hlen]

/--
The chunk stream between the header and the payload of a chunk.
-/
structure Expects (cs : ChunkStream) (c : Chunk) : Prop where
  phase : cs.phase = .payload
  chunkReady : cs.chunkReady = false
  extTsFlag : cs.extTsFlag = false
  chunkSize : cs.chunkSize = c.size
  remain : cs.remain = c.msg.payload.length - c.offset
  decoded : cs.decoded = { c.msg.decoded with chunkData := c.msg.payload.take c.offset }

theorem assignFormat0_header (cs : ChunkStream) (m : RtmpMessage)
    : cs.assignFormat0 (read3Bytes m.header) m.header
      = { cs with
          timestamp32 := m.timestamp, timestampDelta := 0, msgLen := m.payload.length,
          typeId := m.typeId, msgStreamId := m.msgStreamId, remain := m.payload.length } := by
  have hts : read3Bytes m.header = m.timestamp := by
    rw [RtmpMessage.header, read3Bytes_write3Bytes]
    exact Nat.mod_eq_of_lt (Nat.lt_trans m.timestamp_lt (by decide))
  have hlen : read3Bytes (m.header.drop 3) = m.payload.length := by
    have : m.header.drop 3
        = write3Bytes m.payload.length ++ m.typeId :: write4Bytes m.msgStreamId := rfl
    rw [this, read3Bytes_write3Bytes, Nat.mod_eq_of_lt m.length_lt]
  have htype : (m.header.drop 6).headD 0 = m.typeId := rfl
  have hid : read4Bytes (m.header.drop 7) = m.msgStreamId := by
    have : m.header.drop 7 = write4Bytes m.msgStreamId ++ [] := rfl
    rw [this, read4Bytes_write4Bytes, Nat.mod_eq_of_lt m.msgStreamId_lt]
  rw [assignFormat0, hts, hlen, htype, hid]

theorem readMessageHeader_start {cs : ChunkStream} {c : Chunk} (htracks : cs.Tracks none)
    (hoffset : c.offset = 0) (hsize : cs.chunkSize = c.size)
    : ∃ cs', cs.readMessageHeader 0 c.msg.csid (c.msg.header ++ c.data) = (.ok, cs', c.data)
      ∧ cs'.Expects c := by
  have hts : read3Bytes c.msg.header < 0xffffff := by
    rw [RtmpMessage.header, read3Bytes_write3Bytes]
    have := c.msg.timestamp_lt
    omega
  have hread : cs.readMsgFormat0 0 c.msg.csid (c.msg.header ++ c.data) = _ :=
    readMsgFormat_eq_of_lt c.data rfl (by decide) hts
  rw [assignFormat0_header] at hread
  simp only [readMessageHeader, htracks.phase, readMsgByFormat, hread]
  refine ⟨_, rfl, ?_⟩
  constructor
  . rfl
  . exact htracks.chunkReady
  . exact htracks.extTsFlag
  . exact hsize
  . simp [hoffset]
  . simp [decoded, RtmpMessage.decoded, hoffset, htracks.idle rfl]

theorem readMessageHeader_continue {cs : ChunkStream} {c : Chunk}
    (htracks : cs.Tracks (some (c.msg, c.offset))) (hsize : cs.chunkSize = c.size)
    : ∃ cs', cs.readMessageHeader 3 c.msg.csid c.data = (.ok, cs', c.data) ∧ cs'.Expects c := by
  have hbusy := htracks.busy c.msg c.offset rfl
  have hremain : cs.remain ≠ 0 := by omega
  simp only [readMessageHeader, htracks.phase, readMsgByFormat, readMsgFormat3, if_neg hremain,
    htracks.extTsFlag, Bool.false_eq_true, if_false]
  refine ⟨_, rfl, ?_⟩
  constructor
  . rfl
  . exact htracks.chunkReady
  . rfl
  . exact hsize
  . exact hbusy.2.2.1
  . exact hbusy.2.2.2

theorem Expects.data_length {cs : ChunkStream} {c : Chunk} (h : cs.Expects c)
    : c.data.length = cs.requireLen := by
  rw [Chunk.data, requireLen, h.chunkSize, h.remain, List.length_take, List.length_drop]
  split
  . omega
  . omega

theorem readChunk_follows {cs : ChunkStream} {p : Progress} {c : Chunk} (htracks : cs.Tracks p)
    (hnext : c.Follows p) (hsize : cs.chunkSize = c.size) (hpos : 0 < c.size)
    : ∃ cs', cs.readChunk c.fmt c.msg.csid c.body = (.ok, cs', [])
      ∧ cs'.extTsFlag = false ∧ cs'.chunkReady = c.last
      ∧ if c.last then cs'.decoded = c.msg.decoded else cs'.Tracks c.after := by
  have hheader : ∃ cs', cs.readMessageHeader c.fmt c.msg.csid c.body = (.ok, cs', c.data)
      ∧ cs'.Expects c := by
    cases p with
    | none =>
      have hoffset : c.offset = 0 := hnext
      simp only [Chunk.fmt, Chunk.body, hoffset, if_true]
      exact readMessageHeader_start htracks hoffset hsize
    | some p =>
      rcases p with ⟨m, n⟩
      rcases hnext with ⟨rfl, rfl⟩
      have hoffset : c.offset ≠ 0 := by
        have := (htracks.busy _ _ rfl).1
        omega
      simp only [Chunk.fmt, Chunk.body, hoffset, if_false, List.nil_append]
      exact readMessageHeader_continue htracks hsize
  rcases hheader with ⟨cs₁, hread, hexp⟩
  have hlen : c.data.length = min c.size (c.msg.payload.length - c.offset) := by
    rw [Chunk.data, List.length_take, List.length_drop]
  have hremain := hexp.remain
  have hready : decide (cs₁.remain - c.data.length = 0) = c.last := by
    simp only [Chunk.last, decide_eq_decide]
    omega
  have htake : c.msg.payload.take c.offset ++ c.data = c.msg.payload.take (c.offset + c.size) := by
    rw [Chunk.data, List.take_add]
  have hdecoded : ({ cs₁ with chunkData := cs₁.chunkData ++ c.data } : ChunkStream).decoded
      = { c.msg.decoded with chunkData := c.msg.payload.take (c.offset + c.size) } := by
    have := hexp.decoded
    simp only [decoded, RtmpMessage.decoded, DecodedMessage.mk.injEq] at this ⊢
    simp [this, htake]
  have hpayload := readMessagePayload_eq [] hexp.phase hexp.data_length
  rw [List.append_nil] at hpayload
  simp only [readChunk, hread, hpayload, hready]
  refine ⟨_, rfl, hexp.extTsFlag, by simp [hexp.chunkReady], ?_⟩
  split
  . next hlast =>
    simp only [Chunk.last, decide_eq_true_eq] at hlast
    rw [List.take_of_length_le hlast] at hdecoded
    exact hdecoded
  . next hlast =>
    rw [Chunk.after, if_neg hlast]
    simp only [Chunk.last, decide_eq_true_eq] at hlast
    constructor
    . rfl
    . simp [hexp.chunkReady, Chunk.last, hlast]
    . exact hexp.extTsFlag
    . simp
    . intro m n hprogress
      simp only [Option.some.injEq, Prod.mk.injEq] at hprogress
      rcases hprogress with ⟨rfl, rfl⟩
      refine ⟨by omega, by omega, by simp only; omega, ?_⟩
      simp only [decoded, RtmpMessage.decoded, DecodedMessage.mk.injEq] at hdecoded ⊢
      exact ⟨trivial, hdecoded.2⟩

end ChunkStream

/--
A sender of chunks: the chunk size it cuts with, and its progress on every chunk stream.
-/
structure Sender where
  size : Nat
  inflight : Nat → Progress

def Sender.start (size : Nat) : Sender where
  size := size
  inflight := fun _ => none

/--
A sender emits a chunk. `adjust` is the chunk size it uses once a message is complete.
-/
def Sender.Step (adjust : Nat → RtmpMessage → Nat) (σ : Sender) (c : Chunk) (σ' : Sender) : Prop :=
  c.size = σ.size ∧ c.Follows (σ.inflight c.msg.csid)
    ∧ σ' = {
        size := if c.last then adjust σ.size c.msg else σ.size,
        inflight := Function.update σ.inflight c.msg.csid c.after }

theorem Sender.step_whole (adjust : Nat → RtmpMessage → Nat) {m : RtmpMessage} {size : Nat}
    (h : m.payload.length ≤ size)
    : (Sender.start size).Step adjust ⟨m, 0, size⟩ (Sender.start (adjust size m)) := by
  have hlast : (Chunk.mk m 0 size).last = true := by simpa [Chunk.last] using h
  refine ⟨rfl, rfl, ?_⟩
  simp [Sender.start, Chunk.after, hlast]

namespace RtmpSessionBase

/--
A session that has read every chunk of a sender and nothing else.
-/
structure InStep (s : RtmpSessionBase) (σ : Sender) : Prop where
  recvBuffer : s.recvBuffer = []
  fmtReady : s.fmtReady = false
  chunkSize : s.chunkSize = σ.size
  absent : ∀ c, s.csMap (UInt8.ofNat c) = none → σ.inflight c = none
  tracks : ∀ c cs, 2 ≤ c → c < 64 → s.csMap (UInt8.ofNat c) = some cs → cs.Tracks (σ.inflight c)

/--
The handler takes complete messages: it emits `emit`, resets the chunk stream, and the session goes
on with the chunk size `adjust`.
-/
def Handler.Accepts {ε : Type} (h : Handler ε) (adjust : Nat → RtmpMessage → Nat)
    (emit : RtmpMessage → List ε) (m : RtmpMessage) : Prop :=
  ∀ s cs, cs.decoded = m.decoded →
    ∃ s', h.handle s cs = (emit m, some s') ∧ s'.chunkSize = adjust s.chunkSize m
      ∧ s'.csMap = (s.resetChunkStream cs).csMap

variable {ε : Type} {h : Handler ε} {adjust : Nat → RtmpMessage → Nat} {emit : RtmpMessage → List ε}

theorem ofNat_csid_inj {c d : Nat} (hc : c < 64) (hd : d < 64) (h : UInt8.ofNat c = UInt8.ofNat d)
    : c = d := by
  have := congrArg UInt8.toNat h
  rw [UInt8.toNat_ofNat', UInt8.toNat_ofNat'] at this
  omega

theorem quiet_of_empty {s : RtmpSessionBase} (hbuffer : s.recvBuffer = [])
    (hready : s.fmtReady = false)
    : (chunkReader h).Quiet s := by
  have hread : s.readChunkStream = (.needReadMore, s) := by
    simp [readChunkStream, hready, readFmtCsid, hbuffer]
  exact (receive_stall_iff h).mpr hread

theorem drains_of_empty {s : RtmpSessionBase} (hbuffer : s.recvBuffer = [])
    (hready : s.fmtReady = false)
    : (chunkReader h).Drains s [] s := by
  refine .stall ?_ (quiet_of_empty hbuffer hready)
  exact .inr (by simp [hbuffer])

theorem InStep.quiet {s : RtmpSessionBase} {σ : Sender} (hs : s.InStep σ)
    : (chunkReader h).Quiet s := quiet_of_empty hs.recvBuffer hs.fmtReady

theorem InStep.drains_nil {s : RtmpSessionBase} {σ : Sender} (hs : s.InStep σ)
    : (chunkReader h).Drains s [] s := drains_of_empty hs.recvBuffer hs.fmtReady

/--
The session after a basic header.
-/
def atHeader (s : RtmpSessionBase) (fmt csid : Nat) : RtmpSessionBase :=
  { s with fmt := fmt, csid := csid }

theorem receive_chunk {s : RtmpSessionBase} {fmt csid : Nat} {body rest : List UInt8}
    {cs : ChunkStream} (hready : s.fmtReady = false) (hfmt : fmt < 4)
    (hcsid : 2 ≤ csid ∧ csid < 64) (hbuffer : s.recvBuffer = UInt8.ofNat (fmt * 64 + csid) :: body)
    (hread : (s.atHeader fmt csid).currentChunkStream.readChunk fmt csid body = (.ok, cs, rest))
    : s.Fits
      ∧ receive h s
        = dispatch h ({ s.atHeader fmt csid with recvBuffer := rest }.putChunkStream cs) := by
  have hb : (UInt8.ofNat (fmt * 64 + csid)).toNat = fmt * 64 + csid := by
    rw [UInt8.toNat_ofNat']
    omega
  have hlow : 2 ≤ (UInt8.ofNat (fmt * 64 + csid)).toNat % 64 := by omega
  have hdiv : (fmt * 64 + csid) / 64 = fmt := by omega
  have hmod : (fmt * 64 + csid) % 64 = csid := by omega
  constructor
  . right
    simp only [hbuffer, List.head?_cons, Option.mem_some_iff, forall_eq', hlow]
  . unfold receive readChunkStream
    simp only [hready, Bool.false_eq_true, if_false, readFmtCsid_cons hbuffer hlow, hb, hdiv, hmod]
    rw [readMessage_eq hread]
    simp [putChunkStream, csKey, atHeader, hready]

theorem InStep.update {s : RtmpSessionBase} (s' : RtmpSessionBase) {σ : Sender} {csid size : Nat} {p : Progress}
    {cs : ChunkStream} (hs : s.InStep σ) (hcsid : csid < 64) (hbuffer : s'.recvBuffer = [])
    (hready : s'.fmtReady = false) (hsize : s'.chunkSize = size)
    (hmap : s'.csMap = Function.update s.csMap (UInt8.ofNat csid) (some cs)) (htracks : cs.Tracks p)
    : s'.InStep { size := size, inflight := Function.update σ.inflight csid p } := by
  constructor
  . exact hbuffer
  . exact hready
  . exact hsize
  . intro d hnone
    rw [hmap] at hnone
    by_cases hkey : UInt8.ofNat d = UInt8.ofNat csid
    . rw [hkey, Function.update_self] at hnone
      contradiction
    . rw [Function.update_of_ne hkey] at hnone
      have hne : d ≠ csid := by
        rintro rfl
        exact hkey rfl
      simp only [Function.update_of_ne hne]
      exact hs.absent d hnone
  . intro d cs' hd hd' hsome
    rw [hmap] at hsome
    by_cases hne : d = csid
    . rw [hne, Function.update_self, Option.some.injEq] at hsome
      simp only [hne, Function.update_self, ← hsome]
      exact htracks
    . have hkey : UInt8.ofNat d ≠ UInt8.ofNat csid := fun h => hne (ofNat_csid_inj hd' hcsid h)
      rw [Function.update_of_ne hkey] at hsome
      simp only [Function.update_of_ne hne]
      exact hs.tracks d cs' hd hd' hsome

theorem InStep.drains_chunk {s : RtmpSessionBase} {σ σ' : Sender} {c : Chunk} (hs : s.InStep σ)
    (hstep : σ.Step adjust c σ') (haccepts : h.Accepts adjust emit c.msg) (hpos : 0 < σ.size)
    : ∃ s', (chunkReader h).Drains (s.feed c.bytes) (if c.last then emit c.msg else []) s'
      ∧ s'.InStep σ' := by
  rcases hstep with ⟨hsize, hfollows, rfl⟩
  have hfmt : c.fmt < 4 := by
    rw [Chunk.fmt]
    split <;> omega
  have hcsid := And.intro c.msg.two_le_csid c.msg.csid_lt
  have htracks : (s.atHeader c.fmt c.msg.csid).currentChunkStream.Tracks (σ.inflight c.msg.csid) := by
    rw [currentChunkStream]
    split
    . next hnone =>
      rw [hs.absent c.msg.csid hnone]
      exact ChunkStream.tracks_new _ _ _
    . next cs hsome => exact (hs.tracks c.msg.csid cs hcsid.1 hcsid.2 hsome).setChunkSize _
  have hchunkSize : (s.atHeader c.fmt c.msg.csid).currentChunkStream.chunkSize = c.size := by
    rw [currentChunkStream_chunkSize, hsize]
    exact hs.chunkSize
  rcases ChunkStream.readChunk_follows htracks hfollows hchunkSize (by omega) with
    ⟨cs, hread, hext, hready, hafter⟩
  have hbuffer : (s.feed c.bytes).recvBuffer
      = UInt8.ofNat (c.fmt * 64 + c.msg.csid) :: c.body := by
    simp [feed, hs.recvBuffer, Chunk.bytes]
  have hready' : (s.feed c.bytes).fmtReady = false := hs.fmtReady
  rcases receive_chunk (h := h) hready' hfmt hcsid hbuffer hread with ⟨hfits, hreceive⟩
  have hbehind : { (s.feed c.bytes).atHeader c.fmt c.msg.csid with recvBuffer := [] }
      = s.atHeader c.fmt c.msg.csid := by
    simp [feed, atHeader, hs.recvBuffer]
  rw [hbehind] at hreceive
  simp only [dispatch, csPtr_putChunkStream, ChunkStream.isReady, hready] at hreceive
  cases hlast : c.last with
  | false =>
    simp only [hlast, Bool.false_eq_true, if_false] at hafter hreceive
    have hs' := InStep.update ((s.atHeader c.fmt c.msg.csid).putChunkStream cs) hs hcsid.2
      hs.recvBuffer hs.fmtReady hs.chunkSize rfl hafter
    exact ⟨_, .next hfits hreceive hs'.drains_nil, hs'⟩
  | true =>
    simp only [hlast, if_true] at hafter hreceive
    rcases haccepts ((s.atHeader c.fmt c.msg.csid).putChunkStream cs) cs hafter with
      ⟨s', hhandle, hsize', hmap⟩
    have hframe := h.handle_frame _ cs s' (by rw [hhandle])
    have hs' : s'.InStep {
        size := adjust σ.size c.msg,
        inflight := Function.update σ.inflight c.msg.csid c.after } := by
      rw [Chunk.after, if_pos hlast]
      refine hs.update s' hcsid.2 (hframe.1.trans hs.recvBuffer) (hframe.2.trans hs.fmtReady) ?_ ?_
        (ChunkStream.Tracks.reset hext)
      . rw [hsize', ← hs.chunkSize]
        rfl
      . rw [hmap, resetChunkStream, putChunkStream_putChunkStream]
        rfl
    rw [hhandle] at hreceive
    have := Reader.Drains.next (R := chunkReader h) hfits hreceive hs'.drains_nil
    rw [List.append_nil] at this
    exact ⟨s', this, hs'⟩

/--
What the handler emits for the chunks of a sender.
-/
def emitted (emit : RtmpMessage → List ε) (chunks : List Chunk) : List ε :=
  (chunks.filter Chunk.last).flatMap fun c => emit c.msg

theorem InStep.drains_run {s : RtmpSessionBase} {σ σ' : Sender} {chunks : List Chunk}
    (hs : s.InStep σ) (hrun : Interleave.Run (Sender.Step adjust) σ chunks σ')
    (haccepts : ∀ c ∈ chunks, h.Accepts adjust emit c.msg)
    (hadjust : ∀ size, ∀ c ∈ chunks, 0 < size → 0 < adjust size c.msg) (hpos : 0 < σ.size)
    : ∃ s', (chunkReader h).Drains (s.feed (chunks.flatMap Chunk.bytes)) (emitted emit chunks) s'
      ∧ s'.InStep σ' := by
  induction hrun generalizing s with
  | nil => exact ⟨s, by simpa [emitted] using hs.drains_nil, hs⟩
  | @cons σ₁ σ₂ σ₃ c chunks hstep _ ih =>
    rcases hs.drains_chunk hstep (haccepts c List.mem_cons_self) hpos with ⟨t, hdrains, ht⟩
    have hpos' : 0 < σ₂.size := by
      rw [hstep.2.2]
      simp only
      split
      . exact hadjust _ c List.mem_cons_self hpos
      . exact hpos
    rcases ih ht (fun c hc => haccepts c (List.mem_cons_of_mem _ hc))
      (fun size c hc => hadjust size c (List.mem_cons_of_mem _ hc)) hpos' with ⟨u, hdrains', hu⟩
    refine ⟨u, ?_, hu⟩
    have := Reader.Drains.append hdrains hdrains'
    simp only [emitted, List.filter_cons, List.flatMap_cons] at this ⊢
    cases hlast : c.last with
    | false =>
      simp only [hlast, Bool.false_eq_true, if_false, List.nil_append] at this ⊢
      exact this
    | true =>
      simp only [hlast, if_true, List.flatMap_cons] at this ⊢
      exact this

end RtmpSessionBase

end Rtmp
