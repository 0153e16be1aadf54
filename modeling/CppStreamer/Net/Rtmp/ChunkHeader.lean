import CppStreamer.Net.Rtmp.ChunkRoundTrip

/-!
This module contains the encoding of messages on one chunk stream with all four header formats and
extended timestamps, and the conditions under which `ReadChunkStream` decodes it.
-/

namespace Rtmp

open ByteStream Incremental

/--
A message with the format of its first header. The timestamp field is the absolute time for format 0
and the difference to the message before otherwise, a header of format 3 repeats it.
-/
structure SpecMessage where
  fmt : Nat
  field : Nat
  typeId : UInt8
  msgStreamId : Nat
  payload : List UInt8
  deriving DecidableEq, Repr

namespace SpecMessage

def isExt (m : SpecMessage) : Bool := decide (0xffffff ≤ m.field)

def extTs (m : SpecMessage) : List UInt8 := if m.isExt then write4Bytes m.field else []

def ts24 (m : SpecMessage) : Nat := if m.isExt then 0xffffff else m.field

def header (m : SpecMessage) : List UInt8 :=
  match m.fmt with
  | 0 =>
    write3Bytes m.ts24 ++ (write3Bytes m.payload.length ++ m.typeId :: write4Bytes m.msgStreamId)
  | 1 => write3Bytes m.ts24 ++ (write3Bytes m.payload.length ++ [m.typeId])
  | 2 => write3Bytes m.ts24
  | _ => []

def piece (m : SpecMessage) (offset size : Nat) : List UInt8 := (m.payload.drop offset).take size

/--
The first chunk behind its basic header, and the chunks that continue the message.
-/
def firstBody (m : SpecMessage) (size : Nat) : List UInt8 := m.header ++ (m.extTs ++ m.piece 0 size)

def nextBody (m : SpecMessage) (offset size : Nat) : List UInt8 := m.extTs ++ m.piece offset size

def tailChunks (csid size : Nat) (m : SpecMessage) : Nat → Nat → List UInt8
  | 0, _ => []
  | count + 1, offset =>
    UInt8.ofNat (3 * 64 + csid) :: (m.nextBody offset size ++ m.tailChunks csid size count (offset + size))

/--
The number of chunks behind the first one.
-/
def tailCount (m : SpecMessage) (size : Nat) : Nat := (m.payload.length - 1) / size

def bytes (csid size : Nat) (m : SpecMessage) : List UInt8 :=
  UInt8.ofNat (m.fmt * 64 + csid) ::
    (m.firstBody size ++ m.tailChunks csid size (m.tailCount size) size)

end SpecMessage

/--
What the messages up to now have put in force on the chunk stream.
-/
structure Timeline where
  time : Nat := 0
  explicitFmt : Option Nat := none
  field : Nat := 0
  msgLen : Nat := 0
  typeId : UInt8 := 0

namespace Timeline

def next (σ : Timeline) (m : SpecMessage) : Timeline where
  time := if m.fmt = 0 then m.field else (σ.time + m.field) % 2 ^ 32
  explicitFmt := if m.fmt = 3 then σ.explicitFmt else some m.fmt
  field := m.field
  msgLen := m.payload.length
  typeId := m.typeId

/--
The messages the specification allows next. The first one has a header of format 0, and a header only
leaves out what is in force already.
-/
structure Allows (σ : Timeline) (m : SpecMessage) : Prop where
  fmt_le : m.fmt ≤ 3
  field_lt : m.field < 2 ^ 32
  length_lt : m.payload.length < 2 ^ 24
  explicit : m.fmt ≠ 0 → σ.explicitFmt ≠ none
  length : 2 ≤ m.fmt → m.payload.length = σ.msgLen
  typeId : 2 ≤ m.fmt → m.typeId = σ.typeId
  repeated : m.fmt = 3 → m.field = σ.field ∧ (σ.explicitFmt = some 1 ∨ σ.explicitFmt = some 2)

def Step (σ : Timeline) (m : SpecMessage) (σ' : Timeline) : Prop := σ.Allows m ∧ σ' = σ.next m

/--
Timestamp, length, type and payload of the messages.
-/
def expected (σ : Timeline) : List SpecMessage → List (Nat × Nat × UInt8 × List UInt8)
  | [] => []
  | m :: ms =>
    ((σ.next m).time, m.payload.length, m.typeId, m.payload) :: (σ.next m).expected ms

end Timeline

def DecodedMessage.content (m : DecodedMessage) : Nat × Nat × UInt8 × List UInt8 :=
  (m.timestamp32, m.msgLen, m.typeId, m.chunkData)

/--
What the reader goes by instead: whether any header was extended, and the format of the last chunk.
-/
structure HeaderState where
  sticky : Bool := false
  lastFmt : Nat := 0

namespace HeaderState

def next (g : HeaderState) (m : SpecMessage) (size : Nat) : HeaderState where
  sticky := g.sticky || (decide (m.fmt ≤ 2) && m.isExt)
  lastFmt := if m.tailCount size = 0 then m.fmt else 3

/--
A header of format 3 that starts a message is understood behind a chunk of format 1 or 2 only, apart
from repeated messages of the same time. An extended timestamp is taken from it if there was any.
-/
def FirstOk (g : HeaderState) (m : SpecMessage) : Prop :=
  m.fmt = 3 → ((g.lastFmt = 1 ∨ g.lastFmt = 2) ∧ (g.sticky = true → m.isExt = true))
    ∨ (g.lastFmt = 3 ∧ m.field = 0)

/--
Once a header was extended, a chunk that continues a message is understood if its extended timestamp
is the time of the message, or if it has none and its payload cannot be taken for one.
-/
def NextOk (m : SpecMessage) (time : Nat) (payload : List UInt8) : Prop :=
  if m.isExt then m.field = time else 4 ≤ payload.length ∧ read4Bytes payload ≠ time

def TailOk (csid size : Nat) (m : SpecMessage) (time : Nat) (rest : List UInt8)
    : Nat → Nat → Prop
  | 0, _ => True
  | count + 1, offset =>
    NextOk m time (m.piece offset size ++ m.tailChunks csid size count (offset + size) ++ rest)
      ∧ TailOk csid size m time rest count (offset + size)

/--
The chunks of every message are understood.
-/
def AllOk (csid size : Nat) (σ : Timeline) (g : HeaderState) : List SpecMessage → Prop
  | [] => True
  | m :: ms =>
    g.FirstOk m
      ∧ ((g.next m size).sticky = true →
          TailOk csid size m (σ.next m).time (ms.flatMap (SpecMessage.bytes csid size))
            (m.tailCount size) size)
      ∧ AllOk csid size (σ.next m) (g.next m size) ms

end HeaderState

namespace ChunkStream

theorem readMsgFormat_eq_of_ext {cs : ChunkStream} {inputFmt inputCsid headerLen : Nat}
    {assign : ChunkStream → Nat → List UInt8 → ChunkStream} {header ext : List UInt8}
    (body : List UInt8) (hlen : header.length = headerLen) (h3 : 3 ≤ headerLen)
    (hts : 0xffffff ≤ read3Bytes header) (hext : ext.length = extTsLen)
    : cs.readMsgFormat inputFmt inputCsid (header ++ (ext ++ body)) headerLen assign
      = (.ok,
        assign { cs with fmt := inputFmt, csid := inputCsid, extTsFlag := true } (read4Bytes ext)
          header,
        body) := by
  have hread := read3Bytes_append header (ext ++ body) (by omega)
  have hlong : ¬(header ++ (ext ++ body)).length < headerLen := by
    simp only [List.length_append]
    omega
  have hlong' : ¬(header ++ (ext ++ body)).length < headerLen + extTsLen := by
    simp only [List.length_append]
    omega
  have hread4 := read4Bytes_append ext body (by rw [hext]; decide)
  unfold readMsgFormat
  simp only [if_neg hlong, hread, if_pos hts, if_neg hlong', List.take_left' hlen,
    List.drop_left' hlen, ← List.drop_drop, hread4]
  rw [List.drop_left' hext]

theorem readMsgFormat_field {cs : ChunkStream} {inputFmt inputCsid headerLen : Nat}
    {assign : ChunkStream → Nat → List UInt8 → ChunkStream} {m : SpecMessage}
    (fields body : List UInt8) (hlen : (write3Bytes m.ts24 ++ fields).length = headerLen)
    (hfield : m.field < 2 ^ 32)
    : cs.readMsgFormat inputFmt inputCsid (write3Bytes m.ts24 ++ fields ++ (m.extTs ++ body)) headerLen
        assign
      = (.ok,
        assign
          { cs with fmt := inputFmt, csid := inputCsid, extTsFlag := cs.extTsFlag || m.isExt }
          m.field (write3Bytes m.ts24 ++ fields),
        body) := by
  have h3 : 3 ≤ headerLen := by
    rw [← hlen, List.length_append, length_write3Bytes]
    omega
  have hts := read3Bytes_write3Bytes m.ts24 fields
  unfold SpecMessage.extTs
  cases hext : m.isExt with
  | true =>
    simp only [SpecMessage.ts24, hext, if_true] at hts hlen ⊢
    rw [readMsgFormat_eq_of_ext body hlen h3 (by omega) (length_write4Bytes _)]
    have := read4Bytes_write4Bytes m.field []
    rw [List.append_nil, Nat.mod_eq_of_lt hfield] at this
    rw [this, Bool.or_true]
  | false =>
    simp only [SpecMessage.ts24, hext, Bool.false_eq_true, if_false] at hts hlen ⊢
    simp only [SpecMessage.isExt, decide_eq_false_iff_not] at hext
    rw [Nat.mod_eq_of_lt (by omega)] at hts
    rw [List.nil_append, readMsgFormat_eq_of_lt body hlen h3 (by omega), hts, Bool.or_false]

/--
The chunk stream between two messages.
-/
structure Between (cs : ChunkStream) (σ : Timeline) (g : HeaderState) : Prop where
  phase : cs.phase = .header
  chunkReady : cs.chunkReady = false
  chunkData : cs.chunkData = []
  remain : cs.remain = 0
  extTsFlag : cs.extTsFlag = g.sticky
  sticky : σ.explicitFmt ≠ none → 0xffffff ≤ σ.field → g.sticky = true
  time_lt : σ.time < 2 ^ 32
  inForce : σ.explicitFmt ≠ none → cs.timestamp32 = σ.time ∧ cs.msgLen = σ.msgLen
    ∧ cs.typeId = σ.typeId ∧ cs.fmt = g.lastFmt
  timestampDelta : σ.explicitFmt = some 1 ∨ σ.explicitFmt = some 2 → cs.timestampDelta = σ.field

/--
The chunk stream inside of a message of which `offset` bytes have been read.
-/
structure Carries (cs : ChunkStream) (σ : Timeline) (m : SpecMessage) (sticky : Bool) (offset : Nat)
    : Prop where
  chunkReady : cs.chunkReady = false
  extTsFlag : cs.extTsFlag = sticky
  remain : cs.remain = m.payload.length - offset
  timestamp32 : cs.timestamp32 = σ.time
  msgLen : cs.msgLen = m.payload.length
  typeId : cs.typeId = m.typeId
  chunkData : cs.chunkData = m.payload.take offset
  timestampDelta : σ.explicitFmt = some 1 ∨ σ.explicitFmt = some 2 → cs.timestampDelta = m.field

theorem Between.readMsgFormat0 {cs : ChunkStream} {σ : Timeline} {g : HeaderState} {m : SpecMessage}
    (h : cs.Between σ g) (hm : σ.Allows m) (hfmt : m.fmt = 0) (csid : Nat) (body : List UInt8)
    : ∃ cs', cs.readMsgFormat0 0 csid (m.header ++ (m.extTs ++ body)) = (.ok, cs', body)
      ∧ cs'.fmt = 0 ∧ cs'.chunkSize = cs.chunkSize
      ∧ cs'.Carries (σ.next m) m (g.sticky || m.isExt) 0 := by
  have hlen : read3Bytes (write3Bytes m.payload.length ++ m.typeId :: write4Bytes m.msgStreamId)
      = m.payload.length := by
    rw [read3Bytes_write3Bytes, Nat.mod_eq_of_lt hm.length_lt]
  unfold SpecMessage.header ChunkStream.readMsgFormat0
  simp only [hfmt]
  refine ⟨_, readMsgFormat_field _ body rfl hm.field_lt, rfl, rfl, ?_⟩
  constructor
  . exact h.chunkReady
  . simp only [assignFormat0, h.extTsFlag]
  . exact hlen
  . simp only [assignFormat0, Timeline.next, hfmt, if_true]
  . exact hlen
  . rfl
  . exact h.chunkData
  . simp [Timeline.next, hfmt]

theorem Between.readMsgFormat1 {cs : ChunkStream} {σ : Timeline} {g : HeaderState} {m : SpecMessage}
    (h : cs.Between σ g) (hm : σ.Allows m) (hfmt : m.fmt = 1) (csid : Nat) (body : List UInt8)
    : ∃ cs', cs.readMsgFormat1 1 csid (m.header ++ (m.extTs ++ body)) = (.ok, cs', body)
      ∧ cs'.fmt = 1 ∧ cs'.chunkSize = cs.chunkSize
      ∧ cs'.Carries (σ.next m) m (g.sticky || m.isExt) 0 := by
  have hlen : read3Bytes (write3Bytes m.payload.length ++ [m.typeId]) = m.payload.length := by
    rw [read3Bytes_write3Bytes, Nat.mod_eq_of_lt hm.length_lt]
  have hforce := h.inForce (hm.explicit (by omega))
  unfold SpecMessage.header ChunkStream.readMsgFormat1
  simp only [hfmt]
  refine ⟨_, readMsgFormat_field _ body rfl hm.field_lt, rfl, rfl, ?_⟩
  constructor
  . exact h.chunkReady
  . simp only [assignFormat1, h.extTsFlag]
  . exact hlen
  . simp [assignFormat1, Timeline.next, hfmt, hforce]
  . exact hlen
  . rfl
  . exact h.chunkData
  . simp [assignFormat1]

theorem Between.readMsgFormat2 {cs : ChunkStream} {σ : Timeline} {g : HeaderState} {m : SpecMessage}
    (h : cs.Between σ g) (hm : σ.Allows m) (hfmt : m.fmt = 2) (csid : Nat) (body : List UInt8)
    : ∃ cs', cs.readMsgFormat2 2 csid (m.header ++ (m.extTs ++ body)) = (.ok, cs', body)
      ∧ cs'.fmt = 2 ∧ cs'.chunkSize = cs.chunkSize
      ∧ cs'.Carries (σ.next m) m (g.sticky || m.isExt) 0 := by
  have hforce := h.inForce (hm.explicit (by omega))
  have hlen := hm.length (by omega)
  have htype := hm.typeId (by omega)
  unfold SpecMessage.header ChunkStream.readMsgFormat2
  simp only [hfmt]
  rw [← List.append_nil (write3Bytes m.ts24)]
  refine ⟨_, readMsgFormat_field _ body rfl hm.field_lt, rfl, rfl, ?_⟩
  constructor
  . exact h.chunkReady
  . simp only [assignFormat2, h.extTsFlag]
  . simp [assignFormat2, hforce, hlen]
  . simp [assignFormat2, Timeline.next, hfmt, hforce]
  . simp [assignFormat2, hforce, hlen]
  . simp [assignFormat2, hforce, htype]
  . exact h.chunkData
  . simp [assignFormat2]

theorem Between.readMsgFormat3 {cs : ChunkStream} {σ : Timeline} {g : HeaderState} {m : SpecMessage}
    (h : cs.Between σ g) (hm : σ.Allows m) (hfmt : m.fmt = 3) (hok : g.FirstOk m) (csid : Nat)
    (body : List UInt8)
    : ∃ cs', cs.readMsgFormat3 3 csid (m.header ++ (m.extTs ++ body)) = (.ok, cs', body)
      ∧ cs'.fmt = 3 ∧ cs'.chunkSize = cs.chunkSize
      ∧ cs'.Carries (σ.next m) m g.sticky 0 := by
  have hexplicit := hm.explicit (by omega)
  have hforce := h.inForce hexplicit
  have hrepeated := hm.repeated hfmt
  have hlen := hm.length (by omega)
  have htype := hm.typeId (by omega)
  have hdelta := h.timestampDelta hrepeated.2
  have hheader : m.header = [] := by simp [SpecMessage.header, hfmt]
  have htime : (σ.next m).time = (σ.time + m.field) % 2 ^ 32 := by simp [Timeline.next, hfmt]
  unfold ChunkStream.readMsgFormat3
  rw [if_pos h.remain, hheader, List.nil_append, hforce.2.2.2, h.extTsFlag]
  -- the timestamp of the new message is the only thing that can go wrong
  have hdone (cs' : ChunkStream) (htime : cs'.timestamp32 = (σ.next m).time)
      (hsame : cs'.extTsFlag = g.sticky ∧ cs'.msgLen = cs.msgLen ∧ cs'.typeId = cs.typeId
        ∧ cs'.timestampDelta = cs.timestampDelta)
      : (cs'.startMsgFormat3 3 csid).Carries (σ.next m) m g.sticky 0 := by
    constructor
    . rfl
    . exact hsame.1
    . simp [startMsgFormat3, hsame, hforce, hlen]
    . exact htime
    . simp [startMsgFormat3, hsame, hforce, hlen]
    . simp [startMsgFormat3, hsame, hforce, htype]
    . rfl
    . simp [startMsgFormat3, hsame, hdelta, hrepeated.1]
  rcases hok hfmt with ⟨hlast, hext⟩ | ⟨hlast, hfield⟩
  . have hle : g.lastFmt ≤ 2 := by omega
    cases hsticky : g.sticky with
    | true =>
      have hread : read4Bytes (write4Bytes m.field ++ body) = m.field := by
        rw [read4Bytes_write4Bytes, Nat.mod_eq_of_lt hm.field_lt]
      have hlong : ¬(write4Bytes m.field ++ body).length < extTsLen := by
        simp [extTsLen]
      have hne : g.lastFmt ≠ 0 := by omega
      simp only [SpecMessage.extTs, hext hsticky, if_true, hle, and_self, if_neg hlong, hread,
        if_neg hne]
      refine ⟨_, rfl, rfl, rfl, ?_⟩
      rw [← hsticky]
      apply hdone
      . rw [htime, hforce.1]
      . exact ⟨rfl, rfl, rfl, rfl⟩
    | false =>
      have hext : m.isExt = false := by
        by_contra hne
        have := h.sticky hexplicit (by simpa [SpecMessage.isExt, hrepeated.1] using hne)
        simp [hsticky] at this
      simp only [SpecMessage.extTs, hext, Bool.false_eq_true, if_false, false_and, if_pos hlast,
        List.nil_append]
      refine ⟨_, rfl, rfl, rfl, ?_⟩
      rw [← hsticky]
      apply hdone
      . rw [htime, hforce.1, hdelta, hrepeated.1]
      . exact ⟨rfl, rfl, rfl, rfl⟩
  . have hext : m.isExt = false := by simp [SpecMessage.isExt, hfield]
    have hskip : ¬(g.sticky = true ∧ 3 ≤ 2) := by omega
    have hother : ¬(3 = 1 ∨ 3 = 2) := by omega
    simp only [SpecMessage.extTs, hext, Bool.false_eq_true, if_false, hlast, if_neg hskip,
      if_neg hother, List.nil_append]
    refine ⟨_, rfl, rfl, rfl, ?_⟩
    apply hdone
    . rw [htime, hforce.1, hfield, Nat.add_zero, Nat.mod_eq_of_lt h.time_lt]
    . exact ⟨h.extTsFlag, rfl, rfl, rfl⟩

theorem Between.readMessageHeader {cs : ChunkStream} {σ : Timeline} {g : HeaderState}
    {m : SpecMessage} (h : cs.Between σ g) (hm : σ.Allows m) (hok : g.FirstOk m) (size csid : Nat)
    (body : List UInt8)
    : ∃ cs', cs.readMessageHeader m.fmt csid (m.header ++ (m.extTs ++ body)) = (.ok, cs', body)
      ∧ cs'.phase = .payload ∧ cs'.fmt = m.fmt ∧ cs'.chunkSize = cs.chunkSize
      ∧ cs'.Carries (σ.next m) m (g.next m size).sticky 0 := by
  have hread : ∃ cs', cs.readMsgByFormat m.fmt csid (m.header ++ (m.extTs ++ body))
        = (.ok, cs', body)
      ∧ cs'.fmt = m.fmt ∧ cs'.chunkSize = cs.chunkSize
      ∧ cs'.Carries (σ.next m) m (g.next m size).sticky 0 := by
    have hle := hm.fmt_le
    have hcases : m.fmt = 0 ∨ m.fmt = 1 ∨ m.fmt = 2 ∨ m.fmt = 3 := by omega
    unfold readMsgByFormat HeaderState.next
    rcases hcases with hfmt | hfmt | hfmt | hfmt
    . simpa [hfmt] using h.readMsgFormat0 hm hfmt csid body
    . simpa [hfmt] using h.readMsgFormat1 hm hfmt csid body
    . simpa [hfmt] using h.readMsgFormat2 hm hfmt csid body
    . simpa [hfmt] using h.readMsgFormat3 hm hfmt hok csid body
  rcases hread with ⟨cs', hread, hfmt, hsize, hcarries⟩
  unfold ChunkStream.readMessageHeader
  simp only [h.phase, hread]
  refine ⟨_, rfl, rfl, hfmt, hsize, ?_⟩
  constructor
  . exact hcarries.chunkReady
  . exact hcarries.extTsFlag
  . exact hcarries.remain
  . exact hcarries.timestamp32
  . exact hcarries.msgLen
  . exact hcarries.typeId
  . exact hcarries.chunkData
  . exact hcarries.timestampDelta

theorem Carries.readMessageHeader {cs : ChunkStream} {σ : Timeline} {m : SpecMessage}
    {sticky : Bool} {offset : Nat} {body : List UInt8} (h : cs.Carries σ m sticky offset) (csid : Nat)
    (hphase : cs.phase = .header) (hoffset : offset < m.payload.length)
    (hext : m.isExt = true → sticky = true) (hfield : m.field < 2 ^ 32)
    (hok : sticky = true → HeaderState.NextOk m σ.time body)
    : ∃ cs', cs.readMessageHeader 3 csid (m.extTs ++ body) = (.ok, cs', body)
      ∧ cs'.phase = .payload ∧ cs'.fmt = 3 ∧ cs'.chunkSize = cs.chunkSize
      ∧ cs'.Carries σ m sticky offset := by
  have hremain : cs.remain ≠ 0 := by have := h.remain; omega
  have hread : cs.readMsgFormat3 3 csid (m.extTs ++ body)
      = (.ok, { cs with fmt := 3, csid := csid }, body) := by
    unfold readMsgFormat3
    rw [if_neg hremain]
    cases hsticky : sticky with
    | false =>
      have hnot : m.isExt = false := by
        by_contra hne
        simp [hext (by simpa using hne)] at hsticky
      simp [h.extTsFlag, hsticky, SpecMessage.extTs, hnot]
    | true =>
      have hnext := hok hsticky
      unfold HeaderState.NextOk at hnext
      rw [h.extTsFlag, hsticky, if_pos rfl, h.timestamp32]
      split at hnext
      . next hisExt =>
        have hlong : ¬(write4Bytes m.field ++ body).length < extTsLen := by simp [extTsLen]
        have hread : read4Bytes (write4Bytes m.field ++ body) = σ.time := by
          rw [read4Bytes_write4Bytes, Nat.mod_eq_of_lt hfield, hnext]
        simp only [SpecMessage.extTs, hisExt, if_true, if_neg hlong, hread]
        rfl
      . next hisExt =>
        have hlong : ¬body.length < extTsLen := by simp only [extTsLen]; omega
        simp only [SpecMessage.extTs, hisExt, Bool.false_eq_true, if_false, List.nil_append,
          if_neg hlong, if_neg hnext.2]
  unfold ChunkStream.readMessageHeader readMsgByFormat
  simp only [hphase, hread]
  refine ⟨_, rfl, rfl, rfl, rfl, ?_⟩
  constructor
  . exact h.chunkReady
  . exact h.extTsFlag
  . exact h.remain
  . exact h.timestamp32
  . exact h.msgLen
  . exact h.typeId
  . exact h.chunkData
  . exact h.timestampDelta

theorem Carries.readMessagePayload {cs : ChunkStream} {σ : Timeline} {m : SpecMessage}
    {sticky : Bool} {offset : Nat} (h : cs.Carries σ m sticky offset) (hphase : cs.phase = .payload)
    (hoffset : offset ≤ m.payload.length) (rest : List UInt8)
    : ∃ cs', cs.readMessagePayload (m.piece offset cs.chunkSize ++ rest) = (.ok, cs', rest)
      ∧ cs'.phase = .header ∧ cs'.fmt = cs.fmt ∧ cs'.chunkSize = cs.chunkSize
      ∧ cs'.chunkReady = decide (m.payload.length ≤ offset + cs.chunkSize)
      ∧ cs'.decoded.content = (σ.time, m.payload.length, m.typeId, m.payload.take (offset + cs.chunkSize))
      ∧ { cs' with chunkReady := false }.Carries σ m sticky (offset + cs.chunkSize) := by
  have hpiece : (m.piece offset cs.chunkSize).length = min cs.chunkSize (m.payload.length - offset) := by
    unfold SpecMessage.piece
    rw [List.length_take, List.length_drop]
  have hremain := h.remain
  have hlen : (m.piece offset cs.chunkSize).length = cs.requireLen := by
    unfold requireLen
    split
    . omega
    . omega
  have hdata : cs.chunkData ++ m.piece offset cs.chunkSize
      = m.payload.take (offset + cs.chunkSize) := by
    unfold SpecMessage.piece
    rw [h.chunkData, List.take_add]
  refine ⟨_, readMessagePayload_eq rest hphase hlen, rfl, rfl, rfl, ?_, ?_, ?_⟩
  . rw [h.chunkReady, Bool.false_or, decide_eq_decide]
    omega
  . simp [decoded, DecodedMessage.content, h.timestamp32, h.msgLen, h.typeId, hdata]
  . constructor
    . rfl
    . exact h.extTsFlag
    . simp only
      omega
    . exact h.timestamp32
    . exact h.msgLen
    . exact h.typeId
    . exact hdata
    . exact h.timestampDelta

theorem Between.readChunk {cs : ChunkStream} {σ : Timeline} {g : HeaderState} {m : SpecMessage}
    (h : cs.Between σ g) (hm : σ.Allows m) (hok : g.FirstOk m) (csid : Nat) (rest : List UInt8)
    : ∃ cs', cs.readChunk m.fmt csid (m.firstBody cs.chunkSize ++ rest) = (.ok, cs', rest)
      ∧ cs'.phase = .header ∧ cs'.fmt = m.fmt ∧ cs'.chunkSize = cs.chunkSize
      ∧ cs'.chunkReady = decide (m.payload.length ≤ cs.chunkSize)
      ∧ cs'.decoded.content
        = ((σ.next m).time, m.payload.length, m.typeId, m.payload.take cs.chunkSize)
      ∧ { cs' with chunkReady := false }.Carries (σ.next m) m (g.next m cs.chunkSize).sticky
          cs.chunkSize := by
  rcases h.readMessageHeader hm hok cs.chunkSize csid (m.piece 0 cs.chunkSize ++ rest) with
    ⟨cs₁, hread, hphase, hfmt, hsize, hcarries⟩
  have hpayload := hcarries.readMessagePayload hphase (by omega) rest
  simp only [hsize, hfmt, Nat.zero_add] at hpayload
  rcases hpayload with ⟨cs', hpayload, hafter⟩
  refine ⟨cs', ?_, hafter⟩
  unfold ChunkStream.readChunk SpecMessage.firstBody
  simp only [List.append_assoc, hread, hpayload]

theorem Carries.readChunk {cs : ChunkStream} {σ : Timeline} {m : SpecMessage} {sticky : Bool}
    {offset : Nat} (h : cs.Carries σ m sticky offset) (hphase : cs.phase = .header)
    (hoffset : offset < m.payload.length) (hext : m.isExt = true → sticky = true)
    (hfield : m.field < 2 ^ 32) (csid : Nat) (rest : List UInt8)
    (hok : sticky = true → HeaderState.NextOk m σ.time (m.piece offset cs.chunkSize ++ rest))
    : ∃ cs', cs.readChunk 3 csid (m.nextBody offset cs.chunkSize ++ rest) = (.ok, cs', rest)
      ∧ cs'.phase = .header ∧ cs'.fmt = 3 ∧ cs'.chunkSize = cs.chunkSize
      ∧ cs'.chunkReady = decide (m.payload.length ≤ offset + cs.chunkSize)
      ∧ cs'.decoded.content
        = (σ.time, m.payload.length, m.typeId, m.payload.take (offset + cs.chunkSize))
      ∧ { cs' with chunkReady := false }.Carries σ m sticky (offset + cs.chunkSize) := by
  rcases h.readMessageHeader csid hphase hoffset hext hfield hok with
    ⟨cs₁, hread, hphase', hfmt, hsize, hcarries⟩
  have hpayload := hcarries.readMessagePayload hphase' (by omega) rest
  simp only [hsize, hfmt] at hpayload
  rcases hpayload with ⟨cs', hpayload, hafter⟩
  refine ⟨cs', ?_, hafter⟩
  unfold ChunkStream.readChunk SpecMessage.nextBody
  simp only [List.append_assoc, hread, hpayload]

theorem Carries.reset {cs : ChunkStream} {σ : Timeline} {g : HeaderState} {m : SpecMessage}
    {size offset : Nat}
    (h : { cs with chunkReady := false }.Carries (σ.next m) m (g.next m size).sticky offset)
    (hm : σ.Allows m) (hlast : m.payload.length ≤ offset) (hfmt : cs.fmt = (g.next m size).lastFmt)
    (hsticky : σ.explicitFmt ≠ none → 0xffffff ≤ σ.field → g.sticky = true)
    : cs.reset.Between (σ.next m) (g.next m size) := by
  constructor
  . rfl
  . rfl
  . rfl
  . have := h.remain
    simp only [ChunkStream.reset] at this ⊢
    omega
  . exact h.extTsFlag
  . intro _ hfield
    simp only [Timeline.next] at hfield
    unfold HeaderState.next
    by_cases hrepeated : m.fmt = 3
    . have := hm.repeated hrepeated
      have := hsticky (hm.explicit (by omega)) (by omega)
      simp [this]
    . have := hm.fmt_le
      have hle : m.fmt ≤ 2 := by omega
      simp [hle, SpecMessage.isExt, hfield]
  . unfold Timeline.next
    simp only
    split
    . exact hm.field_lt
    . exact Nat.mod_lt _ (by decide)
  . intro _
    exact ⟨h.timestamp32, h.msgLen, h.typeId, hfmt⟩
  . exact h.timestampDelta

end ChunkStream

namespace RtmpSessionBase

/--
A session at a chunk boundary with `buffer` still to be read, whose chunk stream `csid` satisfies `P`.
-/
structure Awaits (s : RtmpSessionBase) (csid size : Nat) (P : ChunkStream → Prop)
    (buffer : List UInt8) : Prop where
  recvBuffer : s.recvBuffer = buffer
  fmtReady : s.fmtReady = false
  chunkSize : s.chunkSize = size
  current : ∀ fmt, P (s.atHeader fmt csid).currentChunkStream

theorem Awaits.mono {s : RtmpSessionBase} {csid size : Nat} {P Q : ChunkStream → Prop}
    {buffer : List UInt8} (h : s.Awaits csid size P buffer) (hPQ : ∀ cs, P cs → Q cs)
    : s.Awaits csid size Q buffer where
  recvBuffer := h.recvBuffer
  fmtReady := h.fmtReady
  chunkSize := h.chunkSize
  current fmt := hPQ _ (h.current fmt)

theorem Awaits.receive {s : RtmpSessionBase} {csid size fmt : Nat} {P : ChunkStream → Prop}
    {body rest : List UInt8} {cs : ChunkStream}
    (hs : s.Awaits csid size P (UInt8.ofNat (fmt * 64 + csid) :: body)) (hfmt : fmt < 4)
    (hcsid : 2 ≤ csid ∧ csid < 64)
    (hread : (s.atHeader fmt csid).currentChunkStream.readChunk fmt csid body = (.ok, cs, rest))
    (hsize : cs.chunkSize = size)
    : ∃ t, t.Awaits csid size (fun cs' => cs' = if cs.chunkReady then cs.reset else cs) rest
      ∧ ∀ out u, (chunkReader readyHandler).Drains t out u →
          (chunkReader readyHandler).Drains s
            ((if cs.chunkReady then [cs.decoded] else []) ++ out) u := by
  rcases receive_chunk (h := readyHandler) hs.fmtReady hfmt hcsid hs.recvBuffer hread with
    ⟨hfits, hreceive⟩
  generalize hput : { s.atHeader fmt csid with recvBuffer := rest }.putChunkStream cs = t at hreceive
  have hptr : t.csPtr = some cs := by rw [← hput, csPtr_putChunkStream]
  have hcurrent (cs' : ChunkStream) (hsize' : cs'.chunkSize = size) (fmt' : Nat)
      : ((t.putChunkStream cs').atHeader fmt' csid).currentChunkStream = cs' := by
    have hkey : (t.putChunkStream cs').atHeader fmt' csid
        = (t.atHeader fmt' csid).putChunkStream cs' := by
      rw [← hput]
      rfl
    rw [hkey]
    apply currentChunkStream_putChunkStream
    rw [hsize', ← hs.chunkSize, ← hput]
    rfl
  have hawaits (cs' : ChunkStream) (hsize' : cs'.chunkSize = size)
      : (t.putChunkStream cs').Awaits csid size (fun cs => cs = cs') rest := by
    constructor
    . rw [← hput]
      rfl
    . rw [← hput]
      exact hs.fmtReady
    . rw [← hs.chunkSize, ← hput]
      rfl
    . exact hcurrent cs' hsize'
  unfold dispatch at hreceive
  simp only [hptr, ChunkStream.isReady] at hreceive
  cases hready : cs.chunkReady with
  | false =>
    simp only [hready, Bool.false_eq_true, if_false] at hreceive
    refine ⟨t, ?_, fun out u hd => ?_⟩
    . have hsame : t.putChunkStream cs = t := by
        rw [← hput, putChunkStream_putChunkStream]
      have := hawaits cs hsize
      rw [hsame] at this
      simpa using this
    . exact .next hfits hreceive hd
  | true =>
    simp only [hready, if_true] at hreceive
    refine ⟨t.putChunkStream cs.reset, ?_, fun out u hd => ?_⟩
    . simpa using hawaits cs.reset hsize
    . exact .next hfits hreceive hd

theorem isExt_sticky {σ : Timeline} {g : HeaderState} {m : SpecMessage} (size : Nat)
    (hm : σ.Allows m) (hsticky : σ.explicitFmt ≠ none → 0xffffff ≤ σ.field → g.sticky = true)
    (hext : m.isExt = true)
    : (g.next m size).sticky = true := by
  unfold HeaderState.next
  by_cases hfmt : m.fmt = 3
  . have hfield := (hm.repeated hfmt).1
    simp only [SpecMessage.isExt, decide_eq_true_eq] at hext
    have := hsticky (hm.explicit (by omega)) (by omega)
    simp [this]
  . have := hm.fmt_le
    have hle : m.fmt ≤ 2 := by omega
    simp [hle, hext]

theorem Awaits.drains_tail {s : RtmpSessionBase} {csid size offset count : Nat} {σ : Timeline}
    {g : HeaderState} {m : SpecMessage} {rest : List UInt8} (hcsid : 2 ≤ csid ∧ csid < 64)
    (hs : s.Awaits csid size
      (fun cs => cs.phase = .header ∧ cs.Carries (σ.next m) m (g.next m size).sticky offset)
      (m.tailChunks csid size (count + 1) offset ++ rest))
    (hm : σ.Allows m) (hsticky : σ.explicitFmt ≠ none → 0xffffff ≤ σ.field → g.sticky = true)
    (htail : (g.next m size).lastFmt = 3)
    (hlast : offset + count * size < m.payload.length)
    (hend : m.payload.length ≤ offset + (count + 1) * size)
    (hok : (g.next m size).sticky = true →
      HeaderState.TailOk csid size m (σ.next m).time rest (count + 1) offset)
    : ∃ t d, d.content = ((σ.next m).time, m.payload.length, m.typeId, m.payload)
      ∧ t.Awaits csid size (fun cs => cs.Between (σ.next m) (g.next m size)) rest
      ∧ ∀ out u, (chunkReader readyHandler).Drains t out u →
          (chunkReader readyHandler).Drains s (d :: out) u := by
  induction count generalizing s offset with
  | zero =>
    simp only [SpecMessage.tailChunks, List.cons_append, List.append_assoc] at hs
    rcases hs.current 3 with ⟨hphase, hcarries⟩
    have hsize := (currentChunkStream_chunkSize (s.atHeader 3 csid)).trans hs.chunkSize
    have hread := hcarries.readChunk hphase (by omega) (isExt_sticky size hm hsticky) hm.field_lt
      csid rest
    simp only [hsize] at hread
    rcases hread (fun h => by simpa [SpecMessage.tailChunks] using (hok h).1) with
      ⟨cs, hread, _, hfmt, hsize', hready, hcontent, hafter⟩
    rcases hs.receive (by omega) hcsid hread hsize' with ⟨t, ht, hdrains⟩
    have hend' : m.payload.length ≤ offset + size := by omega
    simp only [hready, decide_eq_true hend', if_true, List.singleton_append] at ht hdrains
    rw [List.take_of_length_le hend'] at hcontent
    refine ⟨t, cs.decoded, hcontent, ht.mono ?_, hdrains⟩
    rintro _ rfl
    exact hafter.reset hm hend' (hfmt.trans htail.symm) hsticky
  | succ count ih =>
    rw [SpecMessage.tailChunks, List.cons_append, List.append_assoc] at hs
    rcases hs.current 3 with ⟨hphase, hcarries⟩
    have hsize := (currentChunkStream_chunkSize (s.atHeader 3 csid)).trans hs.chunkSize
    have hmul : (count + 1) * size = count * size + size := Nat.succ_mul count size
    have hread := hcarries.readChunk hphase (by omega) (isExt_sticky size hm hsticky) hm.field_lt
      csid (m.tailChunks csid size (count + 1) (offset + size) ++ rest)
    simp only [hsize] at hread
    rcases hread (fun h => by simpa using (hok h).1) with
      ⟨cs, hread, hphase', _, hsize', hready, _, hafter⟩
    rcases hs.receive (by omega) hcsid hread hsize' with ⟨t, ht, hdrains⟩
    have hmore : ¬m.payload.length ≤ offset + size := by omega
    simp only [hready, decide_eq_false hmore, Bool.false_eq_true, if_false, List.nil_append]
      at ht hdrains
    have hnotReady : ({ cs with chunkReady := false } : ChunkStream) = cs := by
      rw [decide_eq_false hmore] at hready
      rw [← hready]
    rw [hnotReady] at hafter
    have ht' := ht.mono (Q := fun cs => cs.phase = .header
      ∧ cs.Carries (σ.next m) m (g.next m size).sticky (offset + size)) (by
        rintro _ rfl
        exact ⟨hphase', hafter⟩)
    rcases ih ht' (by omega) (by rw [Nat.succ_mul] at hend; omega) (fun h => (hok h).2) with
      ⟨t', d, hd, ht', hdrains'⟩
    exact ⟨t', d, hd, ht', fun out u hu => hdrains _ _ (hdrains' out u hu)⟩

theorem Awaits.drains_message {s : RtmpSessionBase} {csid size : Nat} {σ : Timeline}
    {g : HeaderState} {m : SpecMessage} {rest : List UInt8} (hcsid : 2 ≤ csid ∧ csid < 64)
    (hpos : 0 < size)
    (hs : s.Awaits csid size (fun cs => cs.Between σ g) (m.bytes csid size ++ rest))
    (hm : σ.Allows m) (hfirst : g.FirstOk m)
    (hok : (g.next m size).sticky = true →
      HeaderState.TailOk csid size m (σ.next m).time rest (m.tailCount size) size)
    : ∃ t d, d.content = ((σ.next m).time, m.payload.length, m.typeId, m.payload)
      ∧ t.Awaits csid size (fun cs => cs.Between (σ.next m) (g.next m size)) rest
      ∧ ∀ out u, (chunkReader readyHandler).Drains t out u →
          (chunkReader readyHandler).Drains s (d :: out) u := by
  unfold SpecMessage.bytes at hs
  rw [List.cons_append, List.append_assoc] at hs
  have hbetween := hs.current m.fmt
  have hsize := (currentChunkStream_chunkSize (s.atHeader m.fmt csid)).trans hs.chunkSize
  have hread := hbetween.readChunk hm hfirst csid
    (m.tailChunks csid size (m.tailCount size) size ++ rest)
  simp only [hsize] at hread
  rcases hread with ⟨cs, hread, hphase, hfmt, hsize', hready, hcontent, hafter⟩
  have hfmtLt : m.fmt < 4 := by have := hm.fmt_le; omega
  rcases hs.receive hfmtLt hcsid hread hsize' with ⟨t, ht, hdrains⟩
  have hdiv := Nat.div_add_mod (m.payload.length - 1) size
  have hmod := Nat.mod_lt (m.payload.length - 1) hpos
  rw [Nat.mul_comm] at hdiv
  cases htail : m.tailCount size with
  | zero =>
    have hend : m.payload.length ≤ size := by
      unfold SpecMessage.tailCount at htail
      rw [htail, Nat.zero_mul] at hdiv
      omega
    simp only [hready, decide_eq_true hend, if_true, List.singleton_append] at ht hdrains
    rw [List.take_of_length_le hend] at hcontent
    refine ⟨t, cs.decoded, hcontent, ?_, hdrains⟩
    simp only [htail, SpecMessage.tailChunks, List.nil_append] at ht
    apply ht.mono
    rintro _ rfl
    refine hafter.reset hm hend ?_ hbetween.sticky
    unfold HeaderState.next
    rw [hfmt, if_pos htail]
  | succ count =>
    have hmul : (count + 1) * size = count * size + size := Nat.succ_mul count size
    unfold SpecMessage.tailCount at htail
    rw [htail] at hdiv
    have hmore : ¬m.payload.length ≤ size := by omega
    simp only [hready, decide_eq_false hmore, Bool.false_eq_true, if_false, List.nil_append]
      at ht hdrains
    have hnotReady : ({ cs with chunkReady := false } : ChunkStream) = cs := by
      rw [decide_eq_false hmore] at hready
      rw [← hready]
    rw [hnotReady] at hafter
    have hlastFmt : (g.next m size).lastFmt = 3 := by
      unfold HeaderState.next SpecMessage.tailCount
      simp [htail]
    have htail' : m.tailCount size = count + 1 := htail
    rw [htail'] at ht hok
    have ht' := ht.mono (Q := fun cs => cs.phase = .header
      ∧ cs.Carries (σ.next m) m (g.next m size).sticky size) (by
        rintro _ rfl
        exact ⟨hphase, hafter⟩)
    rcases ht'.drains_tail hcsid hm hbetween.sticky hlastFmt (by omega) (by omega) hok with
      ⟨t', d, hd, ht', hdrains'⟩
    exact ⟨t', d, hd, ht', fun out u hu => hdrains _ _ (hdrains' out u hu)⟩

theorem Awaits.drains_messages {s : RtmpSessionBase} {csid size : Nat} {σ σ' : Timeline}
    {g : HeaderState} {msgs : List SpecMessage} (hcsid : 2 ≤ csid ∧ csid < 64) (hpos : 0 < size)
    (hs : s.Awaits csid size (fun cs => cs.Between σ g) (msgs.flatMap (SpecMessage.bytes csid size)))
    (hrun : Interleave.Run Timeline.Step σ msgs σ') (hok : HeaderState.AllOk csid size σ g msgs)
    : ∃ out u, (chunkReader readyHandler).Drains s out u
      ∧ out.map DecodedMessage.content = σ.expected msgs ∧ u.recvBuffer = [] := by
  induction hrun generalizing s g with
  | nil => exact ⟨[], s, drains_of_empty hs.recvBuffer hs.fmtReady, rfl, hs.recvBuffer⟩
  | @cons σ σ₁ σ' m msgs hstep _ ih =>
    rcases hstep with ⟨hm, rfl⟩
    rcases hok with ⟨hfirst, htail, hok⟩
    rw [List.flatMap_cons] at hs
    rcases hs.drains_message hcsid hpos hm hfirst htail with ⟨t, d, hd, ht, hdrains⟩
    rcases ih ht hok with ⟨out, u, hout, hcontent, hu⟩
    refine ⟨d :: out, u, hdrains out u hout, ?_, hu⟩
    rw [List.map_cons, hcontent, hd]
    rfl

/--
On one chunk stream, messages that the reader understands arrive with the timestamps, lengths, types
and payloads that the specification gives them, wherever the bytes are cut.
-/
theorem readChunkStream_headers (csid size : Nat) (hcsid : 2 ≤ csid ∧ csid < 64) (hpos : 0 < size)
    (msgs : List SpecMessage) (σ : Timeline) (hrun : Interleave.Run Timeline.Step {} msgs σ)
    (hok : HeaderState.AllOk csid size {} {} msgs) (cuts : List (List UInt8))
    (hcuts : cuts.flatten <+: msgs.flatMap (SpecMessage.bytes csid size))
    : ∃ out s, (chunkReader readyHandler).run (setChunkSize {} size) cuts = (out, some s)
      ∧ out.map DecodedMessage.content <+: Timeline.expected {} msgs
      ∧ (cuts.flatten = msgs.flatMap (SpecMessage.bytes csid size) →
          out.map DecodedMessage.content = Timeline.expected {} msgs ∧ s.recvBuffer = []) := by
  have hquiet : (chunkReader readyHandler).Quiet (setChunkSize {} size) := quiet_of_empty rfl rfl
  have hstart : ((setChunkSize {} size).feed (msgs.flatMap (SpecMessage.bytes csid size))).Awaits
      csid size (fun cs => cs.Between {} {}) (msgs.flatMap (SpecMessage.bytes csid size)) := by
    constructor
    . rfl
    . rfl
    . rfl
    . intro fmt
      constructor
      all_goals simp [currentChunkStream, csPtr, feed, setChunkSize, atHeader, ChunkStream.new]
  rcases hstart.drains_messages hcsid hpos hrun hok with ⟨out, u, hdrains, hcontent, hu⟩
  have hwhole := hdrains
  rcases hcuts with ⟨rest, hrest⟩
  rw [← hrest] at hdrains
  rcases Reader.Drains.of_append hdrains with ⟨out₁, out₂, t, hdrains₁, rfl⟩
  refine ⟨out₁, t, hdrains₁.run_eq hquiet, ?_, ?_⟩
  . rw [← hcontent, List.map_append]
    exact List.prefix_append _ _
  . intro hall
    rw [← hall] at hwhole
    have hsame := hwhole.2.symm.trans hdrains₁.2
    simp only [Prod.mk.injEq, Option.some.injEq] at hsame
    rw [← hsame.1, ← hsame.2]
    exact ⟨hcontent, hu⟩

end RtmpSessionBase

/--
A message with an extended timestamp in two chunks, and differences to it afterwards.
-/
def sampleHeaders : List SpecMessage :=
  [⟨0, 0x1000000, 8, 1, [1, 2, 3]⟩, ⟨1, 10, 8, 1, [4]⟩, ⟨2, 20, 8, 1, [5]⟩]

open RtmpSessionBase in
theorem readChunkStream_headers_sample
    : ∃ out s, (chunkReader readyHandler).run (setChunkSize {} 2)
        [sampleHeaders.flatMap (SpecMessage.bytes 4 2)] = (out, some s)
      ∧ out.map DecodedMessage.content
        = [(0x1000000, 3, 8, [1, 2, 3]), (0x100000a, 1, 8, [4]), (0x100001e, 1, 8, [5])]
      ∧ s.recvBuffer = [] := by
  have hrun : Interleave.Run Timeline.Step {} sampleHeaders ⟨0x100001e, some 2, 20, 1, 8⟩ := by
    refine .cons ⟨?_, rfl⟩ (.cons ⟨?_, rfl⟩ (.cons ⟨?_, rfl⟩ (.nil _)))
    all_goals constructor <;> decide
  have hok : HeaderState.AllOk 4 2 {} {} sampleHeaders :=
    ⟨fun h => absurd h (by decide), fun _ => ⟨rfl, trivial⟩, fun h => absurd h (by decide),
      fun _ => trivial, fun h => absurd h (by decide), fun _ => trivial, trivial⟩
  rcases readChunkStream_headers 4 2 (by decide) (by decide) sampleHeaders _ hrun hok
    [sampleHeaders.flatMap (SpecMessage.bytes 4 2)] (by simp) with ⟨out, s, hout, _, hall⟩
  exact ⟨out, s, hout, hall (by simp)⟩

/--
Audio messages of one byte each, the last two of which repeat the header of format 1.
-/
def sampleRepeats : List SpecMessage :=
  [⟨0, 100, 8, 1, [1]⟩, ⟨1, 10, 8, 1, [2]⟩, ⟨3, 10, 8, 1, [3]⟩, ⟨3, 10, 8, 1, [4]⟩]

open RtmpSessionBase in
/--
The second of them does not advance the time.
-/
theorem readChunkStream_headers_repeats
    : (∃ σ, Interleave.Run Timeline.Step {} sampleRepeats σ)
      ∧ Timeline.expected {} sampleRepeats
        = [(100, 1, 8, [1]), (110, 1, 8, [2]), (120, 1, 8, [3]), (130, 1, 8, [4])]
      ∧ ((chunkReader readyHandler).run (setChunkSize {} 128)
          [sampleRepeats.flatMap (SpecMessage.bytes 4 128)]).1.map DecodedMessage.content
        = [(100, 1, 8, [1]), (110, 1, 8, [2]), (120, 1, 8, [3]), (120, 1, 8, [4])] := by
  refine ⟨⟨_, .cons ⟨?_, rfl⟩ (.cons ⟨?_, rfl⟩ (.cons ⟨?_, rfl⟩ (.cons ⟨?_, rfl⟩ (.nil _))))⟩,
    by decide, by decide⟩
  all_goals constructor <;> decide

end Rtmp
