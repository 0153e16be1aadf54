import CppStreamer.Utils.ByteStream

/-!
This module contains the chunk streams of `chunk_stream.cpp`: the decoding of message headers and
payloads from the receive buffer of a session, and the cutting of messages into chunks.

The receive buffer is the queue of the bytes received and not consumed yet.
-/

namespace Rtmp

open ByteStream

/--
The return codes of the RTMP functions, every negative code is an error.
-/
inductive Ret where
  | ok
  | needReadMore
  | error
  deriving DecidableEq, Repr

def chunkDefSize : Nat := 128

def format0HeaderLen : Nat := 11
def format1HeaderLen : Nat := 7
def format2HeaderLen : Nat := 3
def extTsLen : Nat := 4

inductive ChunkStreamPhase where
  | header
  | payload
  deriving DecidableEq, Repr

/--
The state of one chunk stream. `remain` is the part of the message that has not arrived yet,
`extTsFlag` records that some header carried an extended timestamp.
-/
structure ChunkStream where
  timestampDelta : Nat := 0
  timestamp32 : Nat := 0
  msgLen : Nat := 0
  typeId : UInt8 := 0
  msgStreamId : Nat := 0
  remain : Nat := 0
  chunkSize : Nat := chunkDefSize
  chunkAll : List UInt8 := []
  chunkData : List UInt8 := []
  extTsFlag : Bool := false
  fmt : Nat := 0
  csid : Nat := 0
  phase : ChunkStreamPhase := .header
  chunkReady : Bool := false
  deriving DecidableEq, Repr

namespace ChunkStream

def new (fmt csid chunkSize : Nat) : ChunkStream :=
  { fmt := fmt, csid := csid, chunkSize := chunkSize }

def isReady (cs : ChunkStream) : Bool := cs.chunkReady

def reset (cs : ChunkStream) : ChunkStream :=
  { cs with phase := .header, chunkReady := false, chunkAll := [], chunkData := [] }

/--
What reading from the receive buffer yields: a return code, the chunk stream afterwards and the rest
of the buffer.
-/
abbrev ReadResult := Ret × ChunkStream × List UInt8

/--
The message headers of formats 0 to 2 start with a timestamp, which is extended by 4 bytes behind the
header when it is `0xffffff`. `assign` stores the timestamp and the other fields of the header.
-/
def readMsgFormat (cs : ChunkStream) (inputFmt inputCsid : Nat) (buffer : List UInt8)
    (headerLen : Nat) (assign : ChunkStream → Nat → List UInt8 → ChunkStream) : ReadResult :=
  if buffer.length < headerLen then
    (.needReadMore, cs, buffer)
  else
    let cs := { cs with fmt := inputFmt, csid := inputCsid }
    let ts := read3Bytes buffer
    if 0xffffff ≤ ts then
      let cs := { cs with extTsFlag := true }
      if buffer.length < headerLen + extTsLen then
        (.needReadMore, cs, buffer)
      else
        let ts := read4Bytes (buffer.drop headerLen)
        (.ok, assign cs ts (buffer.take headerLen), buffer.drop (headerLen + extTsLen))
    else
      (.ok, assign cs ts (buffer.take headerLen), buffer.drop headerLen)

def assignFormat0 (cs : ChunkStream) (ts : Nat) (header : List UInt8) : ChunkStream :=
  let msgLen := read3Bytes (header.drop 3)
  { cs with
    timestamp32 := ts, timestampDelta := 0, msgLen := msgLen, typeId := (header.drop 6).headD 0,
    msgStreamId := read4Bytes (header.drop 7), remain := msgLen }

def assignFormat1 (cs : ChunkStream) (ts : Nat) (header : List UInt8) : ChunkStream :=
  let msgLen := read3Bytes (header.drop 3)
  { cs with
    timestampDelta := ts, timestamp32 := (cs.timestamp32 + ts) % 2 ^ 32, msgLen := msgLen,
    typeId := (header.drop 6).headD 0, remain := msgLen }

def assignFormat2 (cs : ChunkStream) (ts : Nat) (_header : List UInt8) : ChunkStream :=
  { cs with
    timestampDelta := ts, timestamp32 := (cs.timestamp32 + ts) % 2 ^ 32, remain := cs.msgLen }

def readMsgFormat0 (cs : ChunkStream) (inputFmt inputCsid : Nat) (buffer : List UInt8) : ReadResult :=
  cs.readMsgFormat inputFmt inputCsid buffer format0HeaderLen assignFormat0

def readMsgFormat1 (cs : ChunkStream) (inputFmt inputCsid : Nat) (buffer : List UInt8) : ReadResult :=
  cs.readMsgFormat inputFmt inputCsid buffer format1HeaderLen assignFormat1

def readMsgFormat2 (cs : ChunkStream) (inputFmt inputCsid : Nat) (buffer : List UInt8) : ReadResult :=
  cs.readMsgFormat inputFmt inputCsid buffer format2HeaderLen assignFormat2

/--
The chunk stream data is reset when a chunk without a message header starts a new message.
-/
def startMsgFormat3 (cs : ChunkStream) (inputFmt inputCsid : Nat) : ChunkStream :=
  { cs with
    chunkAll := [], chunkData := [], remain := cs.msgLen, chunkReady := false,
    fmt := inputFmt, csid := inputCsid }

/--
A chunk without a message header starts a new message when nothing remains of the last one, how
depends on the format of the chunk before.
-/
def readMsgFormat3 (cs : ChunkStream) (inputFmt inputCsid : Nat) (buffer : List UInt8) : ReadResult :=
  if cs.remain = 0 then
    if cs.extTsFlag ∧ cs.fmt ≤ 2 then
      if buffer.length < extTsLen then
        (.needReadMore, cs, buffer)
      else
        let ts := read4Bytes buffer
        let cs := { cs with timestamp32 := if cs.fmt = 0 then ts else (cs.timestamp32 + ts) % 2 ^ 32 }
        (.ok, cs.startMsgFormat3 inputFmt inputCsid, buffer.drop extTsLen)
    else
      let cs :=
        if cs.fmt = 1 ∨ cs.fmt = 2 then
          { cs with timestamp32 := (cs.timestamp32 + cs.timestampDelta) % 2 ^ 32 }
        else
          cs
      (.ok, cs.startMsgFormat3 inputFmt inputCsid, buffer)
  else
    if cs.extTsFlag then
      if buffer.length < extTsLen then
        (.needReadMore, cs, buffer)
      else
        let buffer := if read4Bytes buffer = cs.timestamp32 then buffer.drop extTsLen else buffer
        (.ok, { cs with fmt := inputFmt, csid := inputCsid }, buffer)
    else
      (.ok, { cs with fmt := inputFmt, csid := inputCsid }, buffer)

def readMsgByFormat (cs : ChunkStream) (inputFmt inputCsid : Nat) (buffer : List UInt8)
    : ReadResult :=
  match inputFmt with
  | 0 => cs.readMsgFormat0 inputFmt inputCsid buffer
  | 1 => cs.readMsgFormat1 inputFmt inputCsid buffer
  | 2 => cs.readMsgFormat2 inputFmt inputCsid buffer
  | 3 => cs.readMsgFormat3 inputFmt inputCsid buffer
  | _ => (.error, cs, buffer)

def readMessageHeader (cs : ChunkStream) (inputFmt inputCsid : Nat) (buffer : List UInt8)
    : ReadResult :=
  match cs.phase with
  | .payload => (.ok, cs, buffer)
  | .header =>
    match cs.readMsgByFormat inputFmt inputCsid buffer with
    | (.ok, cs, buffer) => (.ok, { cs with phase := .payload }, buffer)
    | res => res

def requireLen (cs : ChunkStream) : Nat :=
  if cs.remain > cs.chunkSize then cs.chunkSize else cs.remain

def readMessagePayload (cs : ChunkStream) (buffer : List UInt8) : ReadResult :=
  match cs.phase with
  | .header => (.ok, cs, buffer)
  | .payload =>
    if buffer.length < cs.requireLen then
      (.needReadMore, cs, buffer)
    else
      let remain := cs.remain - cs.requireLen
      (.ok,
        { cs with
          chunkData := cs.chunkData ++ buffer.take cs.requireLen, remain := remain,
          chunkReady := cs.chunkReady || decide (remain = 0), phase := .header },
        buffer.drop cs.requireLen)

/--
The two reads `ReadChunkStream` makes from a chunk stream.
-/
def readChunk (cs : ChunkStream) (inputFmt inputCsid : Nat) (buffer : List UInt8) : ReadResult :=
  match cs.readMessageHeader inputFmt inputCsid buffer with
  | (.ok, cs, buffer) => cs.readMessagePayload buffer
  | res => res

/--
The basic header, longer for larger chunk stream ids.
-/
def fmtCsidData (fmt csid : Nat) : List UInt8 :=
  if csid < 64 then
    [UInt8.ofNat (fmt * 64 + csid % 64)]
  else if csid - 64 < 256 then
    [UInt8.ofNat (fmt * 64), UInt8.ofNat csid]
  else
    UInt8.ofNat (fmt * 64 + 1) :: write2Bytes csid

def headerData (cs : ChunkStream) : List UInt8 :=
  match cs.fmt with
  | 0 => write3Bytes cs.timestamp32 ++ write3Bytes cs.msgLen ++ [cs.typeId] ++ write4Bytes cs.msgStreamId
  | 1 => write3Bytes cs.timestamp32 ++ write3Bytes cs.msgLen ++ [cs.typeId]
  | 2 => write3Bytes cs.timestamp32
  | _ => []

def genData (cs : ChunkStream) (data : List UInt8) : ChunkStream :=
  { cs with chunkAll := cs.chunkAll ++ fmtCsidData cs.fmt cs.csid ++ cs.headerData ++ data }

/--
Control messages of 1 to 5 bytes, other sizes are refused.
-/
def genControlMessage (cs : ChunkStream) (ctrlType : UInt8) (size value : Nat)
    : Option ChunkStream :=
  let cs := { cs with fmt := 0, typeId := ctrlType, msgStreamId := 0, msgLen := size }
  match size with
  | 1 => some (cs.genData [byteAt value 0])
  | 2 => some (cs.genData (write2Bytes value))
  | 3 => some (cs.genData (write3Bytes value))
  | 4 => some (cs.genData (write4Bytes value))
  | 5 => some (cs.genData (write4Bytes value ++ [2]))
  | _ => none

/--
Reading more than once does no harm: a read that succeeds takes the same bytes when more of them have
arrived, and a read that lacks bytes leaves the chunk stream such that it can be repeated.
-/
structure Resumable (read : ChunkStream → List UInt8 → ReadResult) : Prop where
  ok : ∀ {cs cs' buffer rest} x, read cs buffer = (.ok, cs', rest) →
    read cs (buffer ++ x) = (.ok, cs', rest ++ x)
  error : ∀ {cs cs' buffer rest} x, read cs buffer = (.error, cs', rest) →
    read cs (buffer ++ x) = (.error, cs', rest ++ x)
  needReadMore : ∀ {cs cs' buffer rest} x, read cs buffer = (.needReadMore, cs', rest) →
    read cs' (rest ++ x) = read cs (buffer ++ x)
  length_le : ∀ {ret cs cs' buffer rest}, read cs buffer = (ret, cs', rest) →
    rest.length ≤ buffer.length
  chunkSize : ∀ {ret cs cs' buffer rest}, read cs buffer = (ret, cs', rest) →
    cs'.chunkSize = cs.chunkSize

theorem readMsgFormat_resumable (inputFmt inputCsid headerLen : Nat) (hlen : 3 ≤ headerLen)
    (assign : ChunkStream → Nat → List UInt8 → ChunkStream)
    (hassign : ∀ cs ts header, (assign cs ts header).chunkSize = cs.chunkSize)
    : Resumable (fun cs buffer => cs.readMsgFormat inputFmt inputCsid buffer headerLen assign) := by
  constructor
  case ok =>
    intro cs cs' buffer rest x h
    simp only [readMsgFormat] at h
    split at h
    . simp at h
    . next hshort =>
      have hlong : ¬(buffer ++ x).length < headerLen := by simp only [List.length_append]; omega
      have hread := read3Bytes_append buffer x (by omega)
      have htake : (buffer ++ x).take headerLen = buffer.take headerLen :=
        List.take_append_of_le_length (by omega)
      simp only [readMsgFormat, if_neg hlong, hread, htake]
      split at h
      . next hts =>
        simp only [if_pos hts]
        split at h
        . simp at h
        . next hext =>
          have hlong : ¬(buffer ++ x).length < headerLen + extTsLen := by
            simp only [List.length_append]; omega
          simp only [if_neg hlong]
          simp only [extTsLen, Prod.mk.injEq, true_and] at *
          rw [← h.1, ← h.2, List.drop_append_of_le_length (by omega),
            List.drop_append_of_le_length (by omega), read4Bytes_append _ x (by simp; omega)]
          exact ⟨rfl, rfl⟩
      . next hts =>
        simp only [if_neg hts]
        simp only [Prod.mk.injEq, true_and] at h
        rw [← h.1, ← h.2, List.drop_append_of_le_length (by omega)]
  case error =>
    intro cs cs' buffer rest x h
    simp only [readMsgFormat] at h
    repeat' split at h
    all_goals simp at h
  case needReadMore =>
    intro cs cs' buffer rest x h
    simp only [readMsgFormat] at h
    split at h
    . simp only [Prod.mk.injEq, true_and] at h
      simp [h]
    . next hshort =>
      split at h
      . next hts =>
        have hread := read3Bytes_append buffer x (by omega)
        split at h
        . simp only [Prod.mk.injEq, true_and] at h
          rw [← h.1, ← h.2]
          simp only [readMsgFormat, hread, if_pos hts]
          split
          . next hlong => simp only [List.length_append] at hlong; omega
          . rfl
        . simp at h
      . simp at h
  all_goals
    intros
    next h =>
      simp only [readMsgFormat] at h
      repeat' split at h
      all_goals
        simp only [Prod.mk.injEq] at h
        simp [← h, hassign]

theorem readMsgFormat3_resumable (inputFmt inputCsid : Nat)
    : Resumable (fun cs buffer => cs.readMsgFormat3 inputFmt inputCsid buffer) := by
  constructor
  case ok =>
    intro cs cs' buffer rest x h
    have hread (hlong : ¬buffer.length < extTsLen)
        : ¬(buffer ++ x).length < extTsLen ∧ read4Bytes (buffer ++ x) = read4Bytes buffer
          ∧ (buffer ++ x).drop extTsLen = buffer.drop extTsLen ++ x := by
      simp only [extTsLen] at *
      refine ⟨?_, read4Bytes_append _ x (by omega), List.drop_append_of_le_length (by omega)⟩
      simp only [List.length_append]
      omega
    simp only [readMsgFormat3] at h ⊢
    split at h
    . next hremain =>
      simp only [if_pos hremain]
      split at h
      . next hext =>
        simp only [if_pos hext]
        split at h
        . simp at h
        . next hlong =>
          simp only [Prod.mk.injEq, true_and] at h
          simp only [hread hlong]
          simp [← h.1, ← h.2]
      . next hext =>
        simp only [Prod.mk.injEq, true_and] at h
        simp only [if_neg hext]
        simp [← h.1, ← h.2]
    . next hremain =>
      simp only [if_neg hremain]
      split at h
      . next hext =>
        simp only [if_pos hext]
        split at h
        . simp at h
        . next hlong =>
          simp only [Prod.mk.injEq, true_and] at h
          rw [if_neg (hread hlong).1, (hread hlong).2.1, (hread hlong).2.2, ← h.1, ← h.2]
          split
          . rfl
          . rfl
      . next hext =>
        simp only [Prod.mk.injEq, true_and] at h
        simp only [if_neg hext]
        simp [← h.1, ← h.2]
  case error =>
    intro cs cs' buffer rest x h
    simp only [readMsgFormat3] at h
    repeat' split at h
    all_goals simp at h
  case needReadMore =>
    intro cs cs' buffer rest x h
    simp only [readMsgFormat3] at h
    repeat' split at h
    all_goals
      simp only [Prod.mk.injEq, reduceCtorEq, false_and, true_and] at h
      try simp [h]
  all_goals
    intro ret cs cs' buffer rest h
    simp only [readMsgFormat3, startMsgFormat3] at h
    repeat' split at h
    all_goals
      simp only [Prod.mk.injEq] at h
      simp [← h]

theorem readMsgByFormat_resumable (inputFmt inputCsid : Nat)
    : Resumable (fun cs buffer => cs.readMsgByFormat inputFmt inputCsid buffer) := by
  match inputFmt with
  | 0 => exact readMsgFormat_resumable 0 inputCsid format0HeaderLen (by decide) _ (fun _ _ _ => rfl)
  | 1 => exact readMsgFormat_resumable 1 inputCsid format1HeaderLen (by decide) _ (fun _ _ _ => rfl)
  | 2 => exact readMsgFormat_resumable 2 inputCsid format2HeaderLen (by decide) _ (fun _ _ _ => rfl)
  | 3 => exact readMsgFormat3_resumable 3 inputCsid
  | n + 4 =>
    constructor
    all_goals
      intros
      next h =>
        simp only [readMsgByFormat, Prod.mk.injEq, reduceCtorEq, false_and, true_and] at h
        try simp [readMsgByFormat, h]

theorem readMsgByFormat_phase {cs cs' : ChunkStream} {inputFmt inputCsid : Nat}
    {buffer rest : List UInt8}
    (h : cs.readMsgByFormat inputFmt inputCsid buffer = (.needReadMore, cs', rest))
    : cs'.phase = cs.phase := by
  simp only [readMsgByFormat, readMsgFormat0, readMsgFormat1, readMsgFormat2, readMsgFormat3,
    readMsgFormat] at h
  repeat' split at h
  all_goals
    simp only [Prod.mk.injEq, reduceCtorEq, false_and, true_and] at h
    try simp [← h]

theorem readMessageHeader_resumable (inputFmt inputCsid : Nat)
    : Resumable (fun cs buffer => cs.readMessageHeader inputFmt inputCsid buffer) := by
  have hr := readMsgByFormat_resumable inputFmt inputCsid
  constructor
  case ok =>
    intro cs cs' buffer rest x h
    simp only [readMessageHeader] at h ⊢
    split at h
    . simp only [Prod.mk.injEq, true_and] at h
      simp [h]
    . split at h
      . next cs'' rest' hok =>
        simp only [Prod.mk.injEq, true_and] at h
        rw [← h.1, ← h.2, hr.ok x hok]
      . next hne => exact absurd h (hne _ _)
  case error =>
    intro cs cs' buffer rest x h
    simp only [readMessageHeader] at h ⊢
    split at h
    . simp at h
    . split at h
      . simp at h
      . next hne => rw [hr.error x h]
  case needReadMore =>
    intro cs cs' buffer rest x h
    simp only [readMessageHeader] at h ⊢
    split at h
    . simp at h
    . next hphase =>
      split at h
      . simp at h
      . next hne =>
        rw [readMsgByFormat_phase h, hphase, hr.needReadMore x h]
  all_goals
    intro ret cs cs' buffer rest h
    simp only [readMessageHeader] at h
    split at h
    . simp only [Prod.mk.injEq] at h
      simp [h]
    . split at h
      . next hok =>
        have := hr.length_le hok
        have := hr.chunkSize hok
        simp only [Prod.mk.injEq] at h
        simp only [← h]
        assumption
      . first | exact hr.length_le h | exact hr.chunkSize h

theorem readMessageHeader_phase {cs cs' : ChunkStream} {inputFmt inputCsid : Nat}
    {buffer rest : List UInt8}
    (h : cs.readMessageHeader inputFmt inputCsid buffer = (.ok, cs', rest))
    : cs'.phase = .payload := by
  simp only [readMessageHeader] at h
  split at h
  . next hphase =>
    simp only [Prod.mk.injEq, true_and] at h
    rw [← h.1, hphase]
  . split at h
    . simp only [Prod.mk.injEq, true_and] at h
      rw [← h.1]
    . next hne => exact absurd h (hne _ _)

theorem readMessagePayload_phase {cs cs' : ChunkStream} {buffer rest : List UInt8}
    (h : cs.readMessagePayload buffer = (.needReadMore, cs', rest))
    : cs'.phase = cs.phase := by
  simp only [readMessagePayload] at h
  repeat' split at h
  all_goals
    simp only [Prod.mk.injEq, reduceCtorEq, false_and, true_and] at h
    try simp [← h]

theorem readMessagePayload_resumable : Resumable readMessagePayload := by
  constructor
  case ok =>
    intro cs cs' buffer rest x h
    simp only [readMessagePayload] at h ⊢
    split at h
    . simp only [Prod.mk.injEq, true_and] at h
      simp [h]
    . split at h
      . simp at h
      . next hlong =>
        have : ¬(buffer ++ x).length < cs.requireLen := by simp only [List.length_append]; omega
        simp only [Prod.mk.injEq, true_and] at h
        rw [if_neg this, List.take_append_of_le_length (by omega),
          List.drop_append_of_le_length (by omega), ← h.1, ← h.2]
  case error =>
    intro cs cs' buffer rest x h
    simp only [readMessagePayload] at h
    repeat' split at h
    all_goals simp at h
  all_goals
    intros
    next h =>
      simp only [readMessagePayload] at h
      repeat' split at h
      all_goals
        simp only [Prod.mk.injEq, reduceCtorEq, false_and, true_and] at h
        try simp [← h]

theorem readChunk_resumable (inputFmt inputCsid : Nat)
    : Resumable (fun cs buffer => cs.readChunk inputFmt inputCsid buffer) := by
  have hheader := readMessageHeader_resumable inputFmt inputCsid
  have hpayload := readMessagePayload_resumable
  constructor
  case ok =>
    intro cs cs' buffer rest x h
    simp only [readChunk] at h ⊢
    split at h
    . next hok =>
      rw [hheader.ok x hok]
      exact hpayload.ok x h
    . next hne => exact absurd h (hne _ _)
  case error =>
    intro cs cs' buffer rest x h
    simp only [readChunk] at h ⊢
    split at h
    . next hok =>
      rw [hheader.ok x hok]
      exact hpayload.error x h
    . rw [hheader.error x h]
  case needReadMore =>
    intro cs cs' buffer rest x h
    simp only [readChunk] at h ⊢
    split at h
    . next cs₁ buffer₁ hok =>
      -- the header is not read again, its chunk stream is in the payload phase
      have hphase : cs'.phase = .payload := by
        rw [readMessagePayload_phase h]
        exact readMessageHeader_phase hok
      have hskip : cs'.readMessageHeader inputFmt inputCsid (rest ++ x) = (.ok, cs', rest ++ x) := by
        simp [readMessageHeader, hphase]
      rw [hheader.ok x hok, hskip]
      exact hpayload.needReadMore x h
    . rw [hheader.needReadMore x h]
  all_goals
    intro ret cs cs' buffer rest h
    simp only [readChunk] at h
    split at h
    . next hok =>
      have := hheader.length_le hok
      have := hheader.chunkSize hok
      have := hpayload.length_le h
      have := hpayload.chunkSize h
      omega
    . first | exact hheader.length_le h | exact hheader.chunkSize h

end ChunkStream

/--
The buffers `WriteDataByChunkStream` passes to `RtmpSend`, one for each chunk.
-/
def writeDataByChunkStream (csid timestamp : Nat) (typeId : UInt8) (msgStreamId chunkSize : Nat)
    (input : List UInt8) : List (List UInt8) :=
  let rest := input.length % chunkSize
  let csCount := input.length / chunkSize + (if rest > 0 then 1 else 0)
  (List.range csCount).map fun index =>
    let fmt := if index = 0 then 0 else 3
    let len := if index = csCount - 1 then (if rest > 0 then rest else chunkSize) else chunkSize
    let cs := ChunkStream.new fmt csid chunkSize
    let cs :=
      { cs with
        timestamp32 := timestamp, msgLen := input.length, typeId := typeId,
        msgStreamId := msgStreamId }
    (cs.genData ((input.drop (index * chunkSize)).take len)).chunkAll

end Rtmp
