import CppStreamer.Utils.ByteStream

/-!
This module contains the model of `MpegtsDemux`: `DecodeUnit` with the tables, and the buffer of a PES.
A read outside of the unit is `none`.
-/

open ByteStream

namespace MpegTs

def unitSize : Nat := 188

/--
`len` bytes from `pos` on.
-/
def readRange (data : List UInt8) (pos len : Nat) : Option (List UInt8) :=
  if pos + len ≤ data.length then some ((data.drop pos).take len) else none

def readByte (data : List UInt8) (pos : Nat) : Option Nat := data[pos]?.map UInt8.toNat

def testBit (flags bit : Nat) : Bool := flags / 2 ^ bit % 2 = 1

/--
The position behind a field that is there under a condition.
-/
def skipIf (data : List UInt8) (cond : Bool) (pos len : Nat) : Option Nat :=
  if cond then (readRange data pos len).map fun _ => pos + len else some pos

structure TsHeader where
  payloadUnitStartIndicator : Bool
  pid : Nat
  adaptationFieldControl : Nat
  deriving DecidableEq, Repr

structure PidInfo where
  programNumber : Nat
  pid : Nat := 0
  networkId : Nat := 0
  deriving DecidableEq, Repr

structure EsInfo where
  descriptorTag : Nat
  desc : List UInt8
  deriving DecidableEq, Repr

structure StreamPidInfo where
  streamType : Nat
  elementaryPid : Nat
  esInfoLength : Nat
  esInfoVec : List EsInfo
  deriving DecidableEq, Repr

/--
The buffer that `OnCallback` puts together, before it is split.
-/
structure Assembled where
  pid : Nat
  dts : Nat
  pts : Nat
  data : List UInt8
  deriving DecidableEq, Repr

structure MpegtsDemux where
  patPidVec : List PidInfo := []
  streamPidVec : List StreamPidInfo := []
  dataBufferVec : List (List UInt8) := []
  dataTotal : Nat := 0
  lastPid : Nat := 0
  lastDts : Nat := 0
  lastPts : Nat := 0
  deriving DecidableEq, Repr

/--
What a call of `DecodeUnit` returns and hands on.
-/
structure Decoded where
  ret : Int
  demux : MpegtsDemux
  assembled : List Assembled := []
  deriving DecidableEq, Repr

section Adaptation

/--
The position behind the fields of an adaptation field. Only the length in front of them counts.
-/
def adaptationFields (data : List UInt8) (pos : Nat) : Option Nat := do
  let flags ← readByte data pos
  let pos := pos + 1
  let pos := if testBit flags 4 then pos + 6 else pos
  let pos := if testBit flags 3 then pos + 6 else pos
  let pos := if testBit flags 2 then pos + 1 else pos
  let pos ← if testBit flags 1 then do
      let len ← readByte data pos
      let _ ← readRange data (pos + 1) len
      pure (pos + 1)
    else pure pos
  if testBit flags 0 then do
    let _ ← readByte data pos
    let extension ← readByte data (pos + 1)
    let pos := pos + 2
    let pos := if testBit extension 7 then pos + 2 else pos
    let pos := if testBit extension 6 then pos + 3 else pos
    pure (if testBit extension 5 then pos + 5 else pos)
  else pure pos

def adaptationEnd (data : List UInt8) (control pos : Nat) : Option Nat :=
  if control = 2 ∨ control = 3 then do
    let len ← readByte data pos
    let _ ← if 0 < len then adaptationFields data (pos + 1) else some pos
    pure (pos + 1 + len)
  else some pos

end Adaptation

section Tables

/--
The loop over the programs, with one turn more than there can be.
-/
def patLoop (data : List UInt8) (sectionEnd : Nat) : Nat → Nat → Option (List PidInfo)
  | 0, _ => none
  | fuel + 1, pos =>
    if pos + 4 ≤ sectionEnd then do
      let programNumber := read2Bytes (← readRange data pos 2)
      let pid := read2Bytes (← readRange data (pos + 2) 2) % 2 ^ 13
      let info : PidInfo :=
        if programNumber = 0 then { programNumber, networkId := pid } else { programNumber, pid }
      let infos ← patLoop data sectionEnd fuel (pos + 4)
      pure (info :: infos)
    else some []

def MpegtsDemux.parsePat (d : MpegtsDemux) (data : List UInt8) (unitStart : Bool) (npos : Nat)
    : Option Decoded := do
  let pos := if unitStart then npos + 1 else npos
  let tableId ← readByte data pos
  let fields ← readRange data (pos + 1) 7
  let sectionLength := read2Bytes fields % 2 ^ 12
  if tableId ≠ 0 then pure ⟨-1, d, []⟩
  else if unitSize - npos ≤ sectionLength + 3 then pure ⟨-1, d, []⟩
  else
    let pids ← patLoop data (sectionLength + npos) (unitSize + 1) (pos + 8)
    pure ⟨0, { d with patPidVec := pids }, []⟩

/--
The text of a descriptor ends at its first zero.
-/
def descriptorLoop (data : List UInt8) (infoEnd : Nat) : Nat → Nat → Option (List EsInfo × Nat)
  | 0, _ => none
  | fuel + 1, pos =>
    if pos < infoEnd then do
      let descriptorTag ← readByte data pos
      let descriptorLength ← readByte data (pos + 1)
      let desc ← readRange data (pos + 2) descriptorLength
      let (infos, pos) ← descriptorLoop data infoEnd fuel (pos + 2 + descriptorLength)
      pure (⟨descriptorTag, desc.takeWhile (· ≠ 0)⟩ :: infos, pos)
    else some ([], pos)

def pmtLoop (data : List UInt8) (sectionEnd : Nat) : Nat → Nat → Option (List StreamPidInfo)
  | 0, _ => none
  | fuel + 1, pos =>
    if pos + 5 ≤ sectionEnd then do
      let streamType ← readByte data pos
      let elementaryPid := read2Bytes (← readRange data (pos + 1) 2) % 2 ^ 13
      let esInfoLength := read2Bytes (← readRange data (pos + 3) 2) % 2 ^ 12
      if sectionEnd < pos + 5 + esInfoLength then pure []
      else
        let (esInfoVec, pos) ← descriptorLoop data (pos + 5 + esInfoLength) (unitSize + 1) (pos + 5)
        let infos ← pmtLoop data sectionEnd fuel pos
        pure (⟨streamType, elementaryPid, esInfoLength, esInfoVec⟩ :: infos)
    else some []

def MpegtsDemux.parsePmt (d : MpegtsDemux) (data : List UInt8) (unitStart : Bool) (npos : Nat)
    : Option Decoded := do
  let pos := if unitStart then npos + 1 else npos
  let tableId ← readByte data pos
  let fields ← readRange data (pos + 1) 11
  let sectionLength := read2Bytes fields % 2 ^ 12
  let programInfoLength := read2Bytes (fields.drop 9) % 2 ^ 12
  if tableId ≠ 2 then pure ⟨-1, d, []⟩
  else
    let _ ← readRange data (pos + 12) programInfoLength
    let streams ← pmtLoop data (sectionLength + npos) (unitSize + 1) (pos + 12 + programInfoLength)
    pure ⟨0, { d with streamPidVec := streams }, []⟩

def MpegtsDemux.isPmt (d : MpegtsDemux) (pid : Nat) : Bool :=
  d.patPidVec.any fun info => info.programNumber ≠ 0 && info.pid = pid

end Tables

section Pes

/--
A time stamp of 33 bits. The sum is an `int`: bit 32 is lost and bit 31 is the sign.
-/
def readTs (data : List UInt8) (pos : Nat) : Option Nat := do
  let b0 ← readByte data pos
  let b1 ← readByte data (pos + 1)
  let b2 ← readByte data (pos + 2)
  let b3 ← readByte data (pos + 3)
  let b4 ← readByte data (pos + 4)
  let ts := b0 / 2 % 8 * 2 ^ 30 % 2 ^ 32 + b1 * 2 ^ 22 + b2 / 2 % 2 ^ 7 * 2 ^ 15 + b3 * 2 ^ 7
    + b4 / 2 % 2 ^ 7
  pure (if ts < 2 ^ 31 then ts else ts + (2 ^ 64 - 2 ^ 32))

/--
The return value of `PesParse` with the data it points to, as offset and size.
-/
structure PesInfo where
  ret : Nat
  retData : Option (Nat × Nat) := none
  dts : Nat := 0
  pts : Nat := 0

def plainStreamIds : List Nat := [188, 190, 191, 240, 241, 242, 248, 255]

/--
The position behind the extension of the header.
-/
def pesExtension (p : List UInt8) (pos : Nat) : Option Nat := do
  let flags ← readByte p pos
  let pos := pos + 1
  let pos := if testBit flags 7 then pos + 16 else pos
  let pos := if testBit flags 5 then pos + 2 else pos
  let pos := if testBit flags 4 then pos + 2 else pos
  if testBit flags 0 then do
    let len ← readByte p pos
    pure (pos + 1 + len % 128)
  else pure pos

/--
The size that is left wraps around if the header is not within the unit.
-/
def retSize (npos pos : Nat) : Nat := (unitSize + 2 ^ 64 - (npos + pos)) % 2 ^ 64

def pesParse (p : List UInt8) (npos : Nat) : Option PesInfo := do
  let packetStart ← readRange p 0 6
  let streamId ← readByte p 3
  if read3Bytes packetStart ≠ 1 then pure { ret := 255 }
  else if streamId ∈ plainStreamIds then pure { ret := 6, retData := some (6, retSize npos 6) }
  else
    let marker ← readByte p 6
    if marker / 64 ≠ 2 then pure { ret := 255 }
    else
      let flags ← readByte p 7
      let _ ← readByte p 8
      let ptsDtsFlags := flags / 64
      let pts ← if 2 ≤ ptsDtsFlags then readTs p 9 else some 0
      let dts ← if ptsDtsFlags = 3 then readTs p 14 else some 0
      let pos := if ptsDtsFlags = 3 then 19 else if ptsDtsFlags = 2 then 14 else 9
      let pos ← skipIf p (testBit flags 5) pos 6
      let pos ← skipIf p (testBit flags 4) pos 3
      let pos ← skipIf p (testBit flags 3) pos 1
      let pos := if testBit flags 2 then pos + 1 else pos
      let pos := if testBit flags 1 then pos + 2 else pos
      let pos ← if testBit flags 0 then pesExtension p pos else some pos
      pure { ret := pos, retData := some (pos, retSize npos pos), dts, pts }

namespace MpegtsDemux

def insertIntoDatabuf (d : MpegtsDemux) (data : List UInt8) (pid : Nat) : MpegtsDemux :=
  { d with
    lastPid := pid
    dataTotal := d.dataTotal + data.length
    -- `AppendData` of no bytes leaves an empty buffer in the vector
    dataBufferVec := d.dataBufferVec ++ [data] }

def onCallback (d : MpegtsDemux) (pid dts pts : Nat) : MpegtsDemux × List Assembled :=
  if d.dataTotal = 0 ∨ d.dataBufferVec = [] then (d, [])
  else
    ({ d with dataBufferVec := [], dataTotal := 0 }, [⟨pid, dts, pts, d.dataBufferVec.flatten⟩])

/--
A unit of a stream that is announced.
-/
def decodePes (d : MpegtsDemux) (h : TsHeader) (data : List UInt8) (npos : Nat) : Option Decoded :=
  if h.payloadUnitStartIndicator then do
    let (d, assembled) := d.onCallback d.lastPid d.lastDts d.lastPts
    let info ← pesParse (data.drop npos) npos
    if unitSize < info.ret then pure ⟨-1, d, assembled⟩
    else
      let d := { d with lastPts := info.pts, lastDts := if info.dts = 0 then info.pts else info.dts }
      match info.retData with
      | some (pos, size) =>
        if 0 < size then do
          let bytes ← readRange data (npos + pos) size
          pure ⟨0, d.insertIntoDatabuf bytes h.pid, assembled⟩
        else pure ⟨0, d, assembled⟩
      | none => pure ⟨0, d, assembled⟩
  else if npos ≤ unitSize then do
    let bytes ← readRange data npos (unitSize - npos)
    pure ⟨0, d.insertIntoDatabuf bytes h.pid, []⟩
  else none

def decodeStreams (h : TsHeader) (data : List UInt8) (npos : Nat)
    : List StreamPidInfo → MpegtsDemux → Option Decoded
  | [], d => some ⟨0, d, []⟩
  | info :: infos, d =>
    if h.pid = info.elementaryPid then do
      let decoded ← d.decodePes h data npos
      if decoded.ret < 0 then pure decoded
      else
        let rest ← decodeStreams h data npos infos decoded.demux
        pure { rest with assembled := decoded.assembled ++ rest.assembled }
    else decodeStreams h data npos infos d

def tsHeader (data : List UInt8) : Option TsHeader := do
  let b1 ← readByte data 1
  let b2 ← readByte data 2
  let b3 ← readByte data 3
  pure ⟨testBit b1 6, (b1 * 256 + b2) % 2 ^ 13, b3 / 16 % 4⟩

def decodeUnit (d : MpegtsDemux) (data : List UInt8) : Option Decoded := do
  let h ← tsHeader data
  let npos ← adaptationEnd data h.adaptationFieldControl 4
  if h.adaptationFieldControl = 1 ∨ h.adaptationFieldControl = 3 then
    if h.pid = 0 then d.parsePat data h.payloadUnitStartIndicator npos
    else if h.pid ∈ [0x01, 0x02, 0x03, 0x11] then pure ⟨0, d, []⟩
    else if d.isPmt h.pid then d.parsePmt data h.payloadUnitStartIndicator npos
    else if h.pid ∈ [0x42, 0x1fff] then pure ⟨0, d, []⟩
    else decodeStreams h data npos d.streamPidVec d
  else pure ⟨0, d, []⟩

/--
The units one after the other, whatever a call returns.
-/
def decodeUnits : MpegtsDemux → List (List UInt8) → Option (List Assembled × MpegtsDemux)
  | d, [] => some ([], d)
  | d, data :: units => do
    let decoded ← d.decodeUnit data
    let (assembled, d) ← decodeUnits decoded.demux units
    pure (decoded.assembled ++ assembled, d)

end MpegtsDemux

end Pes

end MpegTs
