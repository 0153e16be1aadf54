import CppStreamer.Basic.Memory
import CppStreamer.Utils.ByteStream
import CppStreamer.Utils.MediaPacket

/-!
This module contains the model of `MpegtsMux`: the program tables, and the packets of a PES.
-/

open ByteStream

namespace MpegTs

def tsPacketSize : Nat := 188

def tsDefDataLen : Nat := 184

/--
A packet of 188 bytes as far as it is filled in, with the writes to it.
-/
structure TsPacket where
  bytes : List UInt8
  writes : List Memory.Copy := []

def TsPacket.put (p : TsPacket) (i : Nat) (bytes : List UInt8) : TsPacket where
  bytes := p.bytes.take i ++ (bytes ++ p.bytes.drop (i + bytes.length))
  writes := p.writes ++ [⟨tsPacketSize, i, none, bytes.length⟩]

/--
What the code reads without having written it: the packet on the stack, and the memory behind the data.
-/
structure Unwritten where
  stack : Nat → UInt8
  behind : Nat → UInt8

/--
`patCrc` is the checksum that `pat_data_` holds, 0xff in each byte at first.
-/
structure MpegtsMux where
  hasVideo : Bool := true
  hasAudio : Bool := true
  videoCodecType : MediaCodecType := .h264
  audioCodecType : MediaCodecType := .aac
  videoCc : UInt8 := 0
  audioCc : UInt8 := 0
  patCrc : Nat := 0xffffffff

def videoPid : Nat := 0x100

def audioPid : Nat := 0x101

def pmtPid : Nat := 0x1001

def pcrId : Nat := 0x100

def programNumber : Nat := 1

def stuffing (bytes : List UInt8) : List UInt8 :=
  bytes ++ List.replicate (tsPacketSize - bytes.length) 0xff

section Tables

-- `mpeg_crc32` is a parameter, a reader does not look at the checksum.
variable (mpegCrc32 : List UInt8 → Nat)

/--
The section of the program association table, with one program.
-/
def patSection : List UInt8 :=
  [0] ++ write2Bytes (0xb000 + (4 + 5 + 4)) ++ write2Bytes 1 ++ [0xc1, 0, 0]
    ++ (write2Bytes programNumber ++ write2Bytes (0xe000 + pmtPid))

/--
The range of the checksum begins one byte late and has one byte more than the section: it goes on into the place of the
checksum, where the last one still is.
-/
def MpegtsMux.patChecksum (m : MpegtsMux) : Nat :=
  mpegCrc32 (((patSection ++ write4Bytes m.patCrc).drop 1).take 13)

def MpegtsMux.generatePat (m : MpegtsMux) : List UInt8 :=
  stuffing ([0x47, 0x40, 0x00, 0x10, 0x00] ++ patSection ++ write4Bytes (m.patChecksum mpegCrc32))

def videoStreamType : MediaCodecType → UInt8
  | .h264 => 0x1b
  | .h265 => 0x24
  | _ => 0x06

def audioStreamType : MediaCodecType → UInt8
  | .aac => 0x0f
  | _ => 0x06

/--
The registration descriptor of a codec and the extension descriptor behind it.
-/
def descriptors (name : List UInt8) : List UInt8 := [0x05, 4] ++ name ++ [0x7f, 2, 0x80, 2]

def videoDescriptors : MediaCodecType → List UInt8
  | .vp8 => descriptors [0x56, 0x70, 0x38, 0x30]
  | .vp9 => descriptors [0x56, 0x70, 0x39, 0x30]
  | _ => []

def audioDescriptors : MediaCodecType → List UInt8
  | .opus => descriptors [0x4f, 0x70, 0x75, 0x73]
  | _ => []

def streamEntry (streamType : UInt8) (pid : Nat) (esInfo : List UInt8) : List UInt8 :=
  streamType :: write2Bytes (0xe000 + pid) ++ write2Bytes (0xf000 + esInfo.length) ++ esInfo

def MpegtsMux.streamEntries (m : MpegtsMux) : List UInt8 :=
  (if m.hasVideo then
    streamEntry (videoStreamType m.videoCodecType) videoPid (videoDescriptors m.videoCodecType)
  else []) ++
  (if m.hasAudio then
    streamEntry (audioStreamType m.audioCodecType) audioPid (audioDescriptors m.audioCodecType)
  else [])

/--
The section of the program map table. Its length counts what is behind it, with the checksum.
-/
def MpegtsMux.pmtSection (m : MpegtsMux) : List UInt8 :=
  [2] ++ write2Bytes (0xb000 + (9 + m.streamEntries.length + 4)) ++ write2Bytes 1 ++ [0xc1, 0, 0]
    ++ write2Bytes (0xe000 + pcrId) ++ write2Bytes 0xf000 ++ m.streamEntries

def MpegtsMux.generatePmt (m : MpegtsMux) : List UInt8 :=
  stuffing ([0x47, 0x50, 0x01, 0x10, 0x00] ++ m.pmtSection
    ++ (write4Bytes (mpegCrc32 m.pmtSection)).reverse)

end Tables

section Pes

/--
Five bytes of a time stamp. The subtraction is not that of the modulus.
-/
def writeTs (flag : Nat) (ts : Int) : List UInt8 :=
  let ts := if 0x1ffffffff < ts then ts - 0x1ffffffff else ts
  let high := flag * 16 + (ts / 2 ^ 30 % 8).toNat * 2 + 1
  let middle := (ts / 2 ^ 15 % 2 ^ 15).toNat * 2 + 1
  let low := (ts % 2 ^ 15).toNat * 2 + 1
  UInt8.ofNat high :: write2Bytes middle ++ write2Bytes low

def writePcr (pcr : Int) : List UInt8 :=
  [UInt8.ofInt (pcr / 2 ^ 25), UInt8.ofInt (pcr / 2 ^ 17), UInt8.ofInt (pcr / 2 ^ 9),
    UInt8.ofInt (pcr / 2), UInt8.ofInt (pcr % 2 * 128 + 0x7e), 0]

def writePesHeader (dataSize : Nat) (isVideo : Bool) (dts pts : Int) : List UInt8 :=
  let both := isVideo ∧ dts ≠ pts
  let headerLen := if both then 10 else 5
  let pesPacketLength := dataSize + headerLen + 3
  let pesPacketLength := if 0xffff < pesPacketLength then 0 else pesPacketLength
  [0x00, 0x00, 0x01, if isVideo then 0xe0 else 0xc0]
    ++ write2Bytes pesPacketLength
    ++ [0x80, if both then 0xc0 else 0x80, UInt8.ofNat headerLen]
    ++ writeTs (if both then 3 else 2) pts
    ++ (if both then writeTs 1 dts else [])

/--
The packet is filled up behind `i`, where only the first `remainBytes` bytes stay.
-/
def adaptationBufInit (p : TsPacket) (i remainBytes : Nat) : TsPacket :=
  let p := p.put i [UInt8.ofNat (remainBytes + 255)]
  if remainBytes ≠ 1 then
    (p.put (i + 1) [0]).put (i + 2) (List.replicate (tsPacketSize - i - 2) 0xff)
  else p

/--
What stays the same in the loop of `WritePes`.
-/
structure Pes where
  pkt : MediaPacket
  isVideo : Bool
  pid : Nat
  dts : Int
  header : List UInt8

def pes (pkt : MediaPacket) : Pes where
  pkt := pkt
  isVideo := pkt.avType = .video
  pid := if pkt.avType = .video then videoPid else audioPid
  dts := pkt.dts * 90
  header := writePesHeader pkt.data.length (pkt.avType = .video) (pkt.dts * 90) (pkt.pts * 90)

variable (u : Unwritten)

/--
A range of the data, and of what is behind them.
-/
def readData (data : List UInt8) (offset len : Nat) : List UInt8 :=
  (List.range len).map fun j => (data[offset + j]?).getD (u.behind (offset + j))

/--
The four bytes of the packet header.
-/
def tsHeader (e : Pes) (first : Bool) (cc : UInt8) : List UInt8 :=
  [0x47, UInt8.ofNat (e.pid / 256) ||| (if first then 0x40 else 0), UInt8.ofNat e.pid,
    0x10 ||| (cc &&& 0x0f)]

def pcrField (e : Pes) (p : TsPacket) (cc : UInt8) : TsPacket :=
  ((p.put 3 [0x10 ||| (cc &&& 0x0f) ||| 0x20]).put 4 [7, 0x50]).put 6 (writePcr e.dts)

/--
The rest of a packet from `i` on: the header of the PES in the first one, then data. The two counts are
what is left to write and what has been taken of the data.
-/
def putPayload (e : Pes) (first : Bool) (p : TsPacket) (i dataLen packetBytesLen wBytes : Nat)
    : TsPacket × Nat × Nat :=
  let (p, i, dataLen, packetBytesLen) :=
    if first ∧ i < tsPacketSize then
      let tmpLen := min e.header.length (tsPacketSize - i)
      (p.put i (e.header.take tmpLen), i + tmpLen, dataLen - tmpLen, packetBytesLen - tmpLen)
    else (p, i, dataLen, packetBytesLen)
  if i < tsPacketSize then
    let dataLen := min dataLen (tsPacketSize - i)
    (p.put i (readData u e.pkt.data wBytes dataLen), packetBytesLen - dataLen, wBytes + dataLen)
  else (p, packetBytesLen, wBytes)

/--
One turn of the loop. `dataLen` and `remainBytes` are `uint8_t`.
-/
def writeTsPacket (e : Pes) (first : Bool) (cc : UInt8) (packetBytesLen wBytes : Nat)
    : TsPacket × Nat × Nat :=
  let p : TsPacket := { bytes := (List.range tsPacketSize).map u.stack }
  let p := p.put 0 (tsHeader e first cc)
  let hasPcr := first ∧ e.isVideo ∧ e.pkt.isKeyFrame
  let p := if hasPcr then pcrField e p cc else p
  let i := if hasPcr then 12 else 4
  let taken := if first then i - 4 else 0
  if tsDefDataLen ≤ packetBytesLen then
    putPayload u e first p i (tsDefDataLen - taken) packetBytesLen wBytes
  else
    let p := p.put 3 [0x10 ||| (cc &&& 0x0f) ||| 0x20]
    let remainBytes := (tsDefDataLen + 256 - packetBytesLen - taken) % 256
    putPayload u e first (adaptationBufInit p i remainBytes) (i + remainBytes) packetBytesLen
      packetBytesLen wBytes

def nextCc (cc : UInt8) : UInt8 := if 0x0f < cc + 1 then 0 else cc + 1

/--
The loop of `WritePes`, `none` if it takes more turns than there is fuel.
-/
def writePesLoop (e : Pes) : Nat → Bool → UInt8 → Nat → Nat → Option (List TsPacket × UInt8)
  | 0, _, _, _, _ => none
  | fuel + 1, first, cc, packetBytesLen, wBytes =>
    if packetBytesLen = 0 then some ([], cc)
    else
      let cc := nextCc cc
      let (p, packetBytesLen, wBytes) := writeTsPacket u e first cc packetBytesLen wBytes
      (writePesLoop e fuel false cc packetBytesLen wBytes).map fun (ps, cc) => (p :: ps, cc)

def MpegtsMux.writePes (m : MpegtsMux) (pkt : MediaPacket) : Option (List TsPacket × MpegtsMux) :=
  let e := pes pkt
  let packetBytesLen := pkt.data.length + e.header.length
  let cc := if e.isVideo then m.videoCc else m.audioCc
  (writePesLoop u e (packetBytesLen + 2) true cc packetBytesLen 0).map fun (ps, cc) =>
    (ps, if e.isVideo then { m with videoCc := cc } else { m with audioCc := cc })

end Pes

end MpegTs
