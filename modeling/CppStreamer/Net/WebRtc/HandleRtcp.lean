import CppStreamer.Net.RtpRtcp.RtcpFbNack

/-!
This module contains the model of `PeerConnection::HandleRtcp`: the walk over the packets of a decrypted
datagram with the parsers it calls, and what reaches the streams.
-/

open ByteStream

namespace Rtcp

/--
What ends a walk other than its last packet.
-/
inductive RtcpFault where
  -- a read outside of the datagram
  | outside
  -- a copy that is longer than the 1500 bytes it goes to
  | tooLong
  -- the result of a failed parse is used
  | nullPacket
  -- an exception that is not caught
  | escaped
  -- more turns than there is fuel
  | endless
  deriving DecidableEq, Repr

inductive StreamKind where
  | video
  | audio
  deriving DecidableEq, Repr

/--
The ssrc of each stream that is there.
-/
structure RtcpStreams where
  videoSend : Option Nat := none
  audioSend : Option Nat := none
  videoRecv : Option Nat := none
  audioRecv : Option Nat := none

inductive RtcpEvent where
  -- a handler is called on its bytes
  | handled (packetType : Nat) (pos : Int) (len : Nat)
  -- a packet that has no handler
  | passed (packetType : Nat) (pos : Int)
  | senderReport (kind : StreamKind) (data : List UInt8)
  | reportBlock (kind : StreamKind) (block : List UInt8)
  | nack (kind : StreamKind) (pkt : RtcpFbNack)
  | dlrr (kind : StreamKind) (data : List UInt8)
  | rrt (ntpSec ntpFrac : Nat)
  deriving DecidableEq, Repr

def rtcpSr : Nat := 200
def rtcpRr : Nat := 201
def rtcpSdes : Nat := 202
def rtcpBye : Nat := 203
def rtcpApp : Nat := 204
def rtcpRtpFb : Nat := 205
def rtcpPsFb : Nat := 206
def rtcpXr : Nat := 207

def fbRtpNack : Nat := 1

def xrRrt : Nat := 4
def xrDlrr : Nat := 5

def commonHeaderSize : Nat := 4
def srSize : Nat := 28
def rrBlockSize : Nat := 24
def packetMaxSize : Nat := 1500

def isRtcp (data : List UInt8) : Bool :=
  let first := (data.getD 0 0).toNat
  let packetType := (data.getD 1 0).toNat
  commonHeaderSize ≤ data.length && 127 < first && first < 192 && 192 ≤ packetType && packetType ≤ 223

/--
`len` bytes of the datagram. A position may be in front of it.
-/
def readAt (buf : List UInt8) (pos : Int) (len : Nat) : Except RtcpFault (List UInt8) :=
  if 0 ≤ pos ∧ pos + len ≤ buf.length then .ok ((buf.drop pos.toNat).take len) else .error .outside

structure RtcpCommonHeader where
  packetType : Nat
  length : Nat

/--
The first byte of the header is not looked at.
-/
def readHeader (buf : List UInt8) (pos : Int) : Except RtcpFault RtcpCommonHeader := do
  let bytes ← readAt buf (pos + 1) 3
  pure ⟨(bytes.headD 0).toNat, read2Bytes (bytes.drop 1)⟩

/--
The length is an `uint16_t`.
-/
def getRtcpLength (header : RtcpCommonHeader) : Nat := header.length * 4 % 2 ^ 16

section Handlers

variable (streams : RtcpStreams) (buf : List UInt8)

/--
The streams of two that have the ssrc.
-/
def matching (video audio : Option Nat) (ssrc : Nat) : List StreamKind :=
  (if video = some ssrc then [.video] else []) ++ (if audio = some ssrc then [.audio] else [])

def handleRtcpSr (pos : Int) (len : Nat) : Except RtcpFault (Int × List RtcpEvent) :=
  -- the exception of `Parse` is caught
  if len ≠ srSize then pure (-1, [])
  else do
    let data ← readAt buf pos len
    let kinds := matching streams.videoRecv streams.audioRecv (read4Bytes (data.drop 4))
    pure (srSize, (kinds.take 1).map fun kind => .senderReport kind data)

/--
The blocks of a receiver report. The last one may be cut off.
-/
def rrBlocks (data : List UInt8) : List (List UInt8) :=
  (List.range ((data.length - 8 + (rrBlockSize - 1)) / rrBlockSize)).map fun i =>
    (data.drop (8 + rrBlockSize * i)).take rrBlockSize

def handleBlock (block : List UInt8) : Except RtcpFault (List RtcpEvent) :=
  let kinds := matching streams.videoSend streams.audioSend (read4Bytes block)
  if kinds ≠ [] ∧ block.length < rrBlockSize then throw .outside
  else pure (kinds.map fun kind => .reportBlock kind block)

def handleRtcpRr (pos : Int) (len : Nat) : Except RtcpFault (Int × List RtcpEvent) :=
  if len ≤ commonHeaderSize + rrBlockSize then pure (len, [])
  else if len < commonHeaderSize + 4 + rrBlockSize then throw .escaped
  else if packetMaxSize < len then throw .tooLong
  else do
    let data ← readAt buf pos len
    let events ← (rrBlocks data).mapM (handleBlock streams)
    pure (len, events.flatten)

def handleRtcpRtpFb (pos : Int) (len : Nat) : Except RtcpFault (Int × List RtcpEvent) :=
  if len ≤ commonHeaderSize then pure (len, [])
  else do
    let first ← readAt buf pos 1
    if (first.headD 0).toNat % 2 ^ 5 ≠ fbRtpNack then pure (len, [])
    else if len ≤ RtcpFbNack.headerSize then throw .nullPacket
    else if packetMaxSize < len then throw .tooLong
    else do
      let data ← readAt buf pos len
      match RtcpFbNack.parse data with
      | none => throw .outside
      | some pkt =>
        let kinds := matching streams.videoSend streams.audioSend (read4Bytes (data.drop 8))
        pure (len, kinds.map fun kind => .nack kind pkt)

def handleRtcpPsFb (len : Nat) : Except RtcpFault (Int × List RtcpEvent) := pure (len, [])

/--
A block of a type, with its header at `hdr`.
-/
def handleXrBlock (bt : Nat) (hdr : Int) : Except RtcpFault (List RtcpEvent) :=
  if bt = xrDlrr then do
    let ssrc ← readAt buf (hdr + 4) 4
    let kinds := matching streams.videoRecv streams.audioRecv (read4Bytes ssrc)
    if kinds = [] then pure []
    else do
      let data ← readAt buf (hdr + 4) 12
      pure (kinds.map fun kind => .dlrr kind data)
  else if bt = xrRrt then do
    let data ← readAt buf (hdr + 4) 8
    pure [.rrt (read4Bytes data) (read4Bytes (data.drop 4))]
  else pure []

/--
The loop over the blocks. Each one but the first is looked for from the start of the packet on.
-/
def xrLoop : Nat → Int → Int → Int → Except RtcpFault (List RtcpEvent)
  | 0, _, _, _ => throw .endless
  | fuel + 1, data, hdr, xrLen =>
    if 0 < xrLen then do
      let bt ← readAt buf hdr 1
      let events ← handleXrBlock streams buf (bt.headD 0).toNat hdr
      let blockLength ← readAt buf (hdr + 2) 2
      let offset := 4 + read2Bytes blockLength * 4
      let rest ← xrLoop fuel (data + offset) (data + offset) (xrLen - offset)
      pure (events ++ rest)
    else pure []

def handleRtcpXr (pos : Int) (len : Nat) : Except RtcpFault (Int × List RtcpEvent) := do
  let events ← xrLoop streams buf (len + 1) pos (pos + 8) (len - 8)
  pure (len, events)

/--
The `switch` over the types: what is called, and by how much the walk goes on.
-/
def dispatch (packetType : Nat) (pos : Int) (len : Nat)
    : Except RtcpFault (Int × List RtcpEvent) := do
  let handled (result : Except RtcpFault (Int × List RtcpEvent))
      : Except RtcpFault (Int × List RtcpEvent) := do
    let (ret, events) ← result
    pure (ret, .handled packetType pos len :: events)
  if packetType = rtcpSr then handled (handleRtcpSr streams buf pos len)
  else if packetType = rtcpRr then handled (handleRtcpRr streams buf pos len)
  else if packetType = rtcpRtpFb then handled (handleRtcpRtpFb streams buf pos len)
  else if packetType = rtcpPsFb then handled (handleRtcpPsFb len)
  else if packetType = rtcpXr then handled (handleRtcpXr streams buf pos len)
  -- `RTCP_SDES`, `RTCP_BYE`, `RTCP_APP` and the unknown types take all that is left
  else pure (buf.length - pos, [.passed packetType pos])

/--
The loop of `HandleRtcp` from a position on. What is left of the datagram is what is behind it.
-/
def walk : Nat → Int → Except RtcpFault (List RtcpEvent)
  | 0, _ => throw .endless
  | fuel + 1, pos =>
    if pos < buf.length then do
      let header ← readHeader buf pos
      let (ret, events) ← dispatch streams buf header.packetType pos
        (commonHeaderSize + getRtcpLength header)
      let rest ← walk fuel (pos + ret)
      pure (events ++ rest)
    else pure []

/--
What a datagram comes to, if the walk over it ends.
-/
def HandlesRtcp (events : List RtcpEvent) : Prop := ∃ fuel, walk streams buf fuel 0 = .ok events

end Handlers

end Rtcp
