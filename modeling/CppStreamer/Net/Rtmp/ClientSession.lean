import CppStreamer.Format.Amf.Amf0
import CppStreamer.Net.Rtmp.ControlHandler
import CppStreamer.Utils.MediaPacket

/-!
This module contains the client session of `rtmp_client_session.cpp`: the phases from the handshake to
the media messages, driven by the reads from the connection.
-/

namespace Rtmp

open ByteStream Amf

def rtmpMediaPacketAudio : UInt8 := 8
def rtmpMediaPacketVideo : UInt8 := 9
def rtmpCommandMessagesMetaData3 : UInt8 := 15
def rtmpCommandMessagesMetaData0 : UInt8 := 18
def rtmpCommandMessagesAmf0 : UInt8 := 20

def flvVideoKeyFlag : UInt8 := 0x10
def flvVideoInterFlag : UInt8 := 0x20
def flvVideoAvcSeqhdr : UInt8 := 0x00
def flvVideoAvcNalu : UInt8 := 0x01
def flvVideoH264Codec : UInt8 := 0x07
def flvVideoH265Codec : UInt8 := 0x0c
def flvVideoVp8Codec : UInt8 := 0x0e
def flvVideoVp9Codec : UInt8 := 0x0f
def flvAudioOpusCodec : UInt8 := 0x90
def flvAudioAacCodec : UInt8 := 0xa0

/--
Why a message ends the session: it is refused with a negative code, or handling it does not come back.
-/
inductive ClientFault where
  | refused
  | stuck (fault : AmfFault)
  deriving DecidableEq, Repr

section ServerCommand

/--
The loop of `HandleServerCommandMessage` around `Decode`, whose return code is ignored. An item that
takes no byte is decoded again and again.
-/
def decodeItems : Nat → List UInt8 → Except AmfFault (List AmfItem)
  | _, [] => .ok []
  | 0, _ => .error .hang
  | fuel + 1, data =>
    match decodeItem data with
    | .error fault => .error fault
    | .ok (_, item, rest) =>
      if rest.length < data.length then (decodeItems fuel rest).map (item :: ·) else .error .hang

def awaitsConnect (phase : ClientPhase) : Bool := phase = .connect ∨ phase = .connectResp

def awaitsCreateStream (phase : ClientPhase) : Bool :=
  phase = .createStream ∨ phase = .createStreamResp

def createsPlaypublish (phase : ClientPhase) : Bool :=
  phase = .createPlay ∨ phase = .createPublish

def playpublishPhase (publish : Bool) : ClientPhase :=
  if publish then .createPublish else .createPlay

/--
What one item of a command does in a phase. `next` is the phase the items in front of it lead to.
-/
def commandItem (publish : Bool) (phase next : ClientPhase) (item : AmfItem)
    : Except ClientFault ClientPhase :=
  match item with
  | .string desc =>
    if awaitsConnect phase ∨ awaitsCreateStream phase then
      if desc ≠ bytesOf "_result" ∧ desc ≠ bytesOf "onBWDone" then
        .error .refused
      else if desc ≠ bytesOf "_result" then
        .ok next
      else
        .ok (if awaitsConnect phase then .createStream else playpublishPhase publish)
    else if createsPlaypublish phase then
      if desc ≠ bytesOf "_result" ∧ desc ≠ bytesOf "onStatus" ∧ desc ≠ bytesOf "onBWDone" then
        .error .refused
      else
        .ok next
    else
      .ok next
  | .object fields =>
    match findField (bytesOf "code") fields with
    | some (.string desc) =>
      if phase = .connect then
        if desc ≠ bytesOf "NetConnection.Connect.Success" then .error .refused else .ok next
      else if createsPlaypublish phase then
        if desc ≠ bytesOf "NetStream.Publish.Start" ∧ desc ≠ bytesOf "NetStream.Play.Start" then
          .error .refused
        else
          .ok next
      else
        .ok next
    | _ => .ok next
  | _ => .ok next

/--
The phase a command of the server leads to.
-/
def handleServerCommandMessage (publish : Bool) (phase : ClientPhase) (data : List UInt8)
    : Except ClientFault ClientPhase :=
  match decodeItems data.length data with
  | .error fault => .error (.stuck fault)
  | .ok [] => .error .refused
  | .ok items => items.foldlM (commandItem publish phase) phase

end ServerCommand

section Media

def isMediaMessage (cs : ChunkStream) : Bool :=
  cs.typeId = rtmpMediaPacketVideo ∨ cs.typeId = rtmpMediaPacketAudio
    ∨ cs.typeId = rtmpCommandMessagesMetaData0 ∨ cs.typeId = rtmpCommandMessagesMetaData3

def videoCodec (codec : UInt8) : Option MediaCodecType :=
  if codec = flvVideoH264Codec then some .h264
  else if codec = flvVideoH265Codec then some .h265
  else if codec = flvVideoVp8Codec then some .vp8
  else if codec = flvVideoVp9Codec then some .vp9
  else none

/--
What a media packet holds once its time and its data are known.
-/
def completeMedia (pkt : MediaPacket) (cs : ChunkStream) (tsDelta : Nat) : MediaPacket :=
  { pkt with dts := cs.timestamp32, pts := cs.timestamp32 + tsDelta, data := cs.chunkData }

/--
The packet that is made of a media message, or its fault. A packet that is given up has no data. The
composition time of a video is read without looking at the length.
-/
def getMediaPacket (cs : ChunkStream) : Except ClientFault MediaPacket :=
  match cs.chunkData with
  | p0 :: p1 :: p =>
    if cs.typeId = rtmpMediaPacketVideo then
      match videoCodec (p0 &&& 0x0f) with
      | none => .ok { avType := .video, fmtType := .flv }
      | some codec =>
        let frameType := p0 &&& 0xf0
        let pkt : MediaPacket := { avType := .video, fmtType := .flv, codecType := codec }
        if frameType = flvVideoKeyFlag ∧ p1 ≠ flvVideoAvcSeqhdr ∧ p1 ≠ flvVideoAvcNalu then
          .ok pkt
        else if p.length < 3 then
          .error (.stuck .overrun)
        else
          let pkt :=
            { pkt with
              isSeqHdr := decide (frameType = flvVideoKeyFlag ∧ p1 = flvVideoAvcSeqhdr),
              isKeyFrame := decide (frameType = flvVideoKeyFlag ∧ p1 = flvVideoAvcNalu) }
          .ok (completeMedia pkt cs (read3Bytes p))
    else if cs.typeId = rtmpMediaPacketAudio then
      let frameType := p0 &&& 0xf0
      let pkt : MediaPacket := { avType := .audio, fmtType := .flv, isSeqHdr := decide (p1 = 0) }
      if frameType = flvAudioAacCodec then
        .ok (completeMedia { pkt with codecType := .aac } cs 0)
      else if frameType = flvAudioOpusCodec then
        .ok (completeMedia { pkt with codecType := .opus } cs 0)
      else
        .error (.stuck .abort)
    else
      .ok (completeMedia { avType := .metadata, fmtType := .flv } cs 0)
  | _ => .error .refused

end Media

inductive ClientCommand where
  | connect
  | createStream
  | play
  | publish
  deriving DecidableEq, Repr

/--
What a session does that can be seen from outside. `handled` is a complete message together with the
phase it met, `answered` and `sent` carry the buffers passed to `RtmpSend`, and `overrun` is a read
behind the end of a payload. The C2 of the handshake is random and left out.
-/
inductive ClientEvent where
  | handled (phase : ClientPhase) (cs : ChunkStream)
  | answered (buffers : List (List UInt8))
  | onMessage (pkt : MediaPacket)
  | sent (command : ClientCommand) (buffers : List (List UInt8))
  | overrun
  deriving DecidableEq, Repr

def ClientFault.events (fault : ClientFault) : List ClientEvent :=
  if fault = .stuck .overrun then [.overrun] else []

namespace RtmpSessionBase

section Commands

/--
A command on chunk stream 3. A chunk size of 0 is divided by.
-/
def sendCommand (s : RtmpSessionBase) (command : ClientCommand) (body : List UInt8)
    : Option ClientEvent :=
  if s.getChunkSize = 0 then
    none
  else
    some (.sent command (writeDataByChunkStream 3 0 rtmpCommandMessagesAmf0 0 s.getChunkSize body))

/--
The bits of an integer as a `double`, which holds the integers below `2 ^ 53`.
-/
def transid (transactionId : Nat) : Nat :=
  let exponent := transactionId.log2
  if transactionId = 0 then 0
  else (exponent + 1023) * 2 ^ 52 + (transactionId - 2 ^ exponent) * 2 ^ (52 - exponent)

def rtmpConnect (s : RtmpSessionBase) : Option ClientEvent :=
  s.sendCommand .connect
    (encodeString (bytesOf "connect") ++ encodeNumber (transid s.req.transactionId)
      ++ encodeStrings
        [(bytesOf "app", s.req.app), (bytesOf "flashVer", bytesOf "FMS.3.1"),
          (bytesOf "tcUrl", s.req.tcurl), (bytesOf "type", bytesOf "nonprivate")])

def rtmpCreatestream (s : RtmpSessionBase) : Option ClientEvent :=
  s.sendCommand .createStream
    (encodeString (bytesOf "createStream") ++ encodeNumber (transid s.req.transactionId)
      ++ encodeNull)

def rtmpPlay (s : RtmpSessionBase) : Option ClientEvent :=
  s.sendCommand .play
    (encodeString (bytesOf "play") ++ encodeNumber (transid 0) ++ encodeNull
      ++ encodeString s.req.streamName)

def rtmpPublish (s : RtmpSessionBase) : Option ClientEvent :=
  s.sendCommand .publish
    (encodeString (bytesOf "publish") ++ encodeNumber (transid 0) ++ encodeNull
      ++ encodeString s.req.streamName ++ encodeString (bytesOf "live"))

end Commands

section ReceiveRespMessage

/--
The messages behind which `ReceiveRespMessage` returns when the receive buffer is empty.
-/
def isReply (cs : ChunkStream) : Bool :=
  isControlMessage cs ∨ cs.typeId = rtmpCommandMessagesAmf0

/--
What is done with a chunk stream that became ready. One of a type that is not supported stays as it
is.
-/
def handleReady (s : RtmpSessionBase) (cs : ChunkStream)
    : Incremental.Result RtmpSessionBase ClientEvent :=
  let handled := ClientEvent.handled s.clientPhase cs
  if isControlMessage cs then
    match s.handleRtmpControlMessage cs with
    | some (s, buffers) => ([handled, .answered buffers], some (s.resetChunkStream cs))
    | none => ([handled], none)
  else if cs.typeId = rtmpCommandMessagesAmf0 then
    match handleServerCommandMessage s.req.publishFlag s.clientPhase cs.chunkData with
    | .ok next =>
      let next := if s.clientPhase = .createPlaypublishResp then .mediaHandle else next
      ([handled], some ({ s with clientPhase := next }.resetChunkStream cs))
    | .error fault => (handled :: fault.events, none)
  else if isMediaMessage cs then
    match getMediaPacket cs with
    | .ok pkt =>
      if pkt.data = [] then ([handled], none)
      else ([handled, .onMessage pkt], some (s.resetChunkStream cs))
    | .error fault => (handled :: fault.events, none)
  else
    ([handled], some s)

/--
The chunk stream `ReadChunkStream` returned, when it is ready.
-/
def readyChunkStream (s : RtmpSessionBase) : Option ChunkStream :=
  s.csPtr.filter ChunkStream.isReady

def receiveLoop : Nat → RtmpSessionBase → Ret × List ClientEvent × RtmpSessionBase
  | 0, s => (.needReadMore, [], s)
  | fuel + 1, s =>
    match s.readChunkStream with
    | (.ok, s) =>
      match s.readyChunkStream with
      | none => if s.recvBuffer = [] then (.needReadMore, [], s) else receiveLoop fuel s
      | some cs =>
        match s.handleReady cs with
        | (out, none) => (.error, out, s)
        | (out, some s) =>
          if isReply cs ∧ s.recvBuffer = [] then
            (.ok, out, s)
          else
            let (ret, out', s) := receiveLoop fuel s
            (ret, out ++ out', s)
    | (ret, s) => (ret, [], s)

/--
Every turn of the loop shortens the receive buffer or reads the header of a chunk.
-/
def receiveRespMessage (s : RtmpSessionBase) : Ret × List ClientEvent × RtmpSessionBase :=
  receiveLoop (2 * s.recvBuffer.length + 2) s

end ReceiveRespMessage

section HandleMessage

def s0s1s2Size : Nat := 1536 * 2 + 1

def rtmpHandshakeVersion : UInt8 := 3

/--
The stages of `HandleMessage` return or pass the session on to the next one.
-/
inductive Stage where
  | returned (ret : Ret) (out : List ClientEvent) (s : RtmpSessionBase)
  | passed (out : List ClientEvent) (s : RtmpSessionBase)

def Stage.prepend (out : List ClientEvent) : Stage → Stage
  | .returned ret out' s => .returned ret (out ++ out') s
  | .passed out' s => .passed (out ++ out') s

def Stage.andThen (stage : Stage) (next : RtmpSessionBase → Stage) : Stage :=
  match stage with
  | .returned ret out s => .returned ret out s
  | .passed out s => (next s).prepend out

def resetRecvBuffer (s : RtmpSessionBase) : RtmpSessionBase := { s with recvBuffer := [] }

def setPhase (s : RtmpSessionBase) (phase : ClientPhase) : RtmpSessionBase :=
  { s with clientPhase := phase }

/--
Send a command, clear the receive buffer and wait for the response in the next phase.
-/
def sendAndWait (event : Option ClientEvent) (phase : ClientPhase) (s : RtmpSessionBase) : Stage :=
  match event with
  | some event => .returned .needReadMore [event] (s.resetRecvBuffer.setPhase phase)
  | none => .returned .error [] s

def handleS0S1S2 (s : RtmpSessionBase) : Stage :=
  if s.clientPhase = .c0c1 then
    if s.recvBuffer.length < s0s1s2Size then .returned .needReadMore [] s
    else if s.recvBuffer.head? ≠ some rtmpHandshakeVersion then .returned .error [] s
    else sendAndWait s.rtmpConnect .connectResp s
  else
    .passed [] s

/--
Wait for a response. `next` is what happens when `ReceiveRespMessage` returns 0.
-/
def handleResp (phase : ClientPhase) (next : RtmpSessionBase → RtmpSessionBase)
    (s : RtmpSessionBase) : Stage :=
  if s.clientPhase = phase then
    match s.receiveRespMessage with
    | (.ok, out, s) => .passed out (next s)
    | (ret, out, s) => .returned ret out s
  else
    .passed [] s

def handleConnectResp : RtmpSessionBase → Stage :=
  handleResp .connectResp fun s => s.setPhase .createStream

def handleCreateStream (s : RtmpSessionBase) : Stage :=
  if s.clientPhase = .createStream then sendAndWait s.rtmpCreatestream .createStreamResp s
  else .passed [] s

def handleCreateStreamResp : RtmpSessionBase → Stage :=
  handleResp .createStreamResp fun s =>
    (s.setPhase (playpublishPhase s.req.publishFlag)).resetRecvBuffer

def handleCreatePlay (s : RtmpSessionBase) : Stage :=
  if s.clientPhase = .createPlay then sendAndWait s.rtmpPlay .createPlaypublishResp s
  else .passed [] s

def handleCreatePublish (s : RtmpSessionBase) : Stage :=
  if s.clientPhase = .createPublish then sendAndWait s.rtmpPublish .createPlaypublishResp s
  else .passed [] s

def handlePlaypublishResp : RtmpSessionBase → Stage :=
  handleResp .createPlaypublishResp fun s => (s.setPhase .mediaHandle).resetRecvBuffer

def handleMedia (s : RtmpSessionBase) : Stage :=
  if s.clientPhase = .mediaHandle then
    match s.receiveRespMessage with
    | (.error, out, s) => .returned .error out s
    | (_, out, s) => .returned .needReadMore out s
  else
    .passed [] s

def handleMessage (s : RtmpSessionBase) : Stage :=
  s.handleS0S1S2.andThen handleConnectResp
    |>.andThen handleCreateStream
    |>.andThen handleCreateStreamResp
    |>.andThen handleCreatePlay
    |>.andThen handleCreatePublish
    |>.andThen handlePlaypublishResp
    |>.andThen handleMedia

end HandleMessage

/--
What the session has done, and its state if it goes on reading.
-/
def Stage.result : Stage → Incremental.Result RtmpSessionBase ClientEvent
  | .returned .needReadMore out s => (out, some s)
  | .returned _ out _ => (out, none)
  | .passed out _ => (out, none)

def onRead (s : RtmpSessionBase) (data : List UInt8)
    : Incremental.Result RtmpSessionBase ClientEvent :=
  (s.feed data).handleMessage.result

/--
The session after `OnConnect`.
-/
def onConnect (req : RtmpRequest) : RtmpSessionBase := { req := req, clientPhase := .c0c1 }

def runClient (s : RtmpSessionBase) : List (List UInt8) → Incremental.Result RtmpSessionBase ClientEvent
  | [] => ([], some s)
  | data :: reads => (s.onRead data).andThen fun s => runClient s reads

end RtmpSessionBase

end Rtmp
