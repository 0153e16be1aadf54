import CppStreamer.Net.Rtmp.SessionBase

/-!
This module contains the handling of control messages from `rtmp_control_handler.cpp`.
-/

namespace Rtmp

open ByteStream

def rtmpControlSetChunkSize : UInt8 := 1
def rtmpControlAbortMessage : UInt8 := 2
def rtmpControlAck : UInt8 := 3
def rtmpControlUserCtrlMessages : UInt8 := 4
def rtmpControlWindowAckSize : UInt8 := 5
def rtmpControlSetPeerBandwidth : UInt8 := 6

namespace RtmpSessionBase

/--
The buffer `SendSetChunksize` passes to `RtmpSend`.
-/
def sendSetChunksize (s : RtmpSessionBase) (chunkSize : Nat) : List UInt8 :=
  match (ChunkStream.new 0 3 s.getChunkSize).genControlMessage rtmpControlSetChunkSize 4 chunkSize with
  | some cs => cs.chunkAll
  | none => []

/--
Handle a control message: the session afterwards and the buffers sent, or nothing when the message is
refused. A new chunk size is taken over for both directions and announced in turn.
-/
def handleRtmpControlMessage (s : RtmpSessionBase) (cs : ChunkStream)
    : Option (RtmpSessionBase × List (List UInt8)) :=
  if cs.typeId = rtmpControlSetChunkSize then
    if cs.chunkData.length < 4 then
      none
    else
      let s := s.setChunkSize (read4Bytes cs.chunkData)
      some (s, [s.sendSetChunksize s.getChunkSize])
  else if cs.typeId = rtmpControlWindowAckSize then
    if cs.chunkData.length < 4 then
      none
    else
      some ({ s with remoteWindowAcksize := read4Bytes cs.chunkData }, [])
  else
    some (s, [])

/--
The messages a session handles itself.
-/
def isControlMessage (cs : ChunkStream) : Bool :=
  decide (rtmpControlSetChunkSize ≤ cs.typeId ∧ cs.typeId ≤ rtmpControlSetPeerBandwidth)

theorem handleRtmpControlMessage_feed (s : RtmpSessionBase) (cs : ChunkStream) (x : List UInt8)
    : (s.feed x).handleRtmpControlMessage cs
      = (s.handleRtmpControlMessage cs).map fun (s', sent) => (s'.feed x, sent) := by
  simp only [handleRtmpControlMessage]
  repeat' split
  all_goals rfl

/--
Only a Set Chunk Size message changes the chunk size or causes an answer.
-/
theorem handleRtmpControlMessage_cases {s s' : RtmpSessionBase} {cs : ChunkStream}
    {sent : List (List UInt8)} (h : s.handleRtmpControlMessage cs = some (s', sent))
    : (cs.typeId = rtmpControlSetChunkSize ∧ s'.chunkSize = read4Bytes cs.chunkData
        ∧ sent = [s'.sendSetChunksize s'.chunkSize])
      ∨ (cs.typeId ≠ rtmpControlSetChunkSize ∧ s'.chunkSize = s.chunkSize ∧ sent = []) := by
  simp only [handleRtmpControlMessage] at h
  split at h
  . next hset =>
    split at h
    . simp at h
    . simp only [Option.some.injEq, Prod.mk.injEq] at h
      rcases h with ⟨rfl, rfl⟩
      exact .inl ⟨hset, rfl, rfl⟩
  . next hset =>
    right
    repeat' split at h
    all_goals
      simp only [Option.some.injEq, Prod.mk.injEq, reduceCtorEq] at h
      try exact ⟨hset, by rw [← h.1], h.2.symm⟩

theorem handleRtmpControlMessage_frame {s s' : RtmpSessionBase} {cs : ChunkStream}
    {sent : List (List UInt8)} (h : s.handleRtmpControlMessage cs = some (s', sent))
    : s'.recvBuffer = s.recvBuffer ∧ s'.fmtReady = s.fmtReady ∧ s'.csMap = s.csMap
      ∧ s'.csid = s.csid ∧ s'.clientPhase = s.clientPhase ∧ s'.req = s.req := by
  simp only [handleRtmpControlMessage] at h
  repeat' split at h
  all_goals
    simp only [Option.some.injEq, Prod.mk.injEq, reduceCtorEq] at h
    try simp [← h.1, setChunkSize]

end RtmpSessionBase

end Rtmp
