import CppStreamer.Basic.Checked
import CppStreamer.Net.Rtmp.ClientSession

/-!
This module contains `GetMediaPacket` with the bytes of the message that it reads, and the messages for which it
does what it is meant to do.
-/

open ByteStream Checked

namespace Rtmp

/--
What `GetMediaPacket` relies on: the bytes of the payload that are read, and that the `assert(0)` is not
reached.
-/
inductive MediaCheck where
  | read (offset len total : Nat)
  | unreachable
  deriving DecidableEq, Repr

def MediaCheck.Holds : MediaCheck → Prop
  | read offset len total => offset + len ≤ total
  | unreachable => False

instance : DecidablePred MediaCheck.Holds := fun c => by
  cases c
  all_goals
    unfold MediaCheck.Holds
    infer_instance

/--
A packet with what it says about the message and the stream it comes from.
-/
structure RtmpMediaPacket extends MediaPacket where
  typeId : UInt8 := 0
  app : List UInt8 := []
  streamName : List UInt8 := []
  key : List UInt8 := []
  streamId : Nat := 0
  deriving DecidableEq, Repr

/--
The request of a session with the key of its stream.
-/
structure StreamRequest extends RtmpRequest where
  key : List UInt8 := []
  deriving DecidableEq, Repr

section GetMediaPacket

variable (cs : ChunkStream)

def readPayload (offset len : Nat) : Checked MediaCheck (List UInt8) := do
  check (.read offset len cs.chunkData.length)
  return (cs.chunkData.drop offset).take len

/--
The codec and the flags of a video, and its composition time, or the packet that is given up.
-/
def readVideo (pkt : RtmpMediaPacket) : Checked MediaCheck (RtmpMediaPacket × Option Nat) := do
  let header ← readPayload cs 0 2
  let p0 := header.getD 0 0
  let p1 := header.getD 1 0
  match videoCodec (p0 &&& 0x0f) with
  | none => return ({ pkt with avType := .video }, none)
  | some codecType =>
    let frameType := p0 &&& 0xf0
    let pkt := { pkt with avType := .video, codecType }
    if frameType = flvVideoKeyFlag ∧ p1 ≠ flvVideoAvcSeqhdr ∧ p1 ≠ flvVideoAvcNalu then
      return (pkt, none)
    else
      let tsDelta ← readPayload cs 2 3
      let pkt :=
        { pkt with
          isSeqHdr := frameType = flvVideoKeyFlag ∧ p1 = flvVideoAvcSeqhdr
          isKeyFrame := frameType = flvVideoKeyFlag ∧ p1 = flvVideoAvcNalu }
      return (pkt, some (read3Bytes tsDelta))

/--
The codec of an audio and its flag. A codec that is not known is an assertion.
-/
def readAudio (pkt : RtmpMediaPacket) : Checked MediaCheck (RtmpMediaPacket × Option Nat) := do
  let header ← readPayload cs 0 2
  let frameType := header.getD 0 0 &&& 0xf0
  let pkt := { pkt with avType := .audio }
  if frameType = flvAudioAacCodec then
    return ({ pkt with codecType := .aac, isSeqHdr := header.getD 1 0 = 0x00 }, some 0)
  else if frameType = flvAudioOpusCodec then
    return ({ pkt with codecType := .opus, isSeqHdr := header.getD 1 0 = 0x00 }, some 0)
  else
    check .unreachable
    return (pkt, none)

/--
The branch of a type of message. There is no time for a packet that is given up.
-/
def readMedia (pkt : RtmpMediaPacket) : Checked MediaCheck (RtmpMediaPacket × Option Nat) :=
  if cs.typeId = rtmpMediaPacketVideo then readVideo cs pkt
  else if cs.typeId = rtmpMediaPacketAudio then readAudio cs pkt
  else if cs.typeId = rtmpCommandMessagesMetaData0 ∨ cs.typeId = rtmpCommandMessagesMetaData3 then
    return ({ pkt with avType := .metadata }, some 0)
  else do
    check .unreachable
    return (pkt, none)

/--
`GetMediaPacket`, whose null pointer is `none`. A packet that is given up is returned as it is then.
-/
def checkedMediaPacket (req : StreamRequest) : Checked MediaCheck (Option RtmpMediaPacket) := do
  if cs.chunkData.length < 2 then return none
  else
    let (pkt, tsDelta) ← readMedia cs { typeId := cs.typeId, fmtType := .flv }
    match tsDelta with
    | none => return some pkt
    | some tsDelta =>
      let data ← readPayload cs 0 cs.chunkData.length
      return some
        { pkt with
          dts := cs.timestamp32
          pts := cs.timestamp32 + tsDelta
          data
          app := req.app
          streamName := req.streamName
          key := req.key
          streamId := cs.msgStreamId }

/--
The time field of a video tag.
-/
def compositionTime : Nat :=
  if cs.typeId = rtmpMediaPacketVideo then read3Bytes ((cs.chunkData.drop 2).take 3) else 0

/--
`GetMediaPacket` stays inside the payload and reaches no assertion, and a packet that it returns has the payload
as its data and the composition time between its times.
-/
structure Extracts (req : StreamRequest) : Prop where
  passes : (checkedMediaPacket cs req).Passes MediaCheck.Holds
  data : ∀ pkt, (checkedMediaPacket cs req).value = some pkt → pkt.data = cs.chunkData
  time : ∀ pkt, (checkedMediaPacket cs req).value = some pkt → pkt.pts - pkt.dts = compositionTime cs

/--
A video message with a known codec and its whole header, in which a key frame is a sequence header or NALUs.
-/
structure VideoComplete : Prop where
  codec : videoCodec (cs.chunkData.getD 0 0 &&& 0x0f) ≠ none
  keyFrame : cs.chunkData.getD 0 0 &&& 0xf0 = flvVideoKeyFlag →
    cs.chunkData.getD 1 0 = flvVideoAvcSeqhdr ∨ cs.chunkData.getD 1 0 = flvVideoAvcNalu
  header : 5 ≤ cs.chunkData.length

/--
The message has no more than a byte, or it is a complete video, an audio of AAC or Opus, or metadata.
-/
def MediaComplete : Prop :=
  cs.chunkData.length < 2
    ∨ cs.typeId = rtmpMediaPacketVideo ∧ VideoComplete cs
    ∨ cs.typeId = rtmpMediaPacketAudio
      ∧ (cs.chunkData.getD 0 0 &&& 0xf0 = flvAudioAacCodec ∨ cs.chunkData.getD 0 0 &&& 0xf0 = flvAudioOpusCodec)
    ∨ cs.typeId = rtmpCommandMessagesMetaData0
    ∨ cs.typeId = rtmpCommandMessagesMetaData3

end GetMediaPacket

section Extracts

variable {cs : ChunkStream} {pkt : RtmpMediaPacket}

theorem readPayload_value (offset len : Nat)
    : (readPayload cs offset len).value = (cs.chunkData.drop offset).take len := rfl

theorem readPayload_passes (offset len : Nat)
    : (readPayload cs offset len).Passes MediaCheck.Holds ↔ offset + len ≤ cs.chunkData.length := by
  simp [readPayload, MediaCheck.Holds]

theorem header_getD (cs : ChunkStream)
    : ((cs.chunkData.drop 0).take 2).getD 0 0 = cs.chunkData.getD 0 0
    ∧ ((cs.chunkData.drop 0).take 2).getD 1 0 = cs.chunkData.getD 1 0 := by
  simp

/--
The message is one that is read, with a time.
-/
def Reads (m : Checked MediaCheck (RtmpMediaPacket × Option Nat)) (time : Nat) : Prop :=
  m.Passes MediaCheck.Holds ∧ m.value.2 = some time

theorem readVideo_reads (h : 2 ≤ cs.chunkData.length)
    : Reads (readVideo cs pkt) (read3Bytes ((cs.chunkData.drop 2).take 3)) ↔ VideoComplete cs := by
  have hheader := header_getD cs
  unfold Reads readVideo
  simp only [passes_bind, value_bind, readPayload_passes, readPayload_value, hheader.left, hheader.right, h,
    Nat.zero_add, true_and]
  cases hcodec : videoCodec (cs.chunkData.getD 0 0 &&& 0x0f) with
  | none =>
    simp only [value_pure, reduceCtorEq, and_false, false_iff]
    intro hcomplete
    exact hcomplete.codec hcodec
  | some codecType =>
    simp only
    split
    . next hkey =>
      simp only [value_pure, reduceCtorEq, and_false, false_iff]
      intro hcomplete
      rcases hcomplete.keyFrame hkey.left with hseqHdr | hnalu
      . exact hkey.right.left hseqHdr
      . exact hkey.right.right hnalu
    . next hkey =>
      simp only [passes_bind, value_bind, readPayload_passes, readPayload_value, passes_pure, value_pure, and_true]
      constructor
      . intro hlen
        refine ⟨?_, ?_, hlen⟩
        . rw [hcodec]
          exact Option.some_ne_none _
        intro hframe
        by_contra hne
        exact hkey ⟨hframe, not_or.mp hne⟩
      . intro hcomplete
        have hlen := hcomplete.header
        omega

theorem readAudio_reads (h : 2 ≤ cs.chunkData.length)
    : Reads (readAudio cs pkt) 0
        ↔ cs.chunkData.getD 0 0 &&& 0xf0 = flvAudioAacCodec
          ∨ cs.chunkData.getD 0 0 &&& 0xf0 = flvAudioOpusCodec := by
  have hheader := header_getD cs
  unfold Reads readAudio
  simp only [passes_bind, value_bind, readPayload_passes, readPayload_value, hheader.left, hheader.right, h,
    Nat.zero_add, true_and]
  split
  . next haac => simp only [passes_pure, value_pure, haac, true_or, and_self]
  . next haac =>
    split
    . next hopus => simp only [passes_pure, value_pure, hopus, or_true, and_self]
    . next hopus => simp only [passes_bind, passes_check, MediaCheck.Holds, haac, hopus, false_and, or_self]

theorem readMedia_reads (h : 2 ≤ cs.chunkData.length)
    : Reads (readMedia cs pkt) (compositionTime cs) ↔ MediaComplete cs := by
  have htypes : rtmpMediaPacketVideo ≠ rtmpMediaPacketAudio
      ∧ rtmpMediaPacketVideo ≠ rtmpCommandMessagesMetaData0 ∧ rtmpMediaPacketVideo ≠ rtmpCommandMessagesMetaData3
      ∧ rtmpMediaPacketAudio ≠ rtmpCommandMessagesMetaData0
      ∧ rtmpMediaPacketAudio ≠ rtmpCommandMessagesMetaData3 := by decide
  have hlen : ¬cs.chunkData.length < 2 := Nat.not_lt_of_le h
  unfold readMedia MediaComplete compositionTime
  by_cases hvideo : cs.typeId = rtmpMediaPacketVideo
  . simp only [hvideo, if_true, hlen, htypes, false_and, false_or, or_false, true_and]
    exact readVideo_reads h
  . simp only [hvideo, if_false, hlen, false_and, false_or]
    by_cases haudio : cs.typeId = rtmpMediaPacketAudio
    . simp only [haudio, if_true, htypes, or_false, true_and]
      exact readAudio_reads h
    . simp only [haudio, if_false, false_and, false_or]
      split
      . next hmeta => simp [Reads, hmeta]
      . next hmeta => simp [Reads, hmeta, MediaCheck.Holds]

theorem readMedia_data (cs : ChunkStream) (pkt : RtmpMediaPacket)
    : (readMedia cs pkt).value.1.data = pkt.data := by
  unfold readMedia
  split
  . unfold readVideo
    simp only [value_bind]
    split
    . rfl
    . split
      . rfl
      . rfl
  . split
    . unfold readAudio
      simp only [value_bind]
      split
      . rfl
      . split
        . rfl
        . rfl
    . split
      . rfl
      . rfl

/--
A message is extracted if it is read up to its time, and only then.
-/
theorem extracts_iff_reads (req : StreamRequest) (h : 2 ≤ cs.chunkData.length)
    : Extracts cs req ↔ Reads (readMedia cs { typeId := cs.typeId, fmtType := .flv }) (compositionTime cs) := by
  have hdata := readMedia_data cs { typeId := cs.typeId, fmtType := .flv }
  have hlen : ¬cs.chunkData.length < 2 := Nat.not_lt_of_le h
  have hget : checkedMediaPacket cs req
      = readMedia cs { typeId := cs.typeId, fmtType := .flv } >>= fun (pkt, tsDelta) =>
        match tsDelta with
        | none => pure (some pkt)
        | some tsDelta => readPayload cs 0 cs.chunkData.length >>= fun data => pure (some
            { pkt with
              dts := cs.timestamp32
              pts := cs.timestamp32 + tsDelta
              data
              app := req.app
              streamName := req.streamName
              key := req.key
              streamId := cs.msgStreamId }) := if_neg hlen
  have hextracts : Extracts cs req ↔ (checkedMediaPacket cs req).Passes MediaCheck.Holds
      ∧ ∀ pkt, (checkedMediaPacket cs req).value = some pkt →
        pkt.data = cs.chunkData ∧ pkt.pts - pkt.dts = compositionTime cs := by
    constructor
    . intro h
      exact ⟨h.passes, fun pkt hpkt => ⟨h.data pkt hpkt, h.time pkt hpkt⟩⟩
    . rintro ⟨hpasses, hpkt⟩
      exact ⟨hpasses, fun pkt h => (hpkt pkt h).left, fun pkt h => (hpkt pkt h).right⟩
  rw [hextracts, hget]
  unfold Reads
  rw [passes_bind, value_bind]
  generalize readMedia cs { typeId := cs.typeId, fmtType := .flv } = m at hdata ⊢
  have hsame : m.value = (m.value.1, m.value.2) := rfl
  cases htime : m.value.2 with
  | none =>
    simp only [reduceCtorEq, and_false, iff_false]
    rintro ⟨-, hpkt⟩
    rw [hsame, htime] at hpkt
    have hchunk := (hpkt m.value.1 rfl).left
    rw [hdata] at hchunk
    rw [← hchunk] at h
    cases h
  | some tsDelta =>
    rw [hsame, htime]
    simp only [passes_bind, passes_pure, value_bind, value_pure, readPayload_passes, readPayload_value,
      Nat.zero_add, Nat.le_refl, Option.some.injEq, forall_eq', List.drop_zero, List.take_length]
    simp only [and_true, true_and]
    apply and_congr_right
    intro _
    omega

/--
The packet that the session hands on is the one that is read, as long as nothing goes wrong.
-/
theorem getMediaPacket_eq (req : StreamRequest) (hmedia : isMediaMessage cs)
    (hpasses : (checkedMediaPacket cs req).Passes MediaCheck.Holds)
    : getMediaPacket cs = match (checkedMediaPacket cs req).value with
        | none => .error .refused
        | some pkt => .ok pkt.toMediaPacket := by
  unfold getMediaPacket
  unfold checkedMediaPacket at hpasses ⊢
  split
  . next p0 p1 p hdata =>
    have hlen : ¬cs.chunkData.length < 2 := by simp [hdata]
    have hheader := header_getD cs
    have h0 : cs.chunkData.getD 0 0 = p0 := by rw [hdata]; rfl
    have h1 : cs.chunkData.getD 1 0 = p1 := by rw [hdata]; rfl
    have hfield : (cs.chunkData.drop 2).take 3 = p.take 3 := by rw [hdata]; rfl
    rw [if_neg hlen, passes_bind] at hpasses
    rw [if_neg hlen, value_bind]
    unfold readMedia at hpasses ⊢
    by_cases hvideo : cs.typeId = rtmpMediaPacketVideo
    . rw [if_pos hvideo, if_pos hvideo]
      rw [if_pos hvideo] at hpasses
      have hread := hpasses.left
      unfold readVideo at hread ⊢
      simp only [passes_bind, value_bind, readPayload_passes, readPayload_value, hheader.left, hheader.right, h0,
        h1] at hread ⊢
      cases hcodec : videoCodec (p0 &&& 0x0f) with
      | none => rfl
      | some codecType =>
        rw [hcodec] at hread
        simp only at hread ⊢
        split
        . rfl
        . next hkey =>
          rw [if_neg hkey] at hread
          simp only [passes_bind, readPayload_passes, hdata, List.length_cons] at hread
          have hsame : read3Bytes (p.take 3) = read3Bytes p := by
            have happend := read3Bytes_append (p.take 3) (p.drop 3)
            rw [List.take_append_drop] at happend
            rw [happend]
            rw [List.length_take]
            omega
          rw [if_neg (by omega)]
          simp only [value_bind, value_pure, readPayload_value, hfield, hsame, List.drop_zero, List.take_length]
          rfl
    . rw [if_neg hvideo, if_neg hvideo]
      rw [if_neg hvideo] at hpasses
      by_cases haudio : cs.typeId = rtmpMediaPacketAudio
      . rw [if_pos haudio, if_pos haudio]
        rw [if_pos haudio] at hpasses
        have hread := hpasses.left
        unfold readAudio at hread ⊢
        simp only [passes_bind, value_bind, readPayload_passes, readPayload_value, hheader.left, hheader.right, h0,
          h1] at hread ⊢
        split
        . simp only [value_bind, value_pure, readPayload_value, List.drop_zero, List.take_length]
          rfl
        . next haac =>
          rw [if_neg haac] at hread
          split
          . simp only [value_bind, value_pure, readPayload_value, List.drop_zero, List.take_length]
            rfl
          . next hopus =>
            rw [if_neg hopus] at hread
            exact absurd hread.right (by simp [MediaCheck.Holds])
      . have hmeta : cs.typeId = rtmpCommandMessagesMetaData0 ∨ cs.typeId = rtmpCommandMessagesMetaData3 := by
          simpa [isMediaMessage, hvideo, haudio] using hmedia
        rw [if_neg haudio, if_neg haudio, if_pos hmeta]
        simp only [value_bind, value_pure, readPayload_value, List.drop_zero, List.take_length]
        rfl
  . next hshort =>
    have hlen : cs.chunkData.length < 2 := by
      rcases hdata : cs.chunkData with _ | ⟨p0, _ | ⟨p1, p⟩⟩
      . simp
      . simp
      . exact absurd hdata (hshort p0 p1 p)
    rw [if_pos hlen]
    rfl

/--
`GetMediaPacket` does what it is meant to do on complete messages, and only on these.
-/
theorem extracts_iff (cs : ChunkStream) (req : StreamRequest) : Extracts cs req ↔ MediaComplete cs := by
  by_cases hlen : cs.chunkData.length < 2
  . have hnone : checkedMediaPacket cs req = pure none := if_pos hlen
    simp only [MediaComplete, hlen, true_or, iff_true]
    constructor
    . rw [hnone]
      exact passes_pure none
    all_goals
      rw [hnone]
      rintro _ ⟨⟩
  . have hle := Nat.le_of_not_lt hlen
    rw [extracts_iff_reads req hle, readMedia_reads hle]

/--
A video message that ends behind the type of its packet.
-/
theorem not_extracts
    : ¬∀ (cs : ChunkStream) (req : StreamRequest), cs.isReady → isMediaMessage cs → Extracts cs req := by
  intro h
  have hpasses :=
    (h { typeId := rtmpMediaPacketVideo, msgLen := 2, chunkData := [0x27, 0x01], chunkReady := true } {} rfl
      rfl).passes
  exact absurd (hpasses (.read 2 3 2) (by decide)) (by decide)

end Extracts

end Rtmp
