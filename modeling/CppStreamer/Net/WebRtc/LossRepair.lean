import CppStreamer.Net.WebRtc.HandleRtcp
import CppStreamer.Net.WebRtc.NackPackets
import CppStreamer.Net.WebRtc.VideoDelivery

/-!
This module contains a video stream between two peers, over a network that loses, doubles and reorders datagrams: the
sender keeps its packets, the receiver asks for those that are missing, and takes what is sent again by RTX for the
packet that it was.
-/

open ByteStream RtpH264Pack
open RtpMemory (rtxFields)

/--
What the peers have agreed on. Without RTX its ssrc is 0.
-/
structure VideoSession where
  ssrc : UInt32
  pt : UInt8
  clockRate : Int
  hasRtx : Bool
  rtxPayload : UInt8
  rtxSsrc : UInt32
  msPull : Bool := false
  pt_lt : pt < 0x80
  ssrc_ne : ssrc ≠ rtxSsrc

namespace RtcSendBuffer

def sendPackets (b : RtcSendBuffer) (clock : Nat → Int) : List (List UInt8) → Option (RtcSendBuffer × List (List UInt8))
  | [] => some (b, [])
  | data :: rest =>
    match b.sendPacket data (clock 0) with
    | none => none
    | some (b, out) =>
      match b.sendPackets (fun k => clock (k + 1)) rest with
      | none => none
      | some (b, outs) => some (b, out :: outs)

/--
What is sent for the NACKs among what has come in a datagram.
-/
def handleRtcpEvents (b : RtcSendBuffer) (clock : Nat → Nat → Int) (tooOften : Int → Bool)
    : List Rtcp.RtcpEvent → Option (RtcSendBuffer × List (List UInt8))
  | [] => some (b, [])
  | .nack .video nackPkt :: events =>
    match b.handleRtcpNack nackPkt (clock 0) tooOften with
    | none => none
    | some (b, out) =>
      match b.handleRtcpEvents (fun k => clock (k + 1)) tooOften events with
      | none => none
      | some (b, rest) => some (b, out ++ rest)
  | _ :: events => b.handleRtcpEvents clock tooOften events

end RtcSendBuffer

namespace VideoSession

def testSsrc : UInt32 := 1234

/--
`PeerConnection::HandleRtpData` of a decrypted datagram, as far as the video stream is concerned: the bytes of the packet
that the jitter buffer gets. `GenerateJitter` throws without a clock rate.
-/
def handleRtpData (s : VideoSession) (datagram : List UInt8) (localMs : Int) : Option (List UInt8) :=
  let m : RtpMemory := { data := fun _ => datagram }
  match m.parse (.pool 0) datagram.length localMs with
  | none => none
  | some pkt =>
    let ssrc := (m.load pkt).ssrc
    if s.msPull ∧ ssrc = testSsrc then none
    else if ssrc = s.ssrc ∨ ssrc = s.rtxSsrc then
      if ssrc ≠ s.rtxSsrc ∧ s.clockRate ≤ 0 then none
      else (m.recoverRtx pkt s.rtxSsrc s.ssrc s.pt).map fun (m, pkt) => m.getData pkt
    else none

structure Carries (s : VideoSession) (pkt : RtpPacket) : Prop where
  ssrc : pkt.ssrc = s.ssrc
  payloadType : pkt.payloadType = s.pt
  fits : Fits pkt

def IsResent (s : VideoSession) (data datagram : List UInt8) : Prop :=
  if s.hasRtx then ∃ seq, RtcSendBuffer.rtxPacket data s.rtxPayload s.rtxSsrc seq = some datagram
  else datagram = data

section Receive

variable {s : VideoSession} {pkt : RtpPacket} {datagram data : List UInt8} {localMs : Int}

theorem Carries.parse_bytes (h : s.Carries pkt) : RtpLayout.parse pkt.bytes = some ⟨12, pkt.payload.length, 0⟩ := by
  obtain ⟨hpos, hlen⟩ := h.fits
  apply pkt.parse_bytes hpos
  rw [RtpPacket.length_bytes]
  unfold kPayloadMaxSize at hlen
  unfold rtpPacketMaxSize
  omega

theorem exists_received {f : RtpFields} (hparse : RtpLayout.parse f.bytes
      = some { payload := 12 + f.rest.length, payloadLen := f.payload.length, padLen := 0 }) (localMs : Int)
    : ∃ received, RtpMemory.parse { data := fun _ => f.bytes } (.pool 0) f.bytes.length localMs = some received
        ∧ RtpMemory.HasFields { data := fun _ => f.bytes } received f ∧ received.padLen = 0 := by
  have hdata : (RtpMemory.data { data := fun _ => f.bytes } (.pool 0)).take f.bytes.length = f.bytes := List.take_length
  obtain ⟨received, hreceive, hfields, hpad, _⟩ := RtpMemory.hasFields_parse localMs hparse hdata
  exact ⟨received, hreceive, hfields, hpad⟩

theorem handleRtpData_bytes (h : s.Carries pkt) (localMs : Int)
    : s.handleRtpData pkt.bytes localMs
        = if (s.msPull = true ∧ s.ssrc = testSsrc) ∨ s.clockRate ≤ 0 then none else some pkt.bytes := by
  have hparse := h.parse_bytes
  rw [← pkt.bytes_fields] at hparse ⊢
  obtain ⟨received, hreceive, hfields, hpad⟩ := exists_received hparse localMs
  have hssrc : (RtpMemory.load { data := fun _ => pkt.fields.bytes } received).ssrc = s.ssrc := by
    rw [hfields.load hpad, ← h.ssrc]
    change UInt32.ofNat (read4Bytes (write4Bytes pkt.ssrc.toNat)) = pkt.ssrc
    rw [read4Bytes_write4Bytes_of_lt pkt.ssrc.toNat_lt, UInt32.ofNat_toNat]
  unfold handleRtpData
  simp only [hreceive, hssrc, RtpMemory.recoverRtx, s.ssrc_ne, if_false, true_or, if_true, Option.map_some,
    hfields.getData hpad, ne_eq, not_false_eq_true, true_and]
  by_cases htest : s.msPull = true ∧ s.ssrc = testSsrc
  . rw [if_pos htest, if_pos (Or.inl htest)]
  . rw [if_neg htest]
    simp only [htest, false_or]

theorem handleRtpData_rtx (h : s.Carries pkt) {seq : UInt16}
    (hrtx : RtcSendBuffer.rtxPacket pkt.bytes s.rtxPayload s.rtxSsrc seq = some datagram) (localMs : Int)
    : s.handleRtpData datagram localMs
        = if s.msPull = true ∧ s.rtxSsrc = testSsrc then none else some pkt.bytes := by
  have hparse := h.parse_bytes
  obtain ⟨hpos, hlen⟩ := h.fits
  have hbytes : pkt.bytes = pkt.fields.bytes ++ [] := by
    rw [List.append_nil, pkt.bytes_fields]
  have hsent := RtpMemory.rtxPacket_eq hparse hbytes rfl rfl s.rtxPayload s.rtxSsrc seq
  rw [hsent, Option.some.injEq] at hrtx
  have hacc := RtpLayout.accepts_of_parse hparse
  rw [← pkt.bytes_fields, ← List.append_nil pkt.fields.bytes] at hacc
  have hrtxLen : (rtxFields pkt.fields s.rtxPayload s.rtxSsrc seq).bytes.length ≤ rtpPacketMaxSize := by
    simp only [rtxFields, RtpFields.bytes, List.length_append, RtpFields.length_header, pkt.fields.length_seq]
    unfold kPayloadMaxSize at hlen
    change 12 + 0 + (2 + pkt.payload.length) ≤ 1500
    omega
  have hrtxParse := RtpFields.parse_of_accepts (rtxFields pkt.fields s.rtxPayload s.rtxSsrc seq) hacc rfl rfl rfl
    (by simp only [rtxFields, List.length_append, pkt.fields.length_seq]; omega) hrtxLen
  obtain ⟨received, hreceive, hfields, hpad⟩ := exists_received hrtxParse.1 localMs
  subst hrtx
  have hssrc : (RtpMemory.load { data := fun _ => (rtxFields pkt.fields s.rtxPayload s.rtxSsrc seq).bytes }
      received).ssrc = s.rtxSsrc := by
    rw [hfields.load hpad]
    change UInt32.ofNat (read4Bytes (write4Bytes s.rtxSsrc.toNat)) = s.rtxSsrc
    rw [read4Bytes_write4Bytes_of_lt s.rtxSsrc.toNat_lt, UInt32.ofNat_toNat]
  obtain ⟨m', recovered, hdemux, hrecovered, hrecoveredPad, _⟩ := hfields.rtxDemux pkt.fields.length_seq rfl s.ssrc s.pt
  have hback : m'.HasFields recovered pkt.fields := by
    have hfirst : (pkt.fields.first &&& 0xdf) &&& 0xdf = pkt.fields.first := by
      change ((0x80 : UInt8) &&& 0xdf) &&& 0xdf = 0x80
      decide
    have hsecond : (((pkt.fields.second &&& 0x80) ||| (s.rtxPayload &&& 0x7f)) &&& 0x80) ||| (s.pt &&& 0x7f)
        = pkt.fields.second := by
      rw [← h.payloadType, ← pkt.type_fields (by rw [h.payloadType]; exact s.pt_lt)]
      apply RtpMemory.second_setBack
    have hssrcBack : write4Bytes s.ssrc.toNat = pkt.fields.ssrc := by
      rw [← h.ssrc]
      rfl
    simpa only [rtxFields, hfirst, hsecond, hssrcBack] using hrecovered
  unfold handleRtpData
  simp only [hreceive, hssrc, RtpMemory.recoverRtx, if_true, or_true, ne_eq, not_true_eq_false, false_and, if_false,
    hdemux, Option.map_some, hback.getData hrecoveredPad, pkt.bytes_fields]

end Receive

/--
The two peers with what is on its way between them, which may arrive any number of times and in any order, or never,
and with what has been sent and what the receiver has been called with so far.
-/
structure World where
  stream : RtcSendStream
  buffer : RtcSendBuffer
  generator : NackGenerator := {}
  receiver : VideoReceiver
  datagrams : List (List UInt8) := []
  nacks : List (List UInt8) := []
  media : List MediaPacket := []
  sent : List RtpPacket := []
  calls : List VideoCall := []
  events : List PackEvent := []

namespace World

def receiverCall (w : World) (call : VideoCall) : World :=
  { w with
    receiver := (w.receiver.call call).1
    calls := w.calls ++ [call]
    events := w.events ++ (w.receiver.call call).2 }

def receive (w : World) (s : VideoSession) (datagram : List UInt8) (localMs now : Int) (packNow : Nat → Int) : World :=
  match s.handleRtpData datagram localMs with
  | none => w
  | some data =>
    { w with generator := w.generator.updateNackList (RtcSendBuffer.getSeq data) }.receiverCall
      (.input s.clockRate data localMs now packNow)

end World

theorem length_nil_lt : ([] : List UInt8).length < 512 := Nat.zero_lt_succ 511

def startStream (s : VideoSession) : RtcSendStream where
  ssrc := s.ssrc
  pt := s.pt
  clockRate := s.clockRate
  sps := ⟨[], length_nil_lt⟩
  pps := ⟨[], length_nil_lt⟩

def startBuffer (s : VideoSession) (memory : RtpMemory) : RtcSendBuffer :=
  .new s.hasRtx s.rtxPayload s.rtxSsrc memory

def startReceiver : VideoReceiver where
  jitter := { mediaType := .video, bufferTimeout := jitterBufferVideoTimeout }

def start (s : VideoSession) (memory : RtpMemory) : World where
  stream := s.startStream
  buffer := s.startBuffer memory
  receiver := startReceiver

def rtcpStreams (s : VideoSession) : Rtcp.RtcpStreams where
  videoSend := some s.ssrc.toNat

-- What a shift by a negative count gives is left open.
variable (undefinedShift : Int → UInt16)

inductive Step (s : VideoSession) : World → World → Prop where
  | media {w : World} {stream : RtcSendStream} {pkts : List RtpPacket} {buffer : RtcSendBuffer}
      {out : List (List UInt8)} (pkt : MediaPacket) (clock : Nat → Int)
      (hstream : w.stream.sendH264Packet pkt = some (stream, pkts))
      (hbuffer : w.buffer.sendPackets clock (pkts.map RtpPacket.bytes) = some (buffer, out))
      : Step s w { w with
          stream := stream
          buffer := buffer
          media := w.media ++ [pkt]
          sent := w.sent ++ pkts
          datagrams := w.datagrams ++ out }
  | datagram {w : World} {datagram : List UInt8} (localMs now : Int) (packNow : Nat → Int)
      (h : datagram ∈ w.datagrams) : Step s w (w.receive s datagram localMs now packNow)
  | nackTimer {w : World} {generator : NackGenerator} {lost : List UInt16} {pkt : RtcpFbNack} (now : Int)
      (htimer : w.generator.onTimer now = (generator, lost)) (hlost : lost ≠ [])
      (hpkt : RtcRecvStream.generateNackList undefinedShift s.ssrc lost = some pkt)
      : Step s w { w with generator := generator, nacks := w.nacks ++ [pkt.data] }
  | quietTimer {w : World} {generator : NackGenerator} (now : Int)
      (htimer : w.generator.onTimer now = (generator, [])) : Step s w { w with generator := generator }
  | nack {w : World} {nack : List UInt8} {rtcp : List Rtcp.RtcpEvent} {buffer : RtcSendBuffer}
      {out : List (List UInt8)} (clock : Nat → Nat → Int) (tooOften : Int → Bool) (h : nack ∈ w.nacks)
      (hrtcp : Rtcp.HandlesRtcp s.rtcpStreams nack rtcp)
      (hbuffer : w.buffer.handleRtcpEvents clock tooOften rtcp = some (buffer, out))
      : Step s w { w with buffer := buffer, datagrams := w.datagrams ++ out }
  | jitterTimer {w : World} (now : Int) (packNow : Nat → Int) : Step s w (w.receiverCall (.jitterTimer now packNow))
  | packTimer {w : World} (now : Int) : Step s w (w.receiverCall (.packTimer now))

inductive Reachable (s : VideoSession) (memory : RtpMemory) : World → Prop where
  | start : Reachable s memory (s.start memory)
  | step {w w' : World} (h : Reachable s memory w) (hstep : Step undefinedShift s w w') : Reachable s memory w'

end VideoSession

namespace RtcSendBuffer

/--
What stays as it is when a packet is put into a slot or sent again out of it.
-/
structure Kept (k : Fin sendBufferSize) (b b' : RtcSendBuffer) : Prop where
  seq : b'.seq = b.seq
  hasRtx : b'.hasRtx = b.hasRtx
  rtxPayload : b'.rtxPayload = b.rtxPayload
  rtxSsrc : b'.rtxSsrc = b.rtxSsrc
  slots : ∀ j ≠ k, b'.sendBuffer j = b.sendBuffer j

variable {b b' : RtcSendBuffer} {data out : List UInt8} {resent : Option (List UInt8)} {now : Int}

theorem Kept.refl (k : Fin sendBufferSize) (b : RtcSendBuffer) : Kept k b b := ⟨rfl, rfl, rfl, rfl, fun _ _ => rfl⟩

theorem kept_sendPacket (hsend : b.sendPacket data now = some (b', out))
    : Kept (index (getSeq data)) { b with seq := b.seq + 1 } b' := by
  unfold sendPacket sendVideoRtpPacket at hsend
  simp only [Bool.false_eq_true, if_false] at hsend
  obtain ⟨saved, hsave, heq⟩ := Option.map_eq_some_iff.mp hsend
  cases heq
  unfold saveBuffer at hsave
  simp only at hsave
  split at hsave
  . split at hsave
    . cases hsave
    . cases hsave
      exact ⟨rfl, rfl, rfl, rfl, fun j hj => Function.update_of_ne hj _ _⟩
  . cases hsave
    exact ⟨rfl, rfl, rfl, rfl, fun _ _ => rfl⟩

theorem kept_resendRtpPacket {seq : UInt16} {tooOften : Int → Bool}
    (hresend : b.resendRtpPacket seq now tooOften = some (b', resent)) : Kept (index seq) b b' := by
  unfold resendRtpPacket at hresend
  simp only at hresend
  split at hresend
  . cases hresend
    exact .refl _ _
  . split at hresend
    . cases hresend
      exact .refl _ _
    . split at hresend
      . cases hresend
        exact .refl _ _
      . split at hresend
        . split at hresend
          . cases hresend
          . cases hresend
            exact ⟨rfl, rfl, rfl, rfl, fun j hj => Function.update_of_ne hj _ _⟩
        . cases hresend
          exact ⟨rfl, rfl, rfl, rfl, fun j hj => Function.update_of_ne hj _ _⟩

end RtcSendBuffer

namespace VideoSession

structure Sending (s : VideoSession) (memory : RtpMemory) (sent : List RtpPacket) (b : RtcSendBuffer) : Prop where
  run : RtcSendBuffer.Run (s.startBuffer memory) b (sent.map RtpPacket.bytes).reverse
  hasRtx : b.hasRtx = s.hasRtx
  rtxPayload : b.rtxPayload = s.rtxPayload
  rtxSsrc : b.rtxSsrc = s.rtxSsrc

section Send

variable {s : VideoSession} {memory : RtpMemory} {sent pkts : List RtpPacket} {b b' : RtcSendBuffer}

theorem add_ofNat_succ (seq : UInt16) (i : Nat) : seq + .ofNat (i + 1) = seq + 1 + .ofNat i := by
  rw [UInt16.ofNat_add, UInt16.add_comm (UInt16.ofNat i), ← UInt16.add_assoc]
  rfl

theorem Sending.sendPackets (h : s.Sending memory sent b) (clock : Nat → Int)
    (hseq : ∀ i pkt, pkts[i]? = some pkt → pkt.seq = b.seq + .ofNat i) (hfits : ∀ pkt ∈ pkts, Fits pkt)
    : ∃ b', b.sendPackets clock (pkts.map RtpPacket.bytes) = some (b', pkts.map RtpPacket.bytes)
        ∧ s.Sending memory (sent ++ pkts) b' ∧ b'.seq = b.seq + .ofNat pkts.length := by
  induction pkts generalizing b sent clock with
  | nil =>
    refine ⟨b, rfl, ?_, (UInt16.add_zero b.seq).symm⟩
    rw [List.append_nil]
    exact h
  | cons pkt pkts ih =>
    rw [List.forall_mem_cons] at hfits
    have hvideo := RtcSendBuffer.isVideoPacket_of_fits hfits.left
    have hfirst : RtcSendBuffer.getSeq pkt.bytes = b.seq := by
      rw [RtcSendBuffer.getSeq_bytes, hseq 0 pkt rfl]
      exact UInt16.add_zero b.seq
    obtain ⟨b₁, hsend, hnext, _⟩ := h.run.buffers.send hvideo hfirst (clock 0)
    have hkept := RtcSendBuffer.kept_sendPacket hsend
    have hsending : s.Sending memory (sent ++ [pkt]) b₁ := by
      refine ⟨?_, hkept.hasRtx.trans h.hasRtx, hkept.rtxPayload.trans h.rtxPayload, hkept.rtxSsrc.trans h.rtxSsrc⟩
      rw [List.map_append, List.reverse_append]
      exact .send h.run hvideo hfirst hsend
    obtain ⟨b', hrest, hsending', hnext'⟩ := ih hsending (fun k => clock (k + 1)) (by
      intro i later hlater
      rw [hseq (i + 1) later hlater, hnext, add_ofNat_succ]) hfits.right
    refine ⟨b', ?_, ?_, ?_⟩
    . simp only [List.map_cons, RtcSendBuffer.sendPackets, hsend, hrest]
    . rw [List.append_assoc] at hsending'
      exact hsending'
    . rw [hnext', hnext, List.length_cons, add_ofNat_succ]

theorem Sending.resendRtpPacket (h : s.Sending memory sent b) (seq : UInt16) (now : Int) (tooOften : Int → Bool)
    : ∃ b' out, b.resendRtpPacket seq now tooOften = some (b', out) ∧ s.Sending memory sent b' ∧ b'.seq = b.seq
        ∧ ∀ datagram ∈ out, ∃ pkt ∈ sent, s.IsResent pkt.bytes datagram := by
  obtain ⟨b', out, hresend, hresends⟩ := h.run.buffers.resend seq now tooOften
  have hkept := RtcSendBuffer.kept_resendRtpPacket hresend
  refine ⟨b', out, hresend, ?_, hkept.seq, ?_⟩
  . exact ⟨.resend h.run hresend, hkept.hasRtx.trans h.hasRtx, hkept.rtxPayload.trans h.rtxPayload,
      hkept.rtxSsrc.trans h.rtxSsrc⟩
  . intro datagram hdatagram
    obtain ⟨data, hmem, _, hsent⟩ := hresends.sends datagram hdatagram
    have hdata := List.mem_reverse.mp (List.mem_of_mem_take hmem)
    obtain ⟨pkt, hpkt, rfl⟩ := List.mem_map.mp hdata
    refine ⟨pkt, hpkt, ?_⟩
    unfold IsResent
    rw [h.hasRtx, h.rtxPayload, h.rtxSsrc] at hsent
    split
    . next hrtx =>
      rw [if_pos hrtx] at hsent
      exact ⟨_, hsent⟩
    . next hrtx =>
      rw [if_neg hrtx] at hsent
      exact hsent

theorem Sending.resendRtpPackets (h : s.Sending memory sent b) (tooOften : Int → Bool) (seqs : List (UInt16 × Int))
    : ∃ b' out, b.resendRtpPackets tooOften seqs = some (b', out) ∧ s.Sending memory sent b' ∧ b'.seq = b.seq
        ∧ ∀ datagram ∈ out, ∃ pkt ∈ sent, s.IsResent pkt.bytes datagram := by
  induction seqs generalizing b with
  | nil => exact ⟨b, [], rfl, h, rfl, nofun⟩
  | cons seq seqs ih =>
    obtain ⟨b₁, out, hresend, hsending, hseq, hout⟩ := h.resendRtpPacket seq.1 seq.2 tooOften
    obtain ⟨b', rest, hrest, hsending', hseq', hout'⟩ := ih hsending
    refine ⟨b', out.toList ++ rest, ?_, hsending', hseq'.trans hseq, ?_⟩
    . simp only [RtcSendBuffer.resendRtpPackets, hresend, hrest]
    . intro datagram hdatagram
      rcases List.mem_append.mp hdatagram with hdatagram | hdatagram
      . exact hout datagram (Option.mem_toList.mp hdatagram)
      . exact hout' datagram hdatagram

theorem Sending.handleRtcpNack (h : s.Sending memory sent b) (nackPkt : RtcpFbNack) (clock : Nat → Int)
    (tooOften : Int → Bool)
    : ∃ b' out, b.handleRtcpNack nackPkt clock tooOften = some (b', out) ∧ s.Sending memory sent b' ∧ b'.seq = b.seq
        ∧ ∀ datagram ∈ out, ∃ pkt ∈ sent, s.IsResent pkt.bytes datagram := by
  unfold RtcSendBuffer.handleRtcpNack
  rw [if_pos h.run.buffers.nackEnable]
  apply h.resendRtpPackets

theorem Sending.handleRtcpEvents (h : s.Sending memory sent b) (clock : Nat → Nat → Int) (tooOften : Int → Bool)
    (events : List Rtcp.RtcpEvent)
    : ∃ b' out, b.handleRtcpEvents clock tooOften events = some (b', out) ∧ s.Sending memory sent b' ∧ b'.seq = b.seq
        ∧ ∀ datagram ∈ out, ∃ pkt ∈ sent, s.IsResent pkt.bytes datagram := by
  fun_induction RtcSendBuffer.handleRtcpEvents b clock tooOften events with
  | case1 b clock => exact ⟨b, [], rfl, h, rfl, nofun⟩
  | case2 b clock nackPkt events hnone =>
    obtain ⟨b', out, hsome, _⟩ := h.handleRtcpNack nackPkt (clock 0) tooOften
    rw [hnone] at hsome
    cases hsome
  | case3 b clock nackPkt events b₁ out hnack hnone ih =>
    obtain ⟨b₂, out', hsome, hsending, _⟩ := h.handleRtcpNack nackPkt (clock 0) tooOften
    rw [hnack] at hsome
    cases hsome
    obtain ⟨_, _, hrest, _⟩ := ih hsending
    rw [hnone] at hrest
    cases hrest
  | case4 b clock nackPkt events b₁ out hnack b' rest hevents ih =>
    obtain ⟨b₂, out', hsome, hsending, hseq, hout⟩ := h.handleRtcpNack nackPkt (clock 0) tooOften
    rw [hnack] at hsome
    cases hsome
    obtain ⟨b₃, rest', hrest, hsending', hseq', hout'⟩ := ih hsending
    rw [hevents] at hrest
    cases hrest
    refine ⟨b', out ++ rest, rfl, hsending', hseq'.trans hseq, ?_⟩
    intro datagram hdatagram
    rcases List.mem_append.mp hdatagram with hdatagram | hdatagram
    . exact hout datagram hdatagram
    . exact hout' datagram hdatagram
  | case5 b clock event events hevent ih => exact ih h

end Send

end VideoSession

theorem RtcSendStream.sendH264Packets_concat {s s' s'' : RtcSendStream} {media : List MediaPacket}
    {sent pkts : List RtpPacket} {pkt : MediaPacket} (h : s.sendH264Packets media = some (s', sent))
    (hpkt : s'.sendH264Packet pkt = some (s'', pkts))
    : s.sendH264Packets (media ++ [pkt]) = some (s'', sent ++ pkts) := by
  induction media generalizing s sent with
  | nil =>
    cases h
    simp only [List.nil_append, sendH264Packets, hpkt, List.append_nil]
  | cons first media ih =>
    unfold sendH264Packets at h
    split at h
    . cases h
    . next s₁ out hfirst =>
      split at h
      . cases h
      . next s₂ rest hrest =>
        cases h
        simp only [List.cons_append, sendH264Packets, hfirst, ih hrest, List.append_assoc]

theorem VideoReceiver.run_concat (r : VideoReceiver) (calls : List VideoCall) (call : VideoCall)
    : r.run (calls ++ [call])
        = (((r.run calls).1.call call).1, (r.run calls).2 ++ ((r.run calls).1.call call).2) := by
  induction calls generalizing r with
  | nil => simp [VideoReceiver.run]
  | cons first calls ih => simp [VideoReceiver.run, ih]

theorem VideoReceiver.Arrival.call_packet {sent : List RtpPacket} {n : Nat} {pkt : RtpPacket} (h : sent[n]? = some pkt)
    (clockRate localMs now : Int) (packNow : Nat → Int)
    : (VideoReceiver.Arrival.packet n localMs now packNow).call sent clockRate
        = some (.input clockRate pkt.bytes localMs now packNow) := by
  change sent[n]?.map _ = _
  rw [h, Option.map_some]

namespace NackGenerator

@[simp]
theorem initFlag_updateNackList (s : NackGenerator) (seq : UInt16) : (s.updateNackList seq).initFlag = true := by
  unfold updateNackList
  cases hinit : s.initFlag with
  | false => rfl
  | true =>
    rw [if_neg (by simp)]
    split
    . exact hinit
    . split
      . rfl
      . split
        . rfl
        . rfl

theorem onTimer_state (s : NackGenerator) (now : Int) : ∃ nackMap, (s.onTimer now).1 = { s with nackMap } := by
  unfold onTimer
  exact ⟨_, rfl⟩

theorem onTimer_empty {s : NackGenerator} (h : s.initFlag = false → s.nackMap.infos = []) (now : Int)
    (hinit : (s.onTimer now).1.initFlag = false) : (s.onTimer now).1.nackMap.infos = [] := by
  obtain ⟨_, hstate⟩ := s.onTimer_state now
  rw [hstate] at hinit
  rw [onTimer_infos, h hinit]
  rfl

theorem notMem_updateNackList {s : NackGenerator} {seq : UInt16} (hinit : s.initFlag = true)
    (hlower : seqLowerThan seq s.lastSeq = true) : seq ∉ (s.updateNackList seq).nackMap.keys := by
  have hne : seq ≠ s.lastSeq := by
    rintro rfl
    simp [seqLowerThan] at hlower
  unfold updateNackList
  rw [if_neg (by simp [hinit]), if_neg hne, if_pos hlower]
  simp

end NackGenerator

namespace VideoSession

section Reach

variable {undefinedShift : Int → UInt16} {s : VideoSession} {memory : RtpMemory} {w w' : World}

def IsSent (s : VideoSession) (sent : List RtpPacket) (datagram : List UInt8) : Prop :=
  ∃ pkt ∈ sent, datagram = pkt.bytes ∨ s.IsResent pkt.bytes datagram

theorem IsSent.append {sent : List RtpPacket} {datagram : List UInt8} (h : s.IsSent sent datagram)
    (pkts : List RtpPacket) : s.IsSent (sent ++ pkts) datagram := by
  obtain ⟨pkt, hpkt, hdatagram⟩ := h
  exact ⟨pkt, List.mem_append_left _ hpkt, hdatagram⟩

theorem handleRtpData_sent {sent : List RtpPacket} {datagram data : List UInt8} {localMs : Int}
    (hcarries : ∀ pkt ∈ sent, s.Carries pkt) (h : s.IsSent sent datagram)
    (hdata : s.handleRtpData datagram localMs = some data) : ∃ pkt ∈ sent, data = pkt.bytes := by
  obtain ⟨pkt, hpkt, hdatagram⟩ := h
  refine ⟨pkt, hpkt, ?_⟩
  have hplain (heq : datagram = pkt.bytes) : data = pkt.bytes := by
    rw [heq, handleRtpData_bytes (hcarries pkt hpkt)] at hdata
    split at hdata
    . cases hdata
    . cases hdata
      rfl
  rcases hdatagram with heq | hresent
  . exact hplain heq
  . unfold IsResent at hresent
    split at hresent
    . obtain ⟨seq, hrtx⟩ := hresent
      rw [handleRtpData_rtx (hcarries pkt hpkt) hrtx] at hdata
      split at hdata
      . cases hdata
      . cases hdata
        rfl
    . exact hplain hresent

def Arrives (s : VideoSession) (sent : List RtpPacket) (call : VideoCall) : Prop :=
  ∃ arrival : VideoReceiver.Arrival, arrival.call sent s.clockRate = some call

theorem Arrives.append {sent : List RtpPacket} {call : VideoCall} (h : s.Arrives sent call) (pkts : List RtpPacket)
    : s.Arrives (sent ++ pkts) call := by
  obtain ⟨arrival, harrival⟩ := h
  refine ⟨arrival, ?_⟩
  cases arrival with
  | packet n localMs now packNow =>
    obtain ⟨pkt, hpkt, heq⟩ := Option.map_eq_some_iff.mp harrival
    rw [VideoReceiver.Arrival.call_packet, heq]
    rw [List.getElem?_append_left (List.getElem?_eq_some_iff.mp hpkt).1, hpkt]
  | jitterTimer now packNow => exact harrival
  | packTimer now => exact harrival

structure Inv (s : VideoSession) (memory : RtpMemory) (w : World) : Prop where
  stream : s.startStream.sendH264Packets w.media = some (w.stream, w.sent)
  sending : s.Sending memory w.sent w.buffer
  seq : w.buffer.seq = w.stream.seq
  datagrams : ∀ datagram ∈ w.datagrams, s.IsSent w.sent datagram
  receiver : startReceiver.run w.calls = (w.receiver, w.events)
  calls : ∀ call ∈ w.calls, s.Arrives w.sent call
  generator : w.generator.initFlag = false → w.generator.nackMap.infos = []

theorem Inv.start (s : VideoSession) (memory : RtpMemory) : s.Inv memory (s.start memory) where
  stream := rfl
  sending := ⟨.init, rfl, rfl, rfl⟩
  seq := rfl
  datagrams := nofun
  receiver := rfl
  calls := nofun
  generator := fun _ => rfl

theorem Inv.carries (h : s.Inv memory w) : ∀ pkt ∈ w.sent, s.Carries pkt := by
  intro pkt hpkt
  obtain ⟨hssrc, hpt, hfits⟩ := (RtcSendStream.sends_sendH264Packets h.stream).packets pkt hpkt
  exact ⟨hssrc, hpt, hfits⟩

theorem Inv.receiverCall (h : s.Inv memory w) {call : VideoCall} (hcall : s.Arrives w.sent call)
    : s.Inv memory (w.receiverCall call) where
  stream := h.stream
  sending := h.sending
  seq := h.seq
  datagrams := h.datagrams
  receiver := by
    unfold World.receiverCall
    rw [VideoReceiver.run_concat, h.receiver]
  calls := by
    intro c hc
    rcases List.mem_append.mp hc with hc | hc
    . exact h.calls c hc
    . rw [List.mem_singleton.mp hc]
      exact hcall
  generator := h.generator

theorem Inv.receive (h : s.Inv memory w) {datagram : List UInt8} (hdatagram : datagram ∈ w.datagrams)
    (localMs now : Int) (packNow : Nat → Int) : s.Inv memory (w.receive s datagram localMs now packNow) := by
  unfold World.receive
  split
  . exact h
  . next data hdata =>
    obtain ⟨pkt, hpkt, rfl⟩ := handleRtpData_sent h.carries (h.datagrams datagram hdatagram) hdata
    obtain ⟨n, hn⟩ := List.mem_iff_getElem?.mp hpkt
    have hinv : s.Inv memory { w with generator := w.generator.updateNackList (RtcSendBuffer.getSeq pkt.bytes) } :=
      ⟨h.stream, h.sending, h.seq, h.datagrams, h.receiver, h.calls, fun hinit => absurd hinit (by simp)⟩
    exact hinv.receiverCall ⟨_, VideoReceiver.Arrival.call_packet hn s.clockRate localMs now packNow⟩

/--
The step lemma of the session.
-/
theorem Inv.step (h : s.Inv memory w) (hstep : Step undefinedShift s w w') : s.Inv memory w' := by
  cases hstep with
  | @media stream pkts buffer out pkt clock hstream hbuffer =>
    have hsends := RtcSendStream.sends_sendH264Packet hstream
    have hseq := hsends.seq
    rw [← h.seq] at hseq
    obtain ⟨b', hsent, hsending, hnext⟩ := h.sending.sendPackets clock hseq fun pkt hpkt =>
      (hsends.packets pkt hpkt).2.2
    rw [hsent] at hbuffer
    cases hbuffer
    refine ⟨RtcSendStream.sendH264Packets_concat h.stream hstream, hsending, ?_, ?_, h.receiver, ?_, h.generator⟩
    . rw [hnext, hsends.next, h.seq]
    . intro datagram hdatagram
      rcases List.mem_append.mp hdatagram with hdatagram | hdatagram
      . exact (h.datagrams datagram hdatagram).append pkts
      . obtain ⟨pkt, hpkt, rfl⟩ := List.mem_map.mp hdatagram
        exact ⟨pkt, List.mem_append_right _ hpkt, Or.inl rfl⟩
    . intro call hcall
      exact (h.calls call hcall).append pkts
  | datagram localMs now packNow hdatagram => exact h.receive hdatagram localMs now packNow
  | nackTimer now htimer hlost hpkt =>
    obtain rfl := congrArg Prod.fst htimer
    exact ⟨h.stream, h.sending, h.seq, h.datagrams, h.receiver, h.calls, NackGenerator.onTimer_empty h.generator now⟩
  | quietTimer now htimer =>
    obtain rfl := congrArg Prod.fst htimer
    exact ⟨h.stream, h.sending, h.seq, h.datagrams, h.receiver, h.calls, NackGenerator.onTimer_empty h.generator now⟩
  | @nack nack rtcp buffer out clock tooOften hnack hrtcp hbuffer =>
    obtain ⟨b', out', hsent, hsending, hseq, hout⟩ := h.sending.handleRtcpEvents clock tooOften rtcp
    rw [hsent] at hbuffer
    cases hbuffer
    refine ⟨h.stream, hsending, hseq.trans h.seq, ?_, h.receiver, h.calls, h.generator⟩
    intro datagram hdatagram
    rcases List.mem_append.mp hdatagram with hdatagram | hdatagram
    . exact h.datagrams datagram hdatagram
    . obtain ⟨pkt, hpkt, hresent⟩ := hout datagram hdatagram
      exact ⟨pkt, hpkt, Or.inr hresent⟩
  | jitterTimer now packNow => exact h.receiverCall ⟨.jitterTimer now packNow, rfl⟩
  | packTimer now => exact h.receiverCall ⟨.packTimer now, rfl⟩

theorem Reachable.inv (h : Reachable undefinedShift s memory w) : s.Inv memory w := by
  induction h with
  | start => exact .start s memory
  | step _ hstep ih => exact ih.step hstep

end Reach

end VideoSession

namespace VideoSession

section Runs

variable (undefinedShift : Int → UInt16) {s : VideoSession} {memory : RtpMemory} {w : World}

theorem Inv.exists_media (h : s.Inv memory w) {pkt : MediaPacket} {stream : RtcSendStream} {pkts : List RtpPacket}
    (hstream : w.stream.sendH264Packet pkt = some (stream, pkts)) (clock : Nat → Int)
    : ∃ buffer, Step undefinedShift s w { w with
        stream := stream
        buffer := buffer
        media := w.media ++ [pkt]
        sent := w.sent ++ pkts
        datagrams := w.datagrams ++ pkts.map RtpPacket.bytes } := by
  have hsends := RtcSendStream.sends_sendH264Packet hstream
  have hseq := hsends.seq
  rw [← h.seq] at hseq
  obtain ⟨buffer, hbuffer, _⟩ := h.sending.sendPackets clock hseq fun pkt hpkt => (hsends.packets pkt hpkt).2.2
  exact ⟨buffer, .media pkt clock hstream hbuffer⟩

theorem exists_sending (s : VideoSession) (memory : RtpMemory) (nalus : List Nalu)
    : ∃ w, Reachable undefinedShift s memory w ∧ w.media = nalus.map Nalu.packet
        ∧ w.datagrams = w.sent.map RtpPacket.bytes ∧ w.calls = [] ∧ w.generator = {} := by
  induction nalus using List.reverseRecOn with
  | nil => exact ⟨s.start memory, .start, rfl, rfl, rfl, rfl⟩
  | append_singleton nalus n ih =>
    obtain ⟨w, hreachable, hmedia, hdatagrams, hcalls, hgenerator⟩ := ih
    obtain ⟨buffer, hstep⟩ := hreachable.inv.exists_media undefinedShift (w.stream.sendH264Packet_nalu n) fun _ => 0
    refine ⟨_, hreachable.step hstep, ?_, ?_, hcalls, hgenerator⟩
    . simp only [hmedia, List.map_append, List.map_singleton]
    . simp only [hdatagrams, List.map_append]

theorem Reachable.arrive {undefinedShift : Int → UInt16} (h : Reachable undefinedShift s memory w) {pkt : RtpPacket}
    (hpkt : pkt ∈ w.sent) (hmem : pkt.bytes ∈ w.datagrams) (hrate : 0 < s.clockRate) (htest : s.msPull = false)
    (localMs now : Int) (packNow : Nat → Int)
    : Reachable undefinedShift s memory ({ w with
        generator := w.generator.updateNackList pkt.seq }.receiverCall
          (.input s.clockRate pkt.bytes localMs now packNow)) := by
  have hdata : s.handleRtpData pkt.bytes localMs = some pkt.bytes := by
    rw [handleRtpData_bytes (h.inv.carries pkt hpkt), if_neg]
    rw [htest]
    rintro (⟨hpull, _⟩ | hzero)
    . cases hpull
    . omega
  have hstep := h.step (.datagram localMs now packNow hmem)
  unfold World.receive at hstep
  simp only [hdata, RtcSendBuffer.getSeq_bytes] at hstep
  exact hstep

theorem Reachable.exists_arriving {undefinedShift : Int → UInt16} (hrate : 0 < s.clockRate) (htest : s.msPull = false)
    {arrivals : List VideoReceiver.Arrival} {calls : List VideoCall} {sent : List RtpPacket}
    (hcalls : arrivals.map (·.call sent s.clockRate) = calls.map some)
    (h : Reachable undefinedShift s memory w) (hsent : w.sent = sent) (hdatagrams : w.datagrams = sent.map RtpPacket.bytes)
    : ∃ w', Reachable undefinedShift s memory w' ∧ w'.media = w.media ∧ w'.sent = sent
        ∧ w'.calls = w.calls ++ calls := by
  induction arrivals generalizing w calls with
  | nil =>
    rw [List.map_nil, eq_comm, List.map_eq_nil_iff] at hcalls
    subst hcalls
    exact ⟨w, h, rfl, hsent, (List.append_nil _).symm⟩
  | cons arrival arrivals ih =>
    cases calls with
    | nil => cases hcalls
    | cons call calls =>
      rw [List.map_cons, List.map_cons, List.cons.injEq] at hcalls
      obtain ⟨hcall, hcalls⟩ := hcalls
      have hnext : ∃ generator, Reachable undefinedShift s memory
          (World.receiverCall { w with generator := generator } call) := by
        cases arrival with
        | packet n localMs now packNow =>
          obtain ⟨pkt, hpkt, rfl⟩ := Option.map_eq_some_iff.mp hcall
          have hmem := List.mem_of_getElem? hpkt
          have hbytes : pkt.bytes ∈ w.datagrams := by
            rw [hdatagrams]
            exact List.mem_map_of_mem hmem
          exact ⟨_, h.arrive (by rw [hsent]; exact hmem) hbytes hrate htest localMs now packNow⟩
        | jitterTimer now packNow =>
          cases hcall
          exact ⟨w.generator, h.step (.jitterTimer now packNow)⟩
        | packTimer now =>
          cases hcall
          exact ⟨w.generator, h.step (.packTimer now)⟩
      obtain ⟨_, hnext⟩ := hnext
      obtain ⟨w', hreachable, hmedia, hsent', hall⟩ := ih hcalls hnext hsent hdatagrams
      refine ⟨w', hreachable, hmedia, hsent', hall.trans ?_⟩
      change (w.calls ++ [call]) ++ calls = w.calls ++ call :: calls
      rw [List.append_assoc]
      rfl

def sampleSession : VideoSession where
  ssrc := 1
  pt := 96
  clockRate := 90000
  hasRtx := true
  rtxPayload := 97
  rtxSsrc := 2
  pt_lt := by decide
  ssrc_ne := by decide

def sampleNalu (value : UInt8) : Nalu where
  longCode := false
  header := 0x21
  body := [value]
  dts := 40
  isKeyFrame := false
  type_ge := by decide
  type_le := by decide
  type_ne_sei := by decide
  body_ne_nil := List.cons_ne_nil _ _

def sampleNalus : List Nalu := [sampleNalu 1, sampleNalu 2, sampleNalu 3]

def sampleArrivals : List VideoReceiver.Arrival :=
  [.packet 0 0 0 fun _ => 0, .packet 2 5 5 fun _ => 5, .packet 2 6 6 fun _ => 6, .packet 1 9 9 fun _ => 9]

def sampleSent : List RtpPacket :=
  ((sampleSession.startStream.sendH264Packets (sampleNalus.map Nalu.packet)).map Prod.snd).getD []

def sampleCalls : List VideoCall := sampleArrivals.filterMap (·.call sampleSent sampleSession.clockRate)

theorem exists_sample : ∃ w, Reachable (fun _ => 0) sampleSession { data := fun _ => [] } w
    ∧ w.media = sampleNalus.map Nalu.packet ∧ w.sent = sampleSent ∧ w.calls = sampleCalls := by
  obtain ⟨w, hreachable, hmedia, hdatagrams, hcalls, _⟩ := exists_sending (fun _ => 0) sampleSession
    { data := fun _ => [] } sampleNalus
  have hstream := hreachable.inv.stream
  rw [hmedia] at hstream
  have hsent : w.sent = sampleSent := by
    unfold sampleSent
    rw [hstream]
    rfl
  have harrivals : sampleArrivals.map (·.call sampleSent sampleSession.clockRate) = sampleCalls.map some := rfl
  obtain ⟨w', hreachable', hmedia', hsent', hcalls'⟩ := hreachable.exists_arriving (by decide) rfl harrivals hsent
    (by rw [hdatagrams, hsent])
  rw [hcalls] at hcalls'
  exact ⟨w', hreachable', hmedia'.trans hmedia, hsent', hcalls'⟩

end Runs

section Deliver

open VideoReceiver (Timely)

variable {undefinedShift : Int → UInt16} {s : VideoSession} {memory : RtpMemory} {w : World}

/--
The calls of a receiver, each with the number of its packet.
-/
def Numbers (s : VideoSession) (w : World) (arrivals : List VideoReceiver.Arrival) : Prop :=
  arrivals.map (·.call w.sent s.clockRate) = w.calls.map some

/--
Whatever gets lost and is sent again, each packet that the jitter buffer is given is byte for byte one that has been
sent.
-/
theorem received_sent (h : Reachable undefinedShift s memory w) : ∃ arrivals, s.Numbers w arrivals := by
  have hcalls := h.inv.calls
  unfold Numbers
  generalize w.calls = calls at *
  induction calls with
  | nil => exact ⟨[], rfl⟩
  | cons call calls ih =>
    rw [List.forall_mem_cons] at hcalls
    obtain ⟨arrival, harrival⟩ := hcalls.left
    obtain ⟨arrivals, harrivals⟩ := ih hcalls.right
    exact ⟨arrival :: arrivals, by rw [List.map_cons, List.map_cons, harrival, harrivals]⟩

theorem received_sent_sample : ∃ w, Reachable (fun _ => 0) sampleSession { data := fun _ => [] } w
    ∧ w.calls = sampleCalls ∧ ∃ arrivals, sampleSession.Numbers w arrivals := by
  obtain ⟨w, hreachable, _, _, hcalls⟩ := exists_sample
  exact ⟨w, hreachable, hcalls, received_sent hreachable⟩

/--
As long as no packet waits for too long, what has come out are the first ones of the NALUs expected, and it is all of
them when each packet has arrived.
-/
theorem delivered (h : Reachable undefinedShift s memory w) {inputs : List VideoInput}
    (hmedia : w.media = inputs.map VideoInput.packet) (hcarried : ∀ input ∈ inputs, RtcSendStream.Carried input)
    {arrivals : List VideoReceiver.Arrival} (hnumbers : s.Numbers w arrivals)
    (htimely : Timely w.sent s.clockRate none startReceiver arrivals)
    : (w.events.filterMap PackEvent.output? <+: s.startStream.expectedAll inputs)
        ∧ ((∀ n < w.sent.length, n ∈ arrivals.filterMap VideoReceiver.Arrival.number?) →
            w.events.filterMap PackEvent.output? = s.startStream.expectedAll inputs) := by
  have hinv := h.inv
  have hstream := hinv.stream
  rw [hmedia] at hstream
  have hdelivers := VideoReceiver.run_delivers (b := startReceiver.jitter) rfl s.pt_lt hcarried hstream rfl rfl hnumbers
    htimely
  change ((startReceiver.run w.calls).2.filterMap PackEvent.output? <+: _)
    ∧ (_ → (startReceiver.run w.calls).2.filterMap PackEvent.output? = _) at hdelivers
  rw [hinv.receiver] at hdelivers
  exact hdelivers

theorem delivered_sample : ∃ w, Reachable (fun _ => 0) sampleSession { data := fun _ => [] } w
    ∧ w.media = sampleNalus.map Nalu.packet
    ∧ w.events.filterMap PackEvent.output? = sampleSession.startStream.expectedAll (sampleNalus.map .nalu) := by
  obtain ⟨w, hreachable, hmedia, hsent, hcalls⟩ := exists_sample
  refine ⟨w, hreachable, hmedia, ?_⟩
  have hinputs : w.media = (sampleNalus.map VideoInput.nalu).map VideoInput.packet := by
    rw [hmedia]
    rfl
  have hnumbers : sampleSession.Numbers w sampleArrivals := by
    unfold Numbers
    rw [hsent, hcalls]
    rfl
  apply (delivered hreachable hinputs (by decide) hnumbers (by rw [hsent]; decide)).right
  rw [hsent]
  decide

end Deliver

end VideoSession
