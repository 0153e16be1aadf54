import CppStreamer.Net.RtpRtcp.RtpBuffer
import CppStreamer.Net.WebRtc.PackHandleH264
import CppStreamer.Net.WebRtc.RtcSendStream
import CppStreamer.Utils.DataBuffer

/-!
This module contains the sending of audio frames and the model of `PackHandleAudio`, and which frames
reach the other side as they are.
-/

/--
`GenerateSinglePackets` with the parser and the size of its buffer, `none` for the null pointer of a
packet that is too long and for the exception of `RtpPacket::Parse`.
-/
def RtpPack.generateSinglePackets (data : List UInt8) : Option RtpPacket :=
  let pkt := RtpH264Pack.makeRtpPacket data
  if rtpPacketMaxSize < pkt.bytes.length then none
  else (RtpLayout.parse pkt.bytes).map fun _ => pkt

/--
The bytes that are sent for a frame, whose length is an `uint8_t` here.
-/
def RtcSendStream.sendAudioPacket (s : RtcSendStream) (pkt : MediaPacket)
    : Option (RtcSendStream × List UInt8) := do
  let len := pkt.data.length % 2 ^ 8
  let rtp ← RtpPack.generateSinglePackets (pkt.data.take len)
  let sent : RtpPacket :=
    { rtp with
      payloadType := s.pt, ssrc := s.ssrc, seq := s.seq, timestamp := s.rtpTimestamp pkt.dts
      marker := true }
  pure ({ s with seq := s.seq + 1 }, sent.bytes)

namespace PackHandleAudio

/--
The buffer of the packet that is output, and what is copied into it.
-/
def outputBuffer (pkt : RtpPacketInfo) : DataBuffer × List Memory.Copy :=
  let pktSize := pkt.pkt.payload.length + 1024
  (DataBuffer.new pktSize).appendData pkt.pkt.payload

def inputRtpPacket (pkt : RtpPacketInfo) : PackEvent :=
  let dts : Int := pkt.pkt.timestamp.toNat
  .mediaPacketOutput
    { avType := .audio
      codecType := .opus
      fmtType := .raw
      dts := dts
      pts := dts
      data := (outputBuffer pkt).fst.data.filterMap id }

theorem refines_new (pkt : RtpPacketInfo) (hlen : pkt.pkt.payload.length < 2 ^ 30)
    : (DataBuffer.new (pkt.pkt.payload.length + 1024)).Refines {} 0 := by
  apply DataBuffer.Refines.new
  unfold preReserveHeaderSize
  omega

theorem data_outputBuffer (pkt : RtpPacketInfo) (hlen : pkt.pkt.payload.length < 2 ^ 30)
    : (outputBuffer pkt).fst.data = pkt.pkt.payload.map some := by
  have hrefines := (refines_new pkt hlen).appendData (show 0 + pkt.pkt.payload.length < 2 ^ 30 by omega)
  change (outputBuffer pkt).fst.Refines ⟨[] ++ pkt.pkt.payload.map some, []⟩ _ at hrefines
  have hdata := hrefines.data
  have hsize := hrefines.length
  simp only [List.nil_append, List.length_map] at hdata hsize
  unfold DataBuffer.data
  apply List.ext_getElem?
  intro i
  by_cases hi : i < pkt.pkt.payload.length
  . have hget : (pkt.pkt.payload.map some)[i]? = some (some pkt.pkt.payload[i]) := by
      rw [List.getElem?_map, List.getElem?_eq_getElem hi]
      rfl
    rw [Memory.getElem?_read _ _ (by omega), hget, hdata i _ hget]
  . rw [List.getElem?_eq_none (by rw [Memory.length_read]; omega),
      List.getElem?_eq_none (by rw [List.length_map]; omega)]

theorem copies_outputBuffer (pkt : RtpPacketInfo) (hlen : pkt.pkt.payload.length < 2 ^ 30)
    : ∀ c ∈ (outputBuffer pkt).snd, c.InBounds := by
  have hlimit : (DataBuffer.new (pkt.pkt.payload.length + 1024)).limit = pkt.pkt.payload.length + 824 := by
    change (pkt.pkt.payload.length + 1024 + (2 ^ 64 - 200)) % 2 ^ 64 = _
    omega
  have hcan : (DataBuffer.new (pkt.pkt.payload.length + 1024)).CanAppend pkt.pkt.payload := by
    constructor
    . intro hsmall
      change pkt.pkt.payload.length + 1024 < 200 at hsmall
      omega
    . intro hlt
      rw [hlimit] at hlt
      change pkt.pkt.payload.length + 824 < 200 + pkt.pkt.payload.length at hlt
      omega
  intro c hc
  exact ((refines_new pkt hlen).copies (by omega) (fun _ => hcan) c hc).left

end PackHandleAudio

namespace RtpPacket

theorem drop_bytes (pkt : RtpPacket) : pkt.bytes.drop 12 = pkt.payload := rfl

end RtpPacket

theorem generateSinglePackets_some {data : List UInt8} (hpos : 0 < data.length)
    (hlen : data.length + 12 ≤ rtpPacketMaxSize)
    : RtpPack.generateSinglePackets data = some (RtpH264Pack.makeRtpPacket data) := by
  have hbytes : (RtpH264Pack.makeRtpPacket data).bytes.length ≤ rtpPacketMaxSize := by
    rw [RtpPacket.length_bytes]
    change 12 + data.length ≤ _
    omega
  unfold RtpPack.generateSinglePackets
  simp only
  rw [if_neg (Nat.not_lt.mpr hbytes), RtpPacket.parse_bytes _ hpos hbytes]
  rfl

theorem generateSinglePackets_nil : RtpPack.generateSinglePackets [] = none := by
  decide

/--
The packet that is sent carries the frame, and so does what the other side makes of it.
-/
def RtcSendStream.CarriesFrame (s : RtcSendStream) (pkt : MediaPacket) (now : Int) : Prop :=
  ∃ s' bytes rtp, s.sendAudioPacket pkt = some (s', bytes) ∧ bytes.drop 12 = pkt.data
    ∧ RtpPacket.parse bytes now = some rtp
    ∧ ∀ extendSeq clockRate, ∃ out,
        PackHandleAudio.inputRtpPacket ⟨.audio, rtp, extendSeq, clockRate⟩ = .mediaPacketOutput out
        ∧ out.data = pkt.data
        ∧ ∀ c ∈ (PackHandleAudio.outputBuffer ⟨.audio, rtp, extendSeq, clockRate⟩).snd, c.InBounds

namespace RtcSendStream

variable (s : RtcSendStream)

theorem sendAudioPacket_some {pkt : MediaPacket} {s' : RtcSendStream} {bytes : List UInt8}
    (h : s.sendAudioPacket pkt = some (s', bytes))
    : bytes.drop 12 = pkt.data.take (pkt.data.length % 2 ^ 8)
        ∧ pkt.data.length % 2 ^ 8 ≠ 0 := by
  obtain ⟨rtp, hrtp, h⟩ := Option.bind_eq_some_iff.mp h
  cases h
  constructor
  . unfold RtpPack.generateSinglePackets at hrtp
    simp only at hrtp
    split at hrtp
    . cases hrtp
    . obtain ⟨_, _, rfl⟩ := Option.map_eq_some_iff.mp hrtp
      rw [RtpPacket.drop_bytes]
      rfl
  . intro hzero
    rw [hzero, List.take_zero, generateSinglePackets_nil] at hrtp
    cases hrtp

theorem carries_of_lt {pkt : MediaPacket} (hpos : 0 < pkt.data.length) (hlen : pkt.data.length < 2 ^ 8)
    (now : Int)
    : s.CarriesFrame pkt now := by
  have htake : pkt.data.take (pkt.data.length % 2 ^ 8) = pkt.data := by
    rw [Nat.mod_eq_of_lt hlen, List.take_length]
  have hsingle := generateSinglePackets_some hpos (by unfold rtpPacketMaxSize; omega)
  let sent : RtpPacket :=
    { RtpH264Pack.makeRtpPacket pkt.data with
      payloadType := s.pt, ssrc := s.ssrc, seq := s.seq, timestamp := s.rtpTimestamp pkt.dts
      marker := true }
  have hsend : s.sendAudioPacket pkt = some ({ s with seq := s.seq + 1 }, sent.bytes) := by
    unfold sendAudioPacket
    simp only [htake, hsingle]
    rfl
  have hbytes : sent.bytes.length ≤ rtpPacketMaxSize := by
    rw [RtpPacket.length_bytes]
    change 12 + pkt.data.length ≤ 1500
    omega
  have hparse := RtpPacket.parse_bytes sent hpos hbytes
  let rtp := RtpPacket.ofData sent.bytes ⟨12, pkt.data.length, 0⟩ now
  have hpayload : rtp.payload = pkt.data := by
    change (sent.bytes.drop 12).take pkt.data.length = pkt.data
    rw [RtpPacket.drop_bytes]
    exact List.take_length
  refine ⟨_, sent.bytes, rtp, hsend, sent.drop_bytes, ?_, ?_⟩
  . unfold RtpPacket.parse
    rw [hparse]
    rfl
  . intro extendSeq clockRate
    have hshort : rtp.payload.length < 2 ^ 30 := by
      rw [hpayload]
      omega
    refine ⟨_, rfl, ?_, ?_⟩
    . rw [PackHandleAudio.data_outputBuffer _ hshort]
      change (rtp.payload.map some).filterMap id = pkt.data
      rw [List.filterMap_map, hpayload]
      apply List.filterMap_some
    . exact PackHandleAudio.copies_outputBuffer _ hshort

/--
A frame arrives if and only if its length is that of some byte.
-/
theorem carriesFrame_iff (pkt : MediaPacket) (now : Int)
    : s.CarriesFrame pkt now ↔ 0 < pkt.data.length ∧ pkt.data.length < 2 ^ 8 := by
  constructor
  . intro ⟨_, _, _, hsend, hcarries, _⟩
    obtain ⟨htake, hne⟩ := s.sendAudioPacket_some hsend
    rw [hcarries] at htake
    have hlen := congrArg List.length htake
    rw [List.length_take] at hlen
    omega
  . intro ⟨hpos, hlen⟩
    exact s.carries_of_lt hpos hlen now

/--
The length of 256 bytes is 0 as an `uint8_t`, and a packet without a payload is not parsed.
-/
theorem not_carriesFrame
    : ¬({ ssrc := 1, pt := 111, clockRate := 48000 } : RtcSendStream).CarriesFrame
        { avType := .audio, codecType := .opus, dts := 0, pts := 0, data := List.replicate 256 0 } 0 := by
  rintro ⟨_, _, _, hsend, _⟩
  have hne := (sendAudioPacket_some _ hsend).right
  simp only [List.length_replicate] at hne
  omega

end RtcSendStream
