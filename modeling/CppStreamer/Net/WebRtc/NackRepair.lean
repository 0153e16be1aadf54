import CppStreamer.Net.WebRtc.LossRepair
import CppStreamer.Net.WebRtc.RtcpCompound

/-!
This module contains the way of a packet that got lost: `NackGenerator` asks for it, the sender finds it among its last
ones, and the receiver gets it by RTX.
-/

open ByteStream

namespace RtcSendBuffer

variable {b b' : RtcSendBuffer} {sent : List (List UInt8)} {data : List UInt8} {i : Nat}

theorem index_sub_inj {seq : UInt16} {j : Nat} (hi : i < sendBufferSize) (hj : j < sendBufferSize)
    (heq : index (seq - .ofNat (i + 1)) = index (seq - .ofNat (j + 1))) : i = j := by
  have hindex := congrArg Fin.val heq
  change (seq - .ofNat (i + 1)).toNat % 2048 = (seq - .ofNat (j + 1)).toNat % 2048 at hindex
  unfold sendBufferSize at hi hj
  have hlt := seq.toNat_lt
  rw [UInt16.toNat_sub, UInt16.toNat_sub, UInt16.toNat_ofNat_of_lt' (by change i + 1 < 65536; omega),
    UInt16.toNat_ofNat_of_lt' (by change j + 1 < 65536; omega)] at hindex
  omega

theorem Buffers.find_recent (h : b.Buffers sent) (hdata : sent[i]? = some data) (hi : i < sendBufferSize)
    : (sent.take sendBufferSize).find? (fun other => index (getSeq other) = index (getSeq data)) = some data := by
  rw [List.find?_eq_some_iff_getElem]
  refine ⟨decide_eq_true rfl, i, ?_, ?_, ?_⟩
  . rw [List.length_take]
    have hlt := (List.getElem?_eq_some_iff.mp hdata).1
    omega
  . rw [List.getElem_take]
    exact (List.getElem?_eq_some_iff.mp hdata).2
  . intro j hj
    have hlt := (List.getElem?_eq_some_iff.mp hdata).1
    rw [List.getElem_take, Bool.not_eq_true', decide_eq_false_iff_not, h.seqs i data hdata,
      h.seqs j _ (List.getElem?_eq_getElem (by omega))]
    intro heq
    have hsame := index_sub_inj (by omega) hi heq
    omega

/--
A request for one of the last packets that does not come too early is answered with it.
-/
theorem Buffers.resend_recent (h : b.Buffers sent) (hdata : sent[i]? = some data) (hi : i < sendBufferSize) {now : Int}
    {tooOften : Int → Bool}
    (hoften : (b.sendBuffer (index (getSeq data))).lastMs = 0
      ∨ tooOften (now - (b.sendBuffer (index (getSeq data))).lastMs + 10) = false)
    : ∃ b' datagram, b.resendRtpPacket (getSeq data) now tooOften = some (b', some datagram)
        ∧ if b.hasRtx then rtxPacket data b.rtxPayload b.rtxSsrc b.rtxSeq = some datagram else datagram = data := by
  obtain ⟨b', out, hresend, hresends⟩ := h.resend (getSeq data) now tooOften
  have hslot := h.slot (index (getSeq data))
  rw [h.find_recent hdata hi] at hslot
  obtain ⟨pkt, hpkt, hstores, _⟩ := hslot
  cases out with
  | some datagram =>
    obtain ⟨resent, _, hfind, hdatagram⟩ := hresends.sends datagram rfl
    rw [(find_seq (h.find_recent hdata hi) rfl).2] at hfind
    cases hfind
    exact ⟨b', datagram, hresend, hdatagram⟩
  | none =>
    exfalso
    unfold resendRtpPacket at hresend
    simp only [hpkt, hstores.getData, ne_eq, not_true_eq_false, if_false] at hresend
    rw [if_neg (by
      rintro ⟨hne, htrue⟩
      rcases hoften with hzero | hfalse
      . exact hne hzero
      . rw [hfalse] at htrue
        cases htrue)] at hresend
    split at hresend
    . split at hresend
      . cases hresend
      . obtain ⟨sent, _, heq⟩ := Option.map_eq_some_iff.mp hresend
        cases heq
    . obtain ⟨sent, _, heq⟩ := Option.map_eq_some_iff.mp hresend
      cases heq

theorem Buffers.resend_other (h : b.Buffers sent) (hdata : sent[i]? = some data) (hi : i < sendBufferSize) {now : Int}
    {tooOften : Int → Bool} {seq : UInt16} (hne : seq ≠ getSeq data) {out : Option (List UInt8)}
    (hresend : b.resendRtpPacket seq now tooOften = some (b', out))
    : b'.sendBuffer (index (getSeq data)) = b.sendBuffer (index (getSeq data)) := by
  have hslot := h.slot (index (getSeq data))
  rw [h.find_recent hdata hi] at hslot
  obtain ⟨pkt, hpkt, hstores, _⟩ := hslot
  by_cases hindex : index seq = index (getSeq data)
  . unfold resendRtpPacket at hresend
    rw [hindex] at hresend
    simp only [hpkt, hstores.getData] at hresend
    rw [if_pos hne.symm] at hresend
    cases hresend
    rfl
  . exact (kept_resendRtpPacket hresend).slots _ (Ne.symm hindex)

end RtcSendBuffer

namespace RtcpFbNack

def Headed (mediaSsrc : UInt32) (pkt : RtcpFbNack) : Prop :=
  ∃ size sender rest : List UInt8, size.length = 2 ∧ sender.length = 4
    ∧ pkt.data = 0x81 :: 205 :: (size ++ (sender ++ (write4Bytes mediaSsrc.toNat ++ rest)))

section Header

variable {undefinedShift : Int → UInt16} {mediaSsrc : UInt32} {pkt pkt' : RtcpFbNack} {reportSeqs : List UInt16}

theorem create_headed (senderSsrc mediaSsrc : UInt32) : (create senderSsrc mediaSsrc).Headed mediaSsrc :=
  ⟨write2Bytes (headerSize / 4 - 1), write4Bytes senderSsrc.toNat, [], rfl, rfl, by simp [create]⟩

theorem Headed.insertBlock (h : pkt.Headed mediaSsrc)
    (hinsert : pkt.insertBlock undefinedShift reportSeqs = some pkt') : pkt'.Headed mediaSsrc := by
  obtain ⟨size, sender, rest, hsize, hsender, hdata⟩ := h
  obtain ⟨size', hsize', _, hdata'⟩ := insertBlock_some hinsert
  refine ⟨size', sender, rest ++ (blockOf undefinedShift reportSeqs).bytes, hsize', hsender, ?_⟩
  have hdrop (behind : List UInt8) : (0x81 :: 205 :: (size ++ behind)).drop 4 = behind := by
    rw [List.drop_succ_cons, List.drop_succ_cons, List.drop_left' hsize]
  rw [hdata', hdata]
  simp only [List.cons_append, List.append_assoc, hdrop]
  rfl

theorem Headed.insertSeqs (seqs : List UInt16)
    : ∀ {pkt pkt' : RtcpFbNack} {reportSeqs : List UInt16}, pkt.Headed mediaSsrc →
        pkt.insertSeqs undefinedShift reportSeqs seqs = some pkt' →
          pkt'.Headed mediaSsrc ∧ pkt.nackBlocks <+: pkt'.nackBlocks := by
  induction seqs with
  | nil =>
    intro pkt pkt' reportSeqs h hinsert
    rw [RtcpFbNack.insertSeqs] at hinsert
    split at hinsert
    . cases hinsert
      exact ⟨h, List.prefix_rfl⟩
    . obtain ⟨_, _, hblocks, _⟩ := insertBlock_some hinsert
      rw [hblocks]
      exact ⟨h.insertBlock hinsert, List.prefix_append ..⟩
  | cons lostSeq seqs ih =>
    intro pkt pkt' reportSeqs h hinsert
    rw [RtcpFbNack.insertSeqs] at hinsert
    split at hinsert
    . obtain ⟨pkt1, hblock, hrest⟩ := Option.bind_eq_some_iff.mp hinsert
      obtain ⟨hheaded, hkept⟩ := ih (h.insertBlock hblock) hrest
      obtain ⟨_, _, hblocks, _⟩ := insertBlock_some hblock
      rw [hblocks] at hkept
      exact ⟨hheaded, (List.prefix_append ..).trans hkept⟩
    . exact ih h hinsert

/--
The first number that is not in a block yet gets into the next one as it is.
-/
theorem insertSeqs_first (seqs : List UInt16) {first : UInt16}
    : ∀ {pkt pkt' : RtcpFbNack} {reportSeqs : List UInt16}, pkt.Headed mediaSsrc →
        (reportSeqs ++ seqs).head? = some first → pkt.insertSeqs undefinedShift reportSeqs seqs = some pkt' →
          ∃ block ∈ pkt'.nackBlocks, block.packetId = first := by
  have hinserted {pkt pkt1 pkt' : RtcpFbNack} {reportSeqs : List UInt16} (hfirst : reportSeqs.head? = some first)
      (hinsert : pkt.insertBlock undefinedShift reportSeqs = some pkt1) (hkept : pkt1.nackBlocks <+: pkt'.nackBlocks)
      : ∃ block ∈ pkt'.nackBlocks, block.packetId = first := by
    obtain ⟨_, _, hblocks, _⟩ := insertBlock_some hinsert
    refine ⟨blockOf undefinedShift reportSeqs, hkept.subset ?_, ?_⟩
    . rw [hblocks]
      exact List.mem_append_right _ (List.mem_singleton_self _)
    . change reportSeqs.headD 0 = first
      rw [List.headD_eq_head?_getD, hfirst, Option.getD_some]
  induction seqs with
  | nil =>
    intro pkt pkt' reportSeqs h hfirst hinsert
    rw [List.append_nil] at hfirst
    rw [RtcpFbNack.insertSeqs, if_neg (by rintro rfl; cases hfirst)] at hinsert
    exact hinserted hfirst hinsert List.prefix_rfl
  | cons lostSeq seqs ih =>
    intro pkt pkt' reportSeqs h hfirst hinsert
    rw [RtcpFbNack.insertSeqs] at hinsert
    split at hinsert
    . obtain ⟨pkt1, hblock, hrest⟩ := Option.bind_eq_some_iff.mp hinsert
      refine hinserted ?_ hblock (Headed.insertSeqs seqs (h.insertBlock hblock) hrest).2
      cases reportSeqs with
      | nil => exact hfirst
      | cons seq reportSeqs => exact hfirst
    . refine ih h ?_ hinsert
      rw [List.append_assoc]
      exact hfirst

end Header

end RtcpFbNack

namespace Rtcp

section Nack

variable {pkt : RtcpFbNack} {ssrc : UInt32}

theorem handleRtcpRtpFb_nack (streams : RtcpStreams) (hheaded : pkt.Headed ssrc)
    (hfits : pkt.data.length ≤ RtcpFbNack.dataSize) (hserialises : pkt.Serialises) (hblocks : pkt.nackBlocks ≠ [])
    : handleRtcpRtpFb streams pkt.data 0 pkt.data.length
        = .ok (pkt.data.length,
            (matching streams.videoSend streams.audioSend ssrc.toNat).map fun kind => .nack kind pkt) := by
  obtain ⟨size, sender, rest, hsize, hsender, hdata⟩ := hheaded
  have hparse := RtcpFbNack.parse_serialises hserialises hblocks hfits
  have hlong : RtcpFbNack.headerSize < pkt.data.length := by
    unfold RtcpFbNack.parse at hparse
    split at hparse
    . cases hparse
    . next hlong => omega
  have hfirst : readAt pkt.data 0 1 = .ok [0x81] := by
    apply (readAt_eq_ok pkt.data).mpr
    refine ⟨⟨by omega, by omega⟩, ?_⟩
    rw [hdata]
    rfl
  have hall : readAt pkt.data 0 pkt.data.length = .ok pkt.data := by
    apply (readAt_eq_ok pkt.data).mpr
    refine ⟨⟨by omega, by omega⟩, ?_⟩
    unfold bytesAt
    rw [Int.toNat_zero, List.drop_zero, List.take_length]
  have hssrc : read4Bytes (pkt.data.drop 8) = ssrc.toNat := by
    have hdrop : pkt.data.drop 8 = write4Bytes ssrc.toNat ++ rest := by
      have hlength : ([0x81, 205] ++ size ++ sender).length = 8 := by
        simp only [List.length_append, List.length_cons, List.length_nil, hsize, hsender]
      have hleft : ([0x81, 205] ++ size ++ sender ++ (write4Bytes ssrc.toNat ++ rest)).drop 8
          = write4Bytes ssrc.toNat ++ rest := List.drop_left' hlength
      simpa [hdata] using hleft
    rw [hdrop, read4Bytes_write4Bytes, Nat.mod_eq_of_lt ssrc.toNat_lt]
  unfold RtcpFbNack.headerSize RtcpFbNack.dataSize at *
  unfold handleRtcpRtpFb
  rw [if_neg (by unfold commonHeaderSize; omega)]
  apply bind_eq_ok.mpr
  refine ⟨_, hfirst, ?_⟩
  rw [if_neg (by decide), if_neg (by unfold RtcpFbNack.headerSize; omega), if_neg (by unfold packetMaxSize; omega)]
  apply bind_eq_ok.mpr
  refine ⟨_, hall, ?_⟩
  simp only [hparse, hssrc]
  rfl

theorem handlesRtcp_nack (hheaded : pkt.Headed ssrc) (hframed : pkt.Framed)
    (hserialises : pkt.Serialises) (hblocks : pkt.nackBlocks ≠ [])
    : HandlesRtcp { videoSend := some ssrc.toNat } pkt.data
        [.handled rtcpRtpFb 0 pkt.data.length, .nack .video pkt] := by
  have hhandled := handleRtcpRtpFb_nack { videoSend := some ssrc.toNat } hheaded hframed.fits hserialises hblocks
  have hlength := hframed.blocks
  have hfits := hframed.fits
  have hfield := hframed.field
  obtain ⟨size, sender, rest, hsize, hsender, hdata⟩ := hheaded
  unfold RtcpFbNack.headerSize RtcpFbNack.dataSize RtcpFbNack.lengthField at *
  have hheader : headerAt pkt.data 0 = ⟨205, read2Bytes (pkt.data.drop 2)⟩ := by
    obtain ⟨high, low, rfl⟩ := List.length_eq_two.mp hsize
    unfold headerAt bytesAt
    rw [hdata]
    rfl
  have htotal : totalAt pkt.data 0 = pkt.data.length := by
    unfold totalAt getRtcpLength commonHeaderSize
    rw [hheader]
    simp only
    omega
  have hdispatch : dispatch { videoSend := some ssrc.toNat } pkt.data rtcpRtpFb 0 pkt.data.length
      = .ok ((pkt.data.length : Int), [.handled rtcpRtpFb 0 pkt.data.length, .nack .video pkt]) := by
    have hkinds : matching (some ssrc.toNat) none ssrc.toNat = [.video] := by
      unfold matching
      rw [if_pos rfl, if_neg (Option.some_ne_none ssrc.toNat).symm]
      rfl
    unfold dispatch
    rw [if_neg (by decide), if_neg (by decide), if_pos rfl]
    apply bind_eq_ok.mpr
    refine ⟨_, hhandled, ?_⟩
    simp only [hkinds]
    rfl
  have hdone : walk { videoSend := some ssrc.toNat } pkt.data 1 (0 + pkt.data.length) = .ok [] := by
    rw [walk, if_neg (by omega)]
    rfl
  have hpos : (0 : Int) < pkt.data.length := by omega
  have hinside : Inside pkt.data (0 + 1) 3 := ⟨by omega, by omega⟩
  obtain ⟨fuel, events, hwalk, rfl⟩ := (walk_step { videoSend := some ssrc.toNat } pkt.data
    (· = [.handled rtcpRtpFb 0 pkt.data.length, .nack .video pkt]) hpos hinside).mpr
    ⟨pkt.data.length, _, by rw [hheader, htotal]; exact hdispatch, 1, [], hdone, rfl⟩
  exact ⟨fuel, hwalk⟩

theorem handlesRtcp_generated {undefinedShift : Int → UInt16} {seq : UInt16} {rest : List UInt16}
    (h : RtcRecvStream.generateNackList undefinedShift ssrc (seq :: rest) = some pkt)
    : seq ∈ pkt.getLostSeqs
      ∧ HandlesRtcp { videoSend := some ssrc.toNat } pkt.data
        [.handled rtcpRtpFb 0 pkt.data.length, .nack .video pkt] := by
  have hcreate := RtcpFbNack.create_headed 0 ssrc
  obtain ⟨hheaded, _⟩ := RtcpFbNack.Headed.insertSeqs _ hcreate h
  have hframed := (RtcpFbNack.create_framed 0 ssrc).insertSeqs _ h
  have hserialises := RtcpFbNack.insertSeqs_serialises _ _ _ _ (RtcpFbNack.create_serialises 0 ssrc) h
  obtain ⟨block, hblock, hfirst⟩ := RtcpFbNack.insertSeqs_first _ hcreate (by rfl) h
  refine ⟨?_, handlesRtcp_nack hheaded hframed hserialises (List.ne_nil_of_mem hblock)⟩
  apply List.mem_flatMap.mpr
  refine ⟨block, hblock, ?_⟩
  rw [← hfirst]
  exact List.mem_cons_self

end Nack

end Rtcp

namespace VideoSession

section Resend

variable {s : VideoSession} {memory : RtpMemory} {sent : List RtpPacket} {b : RtcSendBuffer} {pkt : RtpPacket} {n : Nat}
  {tooOften : Int → Bool}

/--
A packet of the last ones that is asked for is sent again, whatever else is asked for.
-/
theorem Sending.resend_listed (h : s.Sending memory sent b) (hpkt : sent[n]? = some pkt)
    (hrecent : sent.length ≤ n + sendBufferSize) {seqs : List (UInt16 × Int)} (hlisted : pkt.seq ∈ seqs.map Prod.fst)
    (hoften : ∀ seq ∈ seqs, (b.sendBuffer (RtcSendBuffer.index pkt.seq)).lastMs = 0
      ∨ tooOften (seq.2 - (b.sendBuffer (RtcSendBuffer.index pkt.seq)).lastMs + 10) = false)
    : ∃ b' out, b.resendRtpPackets tooOften seqs = some (b', out)
        ∧ ∃ datagram ∈ out, s.IsResent pkt.bytes datagram := by
  have hlt := (List.getElem?_eq_some_iff.mp hpkt).1
  have hdata : (sent.map RtpPacket.bytes).reverse[sent.length - 1 - n]? = some pkt.bytes := by
    rw [List.getElem?_reverse (by rw [List.length_map]; omega), List.length_map, List.getElem?_map,
      show sent.length - 1 - (sent.length - 1 - n) = n by omega, hpkt, Option.map_some]
  have hi : sent.length - 1 - n < sendBufferSize := by omega
  have hseq := RtcSendBuffer.getSeq_bytes pkt
  induction seqs generalizing b with
  | nil => cases hlisted
  | cons seq seqs ih =>
    rw [List.forall_mem_cons] at hoften
    by_cases hsame : seq.1 = pkt.seq
    . have hfirst := hoften.left
      rw [← hseq] at hfirst
      obtain ⟨b₁, datagram, hresend, hdatagram⟩ := h.run.buffers.resend_recent hdata hi hfirst
      obtain ⟨_, _, hsome, hsending, _⟩ := h.resendRtpPacket seq.1 seq.2 tooOften
      rw [hseq, ← hsame] at hresend
      rw [hresend] at hsome
      cases hsome
      obtain ⟨b', rest, hrest, _⟩ := hsending.resendRtpPackets tooOften seqs
      refine ⟨b', datagram :: rest, ?_, datagram, List.mem_cons_self, ?_⟩
      . simp only [RtcSendBuffer.resendRtpPackets, hresend, hrest, Option.toList_some, List.singleton_append]
      . unfold IsResent
        rw [h.hasRtx, h.rtxPayload, h.rtxSsrc] at hdatagram
        split
        . next hrtx =>
          rw [if_pos hrtx] at hdatagram
          exact ⟨_, hdatagram⟩
        . next hrtx =>
          rw [if_neg hrtx] at hdatagram
          exact hdatagram
    . obtain ⟨b₁, out, hresend, hsending, _⟩ := h.resendRtpPacket seq.1 seq.2 tooOften
      have hother := h.run.buffers.resend_other hdata hi (by rw [hseq]; exact hsame) hresend
      rw [hseq] at hother
      obtain ⟨b', rest, hrest, datagram, hdatagram, hresent⟩ := ih hsending
        ((List.mem_cons.mp hlisted).resolve_left (Ne.symm hsame)) (by rw [hother]; exact hoften.right)
      refine ⟨b', out.toList ++ rest, ?_, datagram, List.mem_append_right _ hdatagram, hresent⟩
      simp only [RtcSendBuffer.resendRtpPackets, hresend, hrest]

end Resend

end VideoSession

namespace VideoSession

section Repair

variable {undefinedShift : Int → UInt16} {s : VideoSession} {memory : RtpMemory} {w : World} {pkt : RtpPacket}
  {datagram : List UInt8}

theorem handleRtpData_resent (hcarries : s.Carries pkt) (hresent : s.IsResent pkt.bytes datagram)
    (hrate : 0 < s.clockRate) (htest : s.msPull = true → s.ssrc ≠ testSsrc ∧ s.rtxSsrc ≠ testSsrc) (localMs : Int)
    : s.handleRtpData datagram localMs = some pkt.bytes := by
  unfold IsResent at hresent
  split at hresent
  . obtain ⟨seq, hrtx⟩ := hresent
    rw [handleRtpData_rtx hcarries hrtx, if_neg]
    rintro ⟨hpull, hssrc⟩
    exact (htest hpull).right hssrc
  . rw [hresent, handleRtpData_bytes hcarries, if_neg]
    rintro (⟨hpull, hssrc⟩ | hzero)
    . exact (htest hpull).left hssrc
    . omega

theorem Sending.handle_nack {sent : List RtpPacket} {b : RtcSendBuffer} {n : Nat} (h : s.Sending memory sent b)
    (hpkt : sent[n]? = some pkt) (hrecent : sent.length ≤ n + sendBufferSize) {nackPkt : RtcpFbNack}
    (hlisted : pkt.seq ∈ nackPkt.getLostSeqs) {clock : Nat → Nat → Int} {tooOften : Int → Bool}
    (hoften : ∀ i, (b.sendBuffer (RtcSendBuffer.index pkt.seq)).lastMs = 0
      ∨ tooOften (clock 0 i - (b.sendBuffer (RtcSendBuffer.index pkt.seq)).lastMs + 10) = false)
    (packetType len : Nat)
    : ∃ b' out, b.handleRtcpEvents clock tooOften [.handled packetType 0 len, .nack .video nackPkt] = some (b', out)
        ∧ ∃ datagram ∈ out, s.IsResent pkt.bytes datagram := by
  have hnack : b.handleRtcpNack nackPkt (clock 0) tooOften
      = b.resendRtpPackets tooOften (nackPkt.getLostSeqs.zipIdx.map fun seq => (seq.1, clock 0 seq.2)) :=
    if_pos h.run.buffers.nackEnable
  have hseqs : pkt.seq ∈ (nackPkt.getLostSeqs.zipIdx.map fun seq => (seq.1, clock 0 seq.2)).map Prod.fst := by
    rw [List.map_map]
    change pkt.seq ∈ nackPkt.getLostSeqs.zipIdx.map Prod.fst
    rw [List.zipIdx_map_fst]
    exact hlisted
  obtain ⟨b', out, hresend, hdatagram⟩ := h.resend_listed hpkt hrecent hseqs (by
    intro seq hseq
    obtain ⟨number, _, rfl⟩ := List.mem_map.mp hseq
    exact hoften number.2)
  refine ⟨b', out, ?_, hdatagram⟩
  simp only [RtcSendBuffer.handleRtcpEvents, hnack, hresend, List.append_nil]

/--
The first of the packets that are asked for comes again, if it is one of the last that were sent, and once it has come
it is not asked for any more.
-/
theorem lost_repaired (h : Reachable undefinedShift s memory w) {now : Int} {generator : NackGenerator}
    {rest : List UInt16} (htimer : w.generator.onTimer now = (generator, pkt.seq :: rest)) {nackPkt : RtcpFbNack}
    (hnack : RtcRecvStream.generateNackList undefinedShift s.ssrc (pkt.seq :: rest) = some nackPkt) {n : Nat}
    (hpkt : w.sent[n]? = some pkt) (hrecent : w.sent.length ≤ n + sendBufferSize) (hrate : 0 < s.clockRate)
    (htest : s.msPull = true → s.ssrc ≠ testSsrc ∧ s.rtxSsrc ≠ testSsrc) (clock : Nat → Nat → Int)
    (tooOften : Int → Bool)
    (hoften : ∀ i, (w.buffer.sendBuffer (RtcSendBuffer.index pkt.seq)).lastMs = 0
      ∨ tooOften (clock 0 i - (w.buffer.sendBuffer (RtcSendBuffer.index pkt.seq)).lastMs + 10) = false)
    (localMs arrivedMs : Int) (packNow : Nat → Int)
    : ∃ asked answered repaired, Step undefinedShift s w asked ∧ Step undefinedShift s asked answered
        ∧ Step undefinedShift s answered repaired
        ∧ repaired.calls = w.calls ++ [.input s.clockRate pkt.bytes localMs arrivedMs packNow]
        ∧ (seqLowerThan pkt.seq w.generator.lastSeq = true → pkt.seq ∉ repaired.generator.nackMap.keys) := by
  have hinv := h.inv
  obtain ⟨hlisted, hrtcp⟩ := Rtcp.handlesRtcp_generated hnack
  obtain ⟨buffer, out, hbuffer, datagram, hdatagram, hresent⟩ :=
    hinv.sending.handle_nack hpkt hrecent hlisted hoften Rtcp.rtcpRtpFb nackPkt.data.length
  have hdata := handleRtpData_resent (hinv.carries pkt (List.mem_of_getElem? hpkt)) hresent hrate htest localMs
  refine ⟨_, _, _, .nackTimer now htimer (List.cons_ne_nil _ _) hnack,
    .nack clock tooOften (List.mem_append_right _ (List.mem_singleton_self _)) hrtcp hbuffer,
    .datagram localMs arrivedMs packNow (List.mem_append_right _ hdatagram), ?_, ?_⟩
  . unfold World.receive
    rw [hdata]
    rfl
  . intro hlower
    unfold World.receive
    rw [hdata]
    change pkt.seq ∉ (generator.updateNackList (RtcSendBuffer.getSeq pkt.bytes)).nackMap.keys
    rw [RtcSendBuffer.getSeq_bytes]
    obtain rfl := congrArg Prod.fst htimer
    obtain ⟨_, hstate⟩ := w.generator.onTimer_state now
    simp only [hstate]
    refine NackGenerator.notMem_updateNackList (s := { w.generator with nackMap := _ }) ?_ hlower
    by_contra hinit
    have hlost := congrArg Prod.snd htimer
    rw [NackGenerator.onTimer_lost_eq, hinv.generator (Bool.eq_false_iff.mpr hinit)] at hlost
    cases hlost

theorem exists_lossy : ∃ w pkt, Reachable (fun _ => 0) sampleSession { data := fun _ => [] } w
    ∧ w.sent[1]? = some pkt ∧ pkt.seq = 1 ∧ w.sent.length = 3
    ∧ w.generator = (NackGenerator.updateNackList {} 0).updateNackList 2 := by
  obtain ⟨w, hreachable, hmedia, hdatagrams, _, hgenerator⟩ := exists_sending (fun _ => 0) sampleSession
    { data := fun _ => [] } sampleNalus
  have hstream := hreachable.inv.stream
  rw [hmedia] at hstream
  have hsent : w.sent = sampleSent := by
    unfold sampleSent
    rw [hstream]
    rfl
  obtain ⟨p₀, p₁, p₂, hpkts, hp₀, hp₁, hp₂⟩
    : ∃ p₀ p₁ p₂, sampleSent = [p₀, p₁, p₂] ∧ p₀.seq = 0 ∧ p₁.seq = 1 ∧ p₂.seq = 2 := ⟨_, _, _, rfl, rfl, rfl, rfl⟩
  rw [hpkts] at hsent
  have hbytes (p : RtpPacket) (hp : p ∈ w.sent) : p.bytes ∈ w.datagrams := by
    rw [hdatagrams]
    exact List.mem_map_of_mem hp
  have hfirst : p₀ ∈ w.sent := by simp [hsent]
  have hlast : p₂ ∈ w.sent := by simp [hsent]
  have harrived := hreachable.arrive hfirst (hbytes p₀ hfirst) (by decide) rfl 0 0 fun _ => 0
  refine ⟨_, p₁, harrived.arrive hlast (hbytes p₂ hlast) (by decide) rfl 5 5 fun _ => 5, ?_, hp₁, ?_, ?_⟩
  . change w.sent[1]? = some p₁
    rw [hsent]
    rfl
  . change w.sent.length = 3
    rw [hsent]
    rfl
  . change (w.generator.updateNackList p₀.seq).updateNackList p₂.seq = _
    rw [hgenerator, hp₀, hp₂]

theorem asked_sample : ((NackGenerator.updateNackList {} 0).updateNackList 2).lastSeq = 2
    ∧ (((NackGenerator.updateNackList {} 0).updateNackList 2).onTimer 100).2 = [1] := by
  have hnext : (NackGenerator.updateNackList {} 0).updateNackList 2
      = { initFlag := true, lastSeq := 2, nackMap := NackGenerator.addSeqs {} 1 2 } := rfl
  rw [hnext, NackGenerator.onTimer_lost_eq, NackGenerator.addSeqs, if_pos (by decide), NackGenerator.addSeqs,
    if_neg (by decide)]
  exact ⟨rfl, by decide⟩

theorem lost_repaired_sample : ∃ w asked answered repaired pkt,
    Reachable (fun _ => 0) sampleSession { data := fun _ => [] } w
    ∧ w.sent[1]? = some pkt ∧ Step (fun _ => 0) sampleSession w asked ∧ Step (fun _ => 0) sampleSession asked answered
    ∧ Step (fun _ => 0) sampleSession answered repaired
    ∧ repaired.calls = w.calls ++ [.input 90000 pkt.bytes 120 120 fun _ => 120]
    ∧ pkt.seq ∉ repaired.generator.nackMap.keys := by
  obtain ⟨w, pkt, hreachable, hpkt, hseq, hlength, hgenerator⟩ := exists_lossy
  obtain ⟨hlast, hlost⟩ := asked_sample
  rw [← hgenerator] at hlast hlost
  have htimer : w.generator.onTimer 100 = ((w.generator.onTimer 100).1, [pkt.seq]) := by
    rw [hseq, ← hlost]
  have hnack : (RtcRecvStream.generateNackList (fun _ => 0) sampleSession.ssrc [pkt.seq]).isSome := by
    rw [hseq]
    decide
  obtain ⟨nackPkt, hnack⟩ := Option.isSome_iff_exists.mp hnack
  obtain ⟨asked, answered, repaired, hasked, hanswered, hrepaired, hcalls, hkeys⟩ := lost_repaired hreachable htimer
    hnack hpkt (by rw [hlength]; decide) (by decide) (fun h => absurd h Bool.false_ne_true) (fun _ _ => 110)
    (fun _ => false) (fun _ => Or.inr rfl) 120 120
    fun _ => 120
  refine ⟨w, asked, answered, repaired, pkt, hreachable, hpkt, hasked, hanswered, hrepaired, hcalls, hkeys ?_⟩
  rw [hseq, hlast]
  decide

end Repair

end VideoSession
