import CppStreamer.Net.RtpRtcp.RtcpFbNack
import CppStreamer.Net.RtpRtcp.Rtx
import CppStreamer.Net.WebRtc.RtcSendStream

/-!
This module contains the packets that a stream keeps to send them again when the receiver asks for it.
-/

open ByteStream

def sendBufferSize : Nat := 2048

structure SendRtpPacketInfo where
  retryCount : Int := 0
  lastMs : Int := 0
  pkt : Option RtpPacketRef := none

/--
The part of `RtcSendStream` that video packets go through once they have been made.
-/
structure RtcSendBuffer where
  nackEnable : Bool
  hasRtx : Bool
  rtxPayload : UInt8
  rtxSsrc : UInt32
  rtxSeq : UInt16 := 0
  seq : UInt16 := 0
  sentCount : UInt32 := 0
  sentBytes : UInt32 := 0
  resendCnt : Int := 0
  sendBuffer : Fin sendBufferSize → SendRtpPacketInfo := fun _ => {}
  memory : RtpMemory

namespace RtcSendBuffer

def getSeq (data : List UInt8) : UInt16 := .ofNat (read2Bytes (data.drop 2))

def index (seq : UInt16) : Fin sendBufferSize := ⟨seq.toNat % sendBufferSize, Nat.mod_lt _ (by decide)⟩

/--
`none` if the packet cannot be cloned.
-/
def saveBuffer (s : RtcSendBuffer) (data : List UInt8) (now : Int) : Option RtcSendBuffer :=
  if s.nackEnable then
    match s.memory.clone data none now with
    | (_, none) => none
    | (memory, some pkt) =>
      some { s with
        memory := memory
        sendBuffer := Function.update s.sendBuffer (index (getSeq data)) { pkt := some pkt } }
  else
    some s

/--
The bytes that the callback gets are those of the packet. The sender report in front of the first packet
is left out.
-/
def sendVideoRtpPacket (s : RtcSendBuffer) (data : List UInt8) (resend : Bool) (now : Int)
    : Option (RtcSendBuffer × List UInt8) :=
  let s := { s with
    sentCount := s.sentCount + 1
    sentBytes := s.sentBytes + .ofNat data.length }
  if resend then some (s, data) else (s.saveBuffer data now).map fun s => (s, data)

/--
The packet has been given the next sequence number.
-/
def sendPacket (s : RtcSendBuffer) (data : List UInt8) (now : Int)
    : Option (RtcSendBuffer × List UInt8) :=
  { s with seq := s.seq + 1 }.sendVideoRtpPacket data false now

/--
What is sent for a sequence number. The round trip time is a `float`, which durations are too short for a
resend is left open.
-/
def resendRtpPacket (s : RtcSendBuffer) (seq : UInt16) (now : Int) (tooOften : Int → Bool)
    : Option (RtcSendBuffer × Option (List UInt8)) :=
  let info := s.sendBuffer (index seq)
  match info.pkt with
  | none => some (s, none)
  | some pkt =>
    if getSeq (s.memory.getData pkt) ≠ seq then some (s, none)
    else if info.lastMs ≠ 0 ∧ tooOften (now - info.lastMs + 10) then some (s, none)
    else
      let info := { info with
        retryCount := if info.lastMs = 0 then 1 else info.retryCount + 1
        lastMs := now }
      let s := { s with
        sendBuffer := Function.update s.sendBuffer (index seq) info
        resendCnt := s.resendCnt + 1 }
      if s.hasRtx then
        match s.memory.clone (s.memory.getData pkt) none now with
        | (_, none) => none
        | (memory, some rtxPkt) =>
          let (memory, rtxPkt) := memory.rtxMux rtxPkt s.rtxPayload s.rtxSsrc s.rtxSeq
          let s := { s with memory := memory, rtxSeq := s.rtxSeq + 1 }
          (s.sendVideoRtpPacket (memory.getData rtxPkt) true now).map fun (s, sent) => (s, some sent)
      else
        (s.sendVideoRtpPacket (s.memory.getData pkt) true now).map fun (s, sent) => (s, some sent)

/--
The clock is read for each of the numbers.
-/
def resendRtpPackets (s : RtcSendBuffer) (tooOften : Int → Bool)
    : List (UInt16 × Int) → Option (RtcSendBuffer × List (List UInt8))
  | [] => some (s, [])
  | (seq, now) :: seqs =>
    match s.resendRtpPacket seq now tooOften with
    | none => none
    | some (s, sent) =>
      match s.resendRtpPackets tooOften seqs with
      | none => none
      | some (s, rest) => some (s, sent.toList ++ rest)

def handleRtcpNack (s : RtcSendBuffer) (nackPkt : RtcpFbNack) (clock : Nat → Int) (tooOften : Int → Bool)
    : Option (RtcSendBuffer × List (List UInt8)) :=
  if s.nackEnable then
    s.resendRtpPackets tooOften (nackPkt.getLostSeqs.zipIdx.map fun (seq, i) => (seq, clock i))
  else
    some (s, [])

/--
What `Parse` and `Clone` accept, with room for the two bytes of `RtxMux`.
-/
def IsVideoPacket (data : List UInt8) : Prop :=
  (RtpLayout.parse data).isSome ∧ data.length + 2 ≤ rtpPacketMaxSize

/--
The bytes of the RTX packet of a packet.
-/
def rtxPacket (data : List UInt8) (payloadType : UInt8) (ssrc : UInt32) (seq : UInt16)
    : Option (List UInt8) :=
  (RtpLayout.parse data).map fun layout =>
    [data.getD 0 0 &&& 0xdf, (data.getD 1 0 &&& 0x80) ||| (payloadType &&& 0x7f)]
      ++ write2Bytes seq.toNat ++ (data.drop 4).take 4 ++ write4Bytes ssrc.toNat
      ++ (data.drop 12).take (layout.payload - 12)
      ++ ((data.drop 2).take 2 ++ (data.drop layout.payload).take layout.payloadLen)

/--
The states after packets have been sent, the last one first, with resends between these.
-/
inductive Run (init : RtcSendBuffer) : RtcSendBuffer → List (List UInt8) → Prop where
  | init : Run init init []
  | send {s s' : RtcSendBuffer} {sent : List (List UInt8)} {data out : List UInt8} {now : Int}
      : Run init s sent → IsVideoPacket data → getSeq data = s.seq →
        s.sendPacket data now = some (s', out) → Run init s' (data :: sent)
  | resend {s s' : RtcSendBuffer} {sent : List (List UInt8)} {seq : UInt16} {now : Int}
      {tooOften : Int → Bool} {out : Option (List UInt8)}
      : Run init s sent → s.resendRtpPacket seq now tooOften = some (s', out) → Run init s' sent

def new (hasRtx : Bool) (rtxPayload : UInt8) (rtxSsrc : UInt32) (memory : RtpMemory) : RtcSendBuffer where
  nackEnable := true
  hasRtx := hasRtx
  rtxPayload := rtxPayload
  rtxSsrc := rtxSsrc
  memory := memory

/--
What is in a slot: a packet with these bytes, in a buffer of its own.
-/
def Slot (s : RtcSendBuffer) (k : Fin sendBufferSize) : Option (List UInt8) → Prop
  | none => (s.sendBuffer k).pkt = none
  | some data => ∃ pkt, (s.sendBuffer k).pkt = some pkt ∧ s.memory.Stores pkt data
    ∧ pkt.dataLen = data.length ∧ IsVideoPacket data ∧ ∃ n < s.memory.allocated, pkt.buffer = .heap n

/--
A slot has the last one of the packets that fall on it, and it is one of the last packets that have been
sent at all.
-/
structure Buffers (s : RtcSendBuffer) (sent : List (List UInt8)) : Prop where
  nackEnable : s.nackEnable = true
  seqs : ∀ i data, sent[i]? = some data → getSeq data = s.seq - .ofNat (i + 1)
  slot : ∀ k, s.Slot k ((sent.take sendBufferSize).find? fun data => index (getSeq data) = k)

end RtcSendBuffer

namespace RtpMemory

variable {m : RtpMemory} {p : RtpPacketRef} {f : RtpFields} {data : List UInt8}

theorem data_removePadding_of_ne {buffer : BufferId} (hne : buffer ≠ p.buffer)
    : (m.removePadding p).1.data buffer = m.data buffer := by
  unfold removePadding
  split
  . show (m.setPadding p false).data buffer = m.data buffer
    unfold setPadding setByte
    rw [data_modify_of_ne hne]
  . rfl

theorem allocated_removePadding : (m.removePadding p).1.allocated = m.allocated := by
  unfold removePadding
  split
  . rfl
  . rfl

theorem data_rtxMux_of_ne {buffer : BufferId} (hne : buffer ≠ p.buffer) (payloadType : UInt8)
    (ssrc : UInt32) (seq : UInt16)
    : (m.rtxMux p payloadType ssrc seq).1.data buffer = m.data buffer := by
  unfold rtxMux
  rw [data_removePadding_of_ne (by exact hne)]
  unfold setSeq memmove setSsrc setPayloadType setByte
  rw [data_modify_of_ne hne, data_modify_of_ne hne, data_modify_of_ne hne, data_modify_of_ne hne,
    data_modify_of_ne hne]

theorem allocated_rtxMux (payloadType : UInt8) (ssrc : UInt32) (seq : UInt16)
    : (m.rtxMux p payloadType ssrc seq).1.allocated = m.allocated := by
  unfold rtxMux
  rw [allocated_removePadding]
  rfl

theorem extends_rtxMux_clone {layout : RtpLayout} (hlen : data.length < rtpPacketMaxSize)
    (hparse : RtpLayout.parse data = some layout) {now : Int} {m' : RtpMemory}
    (hclone : m.clone data none now = (m', some p)) (payloadType : UInt8) (ssrc : UInt32) (seq : UInt16)
    : m.Extends (m'.rtxMux p payloadType ssrc seq).1 := by
  rw [clone_heap hlen hparse, Prod.mk.injEq, Option.some.injEq] at hclone
  rcases hclone with ⟨rfl, rfl⟩
  have hextends := m.extends_memcpy_heap data
  refine ⟨?_, ?_⟩
  . rw [allocated_rtxMux]
    exact hextends.allocated
  . intro n hn
    rw [data_rtxMux_of_ne (by simp; omega), hextends.data n hn]

theorem rtxPacket_eq {layout : RtpLayout} {tail : List UInt8} (hparse : RtpLayout.parse data = some layout)
    (hdata : data = f.bytes ++ tail) (hpayload : layout.payload = 12 + f.rest.length)
    (hlen : layout.payloadLen = f.payload.length) (payloadType : UInt8) (ssrc : UInt32) (seq : UInt16)
    : RtcSendBuffer.rtxPacket data payloadType ssrc seq
      = some (rtxFields f payloadType ssrc seq).bytes := by
  have hpay : (data.drop layout.payload).take layout.payloadLen = f.payload := by
    rw [hdata, hpayload, hlen, RtpFields.bytes, List.append_assoc, List.drop_left' f.length_header,
      List.take_left]
  have hrest : (data.drop 12).take (layout.payload - 12) = f.rest := by
    rw [hdata, hpayload, Nat.add_sub_cancel_left, RtpFields.drop_header]
  have hfront : data = f.first :: f.second
      :: (f.seq ++ (f.timestamp ++ (f.ssrc ++ (f.rest ++ (f.payload ++ tail))))) := by
    rw [hdata]
    simp only [RtpFields.bytes, RtpFields.header, RtpFields.fixed, List.append_assoc, List.cons_append]
  have hseq : (data.drop 2).take 2 = f.seq := by
    rw [hfront]
    exact List.take_left' f.length_seq
  have htimestamp : (data.drop 4).take 4 = f.timestamp := by
    rw [hfront, show 4 = 2 + f.seq.length by rw [f.length_seq], ← List.drop_drop]
    show ((f.seq ++ _).drop f.seq.length).take _ = _
    rw [List.drop_left, f.length_seq]
    exact List.take_left' f.length_timestamp
  have hfirst : data.getD 0 0 = f.first := by
    rw [hfront]
    rfl
  have hsecond : data.getD 1 0 = f.second := by
    rw [hfront]
    rfl
  unfold RtcSendBuffer.rtxPacket
  rw [hparse, Option.map_some, hpay, hrest, hseq, htimestamp, hfirst, hsecond]
  simp only [rtxFields, RtpFields.bytes, RtpFields.header, RtpFields.fixed, List.append_assoc,
    List.cons_append, List.nil_append]

theorem getData_rtxMux_clone {m' : RtpMemory} {now : Int}
    (hclone : m.clone data none now = (m', some p)) (hlen : p.dataLen = data.length)
    (payloadType : UInt8) (ssrc : UInt32) (seq : UInt16)
    : RtcSendBuffer.rtxPacket data payloadType ssrc seq
      = some ((m'.rtxMux p payloadType ssrc seq).1.getData (m'.rtxMux p payloadType ssrc seq).2) := by
  have hstores := (clone_stores hclone).1
  rcases hstores.hasFields hlen with ⟨f, tail, hdata, hfields⟩
  have hrtx := hfields.rtxMux payloadType ssrc seq
  rw [hrtx.1.getData hrtx.2]
  exact rtxPacket_eq hstores.parse hdata hfields.payload hfields.payloadLen payloadType ssrc seq

end RtpMemory

namespace RtcSendBuffer

variable {s s' : RtcSendBuffer} {sent : List (List UInt8)} {data : List UInt8} {k : Fin sendBufferSize}

theorem IsVideoPacket.length_lt (h : IsVideoPacket data) : data.length < rtpPacketMaxSize := by
  have hroom := h.2
  omega

theorem slot_of_extends (hmemory : s.memory.Extends s'.memory)
    (hpkt : (s'.sendBuffer k).pkt = (s.sendBuffer k).pkt) {data : Option (List UInt8)} (h : s.Slot k data)
    : s'.Slot k data := by
  cases data with
  | none => exact hpkt.trans h
  | some data =>
    rcases h with ⟨pkt, hslot, hstores, hlen, hvideo, n, hn, hbuffer⟩
    exact ⟨pkt, hpkt.trans hslot, hmemory.stores hbuffer hn hstores, hlen, hvideo, n,
      Nat.lt_of_lt_of_le hn hmemory.allocated, hbuffer⟩

theorem Buffers.of_extends (h : s.Buffers sent) (hmemory : s.memory.Extends s'.memory)
    (hpkt : ∀ k, (s'.sendBuffer k).pkt = (s.sendBuffer k).pkt) (hnack : s'.nackEnable = s.nackEnable)
    (hseq : s'.seq = s.seq) : s'.Buffers sent := by
  refine ⟨hnack.trans h.nackEnable, ?_, ?_⟩
  . rw [hseq]
    exact h.seqs
  . intro k
    exact slot_of_extends hmemory (hpkt k) (h.slot k)

theorem buffers_new (hasRtx : Bool) (rtxPayload : UInt8) (rtxSsrc : UInt32) (memory : RtpMemory)
    : (new hasRtx rtxPayload rtxSsrc memory).Buffers [] := by
  refine ⟨rfl, ?_, ?_⟩
  . intro i data hdata
    cases hdata
  . intro k
    rfl

/--
The packet that leaves the window falls on the slot of the packet that is sent.
-/
theorem index_sub (seq : UInt16) : index (seq - .ofNat sendBufferSize) = index seq := by
  apply Fin.ext
  show (seq - .ofNat 2048).toNat % 2048 = seq.toNat % 2048
  have hlt := seq.toNat_lt
  have hsize : (UInt16.ofNat 2048).toNat = 2048 := rfl
  rw [UInt16.toNat_sub, hsize]
  omega

theorem Buffers.find_cons (h : s.Buffers sent) (hseq : getSeq data = s.seq)
    (hk : k ≠ index (getSeq data))
    : ((data :: sent).take sendBufferSize).find? (fun data => index (getSeq data) = k)
      = (sent.take sendBufferSize).find? fun data => index (getSeq data) = k := by
  have htake : (data :: sent).take sendBufferSize = data :: sent.take 2047 := rfl
  have hcut : sent.take sendBufferSize = sent.take 2047 ++ sent[2047]?.toList := List.take_add_one
  rw [htake, hcut, List.find?_cons_of_neg (by simpa using fun h => hk h.symm), List.find?_append]
  cases hlast : sent[2047]? with
  | none => simp
  | some last =>
    have hindex : index (getSeq last) = index (getSeq data) := by
      rw [h.seqs 2047 last hlast, hseq]
      apply index_sub
    have hfind : [last].find? (fun data => index (getSeq data) = k) = none := by
      rw [List.find?_cons_of_neg (by simpa [hindex] using fun h => hk h.symm)]
      rfl
    show _ = Option.or _ ([last].find? _)
    rw [hfind, Option.or_none]

theorem seq_succ (seq : UInt16) (i : Nat) : seq + 1 - .ofNat (i + 1 + 1) = seq - .ofNat (i + 1) := by
  rw [UInt16.ofNat_add (i + 1) 1]
  show seq + 1 - (UInt16.ofNat (i + 1) + 1) = _
  grind

theorem Buffers.send (h : s.Buffers sent) (hvideo : IsVideoPacket data) (hseq : getSeq data = s.seq)
    (now : Int)
    : ∃ s', s.sendPacket data now = some (s', data) ∧ s'.seq = s.seq + 1 ∧ s'.Buffers (data :: sent) := by
  rcases Option.isSome_iff_exists.mp hvideo.1 with ⟨layout, hparse⟩
  have hclone := RtpMemory.clone_heap (m := s.memory) hvideo.length_lt hparse now
  have hstores := RtpMemory.clone_stores hclone
  unfold sendPacket sendVideoRtpPacket saveBuffer
  simp only [Bool.false_eq_true, if_false, h.nackEnable, if_true]
  rw [hclone]
  refine ⟨_, rfl, rfl, ⟨rfl, ?_, ?_⟩⟩
  . intro i old hold
    cases i with
    | zero =>
      cases hold
      rw [hseq]
      show s.seq = s.seq + 1 - 1
      grind
    | succ i =>
      rw [h.seqs i old hold]
      exact (seq_succ s.seq i).symm
  . intro k
    by_cases hk : k = index (getSeq data)
    . rw [List.take_cons (by decide), List.find?_cons_of_pos (by simp [hk])]
      refine ⟨_, ?_, hstores.1, rfl, hvideo, s.memory.allocated, ?_, hstores.2.1⟩
      . simp [hk]
      . exact Nat.lt_succ_self _
    . rw [h.find_cons hseq hk]
      apply slot_of_extends (s.memory.extends_memcpy_heap data) _ (h.slot k)
      simp [hk]

end RtcSendBuffer

namespace RtcSendBuffer

variable {s s' : RtcSendBuffer} {sent : List (List UInt8)} {data : List UInt8} {k : Fin sendBufferSize}

/--
What has been sent for a sequence number: nothing, or the last packet with that number as it is or by RTX.
-/
structure Resends (s : RtcSendBuffer) (sent : List (List UInt8)) (seq : UInt16) (s' : RtcSendBuffer)
    (out : Option (List UInt8)) : Prop where
  buffers : s'.Buffers sent
  sends : ∀ bytes, out = some bytes → ∃ data ∈ sent.take sendBufferSize,
    sent.find? (fun data => getSeq data = seq) = some data
      ∧ if s.hasRtx then rtxPacket data s.rtxPayload s.rtxSsrc s.rtxSeq = some bytes else bytes = data
  unchanged : out = none → s' = s

theorem Resends.none (h : s.Buffers sent) (seq : UInt16) : s.Resends sent seq s none := by
  refine ⟨h, ?_, fun _ => rfl⟩
  intro _ hout
  cases hout

theorem find_seq {seq : UInt16}
    (hfind : (sent.take sendBufferSize).find? (fun data => index (getSeq data) = index seq) = some data)
    (hseq : getSeq data = seq)
    : data ∈ sent.take sendBufferSize ∧ sent.find? (fun data => getSeq data = seq) = some data := by
  refine ⟨List.mem_of_find?_eq_some hfind, ?_⟩
  rcases List.find?_eq_some_iff_append.mp hfind with ⟨_, later, before, htake, hlater⟩
  rw [List.find?_eq_some_iff_append]
  refine ⟨by simpa using hseq, later, before ++ sent.drop sendBufferSize, ?_, ?_⟩
  . conv => lhs; rw [← List.take_append_drop sendBufferSize sent, htake]
    simp
  . intro other hother
    have hne := hlater other hother
    simp only [Bool.not_eq_true', decide_eq_false_iff_not] at hne ⊢
    intro heq
    apply hne
    rw [heq]

theorem Buffers.resend (h : s.Buffers sent) (seq : UInt16) (now : Int) (tooOften : Int → Bool)
    : ∃ s' out, s.resendRtpPacket seq now tooOften = some (s', out) ∧ s.Resends sent seq s' out := by
  have hslot := h.slot (index seq)
  unfold resendRtpPacket
  simp only
  cases hfind : (sent.take sendBufferSize).find? fun data => index (getSeq data) = index seq with
  | none =>
    rw [hfind] at hslot
    rw [show (s.sendBuffer (index seq)).pkt = Option.none from hslot]
    exact ⟨s, Option.none, rfl, Resends.none h seq⟩
  | some data =>
    rw [hfind] at hslot
    rcases hslot with ⟨pkt, hpkt, hstores, hlen, hvideo, n, hn, hbuffer⟩
    rw [hpkt]
    simp only [hstores.getData]
    by_cases hseq : getSeq data = seq
    . rw [if_neg (by simpa using hseq)]
      by_cases hoften : (s.sendBuffer (index seq)).lastMs ≠ 0
          ∧ tooOften (now - (s.sendBuffer (index seq)).lastMs + 10) = true
      . rw [if_pos hoften]
        exact ⟨s, Option.none, rfl, Resends.none h seq⟩
      . rw [if_neg hoften]
        have hmem := find_seq hfind hseq
        have hinfo (info : SendRtpPacketInfo) (hinfo : info.pkt = some pkt) (k : Fin sendBufferSize)
            : (Function.update s.sendBuffer (index seq) info k).pkt = (s.sendBuffer k).pkt := by
          by_cases hk : k = index seq
          . rw [hk, Function.update_self, hinfo, hpkt]
          . rw [Function.update_of_ne hk]
        cases hrtx : s.hasRtx with
        | false =>
          simp only [Bool.false_eq_true, if_false]
          refine ⟨_, _, rfl, ⟨?_, ?_, ?_⟩⟩
          . exact h.of_extends (RtpMemory.Extends.refl s.memory) (hinfo _ rfl) rfl rfl
          . intro bytes hbytes
            cases hbytes
            refine ⟨data, hmem.1, hmem.2, ?_⟩
            simp [hrtx]
          . intro hout
            cases hout
        | true =>
          rcases Option.isSome_iff_exists.mp hvideo.1 with ⟨layout, hparse⟩
          have hclone := RtpMemory.clone_heap (m := s.memory) hvideo.length_lt hparse now
          simp only [if_true]
          rw [hclone]
          refine ⟨_, _, rfl, ⟨?_, ?_, ?_⟩⟩
          . exact h.of_extends (RtpMemory.extends_rtxMux_clone hvideo.length_lt hparse hclone _ _ _)
              (hinfo _ rfl) rfl rfl
          . intro bytes hbytes
            cases hbytes
            refine ⟨data, hmem.1, hmem.2, ?_⟩
            rw [if_pos hrtx]
            exact RtpMemory.getData_rtxMux_clone hclone rfl s.rtxPayload s.rtxSsrc s.rtxSeq
          . intro hout
            cases hout
    . rw [if_pos hseq]
      exact ⟨s, Option.none, rfl, Resends.none h seq⟩

section Run

variable {hasRtx : Bool} {rtxPayload : UInt8} {rtxSsrc : UInt32} {memory : RtpMemory}

theorem Run.buffers (h : Run (new hasRtx rtxPayload rtxSsrc memory) s sent) : s.Buffers sent := by
  induction h with
  | init => exact buffers_new hasRtx rtxPayload rtxSsrc memory
  | send _ hvideo hseq hsend ih =>
    rcases ih.send hvideo hseq _ with ⟨_, hsend', _, hbuffers⟩
    rw [hsend'] at hsend
    cases hsend
    exact hbuffers
  | resend _ hresend ih =>
    rcases ih.resend _ _ _ with ⟨_, _, hresend', hresends⟩
    rw [hresend'] at hresend
    cases hresend
    exact hresends.buffers

/--
In every reachable state, a resend gives back the right packet or nothing.
-/
theorem run_resend (hrun : Run (new hasRtx rtxPayload rtxSsrc memory) s sent) (seq : UInt16) (now : Int)
    (tooOften : Int → Bool)
    : ∃ s' out, s.resendRtpPacket seq now tooOften = some (s', out)
      ∧ (∀ bytes, out = some bytes → ∃ data ∈ sent.take sendBufferSize,
        sent.find? (fun data => getSeq data = seq) = some data
          ∧ if s.hasRtx then rtxPacket data s.rtxPayload s.rtxSsrc s.rtxSeq = some bytes
            else bytes = data)
      ∧ ((∀ data ∈ sent.take sendBufferSize, getSeq data ≠ seq) → out = none ∧ s' = s) := by
  rcases hrun.buffers.resend seq now tooOften with ⟨s', out, hresend, hresends⟩
  refine ⟨s', out, hresend, hresends.sends, ?_⟩
  intro hnone
  cases out with
  | none => exact ⟨rfl, hresends.unchanged rfl⟩
  | some bytes =>
    rcases hresends.sends bytes rfl with ⟨data, hmem, hfind, _⟩
    have hseq : getSeq data = seq := by
      simpa using List.find?_some hfind
    exact absurd hseq (hnone data hmem)

/--
A packet with one byte of payload.
-/
def videoSample : List UInt8 := [0x80, 0x60, 0, 0, 0, 0, 0, 9, 0, 0, 0, 7, 0x65]

theorem isVideoPacket_sample : IsVideoPacket videoSample := by
  refine ⟨rfl, ?_⟩
  unfold rtpPacketMaxSize videoSample
  decide

theorem run_resend_sample : ∃ s, Run (new true 97 8 { data := fun _ => [] }) s [videoSample]
    ∧ ∃ s' out, s.resendRtpPacket 0 1 (fun _ => false) = some (s', out)
      ∧ (∀ bytes, out = some bytes → ∃ data ∈ [videoSample].take sendBufferSize,
        [videoSample].find? (fun data => getSeq data = 0) = some data
          ∧ if s.hasRtx then rtxPacket data s.rtxPayload s.rtxSsrc s.rtxSeq = some bytes
            else bytes = data)
      ∧ ((∀ data ∈ [videoSample].take sendBufferSize, getSeq data ≠ 0) → out = none ∧ s' = s) := by
  have hseq : getSeq videoSample = 0 := by
    decide
  rcases (buffers_new true 97 8 { data := fun _ => [] }).send isVideoPacket_sample hseq 0 with ⟨s, hsend, _, _⟩
  have hrun := Run.send Run.init isVideoPacket_sample hseq hsend
  exact ⟨s, hrun, run_resend hrun 0 1 fun _ => false⟩

theorem Run.resendRtpPackets (h : Run (new hasRtx rtxPayload rtxSsrc memory) s sent)
    (tooOften : Int → Bool) (seqs : List (UInt16 × Int))
    : ∃ s' out, s.resendRtpPackets tooOften seqs = some (s', out)
      ∧ Run (new hasRtx rtxPayload rtxSsrc memory) s' sent := by
  induction seqs generalizing s with
  | nil => exact ⟨s, [], rfl, h⟩
  | cons seq seqs ih =>
    rcases h.buffers.resend seq.1 seq.2 tooOften with ⟨s₁, out, hresend, _⟩
    rcases ih (Run.resend h hresend) with ⟨s', rest, hrest, hrun⟩
    refine ⟨s', out.toList ++ rest, ?_, hrun⟩
    unfold RtcSendBuffer.resendRtpPackets
    rw [hresend]
    simp only [hrest]

theorem Run.handleRtcpNack (h : Run (new hasRtx rtxPayload rtxSsrc memory) s sent) (nackPkt : RtcpFbNack)
    (clock : Nat → Int) (tooOften : Int → Bool)
    : ∃ s' out, s.handleRtcpNack nackPkt clock tooOften = some (s', out)
      ∧ Run (new hasRtx rtxPayload rtxSsrc memory) s' sent := by
  unfold RtcSendBuffer.handleRtcpNack
  rw [if_pos h.buffers.nackEnable]
  apply h.resendRtpPackets

end Run

end RtcSendBuffer

namespace RtpH264Pack

theorem splitNalu_le {n size : Nat} (hsize : size ∈ splitNalu n) : size ≤ kPayloadMaxSize := by
  fun_induction splitNalu n with
  | case1 n hpos hgt ih =>
    rcases List.mem_cons.mp hsize with rfl | hsize
    . exact Nat.le_refl _
    . exact ih hsize
  | case2 n hpos hle =>
    rw [List.mem_singleton.mp hsize]
    omega
  | case3 => cases hsize

/--
A payload that fits in a packet.
-/
def Fits (pkt : RtpPacket) : Prop := 0 < pkt.payload.length ∧ pkt.payload.length ≤ kPayloadMaxSize + 2

theorem fits_generateFuALoop (naluHeader : UInt8) (start : Bool) {sizes : List Nat}
    (hsizes : ∀ size ∈ sizes, size ≤ kPayloadMaxSize) (fragment : List UInt8)
    : ∀ pkt ∈ generateFuALoop naluHeader start sizes fragment, Fits pkt := by
  induction sizes generalizing start fragment with
  | nil =>
    intro pkt hpkt
    cases hpkt
  | cons size sizes ih =>
    intro pkt hpkt
    have hsize := hsizes size List.mem_cons_self
    rcases List.mem_cons.mp hpkt with rfl | hpkt
    . unfold Fits fuAPacket makeRtpPacket
      simp only [List.length_cons, List.length_take]
      omega
    . exact ih false (fun size hsize => hsizes size (List.mem_cons_of_mem _ hsize)) _ pkt hpkt

end RtpH264Pack

namespace RtcSendStream

open RtpH264Pack

theorem fits_stapAPackets (s : RtcSendStream) (isKeyFrame : Bool) : ∀ pkt ∈ s.stapAPackets isKeyFrame, Fits pkt := by
  intro pkt hpkt
  unfold stapAPackets at hpkt
  split at hpkt
  . rw [List.mem_singleton.mp hpkt]
    have hsps := s.sps.property
    have hpps := s.pps.property
    unfold Fits generateStapAPackets makeRtpPacket kPayloadMaxSize
    simp only [List.length_cons, List.flatMap_cons, List.flatMap_nil, stapAField, List.length_append,
      ByteStream.length_write2Bytes, List.length_nil]
    omega
  . cases hpkt

theorem fits_naluPackets {nalu : List UInt8} (hnalu : nalu ≠ []) : ∀ pkt ∈ naluPackets nalu, Fits pkt := by
  intro pkt hpkt
  have hpos := List.length_pos_iff.mpr hnalu
  unfold naluPackets at hpkt
  split at hpkt
  . rw [List.mem_singleton.mp hpkt]
    unfold Fits generateSinglePackets makeRtpPacket
    simp only
    omega
  . exact fits_generateFuALoop _ true (fun _ => splitNalu_le) _ pkt hpkt

end RtcSendStream

namespace RtcSendBuffer

open RtpH264Pack

variable {hasRtx : Bool} {rtxPayload : UInt8} {rtxSsrc : UInt32} {memory : RtpMemory} {b : RtcSendBuffer}
  {sent : List (List UInt8)}

theorem isVideoPacket_of_fits {pkt : RtpPacket} (h : Fits pkt) : IsVideoPacket pkt.bytes := by
  rcases h with ⟨hpos, hlen⟩
  unfold kPayloadMaxSize at hlen
  have hroom : pkt.bytes.length + 2 ≤ rtpPacketMaxSize := by
    rw [RtpPacket.length_bytes]
    unfold rtpPacketMaxSize
    omega
  refine ⟨?_, hroom⟩
  rw [pkt.parse_bytes hpos (by omega)]
  rfl

theorem getSeq_bytes (pkt : RtpPacket) : getSeq pkt.bytes = pkt.seq := by
  have hread := read2Bytes_write2Bytes pkt.seq.toNat
    (write4Bytes pkt.timestamp.toNat ++ write4Bytes pkt.ssrc.toNat ++ pkt.payload)
  unfold getSeq RtpPacket.bytes
  simp only [List.append_assoc, List.drop_succ_cons, List.drop_zero] at hread ⊢
  rw [hread, Nat.mod_eq_of_lt pkt.seq.toNat_lt, UInt16.ofNat_toNat]

theorem Run.sendVideoRtpPackets (h : Run (new hasRtx rtxPayload rtxSsrc memory) b sent)
    {s : RtcSendStream} (hseq : s.seq = b.seq) (ts : UInt32) (pkts : List RtpPacket)
    (hpkts : ∀ pkt ∈ pkts, Fits pkt)
    : ∃ b', Run (new hasRtx rtxPayload rtxSsrc memory) b'
        (((s.sendVideoRtpPackets ts pkts).2.map RtpPacket.bytes).reverse ++ sent)
      ∧ (s.sendVideoRtpPackets ts pkts).1.seq = b'.seq := by
  induction pkts generalizing s b sent with
  | nil => exact ⟨b, h, hseq⟩
  | cons pkt pkts ih =>
    have hsent : Fits (s.sendVideoRtpPacket ts pkt).2 := hpkts pkt List.mem_cons_self
    have hnext : getSeq (s.sendVideoRtpPacket ts pkt).2.bytes = b.seq := by
      rw [getSeq_bytes, ← hseq]
      rfl
    rcases h.buffers.send (isVideoPacket_of_fits hsent) hnext 0 with ⟨b₁, hsend, hb₁, _⟩
    have hseq₁ : (s.sendVideoRtpPacket ts pkt).1.seq = b₁.seq := by
      rw [hb₁, ← hseq]
      rfl
    rcases ih (Run.send h (isVideoPacket_of_fits hsent) hnext hsend) hseq₁
      (fun pkt hpkt => hpkts pkt (List.mem_cons_of_mem _ hpkt)) with ⟨b', hrun, hseq'⟩
    refine ⟨b', ?_, hseq'⟩
    rw [RtcSendStream.sendVideoRtpPackets]
    simpa using hrun

theorem Run.sendH264Packet (h : Run (new hasRtx rtxPayload rtxSsrc memory) b sent)
    {s s' : RtcSendStream} (hseq : s.seq = b.seq) {pkt : MediaPacket} {pkts : List RtpPacket}
    (hsend : s.sendH264Packet pkt = some (s', pkts))
    : ∃ b', Run (new hasRtx rtxPayload rtxSsrc memory) b' ((pkts.map RtpPacket.bytes).reverse ++ sent)
      ∧ s'.seq = b'.seq := by
  unfold RtcSendStream.sendH264Packet at hsend
  split at hsend
  next => cases hsend
  next pos _ =>
    split at hsend
    next => cases hsend
    next header body _ =>
      simp only at hsend
      split at hsend
      next =>
        cases hsend
        exact ⟨b, h, hseq⟩
      next =>
        split at hsend
        next =>
          cases hsend
          refine ⟨b, h, ?_⟩
          rw [← hseq]
          unfold RtcSendStream.saveParamSet
          split
          . split <;> split <;> rfl
          . rfl
        next =>
          rw [Option.some.injEq] at hsend
          have hrun := h.sendVideoRtpPackets hseq (s.rtpTimestamp pkt.dts)
            (s.stapAPackets pkt.isKeyFrame ++ RtcSendStream.naluPackets (header :: body)) (by
              intro pkt hpkt
              rcases List.mem_append.mp hpkt with hpkt | hpkt
              . exact s.fits_stapAPackets _ pkt hpkt
              . exact RtcSendStream.fits_naluPackets (List.cons_ne_nil _ _) pkt hpkt)
          rwa [hsend] at hrun

end RtcSendBuffer
