import CppStreamer.Net.RtpRtcp.RtpBuffer

/-!
This module contains the RTX format of packets: `RtxMux` and `RtxDemux`, which change a packet in its
buffer, and that the second one takes back what the first one does.
-/

open ByteStream

/--
The bytes of a buffer from a position on are replaced. What is behind the known bytes counts as zeros.
-/
def setBytes (buffer : List UInt8) (pos : Nat) (bytes : List UInt8) : List UInt8 :=
  (buffer.take pos).rightpad pos 0 ++ bytes ++ buffer.drop (pos + bytes.length)

namespace RtpMemory

def modify (m : RtpMemory) (buffer : BufferId) (f : List UInt8 → List UInt8) : RtpMemory :=
  { m with data := Function.update m.data buffer (f (m.data buffer)) }

def setByte (m : RtpMemory) (p : RtpPacketRef) (pos : Nat) (f : UInt8 → UInt8) : RtpMemory :=
  m.modify p.buffer fun buffer => setBytes buffer pos [f (buffer.getD pos 0)]

/--
A field of seven bits, in front of which the marker stays.
-/
def setPayloadType (m : RtpMemory) (p : RtpPacketRef) (type : UInt8) : RtpMemory :=
  m.setByte p 1 fun byte => (byte &&& 0x80) ||| (type &&& 0x7f)

def setPadding (m : RtpMemory) (p : RtpPacketRef) (flag : Bool) : RtpMemory :=
  m.setByte p 0 fun byte => (byte &&& 0xdf) ||| if flag then 0x20 else 0

def setSeq (m : RtpMemory) (p : RtpPacketRef) (seq : UInt16) : RtpMemory :=
  m.modify p.buffer fun buffer => setBytes buffer 2 (write2Bytes seq.toNat)

def setSsrc (m : RtpMemory) (p : RtpPacketRef) (ssrc : UInt32) : RtpMemory :=
  m.modify p.buffer fun buffer => setBytes buffer 8 (write4Bytes ssrc.toNat)

def memmove (m : RtpMemory) (buffer : BufferId) (dst src len : Nat) : RtpMemory :=
  m.modify buffer fun buffer => setBytes buffer dst ((buffer.drop src).take len)

def hasPadding (m : RtpMemory) (p : RtpPacketRef) : Bool := RtpLayout.hasPadding (m.data p.buffer)

/--
The end of `RtxMux` and of `RtxDemux`.
-/
def removePadding (m : RtpMemory) (p : RtpPacketRef) : RtpMemory × RtpPacketRef :=
  if m.hasPadding p then
    (m.setPadding p false, { p with dataLen := p.dataLen - p.padLen, padLen := 0 })
  else
    (m, p)

def rtxMux (m : RtpMemory) (p : RtpPacketRef) (payloadType : UInt8) (ssrc : UInt32) (seq : UInt16)
    : RtpMemory × RtpPacketRef :=
  let m := m.setPayloadType p payloadType
  let m := m.setSsrc p ssrc
  let m := m.memmove p.buffer (p.payload + 2) p.payload p.payloadLen
  let m := m.modify p.buffer fun buffer =>
    setBytes buffer p.payload (write2Bytes (read2Bytes (buffer.drop 2)))
  let m := m.setSeq p seq
  m.removePadding { p with payloadLen := p.payloadLen + 2, dataLen := p.dataLen + 2 }

/--
`none` for an exception.
-/
def rtxDemux (m : RtpMemory) (p : RtpPacketRef) (ssrc : UInt32) (payloadType : UInt8)
    : Option (RtpMemory × RtpPacketRef) :=
  if p.payloadLen < 2 then none
  else
    let replaceSeq := UInt16.ofNat (read2Bytes ((m.data p.buffer).drop p.payload))
    let m := m.setPayloadType p payloadType
    let m := m.setSeq p replaceSeq
    let m := m.setSsrc p ssrc
    let m := m.memmove p.buffer p.payload (p.payload + 2) (p.payloadLen - 2)
    some (m.removePadding { p with payloadLen := p.payloadLen - 2, dataLen := p.dataLen - 2 })

/--
`RtpPacket::Parse` of the first bytes of a buffer.
-/
def parse (m : RtpMemory) (buffer : BufferId) (len : Nat) (now : Int) : Option RtpPacketRef :=
  (RtpLayout.parse ((m.data buffer).take len)).map fun layout =>
    { layout with buffer := buffer, dataLen := len, localMs := now }

/--
What `RtcRecvStream::HandleRtpPacket` does with a packet first.
-/
def recoverRtx (m : RtpMemory) (p : RtpPacketRef) (rtxSsrc ssrc : UInt32) (payloadType : UInt8)
    : Option (RtpMemory × RtpPacketRef) :=
  if (m.load p).ssrc = rtxSsrc then m.rtxDemux p ssrc payloadType else some (m, p)

end RtpMemory

namespace RtpLayout

def csrcs (data : List UInt8) : List UInt8 :=
  (data.drop sizeofRtpCommonHeader).take (4 * csrcCount data)

/--
The identifier and the value of the header extension.
-/
def extension (data : List UInt8) : Option (Nat × List UInt8) :=
  let pos := extensionPos data
  if hasExtension data then
    some (read2Bytes (data.drop pos), (data.drop (pos + 4)).take (read2Bytes (data.drop (pos + 2)) * 4))
  else
    none

end RtpLayout

/--
The bytes of a packet by field: the fixed part of the header, the rest of it, and the payload.
-/
structure RtpFields where
  first : UInt8
  second : UInt8
  seq : List UInt8
  timestamp : List UInt8
  ssrc : List UInt8
  rest : List UInt8
  payload : List UInt8
  length_seq : seq.length = 2
  length_timestamp : timestamp.length = 4
  length_ssrc : ssrc.length = 4

namespace RtpFields

def fixed (f : RtpFields) : List UInt8 := f.first :: f.second :: (f.seq ++ f.timestamp ++ f.ssrc)

def header (f : RtpFields) : List UInt8 := f.fixed ++ f.rest

def bytes (f : RtpFields) : List UInt8 := f.header ++ f.payload

@[simp]
theorem length_fixed (f : RtpFields) : f.fixed.length = 12 := by
  simp [fixed, f.length_seq, f.length_timestamp, f.length_ssrc]

@[simp]
theorem length_header (f : RtpFields) : f.header.length = 12 + f.rest.length := by
  simp [header]

theorem exists_fields (data : List UInt8) {pos : Nat} (len : Nat) (hpos : 12 ≤ pos) (hlen : pos + len ≤ data.length)
    : ∃ f : RtpFields, data = f.bytes ++ data.drop (pos + len) ∧ f.header.length = pos
      ∧ f.payload.length = len := by
  have htwo : 2 ≤ data.length := by omega
  rcases data with _ | ⟨first, _ | ⟨second, data⟩⟩
  . simp at htwo
  . simp at htwo
  . simp only [List.length_cons] at hlen
    refine ⟨{
      first := first
      second := second
      seq := data.take 2
      timestamp := (data.drop 2).take 4
      ssrc := (data.drop 6).take 4
      rest := (data.drop 10).take (pos - 12)
      payload := (data.drop (pos - 2)).take len
      length_seq := by rw [List.length_take]; omega
      length_timestamp := by rw [List.length_take, List.length_drop]; omega
      length_ssrc := by rw [List.length_take, List.length_drop]; omega }, ?_, ?_, ?_⟩
    . have hcut (a b : Nat) : (data.drop a).take b ++ data.drop (a + b) = data.drop a := by
        rw [← List.drop_drop, List.take_append_drop]
      have hend : (first :: second :: data).drop (pos + len) = data.drop (pos - 2 + len) := by
        rw [show pos + len = pos - 2 + len + 2 by omega]
        rfl
      have hrest := hcut 10 (pos - 12)
      rw [show 10 + (pos - 12) = pos - 2 by omega] at hrest
      simp only [bytes, header, fixed, hend, List.cons_append, List.append_assoc, List.cons.injEq, true_and]
      rw [hcut, hrest, hcut 6 4, hcut 2 4, List.take_append_drop]
    . rw [length_header, List.length_take, List.length_drop]
      omega
    . rw [List.length_take, List.length_drop]
      omega

end RtpFields

theorem setBytes_append (front : List UInt8) {old : List UInt8} (bytes back : List UInt8)
    (hlen : old.length = bytes.length)
    : setBytes (front ++ (old ++ back)) front.length bytes = front ++ (bytes ++ back) := by
  unfold setBytes List.rightpad
  rw [List.take_left, Nat.sub_self, List.replicate_zero, List.append_nil, List.append_assoc,
    ← List.drop_drop, List.drop_left, ← hlen, List.drop_left]

namespace RtpMemory

variable {m : RtpMemory} {p : RtpPacketRef} {f : RtpFields} {tail : List UInt8}

@[simp]
theorem data_modify (m : RtpMemory) (buffer : BufferId) (g : List UInt8 → List UInt8)
    : (m.modify buffer g).data buffer = g (m.data buffer) := by
  simp [modify]

theorem data_modify_of_ne {buffer buffer' : BufferId} (hne : buffer' ≠ buffer)
    (g : List UInt8 → List UInt8) : (m.modify buffer g).data buffer' = m.data buffer' := by
  simp [modify, hne]

section Fields

theorem data_setPayloadType (hdata : m.data p.buffer = f.bytes ++ tail) (type : UInt8)
    : (m.setPayloadType p type).data p.buffer
      = { f with second := (f.second &&& 0x80) ||| (type &&& 0x7f) }.bytes ++ tail := by
  unfold setPayloadType setByte
  rw [data_modify, hdata]
  rfl

theorem data_setPadding (hdata : m.data p.buffer = f.bytes ++ tail)
    : (m.setPadding p false).data p.buffer
      = { f with first := (f.first &&& 0xdf) ||| 0 }.bytes ++ tail := by
  unfold setPadding setByte
  rw [data_modify, hdata]
  rfl

theorem data_setSeq (hdata : m.data p.buffer = f.bytes ++ tail) (seq : UInt16)
    : (m.setSeq p seq).data p.buffer
      = { f with seq := write2Bytes seq.toNat, length_seq := rfl }.bytes ++ tail := by
  unfold setSeq
  rw [data_modify, hdata]
  simp only [RtpFields.bytes, RtpFields.header, RtpFields.fixed, List.append_assoc, List.cons_append]
  exact setBytes_append [f.first, f.second] (write2Bytes seq.toNat) _ f.length_seq

theorem data_setSsrc (hdata : m.data p.buffer = f.bytes ++ tail) (ssrc : UInt32)
    : (m.setSsrc p ssrc).data p.buffer
      = { f with ssrc := write4Bytes ssrc.toNat, length_ssrc := rfl }.bytes ++ tail := by
  unfold setSsrc
  rw [data_modify, hdata]
  have hfront : (f.first :: f.second :: (f.seq ++ f.timestamp)).length = 8 := by
    simp [f.length_seq, f.length_timestamp]
  have hset := setBytes_append (f.first :: f.second :: (f.seq ++ f.timestamp))
    (write4Bytes ssrc.toNat) (f.rest ++ (f.payload ++ tail)) f.length_ssrc
  rw [hfront] at hset
  simpa [RtpFields.bytes, RtpFields.header, RtpFields.fixed] using hset

theorem setBytes_behind (front back bytes : List UInt8)
    : ∃ gap back', setBytes (front ++ back) (front.length + 2) bytes = front ++ (gap ++ (bytes ++ back'))
      ∧ gap.length = 2 := by
  refine ⟨(back.take 2).rightpad 2 0, (front ++ back).drop (front.length + 2 + bytes.length), ?_, ?_⟩
  . have htake : (front ++ back).take (front.length + 2) = front ++ back.take 2 := by
      rw [List.take_append, Nat.add_sub_cancel_left, List.take_of_length_le (by omega)]
    unfold setBytes List.rightpad
    rw [htake, List.length_append, Nat.add_sub_add_left]
    simp only [List.append_assoc]
  . rw [List.length_rightpad, List.length_take]
    omega

theorem read2Bytes_seq (f : RtpFields) (back : List UInt8)
    : read2Bytes ((f.header ++ back).drop 2) = read2Bytes f.seq := by
  have hdrop : (f.header ++ back).drop 2 = f.seq ++ (f.timestamp ++ f.ssrc ++ f.rest ++ back) := by
    simp [RtpFields.header, RtpFields.fixed]
  rw [hdrop, read2Bytes_append _ _ (Nat.le_of_eq f.length_seq.symm)]

theorem data_moveBehind (hdata : m.data p.buffer = f.bytes ++ tail)
    (hpayload : p.payload = 12 + f.rest.length) (hlen : p.payloadLen = f.payload.length)
    : ∃ tail', ((m.memmove p.buffer (p.payload + 2) p.payload p.payloadLen).modify p.buffer
        fun buffer => setBytes buffer p.payload (write2Bytes (read2Bytes (buffer.drop 2)))).data p.buffer
      = { f with payload := f.seq ++ f.payload }.bytes ++ tail' := by
  rw [← f.length_header] at hpayload
  have hbytes : f.bytes ++ tail = f.header ++ (f.payload ++ tail) := by
    rw [RtpFields.bytes, List.append_assoc]
  have hmoved : ((f.header ++ (f.payload ++ tail)).drop p.payload).take p.payloadLen = f.payload := by
    rw [hpayload, hlen, List.drop_left, List.take_left]
  rcases setBytes_behind f.header (f.payload ++ tail) f.payload with ⟨gap, back, hset, hgap⟩
  unfold memmove
  rw [data_modify, data_modify, hdata, hbytes, hmoved, hpayload, hset, read2Bytes_seq,
    write2Bytes_read2Bytes f.length_seq, setBytes_append _ _ _ (hgap.trans f.length_seq.symm)]
  refine ⟨back, ?_⟩
  simp [RtpFields.bytes, RtpFields.header, RtpFields.fixed]

theorem data_moveBack {osn payload : List UInt8} (hdata : m.data p.buffer = f.bytes ++ tail)
    (hpayload : p.payload = 12 + f.rest.length) (hosn : osn.length = 2)
    (hsplit : f.payload = osn ++ payload) (hlen : p.payloadLen = f.payload.length)
    : ∃ tail', (m.memmove p.buffer p.payload (p.payload + 2) (p.payloadLen - 2)).data p.buffer
      = { f with payload := payload }.bytes ++ tail' := by
  rw [← f.length_header] at hpayload
  have hbytes : f.bytes ++ tail = f.header ++ (osn ++ (payload ++ tail)) := by
    simp only [RtpFields.bytes, hsplit, List.append_assoc]
  have hlen' : p.payloadLen - 2 = payload.length := by
    rw [hlen, hsplit, List.length_append, hosn, Nat.add_sub_cancel_left]
  have hmoved : ((f.header ++ (osn ++ (payload ++ tail))).drop (p.payload + 2)).take (p.payloadLen - 2)
      = payload := by
    rw [hpayload, hlen', ← List.drop_drop, List.drop_left, ← hosn, List.drop_left, List.take_left]
  unfold memmove
  rw [data_modify, hdata, hbytes, hmoved, hpayload]
  unfold setBytes List.rightpad
  rw [List.take_left, Nat.sub_self, List.replicate_zero, List.append_nil]
  exact ⟨_, rfl⟩

end Fields

/--
A packet with these fields, behind which there is its padding.
-/
structure HasFields (m : RtpMemory) (p : RtpPacketRef) (f : RtpFields) : Prop where
  data : ∃ tail, m.data p.buffer = f.bytes ++ tail
  payload : p.payload = 12 + f.rest.length
  payloadLen : p.payloadLen = f.payload.length
  dataLen : p.dataLen = 12 + f.rest.length + f.payload.length + p.padLen
  padLen : f.first &&& 0x20 = 0 → p.padLen = 0

theorem HasFields.getData (h : m.HasFields p f) (hpad : p.padLen = 0) : m.getData p = f.bytes := by
  rcases h.data with ⟨tail, hdata⟩
  unfold RtpMemory.getData
  have hlen : p.dataLen = f.bytes.length := by
    rw [h.dataLen, hpad, RtpFields.bytes, List.length_append, RtpFields.length_header, Nat.add_zero]
  rw [hdata, hlen, List.take_left]

theorem hasPadding_eq (hdata : m.data p.buffer = f.bytes ++ tail)
    : m.hasPadding p = decide (f.first &&& 0x20 ≠ 0) := by
  unfold hasPadding RtpLayout.hasPadding
  rw [hdata]
  rfl

theorem localMs_removePadding (m : RtpMemory) (p : RtpPacketRef)
    : (m.removePadding p).2.localMs = p.localMs := by
  unfold removePadding
  split
  . rfl
  . rfl

theorem clearPadding_of_not : ∀ first : UInt8, first &&& 0x20 = 0 → first &&& 0xdf = first := by
  apply forall_of_bitVec
  decide

theorem HasFields.removePadding (h : m.HasFields p f)
    : (m.removePadding p).1.HasFields (m.removePadding p).2 { f with first := f.first &&& 0xdf }
      ∧ (m.removePadding p).2.padLen = 0 := by
  rcases h.data with ⟨tail, hdata⟩
  unfold RtpMemory.removePadding
  rw [hasPadding_eq hdata]
  by_cases hpadding : f.first &&& 0x20 = 0
  . rw [if_neg (by simpa using hpadding)]
    have hpadLen := h.padLen hpadding
    rw [clearPadding_of_not f.first hpadding]
    exact ⟨⟨h.data, h.payload, h.payloadLen, h.dataLen, h.padLen⟩, hpadLen⟩
  . rw [if_pos (by simpa using hpadding)]
    have hset := data_setPadding hdata
    rw [UInt8.or_zero] at hset
    refine ⟨⟨⟨tail, hset⟩, h.payload, h.payloadLen, ?_, fun _ => rfl⟩, rfl⟩
    have hdataLen := h.dataLen
    simp only
    rw [hdataLen, Nat.add_sub_cancel, Nat.add_zero]

/--
The RTX packet of a packet.
-/
def rtxFields (f : RtpFields) (payloadType : UInt8) (ssrc : UInt32) (seq : UInt16) : RtpFields :=
  { f with
    first := f.first &&& 0xdf
    second := (f.second &&& 0x80) ||| (payloadType &&& 0x7f)
    seq := write2Bytes seq.toNat
    ssrc := write4Bytes ssrc.toNat
    payload := f.seq ++ f.payload
    length_seq := rfl
    length_ssrc := rfl }

theorem HasFields.rtxMux (h : m.HasFields p f) (payloadType : UInt8) (ssrc : UInt32) (seq : UInt16)
    : (m.rtxMux p payloadType ssrc seq).1.HasFields (m.rtxMux p payloadType ssrc seq).2
        (rtxFields f payloadType ssrc seq)
      ∧ (m.rtxMux p payloadType ssrc seq).2.padLen = 0 := by
  rcases h.data with ⟨tail, hdata⟩
  have htype := data_setPayloadType hdata payloadType
  have hssrc := data_setSsrc htype ssrc
  rcases data_moveBehind hssrc h.payload h.payloadLen with ⟨tail', hmove⟩
  have hseq := data_setSeq hmove seq
  unfold RtpMemory.rtxMux
  apply HasFields.removePadding (f := { rtxFields f payloadType ssrc seq with first := f.first })
  refine ⟨⟨tail', hseq⟩, h.payload, ?_, ?_, h.padLen⟩
  . have hlen := h.payloadLen
    simp only [rtxFields, List.length_append, f.length_seq, hlen, Nat.add_comm]
  . have hlen := h.dataLen
    simp only [rtxFields, hlen, List.length_append, f.length_seq]
    omega

theorem HasFields.rtxDemux (h : m.HasFields p f) {osn payload : List UInt8} (hosn : osn.length = 2)
    (hsplit : f.payload = osn ++ payload) (ssrc : UInt32) (payloadType : UInt8)
    : ∃ m' p', m.rtxDemux p ssrc payloadType = some (m', p')
      ∧ m'.HasFields p' { f with
          first := f.first &&& 0xdf
          second := (f.second &&& 0x80) ||| (payloadType &&& 0x7f)
          seq := osn
          ssrc := write4Bytes ssrc.toNat
          payload := payload
          length_seq := hosn
          length_ssrc := rfl }
      ∧ p'.padLen = 0 ∧ p'.localMs = p.localMs := by
  rcases h.data with ⟨tail, hdata⟩
  have hlen := h.payloadLen
  have hdataLen := h.dataLen
  have hpayloadLen : f.payload.length = payload.length + 2 := by
    rw [hsplit, List.length_append, hosn, Nat.add_comm]
  have hread : read2Bytes ((m.data p.buffer).drop p.payload) = read2Bytes osn := by
    rw [hdata, h.payload, ← f.length_header, RtpFields.bytes, List.append_assoc, List.drop_left, hsplit,
      List.append_assoc, read2Bytes_append _ _ (Nat.le_of_eq hosn.symm)]
  have hreplace : write2Bytes (UInt16.ofNat (read2Bytes osn)).toNat = osn := by
    rw [UInt16.toNat_ofNat', Nat.mod_eq_of_lt (read2Bytes_lt osn), write2Bytes_read2Bytes hosn]
  have htype := data_setPayloadType hdata payloadType
  have hseq := data_setSeq htype (.ofNat (read2Bytes osn))
  have hssrc := data_setSsrc hseq ssrc
  rcases data_moveBack hssrc h.payload hosn hsplit hlen with ⟨tail', hmove⟩
  simp only [hreplace] at hmove
  unfold RtpMemory.rtxDemux
  rw [if_neg (by omega), hread]
  have hfields := HasFields.removePadding (p := { p with
      payloadLen := p.payloadLen - 2
      dataLen := p.dataLen - 2 }) ⟨⟨tail', hmove⟩, h.payload, by
        simp only [hlen, hpayloadLen]
        omega, by
        simp only [hdataLen, hpayloadLen]
        omega, h.padLen⟩
  exact ⟨_, _, rfl, hfields.1, hfields.2, localMs_removePadding _ _⟩

end RtpMemory

namespace RtpLayout

variable {data data' : List UInt8} {headerLen : Nat}

theorem drop_window {l : List UInt8} {n k : Nat} (hk : k ≤ n) (hn : 12 + n ≤ l.length)
    : l.drop (12 + k) = ((l.drop 12).take n).drop k ++ l.drop (12 + n) := by
  have hcut : l.drop 12 = (l.drop 12).take n ++ l.drop (12 + n) := by
    rw [← List.drop_drop, List.take_append_drop]
  have hlen : ((l.drop 12).take n).length = n := by
    rw [List.length_take, List.length_drop]
    omega
  rw [← List.drop_drop]
  conv => lhs; rw [hcut]
  rw [List.drop_append_of_le_length (by omega)]

/--
Packets that agree on the rest of the header, and on which parts it has.
-/
structure SameHeader (data data' : List UInt8) (headerLen : Nat) : Prop where
  csrcCount : csrcCount data' = csrcCount data
  hasExtension : hasExtension data' = hasExtension data
  rest : (data'.drop 12).take (headerLen - 12) = (data.drop 12).take (headerLen - 12)
  le : headerLen ≤ data.length
  le' : headerLen ≤ data'.length

theorem SameHeader.read2Bytes (h : SameHeader data data' headerLen) {k : Nat}
    (hk : 12 + k + 2 ≤ headerLen)
    : read2Bytes (data'.drop (12 + k)) = read2Bytes (data.drop (12 + k)) := by
  have hle := h.le
  have hle' := h.le'
  have hlen : 2 ≤ (((data.drop 12).take (headerLen - 12)).drop k).length := by
    rw [List.length_drop, List.length_take, List.length_drop]
    omega
  rw [@drop_window data' (headerLen - 12) k (by omega) (by omega),
    @drop_window data (headerLen - 12) k (by omega) (by omega), h.rest,
    read2Bytes_append _ _ hlen, read2Bytes_append _ _ hlen]

theorem headerEnd_ge (hheader : headerEnd data = some headerLen) : 12 ≤ headerLen := by
  unfold headerEnd extensionPos sizeofRtpCommonHeader at hheader
  simp only at hheader
  split at hheader
  . split at hheader
    . cases hheader
    . split at hheader
      . cases hheader
      . cases hheader
        omega
  . cases hheader
    omega

theorem SameHeader.window (h : SameHeader data data' headerLen) {k n : Nat}
    (hn : 12 + k + n ≤ headerLen)
    : (data'.drop (12 + k)).take n = (data.drop (12 + k)).take n := by
  have hle := h.le
  have hle' := h.le'
  have hlen : n ≤ (((data.drop 12).take (headerLen - 12)).drop k).length := by
    rw [List.length_drop, List.length_take, List.length_drop]
    omega
  rw [@drop_window data' (headerLen - 12) k (by omega) (by omega),
    @drop_window data (headerLen - 12) k (by omega) (by omega), h.rest,
    List.take_append_of_le_length hlen, List.take_append_of_le_length hlen]

theorem SameHeader.headerEnd (h : SameHeader data data' headerLen)
    (hheader : RtpLayout.headerEnd data = some headerLen)
    : RtpLayout.headerEnd data' = some headerLen ∧ csrcs data' = csrcs data ∧ extension data' = extension data
      ∧ parseExt data' = parseExt data := by
  have hle := h.le
  have hle' := h.le'
  unfold RtpLayout.headerEnd at hheader ⊢
  unfold parseExt extension csrcs
  unfold extensionPos sizeofRtpCommonHeader at hheader ⊢
  rw [h.csrcCount, h.hasExtension]
  cases hext : RtpLayout.hasExtension data with
  | false =>
    rw [hext] at hheader
    have hend := Option.some.inj hheader
    exact ⟨hheader, h.window (k := 0) (by omega), rfl, rfl⟩
  | true =>
    rw [hext] at hheader
    simp only [if_true] at hheader ⊢
    by_cases hlong : data.length < 12 + 4 * RtpLayout.csrcCount data + 4
    . rw [if_pos hlong] at hheader
      cases hheader
    . rw [if_neg hlong] at hheader
      by_cases hlong' : data.length < 12 + 4 * RtpLayout.csrcCount data + 4
          + ByteStream.read2Bytes (data.drop (12 + 4 * RtpLayout.csrcCount data + 2)) * 4
      . rw [if_pos hlong'] at hheader
        cases hheader
      . rw [if_neg hlong', Option.some.injEq] at hheader
        have hextLen := h.read2Bytes (k := 4 * RtpLayout.csrcCount data + 2) (by omega)
        have hid := h.read2Bytes (k := 4 * RtpLayout.csrcCount data) (by omega)
        have hvalue := h.window (k := 4 * RtpLayout.csrcCount data + 4)
          (n := ByteStream.read2Bytes (data.drop (12 + 4 * RtpLayout.csrcCount data + 2)) * 4) (by omega)
        have hcsrcs := h.window (k := 0) (n := 4 * RtpLayout.csrcCount data) (by omega)
        rw [← Nat.add_assoc] at hextLen hvalue
        rw [hextLen, hid, hvalue, hcsrcs, if_neg (by omega), if_neg (by omega), hheader]
        exact ⟨rfl, rfl, rfl, rfl⟩

/--
What an accepted packet looks like.
-/
structure Accepts (data : List UInt8) (layout : RtpLayout) : Prop where
  le_max : data.length ≤ rtpPacketMaxSize
  headerEnd : RtpLayout.headerEnd data = some layout.payload
  length : layout.payload + layout.payloadLen + layout.padLen = data.length
  pos : 0 < layout.payloadLen
  padLen : RtpLayout.hasPadding data = false → layout.padLen = 0
  parseExt : RtpLayout.parseExt data = true

theorem accepts_of_parse {layout : RtpLayout} (hparse : parse data = some layout)
    : Accepts data layout := by
  unfold parse at hparse
  split at hparse
  next => cases hparse
  next hmax =>
    split at hparse
    next => cases hparse
    next payload hheader =>
      split at hparse
      next => cases hparse
      next hlen =>
        split at hparse
        next => cases hparse
        next padLen hpadding =>
          split at hparse
          next hext =>
            cases hparse
            unfold parsePadding at hpadding
            split at hpadding
            next hflag =>
              simp only at hpadding
              split at hpadding
              next => cases hpadding
              next hpad =>
                cases hpadding
                generalize (data.getLastD 0).toNat = padLen at hpad
                refine ⟨by omega, hheader, ?_, ?_, ?_, hext⟩
                . show payload + (data.length - payload - padLen) + padLen = data.length
                  omega
                . show 0 < data.length - payload - padLen
                  omega
                . intro hfalse
                  rw [hfalse] at hflag
                  cases hflag
            next =>
              cases hpadding
              refine ⟨by omega, hheader, ?_, ?_, fun _ => rfl, hext⟩
              . show payload + (data.length - payload - 0) + 0 = data.length
                omega
              . show 0 < data.length - payload - 0
                omega
          next => cases hparse

theorem Accepts.parse {layout : RtpLayout} (h : Accepts data layout) (hpadding : RtpLayout.hasPadding data = false)
    : RtpLayout.parse data = some layout := by
  have hlength := h.length
  have hpos := h.pos
  have hmax := h.le_max
  have hpadLen := h.padLen hpadding
  unfold RtpLayout.parse parsePadding
  rw [if_neg (by omega), h.headerEnd, hpadding]
  simp only [Bool.false_eq_true, if_false]
  rw [if_neg (by omega), if_pos h.parseExt, Nat.sub_zero, ← hpadLen]
  have hpayloadLen : data.length - layout.payload = layout.payloadLen := by
    omega
  rw [hpayloadLen]

end RtpLayout

namespace RtpFields

variable {f f' : RtpFields} {layout : RtpLayout}

theorem first_bits : ∀ first : UInt8, (first &&& 0xdf) &&& 0x0f = first &&& 0x0f
    ∧ (first &&& 0xdf) &&& 0x10 = first &&& 0x10 ∧ (first &&& 0xdf) &&& 0x20 = 0 := by
  apply forall_of_bitVec
  decide

theorem drop_header (f : RtpFields) (tail : List UInt8)
    : ((f.bytes ++ tail).drop 12).take f.rest.length = f.rest := by
  rw [bytes, header, List.append_assoc, List.append_assoc, List.drop_left' f.length_fixed, List.take_left]

theorem sameHeader (hfirst : f'.first = f.first &&& 0xdf) (hrest : f'.rest = f.rest)
    (tail : List UInt8) : RtpLayout.SameHeader (f.bytes ++ tail) f'.bytes (12 + f.rest.length) := by
  have hbits := first_bits f.first
  refine ⟨?_, ?_, ?_, ?_, ?_⟩
  . show ((f'.first) &&& 0x0f).toNat = (f.first &&& 0x0f).toNat
    rw [hfirst, hbits.1]
  . show decide (f'.first &&& 0x10 ≠ 0) = decide (f.first &&& 0x10 ≠ 0)
    rw [hfirst, hbits.2.1]
  . have hdrop := drop_header f' []
    rw [List.append_nil, hrest] at hdrop
    rw [Nat.add_sub_cancel_left, drop_header, hdrop]
  . rw [List.length_append, bytes, List.length_append, length_header]
    omega
  . rw [bytes, List.length_append, length_header, hrest]
    omega

variable (f') in
theorem parse_of_accepts {tail : List UInt8} (h : RtpLayout.Accepts (f.bytes ++ tail) layout)
    (hpayload : layout.payload = 12 + f.rest.length) (hfirst : f'.first = f.first &&& 0xdf)
    (hrest : f'.rest = f.rest) (hpos : 0 < f'.payload.length) (hlen : f'.bytes.length ≤ rtpPacketMaxSize)
    : RtpLayout.parse f'.bytes
        = some { payload := 12 + f.rest.length, payloadLen := f'.payload.length, padLen := 0 }
      ∧ RtpLayout.csrcs f'.bytes = RtpLayout.csrcs (f.bytes ++ tail)
      ∧ RtpLayout.extension f'.bytes = RtpLayout.extension (f.bytes ++ tail) := by
  have hheader := h.headerEnd
  rw [hpayload] at hheader
  have hsame := (sameHeader hfirst hrest tail).headerEnd hheader
  have hpadding : RtpLayout.hasPadding f'.bytes = false := by
    show decide (f'.first &&& 0x20 ≠ 0) = false
    rw [hfirst, (first_bits f.first).2.2]
    rfl
  refine ⟨RtpLayout.Accepts.parse ⟨hlen, hsame.1, ?_, hpos, fun _ => rfl, ?_⟩ hpadding, hsame.2.1,
    hsame.2.2.1⟩
  . simp only [bytes, List.length_append, length_header, hrest]
    omega
  . rw [hsame.2.2.2, h.parseExt]

theorem ofData_bytes (tail : List UInt8) (hpayload : layout.payload = 12 + f.rest.length)
    (hlen : layout.payloadLen = f.payload.length) (localMs : Int)
    : RtpPacket.ofData (f.bytes ++ tail) layout localMs = {
        marker := f.second &&& 0x80 ≠ 0
        payloadType := f.second &&& 0x7f
        seq := .ofNat (read2Bytes f.seq)
        timestamp := .ofNat (read4Bytes f.timestamp)
        ssrc := .ofNat (read4Bytes f.ssrc)
        payload := f.payload
        localMs := localMs } := by
  have hdata : f.bytes ++ tail
      = f.first :: f.second :: (f.seq ++ (f.timestamp ++ (f.ssrc ++ (f.rest ++ (f.payload ++ tail))))) := by
    simp only [bytes, header, fixed, List.append_assoc, List.cons_append]
  have hpay : ((f.bytes ++ tail).drop layout.payload).take layout.payloadLen = f.payload := by
    rw [hpayload, hlen, bytes, List.append_assoc, List.drop_left' f.length_header, List.take_left]
  have hseq : read2Bytes ((f.bytes ++ tail).drop 2) = read2Bytes f.seq := by
    rw [hdata]
    exact read2Bytes_append _ _ (Nat.le_of_eq f.length_seq.symm)
  have htimestamp : read4Bytes ((f.bytes ++ tail).drop 4) = read4Bytes f.timestamp := by
    rw [hdata, show 4 = 2 + f.seq.length by rw [f.length_seq], ← List.drop_drop]
    show read4Bytes ((f.seq ++ _).drop f.seq.length) = _
    rw [List.drop_left, read4Bytes_append _ _ (Nat.le_of_eq f.length_timestamp.symm)]
  have hssrc : read4Bytes ((f.bytes ++ tail).drop 8) = read4Bytes f.ssrc := by
    rw [hdata, show 8 = 2 + (f.seq.length + f.timestamp.length) by rw [f.length_seq, f.length_timestamp],
      ← List.drop_drop, ← List.drop_drop]
    show read4Bytes (((f.seq ++ _).drop f.seq.length).drop f.timestamp.length) = _
    rw [List.drop_left, List.drop_left, read4Bytes_append _ _ (Nat.le_of_eq f.length_ssrc.symm)]
  have hsecond : (f.bytes ++ tail).getD 1 0 = f.second := by
    rw [hdata]
    rfl
  unfold RtpPacket.ofData
  rw [hpay, hseq, htimestamp, hssrc, hsecond]

end RtpFields

namespace RtpMemory

variable {m : RtpMemory} {p : RtpPacketRef} {f : RtpFields} {data : List UInt8} {layout : RtpLayout}

theorem clone_of_parse (hparse : RtpLayout.parse data = some layout) (hlen : data.length < rtpPacketMaxSize)
    (m : RtpMemory) (buffer : Option BufferId) (now : Int)
    : ∃ m' slot, m.clone data buffer now = (m', some {
        layout with buffer := slot, dataLen := data.length, localMs := now }) := by
  cases buffer with
  | some slot => exact ⟨_, slot, clone_pool hlen hparse slot now⟩
  | none => exact ⟨_, _, clone_heap hlen hparse now⟩

theorem Stores.hasFields (h : m.Stores p data) (hlen : p.dataLen = data.length)
    : ∃ f tail, data = f.bytes ++ tail ∧ m.HasFields p f := by
  have hacc := RtpLayout.accepts_of_parse h.parse
  have hlength := hacc.length
  rcases RtpFields.exists_fields data p.payloadLen (RtpLayout.headerEnd_ge hacc.headerEnd)
    (by omega) with ⟨f, hdata, hheader, hpayloadLen⟩
  rw [f.length_header] at hheader
  refine ⟨f, _, hdata, ⟨?_, hheader.symm, hpayloadLen.symm, by omega, ?_⟩⟩
  . have hget := h.getData
    unfold RtpMemory.getData at hget
    refine ⟨data.drop (p.payload + p.payloadLen) ++ (m.data p.buffer).drop p.dataLen, ?_⟩
    rw [← List.append_assoc, ← hdata, ← hget, List.take_append_drop]
  . intro hfirst
    apply hacc.padLen
    rw [hdata]
    show decide (f.first &&& 0x20 ≠ 0) = false
    rw [hfirst]
    rfl

theorem hasFields_parse {slot : BufferId} (now : Int) (hparse : RtpLayout.parse f.bytes
      = some { payload := 12 + f.rest.length, payloadLen := f.payload.length, padLen := 0 })
    (hdata : (m.data slot).take f.bytes.length = f.bytes)
    : ∃ received, m.parse slot f.bytes.length now = some received ∧ m.HasFields received f
      ∧ received.padLen = 0 ∧ received.localMs = now := by
  unfold RtpMemory.parse
  rw [hdata, hparse]
  refine ⟨_, rfl, ⟨?_, rfl, rfl, ?_, fun _ => rfl⟩, rfl, rfl⟩
  . refine ⟨(m.data slot).drop f.bytes.length, ?_⟩
    conv => rhs; arg 1; rw [← hdata]
    exact (List.take_append_drop _ _).symm
  . simp only [RtpFields.bytes, List.length_append, RtpFields.length_header, Nat.add_zero]

theorem HasFields.load (h : m.HasFields p f) (hpad : p.padLen = 0)
    : m.load p = {
        marker := f.second &&& 0x80 ≠ 0
        payloadType := f.second &&& 0x7f
        seq := .ofNat (read2Bytes f.seq)
        timestamp := .ofNat (read4Bytes f.timestamp)
        ssrc := .ofNat (read4Bytes f.ssrc)
        payload := f.payload
        localMs := p.localMs } := by
  have hload := RtpFields.ofData_bytes [] h.payload h.payloadLen p.localMs
  rw [List.append_nil] at hload
  unfold RtpMemory.load
  rw [h.getData hpad, hload]

theorem second_setBack (second type : UInt8)
    : (((second &&& 0x80) ||| (type &&& 0x7f)) &&& 0x80) ||| ((second &&& 0x7f) &&& 0x7f) = second := by
  have hmarker : ((second &&& 0x80) ||| (type &&& 0x7f)) &&& 0x80 = second &&& 0x80 := by
    apply UInt8.toBitVec_inj.mp
    simp only [UInt8.toBitVec_and, UInt8.toBitVec_or]
    rw [BitVec.and_or_distrib_right, BitVec.and_assoc, BitVec.and_assoc]
    have hdisjoint : UInt8.toBitVec 0x7f &&& UInt8.toBitVec 0x80 = 0 := by
      decide
    rw [hdisjoint, BitVec.and_self]
    simp
  rw [hmarker]
  clear hmarker
  revert second
  apply forall_of_bitVec
  decide

/--
A packet that has been cloned, sent by RTX and parsed in another buffer is recovered.
-/
theorem rtx_roundTrip {data : List UInt8} {layout : RtpLayout} (hparse : RtpLayout.parse data = some layout)
    (hroom : data.length + 2 ≤ rtpPacketMaxSize) (m : RtpMemory) (buffer : Option BufferId) (now : Int)
    (rtxType : UInt8) (rtxSsrc : UInt32) (rtxSeq : UInt16)
    : ∃ m₁ cloned, m.clone data buffer now = (m₁, some cloned) ∧
      ∀ m₂ rtx, m₁.rtxMux cloned rtxType rtxSsrc rtxSeq = (m₂, rtx) →
        ∀ (receiver : RtpMemory) (slot : BufferId) (recvMs : Int),
          (receiver.data slot).take rtx.dataLen = m₂.getData rtx →
          ∃ received m₃ recovered, receiver.parse slot rtx.dataLen recvMs = some received
            ∧ receiver.recoverRtx received rtxSsrc (RtpPacket.ofData data layout now).ssrc
                (RtpPacket.ofData data layout now).payloadType = some (m₃, recovered)
            ∧ m₃.load recovered = { RtpPacket.ofData data layout now with localMs := recvMs }
            ∧ RtpLayout.csrcs (m₃.getData recovered) = RtpLayout.csrcs data
            ∧ RtpLayout.extension (m₃.getData recovered) = RtpLayout.extension data
            ∧ ∀ buffer' now', (m₃.clone (m₃.getData recovered) buffer' now').2.isSome := by
  rcases clone_of_parse hparse (by omega) m buffer now with ⟨m₁, cloneSlot, hclone⟩
  refine ⟨m₁, _, hclone, ?_⟩
  intro m₂ rtx hmux receiver slot recvMs harrive
  have hacc := RtpLayout.accepts_of_parse hparse
  rcases (clone_stores hclone).1.hasFields rfl with ⟨f, tail, hdata, hfields⟩
  have hpayload : layout.payload = 12 + f.rest.length := hfields.payload
  have hpayloadLen : layout.payloadLen = f.payload.length := hfields.payloadLen
  have hpos := hacc.pos
  rw [hdata] at hacc
  have hbytes : 12 + f.rest.length + f.payload.length + 2 ≤ rtpPacketMaxSize := by
    simp only [hdata, RtpFields.bytes, List.length_append, RtpFields.length_header] at hroom
    omega
  -- the packet that is sent
  have hrtx := hfields.rtxMux rtxType rtxSsrc rtxSeq
  rw [hmux] at hrtx
  have hsent := hrtx.1.getData hrtx.2
  have hrtxLen : rtx.dataLen = (rtxFields f rtxType rtxSsrc rtxSeq).bytes.length := by
    rw [hrtx.1.dataLen, hrtx.2, RtpFields.bytes, List.length_append, RtpFields.length_header, Nat.add_zero]
  have hrtxParse := RtpFields.parse_of_accepts (rtxFields f rtxType rtxSsrc rtxSeq) hacc hpayload
    rfl rfl (by
      simp only [rtxFields, List.length_append, f.length_seq]
      omega) (by
      simp only [rtxFields, RtpFields.bytes, List.length_append, RtpFields.length_header, f.length_seq]
      omega)
  rw [hsent, hrtxLen] at harrive
  -- the packet that is received
  rcases hasFields_parse recvMs hrtxParse.1 harrive with ⟨received, hreceive, hreceived, hpad, hms⟩
  have hssrc : (receiver.load received).ssrc = rtxSsrc := by
    rw [hreceived.load hpad]
    show UInt32.ofNat (read4Bytes (write4Bytes rtxSsrc.toNat)) = rtxSsrc
    rw [read4Bytes_write4Bytes_of_lt rtxSsrc.toNat_lt, UInt32.ofNat_toNat]
  have horiginal := RtpFields.ofData_bytes tail hpayload hpayloadLen now
  rw [← hdata] at horiginal
  -- the packet that is recovered
  rcases hreceived.rtxDemux f.length_seq rfl (RtpPacket.ofData data layout now).ssrc
    (RtpPacket.ofData data layout now).payloadType with ⟨m₃, recovered, hdemux, hrec, hrecPad, hrecMs⟩
  have hssrcBack : write4Bytes (RtpPacket.ofData data layout now).ssrc.toNat = f.ssrc := by
    rw [horiginal]
    show write4Bytes (UInt32.ofNat (read4Bytes f.ssrc)).toNat = f.ssrc
    rw [UInt32.toNat_ofNat', Nat.mod_eq_of_lt (read4Bytes_lt f.ssrc), write4Bytes_read4Bytes f.length_ssrc]
  have htypeBack : (RtpPacket.ofData data layout now).payloadType = f.second &&& 0x7f := by
    rw [horiginal]
  have hfirstBack : (f.first &&& 0xdf) &&& 0xdf = f.first &&& 0xdf := by
    rw [UInt8.and_assoc, UInt8.and_self]
  have hback : m₃.HasFields recovered { f with first := f.first &&& 0xdf } := by
    simpa only [rtxFields, hssrcBack, htypeBack, hfirstBack, second_setBack] using hrec
  have hget := hback.getData hrecPad
  have hload := hback.load hrecPad
  have hlen : ({ f with first := f.first &&& 0xdf } : RtpFields).bytes.length
      = 12 + f.rest.length + f.payload.length := by
    simp only [RtpFields.bytes, List.length_append, RtpFields.length_header]
  have hrecParse := RtpFields.parse_of_accepts { f with first := f.first &&& 0xdf } hacc hpayload
    rfl rfl (by simpa only [hpayloadLen] using hpos) (by omega)
  refine ⟨received, m₃, recovered, ?_, ?_, ?_, ?_, ?_, ?_⟩
  . rw [hrtxLen, hreceive]
  . unfold recoverRtx
    rw [if_pos hssrc, hdemux]
  . rw [hload, horiginal, hrecMs, hms]
  . rw [hget, hrecParse.2.1, hdata]
  . rw [hget, hrecParse.2.2, hdata]
  . intro buffer' now'
    rcases clone_of_parse hrecParse.1 (by omega) m₃ buffer' now' with ⟨_, _, hclone'⟩
    rw [hget, hclone']
    rfl

/--
A packet with an extension and with padding.
-/
def rtxSample : List UInt8 :=
  [0xb1, 0xe0, 0x12, 0x34, 0, 0, 0, 9, 0, 0, 0, 7, 1, 2, 3, 4, 0xbe, 0xde, 0, 1, 0x10, 0xff, 0, 0,
    0x65, 0xaa, 0, 2]

theorem parse_rtxSample : RtpLayout.parse rtxSample = some ⟨24, 2, 2⟩ := by
  have hext : RtpLayout.parseExt rtxSample = true := by
    simp [RtpLayout.parseExt, RtpLayout.onebyteExtFits, RtpLayout.extensionPos, RtpLayout.csrcCount,
      RtpLayout.sizeofRtpCommonHeader, read2Bytes, rtxSample]
    right
    decide
  unfold RtpLayout.parse
  rw [hext]
  rfl

theorem rtx_roundTrip_sample : ∃ m₁ cloned,
    RtpMemory.clone { data := fun _ => [] } rtxSample none 0 = (m₁, some cloned) ∧
      ∀ m₂ rtx, m₁.rtxMux cloned 97 8 5 = (m₂, rtx) →
        ∀ (receiver : RtpMemory) (slot : BufferId) (recvMs : Int),
          (receiver.data slot).take rtx.dataLen = m₂.getData rtx →
          ∃ received m₃ recovered, receiver.parse slot rtx.dataLen recvMs = some received
            ∧ receiver.recoverRtx received 8 7 96 = some (m₃, recovered)
            ∧ m₃.load recovered = {
                marker := true
                payloadType := 96
                seq := 0x1234
                timestamp := 9
                ssrc := 7
                payload := [0x65, 0xaa]
                localMs := recvMs }
            ∧ RtpLayout.csrcs (m₃.getData recovered) = [1, 2, 3, 4]
            ∧ RtpLayout.extension (m₃.getData recovered) = some (0xbede, [0x10, 0xff, 0, 0])
            ∧ ∀ buffer' now', (m₃.clone (m₃.getData recovered) buffer' now').2.isSome :=
  rtx_roundTrip parse_rtxSample (by decide) _ _ _ _ _ _

end RtpMemory
