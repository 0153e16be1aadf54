import CppStreamer.Format.ParameterSets
import CppStreamer.Utils.DataBuffer

/-!
This module contains the model of `RtmpPlay::OnMessage`, and which AVC packets it forwards to its sinkers NALU by NALU.
-/

open ByteStream Checked ParameterSets

namespace Rtmp

/--
A packet that a sinker gets: the properties, without data, and what its buffer holds.
-/
structure PlayPacket where
  properties : MediaPacket
  bytes : List (Option UInt8)

namespace PlayPacket

def checkCopies : List Memory.Copy → Checked CopyCheck Unit
  | [] => return ()
  | c :: copies => do
    check (.inside c.dst c.len c.size)
    checkCopies copies

def appendAll : DataBuffer → List (List UInt8) → Checked CopyCheck DataBuffer
  | b, [] => return b
  | b, input :: inputs => do
    checkCopies (b.appendData input).2
    appendAll (b.appendData input).1 inputs

/--
A new packet of a size, with the properties of another one, that some data is appended to.
-/
def new (p : MediaPacket) (len : Nat) (inputs : List (List UInt8)) : Checked CopyCheck PlayPacket := do
  let b ← appendAll (.new len) inputs
  return ⟨{ p with data := [] }, b.data⟩

/--
The packet itself.
-/
def of (p : MediaPacket) : PlayPacket := ⟨{ p with data := [] }, p.data.map some⟩

end PlayPacket

/--
The sinkers are the keys of a map.
-/
structure RtmpPlay where
  sps : ParameterSet := .empty 512 0
  pps : ParameterSet := .empty 512 0
  sinkers : List String := []
  nodup : sinkers.Nodup := by exact List.nodup_nil

namespace RtmpPlay

/--
Each sinker in turn gets the packets.
-/
def toSinkers (s : RtmpPlay) (pkts : List PlayPacket) : List (String × PlayPacket) :=
  s.sinkers.flatMap fun name => pkts.map fun pkt => (name, pkt)

/--
What `ConsumeData` leaves.
-/
def consume (p : MediaPacket) (len : Nat) : MediaPacket :=
  if p.data.length < len then p else { p with data := p.data.drop len }

/--
What the memory holds from the data of a packet on.
-/
def memory (behind : Nat → UInt8) (p : MediaPacket) (i : Nat) : UInt8 := p.data.getD i (behind i)

/--
The packets of the parameter sets, if neither of them is empty.
-/
def sendSets (s : RtmpPlay) (p : MediaPacket) : Checked CopyCheck (RtmpPlay × List (String × PlayPacket)) :=
  if s.sps.len = 0 ∨ s.pps.len = 0 then return (s, [])
  else do
    let spsPkt ← PlayPacket.new p s.sps.len.toNat [H264.startCode, s.sps.array.take s.sps.len.toNat]
    let ppsPkt ← PlayPacket.new p s.pps.len.toNat [H264.startCode, s.pps.array.take s.pps.len.toNat]
    return (s, s.toSinkers [spsPkt, ppsPkt])

def handleSeqHdr (s : RtmpPlay) (behind : Nat → UInt8) (p : MediaPacket)
    : Checked CopyCheck (RtmpPlay × List (String × PlayPacket)) := do
  let res ← getSpsPpsFromExtraData (memory behind p) p.data.length s.pps s.sps
  match res with
  | none => return (s, [])
  | some (pps, sps) => sendSets { s with pps, sps } p

/--
The loop over the NALUs returns behind the first one.
-/
def handleNalus (s : RtmpPlay) (behind : Nat → UInt8) (p : MediaPacket)
    : Checked CopyCheck (RtmpPlay × List (String × PlayPacket)) :=
  match avcc2Nalus (memory behind p) p.data.length with
  | none => return (s, [])
  | some [] => return (s, [])
  | some (nalu :: _) => do
    let naluPkt ← PlayPacket.new p nalu.length [nalu]
    return (s, s.toSinkers [naluPkt])

def onMessage (s : RtmpPlay) (behind : Nat → UInt8) (retCode : Int) (p : MediaPacket)
    : Checked CopyCheck (RtmpPlay × List (String × PlayPacket)) :=
  if retCode < 0 then return (s, [])
  else
    match p.avType with
    | .audio => return (s, s.toSinkers [.of { consume p 2 with fmtType := .raw }])
    | .video =>
      let p := { consume p 5 with fmtType := .raw }
      if p.isSeqHdr then s.handleSeqHdr behind p else s.handleNalus behind p
    | .metadata => return (s, s.toSinkers [.of { p with fmtType := .raw }])
    | _ => return (s, s.toSinkers [.of p])

end RtmpPlay

section Packets

/--
What is behind the tag of an AVC packet. A sequence header has one SPS and one PPS.
-/
inductive AvcBody where
  | frame (nalus : List (List UInt8))
  | seqHdr (front sps pps rest : List UInt8)

namespace AvcBody

def bytes : AvcBody → List UInt8
  | frame nalus => nalus.flatMap fun nalu => write4Bytes nalu.length ++ nalu
  | seqHdr front sps pps rest =>
    front ++ ([0xff, 0xe1] ++ (write2Bytes sps.length ++ (sps ++ ([1] ++ (write2Bytes pps.length ++ (pps ++ rest))))))

/--
The lengths can be written in front of the NALUs, and there is an SPS and a PPS.
-/
def WellFormed : AvcBody → Prop
  | frame nalus => ∀ nalu ∈ nalus, nalu.length < 2 ^ 32
  | seqHdr front sps pps _ =>
    front.length = 4 ∧ (sps ≠ [] ∧ sps.length < 2 ^ 16) ∧ (pps ≠ [] ∧ pps.length < 2 ^ 16)

def nalus : AvcBody → List (List UInt8)
  | frame nalus => nalus
  | seqHdr _ sps pps _ => [sps, pps]

def isSeqHdr : AvcBody → Bool
  | frame _ => false
  | seqHdr _ _ _ _ => true

end AvcBody

/--
A video packet of AVC, with the tag of FLV in front.
-/
structure AvcPacket where
  properties : MediaPacket
  tag : List UInt8
  body : AvcBody
  tag_length : tag.length = 5
  wellFormed : body.WellFormed

namespace AvcPacket

def packet (m : AvcPacket) : MediaPacket :=
  { m.properties with avType := .video, isSeqHdr := m.body.isSeqHdr, data := m.tag ++ m.body.bytes }

/--
The packet without its tag.
-/
def consumed (m : AvcPacket) : MediaPacket := { m.packet with fmtType := .raw, data := m.body.bytes }

/--
One raw packet for each NALU, with the times of the packet.
-/
def naluPackets (m : AvcPacket) : List PlayPacket :=
  m.body.nalus.map fun nalu => ⟨{ m.packet with fmtType := .raw, data := [] }, (H264.startCode ++ nalu).map some⟩

end AvcPacket

end Packets

namespace RtmpPlay

def received (name : String) (calls : List (String × PlayPacket)) : List PlayPacket :=
  (calls.filter fun call => call.1 = name).map Prod.snd

/--
Nothing is copied outside of its buffer, and each sinker gets the NALUs of the packet, and no other one does.
-/
def Forwards (s : RtmpPlay) (m : AvcPacket) : Prop :=
  ∀ behind, (s.onMessage behind 0 m.packet).Passes CopyCheck.Holds
    ∧ ∀ name, received name (s.onMessage behind 0 m.packet).value.2 = if name ∈ s.sinkers then m.naluPackets else []

/--
A frame has at most one NALU, and this one not more than ten million bytes, unless there is no sinker. The parameter sets
of a sequence header are neither too long for their arrays nor too short for their packets.
-/
def CanForward (s : RtmpPlay) : AvcBody → Prop
  | .frame nalus => s.sinkers = [] ∨ nalus = [] ∨ ∃ nalu, nalus = [nalu] ∧ nalu.length ≤ Flv.kMaxLen
  | .seqHdr _ sps pps _ => (200 ≤ sps.length ∧ sps.length ≤ 512) ∧ (200 ≤ pps.length ∧ pps.length ≤ 512)

/--
The arrays have their size.
-/
structure Sized (s : RtmpPlay) : Prop where
  sps : s.sps.array.length = 512
  pps : s.pps.array.length = 512

section Buffers

variable {b : DataBuffer} {q : ByteQueue} {size : Nat} {input : List UInt8}

@[simp]
theorem checkCopies_passes (copies : List Memory.Copy)
    : (PlayPacket.checkCopies copies).Passes CopyCheck.Holds ↔ ∀ c ∈ copies, c.InBounds := by
  induction copies with
  | nil => simp [PlayPacket.checkCopies]
  | cons c copies ih =>
    rw [PlayPacket.checkCopies, passes_bind, passes_check, ih, List.forall_mem_cons]
    rfl

theorem data_of_refines (h : b.Refines q size) {bytes : List UInt8} (hq : q.data = bytes.map some)
    : b.data = bytes.map some := by
  apply List.ext_getElem?
  intro i
  have hlength := h.length
  rw [hq, List.length_map] at hlength
  by_cases hi : i < b.dataLen
  . rw [DataBuffer.data, Memory.getElem?_read b.buffer b.start hi, List.getElem?_map]
    have hbyte : bytes[i]? = some (bytes[i]) := List.getElem?_eq_getElem (by omega)
    rw [hbyte, Option.map_some]
    congr 1
    apply h.data i bytes[i]
    rw [hq, List.getElem?_map, hbyte, Option.map_some]
  . rw [List.getElem?_eq_none, List.getElem?_eq_none]
    . rw [List.length_map]
      omega
    . rw [DataBuffer.data, Memory.length_read]
      omega

/--
Data that is appended to a buffer made for it.
-/
theorem new_single (p : MediaPacket) (input : List UInt8) (hsize : input.length < 2 ^ 30)
    : (PlayPacket.new p input.length [input]).Passes CopyCheck.Holds
        ∧ (PlayPacket.new p input.length [input]).value = ⟨{ p with data := [] }, input.map some⟩ := by
  have hnew : (DataBuffer.new input.length).Refines {} 0 := by
    apply DataBuffer.Refines.new
    unfold preReserveHeaderSize
    omega
  have hroom : 0 + input.length < 2 ^ 30 := by omega
  have hrefines := hnew.appendData hroom
  have hcopies := hnew.copies hroom (by
    intro _
    constructor
    . intro _
      change 200 + input.length ≤ input.length + 200
      omega
    . intro _ _ _
      exact Or.inl rfl)
  constructor
  . simp only [PlayPacket.new, PlayPacket.appendAll, passes_bind, passes_pure, and_true, checkCopies_passes]
    intro c hc
    apply (hcopies c hc).left
  . simp only [PlayPacket.new, PlayPacket.appendAll, value_bind, value_pure]
    rw [data_of_refines hrefines rfl]

theorem length_startCode : H264.startCode.length = 4 := rfl

theorem length_startCode_append {nalu : List UInt8} (h : nalu.length ≤ Flv.kMaxLen)
    : (H264.startCode ++ nalu).length < 2 ^ 30 := by
  have hmax : Flv.kMaxLen = 10 * 1000 * 1000 := rfl
  have hlen : (H264.startCode ++ nalu).length = 4 + nalu.length := by
    rw [List.length_append, length_startCode]
  omega

theorem new_refines {len : Nat} (hlen : len ≤ 512) : (DataBuffer.new len).Refines {} 0 := by
  apply DataBuffer.Refines.new
  unfold preReserveHeaderSize
  omega

/--
The first data that is appended is behind the reserve. The buffer has kept its size for it, or has grown.
-/
theorem append_new (len : Nat) {code : List UInt8} (hne : code ≠ [])
    : ((DataBuffer.new len).appendData code).1.dataLen = code.length
        ∧ ((DataBuffer.new len).appendData code).1.end_ = 200 + code.length
        ∧ (((DataBuffer.new len).appendData code).1.bufferSize = len
          ∨ 50 * 1024 ≤ ((DataBuffer.new len).appendData code).1.bufferSize) := by
  have hgrown := (DataBuffer.getNewSize_bounds ((DataBuffer.new len).dataLen + code.length + extraLen)).left
  unfold DataBuffer.appendData
  rw [if_neg hne]
  split
  . split
    . simp only [DataBuffer.grow]
      refine ⟨Nat.zero_add _, ?_, Or.inr hgrown⟩
      simp only [DataBuffer.new, preReserveHeaderSize, Nat.zero_add]
    . refine ⟨Nat.zero_add _, ?_, Or.inl rfl⟩
      simp only [DataBuffer.compact, DataBuffer.new, preReserveHeaderSize, Nat.zero_add]
  . refine ⟨Nat.zero_add _, ?_, Or.inl rfl⟩
    simp only [DataBuffer.extend, DataBuffer.new, preReserveHeaderSize]

/--
In a small buffer nothing is moved, whatever is appended.
-/
theorem appendData_small (hsmall : b.bufferSize < 200) (hne : input ≠ []) (hend : b.end_ + input.length < 2 ^ 63)
    : b.appendData input = b.extend input := by
  have hlimit : ¬b.limit < b.end_ + input.length := by
    unfold DataBuffer.limit preReserveHeaderSize
    omega
  unfold DataBuffer.appendData
  rw [if_neg hne, if_neg hlimit]

theorem new_pair_value (p : MediaPacket) {code set : List UInt8} (hcode : code.length = 4) (hlen : set.length ≤ 512)
    : (PlayPacket.new p set.length [code, set]).value = ⟨{ p with data := [] }, (code ++ set).map some⟩ := by
  have hroom : 0 + code.length < 2 ^ 30 := by omega
  have hroom' : 0 + code.length + set.length < 2 ^ 30 := by omega
  have hrefines := ((new_refines hlen).appendData hroom).appendData hroom'
  have hdata := @data_of_refines _ _ _ hrefines (code ++ set) (by simp [ByteQueue.append])
  simp only [PlayPacket.new, PlayPacket.appendAll, value_bind, value_pure]
  rw [hdata]

/--
A packet of a size gets four bytes and then as many as its size: it has room for them only if the buffer grows.
-/
theorem new_pair_passes (p : MediaPacket) {code set : List UInt8} (hcode : code.length = 4) (hne : set ≠ [])
    (hlen : set.length ≤ 512)
    : (PlayPacket.new p set.length [code, set]).Passes CopyCheck.Holds ↔ 200 ≤ set.length := by
  have hcodeNe : code ≠ [] := List.ne_nil_of_length_eq_add_one hcode
  have hpos := List.length_pos_of_ne_nil hne
  simp only [PlayPacket.new, PlayPacket.appendAll, passes_bind, passes_pure, and_true, checkCopies_passes]
  by_cases hlong : 200 ≤ set.length
  . refine iff_of_true ?_ hlong
    have hroom : 0 + code.length < 2 ^ 30 := by omega
    have hroom' : 0 + code.length + set.length < 2 ^ 30 := by omega
    have hrefines := (new_refines hlen).appendData hroom
    obtain ⟨hdata, hend, hsize⟩ := append_new set.length hcodeNe
    have hlimit := DataBuffer.limit_eq hrefines.bufferSize_lt
    have hfirst := (new_refines hlen).copies hroom (by
      intro _
      constructor
      . intro hsmall
        simp only [DataBuffer.new, preReserveHeaderSize] at hsmall
        omega
      . intro _ _ _
        exact Or.inl rfl)
    have hsecond := hrefines.copies hroom' (by
      unfold preReserveHeaderSize at hlimit
      intro _
      constructor
      . intro hsmall
        unfold preReserveHeaderSize at hsmall
        omega
      . intro hover hfits _
        omega)
    constructor
    . intro c hc
      apply (hfirst c hc).left
    . intro c hc
      apply (hsecond c hc).left
  . refine iff_of_false ?_ hlong
    rintro ⟨_, hcopies⟩
    have hfirst : (DataBuffer.new set.length).appendData code = (DataBuffer.new set.length).extend code := by
      apply appendData_small (Nat.lt_of_not_le hlong) hcodeNe
      simp only [DataBuffer.new, preReserveHeaderSize]
      omega
    have hsecond : ((DataBuffer.new set.length).extend code).1.appendData set
        = ((DataBuffer.new set.length).extend code).1.extend set := by
      apply appendData_small (Nat.lt_of_not_le hlong) hne
      simp only [DataBuffer.extend, DataBuffer.new, preReserveHeaderSize]
      omega
    rw [hfirst, hsecond] at hcopies
    simp only [DataBuffer.extend, DataBuffer.new, preReserveHeaderSize, List.mem_singleton, forall_eq,
      Memory.Copy.InBounds] at hcopies
    omega

end Buffers

section Parse

theorem readAt_memory (behind : Nat → UInt8) (p : MediaPacket) (front mid rest : List UInt8)
    (hdata : p.data = front ++ (mid ++ rest))
    : ParameterSets.readAt (memory behind p) front.length mid.length = mid := by
  apply List.ext_getElem?
  intro i
  unfold ParameterSets.readAt memory
  by_cases hi : i < mid.length
  . rw [List.getElem?_map, List.getElem?_range hi, Option.map_some, hdata, List.getD_eq_getElem?_getD,
      List.getElem?_append_right (by omega), Nat.add_sub_cancel_left, List.getElem?_append_left hi,
      List.getElem?_eq_getElem hi]
    rfl
  . rw [List.getElem?_eq_none (Nat.le_of_not_lt hi), List.getElem?_eq_none]
    rw [List.length_map, List.length_range]
    omega

theorem avccNalus_bytes (behind : Nat → UInt8) (p : MediaPacket) (nalus : List (List UInt8))
    : ∀ front : List UInt8, p.data = front ++ (AvcBody.frame nalus).bytes → (AvcBody.frame nalus).WellFormed →
        avccNalus (memory behind p) front.length (AvcBody.frame nalus).bytes.length
          = if ∀ nalu ∈ nalus, nalu.length ≤ Flv.kMaxLen then some (nalus.map (H264.startCode ++ ·)) else none := by
  induction nalus with
  | nil =>
    intro front _ _
    rw [avccNalus]
    simp [AvcBody.bytes]
  | cons nalu nalus ih =>
    intro front hdata hwf
    have hlt := hwf nalu List.mem_cons_self
    have hbytes : (AvcBody.frame (nalu :: nalus)).bytes
        = write4Bytes nalu.length ++ (nalu ++ (AvcBody.frame nalus).bytes) := by
      simp [AvcBody.bytes]
    rw [hbytes] at hdata
    have hread : read4Bytes (ParameterSets.readAt (memory behind p) front.length 4) = nalu.length := by
      have hread := readAt_memory behind p _ _ _ hdata
      rw [length_write4Bytes] at hread
      rw [hread, read4Bytes_write4Bytes_of_lt hlt]
    have hnalu : ParameterSets.readAt (memory behind p) (front.length + 4) nalu.length = nalu := by
      have hread := readAt_memory behind p (front ++ write4Bytes nalu.length) nalu (AvcBody.frame nalus).bytes
        (by rw [hdata, List.append_assoc])
      rwa [List.length_append, length_write4Bytes] at hread
    have hrest := ih (front ++ (write4Bytes nalu.length ++ nalu)) (by rw [hdata]; simp)
      (fun n hn => hwf n (List.mem_cons_of_mem _ hn))
    rw [List.length_append, List.length_append, length_write4Bytes, ← Nat.add_assoc] at hrest
    have hleft : ((AvcBody.frame (nalu :: nalus)).bytes.length : Int) - 4 - nalu.length
        = (AvcBody.frame nalus).bytes.length := by
      rw [hbytes, List.length_append, List.length_append, length_write4Bytes]
      omega
    have hpos : ¬((AvcBody.frame (nalu :: nalus)).bytes.length : Int) ≤ 0 := by
      omega
    rw [avccNalus, if_neg hpos]
    simp only [hread, hnalu, hleft, hrest, List.forall_mem_cons]
    by_cases hmax : nalu.length ≤ Flv.kMaxLen
    . rw [if_neg (Nat.not_lt.mpr hmax)]
      by_cases hall : ∀ n ∈ nalus, n.length ≤ Flv.kMaxLen
      . rw [if_pos hall, if_pos ⟨hmax, hall⟩]
        rfl
      . rw [if_neg hall, if_neg (fun h => hall h.right)]
        rfl
    . rw [if_pos (Nat.lt_of_not_le hmax), if_neg (fun h => hmax h.left)]

/--
The parameter sets that a record is made of are the ones that are read from it.
-/
theorem getSpsPps_bytes (behind : Nat → UInt8) (p : MediaPacket) {front sps pps rest : List UInt8}
    (hdata : p.data = (AvcBody.seqHdr front sps pps rest).bytes)
    (hwf : (AvcBody.seqHdr front sps pps rest).WellFormed) (ppsCache spsCache : ParameterSet)
    : getSpsPpsFromExtraData (memory behind p) p.data.length ppsCache spsCache
        = (spsCache.copy sps >>= fun sps' => ppsCache.copy pps >>= fun pps' => return some (pps', sps')) := by
  obtain ⟨hfront, ⟨_, hsps⟩, ⟨_, hpps⟩⟩ := hwf
  simp only [AvcBody.bytes] at hdata
  have hmark := readAt_memory behind p _ _ _ hdata
  have hspsLen := readAt_memory behind p (front ++ [0xff, 0xe1]) (write2Bytes sps.length) _
    (by rw [hdata, List.append_assoc])
  have hspsRead := readAt_memory behind p (front ++ ([0xff, 0xe1] ++ write2Bytes sps.length)) sps
    ([1] ++ (write2Bytes pps.length ++ (pps ++ rest))) (by rw [hdata]; simp)
  have hppsLen := readAt_memory behind p
    (front ++ ([0xff, 0xe1] ++ (write2Bytes sps.length ++ (sps ++ [1])))) (write2Bytes pps.length) (pps ++ rest) (by rw [hdata]; simp)
  have hppsRead := readAt_memory behind p
    (front ++ ([0xff, 0xe1] ++ (write2Bytes sps.length ++ (sps ++ ([1] ++ write2Bytes pps.length))))) pps rest (by rw [hdata]; simp)
  simp only [List.length_append, List.length_cons, List.length_nil, length_write2Bytes, hfront, Nat.zero_add,
    Nat.reduceAdd] at hmark hspsLen hspsRead hppsLen hppsRead
  have hbytes : memory behind p 4 = 0xff ∧ memory behind p 5 = 0xe1 := by
    simpa [ParameterSets.readAt, List.range_succ] using hmark
  have hlength : p.data.length ≠ 0 := by
    rw [hdata]
    simp
  have hindex : 8 + sps.length + 1 = 4 + (2 + (2 + (sps.length + 1))) := by omega
  have hindex' : 4 + (2 + (2 + (sps.length + 1))) + 2 = 4 + (2 + (2 + (sps.length + 3))) := by omega
  unfold getSpsPpsFromExtraData
  rw [if_neg hlength, if_neg (by simp [hbytes])]
  simp only [hspsLen, read2Bytes_write2Bytes_of_lt hsps, hspsRead, hindex, hindex', hppsLen,
    read2Bytes_write2Bytes_of_lt hpps, hppsRead]

end Parse

section Cases

variable {s : RtmpPlay} {m : AvcPacket}

theorem received_flatMap (name : String) (pkts : List PlayPacket) {sinkers : List String} (hnodup : sinkers.Nodup)
    : received name (sinkers.flatMap fun sinker => pkts.map fun pkt => (sinker, pkt))
        = if name ∈ sinkers then pkts else [] := by
  have hown (sinker : String)
      : received name (pkts.map fun pkt => (sinker, pkt)) = if sinker = name then pkts else [] := by
    by_cases hname : sinker = name
    . simp [received, List.filter_map, Function.comp_def, hname]
    . simp [received, List.filter_map, Function.comp_def, hname]
  induction sinkers with
  | nil => rfl
  | cons sinker sinkers ih =>
    obtain ⟨hnot, hnodup⟩ := List.nodup_cons.mp hnodup
    have hsplit : received name ((sinker :: sinkers).flatMap fun sinker => pkts.map fun pkt => (sinker, pkt))
        = received name (pkts.map fun pkt => (sinker, pkt))
          ++ received name (sinkers.flatMap fun sinker => pkts.map fun pkt => (sinker, pkt)) := by
      simp [received]
    rw [hsplit, hown, ih hnodup]
    by_cases hname : sinker = name
    . subst hname
      simp [hnot]
    . simp [hname, Ne.symm hname]

theorem received_toSinkers (s : RtmpPlay) (name : String) (pkts : List PlayPacket)
    : received name (s.toSinkers pkts) = if name ∈ s.sinkers then pkts else [] := by
  apply received_flatMap _ _ s.nodup

/--
Two lists of packets are the same for every sinker if they are the same or there is no sinker.
-/
theorem received_iff (s : RtmpPlay) (pkts pkts' : List PlayPacket)
    : (∀ name, received name (s.toSinkers pkts) = if name ∈ s.sinkers then pkts' else [])
        ↔ s.sinkers = [] ∨ pkts = pkts' := by
  simp only [received_toSinkers]
  constructor
  . intro h
    cases hsinkers : s.sinkers with
    | nil => exact Or.inl rfl
    | cons name names =>
      have hname := h name
      rw [hsinkers, if_pos List.mem_cons_self, if_pos List.mem_cons_self] at hname
      exact Or.inr hname
  . rintro (h | h) name
    . simp [h]
    . rw [h]

theorem onMessage_packet (s : RtmpPlay) (behind : Nat → UInt8) (m : AvcPacket)
    : s.onMessage behind 0 m.packet
        = if m.body.isSeqHdr then s.handleSeqHdr behind m.consumed else s.handleNalus behind m.consumed := by
  have hconsume : { consume m.packet 5 with fmtType := .raw } = m.consumed := by
    have hlength := m.tag_length
    unfold consume AvcPacket.packet AvcPacket.consumed
    rw [if_neg (by simp; omega)]
    simp [AvcPacket.packet, List.drop_left' hlength]
  unfold onMessage
  rw [if_neg (by decide)]
  change (if _ then _ else _) = _
  rw [hconsume]
  rfl

/--
What is sent for a frame is its first NALU, if no NALU is too long.
-/
theorem handleNalus_frame (s : RtmpPlay) (behind : Nat → UInt8) {nalus : List (List UInt8)}
    (hbody : m.body = .frame nalus)
    : (s.handleNalus behind m.consumed).Passes CopyCheck.Holds
        ∧ (s.handleNalus behind m.consumed).value.2
          = s.toSinkers (if ∀ nalu ∈ nalus, nalu.length ≤ Flv.kMaxLen then m.naluPackets.take 1 else []) := by
  have hwf := m.wellFormed
  have hdata : m.consumed.data = (AvcBody.frame nalus).bytes := congrArg AvcBody.bytes hbody
  have hnone : s.toSinkers [] = [] := by simp [toSinkers]
  have hpackets : m.naluPackets = nalus.map fun nalu =>
      ⟨{ m.consumed with data := [] }, (H264.startCode ++ nalu).map some⟩ := by
    unfold AvcPacket.naluPackets
    rw [hbody]
    rfl
  rw [hbody] at hwf
  have hnalus := avccNalus_bytes behind m.consumed nalus [] hdata hwf
  unfold handleNalus avcc2Nalus
  rw [hdata]
  cases nalus with
  | nil =>
    rw [hpackets]
    exact ⟨passes_pure _, by simp [AvcBody.bytes, hnone]⟩
  | cons nalu nalus =>
    have hlength : ¬(AvcBody.frame (nalu :: nalus)).bytes.length < 4 := by
      simp only [AvcBody.bytes, List.flatMap_cons, List.length_append, length_write4Bytes]
      omega
    rw [List.length_nil] at hnalus
    rw [if_neg hlength, hnalus, hpackets]
    by_cases hall : ∀ n ∈ nalu :: nalus, n.length ≤ Flv.kMaxLen
    . have hmax := hall nalu List.mem_cons_self
      obtain ⟨hpasses, hvalue⟩ := new_single m.consumed (H264.startCode ++ nalu) (length_startCode_append hmax)
      rw [if_pos hall, if_pos hall]
      simp only [List.map_cons, List.take_succ_cons, List.take_zero]
      rw [passes_bind, value_bind, hvalue, value_pure]
      exact ⟨⟨hpasses, passes_pure _⟩, rfl⟩
    . rw [if_neg hall, if_neg hall]
      exact ⟨passes_pure _, hnone.symm⟩

theorem forwards_iff_of_frame {nalus : List (List UInt8)} (hbody : m.body = .frame nalus)
    : s.Forwards m ↔ s.CanForward m.body := by
  have hframe (behind : Nat → UInt8) : s.onMessage behind 0 m.packet = s.handleNalus behind m.consumed := by
    rw [onMessage_packet, hbody]
    rfl
  have hlength : m.naluPackets.length = nalus.length := by
    rw [AvcPacket.naluPackets, hbody, List.length_map]
    rfl
  have hforwards : s.Forwards m ↔ s.sinkers = []
      ∨ (if ∀ nalu ∈ nalus, nalu.length ≤ Flv.kMaxLen then m.naluPackets.take 1 else []) = m.naluPackets := by
    unfold Forwards
    simp only [hframe, (handleNalus_frame s _ hbody).left, (handleNalus_frame s _ hbody).right, true_and]
    rw [forall_const, received_iff]
  rw [hforwards, hbody]
  unfold CanForward
  apply or_congr_right
  cases nalus with
  | nil => simp [List.eq_nil_of_length_eq_zero hlength]
  | cons nalu nalus =>
    have hne : m.naluPackets ≠ [] := List.ne_nil_of_length_eq_add_one hlength
    simp only [List.cons.injEq, reduceCtorEq, false_or]
    by_cases hall : ∀ n ∈ nalu :: nalus, n.length ≤ Flv.kMaxLen
    . rw [if_pos hall]
      constructor
      . intro htake
        have hone := congrArg List.length htake
        rw [List.length_take, hlength, List.length_cons] at hone
        have hnil : nalus = [] := List.eq_nil_of_length_eq_zero (by omega)
        exact ⟨nalu, ⟨rfl, hnil⟩, hall nalu List.mem_cons_self⟩
      . rintro ⟨_, ⟨_, rfl⟩, _⟩
        apply List.take_of_length_le
        rw [hlength]
        apply Nat.le_refl
    . rw [if_neg hall]
      apply iff_of_false (Ne.symm hne)
      rintro ⟨_, ⟨rfl, rfl⟩, hmax⟩
      apply hall
      simpa using hmax

theorem sendSets_of_ne (p : MediaPacket) {sps pps : List UInt8} (hsps : s.sps.len = sps.length ∧ sps ≠ [])
    (hpps : s.pps.len = pps.length ∧ pps ≠ []) (hspsTake : s.sps.array.take sps.length = sps)
    (hppsTake : s.pps.array.take pps.length = pps)
    : ((s.sendSets p).Passes CopyCheck.Holds
          ↔ (PlayPacket.new p sps.length [H264.startCode, sps]).Passes CopyCheck.Holds
            ∧ (PlayPacket.new p pps.length [H264.startCode, pps]).Passes CopyCheck.Holds)
        ∧ (s.sendSets p).value.2
          = s.toSinkers [(PlayPacket.new p sps.length [H264.startCode, sps]).value,
            (PlayPacket.new p pps.length [H264.startCode, pps]).value] := by
  have hspsPos := List.length_pos_of_ne_nil hsps.right
  have hppsPos := List.length_pos_of_ne_nil hpps.right
  have hlen : ¬(s.sps.len = 0 ∨ s.pps.len = 0) := by omega
  have hspsLen : s.sps.len.toNat = sps.length := by omega
  have hppsLen : s.pps.len.toNat = pps.length := by omega
  unfold sendSets
  rw [if_neg hlen, hspsLen, hppsLen, hspsTake, hppsTake, passes_bind, passes_bind, value_bind, value_bind, value_pure]
  constructor
  . rw [and_iff_left (passes_pure _)]
  . rfl

/--
Each parameter set of a sequence header goes through its cache, and from there into a packet of its own.
-/
theorem onMessage_seqHdr (h : s.Sized) (behind : Nat → UInt8) {front sps pps rest : List UInt8}
    (hbody : m.body = .seqHdr front sps pps rest)
    : ((s.onMessage behind 0 m.packet).Passes CopyCheck.Holds ↔ (sps.length ≤ 512 ∧ pps.length ≤ 512)
          ∧ (PlayPacket.new m.consumed sps.length [H264.startCode, sps]).Passes CopyCheck.Holds
          ∧ (PlayPacket.new m.consumed pps.length [H264.startCode, pps]).Passes CopyCheck.Holds)
        ∧ (s.onMessage behind 0 m.packet).value.2
          = s.toSinkers [(PlayPacket.new m.consumed sps.length [H264.startCode, sps]).value,
            (PlayPacket.new m.consumed pps.length [H264.startCode, pps]).value] := by
  have hwf := m.wellFormed
  have hdata : m.consumed.data = (AvcBody.seqHdr front sps pps rest).bytes := congrArg AvcBody.bytes hbody
  rw [hbody] at hwf
  have hread := getSpsPps_bytes behind m.consumed hdata hwf s.pps s.sps
  obtain ⟨_, ⟨hsps, _⟩, ⟨hpps, _⟩⟩ := hwf
  have hpasses : (getSpsPpsFromExtraData (memory behind m.consumed) m.consumed.data.length s.pps s.sps).Passes
      CopyCheck.Holds ↔ sps.length ≤ 512 ∧ pps.length ≤ 512 := by
    rw [hread, passes_bind, passes_bind, ParameterSet.copy_passes h.sps, ParameterSet.copy_passes h.pps,
      and_iff_left (passes_pure _)]
  have hvalue : (getSpsPpsFromExtraData (memory behind m.consumed) m.consumed.data.length s.pps s.sps).value
      = some (⟨pps ++ s.pps.array.drop pps.length, pps.length⟩, ⟨sps ++ s.sps.array.drop sps.length, sps.length⟩) := by
    rw [hread]
    rfl
  obtain ⟨hsetsPasses, hsetsValue⟩ := sendSets_of_ne (s := { s with
      pps := ⟨pps ++ s.pps.array.drop pps.length, pps.length⟩
      sps := ⟨sps ++ s.sps.array.drop sps.length, sps.length⟩ })
    m.consumed ⟨rfl, hsps⟩ ⟨rfl, hpps⟩ List.take_left List.take_left
  rw [onMessage_packet, hbody]
  unfold AvcBody.isSeqHdr
  rw [if_pos rfl]
  unfold handleSeqHdr
  rw [passes_bind, value_bind, hvalue, hpasses]
  constructor
  . apply and_congr_right
    intro _
    apply hsetsPasses
  . apply hsetsValue

/--
Each parameter set of a sequence header is sent from its cache.
-/
theorem forwards_iff_of_seqHdr (h : s.Sized) {front sps pps rest : List UInt8}
    (hbody : m.body = .seqHdr front sps pps rest)
    : s.Forwards m ↔ s.CanForward m.body := by
  have hpackets : m.naluPackets = [⟨{ m.consumed with data := [] }, (H264.startCode ++ sps).map some⟩,
      ⟨{ m.consumed with data := [] }, (H264.startCode ++ pps).map some⟩] := by
    unfold AvcPacket.naluPackets
    rw [hbody]
    rfl
  have hwf := m.wellFormed
  rw [hbody] at hwf
  obtain ⟨_, ⟨hsps, _⟩, ⟨hpps, _⟩⟩ := hwf
  unfold Forwards
  simp only [(onMessage_seqHdr h _ hbody).left, (onMessage_seqHdr h _ hbody).right]
  rw [forall_const, received_iff, hbody]
  unfold CanForward
  constructor
  . rintro ⟨⟨⟨hspsLe, hppsLe⟩, hspsPasses, hppsPasses⟩, _⟩
    exact ⟨⟨(new_pair_passes _ length_startCode hsps hspsLe).mp hspsPasses, hspsLe⟩,
      ⟨(new_pair_passes _ length_startCode hpps hppsLe).mp hppsPasses, hppsLe⟩⟩
  . rintro ⟨⟨hspsLong, hspsLe⟩, ⟨hppsLong, hppsLe⟩⟩
    refine ⟨⟨⟨hspsLe, hppsLe⟩, ?_, ?_⟩, Or.inr ?_⟩
    . apply (new_pair_passes _ length_startCode hsps hspsLe).mpr hspsLong
    . apply (new_pair_passes _ length_startCode hpps hppsLe).mpr hppsLong
    . rw [new_pair_value _ length_startCode hspsLe, new_pair_value _ length_startCode hppsLe, hpackets]

end Cases

theorem forwards_iff (s : RtmpPlay) (h : s.Sized) (m : AvcPacket) : s.Forwards m ↔ s.CanForward m.body := by
  cases hbody : m.body with
  | frame nalus =>
    rw [← hbody]
    apply forwards_iff_of_frame hbody
  | seqHdr front sps pps rest =>
    rw [← hbody]
    apply forwards_iff_of_seqHdr h hbody

/--
An IDR slice for a player with two sinkers.
-/
theorem forwards_slice
    : ({ sinkers := ["a", "b"], nodup := by decide } : RtmpPlay).Forwards
        { properties := {}, tag := [0x17, 1, 0, 0, 0], body := .frame [[0x65, 0x88]], tag_length := rfl,
          wellFormed := by simp [AvcBody.WellFormed] } := by
  apply (forwards_iff _ ⟨List.length_replicate, List.length_replicate⟩ _).mpr
  exact Or.inr (Or.inr ⟨[0x65, 0x88], rfl, by decide⟩)

/--
The second one of two slices gets lost.
-/
theorem not_forwards
    : ¬({ sinkers := ["a"], nodup := by decide } : RtmpPlay).Forwards
        { properties := {}, tag := [0x17, 1, 0, 0, 0], body := .frame [[0x65, 0x88], [0x65, 0x99]], tag_length := rfl,
          wellFormed := by simp [AvcBody.WellFormed] } := by
  rw [forwards_iff_of_frame rfl]
  simp [CanForward]

end RtmpPlay

end Rtmp
