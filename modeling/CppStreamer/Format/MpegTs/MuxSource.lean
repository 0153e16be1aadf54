import CppStreamer.Format.ParameterSets
import CppStreamer.Format.SharedPacket

/-!
This module contains the model of `MpegtsMux::SourceData` on packets that others hold a pointer to, with the copies to
the caches of parameter sets. `WritePes` only reads a packet, what it writes is left out.
-/

open ByteStream Checked ParameterSets

namespace MpegTs

/--
The size of the caches.
-/
def setSize : Nat := 512

/--
The caches, the audio configuration, and the packets that wait for a codec.
-/
structure MuxSource where
  caches : Caches := ⟨.empty setSize 0, .empty setSize 0, .empty setSize 0⟩
  isAnnexb : Bool := false
  keyframeReady : Bool := false
  aacType : UInt8 := 0
  sampleRate : Nat := 0
  channel : UInt8 := 0
  videoReady : Bool := false
  audioReady : Bool := false
  ready : Bool := false
  waitQueue : List Nat := []

/--
The header in front of the data. If there is no room for it, it overwrites the data.
-/
def prependAdts (adts : List UInt8) (p : SharedPacket) : SharedPacket :=
  match p.consumeBack adts.length with
  | some p => { p with data := adts ++ p.data.drop adts.length }
  | none => { p with data := adts.take p.data.length ++ p.data.drop adts.length }

namespace MuxSource

section H264

/--
The type of the NALU in a sequence header. Without a start code it is taken from the byte in front of the data, which
is 0 here if that is in front of the whole buffer.
-/
def seqHdrType (p : SharedPacket) (behind : Nat → UInt8) : UInt8 :=
  match H264.getNaluTypePos (readAt (p.memory behind) 0 4) with
  | some pos => H264.nalType (p.memory behind pos)
  | none => H264.nalType (p.room.getLastD 0)

def handleH264SeqHdr (m : MuxSource) (behind : Nat → UInt8) (p : SharedPacket) : Checked CopyCheck MuxSource :=
  if m.isAnnexb then
    if seqHdrType p behind = H264.naluTypePps then do
      let pps ← m.caches.pps.copy p.data
      return { m with caches := { m.caches with pps } }
    else if seqHdrType p behind = H264.naluTypeSps then do
      let sps ← m.caches.sps.copy p.data
      return { m with caches := { m.caches with sps } }
    else return m
  else do
    match ← getSpsPpsFromExtraData (p.memory behind) p.data.length m.caches.pps m.caches.sps with
    | some (pps, sps) => return { m with caches := { m.caches with pps, sps } }
    | none =>
      let pps := { m.caches.pps with len := 0 }
      let sps := { m.caches.sps with len := 0 }
      return { m with caches := { m.caches with pps, sps } }

/--
A NALU goes to its cache, or as a frame to the packet that is written. It has a start code.
-/
def handleH264Nalu (naluPtr : Nat) (s : MuxSource × Packets) (nalu : List UInt8)
    : Checked CopyCheck (MuxSource × Packets) :=
  match H264.getNaluTypePos nalu with
  | none => return s
  | some pos =>
    let naluType := H264.nalType (nalu.getD pos 0)
    if naluType = H264.naluTypeAud then return s
    else if naluType = H264.naluTypePps then do
      let pps ← s.1.caches.pps.copy nalu
      return ({ s.1 with caches := { s.1.caches with pps } }, s.2)
    else if naluType = H264.naluTypeSps then do
      let sps ← s.1.caches.sps.copy nalu
      return ({ s.1 with caches := { s.1.caches with sps } }, s.2)
    else
      let sps := s.1.caches.sps
      let pps := s.1.caches.pps
      let isKey := naluType = H264.naluTypeIdr
      let sets := if isKey then sps.array.take sps.len.toNat ++ pps.array.take pps.len.toNat else []
      return ({ s.1 with keyframeReady := s.1.keyframeReady || isKey },
        s.2.modify naluPtr fun p => { p with data := h264AudData ++ sets ++ nalu })

/--
Packets are taken for Annex B from the first one on that starts with a start code.
-/
def detectAnnexb (m : MuxSource) (behind : Nat → UInt8) (p : SharedPacket) : MuxSource :=
  { m with isAnnexb := m.isAnnexb || readAt (p.memory behind) 0 4 = H264.startCode }

def h264Nalus (m : MuxSource) (behind : Nat → UInt8) (p : SharedPacket) : Option (List (List UInt8)) :=
  if m.isAnnexb then H264.annexB2Nalus p.data else avcc2Nalus (p.memory behind) p.data.length

def handleH264 (m : MuxSource) (behind : Nat → UInt8) (pkts : Packets) (p : SharedPacket)
    : Checked CopyCheck (MuxSource × Packets) :=
  let m := m.detectAnnexb behind p
  if p.isSeqHdr then do
    let m ← m.handleH264SeqHdr behind p
    return (m, pkts)
  else
    match m.h264Nalus behind p with
    | none => return (m, pkts)
    | some nalus => run (handleH264Nalu pkts.length) (m, pkts ++ [p.copyProperties]) nalus

end H264

section H265

/--
The frames of the NALUs, one after the other in the packet that is written.
-/
def h265Frames (c : Caches) (p : SharedPacket) (naluPtr : Nat) : Bool → Packets → List (List UInt8) → Packets
  | _, pkts, [] => pkts
  | appended, pkts, nalu :: nalus =>
    let naluType := hevcNaluType (nalu.getD 4 0)
    if naluType = naluTypeHevcAud then h265Frames c p naluPtr appended pkts nalus
    else
      let isKey := 16 ≤ naluType ∧ naluType ≤ 23 ∧ ¬appended
      let sets := h265StartCode ++ c.vps.array.take c.vps.len.toNat
        ++ (h265StartCode ++ c.sps.array.take c.sps.len.toNat)
        ++ (h265StartCode ++ c.pps.array.take c.pps.len.toNat)
      let frame := h265AudData ++ (if isKey then sets else []) ++ (h265StartCode ++ nalu.drop 4)
      h265Frames c p naluPtr (appended || isKey)
        (pkts.modify naluPtr fun _ => { p.copyProperties with data := frame }) nalus

def handleH265 (m : MuxSource) (behind : Nat → UInt8) (pkts : Packets) (p : SharedPacket)
    : Checked CopyCheck (MuxSource × Packets) :=
  if p.isSeqHdr then
    match ParameterSets.getHevcDecInfoFromExtradata (p.memory behind) p.data.length with
    | none => return (m, pkts)
    | some units => do
      let caches ← m.caches.getVpsSpsPps units
      return ({ m with caches }, pkts)
  else
    match avcc2Nalus (p.memory behind) p.data.length with
    | none => return (m, pkts)
    | some nalus => return (m, h265Frames m.caches p pkts.length false (pkts ++ [{}]) nalus)

end H265

/--
The ADTS header of a packet.
-/
def adtsHeader (m : MuxSource) (p : SharedPacket) : List UInt8 :=
  makeAdts (getAdtsTypeByAscType p.aacAscType) m.sampleRate m.channel.toNat p.data.length

def handleAudioAac (m : MuxSource) (pkts : Packets) (ptr : Nat) (p : SharedPacket) : MuxSource × Packets :=
  if p.isSeqHdr ∧ p.hasFlvAudioAsc then
    ({ m with aacType := p.aacAscType, sampleRate := p.sampleRate, channel := p.channel }, pkts)
  else if m.aacType = 0 ∨ m.sampleRate = 0 ∨ m.channel = 0 then (m, pkts)
  else (m, pkts.modify ptr (prependAdts (m.adtsHeader p)))

/--
`HandlePacket` for the packet of a pointer, with what the memory holds behind each packet.
-/
def handlePacket (behind : Nat → Nat → UInt8) (s : MuxSource × Packets) (ptr : Nat)
    : Checked CopyCheck (MuxSource × Packets) :=
  match s.2[ptr]? with
  | none => return s
  | some p =>
    match p.avType with
    | .video =>
      if p.codecType = .h264 then s.1.handleH264 (behind ptr) s.2 p
      else if p.codecType = .h265 then s.1.handleH265 (behind ptr) s.2 p
      else return s
    | .audio =>
      if p.codecType = .aac then return s.1.handleAudioAac s.2 ptr p
      else return s
    | _ => return s

/--
A packet waits until there was one of each kind, or until there are too many.
-/
def Waits (m : MuxSource) : Prop := ¬m.ready ∧ (¬m.videoReady ∨ ¬m.audioReady) ∧ m.waitQueue.length < 30

instance (m : MuxSource) : Decidable m.Waits := by
  unfold Waits
  infer_instance

def wait (m : MuxSource) (ptr : Nat) (avType : MediaPktType) : MuxSource :=
  { m with
    videoReady := m.videoReady || avType = .video
    audioReady := m.audioReady || avType = .audio
    waitQueue := m.waitQueue ++ [ptr] }

/--
The packets that a call handles: those that waited, and its own.
-/
def handled (m : MuxSource) (ptr : Nat) (avType : MediaPktType) : List Nat :=
  if avType = .metadata ∨ m.Waits then [] else m.waitQueue ++ [ptr]

/--
The state in which a call starts to handle packets.
-/
def started (m : MuxSource) (ptr : Nat) (avType : MediaPktType) : MuxSource :=
  if avType = .metadata then m
  else if m.Waits then m.wait ptr avType
  else { m with ready := true, waitQueue := [] }

def sourceData (behind : Nat → Nat → UInt8) (s : MuxSource × Packets) (ptr : Nat)
    : Checked CopyCheck (MuxSource × Packets) :=
  match s.2[ptr]? with
  | none => return s
  | some p => run (handlePacket behind) (s.1.started ptr p.avType, s.2) (s.1.handled ptr p.avType)

section Fits

/--
A NALU that goes to a cache.
-/
def IsParameterSet (nalu : List UInt8) : Prop :=
  ∃ pos, H264.getNaluTypePos nalu = some pos
    ∧ (H264.nalType (nalu.getD pos 0) = H264.naluTypePps ∨ H264.nalType (nalu.getD pos 0) = H264.naluTypeSps)

def NaluFits (nalu : List UInt8) : Prop := IsParameterSet nalu → nalu.length ≤ setSize

/--
The parameter sets that a packet of H.264 has are not longer than the caches.
-/
def H264Fits (m : MuxSource) (behind : Nat → UInt8) (p : SharedPacket) : Prop :=
  if p.isSeqHdr then
    if (m.detectAnnexb behind p).isAnnexb then
      seqHdrType p behind = H264.naluTypePps ∨ seqHdrType p behind = H264.naluTypeSps → p.data.length ≤ setSize
    else AvcFits (p.memory behind) p.data.length setSize
  else
    ∀ nalus, (m.detectAnnexb behind p).h264Nalus behind p = some nalus → ∀ nalu ∈ nalus, NaluFits nalu

def H265Fits (behind : Nat → UInt8) (p : SharedPacket) : Prop :=
  p.isSeqHdr → ∀ units, ParameterSets.getHevcDecInfoFromExtradata (p.memory behind) p.data.length = some units →
    ∀ unit ∈ units, UnitFits setSize unit

/--
The parameter sets that a packet has are not longer than the caches they go to.
-/
def HandleFits (behind : Nat → Nat → UInt8) (s : MuxSource × Packets) (ptr : Nat) : Prop :=
  ∀ p, s.2[ptr]? = some p → p.avType = .video →
    (p.codecType = .h264 → s.1.H264Fits (behind ptr) p) ∧ (p.codecType = .h265 → H265Fits (behind ptr) p)

def SourceFits (behind : Nat → Nat → UInt8) (s : MuxSource × Packets) (ptr : Nat) : Prop :=
  ∀ p, s.2[ptr]? = some p →
    RunMeets (handlePacket behind) (HandleFits behind) (s.1.started ptr p.avType, s.2) (s.1.handled ptr p.avType)

variable {m : MuxSource} {behind : Nat → UInt8} {p : SharedPacket} {pkts : Packets}

theorem handleH264SeqHdr_passes (h : m.caches.Sized setSize)
    : (m.handleH264SeqHdr behind p).Passes CopyCheck.Holds
        ↔ if m.isAnnexb then
            seqHdrType p behind = H264.naluTypePps ∨ seqHdrType p behind = H264.naluTypeSps → p.data.length ≤ setSize
          else AvcFits (p.memory behind) p.data.length setSize := by
  unfold handleH264SeqHdr
  split
  . simp only [passes_ite, passes_bind, passes_pure, and_true, implies_true, ParameterSet.copy_passes h.pps,
      ParameterSet.copy_passes h.sps]
    by_cases hpps : seqHdrType p behind = H264.naluTypePps
    . simp [hpps]
    . simp [hpps]
  . rw [passes_bind, getSpsPpsFromExtraData_passes h.pps h.sps]
    apply and_iff_left
    split
    . exact passes_pure _
    . exact passes_pure _

theorem handleH264SeqHdr_sized (h : m.caches.Sized setSize)
    (hfits : (m.handleH264SeqHdr behind p).Passes CopyCheck.Holds)
    : (m.handleH264SeqHdr behind p).value.caches.Sized setSize := by
  rw [handleH264SeqHdr_passes h] at hfits
  unfold handleH264SeqHdr
  split at hfits
  . next hannexb =>
    rw [if_pos hannexb]
    split
    . next hpps => exact ⟨h.vps, h.sps, (ParameterSet.copy_within h.pps (hfits (.inl hpps))).length⟩
    . split
      . next hsps => exact ⟨h.vps, (ParameterSet.copy_within h.sps (hfits (.inr hsps))).length, h.pps⟩
      . exact h
  . next hannexb =>
    rw [if_neg hannexb, value_bind]
    split
    . next pps sps hsets =>
      have hlength := getSpsPpsFromExtraData_length h.pps h.sps hfits hsets
      exact ⟨h.vps, hlength.right, hlength.left⟩
    . exact ⟨h.vps, h.sps, h.pps⟩

theorem handleH264Nalu_passes {naluPtr : Nat} {s : MuxSource × Packets} (h : s.1.caches.Sized setSize)
    (nalu : List UInt8)
    : (handleH264Nalu naluPtr s nalu).Passes CopyCheck.Holds ↔ NaluFits nalu := by
  unfold handleH264Nalu NaluFits IsParameterSet
  cases hpos : H264.getNaluTypePos nalu with
  | none => simp
  | some pos =>
    have hdistinct : H264.naluTypeAud ≠ H264.naluTypePps ∧ H264.naluTypeAud ≠ H264.naluTypeSps
        ∧ H264.naluTypePps ≠ H264.naluTypeSps := by decide
    simp only [passes_ite, passes_bind, passes_pure, and_true, implies_true, ParameterSet.copy_passes h.pps,
      ParameterSet.copy_passes h.sps, Option.some.injEq, exists_eq_left']
    generalize H264.nalType (nalu.getD pos 0) = naluType
    by_cases haud : naluType = H264.naluTypeAud
    . simp [haud, hdistinct]
    . by_cases hpps : naluType = H264.naluTypePps
      . simp [hpps, hdistinct.1.symm]
      . simp [haud, hpps]

theorem handleH264Nalu_sized {naluPtr : Nat} {s : MuxSource × Packets} (h : s.1.caches.Sized setSize)
    {nalu : List UInt8} (hfits : NaluFits nalu)
    : (handleH264Nalu naluPtr s nalu).value.1.caches.Sized setSize := by
  unfold handleH264Nalu
  split
  . exact h
  . next pos hpos =>
    simp only
    split
    . exact h
    . split
      . next hpps =>
        exact ⟨h.vps, h.sps, (ParameterSet.copy_within h.pps (hfits ⟨pos, hpos, .inl hpps⟩)).length⟩
      . split
        . next hsps =>
          exact ⟨h.vps, (ParameterSet.copy_within h.sps (hfits ⟨pos, hpos, .inr hsps⟩)).length, h.pps⟩
        . exact ⟨h.vps, h.sps, h.pps⟩

theorem handleH264_passes (h : m.caches.Sized setSize)
    : (m.handleH264 behind pkts p).Passes CopyCheck.Holds ↔ m.H264Fits behind p := by
  have hdetect : (m.detectAnnexb behind p).caches.Sized setSize := h
  unfold handleH264 H264Fits
  generalize m.detectAnnexb behind p = m' at hdetect
  split
  . rw [passes_bind, handleH264SeqHdr_passes hdetect]
    exact and_iff_left (passes_pure _)
  . simp only
    cases m'.h264Nalus behind p with
    | none => simp
    | some nalus =>
      simp only [Option.some.injEq, forall_eq']
      rw [run_passes_iff_runMeets (fun s : MuxSource × Packets => s.1.caches.Sized setSize) (fun _ => NaluFits)
        (fun s nalu hs => handleH264Nalu_passes hs nalu) (fun s nalu hs hfits => handleH264Nalu_sized hs hfits)
        (show (m', pkts ++ [p.copyProperties]).1.caches.Sized setSize from hdetect), runMeets_iff_forall]

theorem handleH264_sized (h : m.caches.Sized setSize) (hfits : m.H264Fits behind p)
    : (m.handleH264 behind pkts p).value.1.caches.Sized setSize := by
  have hdetect : (m.detectAnnexb behind p).caches.Sized setSize := h
  unfold H264Fits at hfits
  unfold handleH264
  generalize m.detectAnnexb behind p = m' at hdetect hfits
  split
  . next hseqHdr =>
    rw [if_pos hseqHdr, ← handleH264SeqHdr_passes hdetect] at hfits
    exact handleH264SeqHdr_sized hdetect hfits
  . next hseqHdr =>
    rw [if_neg hseqHdr] at hfits
    simp only
    cases hnalus : m'.h264Nalus behind p with
    | none => exact hdetect
    | some nalus =>
      rw [hnalus] at hfits
      exact run_keeps (fun s : MuxSource × Packets => s.1.caches.Sized setSize) (fun _ => NaluFits)
        (fun s nalu hs hnalu => handleH264Nalu_sized hs hnalu) hdetect
        (runMeets_iff_forall.mpr (hfits nalus rfl))

theorem handleH265_passes (h : m.caches.Sized setSize)
    : (m.handleH265 behind pkts p).Passes CopyCheck.Holds ↔ H265Fits behind p := by
  unfold handleH265 H265Fits
  split
  . next hseqHdr =>
    generalize ParameterSets.getHevcDecInfoFromExtradata (p.memory behind) p.data.length = units
    cases units with
    | none => simp
    | some units => simp [hseqHdr, getVpsSpsPps_passes h]
  . next hseqHdr =>
    split
    . simp [hseqHdr]
    . simp [hseqHdr]

theorem handleH265_sized (h : m.caches.Sized setSize) (hfits : H265Fits behind p)
    : (m.handleH265 behind pkts p).value.1.caches.Sized setSize := by
  unfold H265Fits at hfits
  unfold handleH265
  split
  . next hseqHdr =>
    split
    . exact h
    . next units hunits => exact getVpsSpsPps_sized h (hfits hseqHdr units hunits)
  . split
    . exact h
    . exact h

variable {behind : Nat → Nat → UInt8} {s : MuxSource × Packets} {ptr : Nat}

theorem handleAudioAac_caches (m : MuxSource) (pkts : Packets) (ptr : Nat) (p : SharedPacket)
    : (m.handleAudioAac pkts ptr p).1.caches = m.caches := by
  unfold handleAudioAac
  split
  . rfl
  . split
    . rfl
    . rfl

theorem handlePacket_passes (h : s.1.caches.Sized setSize)
    : (handlePacket behind s ptr).Passes CopyCheck.Holds ↔ HandleFits behind s ptr := by
  unfold handlePacket HandleFits
  cases hp : s.2[ptr]? with
  | none => simp
  | some p =>
    simp only [Option.some.injEq, forall_eq']
    cases havType : p.avType with
    | video =>
      simp only [passes_ite, handleH264_passes h, handleH265_passes h, passes_pure, implies_true, and_true,
        true_implies]
      by_cases hh264 : p.codecType = .h264
      . simp [hh264]
      . simp [hh264]
    | audio =>
      simp only [passes_ite, passes_pure, implies_true, and_self, reduceCtorEq, false_implies]
    | unknown | movbox | metadata => simp

theorem handlePacket_sized (h : s.1.caches.Sized setSize) (hfits : HandleFits behind s ptr)
    : (handlePacket behind s ptr).value.1.caches.Sized setSize := by
  unfold handlePacket
  split
  . exact h
  . next p hp =>
    split
    . next havType =>
      obtain ⟨hh264, hh265⟩ := hfits p hp havType
      split
      . next hcodec => exact handleH264_sized h (hh264 hcodec)
      . split
        . next hcodec => exact handleH265_sized h (hh265 hcodec)
        . exact h
    . split
      . rw [value_pure, handleAudioAac_caches]
        exact h
      . exact h
    . exact h

theorem started_caches (m : MuxSource) (ptr : Nat) (avType : MediaPktType)
    : (m.started ptr avType).caches = m.caches := by
  unfold started
  split
  . rfl
  . split
    . rfl
    . rfl

/--
The copies of a call are within the caches if those of each packet that it handles are.
-/
theorem sourceData_passes (h : s.1.caches.Sized setSize)
    : (sourceData behind s ptr).Passes CopyCheck.Holds ↔ SourceFits behind s ptr := by
  unfold sourceData SourceFits
  cases hp : s.2[ptr]? with
  | none => simp
  | some p =>
    have hstarted : (s.1.started ptr p.avType).caches.Sized setSize := by
      rw [started_caches]
      exact h
    simp only [Option.some.injEq, forall_eq']
    exact run_passes_iff_runMeets (fun s : MuxSource × Packets => s.1.caches.Sized setSize) (HandleFits behind)
      (fun s ptr hs => handlePacket_passes hs) (fun s ptr hs hfits => handlePacket_sized hs hfits) hstarted _

theorem sourceData_sized (h : s.1.caches.Sized setSize) (hfits : SourceFits behind s ptr)
    : (sourceData behind s ptr).value.1.caches.Sized setSize := by
  unfold sourceData
  split
  . exact h
  . next p hp =>
    have hstarted : (s.1.started ptr p.avType).caches.Sized setSize := by
      rw [started_caches]
      exact h
    exact run_keeps (fun s : MuxSource × Packets => s.1.caches.Sized setSize) (HandleFits behind)
      (fun s ptr hs hfits => handlePacket_sized hs hfits) hstarted (hfits p hp)

end Fits

section Kept

variable {behind : Nat → UInt8} {m : MuxSource} {pkts : Packets} {p : SharedPacket}

theorem handleH264Nalu_isPrefix {naluPtr : Nat} {s : MuxSource × Packets} (h : pkts <+: s.2)
    (hptr : pkts.length ≤ naluPtr) (nalu : List UInt8)
    : pkts <+: (handleH264Nalu naluPtr s nalu).value.2 := by
  unfold handleH264Nalu
  split
  . exact h
  . simp only
    split
    . exact h
    . split
      . exact h
      . split
        . exact h
        . exact Packets.isPrefix_modify h hptr _

/--
The frames are made in a packet of their own.
-/
theorem handleH264_isPrefix : pkts <+: (m.handleH264 behind pkts p).value.2 := by
  unfold handleH264
  simp only
  split
  . exact List.prefix_refl _
  . split
    . exact List.prefix_refl _
    . apply run_keeps (fun s : MuxSource × Packets => pkts <+: s.2) (fun _ _ => True)
      . intro s nalu hs _
        exact handleH264Nalu_isPrefix hs (Nat.le_refl _) nalu
      . exact List.prefix_append _ _
      . exact runMeets_iff_forall.mpr fun _ _ => trivial

theorem h265Frames_isPrefix {c : Caches} {naluPtr : Nat} (hptr : pkts.length ≤ naluPtr) (nalus : List (List UInt8))
    {appended : Bool} {pkts' : Packets} (h : pkts <+: pkts')
    : pkts <+: h265Frames c p naluPtr appended pkts' nalus := by
  induction nalus generalizing appended pkts' with
  | nil => exact h
  | cons nalu nalus ih =>
    rw [h265Frames]
    split
    . exact ih h
    . exact ih (Packets.isPrefix_modify h hptr _)

theorem handleH265_isPrefix : pkts <+: (m.handleH265 behind pkts p).value.2 := by
  unfold handleH265
  split
  . split
    . exact List.prefix_refl _
    . exact List.prefix_refl _
  . split
    . exact List.prefix_refl _
    . exact h265Frames_isPrefix (Nat.le_refl _) _ (List.prefix_append _ _)

/--
The header changes a packet, unless it overwrites the very same bytes because there is no room in front of them.
-/
theorem prependAdts_same {adts : List UInt8} (hadts : adts.length = 7) (p : SharedPacket)
    : (prependAdts adts p).Same p
        ↔ p.room.length < 7 ∧ adts.take p.data.length ++ p.data.drop 7 = p.data := by
  unfold prependAdts
  rw [hadts]
  cases hconsume : p.consumeBack 7 with
  | none =>
    have hroom := SharedPacket.consumeBack_isNone.mp hconsume
    constructor
    . intro h
      exact ⟨hroom, h.data⟩
    . intro h
      exact ⟨h.right, rfl, rfl, rfl⟩
  | some p' =>
    have hdata := SharedPacket.consumeBack_data hconsume
    constructor
    . intro h
      have hlen := congrArg List.length h.data
      simp only [List.length_append, hdata, hadts] at hlen
      omega
    . intro h
      rw [SharedPacket.consumeBack_isNone.mpr h.left] at hconsume
      cases hconsume

/--
A packet that gets an ADTS header, which is not there already.
-/
def AddsHeader (m : MuxSource) (p : SharedPacket) : Prop :=
  p.avType = .audio ∧ p.codecType = .aac ∧ ¬(p.isSeqHdr ∧ p.hasFlvAudioAsc)
    ∧ ¬(m.aacType = 0 ∨ m.sampleRate = 0 ∨ m.channel = 0)
    ∧ ¬(p.room.length < 7 ∧ (m.adtsHeader p).take p.data.length ++ p.data.drop 7 = p.data)

/--
The packet of the pointer is not one that gets a header.
-/
def HandleKeeps (s : MuxSource × Packets) (ptr : Nat) : Prop :=
  ∀ p, s.2[ptr]? = some p → ¬s.1.AddsHeader p

variable {behind : Nat → Nat → UInt8} {s : MuxSource × Packets} {ptr : Nat}

theorem handleAudioAac_kept_iff (hp : pkts[ptr]? = some p) (havType : p.avType = .audio) (hcodec : p.codecType = .aac)
    : pkts.Kept (m.handleAudioAac pkts ptr p).2 ↔ ¬m.AddsHeader p := by
  have hsame : pkts.Kept pkts := Packets.kept_of_isPrefix (List.prefix_refl _)
  unfold handleAudioAac AddsHeader
  simp only [havType, hcodec, true_and]
  split
  . next hseqHdr => simp [hseqHdr, hsame]
  . next hseqHdr =>
    split
    . next hunset => simp [hunset, hsame]
    . next hunset =>
      rw [Packets.kept_modify_iff hp, prependAdts_same rfl]
      simp [hseqHdr, hunset]

theorem handlePacket_kept_iff : s.2.Kept (handlePacket behind s ptr).value.2 ↔ HandleKeeps s ptr := by
  have hsame : s.2.Kept s.2 := Packets.kept_of_isPrefix (List.prefix_refl _)
  unfold handlePacket HandleKeeps
  cases hp : s.2[ptr]? with
  | none => simp [hsame]
  | some p =>
    simp only [Option.some.injEq, forall_eq']
    cases havType : p.avType with
    | video =>
      have hkeeps : ¬s.1.AddsHeader p := by
        intro h
        exact absurd (havType.symm.trans h.left) (by decide)
      simp only [hkeeps, not_false_eq_true, iff_true]
      split
      . exact Packets.kept_of_isPrefix handleH264_isPrefix
      . split
        . exact Packets.kept_of_isPrefix handleH265_isPrefix
        . exact hsame
    | audio =>
      simp only
      split
      . next hcodec => exact handleAudioAac_kept_iff hp havType hcodec
      . next hcodec => exact iff_of_true hsame fun h => hcodec h.right.left
    | unknown | movbox | metadata =>
      refine iff_of_true hsame fun h => ?_
      exact absurd (havType.symm.trans h.left) (by decide)

/--
No packet that a call handles changes one.
-/
def Leaves (behind : Nat → Nat → UInt8) (s : MuxSource × Packets) (ptr : Nat) : Prop :=
  ∀ p, s.2[ptr]? = some p →
    RunMeets (handlePacket behind) (fun s ptr => s.2.Kept (handlePacket behind s ptr).value.2)
      (s.1.started ptr p.avType, s.2) (s.1.handled ptr p.avType)

/--
None of the packets that a call handles gets a header.
-/
def SourceKeeps (behind : Nat → Nat → UInt8) (s : MuxSource × Packets) (ptr : Nat) : Prop :=
  ∀ p, s.2[ptr]? = some p →
    RunMeets (handlePacket behind) HandleKeeps (s.1.started ptr p.avType, s.2) (s.1.handled ptr p.avType)

theorem leaves_iff_sourceKeeps : Leaves behind s ptr ↔ SourceKeeps behind s ptr := by
  unfold Leaves SourceKeeps
  simp only [handlePacket_kept_iff]

theorem Leaves.kept (h : Leaves behind s ptr) : s.2.Kept (sourceData behind s ptr).value.2 := by
  unfold sourceData
  split
  . exact .refl s.2
  . next p hp =>
    exact run_related (fun s s' : MuxSource × Packets => s.2.Kept s'.2) (fun s => .refl s.2)
      (fun _ _ _ h h' => h.trans h') (h p hp)

end Kept

end MuxSource

end MpegTs
