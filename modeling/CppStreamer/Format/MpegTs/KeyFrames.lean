import CppStreamer.Format.AnnexB
import CppStreamer.Format.Flv.RoundTrip
import CppStreamer.Format.MpegTs.InputPacket

/-!
This module contains what `MpegtsMux::HandleH264` writes for the NALUs of a run of packets, and when each key frame comes
with its parameter sets.
-/

open ByteStream H264

namespace MpegTs

section Streams

/--
The data is the NALUs behind each other, each with a start code in front.
-/
def IsStream (nalus : List (List UInt8)) (data : List UInt8) : Prop :=
  ∃ units : List CodedNalu, units.map CodedNalu.nalu = nalus ∧ stream units = data

theorem isStream_nil : IsStream [] [] := ⟨[], rfl, rfl⟩

theorem isStream_stream (units : List CodedNalu) : IsStream (units.map CodedNalu.nalu) (stream units) :=
  ⟨units, rfl, rfl⟩

theorem isStream_bytes (u : CodedNalu) : IsStream [u.nalu] u.bytes := by
  have h := isStream_stream [u]
  rwa [stream_cons, stream, List.flatMap_nil, List.append_nil] at h

theorem IsStream.append {nalus nalus' : List (List UInt8)} {data data' : List UInt8} (h : IsStream nalus data)
    (h' : IsStream nalus' data')
    : IsStream (nalus ++ nalus') (data ++ data') := by
  obtain ⟨units, rfl, rfl⟩ := h
  obtain ⟨units', rfl, rfl⟩ := h'
  exact ⟨units ++ units', List.map_append, stream_append units units'⟩

theorem IsStream.length_le {nalus : List (List UInt8)} {data : List UInt8} (h : IsStream nalus data)
    : 3 * nalus.length + nalus.flatten.length ≤ data.length := by
  obtain ⟨units, rfl, rfl⟩ := h
  induction units with
  | nil => exact Nat.le_refl _
  | cons u units ih =>
    have hcode := u.code_length_pos
    rw [stream_cons, List.map_cons, List.length_cons, List.flatten_cons, List.length_append, List.length_append,
      u.length_bytes]
    omega

end Streams

section Packets

def accessUnitDelimiter : List UInt8 := [0x09, 0xff]

/--
A configuration record with its parameter sets.
-/
def avcRecord (profile : List UInt8) (spss ppss : List (List UInt8)) (rest : List UInt8) : List UInt8 :=
  [1] ++ (profile ++ ([0xff, 0xe0 ||| UInt8.ofNat spss.length]
    ++ (spss.flatMap (fun sps => write2Bytes sps.length ++ sps) ++ ([UInt8.ofNat ppss.length]
      ++ (ppss.flatMap (fun pps => write2Bytes pps.length ++ pps) ++ rest)))))

/--
The data of a packet: the sequence header and the frames of AVCC, and those of Annex B. A NALU of AVCC gets a start code
of four bytes.
-/
inductive H264Body where
  | record (profile : List UInt8) (spss ppss : List (List UInt8)) (rest : List UInt8)
  | avcc (units : List CodedNalu)
  | header (units : List CodedNalu)
  | annexb (units : List CodedNalu)

/--
The parameter sets are not longer than their arrays.
-/
def SetsFit (units : List CodedNalu) : Prop :=
  ∀ u ∈ units, u.type = naluTypeSps ∨ u.type = naluTypePps → u.bytes.length ≤ 512

/--
No NALU is so long that the packet is refused.
-/
def Accepted (units : List CodedNalu) : Prop := ∀ u ∈ units, u.nalu.length ≤ Flv.kMaxLen

instance (units : List CodedNalu) : Decidable (SetsFit units) :=
  inferInstanceAs (Decidable (∀ u ∈ units, _ → _))

instance (units : List CodedNalu) : Decidable (Accepted units) :=
  inferInstanceAs (Decidable (∀ u ∈ units, _))

namespace H264Body

def bytes : H264Body → List UInt8
  | record profile spss ppss rest => avcRecord profile spss ppss rest
  | avcc units => Flv.avcc (units.map CodedNalu.nalu)
  | header units => stream units
  | annexb units => stream units

def isSeqHdr : H264Body → Bool
  | record _ _ _ _ => true
  | avcc _ => false
  | header _ => true
  | annexb _ => false

def isAnnexb : H264Body → Bool
  | record _ _ _ _ => false
  | avcc _ => false
  | header _ => true
  | annexb _ => true

def WellFormed : H264Body → Prop
  | record profile spss ppss _ =>
    profile.length = 3 ∧ (spss ≠ [] ∧ spss.length < 32) ∧ (ppss ≠ [] ∧ ppss.length < 256)
      ∧ ∀ set ∈ spss ++ ppss, set.length ≤ 512
  | avcc units => units ≠ [] ∧ (∀ u ∈ units, u.long ∧ u.nalu.length < 2 ^ 32) ∧ SetsFit units
  | header units => units ≠ [] ∧ (∀ u ∈ units, Plain u.nalu) ∧ SetsFit units
  | annexb units => units ≠ [] ∧ (∀ u ∈ units, Plain u.nalu) ∧ SetsFit units

instance : (body : H264Body) → Decidable body.WellFormed
  | record profile spss ppss _ =>
    inferInstanceAs (Decidable (profile.length = 3 ∧ (spss ≠ [] ∧ spss.length < 32) ∧ (ppss ≠ [] ∧ ppss.length < 256)
      ∧ ∀ set ∈ spss ++ ppss, set.length ≤ 512))
  | avcc units =>
    inferInstanceAs (Decidable (units ≠ [] ∧ (∀ u ∈ units, u.long ∧ u.nalu.length < 2 ^ 32) ∧ SetsFit units))
  | header units => inferInstanceAs (Decidable (units ≠ [] ∧ (∀ u ∈ units, Plain u.nalu) ∧ SetsFit units))
  | annexb units => inferInstanceAs (Decidable (units ≠ [] ∧ (∀ u ∈ units, Plain u.nalu) ∧ SetsFit units))

end H264Body

structure H264Packet where
  properties : MediaPacket
  body : H264Body
  wellFormed : body.WellFormed

def H264Packet.packet (p : H264Packet) : MediaPacket :=
  { p.properties with isSeqHdr := p.body.isSeqHdr, data := p.body.bytes }

end Packets

section Payloads

/--
An IDR NALU is written behind the latest parameter sets, another one is not.
-/
def IsPayload (sets : LatestSets) (u : CodedNalu) (payload : List UInt8) : Prop :=
  if u.type = naluTypeIdr then
    ∃ sps pps, (sets.sps = some sps ∧ sets.pps = some pps) ∧ IsStream [accessUnitDelimiter, sps, pps, u.nalu] payload
  else IsStream [accessUnitDelimiter, u.nalu] payload

/--
What is written for the NALUs of a packet: nothing for a parameter set or an access unit delimiter, at most one payload
for another NALU.
-/
def Writes : LatestSets → List CodedNalu → List (List UInt8) → Prop
  | _, [], payloads => payloads = []
  | sets, u :: units, payloads =>
    Writes (sets.next u) units payloads
      ∨ (u.type ≠ naluTypeAud ∧ u.type ≠ naluTypePps ∧ u.type ≠ naluTypeSps)
        ∧ ∃ payload payloads', payloads = payload :: payloads' ∧ IsPayload sets u payload
          ∧ Writes (sets.next u) units payloads'

/--
The latest parameter sets behind a packet.
-/
def H264Body.latest (sets : LatestSets) : H264Body → LatestSets
  | record _ spss ppss _ => { sps := spss.getLast?, pps := ppss.getLast? }
  | avcc units => units.foldl LatestSets.next sets
  | header units => units.foldl LatestSets.next sets
  | annexb units => units.foldl LatestSets.next sets

def H264Body.Writes (sets : LatestSets) (payloads : List (List UInt8)) : H264Body → Prop
  | record _ _ _ _ => payloads = []
  | avcc units => MpegTs.Writes sets units payloads
  | header _ => payloads = []
  | annexb units => MpegTs.Writes sets units payloads

/--
In a run, each payload is the one for its NALU.
-/
def CodecState.KeyFrames (c : CodecState) (sets : LatestSets) : List (Unwritten × H264Packet) → Prop
  | [] => True
  | (u, p) :: pkts =>
    ∃ ret frames c', c.handleH264 u p.packet = some (ret, frames, c')
      ∧ p.body.Writes sets (frames.map MediaPacket.data) ∧ c'.KeyFrames (p.body.latest sets) pkts

end Payloads

section Conditions

/--
What the arrays are filled from: the NALUs of a packet with their start codes, `none` for a part of a record.
-/
structure Kept where
  isAnnexb : Bool := false
  sps : Option (List (List UInt8)) := some []
  pps : Option (List (List UInt8)) := some []

namespace Kept

/--
Data goes to the array for its first NALU as a whole.
-/
def fill (kept : Kept) : List CodedNalu → Kept
  | [] => kept
  | u :: units =>
    if u.type = naluTypePps then { kept with pps := some ((u :: units).map CodedNalu.nalu) }
    else if u.type = naluTypeSps then { kept with sps := some ((u :: units).map CodedNalu.nalu) }
    else kept

def detected (kept : Kept) : Kept := { kept with isAnnexb := true }

def fillEach (kept : Kept) (units : List CodedNalu) : Kept := units.foldl (fun kept u => kept.fill [u]) kept

/--
Both arrays together are the latest SPS and the latest PPS with their start codes.
-/
def Complete (kept : Kept) (sets : LatestSets) : Prop :=
  ∃ sps pps spsKept ppsKept, (sets.sps = some sps ∧ sets.pps = some pps)
    ∧ (kept.sps = some spsKept ∧ kept.pps = some ppsKept) ∧ spsKept ++ ppsKept = [sps, pps]

def next (kept : Kept) : H264Body → Kept
  | .record _ _ _ _ => { kept with sps := none, pps := none }
  | .avcc units => if Accepted units then kept.fillEach units else kept
  | .header units => kept.detected.fill units
  | .annexb units => kept.detected.fillEach units

end Kept

/--
The arrays are complete for each IDR NALU.
-/
def AreComplete : LatestSets → Kept → List CodedNalu → Prop
  | _, _, [] => True
  | sets, kept, u :: units =>
    (u.type = naluTypeIdr → kept.Complete sets) ∧ AreComplete (sets.next u) (kept.fill [u]) units

/--
The muxer takes the packet for one of Annex B.
-/
def Kept.Detects (kept : Kept) (units : List CodedNalu) : Prop := kept.isAnnexb ∨ ∀ u ∈ units.head?, u.long

/--
The length of the first NALU of AVCC is no start code, the first packet of Annex B starts with a long one, a header fits
in its array, and the arrays are complete for each IDR NALU.
-/
def H264Body.CanWrite (sets : LatestSets) (kept : Kept) : H264Body → Prop
  | record _ _ _ _ => True
  | avcc units => (∀ u ∈ units.head?, u.nalu.length ≠ 1) ∧ (Accepted units → AreComplete sets kept units)
  | header units =>
    kept.Detects units
      ∧ ∀ u ∈ units.head?, u.type = naluTypeSps ∨ u.type = naluTypePps → (stream units).length ≤ 512
  | annexb units => kept.Detects units ∧ AreComplete sets kept.detected units

def AllCanWrite : LatestSets → Kept → List H264Body → Prop
  | _, _, [] => True
  | sets, kept, body :: bodies =>
    body.CanWrite sets kept ∧ AllCanWrite (body.latest sets) (kept.next body) bodies

end Conditions

section Nalus

/--
What is known about the arrays is so.
-/
structure CodecState.Keeps (c : CodecState) (kept : Kept) : Prop where
  isAnnexb : c.isAnnexb = kept.isAnnexb
  sps : ∀ nalus ∈ kept.sps, IsStream nalus c.sps
  pps : ∀ nalus ∈ kept.pps, IsStream nalus c.pps

theorem keeps_init : ({} : CodecState).Keeps {} where
  isAnnexb := rfl
  sps := by
    rintro _ ⟨⟩
    exact isStream_nil
  pps := by
    rintro _ ⟨⟩
    exact isStream_nil

variable {c : CodecState} {kept : Kept} {sets : LatestSets} {pkt : MediaPacket} {u : CodedNalu}

theorem fill_of_ne (h : u.type ≠ naluTypePps ∧ u.type ≠ naluTypeSps) (units : List CodedNalu)
    : kept.fill (u :: units) = kept := by
  unfold Kept.fill
  simp only
  rw [if_neg h.left, if_neg h.right]

theorem CodecState.Keeps.pps_fill (h : c.Keeps kept) (hpps : u.type = naluTypePps) (units : List CodedNalu)
    : CodecState.Keeps { c with pps := stream (u :: units) } (kept.fill (u :: units)) := by
  unfold Kept.fill
  simp only
  rw [if_pos hpps]
  refine ⟨h.isAnnexb, h.sps, ?_⟩
  rintro _ ⟨⟩
  apply isStream_stream

theorem CodecState.Keeps.sps_fill (h : c.Keeps kept) (hsps : u.type = naluTypeSps) (units : List CodedNalu)
    : CodecState.Keeps { c with sps := stream (u :: units) } (kept.fill (u :: units)) := by
  have hpps : u.type ≠ naluTypePps := by
    rw [hsps]
    decide
  unfold Kept.fill
  simp only
  rw [if_neg hpps, if_pos hsps]
  refine ⟨h.isAnnexb, ?_, h.pps⟩
  rintro _ ⟨⟩
  apply isStream_stream

/--
The frame of a NALU, with the parameter sets of the arrays in front of an IDR NALU.
-/
theorem isPayload_frame (h : c.Keeps kept) (hcan : u.type = naluTypeIdr → kept.Complete sets)
    : IsPayload sets u (h264AudData ++ (if u.type = naluTypeIdr then c.sps ++ c.pps else []) ++ u.bytes) := by
  have haud : IsStream [accessUnitDelimiter] h264AudData := isStream_bytes ⟨true, accessUnitDelimiter, by decide⟩
  unfold IsPayload
  by_cases hidr : u.type = naluTypeIdr
  . obtain ⟨sps, pps, spsKept, ppsKept, hsets, ⟨hsps, hpps⟩, hkept⟩ := hcan hidr
    rw [if_pos hidr, if_pos hidr]
    refine ⟨sps, pps, hsets, ?_⟩
    have harrays := (h.sps spsKept hsps).append (h.pps ppsKept hpps)
    rw [hkept] at harrays
    apply (haud.append harrays).append (isStream_bytes u)
  . rw [if_neg hidr, if_neg hidr, List.append_nil]
    apply haud.append (isStream_bytes u)

theorem writes_nil (sets : LatestSets) (units : List CodedNalu) : Writes sets units [] := by
  induction units generalizing sets with
  | nil => rfl
  | cons u units ih => exact Or.inl (ih _)

theorem handleH264Nalus_writes (pkt : MediaPacket) (units : List CodedNalu) (h : c.Keeps kept)
    (hcan : AreComplete sets kept units)
    : ∃ frames c', c.handleH264Nalus pkt (units.map CodedNalu.bytes) = some (frames, c')
        ∧ Writes sets units (frames.map MediaPacket.data) ∧ c'.Keeps (kept.fillEach units) := by
  induction units generalizing c kept sets with
  | nil => exact ⟨[], c, rfl, rfl, h⟩
  | cons u units ih =>
    obtain ⟨hfirst, hcan⟩ := hcan
    rw [List.map_cons, CodecState.handleH264Nalus, u.getNaluTypePos_bytes]
    simp only [Option.bind_eq_bind, Option.bind_some, u.nalType_bytes]
    by_cases haud : u.type = naluTypeAud
    . have hne : u.type ≠ naluTypePps ∧ u.type ≠ naluTypeSps := by
        rw [haud]
        decide
      rw [fill_of_ne hne] at hcan
      obtain ⟨frames, c', hnalus, hwrites, hkeeps⟩ := ih h hcan
      rw [if_pos haud]
      refine ⟨frames, c', hnalus, Or.inl hwrites, ?_⟩
      unfold Kept.fillEach
      rw [List.foldl_cons, fill_of_ne hne]
      exact hkeeps
    . rw [if_neg haud]
      by_cases hpps : u.type = naluTypePps
      . have hfill := h.pps_fill hpps []
        rw [stream_cons, stream, List.flatMap_nil, List.append_nil] at hfill
        obtain ⟨frames, c', hnalus, hwrites, hkeeps⟩ := ih hfill hcan
        rw [if_pos hpps]
        exact ⟨frames, c', hnalus, Or.inl hwrites, hkeeps⟩
      . rw [if_neg hpps]
        by_cases hsps : u.type = naluTypeSps
        . have hfill := h.sps_fill hsps []
          rw [stream_cons, stream, List.flatMap_nil, List.append_nil] at hfill
          obtain ⟨frames, c', hnalus, hwrites, hkeeps⟩ := ih hfill hcan
          rw [if_pos hsps]
          exact ⟨frames, c', hnalus, Or.inl hwrites, hkeeps⟩
        . have hpayload := isPayload_frame h hfirst
          rw [fill_of_ne ⟨hpps, hsps⟩] at hcan
          have hready : CodecState.Keeps
              { c with keyframeReady := c.keyframeReady || decide (u.type = naluTypeIdr) } kept := ⟨h.isAnnexb, h.sps, h.pps⟩
          obtain ⟨frames, c', hnalus, hwrites, hkeeps⟩ := ih hready hcan
          have hkeeps' : c'.Keeps (kept.fillEach (u :: units)) := by
            unfold Kept.fillEach
            rw [List.foldl_cons, fill_of_ne ⟨hpps, hsps⟩]
            exact hkeeps
          rw [if_neg hsps, hnalus]
          refine ⟨_, c', rfl, ?_, hkeeps'⟩
          split
          . exact Or.inr ⟨⟨haud, hpps, hsps⟩, _, _, rfl, hpayload, hwrites⟩
          . exact Or.inl hwrites

end Nalus

section Forms

theorem avccAccepted_avcc {nalus : List (List UInt8)} (h : ∀ nalu ∈ nalus, nalu.length < 2 ^ 32)
    : avccAccepted (Flv.avcc nalus) ↔ ∀ nalu ∈ nalus, nalu.length ≤ Flv.kMaxLen := by
  induction nalus with
  | nil =>
    rw [avccAccepted]
    simp [Flv.avcc]
  | cons nalu nalus ih =>
    obtain ⟨hlt, h⟩ := List.forall_mem_cons.mp h
    have hlen := Flv.length_avcc_cons nalu nalus
    have hread := Flv.read4Bytes_avcc hlt nalus []
    have hdrop := Flv.drop_avcc nalu nalus []
    have hne : Flv.avcc (nalu :: nalus) ≠ [] := by
      intro hnil
      rw [hnil, List.length_nil] at hlen
      omega
    rw [List.append_nil] at hread hdrop
    rw [List.append_nil] at hdrop
    rw [avccAccepted, if_neg hne, if_neg (by omega), hread, List.forall_mem_cons, ← ih h]
    simp only [hdrop, Bool.and_eq_true, decide_eq_true_eq]

theorem avccNalus_isSome {nalus : List (List UInt8)} (h : ∀ nalu ∈ nalus, nalu.length < 2 ^ 32)
    : (Flv.avccNalus (Flv.avcc nalus).length (Flv.avcc nalus)).isSome := by
  induction nalus with
  | nil =>
    rw [Flv.avccNalus]
    rfl
  | cons nalu nalus ih =>
    obtain ⟨hlt, h⟩ := List.forall_mem_cons.mp h
    have hlen := Flv.length_avcc_cons nalu nalus
    have hread := Flv.read4Bytes_avcc hlt nalus []
    have hdrop := Flv.drop_avcc nalu nalus []
    rw [List.append_nil] at hread hdrop
    rw [List.append_nil] at hdrop
    have hleft : ((Flv.avcc (nalu :: nalus)).length : Int) - 4 - nalu.length = (Flv.avcc nalus).length := by omega
    rw [Flv.avccNalus, if_neg (by omega), if_neg (by omega), hread]
    simp only
    split
    . rfl
    . rw [if_neg (by omega), hdrop, hleft]
      obtain ⟨found, hfound⟩ := Option.isSome_iff_exists.mp (ih h)
      rw [hfound]
      rfl

theorem acceptedAvccNalus_avcc {nalus : List (List UInt8)} (hne : nalus ≠ [])
    (h : ∀ nalu ∈ nalus, nalu.length < 2 ^ 32)
    : acceptedAvccNalus (Flv.avcc nalus)
        = some (if ∀ nalu ∈ nalus, nalu.length ≤ Flv.kMaxLen then some (nalus.map (startCode ++ ·)) else none) := by
  have hlen : 4 ≤ (Flv.avcc nalus).length := by
    cases nalus with
    | nil => exact absurd rfl hne
    | cons nalu nalus =>
      rw [Flv.length_avcc_cons]
      omega
  have haccepted := avccAccepted_avcc h
  obtain ⟨found, hfound⟩ := Option.isSome_iff_exists.mp (avccNalus_isSome h)
  unfold acceptedAvccNalus
  by_cases hall : ∀ nalu ∈ nalus, nalu.length ≤ Flv.kMaxLen
  . have hnalus := Flv.avcc2Nalus_avcc hall []
    rw [List.append_nil] at hnalus
    rw [hnalus, if_pos hall]
    simp only [Option.bind_eq_bind, Option.bind_some]
    rw [if_pos ⟨hlen, haccepted.mpr hall⟩]
    rfl
  . rw [Flv.avcc2Nalus, if_neg (by omega), hfound, if_neg hall]
    simp only [Option.bind_eq_bind, Option.bind_some]
    rw [if_neg (fun hboth => hall (haccepted.mp hboth.right))]
    rfl

theorem numSps_eq_iff {count : Nat} (h : count < 32) : 0xe0 ||| UInt8.ofNat count = 0xe1 ↔ count = 1 := by
  have hall : ∀ n : Fin 32, 0xe0 ||| UInt8.ofNat n.val = 0xe1 ↔ n.val = 1 := by decide
  apply hall ⟨count, h⟩

theorem getSpsPps_eq {front sps pps rest : List UInt8} (count : UInt8) (hfront : front.length = 4)
    (hsps : sps.length < 2 ^ 16) (hpps : pps.length < 2 ^ 16) {data : List UInt8}
    (hdata : data = front ++ ([0xff, 0xe1] ++ (write2Bytes sps.length ++ (sps ++ ([count] ++ (write2Bytes pps.length
      ++ (pps ++ rest)))))))
    : Flv.getSpsPpsFromExtraData data.length data = some (pps, sps) := by
  have hmark : data.getD 4 0 = 0xff ∧ data.getD 5 0 = 0xe1 := by
    rw [hdata]
    simp [List.getElem?_append_right, hfront]
  have hlen : data.length ≠ 0 := by
    rw [hdata]
    simp
  have hbody : data.drop 6 = write2Bytes sps.length ++ (sps ++ ([count] ++ (write2Bytes pps.length ++ (pps ++ rest)))) := by
    rw [hdata, ← List.append_assoc]
    apply List.drop_left'
    simp [hfront]
  have hspsRest (tail : List UInt8) : (write2Bytes sps.length ++ tail).drop 2 = tail :=
    List.drop_left' (length_write2Bytes _)
  have hppsRest (tail : List UInt8) : (write2Bytes pps.length ++ tail).drop 2 = tail :=
    List.drop_left' (length_write2Bytes _)
  have hskip (tail : List UInt8) : (sps ++ ([count] ++ tail)).drop (sps.length + 1) = tail := by
    rw [← List.append_assoc]
    apply List.drop_left'
    simp
  have hspsLen (tail : List UInt8) : read2Bytes (write2Bytes sps.length ++ tail) = sps.length := by
    rw [read2Bytes_write2Bytes]
    omega
  have hppsLen (tail : List UInt8) : read2Bytes (write2Bytes pps.length ++ tail) = pps.length := by
    rw [read2Bytes_write2Bytes]
    omega
  unfold Flv.getSpsPpsFromExtraData
  rw [if_neg hlen, if_neg fun hbad => hbad.right.elim (fun h => h hmark.left) fun h => h hmark.right]
  simp only [hbody, hspsLen, hspsRest, hskip, hppsLen, hppsRest, List.take_left, List.length_append, length_write2Bytes]
  rw [if_pos ⟨trivial, Nat.le_add_right _ _, trivial⟩]

/--
A record is read within its bytes, also one with more than one SPS, which is refused.
-/
theorem getSpsPps_avcRecord {profile rest : List UInt8} {spss ppss : List (List UInt8)}
    (h : (H264Body.record profile spss ppss rest).WellFormed)
    : ∃ sets, Flv.getSpsPpsFromExtraData (avcRecord profile spss ppss rest).length (avcRecord profile spss ppss rest)
        = some sets := by
  obtain ⟨hprofile, ⟨hsps, hcount⟩, ⟨hpps, _⟩, hfit⟩ := h
  have hlt (set : List UInt8) (hset : set ∈ spss ++ ppss) : set.length < 2 ^ 16 :=
    Nat.lt_of_le_of_lt (hfit set hset) (by decide)
  by_cases hone : spss.length = 1
  . obtain ⟨sps, rfl⟩ := List.length_eq_one_iff.mp hone
    obtain ⟨pps, ppss, rfl⟩ := List.exists_cons_of_ne_nil hpps
    have hfront : ([1] ++ profile).length = 4 := by simp [hprofile]
    have hdata : avcRecord profile [sps] (pps :: ppss) rest = ([1] ++ profile) ++ ([0xff, 0xe1]
        ++ (write2Bytes sps.length ++ (sps ++ ([UInt8.ofNat (ppss.length + 1)] ++ (write2Bytes pps.length
          ++ (pps ++ (ppss.flatMap (fun pps => write2Bytes pps.length ++ pps) ++ rest))))))) := by
      simp [avcRecord]
      decide
    exact ⟨_, getSpsPps_eq _ hfront (hlt sps (by simp)) (hlt pps (by simp)) hdata⟩
  . have hmark : (avcRecord profile spss ppss rest).getD 5 0 ≠ 0xe1 := by
      have hbyte : (avcRecord profile spss ppss rest).getD 5 0 = 0xe0 ||| UInt8.ofNat spss.length := by
        obtain ⟨a, b, c, rfl⟩ := List.length_eq_three.mp hprofile
        rfl
      rw [hbyte, ne_eq, numSps_eq_iff hcount]
      exact hone
    have hlen : 4 < (avcRecord profile spss ppss rest).length := by
      simp only [avcRecord, List.length_append, List.length_cons, hprofile]
      omega
    unfold Flv.getSpsPpsFromExtraData
    rw [if_neg (by omega), if_pos ⟨hlen, Or.inr hmark⟩]
    exact ⟨_, rfl⟩

theorem readData_front (u : Unwritten) (front rest : List UInt8)
    : readData u (front ++ rest) 0 front.length = front := by
  apply List.ext_getElem
  . simp [readData]
  . intro i h1 h2
    simp [readData, List.getElem?_append_left h2, List.getElem?_eq_getElem h2]

end Forms

section Steps

variable {c : CodecState} {kept : Kept} {sets : LatestSets} {p : H264Packet}

theorem readData_record (u : Unwritten) {profile : List UInt8} (h : profile.length = 3) (tail : List UInt8)
    : readData u ([1] ++ (profile ++ tail)) 0 4 ≠ startCode := by
  have hread := readData_front u ([1] ++ profile) tail
  have hlen : ([1] ++ profile).length = 4 := by simp [h]
  rw [hlen, List.append_assoc] at hread
  rw [hread]
  intro heq
  cases heq

theorem readData_avcc (u : Unwritten) {nalu : List UInt8} (hlt : nalu.length < 2 ^ 32) (hne : nalu.length ≠ 1)
    (nalus : List (List UInt8))
    : readData u (Flv.avcc (nalu :: nalus)) 0 4 ≠ startCode := by
  have hsplit := Flv.avcc_cons_append nalu nalus []
  have hread := readData_front u (write4Bytes nalu.length) (nalu ++ (Flv.avcc nalus ++ []))
  rw [← hsplit, List.append_nil, length_write4Bytes] at hread
  rw [hread]
  intro heq
  have hlen := read4Bytes_write4Bytes_of_lt hlt
  rw [heq] at hlen
  exact hne hlen.symm

theorem readData_stream (u : Unwritten) {first : CodedNalu} (h : first.long) (units : List CodedNalu)
    : readData u (stream (first :: units)) 0 4 = startCode := by
  have hcode : first.code = startCode := if_pos h
  rw [stream_cons, CodedNalu.bytes, hcode, List.append_assoc]
  apply readData_front u startCode

theorem Kept.Detects.isAnnexb (u : Unwritten) {units : List CodedNalu} (h : c.Keeps kept) (hne : units ≠ [])
    (hdetects : kept.Detects units)
    : (c.isAnnexb || decide (readData u (stream units) 0 4 = startCode)) = true := by
  rw [h.isAnnexb]
  rcases hdetects with hannexb | hlong
  . rw [hannexb]
    rfl
  . obtain ⟨first, units, rfl⟩ := List.exists_cons_of_ne_nil hne
    rw [decide_eq_true (readData_stream u (hlong first rfl) units), Bool.or_true]

theorem handleH264_record (u : Unwritten) (h : c.Keeps kept) (hkept : kept.isAnnexb = false)
    {profile rest : List UInt8} {spss ppss : List (List UInt8)} (hbody : p.body = .record profile spss ppss rest)
    : ∃ ret frames c', c.handleH264 u p.packet = some (ret, frames, c')
        ∧ p.body.Writes sets (frames.map MediaPacket.data) ∧ c'.Keeps (kept.next p.body) := by
  have hwf := p.wellFormed
  have hdata : p.packet.data = avcRecord profile spss ppss rest := congrArg H264Body.bytes hbody
  have hhdr : p.packet.isSeqHdr := congrArg H264Body.isSeqHdr hbody
  rw [hbody] at hwf
  obtain ⟨found, hfound⟩ := getSpsPps_avcRecord hwf
  have hread : readData u (avcRecord profile spss ppss rest) 0 4 ≠ startCode := readData_record u hwf.left _
  have hnot : (c.isAnnexb || decide (readData u p.packet.data 0 4 = startCode)) = false := by
    rw [h.isAnnexb, hkept, hdata, decide_eq_false hread]
    rfl
  unfold CodecState.handleH264
  simp only [hnot]
  rw [if_pos hhdr, CodecState.handleH264SeqHdr, if_neg Bool.false_ne_true, hdata, hfound, hbody]
  refine ⟨0, [], _, rfl, rfl, hkept.symm, ?_, ?_⟩
  . rintro _ ⟨⟩
  . rintro _ ⟨⟩

theorem handleH264_avcc (u : Unwritten) (h : c.Keeps kept) (hkept : kept.isAnnexb = false) {units : List CodedNalu}
    (hbody : p.body = .avcc units) (hcan : p.body.CanWrite sets kept)
    : ∃ ret frames c', c.handleH264 u p.packet = some (ret, frames, c')
        ∧ p.body.Writes sets (frames.map MediaPacket.data) ∧ c'.Keeps (kept.next p.body) := by
  have hwf := p.wellFormed
  have hdata : p.packet.data = Flv.avcc (units.map CodedNalu.nalu) := congrArg H264Body.bytes hbody
  have hhdr : ¬p.packet.isSeqHdr := by
    rw [show p.packet.isSeqHdr = p.body.isSeqHdr from rfl, hbody]
    exact Bool.false_ne_true
  rw [hbody] at hwf hcan
  obtain ⟨hne, hunits, _⟩ := hwf
  obtain ⟨hfirst, hcan⟩ := hcan
  have hlt : ∀ nalu ∈ units.map CodedNalu.nalu, nalu.length < 2 ^ 32 := by
    intro nalu hnalu
    obtain ⟨u, hu, rfl⟩ := List.mem_map.mp hnalu
    exact (hunits u hu).right
  have hnot : (c.isAnnexb || decide (readData u p.packet.data 0 4 = startCode)) = false := by
    obtain ⟨first, tail, rfl⟩ := List.exists_cons_of_ne_nil hne
    have hread := readData_avcc u (hlt first.nalu List.mem_cons_self) (hfirst first rfl) (tail.map CodedNalu.nalu)
    rw [h.isAnnexb, hkept, hdata, List.map_cons, decide_eq_false hread]
    rfl
  have hnalus := acceptedAvccNalus_avcc (by simpa using hne) hlt
  have hkeeps : CodecState.Keeps { c with isAnnexb := false } kept := ⟨hkept.symm, h.sps, h.pps⟩
  have hcoded : (units.map CodedNalu.nalu).map (startCode ++ ·) = units.map CodedNalu.bytes := by
    rw [List.map_map]
    apply List.map_congr_left
    intro u hu
    unfold CodedNalu.bytes CodedNalu.code
    rw [if_pos (hunits u hu).left]
    rfl
  have haccepted : (∀ nalu ∈ units.map CodedNalu.nalu, nalu.length ≤ Flv.kMaxLen) ↔ Accepted units := by
    simp [Accepted]
  unfold CodecState.handleH264
  simp only [hnot]
  rw [if_neg hhdr, if_neg Bool.false_ne_true, hdata, hnalus, hcoded, hbody]
  unfold Kept.next
  simp only [Option.bind_eq_bind, Option.bind_some, haccepted]
  by_cases hall : Accepted units
  . obtain ⟨frames, c', hframes, hwrites, hkeeps'⟩ := handleH264Nalus_writes p.packet units hkeeps (hcan hall)
    rw [if_pos hall, if_pos hall]
    simp only [hframes]
    exact ⟨0, frames, c', rfl, hwrites, hkeeps'⟩
  . rw [if_neg hall, if_neg hall]
    exact ⟨-1, [], _, rfl, writes_nil sets units, hkeeps⟩

theorem handleH264_header (u : Unwritten) (h : c.Keeps kept) {units : List CodedNalu} (hbody : p.body = .header units)
    (hcan : p.body.CanWrite sets kept)
    : ∃ ret frames c', c.handleH264 u p.packet = some (ret, frames, c')
        ∧ p.body.Writes sets (frames.map MediaPacket.data) ∧ c'.Keeps (kept.next p.body) := by
  have hwf := p.wellFormed
  have hdata : p.packet.data = stream units := congrArg H264Body.bytes hbody
  have hhdr : p.packet.isSeqHdr := congrArg H264Body.isSeqHdr hbody
  rw [hbody] at hwf hcan
  have hyes := hcan.left.isAnnexb u h hwf.left
  obtain ⟨first, tail, rfl⟩ := List.exists_cons_of_ne_nil hwf.left
  have hpos : getNaluTypePos (stream (first :: tail)) = some first.code.length := by
    rw [stream_cons]
    apply first.getNaluTypePos_append
  have htype : nalType ((stream (first :: tail)).getD first.code.length 0) = first.type := by
    rw [stream_cons]
    apply first.nalType_append
  have hkeeps : CodecState.Keeps { c with isAnnexb := true } kept.detected := ⟨rfl, h.sps, h.pps⟩
  unfold CodecState.handleH264
  simp only [hdata, hyes]
  rw [if_pos hhdr, CodecState.handleH264SeqHdr, if_pos rfl, hpos, hbody]
  simp only [Option.bind_eq_bind, Option.bind_some, htype]
  by_cases hpps : first.type = naluTypePps
  . rw [if_pos hpps]
    exact ⟨0, [], _, rfl, rfl, hkeeps.pps_fill hpps tail⟩
  . rw [if_neg hpps]
    by_cases hsps : first.type = naluTypeSps
    . rw [if_pos hsps]
      exact ⟨0, [], _, rfl, rfl, hkeeps.sps_fill hsps tail⟩
    . rw [if_neg hsps]
      refine ⟨0, [], _, rfl, rfl, ?_⟩
      unfold Kept.next
      simp only
      rw [fill_of_ne ⟨hpps, hsps⟩]
      exact hkeeps

theorem handleH264_annexb (u : Unwritten) (h : c.Keeps kept) {units : List CodedNalu} (hbody : p.body = .annexb units)
    (hcan : p.body.CanWrite sets kept)
    : ∃ ret frames c', c.handleH264 u p.packet = some (ret, frames, c')
        ∧ p.body.Writes sets (frames.map MediaPacket.data) ∧ c'.Keeps (kept.next p.body) := by
  have hwf := p.wellFormed
  have hdata : p.packet.data = stream units := congrArg H264Body.bytes hbody
  have hhdr : ¬p.packet.isSeqHdr := by
    rw [show p.packet.isSeqHdr = p.body.isSeqHdr from rfl, hbody]
    exact Bool.false_ne_true
  rw [hbody] at hwf hcan
  have hyes := hcan.left.isAnnexb u h hwf.left
  have hkeeps : CodecState.Keeps { c with isAnnexb := true } kept.detected := ⟨rfl, h.sps, h.pps⟩
  obtain ⟨frames, c', hframes, hwrites, hkeeps'⟩ := handleH264Nalus_writes p.packet units hkeeps hcan.right
  unfold CodecState.handleH264
  simp only [hdata, hyes]
  rw [if_neg hhdr, if_pos trivial, annexB2Nalus_stream hwf.left hwf.right.left, hbody]
  simp only [Option.bind_eq_bind, Option.bind_some, hframes]
  exact ⟨0, frames, c', rfl, hwrites, hkeeps'⟩

theorem handleH264_writes (u : Unwritten) (h : c.Keeps kept) (hform : p.body.isAnnexb = false → kept.isAnnexb = false)
    (hcan : p.body.CanWrite sets kept)
    : ∃ ret frames c', c.handleH264 u p.packet = some (ret, frames, c')
        ∧ p.body.Writes sets (frames.map MediaPacket.data) ∧ c'.Keeps (kept.next p.body) := by
  cases hbody : p.body with
  | record profile spss ppss rest =>
    rw [← hbody]
    apply handleH264_record u h (hform (by rw [hbody]; rfl)) hbody
  | avcc units =>
    rw [← hbody]
    apply handleH264_avcc u h (hform (by rw [hbody]; rfl)) hbody hcan
  | header units =>
    rw [← hbody]
    apply handleH264_header u h hbody hcan
  | annexb units =>
    rw [← hbody]
    apply handleH264_annexb u h hbody hcan

end Steps

section Runs

theorem isAnnexb_fill (kept : Kept) (units : List CodedNalu) : (kept.fill units).isAnnexb = kept.isAnnexb := by
  cases units with
  | nil => rfl
  | cons u units =>
    unfold Kept.fill
    simp only
    split
    . rfl
    . split
      all_goals rfl

theorem isAnnexb_fillEach (kept : Kept) (units : List CodedNalu) : (kept.fillEach units).isAnnexb = kept.isAnnexb := by
  induction units generalizing kept with
  | nil => rfl
  | cons u units ih => exact (ih _).trans (isAnnexb_fill kept [u])

theorem isAnnexb_next {kept : Kept} {body : H264Body} (hform : body.isAnnexb = false) (h : kept.isAnnexb = false)
    : (kept.next body).isAnnexb = false := by
  cases body with
  | record profile spss ppss rest => exact h
  | avcc units =>
    unfold Kept.next
    simp only
    split
    . exact (isAnnexb_fillEach kept units).trans h
    . exact h
  | header units => cases hform
  | annexb units => cases hform

theorem CodecState.Keeps.run {c : CodecState} {kept : Kept} {sets : LatestSets} (h : c.Keeps kept) (annexb : Bool)
    (hkept : annexb = false → kept.isAnnexb = false) {pkts : List (Unwritten × H264Packet)}
    (hform : ∀ pkt ∈ pkts, pkt.2.body.isAnnexb = annexb)
    (hcan : AllCanWrite sets kept (pkts.map fun pkt => pkt.2.body))
    : c.KeyFrames sets pkts := by
  induction pkts generalizing c kept sets with
  | nil => trivial
  | cons pkt pkts ih =>
    obtain ⟨u, p⟩ := pkt
    obtain ⟨hfirst, hform⟩ := List.forall_mem_cons.mp hform
    obtain ⟨hwrite, hcan⟩ := hcan
    have hkeptFirst : p.body.isAnnexb = false → kept.isAnnexb = false := fun hnot => hkept (hfirst.symm.trans hnot)
    obtain ⟨ret, frames, c', hhandle, hwrites, hkeeps⟩ := handleH264_writes u h hkeptFirst hwrite
    refine ⟨ret, frames, c', hhandle, hwrites, ?_⟩
    apply ih hkeeps ?_ hform hcan
    intro hnot
    apply isAnnexb_next (hfirst.trans hnot) (hkept hnot)

end Runs

theorem keyFrames (pkts : List (Unwritten × H264Packet)) (annexb : Bool)
    (hform : ∀ pkt ∈ pkts, pkt.2.body.isAnnexb = annexb) (h : AllCanWrite {} {} (pkts.map fun pkt => pkt.2.body))
    : CodecState.KeyFrames {} {} pkts := by
  apply keeps_init.run annexb ?_ hform h
  intro _
  rfl

def sampleSps : CodedNalu := ⟨true, [0x67, 0x42, 0x80, 0x1e], by decide⟩

def samplePps : CodedNalu := ⟨true, [0x68, 0xce], by decide⟩

def sampleIdr : CodedNalu := ⟨true, [0x65, 0x88], by decide⟩

/--
The parameter sets in a header of their own each.
-/
theorem keyFrames_headers
    : CodecState.KeyFrames {} {} [(⟨fun _ => 0, fun _ => 0⟩, ⟨{}, .header [sampleSps], by decide⟩),
        (⟨fun _ => 0, fun _ => 0⟩, ⟨{}, .header [samplePps], by decide⟩),
        (⟨fun _ => 0, fun _ => 0⟩, ⟨{}, .annexb [sampleIdr], by decide⟩)] := by
  apply keyFrames _ true
  . simp [H264Body.isAnnexb]
  . have hlong (u : CodedNalu) (h : u.long) : ∀ v ∈ [u].head?, v.long := by simpa using h
    refine ⟨⟨Or.inr (hlong sampleSps rfl), by decide⟩, ⟨Or.inl rfl, by decide⟩, ⟨Or.inl rfl, ?_, trivial⟩, trivial⟩
    intro _
    exact ⟨_, _, _, _, ⟨rfl, rfl⟩, ⟨rfl, rfl⟩, rfl⟩

def sampleRecord : H264Packet := ⟨{}, .record [0x42, 0x80, 0x1e] [sampleSps.nalu] [samplePps.nalu] [], by decide⟩

def sampleFrame : H264Packet := ⟨{}, .avcc [sampleIdr], by decide⟩

theorem handleH264_sampleRecord
    : CodecState.handleH264 ⟨fun _ => 0, fun _ => 0⟩ {} sampleRecord.packet
        = some (0, [], { sps := sampleSps.nalu, pps := samplePps.nalu }) := rfl

theorem handleH264_sampleFrame
    : ∃ c', CodecState.handleH264 ⟨fun _ => 0, fun _ => 0⟩ { sps := sampleSps.nalu, pps := samplePps.nalu }
          sampleFrame.packet
        = some (0, [{ sampleFrame.packet with
            data := h264AudData ++ (sampleSps.nalu ++ samplePps.nalu) ++ sampleIdr.bytes }], c') := by
  have hnalus : acceptedAvccNalus sampleFrame.packet.data = some (some [sampleIdr.bytes]) := by
    apply (acceptedAvccNalus_avcc (List.cons_ne_nil _ _) (by decide)).trans
    rfl
  have hread : ¬readData ⟨fun _ => 0, fun _ => 0⟩ sampleFrame.packet.data 0 4 = startCode := by decide
  have hhdr : ¬sampleFrame.packet.isSeqHdr := by decide
  unfold CodecState.handleH264
  simp only [hread, decide_false, Bool.or_false]
  rw [if_neg hhdr, if_neg Bool.false_ne_true, hnalus]
  exact ⟨_, rfl⟩

/--
The parameter sets in a record: the key frame has no start codes in front of them.
-/
theorem not_keyFrames
    : ¬CodecState.KeyFrames {} {} [(⟨fun _ => 0, fun _ => 0⟩, sampleRecord), (⟨fun _ => 0, fun _ => 0⟩, sampleFrame)] := by
  rintro ⟨ret, frames, c', hrecord, _, ret', frames', c'', hframe, hwrites, _⟩
  rw [handleH264_sampleRecord] at hrecord
  cases hrecord
  obtain ⟨c', hvalue⟩ := handleH264_sampleFrame
  rw [hvalue] at hframe
  cases hframe
  rcases hwrites with hnone | ⟨_, payload, payloads, hpayloads, hpayload, _⟩
  . cases hnone
  . cases hpayloads
    obtain ⟨sps, pps, ⟨hsps, hpps⟩, hstream⟩ := hpayload
    cases hsps
    cases hpps
    exact absurd hstream.length_le (by decide)

end MpegTs
