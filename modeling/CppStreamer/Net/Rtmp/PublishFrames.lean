import CppStreamer.Format.AnnexB
import CppStreamer.Net.Rtmp.Publish

/-!
This module contains what `RtmpPublish::HandleVideoData` publishes for a sequence of raw H.264 packets, and for which of
them this is what a player expects.
-/

open ByteStream Checked

namespace Rtmp

section Messages

/--
A raw packet of H.264 with its NALUs.
-/
structure RawPacket where
  properties : SharedPacket
  units : List H264.CodedNalu
  two_le : ∀ u ∈ units, 2 ≤ u.nalu.length
  plain : ∀ u ∈ units, H264.Plain u.nalu

namespace RawPacket

def packet (r : RawPacket) : SharedPacket :=
  { r.properties with
    avType := .video
    codecType := .h264
    fmtType := .raw
    data := H264.stream r.units }

/--
Each NALU goes with its packet.
-/
def nalus (r : RawPacket) : List (SharedPacket × H264.CodedNalu) := r.units.map fun u => (r.packet, u)

end RawPacket

/--
The tag of a video message: the type of the frame and the codec, the type of the packet, and the composition time.
-/
def avcTag (key : Bool) (packetType : UInt8) (p : SharedPacket) : List UInt8 :=
  [if key then 0x17 else 0x27, packetType] ++ write3Bytes (p.pts - p.dts).toNat

/--
A video message with the times of the packet.
-/
structure IsVideo (p m : SharedPacket) : Prop where
  avType : m.avType = .video
  fmtType : m.fmtType = .flv
  dts : m.dts = p.dts
  pts : m.pts = p.pts

structure IsFrame (p : SharedPacket) (u : H264.CodedNalu) (m : SharedPacket) : Prop extends IsVideo p m where
  data : m.data = avcTag (u.type = H264.naluTypeIdr) 1 p ++ (write4Bytes u.nalu.length ++ u.nalu)

/--
A sequence header is a record with one SPS and one PPS.
-/
structure IsSeqHdr (p : SharedPacket) (sps pps : List UInt8) (m : SharedPacket) : Prop extends IsVideo p m where
  data : ∃ profile, profile.length = 3 ∧ m.data = avcTag true 0 p ++ ([1] ++ profile ++ [0xff, 0xe1]
    ++ write2Bytes sps.length ++ sps ++ [1] ++ write2Bytes pps.length ++ pps)

/--
Once there are both parameter sets, each frame is published as one message, and with it only sequence headers.
-/
def Publishes : H264.LatestSets → List (SharedPacket × H264.CodedNalu) → List SharedPacket → Prop
  | _, [], msgs => msgs = []
  | sets, (p, u) :: nalus, msgs =>
    match sets.forFrame u with
    | none => Publishes (sets.next u) nalus msgs
    | some (sps, pps) =>
      ∃ hdrs frame msgs', msgs = hdrs ++ frame :: msgs' ∧ (∀ hdr ∈ hdrs, IsSeqHdr p sps pps hdr) ∧ IsFrame p u frame
        ∧ Publishes sets nalus msgs'

/--
For each frame, the byte that comes as many bytes behind its first one as its start code has says the same about a key
frame as the first one, and the parameter sets in front of a key frame and of the first frame have at most 1013 bytes.
-/
def CanPublish : H264.LatestSets → Bool → List H264.CodedNalu → Prop
  | _, _, [] => True
  | sets, started, u :: units =>
    match sets.forFrame u with
    | none => CanPublish (sets.next u) started units
    | some (sps, pps) =>
      ((H264.nalType (u.nalu.getD u.code.length 0) = H264.naluTypeIdr ↔ u.type = H264.naluTypeIdr)
          ∧ (u.type = H264.naluTypeIdr ∨ started = false → sps.length + pps.length ≤ 1013))
        ∧ CanPublish sets true units

/--
The second byte of the tag tells a sequence header from a frame.
-/
theorem IsSeqHdr.packetType {p m : SharedPacket} {sps pps : List UInt8} (h : IsSeqHdr p sps pps m)
    : m.data.getD 1 0 = 0 := by
  obtain ⟨_, _, hdata⟩ := h.data
  rw [hdata]
  rfl

end Messages

namespace RtmpPublish

/--
The packets one after the other, each with its pointer.
-/
def handleVideoPackets (s : RtmpPublish × Packets) (pkts : List (Nat × RawPacket))
    : Checked CopyCheck (RtmpPublish × Packets) :=
  run (fun s pkt => handleVideoData s pkt.1 pkt.2.packet) s pkts

/--
No copy leaves its array, and what is published is what the NALUs of the packets ask for.
-/
def Frames (pkts : List (Nat × RawPacket)) : Prop :=
  (handleVideoPackets ({}, []) pkts).Passes CopyCheck.Holds
    ∧ Publishes {} (pkts.flatMap fun pkt => pkt.2.nalus) (handleVideoPackets ({}, []) pkts).value.2

/--
The parameter sets are not longer than their arrays.
-/
def SetsFit (units : List H264.CodedNalu) : Prop :=
  ∀ u ∈ units, u.type = H264.naluTypeSps ∨ u.type = H264.naluTypePps → u.nalu.length ≤ setSize

instance (units : List H264.CodedNalu) : Decidable (SetsFit units) :=
  inferInstanceAs (Decidable (∀ u ∈ units, _ → _))

section Caches

/--
What a cache holds of the latest parameter set.
-/
structure Cached (c : ParameterSet) (set : Option (List UInt8)) : Prop where
  length : c.array.length = setSize
  len : c.len = (set.map fun bytes => (bytes.length : Int)).getD (-1)
  array : ∀ bytes ∈ set, c.array.take bytes.length = bytes

structure Caches (s : RtmpPublish) (sets : H264.LatestSets) (started : Bool) : Prop where
  sps : Cached s.sps sets.sps
  pps : Cached s.pps sets.pps
  firstVideo : s.firstVideo = started

theorem caches_new : ({} : RtmpPublish).Caches {} false where
  sps := ⟨List.length_replicate, rfl, by simp⟩
  pps := ⟨List.length_replicate, rfl, by simp⟩
  firstVideo := rfl

variable {c : ParameterSet} {set : Option (List UInt8)} {bytes : List UInt8}

theorem Cached.len_lt_iff (h : Cached c set) : c.len < 0 ↔ set = none := by
  rw [h.len]
  cases set with
  | none => simp
  | some bytes => simp

theorem Cached.toNat_len (h : Cached c (some bytes)) : c.len.toNat = bytes.length := by
  rw [h.len]
  simp

theorem Cached.within (h : Cached c set) : c.Within setSize where
  length := h.length
  len_le := by
    rw [h.len]
    cases set with
    | none => decide
    | some bytes =>
      have htake := congrArg List.length (h.array bytes rfl)
      rw [List.length_take, h.length] at htake
      simp only [Option.map_some, Option.getD_some]
      omega

theorem cached_copy (h : c.array.length = setSize) (hlen : bytes.length ≤ setSize)
    : Cached (c.copy bytes).value (some bytes) where
  length := (ParameterSet.copy_within h hlen).length
  len := rfl
  array := by
    rintro _ ⟨⟩
    exact List.take_left

theorem getVideoExtradata_value {c' : ParameterSet} {sps pps : List UInt8} (hsps : Cached c (some sps))
    (hpps : Cached c' (some pps))
    : (getVideoExtradata c' c).value = [1] ++ [c.array.getD 1 0, c.array.getD 2 0, c.array.getD 3 0] ++ [0xff, 0xe1]
        ++ write2Bytes sps.length ++ sps ++ [1] ++ write2Bytes pps.length ++ pps := by
  unfold getVideoExtradata
  simp only [value_bind, Filling.put_value, Filling.memcpy_value, value_pure, hsps.toNat_len, hpps.toNat_len,
    List.drop_zero, hsps.array sps rfl, hpps.array pps rfl]
  simp

end Caches

section Steps

variable {s : RtmpPublish × Packets} {sets : H264.LatestSets} {started : Bool} {p : SharedPacket} {u : H264.CodedNalu}

theorem write3Bytes_tsDelta (dts pts : Int)
    : write3Bytes (if dts < pts then ((pts - dts) % 2 ^ 32).toNat else 0) = write3Bytes (pts - dts).toNat := by
  split
  . rw [← write3Bytes_mod, ← write3Bytes_mod (pts - dts).toNat]
    congr 1
    omega
  . congr 1
    omega

theorem sendVideo_isVideo {q : SharedPacket} (hroom : 5 ≤ q.room.length) (havType : q.avType = .video)
    (hcodec : q.codecType = .h264)
    : IsVideo q (sendVideo q)
        ∧ (sendVideo q).data = avcTag (q.isSeqHdr || q.isKeyFrame) (if q.isSeqHdr then 0 else 1) q ++ q.data := by
  cases hback : q.consumeBack 5 with
  | none =>
    rw [SharedPacket.consumeBack_isNone] at hback
    omega
  | some q' =>
    have hdata := SharedPacket.consumeBack_data hback
    unfold SharedPacket.consumeBack at hback
    rw [if_neg (Nat.not_lt.mpr hroom)] at hback
    cases hback
    unfold sendVideo SharedPacket.consumeBack
    rw [if_neg (Nat.not_lt.mpr hroom)]
    simp only [hcodec, Flv.FlvMuxer.videoCodec] at hdata ⊢
    rw [hdata, Flv.FlvMuxer.videoHeader, write3Bytes_tsDelta]
    refine ⟨⟨havType, rfl, rfl, rfl⟩, ?_⟩
    unfold avcTag
    cases q.isSeqHdr
    . cases q.isKeyFrame
      all_goals rfl
    . cases q.isKeyFrame
      all_goals rfl

/--
A new packet with the properties of the one that is handled has room for the tag.
-/
theorem sendVideo_copyProperties (havType : p.avType = .video) (hcodec : p.codecType = .h264) (seqHdr key : Bool)
    (bytes : List UInt8)
    : IsVideo p (sendVideo { p.copyProperties with isSeqHdr := seqHdr, isKeyFrame := key, data := bytes })
        ∧ (sendVideo { p.copyProperties with isSeqHdr := seqHdr, isKeyFrame := key, data := bytes }).data
          = avcTag (seqHdr || key) (if seqHdr then 0 else 1) p ++ bytes := by
  have hroom : 5 ≤ p.copyProperties.room.length := by
    unfold SharedPacket.copyProperties
    rw [List.length_replicate]
    omega
  obtain ⟨⟨hav, hfmt, hdts, hpts⟩, hdata⟩ := sendVideo_isVideo
    (q := { p.copyProperties with isSeqHdr := seqHdr, isKeyFrame := key, data := bytes }) hroom havType hcodec
  exact ⟨⟨hav, hfmt, hdts, hpts⟩, hdata⟩

theorem sendDueSeqHdr_value (h : s.1.Caches sets started) {sps pps : List UInt8} (hsps : sets.sps = some sps)
    (hpps : sets.pps = some pps) (havType : p.avType = .video) (hcodec : p.codecType = .h264) {naluType : UInt8}
    (hdue : naluType = H264.naluTypeIdr ∨ started = false)
    : ∃ hdr, (sendDueSeqHdr s naluType p).value = ({ s.1 with firstVideo := true }, s.2 ++ [hdr])
        ∧ IsSeqHdr p sps pps hdr := by
  have hdue' : naluType = H264.naluTypeIdr ∨ ¬s.1.firstVideo := by
    rw [h.firstVideo]
    simpa using hdue
  have hextra := getVideoExtradata_value (hsps ▸ h.sps) (hpps ▸ h.pps)
  unfold sendDueSeqHdr sendSeqHdr
  rw [if_pos hdue', value_bind, value_pure]
  refine ⟨_, rfl, ?_⟩
  generalize (getVideoExtradata s.1.pps s.1.sps).value = extraData at hextra ⊢
  obtain ⟨hvideo, hdata⟩ := sendVideo_copyProperties havType hcodec true false extraData
  refine ⟨hvideo, [s.1.sps.array.getD 1 0, s.1.sps.array.getD 2 0, s.1.sps.array.getD 3 0], rfl, ?_⟩
  rw [hdata, ← hextra]
  rfl

/--
A NALU that is not published goes to its cache, or nowhere.
-/
theorem handleNalu_of_none (h : s.1.Caches sets started) (hnone : sets.forFrame u = none)
    (hfit : u.type = H264.naluTypeSps ∨ u.type = H264.naluTypePps → u.nalu.length ≤ setSize)
    : (handleNalu p s u.bytes).Passes CopyCheck.Holds ∧ (handleNalu p s u.bytes).value.2 = s.2
        ∧ (handleNalu p s u.bytes).value.1.Caches (sets.next u) started := by
  unfold handleNalu H264.LatestSets.next
  simp only [u.getNaluTypePos_bytes, u.nalType_bytes, u.drop_bytes]
  by_cases hsps : u.type = H264.naluTypeSps
  . have hlen := hfit (Or.inl hsps)
    rw [if_pos hsps, if_pos hsps, passes_bind, value_bind, ParameterSet.copy_passes h.sps.length]
    exact ⟨⟨hlen, passes_pure _⟩, rfl, cached_copy h.sps.length hlen, h.pps, h.firstVideo⟩
  . rw [if_neg hsps, if_neg hsps]
    by_cases hpps : u.type = H264.naluTypePps
    . have hlen := hfit (Or.inr hpps)
      rw [if_pos hpps, if_pos hpps, passes_bind, value_bind, ParameterSet.copy_passes h.pps.length]
      exact ⟨⟨hlen, passes_pure _⟩, rfl, h.sps, cached_copy h.pps.length hlen, h.firstVideo⟩
    . rw [if_neg hpps, if_neg hpps]
      by_cases haud : u.type = H264.naluTypeAud
      . rw [if_pos haud]
        exact ⟨passes_pure _, rfl, h⟩
      . have hmissing : s.1.pps.len < 0 ∨ s.1.sps.len < 0 := by
          rw [h.pps.len_lt_iff, h.sps.len_lt_iff]
          unfold H264.LatestSets.forFrame at hnone
          rw [if_neg (by simp [hsps, hpps, haud])] at hnone
          cases hs : sets.sps with
          | none => exact Or.inr rfl
          | some sps =>
            cases hp : sets.pps with
            | none => exact Or.inl rfl
            | some pps => simp [hs, hp] at hnone
        rw [if_neg haud, if_pos hmissing]
        exact ⟨passes_pure _, rfl, h⟩

theorem forFrame_eq_some {sps pps : List UInt8} (h : sets.forFrame u = some (sps, pps))
    : (u.type ≠ H264.naluTypeSps ∧ u.type ≠ H264.naluTypePps ∧ u.type ≠ H264.naluTypeAud)
        ∧ sets.sps = some sps ∧ sets.pps = some pps := by
  unfold H264.LatestSets.forFrame at h
  split at h
  . cases h
  . next htype =>
    split at h
    . next hsps hpps =>
      cases h
      simp only [not_or] at htype
      exact ⟨htype, hsps, hpps⟩
    . cases h

/--
A frame is published behind the sequence header that is due, with the flag that the code reads for it.
-/
theorem handleNalu_of_some (h : s.1.Caches sets started) {sps pps : List UInt8}
    (hsome : sets.forFrame u = some (sps, pps)) (havType : p.avType = .video) (hcodec : p.codecType = .h264)
    : ((handleNalu p s u.bytes).Passes CopyCheck.Holds
          ↔ (u.type = H264.naluTypeIdr ∨ started = false → sps.length + pps.length ≤ 1013))
        ∧ ∃ hdrs frame, (handleNalu p s u.bytes).value.2 = s.2 ++ (hdrs ++ [frame])
          ∧ (∀ hdr ∈ hdrs, IsSeqHdr p sps pps hdr)
          ∧ IsVideo p frame ∧ frame.data = avcTag (H264.nalType (u.nalu.getD u.code.length 0) = H264.naluTypeIdr) 1 p
            ++ (write4Bytes u.nalu.length ++ u.nalu)
          ∧ (handleNalu p s u.bytes).value.1.Caches sets true := by
  obtain ⟨⟨hnotSps, hnotPps, hnotAud⟩, hsps, hpps⟩ := forFrame_eq_some hsome
  have hspsCached : Cached s.1.sps (some sps) := hsps ▸ h.sps
  have hppsCached : Cached s.1.pps (some pps) := hpps ▸ h.pps
  have hboth : ¬(s.1.pps.len < 0 ∨ s.1.sps.len < 0) := by
    rw [hppsCached.len_lt_iff, hspsCached.len_lt_iff]
    simp
  have hflag : u.bytes.getD (2 * u.code.length) 0 = u.nalu.getD u.code.length 0 := by
    rw [Nat.two_mul, u.getD_bytes]
  have hlen : u.bytes.length - u.code.length = u.nalu.length := by
    rw [u.length_bytes, Nat.add_sub_cancel_left]
  have hdue : (u.type = H264.naluTypeIdr ∨ ¬s.1.firstVideo) ↔ (u.type = H264.naluTypeIdr ∨ started = false) := by
    rw [h.firstVideo]
    simp
  unfold handleNalu
  simp only [u.getNaluTypePos_bytes, u.nalType_bytes, u.drop_bytes, hflag, hlen]
  rw [if_neg hnotSps, if_neg hnotPps, if_neg hnotAud, if_neg hboth, passes_bind, value_bind, value_pure,
    sendDueSeqHdr_passes ⟨hspsCached.within, hppsCached.within⟩, hdue, hspsCached.toNat_len, hppsCached.toNat_len,
    and_iff_left (passes_pure _)]
  refine ⟨Iff.rfl, ?_⟩
  obtain ⟨hvideo, hdata⟩ := sendVideo_copyProperties havType hcodec false
    (decide (H264.nalType (u.nalu.getD u.code.length 0) = H264.naluTypeIdr)) (write4Bytes u.nalu.length ++ u.nalu)
  by_cases hheader : u.type = H264.naluTypeIdr ∨ started = false
  . obtain ⟨hdr, hvalue, hseq⟩ := sendDueSeqHdr_value h hsps hpps havType hcodec hheader
    rw [hvalue]
    refine ⟨[hdr], _, List.append_assoc _ _ _, ?_, hvideo, ?_, h.sps, h.pps, rfl⟩
    . simpa using hseq
    . rw [hdata, Bool.false_or]
      rfl
  . rw [sendDueSeqHdr, if_neg (hdue.not.mpr hheader)]
    refine ⟨[], _, rfl, by simp, hvideo, ?_, h.sps, h.pps, ?_⟩
    . rw [hdata, Bool.false_or]
      rfl
    . exact h.firstVideo.trans (eq_true_of_ne_false (not_or.mp hheader).right)

end Steps

section Runs

variable {s : RtmpPublish × Packets} {sets : H264.LatestSets} {started : Bool} {p : SharedPacket} {u : H264.CodedNalu}

def handleNalus (s : RtmpPublish × Packets) (nalus : List (SharedPacket × H264.CodedNalu))
    : Checked CopyCheck (RtmpPublish × Packets) :=
  run (fun s nalu => handleNalu nalu.1 s nalu.2.bytes) s nalus

theorem handleVideoData_packet (s : RtmpPublish × Packets) (ptr : Nat) (r : RawPacket)
    : handleVideoData s ptr r.packet = handleNalus s r.nalus := by
  unfold handleNalus RawPacket.nalus
  rw [run_map]
  have hmap : run (handleNalu r.packet) s (r.units.map H264.CodedNalu.bytes)
      = run (fun s u => handleNalu r.packet s u.bytes) s r.units := run_map _ s r.units
  refine Eq.trans ?_ hmap
  cases hunits : r.units with
  | nil =>
    have hdata : r.packet.data.length < 5 := by simp [RawPacket.packet, H264.stream, hunits]
    rw [handleVideoData, if_pos hdata]
    rfl
  | cons u units =>
    have hne : r.units ≠ [] := by simp [hunits]
    have hdata : ¬r.packet.data.length < 5 := by
      have hcode := u.code_length_pos
      have hnalu := r.two_le u (by simp [hunits])
      simp only [RawPacket.packet, hunits, H264.stream_cons, List.length_append, u.length_bytes]
      omega
    have hnot : ¬(r.packet.isSeqHdr ∧ r.packet.fmtType = .flv) := by
      rintro ⟨_, hflv⟩
      cases hflv
    have hcut : H264.annexB2Nalus r.packet.data = some (r.units.map H264.CodedNalu.bytes) :=
      H264.annexB2Nalus_stream hne r.plain
    rw [handleVideoData, if_neg hdata, if_neg hnot, hcut, hunits]

theorem handleVideoPackets_eq (s : RtmpPublish × Packets) (pkts : List (Nat × RawPacket))
    : ((handleVideoPackets s pkts).Passes CopyCheck.Holds
          ↔ (handleNalus s (pkts.flatMap fun pkt => pkt.2.nalus)).Passes CopyCheck.Holds)
        ∧ (handleVideoPackets s pkts).value = (handleNalus s (pkts.flatMap fun pkt => pkt.2.nalus)).value := by
  unfold handleVideoPackets
  simp only [handleVideoData_packet]
  apply run_flatMap

theorem handleNalus_isPrefix (s : RtmpPublish × Packets) (nalus : List (SharedPacket × H264.CodedNalu))
    : s.2 <+: (handleNalus s nalus).value.2 := by
  apply run_keeps (fun s' : RtmpPublish × Packets => s.2 <+: s'.2) (fun _ _ => True)
    (fun s' nalu hs' _ => handleNalu_isPrefix hs' nalu.2.bytes) List.prefix_rfl
  rw [runMeets_iff_forall]
  exact fun _ _ => trivial

/--
What there is in front of the first element without a property, and behind it, can be told from the list.
-/
theorem split_unique {α : Type} {P : α → Prop} {as as' bs bs' : List α} {b b' : α} (has : ∀ a ∈ as, P a) (hb : ¬P b)
    (has' : ∀ a ∈ as', P a) (hb' : ¬P b') (h : as ++ b :: bs = as' ++ b' :: bs')
    : as = as' ∧ b = b' ∧ bs = bs' := by
  induction as generalizing as' with
  | nil =>
    cases as' with
    | nil =>
      obtain ⟨rfl, rfl⟩ := List.cons.inj h
      exact ⟨rfl, rfl, rfl⟩
    | cons a' as' =>
      obtain ⟨rfl, _⟩ := List.cons.inj h
      exact absurd (has' _ List.mem_cons_self) hb
  | cons a as ih =>
    cases as' with
    | nil =>
      obtain ⟨rfl, _⟩ := List.cons.inj h
      exact absurd (has _ List.mem_cons_self) hb'
    | cons a' as' =>
      obtain ⟨rfl, htail⟩ := List.cons.inj h
      obtain ⟨rfl, rest⟩ := ih (fun a ha => has a (List.mem_cons_of_mem _ ha))
        (fun a ha => has' a (List.mem_cons_of_mem _ ha)) htail
      exact ⟨rfl, rest⟩

theorem packetType_frame {key : Bool} {body : List UInt8} {m : SharedPacket} (h : m.data = avcTag key 1 p ++ body)
    : ¬m.data.getD 1 0 = 0 := by
  rw [h]
  simp [avcTag]

theorem avcTag_inj {key key' : Bool} {body : List UInt8} (h : avcTag key 1 p ++ body = avcTag key' 1 p ++ body)
    : key = key' := by
  have hhead := (List.cons.inj h).left
  cases key
  . cases key'
    . rfl
    . cases hhead
  . cases key'
    . cases hhead
    . rfl

theorem handleNalus_publishes_iff {nalus : List (SharedPacket × H264.CodedNalu)}
    (hpkts : ∀ nalu ∈ nalus, nalu.1.avType = .video ∧ nalu.1.codecType = .h264)
    (hfit : SetsFit (nalus.map Prod.snd)) (h : s.1.Caches sets started)
    : ((handleNalus s nalus).Passes CopyCheck.Holds
          ∧ ∃ msgs, (handleNalus s nalus).value.2 = s.2 ++ msgs ∧ Publishes sets nalus msgs)
        ↔ CanPublish sets started (nalus.map Prod.snd) := by
  induction nalus generalizing s sets started with
  | nil =>
    refine iff_of_true ⟨passes_pure _, [], (List.append_nil _).symm, rfl⟩ trivial
  | cons nalu nalus ih =>
    obtain ⟨p, u⟩ := nalu
    obtain ⟨⟨havType, hcodec⟩, hpkts⟩ := List.forall_mem_cons.mp hpkts
    rw [List.map_cons, SetsFit, List.forall_mem_cons] at hfit
    obtain ⟨hfirst, hfit⟩ := hfit
    have hrun : handleNalus s ((p, u) :: nalus) = handleNalu p s u.bytes >>= fun s => handleNalus s nalus := rfl
    rw [hrun, passes_bind, value_bind, List.map_cons, CanPublish]
    cases hframe : sets.forFrame u with
    | none =>
      obtain ⟨hpasses, hpkts', hcaches⟩ := handleNalu_of_none (p := p) h hframe hfirst
      simp only [Publishes, hframe]
      rw [← ih hpkts hfit hcaches, and_iff_right hpasses, hpkts']
    | some found =>
      obtain ⟨sps, pps⟩ := found
      obtain ⟨hpasses, hdrs, frame, hpkts', hhdrs, hvideo, hdata, hcaches⟩ := handleNalu_of_some h hframe havType hcodec
      have hrest := ih hpkts hfit hcaches
      simp only [Publishes, hframe]
      rw [hpasses, ← hrest, hpkts']
      constructor
      . rintro ⟨⟨hfits, hrestPasses⟩, msgs, hmsgs, hdrs', frame', msgs', rfl, hhdrs', hframe', hpub⟩
        obtain ⟨tail, htail⟩ := handleNalus_isPrefix (handleNalu p s u.bytes).value nalus
        have hsplit : hdrs ++ frame :: tail = hdrs' ++ frame' :: msgs' := by
          apply (List.append_right_inj s.2).mp
          rw [← hmsgs, ← htail, hpkts']
          simp
        obtain ⟨rfl, rfl, rfl⟩ := split_unique (fun hdr hhdr => (hhdrs hdr hhdr).packetType) (packetType_frame hdata)
          (fun hdr hhdr => (hhdrs' hdr hhdr).packetType) (packetType_frame hframe'.data) hsplit
        refine ⟨⟨?_, hfits⟩, hrestPasses, tail, ?_, hpub⟩
        . apply decide_eq_decide.mp
          apply avcTag_inj (hdata.symm.trans hframe'.data)
        . rw [← htail, hpkts']
      . rintro ⟨⟨hflag, hfits⟩, hrestPasses, msgs, hmsgs, hpub⟩
        refine ⟨⟨hfits, hrestPasses⟩, hdrs ++ frame :: msgs, ?_, hdrs, frame, msgs, rfl, hhdrs, ⟨hvideo, ?_⟩, hpub⟩
        . rw [hmsgs]
          simp
        . rw [hdata, decide_eq_decide.mpr hflag]

theorem handleVideoPackets_publishes_iff (h : s.1.Caches sets started) {pkts : List (Nat × RawPacket)}
    (hfit : SetsFit (pkts.flatMap fun pkt => pkt.2.units))
    : ((handleVideoPackets s pkts).Passes CopyCheck.Holds
          ∧ ∃ msgs, (handleVideoPackets s pkts).value.2 = s.2 ++ msgs
            ∧ Publishes sets (pkts.flatMap fun pkt => pkt.2.nalus) msgs)
        ↔ CanPublish sets started (pkts.flatMap fun pkt => pkt.2.units) := by
  obtain ⟨hpasses, hvalue⟩ := handleVideoPackets_eq s pkts
  have hunits : (pkts.flatMap fun pkt => pkt.2.nalus).map Prod.snd = pkts.flatMap fun pkt => pkt.2.units := by
    simp [List.map_flatMap, RawPacket.nalus, Function.comp_def]
  have hpkts : ∀ nalu ∈ pkts.flatMap fun pkt => pkt.2.nalus, nalu.1.avType = .video ∧ nalu.1.codecType = .h264 := by
    intro nalu hnalu
    obtain ⟨pkt, _, hnalu⟩ := List.mem_flatMap.mp hnalu
    obtain ⟨u, _, rfl⟩ := List.mem_map.mp hnalu
    exact ⟨rfl, rfl⟩
  rw [← hunits] at hfit ⊢
  rw [hpasses, hvalue]
  apply handleNalus_publishes_iff hpkts hfit h

theorem frames_iff_exists (pkts : List (Nat × RawPacket))
    : Frames pkts ↔ (handleVideoPackets ({}, []) pkts).Passes CopyCheck.Holds
      ∧ ∃ msgs, (handleVideoPackets ({}, []) pkts).value.2 = [] ++ msgs
        ∧ Publishes {} (pkts.flatMap fun pkt => pkt.2.nalus) msgs := by
  simp [Frames]

end Runs

theorem frames_iff (pkts : List (Nat × RawPacket)) (hfit : SetsFit (pkts.flatMap fun pkt => pkt.2.units))
    : Frames pkts ↔ CanPublish {} false (pkts.flatMap fun pkt => pkt.2.units) := by
  rw [frames_iff_exists]
  apply handleVideoPackets_publishes_iff (s := ({}, [])) caches_new hfit

theorem sps_ne : [0x67, 0x42, 0x80, 0x1e] ≠ ([] : List UInt8) := by decide

theorem pps_ne : [0x68, 0xce] ≠ ([] : List UInt8) := by decide

def sampleSps : H264.CodedNalu := ⟨true, [0x67, 0x42, 0x80, 0x1e], sps_ne⟩

def samplePps : H264.CodedNalu := ⟨true, [0x68, 0xce], pps_ne⟩

/--
A slice of another type, whose fifth byte is not taken for an IDR slice.
-/
theorem frames_slice
    : Frames [(0, ⟨{}, [sampleSps, samplePps], by decide, by decide⟩),
        (1, ⟨{}, [⟨true, [0x41, 0x9a, 0x21, 0x6c, 0x42], by decide⟩], by decide, by decide⟩)] := by
  apply (frames_iff _ (by decide)).mpr
  exact ⟨⟨by decide, by decide⟩, trivial⟩

/--
An IDR slice, whose fifth byte does not say so: it is published as an inter frame.
-/
theorem not_frames
    : ¬Frames [(0, ⟨{}, [sampleSps, samplePps], by decide, by decide⟩),
        (1, ⟨{}, [⟨true, [0x65, 0x88, 0x84, 0x21, 0xa0], by decide⟩], by decide, by decide⟩)] := by
  rw [frames_iff_exists, handleVideoPackets_publishes_iff (s := ({}, [])) caches_new (by decide)]
  rintro ⟨⟨hflag, _⟩, _⟩
  exact absurd hflag (by decide)

end RtmpPublish

end Rtmp
