import CppStreamer.Format.Flv.Mux
import CppStreamer.Format.ParameterSets
import CppStreamer.Format.SharedPacket

/-!
This module contains the model of `RtmpPublish`: its queue of packets that others hold a pointer to, and what it makes of
a packet. `SendRtmp` only reads a packet.
-/

open ByteStream Checked

namespace Rtmp

/--
The size of the caches.
-/
def setSize : Nat := 512

structure RtmpPublish where
  sps : ParameterSet := .empty setSize (-1)
  pps : ParameterSet := .empty setSize (-1)
  firstVideo : Bool := false
  packetQueue : List Nat := []

/--
The header goes in front of the data. Without room for it, the code writes to a null pointer.
-/
def sendVideo (p : SharedPacket) : SharedPacket :=
  match p.consumeBack 5 with
  | none => p
  | some p =>
    match Flv.FlvMuxer.videoCodec p.codecType with
    | none => { p with data := 0 :: p.data.drop 1 }
    | some codec =>
      { p with data := Flv.FlvMuxer.videoHeader p.toMediaPacket codec ++ p.data.drop 5, fmtType := .flv }

def handleAudioData (p : SharedPacket) : SharedPacket :=
  let p := { p with fmtType := .flv }
  if p.avType = .audio then
    match p.consumeBack 2 with
    | none => p
    | some p =>
      match Flv.FlvMuxer.audioCodec p.codecType with
      | none => p
      | some codec => { p with data := Flv.FlvMuxer.audioHeader p.toMediaPacket codec ++ p.data.drop 2 }
  else p

namespace RtmpPublish

/--
A sequence header from the caches, in a packet of its own.
-/
def sendSeqHdr (s : RtmpPublish × Packets) (p : SharedPacket) : Checked CopyCheck (RtmpPublish × Packets) := do
  let extraData ← getVideoExtradata s.1.pps s.1.sps
  let seq := { p.copyProperties with isSeqHdr := true, isKeyFrame := false, data := extraData }
  return ({ s.1 with firstVideo := true }, s.2 ++ [sendVideo seq])

/--
A sequence header is due in front of a key frame and of the first frame.
-/
def sendDueSeqHdr (s : RtmpPublish × Packets) (naluType : UInt8) (p : SharedPacket)
    : Checked CopyCheck (RtmpPublish × Packets) :=
  if naluType = H264.naluTypeIdr ∨ ¬s.1.firstVideo then sendSeqHdr s p else return s

/--
A NALU goes to its cache, or it is sent in a packet of its own. The type of the frame is read behind its place, since
the pointer has moved on already.
-/
def handleNalu (p : SharedPacket) (s : RtmpPublish × Packets) (nalu : List UInt8)
    : Checked CopyCheck (RtmpPublish × Packets) :=
  match H264.getNaluTypePos nalu with
  | none => return s
  | some pos =>
    let naluType := H264.nalType (nalu.getD pos 0)
    if naluType = H264.naluTypeSps then do
      let sps ← s.1.sps.copy (nalu.drop pos)
      return ({ s.1 with sps }, s.2)
    else if naluType = H264.naluTypePps then do
      let pps ← s.1.pps.copy (nalu.drop pos)
      return ({ s.1 with pps }, s.2)
    else if naluType = H264.naluTypeAud then return s
    else if s.1.pps.len < 0 ∨ s.1.sps.len < 0 then return s
    else do
      let s ← sendDueSeqHdr s naluType p
      let video :=
        { p.copyProperties with
          isSeqHdr := false
          isKeyFrame := H264.nalType (nalu.getD (2 * pos) 0) = H264.naluTypeIdr
          data := write4Bytes (nalu.length - pos) ++ nalu.drop pos }
      return (s.1, s.2 ++ [sendVideo video])

def handleVideoData (s : RtmpPublish × Packets) (ptr : Nat) (p : SharedPacket)
    : Checked CopyCheck (RtmpPublish × Packets) :=
  if p.data.length < 5 then return s
  else if p.isSeqHdr ∧ p.fmtType = .flv then return (s.1, s.2.modify ptr sendVideo)
  else
    match H264.annexB2Nalus p.data with
    | none => return s
    | some nalus => run (handleNalu p) s nalus

/--
What `HandleMediaData` makes of one packet.
-/
def handlePacket (s : RtmpPublish × Packets) (ptr : Nat) : Checked CopyCheck (RtmpPublish × Packets) :=
  match s.2[ptr]? with
  | none => return s
  | some p =>
    if p.fmtType = .raw then
      match p.avType with
      | .video => handleVideoData s ptr p
      | .audio => return (s.1, s.2.modify ptr handleAudioData)
      | _ => return s
    else return s

/--
The pointer goes to the queue.
-/
def sourceData (s : RtmpPublish) (ptr : Nat) : RtmpPublish :=
  { s with packetQueue := s.packetQueue ++ [ptr] }

/--
The packets that one call of `HandleMediaData` takes from the queue. It ends behind a packet that is FLV already.
-/
def handleMediaData : RtmpPublish × Packets → List Nat → Checked CopyCheck (RtmpPublish × Packets)
  | s, [] => return ({ s.1 with packetQueue := [] }, s.2)
  | s, ptr :: queue =>
    if (s.2[ptr]?.map fun p => p.fmtType) = some .flv then return ({ s.1 with packetQueue := queue }, s.2)
    else do
      let s ← handlePacket s ptr
      handleMediaData s queue

/--
The condition holds of each packet that a call takes from the queue, in the state in which it is handled.
-/
def Taken (P : RtmpPublish × Packets → Nat → Prop) : RtmpPublish × Packets → List Nat → Prop
  | _, [] => True
  | s, ptr :: queue =>
    (s.2[ptr]?.map fun p => p.fmtType) = some .flv ∨ (P s ptr ∧ Taken P (handlePacket s ptr).value queue)

theorem taken_congr {P Q : RtmpPublish × Packets → Nat → Prop} (h : ∀ s ptr, P s ptr ↔ Q s ptr)
    (s : RtmpPublish × Packets) (queue : List Nat)
    : Taken P s queue ↔ Taken Q s queue := by
  induction queue generalizing s with
  | nil => exact Iff.rfl
  | cons ptr queue ih => rw [Taken, Taken, h, ih]

section Fits

/--
Both parameter sets are within their caches.
-/
structure Within (s : RtmpPublish) : Prop where
  sps : s.sps.Within setSize
  pps : s.pps.Within setSize

theorem within_new : ({} : RtmpPublish).Within :=
  ⟨ParameterSet.within_empty setSize (by decide), ParameterSet.within_empty setSize (by decide)⟩

/--
A NALU of the type makes the publisher send a sequence header.
-/
def SendsSeqHdr (s : RtmpPublish) (naluType : UInt8) : Prop :=
  naluType ≠ H264.naluTypeSps ∧ naluType ≠ H264.naluTypePps ∧ naluType ≠ H264.naluTypeAud
    ∧ 0 ≤ s.pps.len ∧ 0 ≤ s.sps.len ∧ (naluType = H264.naluTypeIdr ∨ ¬s.firstVideo)

/--
A parameter set is not longer than its cache, and a sequence header comes to not more than its array holds.
-/
def NaluFits (s : RtmpPublish × Packets) (nalu : List UInt8) : Prop :=
  ∀ pos, H264.getNaluTypePos nalu = some pos →
    (H264.nalType (nalu.getD pos 0) = H264.naluTypeSps ∨ H264.nalType (nalu.getD pos 0) = H264.naluTypePps →
      nalu.length - pos ≤ setSize)
    ∧ (s.1.SendsSeqHdr (H264.nalType (nalu.getD pos 0)) → s.1.sps.len.toNat + s.1.pps.len.toNat ≤ 1013)

def HandleFits (s : RtmpPublish × Packets) (ptr : Nat) : Prop :=
  ∀ p, s.2[ptr]? = some p → p.fmtType = .raw → p.avType = .video → 5 ≤ p.data.length →
    ∀ nalus, H264.annexB2Nalus p.data = some nalus → RunMeets (handleNalu p) NaluFits s nalus

variable {s : RtmpPublish × Packets} {p : SharedPacket} {ptr : Nat} {nalu : List UInt8} {naluType : UInt8}

theorem sendDueSeqHdr_passes (h : s.1.Within)
    : (sendDueSeqHdr s naluType p).Passes CopyCheck.Holds
        ↔ (naluType = H264.naluTypeIdr ∨ ¬s.1.firstVideo → s.1.sps.len.toNat + s.1.pps.len.toNat ≤ 1013) := by
  unfold sendDueSeqHdr sendSeqHdr
  simp only [passes_ite, passes_bind, getVideoExtradata_passes h.pps h.sps, passes_pure, and_true, implies_true]

theorem sendDueSeqHdr_within (h : s.1.Within) : (sendDueSeqHdr s naluType p).value.1.Within := by
  unfold sendDueSeqHdr
  split
  . exact ⟨h.sps, h.pps⟩
  . exact h

theorem handleNalu_passes (h : s.1.Within) : (handleNalu p s nalu).Passes CopyCheck.Holds ↔ NaluFits s nalu := by
  unfold handleNalu NaluFits SendsSeqHdr
  cases hpos : H264.getNaluTypePos nalu with
  | none => simp
  | some pos =>
    have hdistinct : H264.naluTypePps ≠ H264.naluTypeSps ∧ H264.naluTypeAud ≠ H264.naluTypeSps
        ∧ H264.naluTypeAud ≠ H264.naluTypePps := by decide
    simp only [passes_ite, passes_bind, passes_pure, and_true, implies_true, ParameterSet.copy_passes h.sps.length,
      ParameterSet.copy_passes h.pps.length, List.length_drop, sendDueSeqHdr_passes h, Option.some.injEq,
      forall_eq']
    generalize H264.nalType (nalu.getD pos 0) = naluType
    have hlens : ¬(s.1.pps.len < 0 ∨ s.1.sps.len < 0) ↔ 0 ≤ s.1.pps.len ∧ 0 ≤ s.1.sps.len := by omega
    rw [hlens]
    by_cases hsps : naluType = H264.naluTypeSps
    . simp [hsps]
    . by_cases hpps : naluType = H264.naluTypePps
      . simp [hpps, hdistinct]
      . by_cases haud : naluType = H264.naluTypeAud
        . simp [haud, hdistinct]
        . simp [hsps, hpps, haud]

theorem handleNalu_within (h : s.1.Within) (hfits : NaluFits s nalu) : (handleNalu p s nalu).value.1.Within := by
  unfold handleNalu
  split
  . exact h
  . next pos hpos =>
    have hlen := (hfits pos hpos).left
    rw [← List.length_drop] at hlen
    simp only
    split
    . next hsps => exact ⟨ParameterSet.copy_within h.sps.length (hlen (.inl hsps)), h.pps⟩
    . split
      . next hpps => exact ⟨h.sps, ParameterSet.copy_within h.pps.length (hlen (.inr hpps))⟩
      . split
        . exact h
        . split
          . exact h
          . exact sendDueSeqHdr_within h

theorem handlePacket_passes (h : s.1.Within) : (handlePacket s ptr).Passes CopyCheck.Holds ↔ HandleFits s ptr := by
  unfold handlePacket HandleFits
  cases hp : s.2[ptr]? with
  | none => simp
  | some p =>
    simp only [Option.some.injEq, forall_eq']
    split
    . next hraw =>
      simp only [hraw, true_implies]
      cases p.avType with
      | video =>
        have hnot : ¬(p.isSeqHdr ∧ p.fmtType = .flv) := by
          rintro ⟨-, hflv⟩
          exact absurd (hraw.symm.trans hflv) (by decide)
        simp only [true_implies]
        unfold handleVideoData
        rw [if_neg hnot]
        split
        . next hshort => simp [Nat.not_le_of_lt hshort]
        . next hshort =>
          have hlen : 5 ≤ p.data.length := Nat.le_of_not_lt hshort
          simp only [hlen, true_implies]
          cases H264.annexB2Nalus p.data with
          | none => simp
          | some nalus =>
            simp only [Option.some.injEq, forall_eq']
            exact run_passes_iff_runMeets (fun s : RtmpPublish × Packets => s.1.Within) NaluFits
              (fun s nalu hs => handleNalu_passes hs)
              (fun s nalu hs hfits => handleNalu_within hs hfits) h nalus
      | audio | unknown | movbox | metadata => simp
    . next hraw => simp [hraw]

theorem handlePacket_within (h : s.1.Within) (hfits : HandleFits s ptr) : (handlePacket s ptr).value.1.Within := by
  unfold handlePacket
  split
  . exact h
  . next p hp =>
    split
    . next hraw =>
      split
      . next havType =>
        unfold handleVideoData
        split
        . exact h
        . next hshort =>
          split
          . exact h
          . split
            . exact h
            . next nalus hnalus =>
              exact run_keeps (fun s : RtmpPublish × Packets => s.1.Within) NaluFits
                (fun s nalu hs hnalu => handleNalu_within hs hnalu) h
                (hfits p hp hraw havType (Nat.le_of_not_lt hshort) nalus hnalus)
      . exact h
      . exact h
    . exact h

/--
The copies of a call are within the caches and the array of the record if those of each packet that it takes are.
-/
theorem handleMediaData_passes (h : s.1.Within) (queue : List Nat)
    : (handleMediaData s queue).Passes CopyCheck.Holds ↔ Taken HandleFits s queue := by
  induction queue generalizing s with
  | nil => exact iff_of_true (passes_pure _) trivial
  | cons ptr queue ih =>
    rw [handleMediaData, Taken]
    split
    . next hflv => simp [hflv]
    . next hflv =>
      rw [passes_bind, handlePacket_passes h]
      simp only [hflv, false_or]
      apply and_congr_right
      intro hfits
      exact ih (handlePacket_within h hfits)

theorem handleMediaData_within (h : s.1.Within) {queue : List Nat} (hfits : Taken HandleFits s queue)
    : (handleMediaData s queue).value.1.Within := by
  induction queue generalizing s with
  | nil => exact ⟨h.sps, h.pps⟩
  | cons ptr queue ih =>
    rw [handleMediaData]
    split
    . exact ⟨h.sps, h.pps⟩
    . next hflv =>
      have hrest := hfits.resolve_left hflv
      exact ih (handlePacket_within h hrest.left) hrest.right

end Fits

section Kept

variable {s : RtmpPublish × Packets} {ptr : Nat} {p : SharedPacket} {pkts : Packets}

theorem handleNalu_isPrefix (h : pkts <+: s.2) (nalu : List UInt8) : pkts <+: (handleNalu p s nalu).value.2 := by
  have hdue (naluType : UInt8) : pkts <+: (sendDueSeqHdr s naluType p).value.2 := by
    unfold sendDueSeqHdr
    split
    . exact h.trans (List.prefix_append _ _)
    . exact h
  unfold handleNalu
  split
  . exact h
  . simp only
    split
    . exact h
    . split
      . exact h
      . split
        . exact h
        . split
          . exact h
          . exact (hdue _).trans (List.prefix_append _ _)

/--
The packet of the pointer is not sound that has to be turned into FLV.
-/
def HandleKeeps (s : RtmpPublish × Packets) (ptr : Nat) : Prop :=
  ∀ p, s.2[ptr]? = some p → ¬(p.fmtType = .raw ∧ p.avType = .audio)

theorem handleAudioData_fmtType (p : SharedPacket) : (handleAudioData p).fmtType = .flv := by
  unfold handleAudioData
  simp only
  split
  . cases hconsume : ({ p with fmtType := .flv } : SharedPacket).consumeBack 2 with
    | none => rfl
    | some p' =>
      have hfmt : p'.fmtType = .flv := by
        unfold SharedPacket.consumeBack at hconsume
        split at hconsume
        . cases hconsume
        . cases hconsume
          rfl
      simp only
      split
      . exact hfmt
      . exact hfmt
  . rfl

theorem handlePacket_kept_iff : s.2.Kept (handlePacket s ptr).value.2 ↔ HandleKeeps s ptr := by
  have hsame : s.2.Kept s.2 := Packets.kept_of_isPrefix (List.prefix_refl _)
  unfold handlePacket HandleKeeps
  cases hp : s.2[ptr]? with
  | none => simp [hsame]
  | some p =>
    simp only [Option.some.injEq, forall_eq']
    split
    . next hraw =>
      cases havType : p.avType with
      | video =>
        have hnot : ¬(p.isSeqHdr ∧ p.fmtType = .flv) := by
          rintro ⟨-, hflv⟩
          exact absurd (hraw.symm.trans hflv) (by decide)
        simp only [reduceCtorEq, and_false, not_false_eq_true, iff_true]
        unfold handleVideoData
        rw [if_neg hnot]
        split
        . exact hsame
        . split
          . exact hsame
          . apply Packets.kept_of_isPrefix
            exact run_keeps (fun s' : RtmpPublish × Packets => s.2 <+: s'.2) (fun _ _ => True)
              (fun s' nalu hs' _ => handleNalu_isPrefix hs' nalu) (List.prefix_refl _)
              (runMeets_iff_forall.mpr fun _ _ => trivial)
      | audio =>
        simp only [hraw, and_self, not_true_eq_false, iff_false]
        intro hkept
        have hsame := ((Packets.kept_modify_iff hp handleAudioData).mp hkept).fmtType
        rw [handleAudioData_fmtType, hraw] at hsame
        cases hsame
      | unknown | movbox | metadata => simp [hsame]
    . next hraw => simp [hraw, hsame]

/--
No packet that a call takes from the queue is changed, nor is another one.
-/
def Leaves (s : RtmpPublish × Packets) : Prop :=
  Taken (fun s ptr => s.2.Kept (handlePacket s ptr).value.2) s s.1.packetQueue

theorem leaves_iff_taken : Leaves s ↔ Taken HandleKeeps s s.1.packetQueue :=
  taken_congr (fun _ _ => handlePacket_kept_iff) s _

theorem Taken.kept {queue : List Nat} (h : Taken (fun s ptr => s.2.Kept (handlePacket s ptr).value.2) s queue)
    : s.2.Kept (handleMediaData s queue).value.2 := by
  induction queue generalizing s with
  | nil => exact .refl s.2
  | cons ptr queue ih =>
    rw [handleMediaData]
    split
    . exact .refl s.2
    . next hflv =>
      have hrest := h.resolve_left hflv
      exact hrest.left.trans (ih hrest.right)

end Kept

end RtmpPublish

end Rtmp
