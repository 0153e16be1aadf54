import CppStreamer.Format.Flv.Mux
import CppStreamer.Format.ParameterSets
import CppStreamer.Format.SharedPacket

/-!
This module contains the model of `FlvMuxer::SourceData` on packets that others hold a pointer to.
-/

open ByteStream Checked

namespace Flv

/--
The size of the caches.
-/
def setSize : Nat := 128

structure MuxSource extends FlvMuxer where
  sps : ParameterSet := .empty setSize (-1)
  pps : ParameterSet := .empty setSize (-1)
  firstVideo : Bool := false

/--
The length of the NALU goes to the place of its start code. Without room for the fourth byte, this one is written to
in front of the buffer.
-/
def writeNaluLen (pos : Nat) (p : SharedPacket) : SharedPacket :=
  let naluLen := write4Bytes (p.data.length - pos)
  if pos = 3 then
    match p.consumeBack 1 with
    | some p => { p with data := naluLen ++ p.data.drop 4 }
    | none => { p with data := naluLen.drop 1 ++ p.data.drop 3 }
  else { p with data := naluLen ++ p.data.drop 4 }

namespace MuxSource

/--
`InputPacket`, whose output is a new packet.
-/
def inputPacket (m : MuxSource) (pkts : Packets) (p : SharedPacket) : MuxSource × Packets :=
  let out := m.toFlvMuxer.inputPacket p.toMediaPacket
  ({ m with toFlvMuxer := out.1 }, pkts ++ out.2.toList.map fun pkt => { toMediaPacket := pkt })

/--
A sequence header from the caches, in a packet of its own.
-/
def inputSeqHdr (m : MuxSource) (pkts : Packets) (p : SharedPacket) : Checked CopyCheck (MuxSource × Packets) := do
  let extraData ← getVideoExtradata m.pps m.sps
  let seq := { p.copyProperties with isSeqHdr := true, isKeyFrame := false, data := extraData }
  return { m with firstVideo := true }.inputPacket (pkts ++ [seq]) seq

/--
A sequence header is due in front of a key frame and of the first frame.
-/
def inputDueSeqHdr (m : MuxSource) (naluType : UInt8) (pkts : Packets) (p : SharedPacket)
    : Checked CopyCheck (MuxSource × Packets) :=
  if naluType = H264.naluTypeIdr ∨ ¬m.firstVideo then m.inputSeqHdr pkts p else return (m, pkts)

def handleVideo (m : MuxSource) (pkts : Packets) (ptr : Nat) (p : SharedPacket)
    : Checked CopyCheck (MuxSource × Packets) :=
  if p.data.length < 5 then return (m, pkts)
  else
    match H264.getNaluTypePos p.data with
    | none => return (m, pkts)
    | some pos =>
      let naluType := H264.nalType (p.data.getD pos 0)
      if p.data.length < setSize ∧ naluType = H264.naluTypeSps then do
        let sps ← m.sps.copy (p.data.drop pos)
        return ({ m with sps }, pkts)
      else if p.data.length < setSize ∧ naluType = H264.naluTypePps then do
        let pps ← m.pps.copy (p.data.drop pos)
        return ({ m with pps }, pkts)
      else if m.pps.len ≤ 0 ∨ m.sps.len ≤ 0 then return (m, pkts)
      else do
        let s ← m.inputDueSeqHdr naluType pkts p
        return s.1.inputPacket (s.2.modify ptr (writeNaluLen pos)) (writeNaluLen pos p)

def sourceData (s : MuxSource × Packets) (ptr : Nat) : Checked CopyCheck (MuxSource × Packets) :=
  match s.2[ptr]? with
  | none => return s
  | some p =>
    if p.avType = .video then s.1.handleVideo s.2 ptr p
    else return s.1.inputPacket s.2 p

section Fits

/--
Both parameter sets are within their caches.
-/
structure Within (m : MuxSource) : Prop where
  sps : m.sps.Within setSize
  pps : m.pps.Within setSize

theorem within_new : ({} : MuxSource).Within :=
  ⟨ParameterSet.within_empty setSize (by decide), ParameterSet.within_empty setSize (by decide)⟩

variable {m : MuxSource} {pkts : Packets} {ptr : Nat} {p : SharedPacket} {s : MuxSource × Packets}

theorem inputSeqHdr_passes (h : m.Within) : (m.inputSeqHdr pkts p).Passes CopyCheck.Holds := by
  have hsps := h.sps.len_le
  have hpps := h.pps.len_le
  unfold inputSeqHdr
  rw [passes_bind, getVideoExtradata_passes h.pps h.sps]
  refine ⟨?_, passes_pure _⟩
  unfold setSize at hsps hpps
  omega

theorem inputDueSeqHdr_spec (h : m.Within) (naluType : UInt8) (pkts : Packets) (p : SharedPacket)
    : (m.inputDueSeqHdr naluType pkts p).Passes CopyCheck.Holds
      ∧ (m.inputDueSeqHdr naluType pkts p).value.1.Within := by
  unfold inputDueSeqHdr
  split
  . exact ⟨inputSeqHdr_passes h, h.sps, h.pps⟩
  . exact ⟨passes_pure _, h⟩

/--
A parameter set of a packet that is shorter than the caches fits in.
-/
theorem copy_short {set : ParameterSet} (h : set.Within setSize) (hshort : p.data.length < setSize) (pos : Nat)
    : (set.copy (p.data.drop pos)).Passes CopyCheck.Holds ∧ (set.copy (p.data.drop pos)).value.Within setSize := by
  have hlen : (p.data.drop pos).length ≤ setSize := by
    rw [List.length_drop]
    omega
  exact ⟨(ParameterSet.copy_passes h.length _).mpr hlen, ParameterSet.copy_within h.length hlen⟩

theorem handleVideo_spec (h : m.Within)
    : (m.handleVideo pkts ptr p).Passes CopyCheck.Holds ∧ (m.handleVideo pkts ptr p).value.1.Within := by
  unfold handleVideo
  split
  . exact ⟨passes_pure _, h⟩
  . split
    . exact ⟨passes_pure _, h⟩
    . next pos hpos =>
      simp only
      split
      . next hsps =>
        have hcopy := copy_short h.sps hsps.left pos
        rw [passes_bind]
        exact ⟨⟨hcopy.left, passes_pure _⟩, hcopy.right, h.pps⟩
      . split
        . next hpps =>
          have hcopy := copy_short h.pps hpps.left pos
          rw [passes_bind]
          exact ⟨⟨hcopy.left, passes_pure _⟩, h.sps, hcopy.right⟩
        . split
          . exact ⟨passes_pure _, h⟩
          . have hdue := inputDueSeqHdr_spec h (H264.nalType (p.data.getD pos 0)) pkts p
            rw [passes_bind]
            exact ⟨⟨hdue.left, passes_pure _⟩, hdue.right.sps, hdue.right.pps⟩

/--
The copies are within the caches, and the record is within its array, whatever the packets are.
-/
theorem sourceData_spec (h : s.1.Within)
    : (sourceData s ptr).Passes CopyCheck.Holds ∧ (sourceData s ptr).value.1.Within := by
  unfold sourceData
  split
  . exact ⟨passes_pure _, h⟩
  . split
    . exact handleVideo_spec h
    . exact ⟨passes_pure _, h.sps, h.pps⟩

end Fits

section Kept

variable {m : MuxSource} {pkts : Packets} {ptr : Nat} {p : SharedPacket} {s : MuxSource × Packets}

theorem inputPacket_isPrefix : pkts <+: (m.inputPacket pkts p).2 := List.prefix_append _ _

theorem inputDueSeqHdr_isPrefix (naluType : UInt8) : pkts <+: (m.inputDueSeqHdr naluType pkts p).value.2 := by
  unfold inputDueSeqHdr
  split
  . exact (List.prefix_append _ _).trans inputPacket_isPrefix
  . exact List.prefix_refl _

/--
The start code is the length that overwrites it.
-/
def LengthThere (pos : Nat) (p : SharedPacket) : Prop :=
  if pos = 3 then p.room = [] ∧ (p.data.length - 3) % 2 ^ 24 = 1 else (p.data.length - 4) % 2 ^ 32 = 1

/--
A video frame whose start code is overwritten with another length.
-/
def Rewrites (m : MuxSource) (p : SharedPacket) : Prop :=
  p.avType = .video ∧ 5 ≤ p.data.length ∧ ∃ pos, H264.getNaluTypePos p.data = some pos
    ∧ ¬(p.data.length < setSize ∧ (H264.nalType (p.data.getD pos 0) = H264.naluTypeSps
      ∨ H264.nalType (p.data.getD pos 0) = H264.naluTypePps))
    ∧ 0 < m.pps.len ∧ 0 < m.sps.len ∧ ¬LengthThere pos p

theorem getNaluTypePos_eq {data : List UInt8} {pos : Nat} (h : H264.getNaluTypePos data = some pos)
    : (pos = 3 ∧ data.take 3 = [0, 0, 1]) ∨ (pos = 4 ∧ data.take 4 = [0, 0, 0, 1]) := by
  unfold H264.getNaluTypePos at h
  split at h
  . cases h
    exact .inl ⟨rfl, rfl⟩
  . cases h
    exact .inr ⟨rfl, rfl⟩
  . cases h

theorem write3Bytes_eq_one_iff (value : Nat) : write3Bytes value = [0, 0, 1] ↔ value % 2 ^ 24 = 1 := by
  constructor
  . intro h
    have hread := read3Bytes_write3Bytes value []
    rw [h] at hread
    exact hread.symm
  . intro h
    rw [← write3Bytes_mod, h]
    rfl

theorem write4Bytes_eq_one_iff (value : Nat) : write4Bytes value = [0, 0, 0, 1] ↔ value % 2 ^ 32 = 1 := by
  constructor
  . intro h
    have hread := read4Bytes_write4Bytes value []
    rw [h] at hread
    exact hread.symm
  . intro h
    exact write4Bytes_of_mod rfl h

theorem writeNaluLen_same {pos : Nat} (hpos : H264.getNaluTypePos p.data = some pos)
    : (writeNaluLen pos p).Same p ↔ LengthThere pos p := by
  unfold writeNaluLen LengthThere
  rcases getNaluTypePos_eq hpos with ⟨rfl, hcode⟩ | ⟨rfl, hcode⟩
  . simp only [if_true]
    have hdata : p.data = [0, 0, 1] ++ p.data.drop 3 := by
      rw [← hcode, List.take_append_drop]
    cases hconsume : p.consumeBack 1 with
    | some p' =>
      have hroom : p.room ≠ [] := by
        intro hroom
        rw [SharedPacket.consumeBack_isNone.mpr (by simp [hroom])] at hconsume
        cases hconsume
      have hdrop := SharedPacket.consumeBack_data hconsume
      simp only [hroom, false_and, iff_false]
      intro h
      have hlen := congrArg List.length h.data
      have hlen' := congrArg List.length hdrop
      have hlen'' := congrArg List.length hdata
      simp only [List.length_append, List.length_drop, length_write4Bytes, List.length_cons, List.length_nil]
        at hlen hlen' hlen''
      omega
    | none =>
      have hroom := SharedPacket.consumeBack_isNone.mp hconsume
      have hnil : p.room = [] := List.length_eq_zero_iff.mp (by omega)
      have hsame : (write4Bytes (p.data.length - 3)).drop 1 ++ p.data.drop 3 = p.data
          ↔ (p.data.length - 3) % 2 ^ 24 = 1 := by
        conv_lhs => rhs; rw [hdata]
        rw [← write3Bytes_eq_one_iff]
        exact List.append_left_inj _
      rw [← hsame]
      constructor
      . intro h
        exact ⟨hnil, h.data⟩
      . intro h
        exact ⟨h.right, rfl, rfl, rfl⟩
  . simp only [Nat.reduceEqDiff, if_false]
    have hdata : p.data = [0, 0, 0, 1] ++ p.data.drop 4 := by
      rw [← hcode, List.take_append_drop]
    have hsame : write4Bytes (p.data.length - 4) ++ p.data.drop 4 = p.data ↔ (p.data.length - 4) % 2 ^ 32 = 1 := by
      conv_lhs => rhs; rw [hdata]
      rw [← write4Bytes_eq_one_iff]
      exact List.append_left_inj _
    rw [← hsame]
    constructor
    . intro h
      exact h.data
    . intro h
      exact ⟨h, rfl, rfl, rfl⟩

theorem handleVideo_kept_iff (hp : pkts[ptr]? = some p) (havType : p.avType = .video)
    : pkts.Kept (m.handleVideo pkts ptr p).value.2 ↔ ¬m.Rewrites p := by
  have hsame : pkts.Kept pkts := Packets.kept_of_isPrefix (List.prefix_refl _)
  unfold handleVideo Rewrites
  simp only [havType, true_and]
  split
  . next hshort =>
    refine iff_of_true hsame fun h => ?_
    omega
  . next hshort =>
    cases hpos : H264.getNaluTypePos p.data with
    | none => simp [hsame]
    | some pos =>
      simp only [Option.some.injEq, exists_eq_left']
      split
      . next hsps => exact iff_of_true hsame fun h => h.right.left ⟨hsps.left, .inl hsps.right⟩
      . next hsps =>
        split
        . next hpps => exact iff_of_true hsame fun h => h.right.left ⟨hpps.left, .inr hpps.right⟩
        . next hpps =>
          split
          . next hunset =>
            refine iff_of_true hsame fun h => ?_
            omega
          . next hset =>
            have hno : ¬(p.data.length < setSize ∧ (H264.nalType (p.data.getD pos 0) = H264.naluTypeSps
                ∨ H264.nalType (p.data.getD pos 0) = H264.naluTypePps)) := by
              rintro ⟨hlt, htype | htype⟩
              . exact hsps ⟨hlt, htype⟩
              . exact hpps ⟨hlt, htype⟩
            have hlens : 5 ≤ p.data.length ∧ 0 < m.pps.len ∧ 0 < m.sps.len := by omega
            rw [value_bind, value_pure, inputPacket, Packets.kept_modify_append_iff (inputDueSeqHdr_isPrefix _) hp,
              writeNaluLen_same hpos]
            simp only [hno, hlens, not_false_eq_true, true_and, not_not]

def SourceKeeps (s : MuxSource × Packets) (ptr : Nat) : Prop :=
  ∀ p, s.2[ptr]? = some p → ¬s.1.Rewrites p

theorem sourceData_kept_iff : s.2.Kept (sourceData s ptr).value.2 ↔ SourceKeeps s ptr := by
  unfold sourceData SourceKeeps
  cases hp : s.2[ptr]? with
  | none => simp [Packets.kept_of_isPrefix (List.prefix_refl s.2)]
  | some p =>
    simp only [Option.some.injEq, forall_eq']
    split
    . next havType => exact handleVideo_kept_iff hp havType
    . next havType => exact iff_of_true (Packets.kept_of_isPrefix inputPacket_isPrefix) fun h => havType h.left

end Kept

end MuxSource

end Flv
