import CppStreamer.Format.H264H265Header
import Mathlib.Data.List.Infix

/-!
This module contains NALUs with their start codes in front, which `AnnexB2Nalus` cuts apart again, and the latest
parameter sets among them.
-/

namespace H264

/--
What a NALU never has in it: a start code, or a zero at its end.
-/
structure Plain (nalu : List UInt8) : Prop where
  no_startCode : ∀ suffix, suffix <:+ nalu → startCodeLen suffix = 0
  no_zero : nalu.getLast? ≠ some 0

instance (nalu : List UInt8) : Decidable (Plain nalu) :=
  decidable_of_iff ((∀ suffix ∈ nalu.tails, startCodeLen suffix = 0) ∧ nalu.getLast? ≠ some 0)
    ⟨fun h => ⟨fun suffix hsuffix => h.left suffix ((List.mem_tails _ _).mpr hsuffix), h.right⟩,
      fun h => ⟨fun suffix hsuffix => h.no_startCode suffix ((List.mem_tails _ _).mp hsuffix), h.no_zero⟩⟩

/--
A NALU with its start code, which has four or three bytes.
-/
structure CodedNalu where
  long : Bool
  nalu : List UInt8
  nonempty : nalu ≠ []

namespace CodedNalu

def code (u : CodedNalu) : List UInt8 := if u.long then startCode else shortStartCode

def bytes (u : CodedNalu) : List UInt8 := u.code ++ u.nalu

def type (u : CodedNalu) : UInt8 := nalType (u.nalu.getD 0 0)

variable (u : CodedNalu)

theorem length_code : u.code.length = if u.long then 4 else 3 := by
  unfold code
  cases u.long
  all_goals rfl

theorem code_length_pos : 3 ≤ u.code.length := by
  rw [length_code]
  split
  all_goals omega

theorem startCodeLen_code (data : List UInt8) : startCodeLen (u.code ++ data) = u.code.length := by
  unfold code
  cases u.long
  all_goals rfl

theorem getNaluTypePos_append (data : List UInt8) : getNaluTypePos (u.bytes ++ data) = some u.code.length := by
  unfold bytes code
  cases u.long
  all_goals rfl

theorem getNaluTypePos_bytes : getNaluTypePos u.bytes = some u.code.length := by
  have hpos := u.getNaluTypePos_append []
  rwa [List.append_nil] at hpos

theorem length_bytes : u.bytes.length = u.code.length + u.nalu.length := List.length_append

@[simp]
theorem drop_bytes : u.bytes.drop u.code.length = u.nalu := List.drop_left

theorem getD_bytes (i : Nat) : u.bytes.getD (u.code.length + i) 0 = u.nalu.getD i 0 := by
  unfold bytes
  rw [List.getD_eq_getElem?_getD, List.getElem?_append_right (Nat.le_add_right _ _), Nat.add_sub_cancel_left,
    ← List.getD_eq_getElem?_getD]

theorem nalType_bytes : nalType (u.bytes.getD u.code.length 0) = u.type := by
  have hbyte := u.getD_bytes 0
  rw [Nat.add_zero] at hbyte
  rw [hbyte]
  rfl

theorem nalType_append (data : List UInt8) : nalType ((u.bytes ++ data).getD u.code.length 0) = u.type := by
  have hlen := u.length_bytes
  have hpos := List.length_pos_of_ne_nil u.nonempty
  rw [List.getD_eq_getElem?_getD, List.getElem?_append_left (by omega), ← List.getD_eq_getElem?_getD, nalType_bytes]

end CodedNalu

/--
The bytes of some NALUs behind each other.
-/
def stream (units : List CodedNalu) : List UInt8 := units.flatMap CodedNalu.bytes

theorem stream_cons (u : CodedNalu) (units : List CodedNalu) : stream (u :: units) = u.bytes ++ stream units :=
  List.flatMap_cons

theorem stream_append (units units' : List CodedNalu) : stream (units ++ units') = stream units ++ stream units' :=
  List.flatMap_append

/--
The latest parameter sets.
-/
structure LatestSets where
  sps : Option (List UInt8) := none
  pps : Option (List UInt8) := none

def LatestSets.next (sets : LatestSets) (u : CodedNalu) : LatestSets :=
  if u.type = naluTypeSps then { sets with sps := some u.nalu }
  else if u.type = naluTypePps then { sets with pps := some u.nalu }
  else sets

/--
The parameter sets for a NALU that is a frame, `none` for other ones and as long as a parameter set is missing.
-/
def LatestSets.forFrame (sets : LatestSets) (u : CodedNalu) : Option (List UInt8 × List UInt8) :=
  if u.type = naluTypeSps ∨ u.type = naluTypePps ∨ u.type = naluTypeAud then none
  else
    match sets.sps, sets.pps with
    | some sps, some pps => some (sps, pps)
    | _, _ => none

section Cut

theorem Plain.tail {b : UInt8} {nalu : List UInt8} (h : Plain (b :: nalu)) : Plain nalu where
  no_startCode suffix hsuffix := h.no_startCode suffix (hsuffix.trans (List.suffix_cons b nalu))
  no_zero := by
    cases nalu with
    | nil => simp
    | cons c nalu =>
      have hlast := h.no_zero
      rwa [List.getLast?_cons_cons] at hlast

/--
No start code begins in a NALU and ends behind it, since there is no zero at its end.
-/
theorem Plain.startCodeLen_append {nalu : List UInt8} (h : Plain nalu) (hne : nalu ≠ []) (data : List UInt8)
    : startCodeLen (nalu ++ data) = 0 := by
  have hwhole := h.no_startCode nalu List.suffix_rfl
  have hlast := h.no_zero
  match nalu with
  | [] => exact absurd rfl hne
  | [a] =>
    have ha : a ≠ 0 := by simpa using hlast
    simp [startCodeLen, ha]
  | [a, b] =>
    have hb : b ≠ 0 := by simpa using hlast
    simp [startCodeLen, hb]
  | [a, b, c] =>
    have hc : c ≠ 0 := by simpa using hlast
    unfold startCodeLen
    split
    . next heq =>
      simp only [List.cons_append, List.cons.injEq] at heq
      exact absurd heq.right.right.left hc
    . next heq =>
      simp only [List.cons_append, List.cons.injEq] at heq
      simp [startCodeLen, heq.left, heq.right.left, heq.right.right.left] at hwhole
    . rfl
  | a :: b :: c :: d :: nalu =>
    unfold startCodeLen
    split
    . next heq =>
      simp only [List.cons_append, List.cons.injEq] at heq
      simp [startCodeLen, heq.left, heq.right.left, heq.right.right.left, heq.right.right.right.left] at hwhole
    . next heq =>
      simp only [List.cons_append, List.cons.injEq] at heq
      simp [startCodeLen, heq.left, heq.right.left, heq.right.right.left] at hwhole
    . rfl

theorem Plain.startPositions_append {nalu : List UInt8} (h : Plain nalu) (data : List UInt8) (pos : Nat)
    : startPositions (nalu ++ data) pos 0 = startPositions data (pos + nalu.length) 0 := by
  induction nalu generalizing pos with
  | nil => rfl
  | cons b nalu ih =>
    have hcode := h.startCodeLen_append (List.cons_ne_nil b nalu) data
    rw [List.cons_append] at hcode ⊢
    rw [startPositions, hcode]
    simp only
    rw [ih h.tail, List.length_cons]
    congr 1
    omega

theorem CodedNalu.startPositions_append {u : CodedNalu} (h : Plain u.nalu) (data : List UInt8) (pos : Nat)
    : startPositions (u.bytes ++ data) pos 0 = pos :: startPositions data (pos + u.bytes.length) 0 := by
  have hcode := u.startCodeLen_code (u.nalu ++ data)
  have hpos := u.code_length_pos
  have hdrop : (u.code ++ (u.nalu ++ data)).drop u.code.length = u.nalu ++ data := List.drop_left
  unfold bytes
  rw [List.append_assoc]
  generalize hbytes : u.code ++ (u.nalu ++ data) = bytes at hcode hdrop
  cases bytes with
  | nil =>
    have hlen := congrArg List.length hbytes
    rw [List.length_append, List.length_nil] at hlen
    omega
  | cons b tail =>
    rw [startPositions, hcode]
    cases hlen : u.code.length with
    | zero => omega
    | succ len =>
      simp only
      rw [hlen, List.drop_succ_cons] at hdrop
      rw [startPositions_skip, hdrop, h.startPositions_append, List.length_append, hlen]
      congr 2
      omega

theorem nalusAt_stream {units : List CodedNalu} (h : ∀ u ∈ units, Plain u.nalu) (front : List UInt8)
    : nalusAt (front ++ stream units) (startPositions (stream units) front.length 0) = units.map CodedNalu.bytes := by
  induction units generalizing front with
  | nil => rfl
  | cons u units ih =>
    obtain ⟨hfirst, h⟩ := List.forall_mem_cons.mp h
    have hrest := ih h (front ++ u.bytes)
    rw [List.length_append, List.append_assoc] at hrest
    rw [stream_cons, CodedNalu.startPositions_append hfirst, List.map_cons]
    cases units with
    | nil => simp [stream, startPositions, nalusAt]
    | cons next units =>
      rw [stream_cons, CodedNalu.startPositions_append (h next List.mem_cons_self)] at hrest ⊢
      rw [nalusAt, hrest]
      congr 1
      simp

theorem annexB2Nalus_stream {units : List CodedNalu} (hne : units ≠ []) (h : ∀ u ∈ units, Plain u.nalu)
    : annexB2Nalus (stream units) = some (units.map CodedNalu.bytes) := by
  have hlen : ¬(stream units).length < 4 := by
    cases units with
    | nil => exact absurd rfl hne
    | cons u units =>
      have hcode := u.code_length_pos
      have hnalu := List.length_pos_of_ne_nil u.nonempty
      rw [stream_cons, List.length_append, u.length_bytes]
      omega
  have hcut := nalusAt_stream h []
  unfold annexB2Nalus
  rw [if_neg hlen]
  rw [List.nil_append, List.length_nil] at hcut
  rw [hcut]

end Cut

end H264
