import CppStreamer.Format.AnnexB

/-!
This module contains the pieces that `AnnexB2Nalus` cuts any bytes into.
-/

namespace H264

/--
The codes in front of a NALU.
-/
def IsStartCode (code : List UInt8) : Prop := code = startCode ∨ code = shortStartCode

/--
A piece with its start code. There may be nothing behind it.
-/
structure Piece where
  long : Bool
  body : List UInt8
  deriving DecidableEq, Repr

def codeOf (long : Bool) : List UInt8 := if long then startCode else shortStartCode

namespace Piece

def code (p : Piece) : List UInt8 := codeOf p.long

def bytes (p : Piece) : List UInt8 := p.code ++ p.body

end Piece

/--
Bytes that are cut at their start codes: what is in front of the first one, and the pieces.
-/
inductive Cut : List UInt8 → List UInt8 → List Piece → Prop where
  | nil : Cut [] [] []
  | byte {b : UInt8} {data front : List UInt8} {pieces : List Piece} (hcode : startCodeLen (b :: data) = 0)
      (h : Cut data front pieces)
      : Cut (b :: data) (b :: front) pieces
  | code {data front : List UInt8} {pieces : List Piece} (long : Bool) (h : Cut data front pieces)
      : Cut (codeOf long ++ data) [] (⟨long, front⟩ :: pieces)

section Code

theorem isStartCode_codeOf (long : Bool) : IsStartCode (codeOf long) := by
  unfold codeOf
  split
  . exact Or.inl rfl
  . exact Or.inr rfl

theorem startCodeLen_codeOf (long : Bool) (data : List UInt8)
    : startCodeLen (codeOf long ++ data) = (codeOf long).length := by
  cases long
  all_goals rfl

theorem exists_codeOf {data : List UInt8} (h : startCodeLen data ≠ 0)
    : ∃ long rest, data = codeOf long ++ rest := by
  unfold startCodeLen at h
  split at h
  . next rest => exact ⟨true, rest, rfl⟩
  . next rest => exact ⟨false, rest, rfl⟩
  . exact absurd rfl h

theorem startCodeLen_of_isStartCode {code : List UInt8} (h : IsStartCode code) (data : List UInt8)
    : startCodeLen (code ++ data) ≠ 0 := by
  rcases h with rfl | rfl
  . exact Nat.succ_ne_zero 3
  . exact Nat.succ_ne_zero 2

end Code

namespace Cut

theorem exists_cut (data : List UInt8) : ∃ front pieces, Cut data front pieces := by
  induction hlen : data.length using Nat.strongRecOn generalizing data with
  | ind n ih =>
    subst hlen
    by_cases hcode : startCodeLen data = 0
    . cases data with
      | nil => exact ⟨[], [], .nil⟩
      | cons b data =>
        rcases ih data.length (Nat.lt_succ_self _) data rfl with ⟨front, pieces, h⟩
        exact ⟨b :: front, pieces, .byte hcode h⟩
    . rcases exists_codeOf hcode with ⟨long, rest, rfl⟩
      have hless : rest.length < (codeOf long ++ rest).length := by
        rw [List.length_append, ← startCodeLen_codeOf long rest]
        omega
      rcases ih rest.length hless rest rfl with ⟨front, pieces, h⟩
      exact ⟨[], ⟨long, front⟩ :: pieces, .code long h⟩

variable {data front : List UInt8} {pieces : List Piece}

theorem eq_append (h : Cut data front pieces) : data = front ++ pieces.flatMap Piece.bytes := by
  induction h with
  | nil => rfl
  | byte _ _ ih => exact congrArg _ ih
  | code long _ ih =>
    rw [List.nil_append, List.flatMap_cons, ih]
    exact (List.append_assoc _ _ _).symm

/--
No start code begins in front of the first piece.
-/
theorem front_none (h : Cut data front pieces) (pos : Nat) (hpos : pos < front.length)
    : startCodeLen (data.drop pos) = 0 := by
  induction h generalizing pos with
  | nil => exact absurd hpos (Nat.not_lt_zero _)
  | byte hcode _ ih =>
    cases pos with
    | zero => exact hcode
    | succ pos => exact ih pos (Nat.lt_of_succ_lt_succ hpos)
  | code => exact absurd hpos (Nat.not_lt_zero _)

theorem front_clear_at (h : Cut data front pieces) {pos : Nat} (hpos : pos < front.length) {code : List UInt8}
    (hcode : IsStartCode code)
    : ¬code <+: data.drop pos := by
  rintro ⟨rest, hdata⟩
  have hnone := h.front_none pos hpos
  rw [← hdata] at hnone
  exact startCodeLen_of_isStartCode hcode rest hnone

theorem front_clear (h : Cut data front pieces) {code : List UInt8} (hcode : IsStartCode code)
    : ¬code <:+: front := by
  rintro ⟨before, after, hfront⟩
  have hlen := congrArg List.length hfront
  have hcodeLen : 0 < code.length := by
    rcases hcode with rfl | rfl
    all_goals decide
  rw [List.length_append, List.length_append] at hlen
  have hnone := h.front_none before.length (by omega)
  rw [h.eq_append, ← hfront, List.append_assoc, List.append_assoc, List.drop_left] at hnone
  exact startCodeLen_of_isStartCode hcode _ hnone

theorem body_clear (h : Cut data front pieces) {p : Piece} (hp : p ∈ pieces) {code : List UInt8}
    (hcode : IsStartCode code)
    : ¬code <:+: p.body := by
  induction h with
  | nil => cases hp
  | byte _ _ ih => exact ih hp
  | code long h ih =>
    rcases List.mem_cons.mp hp with rfl | hp
    . exact h.front_clear hcode
    . exact ih hp

end Cut

section Positions

/--
Where the pieces begin.
-/
def beginnings (pos : Nat) : List Piece → List Nat
  | [] => []
  | p :: pieces => pos :: beginnings (pos + p.bytes.length) pieces

variable {data front : List UInt8} {pieces : List Piece}

theorem startPositions_codeOf (long : Bool) (data : List UInt8) (pos : Nat)
    : startPositions (codeOf long ++ data) pos 0 = pos :: startPositions data (pos + (codeOf long).length) 0 := by
  cases long
  all_goals exact congrArg (pos :: ·) (startPositions_skip _ _ _)

theorem Cut.startPositions_eq (h : Cut data front pieces) (pos : Nat)
    : startPositions data pos 0 = beginnings (pos + front.length) pieces := by
  induction h generalizing pos with
  | nil => rfl
  | byte hcode _ ih =>
    rw [startPositions, hcode]
    simp only
    rw [ih, List.length_cons, Nat.add_assoc, Nat.add_comm 1]
  | @code data front pieces long _ ih =>
    have hlen : (⟨long, front⟩ : Piece).bytes.length = (codeOf long).length + front.length := List.length_append
    rw [startPositions_codeOf, ih, beginnings, hlen, Nat.add_assoc]
    rfl

theorem nalusAt_beginnings (before : List UInt8) (pieces : List Piece)
    : nalusAt (before ++ pieces.flatMap Piece.bytes) (beginnings before.length pieces) = pieces.map Piece.bytes := by
  induction pieces generalizing before with
  | nil => rfl
  | cons p pieces ih =>
    have hrest := ih (before ++ p.bytes)
    rw [List.length_append, List.append_assoc] at hrest
    cases pieces with
    | nil => simp [beginnings, nalusAt]
    | cons next pieces =>
      rw [List.flatMap_cons, beginnings, beginnings, nalusAt, List.map_cons]
      rw [beginnings] at hrest
      rw [hrest]
      simp

theorem Cut.annexB2Nalus_eq (h : Cut data front pieces) (hlen : 4 ≤ data.length)
    : annexB2Nalus data = some (pieces.map Piece.bytes) := by
  unfold annexB2Nalus
  rw [if_neg (by omega), h.startPositions_eq 0, Nat.zero_add]
  conv =>
    lhs
    rw [h.eq_append]
  rw [nalusAt_beginnings]

end Positions

/--
The pieces are what the data is from its first start code on, each of them has a start code in front and no other one
behind it, and a stream of NALUs is cut into these.
-/
theorem annexB2Nalus_pieces
    : (∀ data : List UInt8, 4 ≤ data.length → ∃ (front : List UInt8) (pieces : List Piece),
          annexB2Nalus data = some (pieces.map Piece.bytes) ∧ data = front ++ (pieces.map Piece.bytes).flatten
            ∧ (∀ pos < front.length, ∀ code, IsStartCode code → ¬code <+: data.drop pos)
            ∧ ∀ p ∈ pieces, IsStartCode p.code ∧ ∀ code, IsStartCode code → ¬code <:+: p.body)
        ∧ ∀ units : List CodedNalu, (∀ u ∈ units, Plain u.nalu) →
          (annexB2Nalus (stream units)).getD [] = units.map CodedNalu.bytes
            ∧ (units ≠ [] → annexB2Nalus (stream units) = some (units.map CodedNalu.bytes)) := by
  constructor
  . intro data hlen
    rcases Cut.exists_cut data with ⟨front, pieces, h⟩
    refine ⟨front, pieces, h.annexB2Nalus_eq hlen, h.eq_append, ?_, ?_⟩
    . exact fun pos hpos code hcode => h.front_clear_at hpos hcode
    . intro p hp
      exact ⟨isStartCode_codeOf p.long, fun code hcode => h.body_clear hp hcode⟩
  . intro units h
    cases units with
    | nil => exact ⟨rfl, fun hne => absurd rfl hne⟩
    | cons u units =>
      have hcut := annexB2Nalus_stream (List.cons_ne_nil u units) h
      refine ⟨?_, fun _ => hcut⟩
      rw [hcut]
      rfl

end H264
