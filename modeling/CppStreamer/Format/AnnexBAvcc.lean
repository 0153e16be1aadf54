import CppStreamer.Format.AnnexBCut
import CppStreamer.Format.AvccNalus

/-!
This module contains `AnnexB2Avcc`, and the streams whose NALUs are the same behind the lengths that it puts in front of
them.
-/

open ByteStream Checked Reading

namespace H264

/--
The positions behind the start codes from `pos` on, behind some bytes that are skipped.
-/
def codeEnds : List UInt8 → Nat → Nat → List Nat
  | [], _, _ => []
  | _ :: data, pos, skip + 1 => codeEnds data (pos + 1) skip
  | b :: data, pos, 0 =>
    match startCodeLen (b :: data) with
    | 0 => codeEnds data (pos + 1) 0
    | len + 1 => (pos + (len + 1)) :: codeEnds data (pos + 1) len

/--
Each buffer ends behind the start code of the next one. The length in front of it has 32 bits.
-/
def avccAt (data : List UInt8) : List Nat → List (List UInt8)
  | [] => []
  | pos :: positions =>
    let naluSize := positions.headD data.length - pos
    (write4Bytes naluSize ++ (data.drop pos).take naluSize) :: avccAt data positions

def annexB2Avcc (data : List UInt8) : Option (List (List UInt8)) :=
  if data.length < 4 then none else some (avccAt data (codeEnds data 0 0))

/--
The buffers that `AnnexB2Avcc` returns, behind each other.
-/
def avccStream (data : List UInt8) : List UInt8 := ((annexB2Avcc data).getD []).flatten

/--
A NALU without its start code.
-/
def payload (nalu : List UInt8) : List UInt8 := nalu.drop (startCodeLen nalu)

/--
The NALUs behind lengths are those behind start codes, and the lengths add up.
-/
structure RoundTrips (mem : Nat → UInt8) (data : List UInt8) : Prop where
  payloads : ((Avcc.avcc2Nalus mem (avccStream data).length).value.2.map payload)
    = ((annexB2Nalus data).getD []).map payload
  lengths : (((annexB2Avcc data).getD []).map fun buffer => 4 + read4Bytes buffer).sum = (avccStream data).length

/--
There is no start code, or only one, and what follows it is not too long for `Avcc2Nalus`.
-/
def AtMostOneNalu (data : List UInt8) : Prop :=
  (∀ code, IsStartCode code → ¬code <:+: data)
    ∨ ∃ front long nalu, data = front ++ (codeOf long ++ nalu) ∧ nalu.length ≤ Flv.kMaxLen
      ∧ (∀ pos < front.length, ∀ code, IsStartCode code → ¬code <+: data.drop pos)
      ∧ ∀ code, IsStartCode code → ¬code <:+: nalu

section Buffers

/--
What is between the start code of a piece and the end of the next one.
-/
def behindCodes : List Piece → List (List UInt8)
  | [] => []
  | [p] => [p.body]
  | p :: next :: pieces => (p.body ++ next.code) :: behindCodes (next :: pieces)

def lengthPrefixed (nalu : List UInt8) : List UInt8 := write4Bytes nalu.length ++ nalu

def ends (pos : Nat) : List Piece → List Nat
  | [] => []
  | p :: pieces => (pos + p.code.length) :: ends (pos + p.bytes.length) pieces

variable {data front : List UInt8} {pieces : List Piece}

theorem codeEnds_skip (data : List UInt8) (pos skip : Nat)
    : codeEnds data pos skip = codeEnds (data.drop skip) (pos + skip) 0 := by
  induction data generalizing pos skip with
  | nil => simp [codeEnds]
  | cons b data ih =>
    cases skip with
    | zero => rfl
    | succ skip =>
      rw [codeEnds, ih, List.drop_succ_cons]
      congr 1
      omega

theorem codeEnds_codeOf (long : Bool) (data : List UInt8) (pos : Nat)
    : codeEnds (codeOf long ++ data) pos 0
        = (pos + (codeOf long).length) :: codeEnds data (pos + (codeOf long).length) 0 := by
  cases long
  all_goals exact congrArg (_ :: ·) (codeEnds_skip _ _ _)

theorem Cut.codeEnds_eq (h : Cut data front pieces) (pos : Nat)
    : codeEnds data pos 0 = ends (pos + front.length) pieces := by
  induction h generalizing pos with
  | nil => rfl
  | byte hcode _ ih =>
    rw [codeEnds, hcode]
    simp only
    rw [ih, List.length_cons, Nat.add_assoc, Nat.add_comm 1]
  | @code data front pieces long _ ih =>
    have hlen : (⟨long, front⟩ : Piece).bytes.length = (codeOf long).length + front.length := List.length_append
    rw [codeEnds_codeOf, ih, ends, hlen, Nat.add_assoc]
    rfl

theorem avccAt_ends (before : List UInt8) (pieces : List Piece)
    : avccAt (before ++ pieces.flatMap Piece.bytes) (ends before.length pieces)
        = (behindCodes pieces).map lengthPrefixed := by
  induction pieces generalizing before with
  | nil => rfl
  | cons p pieces ih =>
    have hrest := ih (before ++ p.bytes)
    have hbehind : (before ++ (p.bytes ++ pieces.flatMap Piece.bytes)).drop (before.length + p.code.length)
        = p.body ++ pieces.flatMap Piece.bytes := by
      unfold Piece.bytes
      rw [← List.drop_drop, List.drop_left, List.append_assoc, List.drop_left]
    have hlen : p.bytes.length = p.code.length + p.body.length := List.length_append
    rw [List.length_append, List.append_assoc] at hrest
    rw [List.flatMap_cons, ends, avccAt, hrest, hbehind]
    cases pieces with
    | nil =>
      have hsize : (before ++ p.bytes).length - (before.length + p.code.length) = p.body.length := by
        rw [List.length_append, hlen]
        omega
      simp only [List.flatMap_nil, ends, List.headD_nil, List.append_nil, hsize, List.take_length]
      rfl
    | cons next pieces =>
      have hsize : before.length + p.bytes.length + next.code.length - (before.length + p.code.length)
          = (p.body ++ next.code).length := by
        rw [List.length_append, hlen]
        omega
      have htake : (p.body ++ (next :: pieces).flatMap Piece.bytes).take (p.body ++ next.code).length
          = p.body ++ next.code := by
        rw [List.flatMap_cons, Piece.bytes, List.append_assoc, ← List.append_assoc, List.take_left]
      simp only [ends, List.headD_cons, hsize, htake]
      rfl

theorem Cut.annexB2Avcc_eq (h : Cut data front pieces) (hlen : 4 ≤ data.length)
    : annexB2Avcc data = some ((behindCodes pieces).map lengthPrefixed) := by
  unfold annexB2Avcc
  rw [if_neg (by omega), h.codeEnds_eq 0, Nat.zero_add]
  conv =>
    lhs
    rw [h.eq_append]
  rw [avccAt_ends]

end Buffers

section RoundTrip

variable {mem : Nat → UInt8} {data front nalu rest : List UInt8} {pieces : List Piece}

theorem payload_codeOf (long : Bool) (nalu : List UInt8) : payload (codeOf long ++ nalu) = nalu := by
  unfold payload
  rw [startCodeLen_codeOf, List.drop_left]

theorem map_payload_bytes (pieces : List Piece) : (pieces.map Piece.bytes).map payload = pieces.map Piece.body := by
  rw [List.map_map]
  apply List.map_congr_left
  intro p _
  exact payload_codeOf p.long p.body

/--
The first NALU that is accepted has as many bytes as the 32 bits of its length say.
-/
theorem first_payload (hmem : HoldsAt mem 0 (lengthPrefixed nalu ++ rest)) {p : List UInt8} {ps : List (List UInt8)}
    (h : (Avcc.avcc2Nalus mem (lengthPrefixed nalu ++ rest).length).value.2.map payload = p :: ps)
    : nalu.length % 2 ^ 32 = p.length ∧ p.length ≤ Flv.kMaxLen := by
  have hlen : 4 ≤ (lengthPrefixed nalu ++ rest).length := by
    rw [List.length_append, lengthPrefixed, List.length_append, length_write4Bytes]
    omega
  have hread : read4Bytes (bytesAt mem 0 4) = nalu.length % 2 ^ 32 := by
    unfold lengthPrefixed at hmem
    rw [List.append_assoc] at hmem
    have hlength : bytesAt mem 0 4 = write4Bytes nalu.length := bytesAt_append hmem rfl
    rw [hlength, ← List.append_nil (write4Bytes _), read4Bytes_write4Bytes]
  unfold Avcc.avcc2Nalus at h
  rw [if_neg (by omega), Avcc.nalusFrom, if_neg (by omega)] at h
  simp only [value_bind, readBytes_value, hread] at h
  split at h
  . cases h
  . next hle =>
    simp only [value_bind, value_pure, List.map_cons, List.cons.injEq] at h
    have hpayload := congrArg List.length h.left
    change (payload (codeOf true ++ _)).length = _ at hpayload
    rw [payload_codeOf, readBytes_value, length_bytesAt] at hpayload
    exact ⟨hpayload, by omega⟩

theorem Piece.length_code (p : Piece) : p.code.length = 3 ∨ p.code.length = 4 := by
  unfold code
  cases p.long
  . exact Or.inl rfl
  . exact Or.inr rfl

theorem one_of_length (h : Cut data front pieces) (hlen : data.length < 4)
    : pieces = [] ∨ ∃ p, pieces = [p] ∧ p.body.length ≤ Flv.kMaxLen := by
  have hdata := congrArg List.length h.eq_append
  rw [List.length_append] at hdata
  match pieces with
  | [] => exact Or.inl rfl
  | [p] =>
    rw [List.flatMap_singleton, Piece.bytes, List.length_append] at hdata
    have hshort : p.body.length ≤ Flv.kMaxLen := by
      unfold Flv.kMaxLen
      omega
    exact Or.inr ⟨p, rfl, hshort⟩
  | p :: next :: pieces =>
    have hcode := p.length_code
    have hnext := next.length_code
    rw [List.flatMap_cons, List.flatMap_cons, Piece.bytes, Piece.bytes, List.length_append, List.length_append,
      List.length_append, List.length_append] at hdata
    omega

theorem annexB2_short (hlen : data.length < 4)
    : annexB2Nalus data = none ∧ annexB2Avcc data = none := ⟨if_pos hlen, if_pos hlen⟩

theorem roundTrips_of_none (hnalus : (annexB2Nalus data).getD [] = []) (havcc : (annexB2Avcc data).getD [] = [])
    : RoundTrips mem data := by
  have hstream : avccStream data = [] := congrArg List.flatten havcc
  constructor
  . rw [hnalus, hstream]
    rfl
  . rw [havcc, hstream]
    rfl

theorem roundTrips_of_one (h : Cut data front pieces) (hlen : 4 ≤ data.length)
    (hmem : HoldsAt mem 0 (avccStream data)) {p : Piece} (hone : pieces = [p]) (hshort : p.body.length ≤ Flv.kMaxLen)
    : RoundTrips mem data := by
  have havcc := h.annexB2Avcc_eq hlen
  have hnalus := h.annexB2Nalus_eq hlen
  rw [hone] at havcc hnalus
  have hstream : avccStream data = Flv.avcc [p.body] := by
    unfold avccStream
    rw [havcc]
    rfl
  rw [hstream] at hmem
  have hprefixed : Avcc.LengthPrefixed (Flv.avcc [p.body]) [p.body] := by
    refine ⟨List.cons_ne_nil _ _, ?_, rfl⟩
    rw [Avcc.short_cons]
    exact ⟨hshort, fun _ hnalu => absurd hnalu List.not_mem_nil⟩
  constructor
  . rw [hnalus, hstream, Avcc.avcc2Nalus_of_lengthPrefixed hmem hprefixed]
    exact (congrArg ([·]) (payload_codeOf true p.body)).trans (map_payload_bytes [p]).symm
  . have hread : read4Bytes (lengthPrefixed p.body) = p.body.length := by
      rw [lengthPrefixed, read4Bytes_append _ _ (length_write4Bytes _).ge, Avcc.read4Bytes_write4Bytes_length hshort]
    rw [hstream, havcc, Flv.length_avcc_cons]
    change 4 + read4Bytes (lengthPrefixed p.body) = _
    rw [hread]
    rfl

/--
Of more than one piece the first is longer behind its length than behind its start code.
-/
theorem one_of_roundTrips (h : Cut data front pieces) (hlen : 4 ≤ data.length)
    (hmem : HoldsAt mem 0 (avccStream data)) (hround : RoundTrips mem data)
    : pieces = [] ∨ ∃ p, pieces = [p] ∧ p.body.length ≤ Flv.kMaxLen := by
  have havcc := h.annexB2Avcc_eq hlen
  have hpayloads := hround.payloads
  rw [h.annexB2Nalus_eq hlen, Option.getD_some, map_payload_bytes] at hpayloads
  unfold avccStream at hmem hpayloads
  rw [havcc] at hmem hpayloads
  match pieces with
  | [] => exact Or.inl rfl
  | [p] =>
    rcases first_payload hmem hpayloads with ⟨-, hshort⟩
    exact Or.inr ⟨p, rfl, hshort⟩
  | p :: next :: pieces =>
    rcases first_payload hmem hpayloads with ⟨hmod, hshort⟩
    have hcode := next.length_code
    rw [List.length_append] at hmod
    unfold Flv.kMaxLen at hshort
    omega

end RoundTrip

section Condition

variable {mem : Nat → UInt8} {data front nalu : List UInt8} {pieces : List Piece}

theorem startCodeLen_of_clear (h : ∀ code, IsStartCode code → ¬code <+: data) : startCodeLen data = 0 := by
  by_contra hcode
  rcases exists_codeOf hcode with ⟨long, rest, rfl⟩
  exact h _ (isStartCode_codeOf long) (List.prefix_append _ _)

theorem cut_of_clear (h : ∀ code, IsStartCode code → ¬code <:+: data) : Cut data data [] := by
  induction data with
  | nil => exact .nil
  | cons b data ih =>
    apply Cut.byte
    . apply startCodeLen_of_clear
      intro code hcode hprefix
      exact h code hcode hprefix.isInfix
    . apply ih
      intro code hcode hcontains
      exact h code hcode (hcontains.trans (List.suffix_cons b data).isInfix)

theorem cut_append (h : Cut data [] pieces)
    (hfront : ∀ pos < front.length, ∀ code, IsStartCode code → ¬code <+: (front ++ data).drop pos)
    : Cut (front ++ data) front pieces := by
  induction front with
  | nil => exact h
  | cons b front ih =>
    apply Cut.byte
    . apply startCodeLen_of_clear
      exact hfront 0 (Nat.succ_pos _)
    . apply ih
      intro pos hpos
      exact hfront (pos + 1) (Nat.succ_lt_succ hpos)

theorem annexB2Avcc_roundTrips_iff (hmem : HoldsAt mem 0 (avccStream data))
    : RoundTrips mem data ↔ AtMostOneNalu data := by
  constructor
  . intro hround
    rcases Cut.exists_cut data with ⟨front, pieces, h⟩
    have hone : pieces = [] ∨ ∃ p, pieces = [p] ∧ p.body.length ≤ Flv.kMaxLen := by
      by_cases hlen : data.length < 4
      . exact one_of_length h hlen
      . exact one_of_roundTrips h (by omega) hmem hround
    rcases hone with rfl | ⟨p, rfl, hshort⟩
    . left
      intro code hcode
      have hdata := h.eq_append
      rw [List.flatMap_nil, List.append_nil] at hdata
      rw [hdata]
      exact h.front_clear hcode
    . right
      refine ⟨front, p.long, p.body, ?_, hshort, ?_, ?_⟩
      . rw [h.eq_append, List.flatMap_singleton]
        rfl
      . exact fun pos hpos code hcode => h.front_clear_at hpos hcode
      . exact fun code hcode => h.body_clear List.mem_cons_self hcode
  . intro h
    by_cases hlen : data.length < 4
    . rcases annexB2_short hlen with ⟨hnalus, havcc⟩
      apply roundTrips_of_none
      . rw [hnalus]
        rfl
      . rw [havcc]
        rfl
    . rcases h with hclear | ⟨front, long, nalu, rfl, hshort, hfront, hnalu⟩
      . have hcut := cut_of_clear hclear
        apply roundTrips_of_none
        . rw [hcut.annexB2Nalus_eq (by omega)]
          rfl
        . rw [hcut.annexB2Avcc_eq (by omega)]
          rfl
      . exact roundTrips_of_one (cut_append (.code long (cut_of_clear hnalu)) hfront) (by omega) hmem rfl hshort

/--
One NALU, and two of them: the first is returned with the start code of the second behind it.
-/
theorem annexB2Avcc_roundTrips_one : RoundTrips ((avccStream [0, 0, 1, 0x65]).getD · 0) [0, 0, 1, 0x65] := by
  apply (annexB2Avcc_roundTrips_iff (holdsAt_getD _ _)).mpr
  refine Or.inr ⟨[], false, [0x65], rfl, by decide, fun pos hpos => absurd hpos (Nat.not_lt_zero _), ?_⟩
  rintro code (rfl | rfl)
  all_goals decide

theorem annexB2Avcc_two_nalus
    : ¬RoundTrips ((avccStream [0, 0, 1, 0x65, 0, 0, 1, 0x41]).getD · 0) [0, 0, 1, 0x65, 0, 0, 1, 0x41] := by
  intro hround
  have hcut : Cut [0, 0, 1, 0x65, 0, 0, 1, 0x41] [] [⟨false, [0x65]⟩, ⟨false, [0x41]⟩] :=
    .code false (.byte rfl (.code false (.byte rfl .nil)))
  rcases one_of_roundTrips hcut (by decide) (holdsAt_getD _ _) hround with h | ⟨p, h, -⟩
  . cases h
  . cases h

end Condition

end H264
