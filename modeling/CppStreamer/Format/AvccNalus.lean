import CppStreamer.Basic.Reading
import CppStreamer.Format.Flv.RoundTrip

/-!
This module contains `Avcc2Nalus` with what it reads, and the bytes that it splits without reading behind them.
-/

open ByteStream Checked Reading

namespace Avcc

/--
The loop of `Avcc2Nalus`: whether it comes to the end, and the NALUs up to there.
-/
def nalusFrom (mem : Nat → UInt8) (pos : Nat) (dataLen : Int) : Checked Span (Bool × List (List UInt8)) :=
  if dataLen ≤ 0 then return (true, [])
  else do
    let naluLen := read4Bytes (← readBytes mem pos 4)
    if Flv.kMaxLen < naluLen then return (false, [])
    else do
      let nalu ← readBytes mem (pos + 4) naluLen
      let rest ← nalusFrom mem (pos + 4 + naluLen) (dataLen - 4 - naluLen)
      return (rest.1, (H264.startCode ++ nalu) :: rest.2)
termination_by dataLen.toNat
decreasing_by omega

def avcc2Nalus (mem : Nat → UInt8) (len : Nat) : Checked Span (Bool × List (List UInt8)) :=
  if len < 4 then return (false, []) else nalusFrom mem 0 len

/--
NALUs that are not longer than the longest one that is accepted.
-/
def Short (nalus : List (List UInt8)) : Prop := ∀ nalu ∈ nalus, nalu.length ≤ Flv.kMaxLen

/--
What follows the NALUs: nothing, or a length that is too long.
-/
def Ending (rest : List UInt8) : Prop := rest = [] ∨ (4 ≤ rest.length ∧ Flv.kMaxLen < read4Bytes rest)

/--
NALUs with their lengths in front, up to the end or up to a length that is too long.
-/
def Walkable (data : List UInt8) : Prop :=
  ∃ nalus rest, Short nalus ∧ data = Flv.avcc nalus ++ rest ∧ Ending rest

/--
One NALU or more, with their lengths in front.
-/
def LengthPrefixed (data : List UInt8) (nalus : List (List UInt8)) : Prop :=
  nalus ≠ [] ∧ Short nalus ∧ data = Flv.avcc nalus

/--
Success is reported for a sequence of NALUs with their lengths in front and for nothing else, these are the NALUs that
are returned, and only the data is read.
-/
structure Splits (mem : Nat → UInt8) (data : List UInt8) : Prop where
  success : (avcc2Nalus mem data.length).value.1 = true ↔ ∃ nalus, LengthPrefixed data nalus
  nalus : ∀ nalus, LengthPrefixed data nalus →
    (avcc2Nalus mem data.length).value.2 = nalus.map (H264.startCode ++ ·)
  inside : (avcc2Nalus mem data.length).Passes (Span.Within data.length)

section Steps

variable {mem : Nat → UInt8} {pos total : Nat} {data rest nalu : List UInt8} {nalus : List (List UInt8)}

theorem short_cons : Short (nalu :: nalus) ↔ nalu.length ≤ Flv.kMaxLen ∧ Short nalus := List.forall_mem_cons

theorem avcc_cons (nalu : List UInt8) (nalus : List (List UInt8))
    : Flv.avcc (nalu :: nalus) = write4Bytes nalu.length ++ (nalu ++ Flv.avcc nalus) :=
  (List.append_assoc _ _ _)

theorem read4Bytes_write4Bytes_length (hshort : nalu.length ≤ Flv.kMaxLen)
    : read4Bytes (write4Bytes nalu.length) = nalu.length := by
  apply read4Bytes_write4Bytes_of_lt
  unfold Flv.kMaxLen at hshort
  omega

/--
One NALU and its length are read, and the loop goes on behind them.
-/
theorem nalusFrom_nalu (hmem : HoldsAt mem pos (write4Bytes nalu.length ++ (nalu ++ rest)))
    (hshort : nalu.length ≤ Flv.kMaxLen) (htotal : pos + (4 + nalu.length + rest.length) = total)
    : (nalusFrom mem pos (4 + nalu.length + rest.length : Nat)).value
          = ((nalusFrom mem (pos + 4 + nalu.length) rest.length).value.1,
            (H264.startCode ++ nalu) :: (nalusFrom mem (pos + 4 + nalu.length) rest.length).value.2)
        ∧ ((nalusFrom mem pos (4 + nalu.length + rest.length : Nat)).Passes (Span.Within total)
          ↔ (nalusFrom mem (pos + 4 + nalu.length) rest.length).Passes (Span.Within total)) := by
  have hlength : bytesAt mem pos 4 = write4Bytes nalu.length := bytesAt_append hmem rfl
  have hnalu : bytesAt mem (pos + 4) nalu.length = nalu := bytesAt_append (hmem.right rfl) rfl
  have hleft : ((4 + nalu.length + rest.length : Nat) : Int) - 4 - nalu.length = rest.length := by omega
  have hread : pos + 4 ≤ total := by omega
  have hpass : pos + 4 + nalu.length ≤ total := by omega
  rw [nalusFrom, if_neg (by omega)]
  simp only [value_bind, passes_bind, readBytes_value, readBytes_passes, hlength, read4Bytes_write4Bytes_length hshort]
  rw [if_neg (by omega)]
  simp only [value_bind, value_pure, passes_bind, passes_pure, readBytes_value, readBytes_passes, hnalu, hleft, hread,
    hpass, true_and, and_true]

theorem nalusFrom_ending (hmem : HoldsAt mem pos rest) (h : Ending rest) (htotal : pos + rest.length = total)
    : (nalusFrom mem pos rest.length).value = (decide (rest = []), [])
        ∧ (nalusFrom mem pos rest.length).Passes (Span.Within total) := by
  rcases h with rfl | ⟨hlen, hlong⟩
  . rw [nalusFrom]
    exact ⟨rfl, passes_pure _⟩
  . have hlength : bytesAt mem pos 4 = rest.take 4 := bytesAt_take hmem hlen
    have hread : read4Bytes (rest.take 4) = read4Bytes rest := by
      rw [← read4Bytes_append _ (rest.drop 4), List.take_append_drop]
      rw [List.length_take]
      omega
    have hne : rest ≠ [] := List.ne_nil_of_length_pos (by omega)
    rw [nalusFrom, if_neg (by omega)]
    simp only [value_bind, passes_bind, readBytes_value, readBytes_passes, hlength, hread, if_pos hlong, value_pure,
      passes_pure, and_true]
    rw [decide_eq_false hne]
    exact ⟨rfl, by omega⟩

theorem nalusFrom_walk (hmem : HoldsAt mem pos (Flv.avcc nalus ++ rest)) (hshort : Short nalus) (h : Ending rest)
    (htotal : pos + (Flv.avcc nalus ++ rest).length = total)
    : (nalusFrom mem pos (Flv.avcc nalus ++ rest).length).value
          = (decide (rest = []), nalus.map (H264.startCode ++ ·))
        ∧ (nalusFrom mem pos (Flv.avcc nalus ++ rest).length).Passes (Span.Within total) := by
  induction nalus generalizing pos with
  | nil => exact nalusFrom_ending hmem h htotal
  | cons nalu nalus ih =>
    rcases short_cons.mp hshort with ⟨hnalu, hshort⟩
    have hlen : (Flv.avcc (nalu :: nalus) ++ rest).length = 4 + nalu.length + (Flv.avcc nalus ++ rest).length := by
      rw [List.length_append, List.length_append, Flv.length_avcc_cons, Nat.add_assoc]
    rw [avcc_cons, List.append_assoc, List.append_assoc] at hmem
    rw [hlen] at htotal ⊢
    rcases nalusFrom_nalu hmem hnalu htotal with ⟨hvalue, hpasses⟩
    have hrest : HoldsAt mem (pos + 4 + nalu.length) (Flv.avcc nalus ++ rest) := (hmem.right rfl).right rfl
    rcases ih hrest hshort (by omega) with ⟨hvalue', hpasses'⟩
    rw [hvalue, hvalue', hpasses]
    exact ⟨rfl, hpasses'⟩

/--
What the loop reads within the data is a length in front, which is too long or followed by its NALU.
-/
theorem walkable_of_passes (hmem : HoldsAt mem pos data) (htotal : pos + data.length = total)
    (h : (nalusFrom mem pos data.length).Passes (Span.Within total))
    : Walkable data := by
  induction hsize : data.length using Nat.strongRecOn generalizing data pos with
  | ind size ih =>
    subst hsize
    by_cases hempty : data = []
    . exact ⟨[], [], fun _ hnalu => absurd hnalu List.not_mem_nil, hempty, Or.inl rfl⟩
    . have hpos : 0 < data.length := List.length_pos_of_ne_nil hempty
      have hread : pos + 4 ≤ total := by
        rw [nalusFrom, if_neg (by omega), passes_bind, readBytes_passes] at h
        exact h.left
      have hlength : read4Bytes (bytesAt mem pos 4) = read4Bytes data := by
        rw [bytesAt_take hmem (by omega), ← read4Bytes_append _ (data.drop 4), List.take_append_drop]
        rw [List.length_take]
        omega
      by_cases hlong : Flv.kMaxLen < read4Bytes data
      . exact ⟨[], data, fun _ hnalu => absurd hnalu List.not_mem_nil, rfl, Or.inr ⟨by omega, hlong⟩⟩
      . have hpass : pos + 4 + read4Bytes data ≤ total := by
          rw [nalusFrom, if_neg (by omega), passes_bind, readBytes_value, hlength, if_neg hlong, passes_bind] at h
          exact readBytes_passes.mp h.right.left
        have hnaluLen : ((data.drop 4).take (read4Bytes data)).length = read4Bytes data := by
          rw [List.length_take, List.length_drop]
          omega
        have hdata : data = write4Bytes (read4Bytes data)
            ++ ((data.drop 4).take (read4Bytes data) ++ (data.drop 4).drop (read4Bytes data)) := by
          have hfour : (data.take 4).length = 4 := by
            rw [List.length_take]
            omega
          have hwrite := write4Bytes_read4Bytes hfour
          rw [← read4Bytes_append _ (data.drop 4) hfour.ge, List.take_append_drop] at hwrite
          rw [List.take_append_drop, hwrite, List.take_append_drop]
        generalize (data.drop 4).drop (read4Bytes data) = rest at hdata
        generalize (data.drop 4).take (read4Bytes data) = nalu at hdata hnaluLen
        rw [← hnaluLen] at hdata hlong
        have hlen : data.length = 4 + nalu.length + rest.length := by
          rw [hdata, List.length_append, List.length_append, Nat.add_assoc]
          rfl
        rw [hdata] at hmem
        rw [hlen, (nalusFrom_nalu hmem (by omega) (by omega)).right] at h
        have hrest : HoldsAt mem (pos + 4 + nalu.length) rest := (hmem.right rfl).right rfl
        rcases ih rest.length (by omega) hrest (by omega) h rfl with ⟨nalus, ending, hshort, rfl, hending⟩
        refine ⟨nalu :: nalus, ending, short_cons.mpr ⟨by omega, hshort⟩, ?_, hending⟩
        rw [hdata, avcc_cons, List.append_assoc, List.append_assoc]

end Steps

section Splitting

variable {mem : Nat → UInt8} {data : List UInt8}

theorem LengthPrefixed.length_ge {nalus : List (List UInt8)} (h : LengthPrefixed data nalus) : 4 ≤ data.length := by
  rcases h with ⟨hne, -, rfl⟩
  cases nalus with
  | nil => exact absurd rfl hne
  | cons nalu nalus =>
    rw [Flv.length_avcc_cons]
    omega

theorem avcc2Nalus_of_lengthPrefixed (hmem : HoldsAt mem 0 data) {nalus : List (List UInt8)}
    (h : LengthPrefixed data nalus)
    : (avcc2Nalus mem data.length).value = (true, nalus.map (H264.startCode ++ ·)) := by
  have hlen := h.length_ge
  rcases h with ⟨-, hshort, rfl⟩
  unfold avcc2Nalus
  rw [if_neg (by omega)]
  rw [← List.append_nil (Flv.avcc nalus)] at hmem ⊢
  exact (nalusFrom_walk hmem hshort (Or.inl rfl) (Nat.zero_add _)).left

theorem splits_of_short (hlen : data.length < 4) : Splits mem data := by
  have hnone : avcc2Nalus mem data.length = pure (false, []) := if_pos hlen
  constructor
  . rw [hnone]
    constructor
    . intro hsuccess
      cases hsuccess
    . rintro ⟨nalus, hprefixed⟩
      have := hprefixed.length_ge
      omega
  . intro nalus hprefixed
    have := hprefixed.length_ge
    omega
  . rw [hnone]
    apply passes_pure

theorem splits_of_walkable (hmem : HoldsAt mem 0 data) (h : Walkable data)
    : Splits mem data := by
  rcases h with ⟨nalus, rest, hshort, hdata, hending⟩
  have hwalk := nalusFrom_walk (hdata ▸ hmem) hshort hending (Nat.zero_add _)
  rw [← hdata] at hwalk
  constructor
  . constructor
    . intro hsuccess
      unfold avcc2Nalus at hsuccess
      split at hsuccess
      . cases hsuccess
      . next hlen =>
        rw [hwalk.left] at hsuccess
        have hrest : rest = [] := of_decide_eq_true hsuccess
        rw [hrest, List.append_nil] at hdata
        refine ⟨nalus, ?_, hshort, hdata⟩
        rintro rfl
        rw [hdata] at hlen
        exact hlen (Nat.succ_pos 3)
    . rintro ⟨nalus, hprefixed⟩
      rw [avcc2Nalus_of_lengthPrefixed hmem hprefixed]
  . intro nalus hprefixed
    rw [avcc2Nalus_of_lengthPrefixed hmem hprefixed]
  . unfold avcc2Nalus
    split
    . exact passes_pure _
    . exact hwalk.right

/--
With fewer bytes than a length has nothing is read, otherwise the data has to be walkable.
-/
theorem avcc2Nalus_splits_iff (hmem : HoldsAt mem 0 data) : Splits mem data ↔ data.length < 4 ∨ Walkable data := by
  constructor
  . intro h
    by_cases hlen : data.length < 4
    . exact Or.inl hlen
    . have hpasses := h.inside
      unfold avcc2Nalus at hpasses
      rw [if_neg hlen] at hpasses
      exact Or.inr (walkable_of_passes hmem (Nat.zero_add _) hpasses)
  . rintro (hlen | h)
    . exact splits_of_short hlen
    . exact splits_of_walkable hmem h

theorem avcc2Nalus_splits_one : Splits ([0, 0, 0, 1, 5].getD · 0) [0, 0, 0, 1, 5] := by
  apply (avcc2Nalus_splits_iff (holdsAt_getD _ _)).mpr
  refine Or.inr ⟨[[5]], [], ?_, rfl, Or.inl rfl⟩
  rintro nalu (_ | ⟨_, ⟨⟩⟩)
  decide

/--
The length of a NALU that does not follow.
-/
theorem avcc2Nalus_truncated : ¬Splits ([0, 0, 0, 1].getD · 0) [0, 0, 0, 1] := by
  intro h
  have hinside := h.inside
  have hlength : read4Bytes (bytesAt ([0, 0, 0, 1].getD · 0) 0 4) = 1 := rfl
  unfold avcc2Nalus at hinside
  rw [if_neg (by decide), nalusFrom, if_neg (by decide), passes_bind, readBytes_value, hlength, if_neg (by decide),
    passes_bind] at hinside
  have hread := readBytes_passes.mp hinside.right.left
  exact absurd hread (by decide)

end Splitting

end Avcc
