import Mathlib.Data.List.Induction
import CppStreamer.Basic.Interleave

/-!
This module contains the model of `NackGenerator`, and when its list holds the packets that are missing.
-/

def sequenceMax : Nat := 65535

/--
The comparison is made on `int`.
-/
def seqLowerThan (seq1 seq2 : UInt16) : Bool :=
  (seq2.toNat < seq1.toNat ∧ sequenceMax / 2 < seq1.toNat - seq2.toNat)
    ∨ (seq1.toNat < seq2.toNat ∧ seq2.toNat - seq1.toNat ≤ sequenceMax / 2)

structure NackInfo where
  seq : UInt16
  sentMs : Int
  retry : Nat
  deriving DecidableEq, Repr

theorem NackInfo.sorted_nil : ([] : List NackInfo).Pairwise (·.seq < ·.seq) := List.Pairwise.nil

/--
A `std::map` with the sequence number of an entry as its key.
-/
structure NackMap where
  infos : List NackInfo := []
  sorted : infos.Pairwise (·.seq < ·.seq) := by exact NackInfo.sorted_nil

namespace NackMap

def keys (m : NackMap) : List UInt16 := m.infos.map (·.seq)

def insertInfo (info : NackInfo) : List NackInfo → List NackInfo
  | [] => [info]
  | i :: infos =>
    if info.seq < i.seq then info :: i :: infos
    else if info.seq = i.seq then i :: infos
    else i :: insertInfo info infos

theorem mem_insertInfo {info i : NackInfo} {infos : List NackInfo} (h : i ∈ insertInfo info infos)
    : i = info ∨ i ∈ infos := by
  induction infos with
  | nil =>
    rw [insertInfo, List.mem_singleton] at h
    exact Or.inl h
  | cons j infos ih =>
    rw [insertInfo] at h
    split at h
    . exact List.mem_cons.mp h
    . split at h
      . exact Or.inr h
      . cases h with
        | head => exact Or.inr (List.mem_cons_self ..)
        | tail _ h =>
          cases ih h with
          | inl h => exact Or.inl h
          | inr h => exact Or.inr (List.mem_cons_of_mem _ h)

theorem insertInfo_sorted (info : NackInfo) {infos : List NackInfo}
    (h : infos.Pairwise (·.seq < ·.seq))
    : (insertInfo info infos).Pairwise (·.seq < ·.seq) := by
  induction infos with
  | nil => exact List.pairwise_singleton _ _
  | cons i infos ih =>
    rw [List.pairwise_cons] at h
    rw [insertInfo]
    split
    . next hlt =>
      rw [List.pairwise_cons]
      refine ⟨?_, List.pairwise_cons.mpr h⟩
      intro j hj
      cases hj with
      | head => exact hlt
      | tail _ hj => exact UInt16.lt_trans hlt (h.left j hj)
    . next hlt =>
      split
      . exact List.pairwise_cons.mpr h
      . next hne =>
        rw [List.pairwise_cons]
        refine ⟨?_, ih h.right⟩
        intro j hj
        cases mem_insertInfo hj with
        | inl hj =>
          rw [hj]
          exact UInt16.lt_of_le_of_ne (UInt16.not_lt.mp hlt) (Ne.symm hne)
        | inr hj => exact h.left j hj

/--
An entry that is there stays.
-/
def insert (m : NackMap) (info : NackInfo) : NackMap where
  infos := insertInfo info m.infos
  sorted := insertInfo_sorted info m.sorted

def erase (m : NackMap) (seq : UInt16) : NackMap where
  infos := m.infos.filter (·.seq ≠ seq)
  sorted := m.sorted.filter _

theorem mem_map_insertInfo (info : NackInfo) (infos : List NackInfo) (n : UInt16)
    : n ∈ (insertInfo info infos).map (·.seq) ↔ n = info.seq ∨ n ∈ infos.map (·.seq) := by
  induction infos with
  | nil => simp [insertInfo]
  | cons i infos ih =>
    rw [insertInfo]
    split
    . rw [List.map_cons, List.mem_cons]
    . split
      . next heq =>
        rw [heq, List.map_cons, List.mem_cons]
        constructor
        . exact Or.inr
        . rintro (h | h)
          . exact Or.inl h
          . exact h
      . rw [List.map_cons, List.map_cons, List.mem_cons, List.mem_cons, ih]
        exact or_left_comm

@[simp]
theorem mem_keys_insert (m : NackMap) (info : NackInfo) (n : UInt16)
    : n ∈ (m.insert info).keys ↔ n = info.seq ∨ n ∈ m.keys := by
  apply mem_map_insertInfo

@[simp]
theorem mem_keys_erase (m : NackMap) (seq n : UInt16) : n ∈ (m.erase seq).keys ↔ n ≠ seq ∧ n ∈ m.keys := by
  simp only [keys, erase, List.mem_map, List.mem_filter, decide_eq_true_eq]
  constructor
  . rintro ⟨info, ⟨hmem, hne⟩, rfl⟩
    exact ⟨hne, info, hmem, rfl⟩
  . rintro ⟨hne, info, hmem, rfl⟩
    exact ⟨info, ⟨hmem, hne⟩, rfl⟩

end NackMap

def nackListMax : Nat := 5000

def nackRetryMax : Nat := 20

structure NackGenerator where
  initFlag : Bool := false
  lastSeq : UInt16 := 0
  nackMap : NackMap := {}
  rtt : Int := 15

namespace NackGenerator

/--
The loop over the sequence numbers in between, with `uint16_t` counters.
-/
def addSeqs (m : NackMap) (keySeq seqEnd : UInt16) : NackMap :=
  if keySeq < seqEnd then addSeqs (m.insert ⟨keySeq, 0, 0⟩) (keySeq + 1) seqEnd else m
termination_by seqEnd.toNat - keySeq.toNat
decreasing_by
  next hlt =>
    have hlt' := UInt16.lt_iff_toNat_lt.mp hlt
    have hend := seqEnd.toNat_lt
    rw [UInt16.toNat_add]
    change seqEnd.toNat - (keySeq.toNat + 1) % 65536 < _
    omega

def updateNackList (s : NackGenerator) (seq : UInt16) : NackGenerator :=
  if ¬s.initFlag then { s with initFlag := true, lastSeq := seq }
  else if seq = s.lastSeq then s
  else if seqLowerThan seq s.lastSeq then { s with nackMap := s.nackMap.erase seq }
  else if s.lastSeq.toNat + 1 = seq.toNat then { s with lastSeq := seq }
  else { s with lastSeq := seq, nackMap := addSeqs s.nackMap (s.lastSeq + 1) seq }

def updateRtt (s : NackGenerator) (rtt : Int) : NackGenerator := { s with rtt }

/--
What the loop of `OnTimer` makes of the entries, and the numbers it asks for again.
-/
def retryInfos (now rtt : Int) : List NackInfo → List NackInfo × List UInt16
  | [] => ([], [])
  | info :: infos =>
    let (kept, lost) := retryInfos now rtt infos
    if nackRetryMax < info.retry then (kept, lost)
    else if now - info.sentMs < rtt then (info :: kept, lost)
    else ({ info with sentMs := now, retry := info.retry + 1 } :: kept, info.seq :: lost)

theorem retryInfos_sublist (now rtt : Int) (infos : List NackInfo)
    : ((retryInfos now rtt infos).1.map (·.seq)).Sublist (infos.map (·.seq))
        ∧ (retryInfos now rtt infos).2.Sublist (infos.map (·.seq)) := by
  induction infos with
  | nil => exact ⟨List.Sublist.refl _, List.Sublist.refl _⟩
  | cons info infos ih =>
    simp only [retryInfos]
    split
    . exact ⟨ih.left.cons _, ih.right.cons _⟩
    . split
      . exact ⟨ih.left.cons_cons _, ih.right.cons _⟩
      . exact ⟨ih.left.cons_cons _, ih.right.cons_cons _⟩

theorem retryInfos_sorted (now rtt : Int) {infos : List NackInfo} (h : infos.Pairwise (·.seq < ·.seq))
    : (retryInfos now rtt infos).1.Pairwise (·.seq < ·.seq) := by
  rw [← List.pairwise_map] at h ⊢
  exact h.sublist (retryInfos_sublist now rtt infos).left

/--
The entries with the lowest numbers go when there are too many.
-/
def onTimer (s : NackGenerator) (now : Int) : NackGenerator × List UInt16 :=
  let retried := retryInfos now s.rtt s.nackMap.infos
  let nackMap : NackMap :=
    { infos := retried.1.drop (retried.1.length - nackListMax)
      sorted := (retryInfos_sorted now s.rtt s.nackMap.sorted).sublist (List.drop_sublist _ _) }
  ({ s with nackMap }, retried.2.mergeSort (· ≤ ·))

inductive Event where
  | packet (seq : UInt16)
  | timer (now : Int)
  | rtt (rtt : Int)

def step (s : NackGenerator) : Event → NackGenerator
  | .packet seq => s.updateNackList seq
  | .timer now => (s.onTimer now).1
  | .rtt rtt => s.updateRtt rtt

def run (s : NackGenerator) (events : List Event) : NackGenerator := events.foldl step s

end NackGenerator

section Missing

/--
How far a number is ahead of another one, in serial order.
-/
def ahead (last seq : UInt16) : Nat := (seq - last).toNat

def raise (high : Option UInt16) (seq : UInt16) : Option UInt16 :=
  match high with
  | none => some seq
  | some last => if 0 < ahead last seq ∧ ahead last seq ≤ 32767 then some seq else some last

/--
The highest number received.
-/
def highest (received : List UInt16) : Option UInt16 := received.foldl raise none

/--
A number between the highest one received so far and that of a packet that is ahead.
-/
def Skips (received : List UInt16) (seq n : UInt16) : Prop :=
  ∃ last, highest received = some last ∧ ahead last seq ≤ 32767 ∧ 0 < ahead last n
    ∧ ahead last n < ahead last seq

/--
The number has been skipped, and not received since.
-/
def Missing (received : List UInt16) (n : UInt16) : Prop :=
  ∃ before seq after, received = before ++ seq :: after ∧ Skips before seq n ∧ n ∉ after

theorem not_missing_nil (n : UInt16) : ¬Missing [] n := by
  rintro ⟨before, seq, after, heq, _⟩
  cases before with
  | nil => cases heq
  | cons _ _ => cases heq

theorem highest_snoc (received : List UInt16) (seq : UInt16)
    : highest (received ++ [seq]) = raise (highest received) seq := by
  rw [highest, List.foldl_append]
  rfl

theorem missing_snoc (received : List UInt16) (seq n : UInt16)
    : Missing (received ++ [seq]) n ↔ n ≠ seq ∧ Missing received n ∨ Skips received seq n := by
  constructor
  . rintro ⟨before, skipping, after, heq, hskips, hnot⟩
    rcases List.eq_nil_or_concat after with rfl | ⟨after, last, rfl⟩
    . obtain ⟨rfl, hseq⟩ := List.append_inj' heq rfl
      cases hseq
      exact Or.inr hskips
    . rw [List.concat_eq_append, ← List.cons_append, ← List.append_assoc] at heq
      obtain ⟨rfl, hlast⟩ := List.append_inj' heq rfl
      cases hlast
      rw [List.concat_eq_append, List.mem_append, List.mem_singleton, not_or] at hnot
      exact Or.inl ⟨hnot.right, before, skipping, after, rfl, hskips, hnot.left⟩
  . rintro (⟨hne, before, skipping, after, rfl, hskips, hnot⟩ | hskips)
    . refine ⟨before, skipping, after ++ [seq], by simp, hskips, ?_⟩
      rw [List.mem_append, List.mem_singleton, not_or]
      exact ⟨hnot, hne⟩
    . refine ⟨received, seq, [], rfl, hskips, ?_⟩
      apply List.not_mem_nil

theorem ahead_eq (last seq : UInt16) : ahead last seq = (65536 - last.toNat + seq.toNat) % 65536 := by
  rw [ahead, UInt16.toNat_sub]

@[simp]
theorem ahead_self (seq : UInt16) : ahead seq seq = 0 := by
  rw [ahead, UInt16.sub_self]
  rfl

theorem ahead_eq_zero_iff {last seq : UInt16} : ahead last seq = 0 ↔ seq = last := by
  have hlast := last.toNat_lt
  have hseq := seq.toNat_lt
  rw [ahead_eq, ← UInt16.toNat_inj]
  omega

theorem not_missing_highest (received : List UInt16)
    : ∀ last, highest received = some last → ¬Missing received last := by
  induction received using List.reverseRecOn with
  | nil =>
    intro last h
    cases h
  | append_singleton received seq ih =>
    intro last h
    rw [highest_snoc] at h
    rw [missing_snoc, not_or]
    unfold raise at h
    split at h
    . next hnone =>
      cases h
      refine ⟨fun hmissing => hmissing.left rfl, ?_⟩
      rintro ⟨high, hhigh, _⟩
      rw [hnone] at hhigh
      cases hhigh
    . next high hsome =>
      unfold Skips
      rw [hsome]
      split at h
      . cases h
        refine ⟨fun hmissing => hmissing.left rfl, ?_⟩
        rintro ⟨high', hhigh, _, _, hlt⟩
        cases hhigh
        exact Nat.lt_irrefl _ hlt
      . cases h
        refine ⟨fun hmissing => ih _ hsome hmissing.right, ?_⟩
        rintro ⟨high', hhigh, _, hpos, _⟩
        cases hhigh
        rw [ahead_self] at hpos
        exact Nat.lt_irrefl _ hpos

end Missing

namespace NackGenerator

section Step

theorem seqLowerThan_iff {last seq : UInt16} (h : ahead last seq ≠ 32768)
    : seqLowerThan seq last = true ↔ 32768 < ahead last seq := by
  have hlast := last.toNat_lt
  have hseq := seq.toNat_lt
  rw [ahead_eq] at *
  unfold seqLowerThan sequenceMax
  rw [decide_eq_true_eq]
  omega

theorem mem_addSeqs (m : NackMap) (keySeq seqEnd n : UInt16)
    : n ∈ (addSeqs m keySeq seqEnd).keys ↔ n ∈ m.keys ∨ keySeq ≤ n ∧ n < seqEnd := by
  fun_induction addSeqs m keySeq seqEnd with
  | case1 m keySeq hlt ih =>
    have hend := seqEnd.toNat_lt
    have hnext : (keySeq + 1).toNat = keySeq.toNat + 1 := by
      rw [UInt16.lt_iff_toNat_lt] at hlt
      rw [UInt16.toNat_add]
      change (keySeq.toNat + 1) % 65536 = _
      omega
    rw [ih, NackMap.mem_keys_insert]
    have hrange : n = keySeq ∨ keySeq + 1 ≤ n ∧ n < seqEnd ↔ keySeq ≤ n ∧ n < seqEnd := by
      simp only [UInt16.le_iff_toNat_le, UInt16.lt_iff_toNat_lt, ← UInt16.toNat_inj] at hlt ⊢
      omega
    rw [or_comm (a := n = keySeq), or_assoc, hrange]
  | case2 m keySeq hge =>
    have hnone : ¬(keySeq ≤ n ∧ n < seqEnd) := by
      simp only [UInt16.le_iff_toNat_le, UInt16.lt_iff_toNat_lt] at hge ⊢
      omega
    simp [hnone]

/--
The numbers that the loop adds.
-/
def Adds (last seq n : UInt16) : Prop := last + 1 ≤ n ∧ n < seq

theorem updateNackList_first {s : NackGenerator} (h : s.initFlag = false) (seq : UInt16)
    : s.updateNackList seq = { s with initFlag := true, lastSeq := seq } := by
  unfold updateNackList
  simp [h]

theorem updateNackList_behind {s : NackGenerator} (h : s.initFlag = true) {seq : UInt16}
    (hbehind : 32768 < ahead s.lastSeq seq)
    : s.updateNackList seq = { s with nackMap := s.nackMap.erase seq } := by
  have hne : ¬seq = s.lastSeq := by
    rw [← ahead_eq_zero_iff]
    omega
  have hlower : seqLowerThan seq s.lastSeq = true := (seqLowerThan_iff (by omega)).mpr hbehind
  unfold updateNackList
  simp [h, hne, hlower]

theorem updateNackList_ahead {s : NackGenerator} (h : s.initFlag = true) {seq : UInt16}
    (hpos : 0 < ahead s.lastSeq seq) (hahead : ahead s.lastSeq seq ≤ 32767)
    : (s.updateNackList seq).lastSeq = seq ∧ (s.updateNackList seq).initFlag = true
        ∧ ∀ n, n ∈ (s.updateNackList seq).nackMap.keys ↔ n ∈ s.nackMap.keys ∨ Adds s.lastSeq seq n := by
  have hne : ¬seq = s.lastSeq := by
    rw [← ahead_eq_zero_iff]
    omega
  have hlower : ¬seqLowerThan seq s.lastSeq = true := by
    rw [seqLowerThan_iff (by omega)]
    omega
  unfold updateNackList
  rw [if_neg (by simp [h]), if_neg hne, if_neg hlower]
  split
  . next hnext =>
    refine ⟨rfl, h, ?_⟩
    intro n
    have hnone : ¬Adds s.lastSeq seq n := by
      have hseq := seq.toNat_lt
      unfold Adds
      rw [UInt16.le_iff_toNat_le, UInt16.lt_iff_toNat_lt, UInt16.toNat_add]
      change ¬((s.lastSeq.toNat + 1) % 65536 ≤ n.toNat ∧ _)
      omega
    simp [hnone]
  . exact ⟨rfl, h, fun n => mem_addSeqs _ _ _ n⟩

theorem adds_iff {last seq n : UInt16} (hpos : 0 < ahead last seq) (hahead : ahead last seq ≤ 32767)
    : Adds last seq n
        ↔ (0 < ahead last n ∧ ahead last n < ahead last seq) ∧ (last < seq ∨ last = 65535) := by
  have hlast := last.toNat_lt
  have hseq := seq.toNat_lt
  have hn := n.toNat_lt
  have hmax : (65535 : UInt16).toNat = 65535 := rfl
  unfold Adds
  rw [ahead_eq] at hpos hahead
  rw [ahead_eq, ahead_eq, UInt16.le_iff_toNat_le, UInt16.lt_iff_toNat_lt, UInt16.lt_iff_toNat_lt,
    ← UInt16.toNat_inj, hmax, UInt16.toNat_add]
  change (last.toNat + 1) % 65536 ≤ n.toNat ∧ _ ↔ _
  omega

/--
The state has seen these packets: it holds their highest number.
-/
structure Tracks (s : NackGenerator) (received : List UInt16) : Prop where
  init : s.initFlag = true ↔ received ≠ []
  high : s.initFlag = true → highest received = some s.lastSeq
  fresh : s.initFlag = false → s.nackMap.keys = []

/--
The list holds exactly the missing numbers.
-/
def Exact (s : NackGenerator) (received : List UInt16) : Prop :=
  ∀ n, n ∈ s.nackMap.keys ↔ Missing received n

/--
A packet that is ahead is not itself in the list, and what it skips does not begin below 65535 and go on
at 0, or is in the list anyway.
-/
def PacketOk (s : NackGenerator) (seq : UInt16) : Prop :=
  s.initFlag = true → 0 < ahead s.lastSeq seq → ahead s.lastSeq seq ≤ 32767 →
    seq ∉ s.nackMap.keys
      ∧ (s.lastSeq < seq ∨ s.lastSeq = 65535
          ∨ ∀ n, 0 < ahead s.lastSeq n → ahead s.lastSeq n < ahead s.lastSeq seq → n ∈ s.nackMap.keys)

theorem skips_iff {received : List UInt16} {last : UInt16} (h : highest received = some last)
    (seq n : UInt16)
    : Skips received seq n
        ↔ ahead last seq ≤ 32767 ∧ 0 < ahead last n ∧ ahead last n < ahead last seq := by
  unfold Skips
  rw [h]
  simp

theorem Tracks.nil_of_first {s : NackGenerator} {received : List UInt16} (h : s.Tracks received)
    (hinit : s.initFlag = false)
    : received = [] := by
  by_contra hne
  rw [h.init.mpr hne] at hinit
  cases hinit

/--
What a packet does, in serial order.
-/
inductive Arrives (s : NackGenerator) (seq : UInt16) : Prop where
  | first (hinit : s.initFlag = false)
  | again (hinit : s.initFlag = true) (heq : seq = s.lastSeq)
  | ahead (hinit : s.initFlag = true) (hpos : 0 < ahead s.lastSeq seq)
    (hle : ahead s.lastSeq seq ≤ 32767)
  | behind (hinit : s.initFlag = true) (hlt : 32768 < ahead s.lastSeq seq)

theorem arrives {s : NackGenerator} {seq : UInt16} (h : s.initFlag = true → ahead s.lastSeq seq ≠ 32768)
    : s.Arrives seq := by
  cases hinit : s.initFlag with
  | false => exact .first hinit
  | true =>
    have hserial := h hinit
    by_cases heq : seq = s.lastSeq
    . exact .again hinit heq
    . have hpos : 0 < ahead s.lastSeq seq := Nat.pos_of_ne_zero (heq ∘ ahead_eq_zero_iff.mp)
      by_cases hle : ahead s.lastSeq seq ≤ 32767
      . exact .ahead hinit hpos hle
      . exact .behind hinit (by omega)

theorem Tracks.updateNackList {s : NackGenerator} {received : List UInt16} (h : s.Tracks received)
    {seq : UInt16} (harrives : s.Arrives seq)
    : (s.updateNackList seq).Tracks (received ++ [seq]) := by
  have hraise (hinit : s.initFlag = true)
      : highest (received ++ [seq]) = raise (some s.lastSeq) seq := by
    rw [highest_snoc, h.high hinit]
  cases harrives with
  | first hinit =>
    rw [updateNackList_first hinit, h.nil_of_first hinit]
    exact ⟨by simp, fun _ => rfl, fun hfalse => by cases hfalse⟩
  | again hinit heq =>
    have hsame : s.updateNackList seq = s := by
      unfold NackGenerator.updateNackList
      simp [hinit, heq]
    rw [hsame]
    refine ⟨by simp [hinit], fun _ => ?_, h.fresh⟩
    rw [hraise hinit, raise, heq, ahead_self]
    rfl
  | ahead hinit hpos hle =>
    obtain ⟨hlast, hinit', _⟩ := updateNackList_ahead hinit hpos hle
    refine ⟨by simp [hinit'], fun _ => ?_, fun hfalse => ?_⟩
    . rw [hraise hinit, raise, if_pos ⟨hpos, hle⟩, hlast]
    . rw [hinit'] at hfalse
      cases hfalse
  | behind hinit hlt =>
    rw [updateNackList_behind hinit hlt]
    refine ⟨by simp [hinit], fun _ => ?_, fun hfalse => ?_⟩
    . rw [hraise hinit, raise, if_neg (by omega)]
    . rw [hinit] at hfalse
      cases hfalse

/--
A packet keeps the list exact if and only if it is not one of those that go wrong.
-/
theorem exact_updateNackList_iff {s : NackGenerator} {received : List UInt16} (h : s.Tracks received)
    (hexact : s.Exact received) {seq : UInt16} (harrives : s.Arrives seq)
    : (s.updateNackList seq).Exact (received ++ [seq]) ↔ s.PacketOk seq := by
  have hmissing : ∀ n, Missing received n ↔ n ∈ s.nackMap.keys := fun n => (hexact n).symm
  unfold Exact PacketOk
  simp only [missing_snoc]
  cases harrives with
  | first hinit =>
    rw [updateNackList_first hinit, h.nil_of_first hinit]
    simp only [h.fresh hinit, hinit]
    simp [not_missing_nil, Skips, highest]
  | again hinit heq =>
    have hsame : s.updateNackList seq = s := by
      unfold NackGenerator.updateNackList
      simp [hinit, heq]
    have hnot : ¬Missing received seq := not_missing_highest received seq (by rw [heq, h.high hinit])
    have hok (n : UInt16) : n ∈ s.nackMap.keys ↔ n ≠ seq ∧ Missing received n ∨ Skips received seq n := by
      rw [skips_iff (h.high hinit), heq, ahead_self, ← heq, hexact n]
      constructor
      . intro hmissing
        refine Or.inl ⟨?_, hmissing⟩
        rintro rfl
        exact hnot hmissing
      . rintro (hmissing | hskips)
        . exact hmissing.right
        . omega
    rw [hsame]
    simp only [hok]
    simp [heq]
  | ahead hinit hpos hle =>
    obtain ⟨_, _, hkeys⟩ := updateNackList_ahead hinit hpos hle
    simp only [hkeys, skips_iff (h.high hinit), hmissing, adds_iff hpos hle]
    constructor
    . intro hall _ _ _
      constructor
      . intro hmem
        -- the packet is not skipped by itself
        rcases (hall seq).mp (Or.inl hmem) with hne | hskips
        . exact hne.left rfl
        . exact Nat.lt_irrefl _ hskips.right.right
      . by_cases hwrap : s.lastSeq < seq ∨ s.lastSeq = 65535
        . exact or_assoc.mp (Or.inl hwrap)
        . refine Or.inr (Or.inr ?_)
          intro n hn hlt
          rcases (hall n).mpr (Or.inr ⟨hle, hn, hlt⟩) with hmem | hadds
          . exact hmem
          . exact absurd hadds.right hwrap
    . intro hok n
      obtain ⟨hnot, hskipped⟩ := hok hinit hpos hle
      constructor
      . rintro (hmem | hadds)
        . refine Or.inl ⟨?_, hmem⟩
          rintro rfl
          exact hnot hmem
        . exact Or.inr ⟨hle, hadds.left⟩
      . rintro (hmem | ⟨_, hn, hlt⟩)
        . exact Or.inl hmem.right
        . rcases hskipped with hup | hend | hheld
          . exact Or.inr ⟨⟨hn, hlt⟩, Or.inl hup⟩
          . exact Or.inr ⟨⟨hn, hlt⟩, Or.inr hend⟩
          . exact Or.inl (hheld n hn hlt)
  | behind hinit hlt =>
    rw [updateNackList_behind hinit hlt]
    have hfar : ¬ahead s.lastSeq seq ≤ 32767 := by omega
    simp [skips_iff (h.high hinit), hmissing, hfar]

end Step

section Run

/--
`OnTimer` evicts nothing.
-/
def NoEviction (s : NackGenerator) : Prop :=
  s.nackMap.infos.length ≤ nackListMax ∧ ∀ info ∈ s.nackMap.infos, info.retry ≤ nackRetryMax

theorem retryInfos_keys (now rtt : Int) {infos : List NackInfo}
    (h : ∀ info ∈ infos, info.retry ≤ nackRetryMax)
    : (retryInfos now rtt infos).1.map (·.seq) = infos.map (·.seq) := by
  induction infos with
  | nil => rfl
  | cons info infos ih =>
    have hretry : ¬nackRetryMax < info.retry := Nat.not_lt.mpr (h info (List.mem_cons_self ..))
    have hrest := ih fun i hi => h i (List.mem_cons_of_mem _ hi)
    simp only [retryInfos, if_neg hretry]
    split
    . rw [List.map_cons, List.map_cons, hrest]
    . rw [List.map_cons, List.map_cons, hrest]

theorem onTimer_keys {s : NackGenerator} (h : s.NoEviction) (now : Int)
    : (s.onTimer now).1.nackMap.keys = s.nackMap.keys := by
  have hkeys := retryInfos_keys now s.rtt h.right
  have hlen := congrArg List.length hkeys
  have hfits := h.left
  rw [List.length_map, List.length_map] at hlen
  simp only [onTimer, NackMap.keys]
  rw [hlen, Nat.sub_eq_zero_of_le hfits, List.drop_zero, hkeys]

theorem Tracks.of_keys {s : NackGenerator} {received : List UInt16} (htracks : s.Tracks received)
    {nackMap : NackMap} (hkeys : nackMap.keys = s.nackMap.keys)
    : ({ s with nackMap } : NackGenerator).Tracks received where
  init := htracks.init
  high := htracks.high
  fresh := by
    rw [hkeys]
    exact htracks.fresh

/--
The sequence numbers of the packets.
-/
def packets (events : List Event) : List UInt16 :=
  events.filterMap fun
    | .packet seq => some seq
    | _ => none

/--
A packet is within 32767 of the highest one before it, and a timer evicts nothing.
-/
def Admissible (s : NackGenerator) (received : List UInt16) : Event → Prop
  | .packet seq => ∀ last, highest received = some last →
      ahead last seq ≤ 32767 ∨ ahead seq last ≤ 32767
  | .timer _ => s.NoEviction
  | .rtt _ => True

def InDomain (events : List Event) : Prop :=
  ∀ before e, before ++ [e] <+: events → (run {} before).Admissible (packets before) e

def StepOk (s : NackGenerator) : Event → Prop
  | .packet seq => s.PacketOk seq
  | _ => True

/--
No packet is one of those that go wrong.
-/
def StepsOk (events : List Event) : Prop :=
  ∀ before e, before ++ [e] <+: events → (run {} before).StepOk e

/--
After each event the list holds exactly the missing numbers.
-/
def AlwaysExact (events : List Event) : Prop :=
  ∀ before, before <+: events → (run {} before).Exact (packets before)

theorem Admissible.arrives {s : NackGenerator} {received : List UInt16} (htracks : s.Tracks received)
    {seq : UInt16} (h : s.Admissible received (.packet seq))
    : s.Arrives seq := by
  apply NackGenerator.arrives
  intro hinit
  have hlast := s.lastSeq.toNat_lt
  have hseq := seq.toNat_lt
  have hserial := h s.lastSeq (htracks.high hinit)
  rw [ahead_eq, ahead_eq] at hserial
  rw [ahead_eq]
  omega

theorem step_tracks {s : NackGenerator} {received : List UInt16} (htracks : s.Tracks received) {e : Event}
    (h : s.Admissible received e)
    : (s.step e).Tracks (received ++ packets [e]) := by
  cases e with
  | packet seq => exact htracks.updateNackList (h.arrives htracks)
  | timer now =>
    change (s.onTimer now).1.Tracks (received ++ [])
    rw [List.append_nil]
    exact htracks.of_keys (onTimer_keys h now)
  | rtt rtt =>
    change (s.updateRtt rtt).Tracks (received ++ [])
    rw [List.append_nil]
    exact ⟨htracks.init, htracks.high, htracks.fresh⟩

theorem step_exact_iff {s : NackGenerator} {received : List UInt16} (htracks : s.Tracks received)
    (hexact : s.Exact received) {e : Event} (h : s.Admissible received e)
    : (s.step e).Exact (received ++ packets [e]) ↔ s.StepOk e := by
  cases e with
  | packet seq => exact exact_updateNackList_iff htracks hexact (h.arrives htracks)
  | timer now =>
    change (s.onTimer now).1.Exact (received ++ []) ↔ True
    rw [List.append_nil, iff_true]
    unfold Exact
    rw [onTimer_keys h]
    exact hexact
  | rtt rtt =>
    change (s.updateRtt rtt).Exact (received ++ []) ↔ True
    rw [List.append_nil, iff_true]
    exact hexact

theorem run_snoc (s : NackGenerator) (events : List Event) (e : Event)
    : s.run (events ++ [e]) = (s.run events).step e := by
  rw [run, List.foldl_append]
  rfl

theorem packets_snoc (events : List Event) (e : Event)
    : packets (events ++ [e]) = packets events ++ packets [e] := List.filterMap_append ..

theorem InDomain.before {before events : List Event} (h : InDomain events) (hinitial : before <+: events)
    : InDomain before := by
  intro before' e hinitial'
  exact h before' e (hinitial'.trans hinitial)

theorem run_tracks {events : List Event} (h : InDomain events)
    : (run {} events).Tracks (packets events) := by
  induction events using List.reverseRecOn with
  | nil =>
    refine ⟨by simp [run, packets], ?_, fun _ => rfl⟩
    intro hinit
    cases hinit
  | append_singleton events e ih =>
    rw [run_snoc, packets_snoc]
    apply step_tracks
    . apply ih (h.before (List.prefix_append _ _))
    . apply h events e List.prefix_rfl

theorem run_exact {events : List Event} (h : InDomain events) (hok : StepsOk events)
    : (run {} events).Exact (packets events) := by
  induction events using List.reverseRecOn with
  | nil =>
    intro n
    simp [run, packets, NackMap.keys, not_missing_nil]
  | append_singleton events e ih =>
    have hinit := h.before (List.prefix_append events [e])
    have hexact := ih hinit fun before e' hinitial =>
      hok before e' (hinitial.trans (List.prefix_append _ _))
    rw [run_snoc, packets_snoc]
    rw [step_exact_iff (run_tracks hinit) hexact (h events e List.prefix_rfl)]
    apply hok events e List.prefix_rfl

theorem run_exact_iff (events : List Event) (h : InDomain events)
    : AlwaysExact events ↔ StepsOk events := by
  constructor
  . intro hexact before e hinitial
    have hbefore : before <+: events := (List.prefix_append _ _).trans hinitial
    have hstep := hexact (before ++ [e]) hinitial
    rw [run_snoc, packets_snoc] at hstep
    exact (step_exact_iff (run_tracks (h.before hbefore)) (hexact before hbefore)
      (h before e hinitial)).mp hstep
  . intro hok before hinitial
    apply run_exact (h.before hinitial)
    intro before' e hinitial'
    exact hok before' e (hinitial'.trans hinitial)

theorem forall_prefix_pair (P : List Event → Event → Prop) {e e' : Event} (h : P [] e) (h' : P [e] e')
    : ∀ before last, before ++ [last] <+: [e, e'] → P before last := by
  apply Interleave.forall_prefix_cons h
  apply Interleave.forall_prefix_cons (P := fun before last => P (e :: before) last) h'
  apply Interleave.forall_prefix_nil

theorem inDomain_pair {seq seq' : UInt16} (h : ahead seq seq' ≤ 32767)
    : InDomain [.packet seq, .packet seq'] := by
  apply forall_prefix_pair fun before e => (run {} before).Admissible (packets before) e
  . intro last hlast
    cases hlast
  . intro last hlast
    cases hlast
    exact Or.inl h

theorem run_exact_sample : AlwaysExact [.packet 10, .packet 13] :=
  (run_exact_iff [.packet 10, .packet 13] (inDomain_pair (by decide))).mpr (by
    apply forall_prefix_pair fun before e => (run {} before).StepOk e
    . intro hinit
      cases hinit
    . intro _ _ _
      exact ⟨List.not_mem_nil, Or.inl (by decide)⟩)

/--
The numbers 65534, 65535 and 0 are skipped and not added.
-/
theorem not_run_exact
    : InDomain [.packet 65533, .packet 1] ∧ ¬AlwaysExact [.packet 65533, .packet 1] := by
  refine ⟨inDomain_pair (by decide), ?_⟩
  intro hexact
  have hmissing : Missing (packets [.packet 65533, .packet 1]) 65535 :=
    ⟨[65533], 1, [], rfl, ⟨65533, rfl, by decide, by decide, by decide⟩, by simp⟩
  have hmem := (hexact _ List.prefix_rfl 65535).mpr hmissing
  have hkeys := (mem_addSeqs {} 65534 1 65535).mp hmem
  revert hkeys
  decide

end Run

end NackGenerator
