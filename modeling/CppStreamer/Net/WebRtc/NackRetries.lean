import Mathlib.Data.List.Chain
import Mathlib.Data.List.Nodup
import Mathlib.Data.List.Perm.Subperm
import CppStreamer.Net.WebRtc.NackGenerator

/-!
This module contains how often `NackGenerator` asks for a sequence number, and which entries it evicts when there are
too many.
-/

namespace NackGenerator

section Retry

/--
The timer asks for the number of the entry.
-/
def Due (now rtt : Int) (info : NackInfo) : Prop :=
  ¬nackRetryMax < info.retry ∧ ¬now - info.sentMs < rtt

instance (now rtt : Int) (info : NackInfo) : Decidable (Due now rtt info) := by
  unfold Due
  infer_instance

def retried (now rtt : Int) (info : NackInfo) : NackInfo :=
  if now - info.sentMs < rtt then info else { info with sentMs := now, retry := info.retry + 1 }

@[simp]
theorem retried_seq (now rtt : Int) (info : NackInfo) : (retried now rtt info).seq = info.seq := by
  unfold retried
  split
  . rfl
  . rfl

theorem retryInfos_kept (now rtt : Int) (infos : List NackInfo)
    : (retryInfos now rtt infos).1
        = (infos.filter fun info => ¬nackRetryMax < info.retry).map (retried now rtt) := by
  induction infos with
  | nil => rfl
  | cons info infos ih =>
    simp only [retryInfos]
    split
    . next hretry =>
      rw [ih, List.filter_cons_of_neg]
      simpa using hretry
    . next hretry =>
      rw [List.filter_cons_of_pos (by simpa using hretry), List.map_cons, retried]
      split
      . rw [ih]
      . rw [ih]

theorem retryInfos_lost (now rtt : Int) (infos : List NackInfo)
    : (retryInfos now rtt infos).2 = (infos.filter fun info => Due now rtt info).map (·.seq) := by
  induction infos with
  | nil => rfl
  | cons info infos ih =>
    simp only [retryInfos]
    split
    . next hretry =>
      rw [ih, List.filter_cons_of_neg]
      simp [Due, hretry]
    . next hretry =>
      split
      . next hwait =>
        rw [ih, List.filter_cons_of_neg]
        simp [Due, hwait]
      . next hwait =>
        rw [ih, List.filter_cons_of_pos (by simp [Due, hretry, hwait]), List.map_cons]

theorem onTimer_lost_eq (s : NackGenerator) (now : Int)
    : (s.onTimer now).2 = (s.nackMap.infos.filter fun info => Due now s.rtt info).map (·.seq) := by
  have hsorted : (s.nackMap.infos.map (·.seq)).Pairwise (· < ·) := by
    rw [List.pairwise_map]
    apply s.nackMap.sorted
  rw [← retryInfos_lost]
  apply List.mergeSort_of_pairwise
  apply (hsorted.sublist (retryInfos_sublist now s.rtt s.nackMap.infos).right).imp
  intro a b hlt
  rw [decide_eq_true_eq]
  apply UInt16.le_of_lt hlt

/--
There is one entry for a number.
-/
theorem eq_of_seq {m : NackMap} {info info' : NackInfo} (h : info ∈ m.infos) (h' : info' ∈ m.infos)
    (hseq : info.seq = info'.seq)
    : info = info' := by
  apply List.inj_on_of_nodup_map _ h h' hseq
  rw [List.nodup_iff_pairwise_ne, List.pairwise_map]
  apply m.sorted.imp
  intro i j hlt
  apply UInt16.ne_of_lt hlt

theorem mem_lost_iff {s : NackGenerator} {info : NackInfo} (h : info ∈ s.nackMap.infos) (now : Int)
    : info.seq ∈ (s.onTimer now).2 ↔ Due now s.rtt info := by
  rw [onTimer_lost_eq, List.mem_map]
  constructor
  . rintro ⟨info', hmem, hseq⟩
    rw [List.mem_filter, decide_eq_true_eq] at hmem
    rw [← eq_of_seq hmem.left h hseq]
    apply hmem.right
  . intro hdue
    refine ⟨info, ?_, rfl⟩
    rw [List.mem_filter, decide_eq_true_eq]
    exact ⟨h, hdue⟩

end Retry

/--
There is an entry for each of these numbers.
-/
theorem le_length_of_keys {m : NackMap} {f : Nat → UInt16} {count : Nat}
    (hinj : ∀ i, i < count → ∀ j, j < count → f i = f j → i = j) (hkeys : ∀ i, i < count → f i ∈ m.keys)
    : count ≤ m.infos.length := by
  have hnodup : ((List.range count).map f).Nodup := by
    apply List.Nodup.map_on _ List.nodup_range
    intro i hi j hj
    apply hinj i (List.mem_range.mp hi) j (List.mem_range.mp hj)
  have hsubset : (List.range count).map f ⊆ m.keys := by
    intro n hn
    obtain ⟨i, hi, rfl⟩ := List.mem_map.mp hn
    apply hkeys i (List.mem_range.mp hi)
  have hlength := (hnodup.subperm hsubset).length_le
  rwa [List.length_map, List.length_range, NackMap.keys, List.length_map] at hlength

section Stay

theorem mem_insertInfo_of_mem {info : NackInfo} {infos : List NackInfo} (h : info ∈ infos) (new : NackInfo)
    : info ∈ NackMap.insertInfo new infos := by
  induction infos with
  | nil => cases h
  | cons i infos ih =>
    rw [NackMap.insertInfo]
    split
    . apply List.mem_cons_of_mem _ h
    . split
      . exact h
      . cases h with
        | head => apply List.mem_cons_self
        | tail _ h => apply List.mem_cons_of_mem _ (ih h)

theorem mem_addSeqs_of_mem {info : NackInfo} {m : NackMap} (h : info ∈ m.infos) (keySeq seqEnd : UInt16)
    : info ∈ (addSeqs m keySeq seqEnd).infos := by
  fun_induction addSeqs m keySeq seqEnd with
  | case1 m keySeq hlt ih =>
    apply ih
    apply mem_insertInfo_of_mem h
  | case2 m keySeq hge => exact h

/--
A packet leaves an entry as it is, or takes it out.
-/
theorem mem_updateNackList {s : NackGenerator} {info : NackInfo} (h : info ∈ s.nackMap.infos) {seq : UInt16}
    (hkept : info.seq ∈ (s.updateNackList seq).nackMap.keys)
    : info ∈ (s.updateNackList seq).nackMap.infos := by
  unfold updateNackList at hkept ⊢
  split
  . exact h
  . split
    . exact h
    . split
      . next hfirst hlast hlower =>
        rw [if_neg hfirst, if_neg hlast, if_pos hlower, NackMap.mem_keys_erase] at hkept
        unfold NackMap.erase
        rw [List.mem_filter, decide_eq_true_eq]
        exact ⟨h, hkept.left⟩
      . split
        . exact h
        . apply mem_addSeqs_of_mem h

theorem onTimer_infos (s : NackGenerator) (now : Int)
    : (s.onTimer now).1.nackMap.infos
        = ((s.nackMap.infos.filter fun info => ¬nackRetryMax < info.retry).map (retried now s.rtt)).drop
            ((s.nackMap.infos.filter fun info => ¬nackRetryMax < info.retry).length - nackListMax) := by
  simp only [onTimer, retryInfos_kept, List.length_map]

/--
A timer takes an entry out, or leaves it in the map with one more retry if it was due.
-/
theorem mem_onTimer {s : NackGenerator} {info : NackInfo} (h : info ∈ s.nackMap.infos) {now : Int}
    (hkept : info.seq ∈ (s.onTimer now).1.nackMap.keys)
    : ¬nackRetryMax < info.retry ∧ retried now s.rtt info ∈ (s.onTimer now).1.nackMap.infos := by
  obtain ⟨info', hmem, hseq⟩ := List.mem_map.mp hkept
  rw [onTimer_infos] at hmem ⊢
  obtain ⟨old, hold, rfl⟩ := List.mem_map.mp (List.mem_of_mem_drop hmem)
  rw [List.mem_filter] at hold
  rw [retried_seq] at hseq
  cases eq_of_seq hold.left h hseq
  exact ⟨by simpa using hold.right, hmem⟩

/--
A timer call that asks for a number, with its clock and its round trip time.
-/
structure Request where
  now : Int
  rtt : Int

/--
The second request is not made before the round trip time has passed.
-/
def Request.Apart (a b : Request) : Prop := b.rtt ≤ b.now - a.now

def requestOf (s : NackGenerator) (n : UInt16) : Event → List Request
  | .timer now => if n ∈ (s.onTimer now).2 then [⟨now, s.rtt⟩] else []
  | _ => []

def requests (n : UInt16) : NackGenerator → List Event → List Request
  | _, [] => []
  | s, e :: events => s.requestOf n e ++ requests n (s.step e) events

/--
The number is in the map whenever one of the events comes.
-/
def Stays (n : UInt16) : NackGenerator → List Event → Prop
  | _, [] => True
  | s, e :: events => n ∈ s.nackMap.keys ∧ Stays n (s.step e) events

theorem requestOf_cases {s : NackGenerator} {info : NackInfo} (h : info ∈ s.nackMap.infos) (e : Event)
    : s.requestOf info.seq e = []
        ∨ ∃ r : Request, s.requestOf info.seq e = [r] ∧ info.retry ≤ nackRetryMax ∧ r.rtt ≤ r.now - info.sentMs := by
  cases e with
  | packet seq => exact Or.inl rfl
  | rtt rtt => exact Or.inl rfl
  | timer now =>
    simp only [requestOf, mem_lost_iff h]
    split
    . next hdue => exact Or.inr ⟨_, rfl, Nat.le_of_not_lt hdue.left, Int.not_lt.mp hdue.right⟩
    . exact Or.inl rfl

/--
What an event does to an entry that is there after it.
-/
theorem mem_step {s : NackGenerator} {info : NackInfo} (h : info ∈ s.nackMap.infos) {e : Event}
    (hkept : info.seq ∈ (s.step e).nackMap.keys)
    : ∃ info', info' ∈ (s.step e).nackMap.infos ∧ info'.seq = info.seq
        ∧ (s.requestOf info.seq e = [] → info' = info)
        ∧ ∀ r : Request, s.requestOf info.seq e = [r] → info'.retry = info.retry + 1 ∧ info'.sentMs = r.now := by
  cases e with
  | packet seq => exact ⟨info, mem_updateNackList h hkept, rfl, fun _ => rfl, nofun⟩
  | rtt rtt => exact ⟨info, h, rfl, fun _ => rfl, nofun⟩
  | timer now =>
    obtain ⟨hretry, hmem⟩ := mem_onTimer h hkept
    refine ⟨retried now s.rtt info, hmem, retried_seq now s.rtt info, ?_⟩
    simp only [requestOf, mem_lost_iff h]
    by_cases hwait : now - info.sentMs < s.rtt
    . simp [Due, retried, hwait]
    . rw [if_pos ⟨hretry, hwait⟩, retried, if_neg hwait]
      refine ⟨nofun, ?_⟩
      intro r hr
      cases hr
      exact ⟨rfl, rfl⟩

/--
An entry that has been asked for already has so many requests less to come, and they go on from the last one.
-/
theorem requests_stay (n : UInt16) (events : List Event)
    : ∀ {s : NackGenerator} {info : NackInfo} (rtt : Int), info ∈ s.nackMap.infos → info.seq = n → Stays n s events →
        (requests n s events).length ≤ nackRetryMax + 1 - info.retry
          ∧ (⟨info.sentMs, rtt⟩ :: requests n s events).IsChain Request.Apart := by
  induction events with
  | nil =>
    intro s info rtt _ _ _
    exact ⟨Nat.zero_le _, List.isChain_singleton _⟩
  | cons e events ih =>
    intro s info rtt hmem hseq hstays
    subst hseq
    rw [requests]
    cases events with
    | nil =>
      rw [requests, List.append_nil]
      rcases requestOf_cases hmem e with hnone | ⟨r, hr, hretry, hapart⟩
      . rw [hnone]
        exact ⟨Nat.zero_le _, List.isChain_singleton _⟩
      . rw [hr, List.isChain_cons_cons, List.length_singleton]
        exact ⟨by omega, hapart, List.isChain_singleton _⟩
    | cons e' events =>
      obtain ⟨info', hmem', hseq', hsame, hnext⟩ := mem_step hmem hstays.right.left
      rcases requestOf_cases hmem e with hnone | ⟨r, hr, hretry, hapart⟩
      . cases hsame hnone
        rw [hnone, List.nil_append]
        apply ih rtt hmem' hseq' hstays.right
      . obtain ⟨hcount, hsent⟩ := hnext r hr
        obtain ⟨hlength, hchain⟩ := ih r.rtt hmem' hseq' hstays.right
        rw [hcount] at hlength
        rw [hsent] at hchain
        rw [hr, List.singleton_append, List.isChain_cons_cons, List.length_cons]
        exact ⟨by omega, hapart, hchain⟩

/--
The requests of a stay.
-/
theorem requests_of_stays {n : UInt16} {s : NackGenerator} {events : List Event} (h : Stays n s events)
    : (requests n s events).length ≤ nackRetryMax + 1 ∧ (requests n s events).IsChain Request.Apart := by
  cases events with
  | nil => exact ⟨Nat.zero_le _, List.isChain_nil⟩
  | cons e events =>
    obtain ⟨info, hmem, hseq⟩ := List.mem_map.mp h.left
    obtain ⟨hlength, hchain⟩ := requests_stay n (e :: events) 0 hmem hseq h
    exact ⟨Nat.le_trans hlength (Nat.sub_le _ _), hchain.tail⟩

end Stay

section Eviction

/--
The entries that have not been asked for too often.
-/
def tried (s : NackGenerator) : List NackInfo := s.nackMap.infos.filter fun info => ¬nackRetryMax < info.retry

/--
The entries that a timer takes out because there are too many.
-/
def evicted (s : NackGenerator) (now : Int) : List NackInfo :=
  let retried := (retryInfos now s.rtt s.nackMap.infos).1
  retried.take (retried.length - nackListMax)

/--
What goes is farther behind the last packet than what stays.
-/
def EvictsOldest (s : NackGenerator) (now : Int) : Prop :=
  ∀ old ∈ s.evicted now, ∀ info ∈ (s.onTimer now).1.nackMap.infos, ahead info.seq s.lastSeq < ahead old.seq s.lastSeq

/--
There is room for all entries, or their numbers do not wrap around between each other.
-/
def InOrder (s : NackGenerator) : Prop :=
  s.tried.length ≤ nackListMax
    ∨ ¬∃ low ∈ s.tried, ∃ high ∈ s.tried, low.seq ≤ s.lastSeq ∧ s.lastSeq < high.seq

theorem evicted_eq (s : NackGenerator) (now : Int)
    : s.evicted now = (s.tried.map (retried now s.rtt)).take (s.tried.length - nackListMax) := by
  simp only [evicted, retryInfos_kept, List.length_map, tried]

/--
The higher number of two is the younger one, unless the last packet is between them.
-/
theorem ahead_lt_iff {low high last : UInt16} (hlt : low < high)
    : ahead high last < ahead low last ↔ ¬(low ≤ last ∧ last < high) := by
  have hlow := low.toNat_lt
  have hhigh := high.toNat_lt
  have hlast := last.toNat_lt
  rw [ahead_eq, ahead_eq]
  simp only [UInt16.le_iff_toNat_le, UInt16.lt_iff_toNat_lt] at hlt ⊢
  omega

theorem evictsOldest_iff_forall (s : NackGenerator) (now : Int)
    : s.EvictsOldest now
        ↔ ∀ low ∈ s.tried.take (s.tried.length - nackListMax),
            ∀ high ∈ s.tried.drop (s.tried.length - nackListMax), ¬(low.seq ≤ s.lastSeq ∧ s.lastSeq < high.seq) := by
  have hsorted : s.tried.Pairwise (·.seq < ·.seq) := s.nackMap.sorted.filter _
  rw [← List.take_append_drop (s.tried.length - nackListMax) s.tried, List.pairwise_append] at hsorted
  unfold EvictsOldest
  rw [evicted_eq, onTimer_infos, ← List.map_take, ← List.map_drop]
  simp only [List.forall_mem_map, retried_seq]
  constructor
  . intro h low hlow high hhigh
    rw [← ahead_lt_iff (hsorted.right.right low hlow high hhigh)]
    apply h low hlow high hhigh
  . intro h low hlow high hhigh
    rw [ahead_lt_iff (hsorted.right.right low hlow high hhigh)]
    apply h low hlow high hhigh

theorem evictsOldest_iff (s : NackGenerator) (now : Int) : s.EvictsOldest now ↔ s.InOrder := by
  have hsorted : s.tried.Pairwise (·.seq < ·.seq) := s.nackMap.sorted.filter _
  rw [evictsOldest_iff_forall]
  unfold InOrder
  generalize hk : s.tried.length - nackListMax = k
  rw [← List.take_append_drop k s.tried, List.pairwise_append] at hsorted
  constructor
  . intro h
    by_cases hroom : s.tried.length ≤ nackListMax
    . exact Or.inl hroom
    . have hmax : 0 < nackListMax := by decide
      have hfront : s.tried.take k ≠ [] := by
        rw [← List.length_pos_iff, List.length_take]
        omega
      have hback : s.tried.drop k ≠ [] := by
        rw [← List.length_pos_iff, List.length_drop]
        omega
      obtain ⟨first, hfirst⟩ := List.exists_mem_of_ne_nil _ hfront
      obtain ⟨final, hfinal⟩ := List.exists_mem_of_ne_nil _ hback
      right
      rintro ⟨low, hlow, high, hhigh, hle, hlt⟩
      -- an entry that goes is not above a low one, and one that stays not below a high one
      have hold : ∃ old ∈ s.tried.take k, old.seq ≤ s.lastSeq := by
        rw [← List.take_append_drop k s.tried, List.mem_append] at hlow
        rcases hlow with hlow | hlow
        . exact ⟨low, hlow, hle⟩
        . exact ⟨first, hfirst, UInt16.le_trans (UInt16.le_of_lt (hsorted.right.right first hfirst low hlow)) hle⟩
      have hnew : ∃ new ∈ s.tried.drop k, s.lastSeq < new.seq := by
        rw [← List.take_append_drop k s.tried, List.mem_append] at hhigh
        rcases hhigh with hhigh | hhigh
        . exact ⟨final, hfinal, UInt16.lt_trans hlt (hsorted.right.right high hhigh final hfinal)⟩
        . exact ⟨high, hhigh, hlt⟩
      obtain ⟨old, hold, hole⟩ := hold
      obtain ⟨new, hnew, hnlt⟩ := hnew
      apply h old hold new hnew ⟨hole, hnlt⟩
  . rintro (hroom | hnone) low hlow high hhigh ⟨hle, hlt⟩
    . rw [← hk, Nat.sub_eq_zero_of_le hroom, List.take_zero] at hlow
      cases hlow
    . apply hnone
      exact ⟨low, List.mem_of_mem_take hlow, high, List.mem_of_mem_drop hhigh, hle, hlt⟩

end Eviction

section Run

/--
A number is asked for at most so often while it stays in the map, the requests are apart, a timer leaves no more than
so many entries, and takes out the oldest ones.
-/
structure Bounded (events : List Event) : Prop where
  retries : ∀ (n : UInt16) (before stay after : List Event), events = before ++ (stay ++ after) →
    Stays n (run {} before) stay → (requests n (run {} before) stay).length ≤ nackRetryMax + 1
  apart : ∀ (n : UInt16) (before stay after : List Event), events = before ++ (stay ++ after) →
    Stays n (run {} before) stay → (requests n (run {} before) stay).IsChain Request.Apart
  size : ∀ (before after : List Event) (now : Int), events = before ++ .timer now :: after →
    (run {} (before ++ [.timer now])).nackMap.infos.length ≤ nackListMax
  oldest : ∀ (before after : List Event) (now : Int), events = before ++ .timer now :: after →
    (run {} before).EvictsOldest now

theorem length_onTimer (s : NackGenerator) (now : Int) : (s.onTimer now).1.nackMap.infos.length ≤ nackListMax := by
  rw [onTimer_infos, List.length_drop, List.length_map]
  omega

theorem bounded_iff (events : List Event)
    : Bounded events
        ↔ ∀ (before after : List Event) (now : Int), events = before ++ .timer now :: after →
            (run {} before).InOrder := by
  constructor
  . intro h before after now heq
    rw [← evictsOldest_iff _ now]
    apply h.oldest before after now heq
  . intro h
    constructor
    . intro n before stay after _ hstays
      apply (requests_of_stays hstays).left
    . intro n before stay after _ hstays
      apply (requests_of_stays hstays).right
    . intro before after now _
      rw [run_snoc]
      apply length_onTimer
    . intro before after now heq
      rw [evictsOldest_iff]
      apply h before after now heq

/--
Nothing in the map has been asked for yet.
-/
theorem fresh_addSeqs (m : NackMap) (keySeq seqEnd : UInt16) (h : ∀ info ∈ m.infos, info.sentMs = 0 ∧ info.retry = 0)
    : ∀ info ∈ (addSeqs m keySeq seqEnd).infos, info.sentMs = 0 ∧ info.retry = 0 := by
  fun_induction addSeqs m keySeq seqEnd with
  | case1 m keySeq hlt ih =>
    apply ih
    intro info hmem
    rcases NackMap.mem_insertInfo hmem with rfl | hmem
    . exact ⟨rfl, rfl⟩
    . apply h info hmem
  | case2 m keySeq hge => exact h

/--
3534 numbers are lost before the wrap around, and 2999 after it.
-/
theorem run_wrapped
    : run {} [.packet 62000, .packet 65535, .packet 0, .packet 3000]
        = ⟨true, 3000, addSeqs (addSeqs (addSeqs {} 62001 65535) 0 0) 1 3000, 15⟩ := by
  have hup : seqLowerThan 65535 62000 = false := by decide
  have hwrap : seqLowerThan 0 65535 = false := by decide
  have hnext : seqLowerThan 3000 0 = false := by decide
  simp [run, step, updateNackList, hup, hwrap, hnext]

/--
5001 of the numbers that are lost there.
-/
def skippedSeq (i : Nat) : UInt16 := UInt16.ofNat (if i < 2999 then i + 1 else i + 59002)

theorem skippedSeq_toNat {i : Nat} (h : i < 5001)
    : (skippedSeq i).toNat = if i < 2999 then i + 1 else i + 59002 := by
  apply UInt16.toNat_ofNat_of_lt'
  change _ < 65536
  split
  . omega
  . omega

/--
The numbers 1 to 1533 go, which are the youngest but those up to 2999.
-/
theorem not_bounded : ¬Bounded [.packet 62000, .packet 65535, .packet 0, .packet 3000, .timer 1000] := by
  intro h
  have hold := h.oldest [.packet 62000, .packet 65535, .packet 0, .packet 3000] [] 1000 rfl
  rw [evictsOldest_iff, run_wrapped] at hold
  have hfresh : ∀ info ∈ (addSeqs (addSeqs (addSeqs {} 62001 65535) 0 0) 1 3000).infos,
      info.sentMs = 0 ∧ info.retry = 0 := by
    iterate 3 apply fresh_addSeqs
    intro info hmem
    cases hmem
  have hkeys : ∀ n : UInt16, 1 ≤ n ∧ n < 3000 ∨ 62001 ≤ n ∧ n < 65535 →
      ∃ info ∈ (addSeqs (addSeqs (addSeqs {} 62001 65535) 0 0) 1 3000).infos, info.seq = n := by
    intro n hn
    rw [← List.mem_map]
    change n ∈ (addSeqs _ 1 3000).keys
    rw [mem_addSeqs, mem_addSeqs, mem_addSeqs]
    rcases hn with hn | hn
    . exact Or.inr hn
    . exact Or.inl (Or.inl (Or.inr hn))
  have htried : tried ⟨true, 3000, addSeqs (addSeqs (addSeqs {} 62001 65535) 0 0) 1 3000, 15⟩
      = (addSeqs (addSeqs (addSeqs {} 62001 65535) 0 0) 1 3000).infos := by
    apply List.filter_eq_self.mpr
    intro info hmem
    rw [decide_eq_true_eq, (hfresh info hmem).right]
    decide
  unfold InOrder at hold
  rw [htried] at hold
  rcases hold with hroom | hnone
  . have hlength : 5001 ≤ (addSeqs (addSeqs (addSeqs {} 62001 65535) 0 0) 1 3000).infos.length := by
      apply le_length_of_keys (f := skippedSeq)
      . intro i hi j hj heq
        have hnat := congrArg UInt16.toNat heq
        rw [skippedSeq_toNat hi, skippedSeq_toNat hj] at hnat
        grind
      . intro i hi
        apply List.mem_map.mpr
        apply hkeys
        simp only [UInt16.le_iff_toNat_le, UInt16.lt_iff_toNat_lt, skippedSeq_toNat hi]
        change 1 ≤ _ ∧ _ < 3000 ∨ 62001 ≤ _ ∧ _ < 65535
        split
        . left
          omega
        . right
          omega
    have hmax : nackListMax = 5000 := rfl
    omega
  . obtain ⟨low, hlow, hlowseq⟩ := hkeys 1 (by decide)
    obtain ⟨high, hhigh, hhighseq⟩ := hkeys 62001 (by decide)
    apply hnone
    refine ⟨low, hlow, high, hhigh, ?_⟩
    rw [hlowseq, hhighseq]
    decide

end Run

end NackGenerator
