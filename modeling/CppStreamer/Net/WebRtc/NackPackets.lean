import Mathlib.Data.List.TakeWhile
import CppStreamer.Net.RtpRtcp.RtcpFbNack
import CppStreamer.Net.WebRtc.NackRetries

/-!
This module contains the packet that `RtcRecvStream` makes of the numbers `NackGenerator` asks for, and when it fits
into its buffer.
-/

open ByteStream

namespace RtcpFbNack

/--
The length in the header, in bytes.
-/
def lengthField (pkt : RtcpFbNack) : Nat := (read2Bytes (pkt.data.drop 2) + 1) * 4

/--
The bytes are within the buffer, four for each block behind the header, and the header says how many there are.
-/
structure Framed (pkt : RtcpFbNack) : Prop where
  fits : pkt.data.length ≤ dataSize
  blocks : pkt.data.length = headerSize + 4 * pkt.nackBlocks.length
  field : pkt.lengthField = pkt.data.length

/--
What is behind the block that begins with a number. The block takes what is up to 16 above its first number, and the
next number too.
-/
def behindBlock (first : UInt16) (seqs : List UInt16) : List UInt16 :=
  (seqs.dropWhile fun seq => (seq.toNat : Int) - first.toNat ≤ 16).tail

theorem length_behindBlock_le (first : UInt16) (seqs : List UInt16)
    : (behindBlock first seqs).length ≤ seqs.length := by
  unfold behindBlock
  rw [List.length_tail]
  apply Nat.le_trans (Nat.sub_le _ _)
  apply (List.dropWhile_suffix _).length_le

/--
The number of blocks.
-/
def blockCount : List UInt16 → Nat
  | [] => 0
  | first :: seqs => blockCount (behindBlock first seqs) + 1
termination_by seqs => seqs.length
decreasing_by
  have hle := length_behindBlock_le first seqs
  simp only [List.length_cons]
  omega

/--
The blocks that are still to come, with the numbers that are not in a block yet.
-/
def blocksLeft : List UInt16 → List UInt16 → Nat
  | [], seqs => blockCount seqs
  | first :: _, seqs => blockCount (behindBlock first seqs) + 1

def maxBlocks : Nat := 372

theorem create_framed (senderSsrc mediaSsrc : UInt32) : (create senderSsrc mediaSsrc).Framed where
  fits := Nat.le_of_ble_eq_true rfl
  blocks := rfl
  field := rfl

section Insert

variable {undefinedShift : Int → UInt16} {pkt : RtcpFbNack}

theorem Framed.length_behind (h : pkt.Framed) (block : RtcpNackBlock)
    : (pkt.data ++ block.bytes).length = headerSize + 4 * (pkt.nackBlocks.length + 1) := by
  rw [List.length_append, h.blocks]
  rfl

theorem Framed.insertBlock_eq (h : pkt.Framed) (reportSeqs : List UInt16)
    : pkt.insertBlock undefinedShift reportSeqs
        = if pkt.nackBlocks.length < maxBlocks then
            let data := pkt.data ++ (blockOf undefinedShift reportSeqs).bytes
            some
              { data := data.take 2 ++ (write2Bytes (data.length / 4 - 1) ++ data.drop 4)
                nackBlocks := pkt.nackBlocks ++ [blockOf undefinedShift reportSeqs] }
          else none := by
  have hroom : (pkt.data ++ (blockOf undefinedShift reportSeqs).bytes).length ≤ dataSize
      ↔ pkt.nackBlocks.length < maxBlocks := by
    rw [h.length_behind]
    unfold headerSize dataSize maxBlocks
    omega
  unfold insertBlock
  apply ite_cond_congr
  apply propext hroom

theorem Framed.insertBlock_isSome (undefinedShift : Int → UInt16) (h : pkt.Framed) (reportSeqs : List UInt16)
    : (pkt.insertBlock undefinedShift reportSeqs).isSome ↔ pkt.nackBlocks.length < maxBlocks := by
  rw [h.insertBlock_eq]
  split
  . next hlt => exact iff_of_true rfl hlt
  . next hge => exact iff_of_false nofun hge

theorem Framed.insertBlock (h : pkt.Framed) {pkt' : RtcpFbNack} {reportSeqs : List UInt16}
    (hinsert : pkt.insertBlock undefinedShift reportSeqs = some pkt')
    : pkt'.Framed ∧ pkt'.nackBlocks.length = pkt.nackBlocks.length + 1 := by
  rw [h.insertBlock_eq] at hinsert
  have hbehind := h.length_behind (blockOf undefinedShift reportSeqs)
  generalize pkt.data ++ (blockOf undefinedShift reportSeqs).bytes = data at hinsert hbehind
  split at hinsert
  . next hlt =>
    cases hinsert
    unfold headerSize maxBlocks at *
    have hlength : (data.take 2 ++ (write2Bytes (data.length / 4 - 1) ++ data.drop 4)).length = data.length := by
      simp only [List.length_append, List.length_take, List.length_drop, length_write2Bytes]
      omega
    refine ⟨⟨?_, ?_, ?_⟩, List.length_append⟩
    . rw [hlength, hbehind]
      unfold dataSize
      omega
    . rw [hlength, hbehind, List.length_append, List.length_singleton]
      rfl
    . rw [hlength, lengthField, List.drop_left' (by rw [List.length_take]; omega), read2Bytes_write2Bytes]
      omega
  . cases hinsert

theorem behindBlock_far {first seq : UInt16} (seqs : List UInt16) (hfar : 16 < (seq.toNat : Int) - first.toNat)
    : behindBlock first (seq :: seqs) = seqs := by
  unfold behindBlock
  rw [List.dropWhile_cons_of_neg (by rw [decide_eq_true_eq]; omega), List.tail_cons]

theorem behindBlock_near {first seq : UInt16} (seqs : List UInt16) (hnear : ¬16 < (seq.toNat : Int) - first.toNat)
    : behindBlock first (seq :: seqs) = behindBlock first seqs := by
  unfold behindBlock
  rw [List.dropWhile_cons_of_pos (by simpa using hnear)]

theorem Framed.insertSeqs (seqs : List UInt16)
    : ∀ {pkt pkt' : RtcpFbNack} {reportSeqs : List UInt16}, pkt.Framed →
        pkt.insertSeqs undefinedShift reportSeqs seqs = some pkt' → pkt'.Framed := by
  induction seqs with
  | nil =>
    intro pkt pkt' reportSeqs h hinsert
    rw [RtcpFbNack.insertSeqs] at hinsert
    split at hinsert
    . cases hinsert
      exact h
    . apply (h.insertBlock hinsert).left
  | cons lostSeq seqs ih =>
    intro pkt pkt' reportSeqs h hinsert
    rw [RtcpFbNack.insertSeqs] at hinsert
    split at hinsert
    . obtain ⟨pkt1, hblock, hrest⟩ := Option.bind_eq_some_iff.mp hinsert
      apply ih (h.insertBlock hblock).left hrest
    . apply ih h hinsert

theorem Framed.insertSeqs_isSome (undefinedShift : Int → UInt16) (seqs : List UInt16)
    : ∀ {pkt : RtcpFbNack} (reportSeqs : List UInt16), pkt.Framed →
        ((pkt.insertSeqs undefinedShift reportSeqs seqs).isSome
          ↔ pkt.nackBlocks.length + blocksLeft reportSeqs seqs ≤ maxBlocks) := by
  induction seqs with
  | nil =>
    intro pkt reportSeqs h
    cases reportSeqs with
    | nil =>
      have hfits := h.fits
      have hblocks := h.blocks
      unfold headerSize dataSize at *
      simp only [RtcpFbNack.insertSeqs, if_true, Option.isSome_some, true_iff, blocksLeft, blockCount, maxBlocks]
      omega
    | cons first tail =>
      rw [RtcpFbNack.insertSeqs, if_neg (List.cons_ne_nil _ _), h.insertBlock_isSome undefinedShift]
      simp only [blocksLeft, behindBlock, List.dropWhile_nil, List.tail_nil, blockCount]
      rfl
  | cons lostSeq seqs ih =>
    intro pkt reportSeqs h
    rw [RtcpFbNack.insertSeqs]
    cases reportSeqs with
    | nil =>
      rw [if_neg (by simp), List.nil_append, ih [lostSeq] h, blocksLeft, blocksLeft, blockCount]
    | cons first tail =>
      rw [List.cons_append]
      split
      . next hfar =>
        rw [List.headD_cons] at hfar
        rw [blocksLeft, behindBlock_far seqs hfar]
        have hroom := h.insertBlock_isSome undefinedShift (first :: (tail ++ [lostSeq]))
        cases hinsert : pkt.insertBlock undefinedShift (first :: (tail ++ [lostSeq])) with
        | none =>
          rw [hinsert] at hroom
          simp only [Option.isSome_none, Bool.false_eq_true, false_iff] at hroom
          simp only [Option.bind_eq_bind, Option.bind_none, Option.isSome_none, Bool.false_eq_true, false_iff]
          omega
        | some pkt1 =>
          obtain ⟨hframed, hlength⟩ := h.insertBlock hinsert
          simp only [Option.bind_eq_bind, Option.bind_some]
          rw [ih [] hframed, hlength, blocksLeft]
          omega
      . next hnear =>
        rw [List.headD_cons] at hnear
        rw [ih (first :: (tail ++ [lostSeq])) h, blocksLeft, blocksLeft, behindBlock_near seqs hnear]

end Insert

/--
A block takes 18 numbers at most: its first one, the 16 above it, and the next one.
-/
theorem length_le_blockCount {seqs : List UInt16} (h : seqs.Pairwise (· < ·))
    : seqs.length ≤ 18 * blockCount seqs := by
  fun_induction blockCount seqs with
  | case1 => exact Nat.zero_le _
  | case2 first seqs ih =>
    rw [List.pairwise_cons] at h
    have htail := ih (h.right.sublist ((List.tail_sublist _).trans (List.dropWhile_sublist _)))
    have hnear : (seqs.takeWhile fun seq => (seq.toNat : Int) - first.toNat ≤ 16).length ≤ 16 := by
      -- they are different numbers of a range of 16
      have hnodup : ((seqs.takeWhile fun seq => (seq.toNat : Int) - first.toNat ≤ 16).map UInt16.toNat).Nodup := by
        apply List.Nodup.map_on
        . intro a _ b _ heq
          apply UInt16.toNat_inj.mp heq
        . apply (h.right.sublist (List.takeWhile_sublist _)).imp
          intro a b hlt
          apply UInt16.ne_of_lt hlt
      have hsubset : (seqs.takeWhile fun seq => (seq.toNat : Int) - first.toNat ≤ 16).map UInt16.toNat
          ⊆ List.range' (first.toNat + 1) 16 := by
        intro n hn
        obtain ⟨seq, hseq, rfl⟩ := List.mem_map.mp hn
        have hle := List.mem_takeWhile_imp hseq
        have hlt := h.left seq ((List.takeWhile_sublist _).subset hseq)
        rw [UInt16.lt_iff_toNat_lt] at hlt
        rw [decide_eq_true_eq] at hle
        rw [List.mem_range'_1]
        omega
      have hlength := (hnodup.subperm hsubset).length_le
      rwa [List.length_map, List.length_range'] at hlength
    have hsplit := congrArg List.length
      (List.takeWhile_append_dropWhile (p := fun seq : UInt16 => (seq.toNat : Int) - first.toNat ≤ 16) (l := seqs))
    rw [List.length_append] at hsplit
    simp only [behindBlock, List.length_tail] at htail
    rw [List.length_cons, behindBlock]
    omega

end RtcpFbNack

namespace RtcRecvStream

variable (undefinedShift : Int → UInt16)

/--
The packet that is sent, `none` if it is written past its buffer.
-/
def generateNackList (ssrc : UInt32) (seqVec : List UInt16) : Option RtcpFbNack :=
  (RtcpFbNack.create 0 ssrc).insertSeqList undefinedShift seqVec

end RtcRecvStream

namespace NackGenerator

section Packets

variable (undefinedShift : Int → UInt16)

/--
The numbers that are due need no more blocks than there is room for.
-/
def HasRoom (s : NackGenerator) (now : Int) : Prop :=
  RtcpFbNack.blockCount ((s.nackMap.infos.filter fun info => Due now s.rtt info).map (·.seq)) ≤ RtcpFbNack.maxBlocks

/--
No packet that a timer has sent is written past its buffer, and its length is that of its bytes. There is none without
a number to ask for.
-/
def PacketsFit (ssrc : UInt32) (events : List Event) : Prop :=
  ∀ (before after : List Event) (now : Int), events = before ++ .timer now :: after →
    ((run {} before).onTimer now).2 ≠ [] →
      ∃ pkt, RtcRecvStream.generateNackList undefinedShift ssrc ((run {} before).onTimer now).2 = some pkt
        ∧ pkt.data.length ≤ RtcpFbNack.dataSize ∧ pkt.lengthField = pkt.data.length

theorem generateNackList_iff (ssrc : UInt32) (seqVec : List UInt16)
    : (∃ pkt, RtcRecvStream.generateNackList undefinedShift ssrc seqVec = some pkt
          ∧ pkt.data.length ≤ RtcpFbNack.dataSize ∧ pkt.lengthField = pkt.data.length)
        ↔ RtcpFbNack.blockCount seqVec ≤ RtcpFbNack.maxBlocks := by
  have hcreate := RtcpFbNack.create_framed 0 ssrc
  have hsome := RtcpFbNack.Framed.insertSeqs_isSome undefinedShift seqVec [] hcreate
  change _ ↔ 0 + _ ≤ _ at hsome
  rw [Nat.zero_add, RtcpFbNack.blocksLeft] at hsome
  rw [← hsome, Option.isSome_iff_exists]
  constructor
  . rintro ⟨pkt, hpkt, _⟩
    exact ⟨pkt, hpkt⟩
  . rintro ⟨pkt, hpkt⟩
    have hframed := hcreate.insertSeqs seqVec hpkt
    exact ⟨pkt, hpkt, hframed.fits, hframed.field⟩

theorem packetsFit_iff (ssrc : UInt32) (events : List Event)
    : PacketsFit undefinedShift ssrc events
        ↔ ∀ (before after : List Event) (now : Int), events = before ++ .timer now :: after →
            (run {} before).HasRoom now := by
  unfold PacketsFit HasRoom
  simp only [generateNackList_iff, onTimer_lost_eq]
  constructor
  . intro h before after now heq
    by_cases hnone : (((run {} before).nackMap.infos.filter fun info => Due now (run {} before).rtt info).map
        (·.seq)) = []
    . rw [hnone, RtcpFbNack.blockCount]
      apply Nat.zero_le
    . apply h before after now heq hnone
  . intro h before after now heq _
    apply h before after now heq

/--
6999 numbers are lost at once, and asked for at once.
-/
theorem not_packetsFit : ¬PacketsFit (fun _ => 0) 1 [.packet 0, .packet 7000, .timer 100] := by
  have hrun : run {} [.packet 0, .packet 7000] = ⟨true, 7000, addSeqs {} 1 7000, 15⟩ := by
    have hlower : seqLowerThan 7000 0 = false := by decide
    simp [run, step, updateNackList, hlower]
  have hdue : ((addSeqs {} 1 7000).infos.filter fun info => Due 100 15 info) = (addSeqs {} 1 7000).infos := by
    apply List.filter_eq_self.mpr
    intro info hmem
    obtain ⟨hsent, hretry⟩ := fresh_addSeqs {} 1 7000 (by simp) info hmem
    rw [decide_eq_true_eq, Due, hsent, hretry]
    decide
  have hcount : 6999 ≤ (addSeqs {} 1 7000).infos.length := by
    have hnumber (i : Nat) (hi : i < 6999) : (UInt16.ofNat (i + 1)).toNat = i + 1 := by
      apply UInt16.toNat_ofNat_of_lt'
      change i + 1 < 65536
      omega
    apply le_length_of_keys (f := fun i => UInt16.ofNat (i + 1))
    . intro i hi j hj heq
      have hnat := congrArg UInt16.toNat heq
      rw [hnumber i hi, hnumber j hj] at hnat
      omega
    . intro i hi
      rw [mem_addSeqs, UInt16.le_iff_toNat_le, UInt16.lt_iff_toNat_lt, hnumber i hi]
      change _ ∨ 1 ≤ i + 1 ∧ i + 1 < 7000
      omega
  intro h
  have hlost := h [.packet 0, .packet 7000] [] 100 rfl
  rw [generateNackList_iff, hrun, onTimer_lost_eq] at hlost
  simp only [hdue] at hlost
  have hsorted : ((addSeqs {} 1 7000).infos.map (·.seq)).Pairwise (· < ·) := by
    rw [List.pairwise_map]
    apply (addSeqs {} 1 7000).sorted
  have hlength := RtcpFbNack.length_le_blockCount hsorted
  have hroom := hlost (by
    rw [← List.length_pos_iff, List.length_map]
    omega)
  rw [List.length_map] at hlength
  unfold RtcpFbNack.maxBlocks at hroom
  omega

end Packets

end NackGenerator
