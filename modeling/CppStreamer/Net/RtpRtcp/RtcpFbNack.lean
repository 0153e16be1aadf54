import Mathlib.Data.List.Sort
import CppStreamer.Utils.ByteStream

/-!
This module contains the model of `RtcpFbNack`, and which lists of sequence numbers it carries.
-/

open ByteStream

structure RtcpNackBlock where
  packetId : UInt16
  lostBitmap : UInt16
  deriving DecidableEq, Repr

namespace RtcpNackBlock

def bytes (block : RtcpNackBlock) : List UInt8 :=
  write2Bytes block.packetId.toNat ++ write2Bytes block.lostBitmap.toNat

/--
The loop over the bits, from the lowest one on.
-/
def maskSeqs (bitMask seq : UInt16) : List UInt16 :=
  if bitMask = 0 then []
  else if bitMask &&& 1 = 1 then seq :: maskSeqs (bitMask >>> 1) (seq + 1)
  else maskSeqs (bitMask >>> 1) (seq + 1)
termination_by bitMask.toNat
decreasing_by
  all_goals
    next hne _ =>
      rw [← UInt16.toNat_inj] at hne
      rw [UInt16.toNat_shiftRight]
      change ¬bitMask.toNat = 0 at hne
      change bitMask.toNat >>> 1 < bitMask.toNat
      rw [Nat.shiftRight_eq_div_pow]
      omega

def lostSeqs (block : RtcpNackBlock) : List UInt16 :=
  block.packetId :: maskSeqs block.lostBitmap (block.packetId + 1)

end RtcpNackBlock

/--
The bytes of a packet as far as they are in use, and its blocks.
-/
structure RtcpFbNack where
  data : List UInt8
  nackBlocks : List RtcpNackBlock := []
  deriving DecidableEq, Repr

namespace RtcpFbNack

def dataSize : Nat := 1500

def headerSize : Nat := 12

/--
Version 2, no padding and the format of a NACK in the first byte, then the type of the packet.
-/
def create (senderSsrc mediaSsrc : UInt32) : RtcpFbNack where
  data := [0x81, 205] ++ write2Bytes (headerSize / 4 - 1)
    ++ (write4Bytes senderSsrc.toNat ++ write4Bytes mediaSsrc.toNat)

section Build

-- What a shift by a negative count, or one of 32 and more, gives is left open.
variable (undefinedShift : Int → UInt16)

/--
A bit shifted as an `int` and cut to 16 bits.
-/
def shiftBit (count : Int) : UInt16 :=
  if 0 ≤ count ∧ count < 32 then UInt16.ofNat (2 ^ count.toNat) else undefinedShift count

def bitmapOf (packetId : UInt16) : List UInt16 → UInt16 → UInt16
  | [], bitmap => bitmap
  | tempSeq :: seqs, bitmap =>
    bitmapOf packetId seqs (bitmap ||| shiftBit undefinedShift (16 - (tempSeq.toNat - packetId.toNat)))

/--
`none` if there is no room for the block.
-/
def insertBlock (pkt : RtcpFbNack) (reportSeqs : List UInt16) : Option RtcpFbNack :=
  let packetId := reportSeqs.headD 0
  let block : RtcpNackBlock := ⟨packetId, bitmapOf undefinedShift packetId reportSeqs.tail 0⟩
  let data := pkt.data ++ block.bytes
  if data.length ≤ dataSize then
    some
      { data := data.take 2 ++ (write2Bytes (data.length / 4 - 1) ++ data.drop 4)
        nackBlocks := pkt.nackBlocks ++ [block] }
  else none

/--
The loop of `InsertSeqList` with the numbers that are not in a block yet.
-/
def insertSeqs (pkt : RtcpFbNack) (reportSeqs : List UInt16) : List UInt16 → Option RtcpFbNack
  | [] => if reportSeqs = [] then some pkt else pkt.insertBlock undefinedShift reportSeqs
  | lostSeq :: seqs =>
    let reportSeqs := reportSeqs ++ [lostSeq]
    if 16 < (lostSeq.toNat : Int) - (reportSeqs.headD 0).toNat then do
      let pkt ← pkt.insertBlock undefinedShift reportSeqs
      pkt.insertSeqs [] seqs
    else pkt.insertSeqs reportSeqs seqs

def insertSeqList (pkt : RtcpFbNack) (seqVec : List UInt16) : Option RtcpFbNack :=
  pkt.insertSeqs undefinedShift [] seqVec

end Build

/--
The blocks behind the header, `none` if the last one is not whole.
-/
def parseBlocks : List UInt8 → Option (List RtcpNackBlock)
  | [] => some []
  | b0 :: b1 :: b2 :: b3 :: data => do
    let blocks ← parseBlocks data
    pure (⟨UInt16.ofNat (read2Bytes [b0, b1]), UInt16.ofNat (read2Bytes [b2, b3])⟩ :: blocks)
  | _ => none

def parse (data : List UInt8) : Option RtcpFbNack :=
  if data.length ≤ headerSize then none
  else if data.length ≤ dataSize then do
    let nackBlocks ← parseBlocks (data.drop headerSize)
    pure { data, nackBlocks }
  else none

def getLostSeqs (pkt : RtcpFbNack) : List UInt16 := pkt.nackBlocks.flatMap (·.lostSeqs)

/--
A list that is inserted, serialised and parsed comes back.
-/
def RoundTrips (undefinedShift : Int → UInt16) (senderSsrc mediaSsrc : UInt32) (seqVec : List UInt16)
    : Prop :=
  ∃ pkt pkt', (create senderSsrc mediaSsrc).insertSeqList undefinedShift seqVec = some pkt
    ∧ parse pkt.data = some pkt' ∧ pkt'.getLostSeqs = seqVec

section Serialise

/--
The blocks of a packet are those that its bytes hold behind the header.
-/
def Serialises (pkt : RtcpFbNack) : Prop :=
  ∃ header, header.length = headerSize ∧ pkt.data = header ++ pkt.nackBlocks.flatMap RtcpNackBlock.bytes

theorem create_serialises (senderSsrc mediaSsrc : UInt32) : (create senderSsrc mediaSsrc).Serialises :=
  ⟨_, rfl, (List.append_nil _).symm⟩

/--
The block that is made of numbers.
-/
def blockOf (undefinedShift : Int → UInt16) (reportSeqs : List UInt16) : RtcpNackBlock :=
  ⟨reportSeqs.headD 0, bitmapOf undefinedShift (reportSeqs.headD 0) reportSeqs.tail 0⟩

theorem insertBlock_some {undefinedShift : Int → UInt16} {pkt pkt' : RtcpFbNack}
    {reportSeqs : List UInt16} (hinsert : pkt.insertBlock undefinedShift reportSeqs = some pkt')
    : ∃ size, size.length = 2 ∧ pkt'.nackBlocks = pkt.nackBlocks ++ [blockOf undefinedShift reportSeqs]
        ∧ pkt'.data = let data := pkt.data ++ (blockOf undefinedShift reportSeqs).bytes
          data.take 2 ++ (size ++ data.drop 4) := by
  unfold insertBlock at hinsert
  simp only at hinsert
  split at hinsert
  . cases hinsert
    exact ⟨_, length_write2Bytes _, rfl, rfl⟩
  . cases hinsert

theorem insertBlock_serialises {undefinedShift : Int → UInt16} {pkt pkt' : RtcpFbNack}
    (h : pkt.Serialises) {reportSeqs : List UInt16}
    (hinsert : pkt.insertBlock undefinedShift reportSeqs = some pkt')
    : pkt'.Serialises := by
  obtain ⟨header, hlen, hdata⟩ := h
  obtain ⟨size, hsize, hblocks, hdata'⟩ := insertBlock_some hinsert
  simp only [headerSize] at hlen
  refine ⟨header.take 2 ++ (size ++ header.drop 4), ?_, ?_⟩
  . simp [hlen, hsize, headerSize]
  . rw [hdata', hdata, hblocks, List.flatMap_append, List.flatMap_singleton]
    simp only [List.append_assoc]
    rw [List.take_append_of_le_length (by omega), List.drop_append_of_le_length (by omega)]

theorem insertSeqs_serialises {undefinedShift : Int → UInt16} (seqs : List UInt16)
    : ∀ (pkt pkt' : RtcpFbNack) (reportSeqs : List UInt16), pkt.Serialises →
        pkt.insertSeqs undefinedShift reportSeqs seqs = some pkt' → pkt'.Serialises := by
  induction seqs with
  | nil =>
    intro pkt pkt' reportSeqs h hinsert
    rw [insertSeqs] at hinsert
    split at hinsert
    . cases hinsert
      exact h
    . exact insertBlock_serialises h hinsert
  | cons lostSeq seqs ih =>
    intro pkt pkt' reportSeqs h hinsert
    rw [insertSeqs] at hinsert
    split at hinsert
    . obtain ⟨pkt1, hblock, hrest⟩ := Option.bind_eq_some_iff.mp hinsert
      exact ih pkt1 pkt' [] (insertBlock_serialises h hblock) hrest
    . exact ih pkt pkt' _ h hinsert

theorem parseBlocks_flatMap (blocks : List RtcpNackBlock)
    : parseBlocks (blocks.flatMap RtcpNackBlock.bytes) = some blocks := by
  induction blocks with
  | nil => rfl
  | cons block blocks ih =>
    have hid := block.packetId.toNat_lt
    have hmap := block.lostBitmap.toNat_lt
    have hread (n : UInt16) : UInt16.ofNat (read2Bytes (write2Bytes n.toNat)) = n := by
      rw [read2Bytes_write2Bytes_of_lt n.toNat_lt]
      exact UInt16.ofNat_toNat
    rw [List.flatMap_cons, RtcpNackBlock.bytes]
    simp only [write2Bytes, List.cons_append, List.nil_append, parseBlocks, ih]
    change some (RtcpNackBlock.mk (UInt16.ofNat (read2Bytes (write2Bytes block.packetId.toNat)))
      (UInt16.ofNat (read2Bytes (write2Bytes block.lostBitmap.toNat))) :: blocks) = _
    rw [hread, hread]

theorem parse_serialises {pkt : RtcpFbNack} (h : pkt.Serialises) (hne : pkt.nackBlocks ≠ [])
    (hfits : pkt.data.length ≤ dataSize)
    : parse pkt.data = some { data := pkt.data, nackBlocks := pkt.nackBlocks } := by
  obtain ⟨header, hlen, hdata⟩ := h
  have hpos : ¬pkt.data.length ≤ headerSize := by
    rw [hdata, List.length_append, hlen]
    cases hblocks : pkt.nackBlocks with
    | nil => exact absurd hblocks hne
    | cons block blocks =>
      simp only [List.flatMap_cons, RtcpNackBlock.bytes, List.length_append, length_write2Bytes]
      omega
  have hdrop : pkt.data.drop headerSize = pkt.nackBlocks.flatMap RtcpNackBlock.bytes := by
    rw [hdata, List.drop_left' hlen]
  unfold parse
  rw [if_neg hpos, if_pos hfits, hdrop, parseBlocks_flatMap]
  rfl

end Serialise

section Bits

/--
Bit `i` of the mask stands for the number `i` behind the one that the loop begins with.
-/
theorem maskSeqs_eq (n : Nat)
    : ∀ (bitMask seq : UInt16), bitMask.toNat < 2 ^ n →
        RtcpNackBlock.maskSeqs bitMask seq
          = ((List.range n).filter fun i => bitMask.toNat.testBit i).map fun i => seq + UInt16.ofNat i := by
  induction n with
  | zero =>
    intro bitMask seq h
    have hzero : bitMask = 0 := by
      rw [← UInt16.toNat_inj]
      exact Nat.lt_one_iff.mp h
    rw [RtcpNackBlock.maskSeqs, if_pos hzero]
    rfl
  | succ n ih =>
    intro bitMask seq h
    have hshift : (bitMask >>> 1).toNat = bitMask.toNat / 2 := by
      rw [UInt16.toNat_shiftRight]
      rfl
    have hrest := ih (bitMask >>> 1) (seq + 1) (by rw [hshift]; omega)
    have hsucc : (((List.range n).map Nat.succ).filter fun i => bitMask.toNat.testBit i).map
        (fun i => seq + UInt16.ofNat i) = RtcpNackBlock.maskSeqs (bitMask >>> 1) (seq + 1) := by
      have hstep (i : Nat) : seq + UInt16.ofNat (i + 1) = seq + 1 + UInt16.ofNat i := by
        rw [UInt16.ofNat_add, UInt16.add_comm (UInt16.ofNat i), UInt16.add_assoc]
        rfl
      rw [hrest, List.filter_map, List.map_map, hshift]
      simp only [Function.comp_def, Nat.succ_eq_add_one, hstep, Nat.testBit_succ]
    have hzero : bitMask.toNat.testBit 0 = decide (bitMask &&& 1 = 1) := by
      rw [Nat.testBit_zero]
      apply decide_eq_decide.mpr
      rw [← UInt16.toNat_inj, UInt16.toNat_and]
      change _ ↔ bitMask.toNat &&& 1 = 1
      rw [Nat.and_one_is_mod]
    rw [List.range_succ_eq_map, List.filter_cons, hzero, RtcpNackBlock.maskSeqs]
    by_cases hnone : bitMask = 0
    . subst hnone
      simp
    . rw [if_neg hnone]
      by_cases hbit : bitMask &&& 1 = 1
      . rw [if_pos hbit, if_pos (decide_eq_true hbit), List.map_cons, hsucc]
        congr 1
        exact (UInt16.add_zero seq).symm
      . rw [if_neg hbit, if_neg (by simpa using hbit), hsucc]

theorem lostSeqs_eq (block : RtcpNackBlock)
    : block.lostSeqs = block.packetId
        :: ((List.range 16).filter fun i => block.lostBitmap.toNat.testBit i).map
          fun i => block.packetId + 1 + UInt16.ofNat i := by
  rw [RtcpNackBlock.lostSeqs, maskSeqs_eq 16 _ _ block.lostBitmap.toNat_lt]

theorem testBit_bitmapOf (undefinedShift : Int → UInt16) (packetId : UInt16) {seqs : List UInt16}
    (h : ∀ seq ∈ seqs, packetId.toNat < seq.toNat ∧ seq.toNat ≤ packetId.toNat + 16) {i : Nat} (hi : i < 16)
    : ∀ bitmap : UInt16, (bitmapOf undefinedShift packetId seqs bitmap).toNat.testBit i = true
        ↔ bitmap.toNat.testBit i = true ∨ packetId.toNat + (16 - i) ∈ seqs.map UInt16.toNat := by
  induction seqs with
  | nil =>
    intro bitmap
    simp [bitmapOf]
  | cons seq seqs ih =>
    intro bitmap
    obtain ⟨hlt, hle⟩ := h seq (List.mem_cons_self ..)
    have hcount : (16 - ((seq.toNat : Int) - packetId.toNat)) = (16 - (seq.toNat - packetId.toNat) : Nat) := by
      omega
    have hshift : (shiftBit undefinedShift (16 - (seq.toNat - packetId.toNat))).toNat
        = 2 ^ (16 - (seq.toNat - packetId.toNat)) := by
      rw [hcount, shiftBit, if_pos (by omega), Int.toNat_natCast, UInt16.toNat_ofNat']
      apply Nat.mod_eq_of_lt
      apply Nat.pow_lt_pow_right (by omega) (by omega)
    have hbit : 16 - (seq.toNat - packetId.toNat) = i ↔ packetId.toNat + (16 - i) = seq.toNat := by omega
    rw [bitmapOf, ih fun s hs => h s (List.mem_cons_of_mem _ hs)]
    rw [UInt16.toNat_or, Nat.testBit_or, hshift, Nat.testBit_two_pow, Bool.or_eq_true, decide_eq_true_eq,
      hbit, List.map_cons, List.mem_cons, or_assoc]

end Bits

section RoundTrip

/--
The numbers are one block of at most 16 behind the first, and mirrored within it.
-/
def Mirrored (seqVec : List UInt16) : Prop :=
  ∃ first tail, seqVec = first :: tail ∧ (∀ seq ∈ tail, seq.toNat ≤ first.toNat + 16)
    ∧ ∀ d, 1 ≤ d → d ≤ 16 →
        (first.toNat + d ∈ tail.map UInt16.toNat ↔ first.toNat + (17 - d) ∈ tail.map UInt16.toNat)

section OneBlock

variable {first : UInt16} {tail : List UInt16}

theorem toNat_behind {i : Nat} (hmem : first.toNat + 1 + i ∈ tail.map UInt16.toNat)
    : (first + 1 + UInt16.ofNat i).toNat = first.toNat + 1 + i := by
  obtain ⟨seq, _, hseq⟩ := List.mem_map.mp hmem
  have hlt := seq.toNat_lt
  rw [UInt16.toNat_add, UInt16.toNat_add, UInt16.toNat_ofNat']
  change ((first.toNat + 1) % 65536 + i % 65536) % 65536 = _
  omega

variable (hnear : ∀ seq ∈ tail, seq.toNat ≤ first.toNat + 16)
include hnear

theorem insertSeqs_near (undefinedShift : Int → UInt16) (pkt : RtcpFbNack)
    : ∀ (seqs reportSeqs : List UInt16), reportSeqs ++ seqs = first :: tail →
        pkt.insertSeqs undefinedShift reportSeqs seqs = pkt.insertBlock undefinedShift (first :: tail) := by
  intro seqs
  induction seqs with
  | nil =>
    intro reportSeqs heq
    rw [List.append_nil] at heq
    rw [insertSeqs, heq, if_neg (List.cons_ne_nil _ _)]
  | cons seq seqs ih =>
    intro reportSeqs heq
    have hsplit : reportSeqs ++ [seq] ++ seqs = first :: tail := by simpa using heq
    have hhead : (reportSeqs ++ [seq]).headD 0 = first := by
      cases reportSeqs with
      | nil => exact (List.cons.inj heq).left
      | cons _ _ => exact (List.cons.inj heq).left
    have hmem : seq ∈ first :: tail := by
      rw [← heq]
      simp
    have hle : seq.toNat ≤ first.toNat + 16 := by
      cases hmem with
      | head => omega
      | tail _ hmem => exact hnear seq hmem
    rw [insertSeqs, hhead, if_neg (by omega)]
    exact ih _ hsplit

variable (hsorted : (first :: tail).Pairwise (· < ·))
include hsorted

theorem behind_first : ∀ seq ∈ tail, first.toNat < seq.toNat ∧ seq.toNat ≤ first.toNat + 16 := by
  intro seq hseq
  rw [List.pairwise_cons] at hsorted
  exact ⟨UInt16.lt_iff_toNat_lt.mp (hsorted.left seq hseq), hnear seq hseq⟩

theorem lostSeqs_near (undefinedShift : Int → UInt16)
    : (blockOf undefinedShift (first :: tail)).lostSeqs = first
        :: ((List.range 16).filter fun i => first.toNat + (16 - i) ∈ tail.map UInt16.toNat).map
          fun i => first + 1 + UInt16.ofNat i := by
  have hbits : (List.range 16).filter
      (fun i => (bitmapOf undefinedShift first tail 0).toNat.testBit i)
        = (List.range 16).filter fun i => first.toNat + (16 - i) ∈ tail.map UInt16.toNat := by
    apply List.filter_congr
    intro i hi
    have hbit := testBit_bitmapOf undefinedShift first (behind_first hnear hsorted)
      (List.mem_range.mp hi) 0
    have hzero : (0 : UInt16).toNat.testBit i = false := Nat.zero_testBit i
    rw [hzero] at hbit
    rw [Bool.eq_iff_iff, decide_eq_true_eq, hbit]
    exact or_iff_right Bool.false_ne_true
  rw [lostSeqs_eq]
  change first :: ((List.range 16).filter
    fun i => (bitmapOf undefinedShift first tail 0).toNat.testBit i).map _ = _
  rw [hbits]
  rfl

theorem tail_eq
    : tail = ((List.range 16).filter fun i => first.toNat + 1 + i ∈ tail.map UInt16.toNat).map
        fun i => first + 1 + UInt16.ofNat i := by
  have hbehind := behind_first hnear hsorted
  have htail : (tail.map UInt16.toNat).Pairwise (· < ·) := by
    rw [List.pairwise_map]
    exact (List.pairwise_cons.mp hsorted).right.imp UInt16.lt_iff_toNat_lt.mp
  have hrange : (((List.range 16).filter fun i => first.toNat + 1 + i ∈ tail.map UInt16.toNat).map
      (first.toNat + 1 + ·)).Pairwise (· < ·) := by
    rw [List.pairwise_map]
    apply (List.pairwise_lt_range.filter _).imp
    intro i j hlt
    omega
  have hnat : tail.map UInt16.toNat = ((List.range 16).filter
      fun i => first.toNat + 1 + i ∈ tail.map UInt16.toNat).map (first.toNat + 1 + ·) := by
    apply htail.eq_of_mem_iff hrange
    intro n
    simp only [List.mem_map (f := (first.toNat + 1 + ·)), List.mem_filter, List.mem_range,
      decide_eq_true_eq]
    constructor
    . intro hn
      obtain ⟨seq, hseq, rfl⟩ := List.mem_map.mp hn
      have := hbehind seq hseq
      have hsum : first.toNat + 1 + (seq.toNat - first.toNat - 1) = seq.toNat := by omega
      exact ⟨seq.toNat - first.toNat - 1, ⟨by omega, by rw [hsum]; exact hn⟩, hsum⟩
    . rintro ⟨i, ⟨_, hi⟩, rfl⟩
      exact hi
  apply List.map_injective_iff.mpr (fun _ _ => UInt16.toNat_inj.mp)
  refine hnat.trans ?_
  rw [List.map_map]
  apply List.map_congr_left
  intro i hi
  rw [List.mem_filter, decide_eq_true_eq] at hi
  exact (toNat_behind hi.right).symm

omit hnear hsorted in
theorem map_behind_inj {p q : Nat → Bool}
    (h : ((List.range 16).filter p).map (fun i => first + 1 + UInt16.ofNat i)
      = ((List.range 16).filter q).map fun i => first + 1 + UInt16.ofNat i)
    : (List.range 16).filter p = (List.range 16).filter q := by
  have hinv (p : Nat → Bool) : (((List.range 16).filter p).map fun i => first + 1 + UInt16.ofNat i).map
      (fun seq => (seq - (first + 1)).toNat) = (List.range 16).filter p := by
    rw [List.map_map]
    refine (List.map_congr_left ?_).trans (List.map_id _)
    intro i hi
    have hlt := List.mem_range.mp (List.mem_filter.mp hi).left
    have hcancel : first + 1 + UInt16.ofNat i - (first + 1) = UInt16.ofNat i := by
      rw [UInt16.add_comm, UInt16.add_sub_cancel]
    simp only [Function.comp_apply, hcancel, UInt16.toNat_ofNat', id_eq]
    exact Nat.mod_eq_of_lt (by omega)
  rw [← hinv p, h, hinv q]

theorem lostSeqs_near_iff (undefinedShift : Int → UInt16)
    : (blockOf undefinedShift (first :: tail)).lostSeqs = first :: tail
        ↔ ∀ d, 1 ≤ d → d ≤ 16 →
            (first.toNat + d ∈ tail.map UInt16.toNat ↔ first.toNat + (17 - d) ∈ tail.map UInt16.toNat) := by
  have htail := tail_eq hnear hsorted
  rw [lostSeqs_near hnear hsorted]
  constructor
  . intro heq
    have hfilter := map_behind_inj ((List.cons.inj heq).right.trans htail)
    intro d hpos hle
    have hmem : d - 1 ∈ (List.range 16).filter (fun i => first.toNat + (16 - i) ∈ tail.map UInt16.toNat)
        ↔ d - 1 ∈ (List.range 16).filter fun i => first.toNat + 1 + i ∈ tail.map UInt16.toNat := by
      rw [hfilter]
    have hlow : first.toNat + (16 - (d - 1)) = first.toNat + (17 - d) := by omega
    have hhigh : first.toNat + 1 + (d - 1) = first.toNat + d := by omega
    simp only [List.mem_filter, List.mem_range, decide_eq_true_eq, hlow, hhigh] at hmem
    have hlt : d - 1 < 16 := by omega
    simp only [hlt, true_and] at hmem
    exact hmem.symm
  . intro hmirror
    congr 1
    refine Eq.trans ?_ htail.symm
    congr 1
    apply List.filter_congr
    intro i hi
    have hlt := List.mem_range.mp hi
    have hboth := hmirror (i + 1) (by omega) (by omega)
    have hlow : first.toNat + (17 - (i + 1)) = first.toNat + (16 - i) := by omega
    have hhigh : first.toNat + (i + 1) = first.toNat + 1 + i := by omega
    rw [hlow, hhigh] at hboth
    exact decide_eq_decide.mpr hboth.symm

end OneBlock

section Far

theorem mem_lostSeqs {block : RtcpNackBlock} {seq : UInt16} (h : seq ∈ block.lostSeqs)
    : (seq - block.packetId).toNat ≤ 16 := by
  rw [lostSeqs_eq] at h
  cases h with
  | head =>
    rw [UInt16.sub_self]
    exact Nat.zero_le _
  | tail _ h =>
    obtain ⟨i, hi, rfl⟩ := List.mem_map.mp h
    have hlt := List.mem_range.mp (List.mem_filter.mp hi).left
    have hcancel : block.packetId + 1 + UInt16.ofNat i - block.packetId = 1 + UInt16.ofNat i := by
      rw [UInt16.add_assoc, UInt16.add_comm, UInt16.add_sub_cancel]
    rw [hcancel, UInt16.toNat_add, UInt16.toNat_ofNat']
    change (1 + i % 65536) % 65536 ≤ 16
    omega

variable {undefinedShift : Int → UInt16}

theorem insertSeqs_extends (seqs : List UInt16)
    : ∀ {pkt pkt' : RtcpFbNack} {reportSeqs : List UInt16},
        pkt.insertSeqs undefinedShift reportSeqs seqs = some pkt' →
        ∃ blocks, pkt'.nackBlocks = pkt.nackBlocks ++ blocks := by
  induction seqs with
  | nil =>
    intro pkt pkt' reportSeqs h
    rw [insertSeqs] at h
    split at h
    . cases h
      exact ⟨[], (List.append_nil _).symm⟩
    . obtain ⟨_, _, hblocks, _⟩ := insertBlock_some h
      exact ⟨_, hblocks⟩
  | cons seq seqs ih =>
    intro pkt pkt' reportSeqs h
    rw [insertSeqs] at h
    split at h
    . obtain ⟨pkt1, hblock, hrest⟩ := Option.bind_eq_some_iff.mp h
      obtain ⟨_, _, hblocks, _⟩ := insertBlock_some hblock
      obtain ⟨blocks, hblocks'⟩ := ih hrest
      rw [hblocks', hblocks, List.append_assoc]
      exact ⟨_, rfl⟩
    . exact ih h

theorem headD_append {reportSeqs : List UInt16} (h : reportSeqs ≠ []) (seq : UInt16)
    : (reportSeqs ++ [seq]).headD 0 = reportSeqs.headD 0 := by
  cases reportSeqs with
  | nil => exact absurd rfl h
  | cons _ _ => rfl

theorem insertSeqs_head (seqs : List UInt16)
    : ∀ {pkt pkt' : RtcpFbNack} {reportSeqs : List UInt16}, reportSeqs ≠ [] →
        pkt.insertSeqs undefinedShift reportSeqs seqs = some pkt' →
        ∃ block blocks, pkt'.nackBlocks = pkt.nackBlocks ++ block :: blocks
          ∧ block.packetId = reportSeqs.headD 0 := by
  induction seqs with
  | nil =>
    intro pkt pkt' reportSeqs hne h
    rw [insertSeqs, if_neg hne] at h
    obtain ⟨_, _, hblocks, _⟩ := insertBlock_some h
    exact ⟨_, [], hblocks, rfl⟩
  | cons seq seqs ih =>
    intro pkt pkt' reportSeqs hne h
    rw [insertSeqs] at h
    split at h
    . obtain ⟨pkt1, hblock, hrest⟩ := Option.bind_eq_some_iff.mp h
      obtain ⟨_, _, hblocks, _⟩ := insertBlock_some hblock
      obtain ⟨blocks, hblocks'⟩ := insertSeqs_extends seqs hrest
      rw [hblocks', hblocks, List.append_assoc]
      exact ⟨_, blocks, rfl, headD_append hne seq⟩
    . obtain ⟨block, blocks, hblocks, hid⟩ := ih (List.append_ne_nil_of_left_ne_nil hne _) h
      exact ⟨block, blocks, hblocks, hid.trans (headD_append hne seq)⟩

theorem insertSeqs_next {pkt pkt' : RtcpFbNack} {next : UInt16} {seqs : List UInt16}
    (h : pkt.insertSeqs undefinedShift [] (next :: seqs) = some pkt')
    : ∃ block blocks, pkt'.nackBlocks = pkt.nackBlocks ++ block :: blocks ∧ block.packetId = next := by
  rw [insertSeqs, if_neg (by simp)] at h
  exact insertSeqs_head seqs (List.cons_ne_nil _ _) h

theorem insertSeqs_far (seqs : List UInt16)
    : ∀ {pkt pkt' : RtcpFbNack} {reportSeqs : List UInt16}, reportSeqs ≠ [] →
        (∃ seq ∈ seqs, (reportSeqs.headD 0).toNat + 16 < seq.toNat) →
        pkt.insertSeqs undefinedShift reportSeqs seqs = some pkt' →
        ∃ before seq after block blocks, seqs = before ++ seq :: after
          ∧ (reportSeqs.headD 0).toNat + 16 < seq.toNat ∧ block.packetId = reportSeqs.headD 0
          ∧ pkt'.nackBlocks = pkt.nackBlocks ++ block :: blocks
          ∧ (blocks = [] ∨ ∃ next after' block' blocks', after = next :: after'
              ∧ blocks = block' :: blocks' ∧ block'.packetId = next) := by
  induction seqs with
  | nil =>
    rintro _ _ _ _ ⟨_, hmem, _⟩
    cases hmem
  | cons seq seqs ih =>
    intro pkt pkt' reportSeqs hne hfar h
    rw [insertSeqs, headD_append hne] at h
    split at h
    . next hlt =>
      obtain ⟨pkt1, hblock, hrest⟩ := Option.bind_eq_some_iff.mp h
      obtain ⟨_, _, hblocks, _⟩ := insertBlock_some hblock
      have hid : (blockOf undefinedShift (reportSeqs ++ [seq])).packetId = reportSeqs.headD 0 :=
        headD_append hne seq
      cases seqs with
      | nil =>
        cases hrest
        exact ⟨[], seq, [], _, [], rfl, by omega, hid, hblocks, Or.inl rfl⟩
      | cons next after' =>
        obtain ⟨block', blocks', hblocks', hid'⟩ := insertSeqs_next hrest
        rw [hblocks, List.append_assoc] at hblocks'
        exact ⟨[], seq, _, _, _, rfl, by omega, hid, hblocks', Or.inr ⟨_, _, _, _, rfl, rfl, hid'⟩⟩
    . next hge =>
      have hrest : ∃ s ∈ seqs, ((reportSeqs ++ [seq]).headD 0).toNat + 16 < s.toNat := by
        rw [headD_append hne]
        obtain ⟨s, hmem, hlt⟩ := hfar
        cases hmem with
        | head => omega
        | tail _ hmem => exact ⟨s, hmem, hlt⟩
      obtain ⟨before, s, after, block, blocks, heq, hlt, hid, hblocks, hnext⟩ :=
        ih (List.append_ne_nil_of_left_ne_nil hne _) hrest h
      rw [headD_append hne] at hlt hid
      exact ⟨seq :: before, s, after, block, blocks, by rw [heq]; rfl, hlt, hid, hblocks, hnext⟩

/--
A number more than 16 behind is lost: its block has no bit for it, and the next one begins behind it.
-/
theorem getLostSeqs_far {first : UInt16} {tail : List UInt16} (hsorted : (first :: tail).Pairwise (· < ·))
    (hfar : ∃ seq ∈ tail, first.toNat + 16 < seq.toNat) {pkt pkt' : RtcpFbNack}
    (hnone : pkt.nackBlocks = [])
    (hinsert : pkt.insertSeqs undefinedShift [] (first :: tail) = some pkt')
    : pkt'.getLostSeqs ≠ first :: tail := by
  rw [insertSeqs, if_neg (by simp)] at hinsert
  obtain ⟨before, seq, after, block, blocks, heq, hlt, hid, hblocks, hnext⟩ :=
    insertSeqs_far tail (List.cons_ne_nil _ _) hfar hinsert
  rw [hnone, List.nil_append] at hblocks
  change block.packetId = first at hid
  change first.toNat + 16 < seq.toNat at hlt
  have hnot : seq ∉ block.lostSeqs := by
    intro hmem
    have hle := mem_lostSeqs hmem
    have hseq := seq.toNat_lt
    rw [hid, UInt16.toNat_sub] at hle
    omega
  intro hlost
  have hmem : seq ∈ pkt'.getLostSeqs := by
    rw [hlost, heq]
    simp
  rw [getLostSeqs, hblocks, List.flatMap_cons] at hmem hlost
  rcases hnext with rfl | ⟨next, after', block', blocks', rfl, rfl, hid'⟩
  . rw [List.flatMap_nil, List.append_nil] at hmem
    exact hnot hmem
  . have hbehind : seq < next := by
      rw [heq, List.pairwise_cons, List.pairwise_append, List.pairwise_cons] at hsorted
      exact hsorted.right.right.left.left next (List.mem_cons_self ..)
    have hsplit : block'.lostSeqs = next :: RtcpNackBlock.maskSeqs block'.lostBitmap (next + 1) := by
      rw [RtcpNackBlock.lostSeqs, hid']
    have hrest := (List.mem_append.mp hmem).resolve_left hnot
    rw [← hlost, List.flatMap_cons, hsplit, List.cons_append, List.pairwise_append,
      List.pairwise_cons] at hsorted
    rw [List.flatMap_cons, hsplit, List.cons_append, List.mem_cons] at hrest
    rcases hrest with heq' | hrest
    . rw [heq'] at hbehind
      exact UInt16.lt_irrefl _ hbehind
    . exact UInt16.lt_asymm hbehind (hsorted.right.left.left seq hrest)

end Far

theorem parse_blocks {pkt pkt' : RtcpFbNack} (h : pkt.Serialises) (hparse : parse pkt.data = some pkt')
    : pkt'.nackBlocks = pkt.nackBlocks := by
  obtain ⟨header, hlen, hdata⟩ := h
  have hdrop : pkt.data.drop headerSize = pkt.nackBlocks.flatMap RtcpNackBlock.bytes := by
    rw [hdata, List.drop_left' hlen]
  unfold parse at hparse
  rw [hdrop, parseBlocks_flatMap] at hparse
  split at hparse
  . cases hparse
  . split at hparse
    . cases hparse
      rfl
    . cases hparse

/--
A list comes back if and only if it is mirrored within one block.
-/
theorem seqRoundTrips_iff (undefinedShift : Int → UInt16) (senderSsrc mediaSsrc : UInt32)
    {seqVec : List UInt16} (hne : seqVec ≠ []) (hsorted : seqVec.Pairwise (· < ·))
    : RoundTrips undefinedShift senderSsrc mediaSsrc seqVec ↔ Mirrored seqVec := by
  obtain ⟨first, tail, rfl⟩ := List.exists_cons_of_ne_nil hne
  have hcreate := create_serialises senderSsrc mediaSsrc
  constructor
  . rintro ⟨pkt, pkt', hinsert, hparse, hlost⟩
    have hserialises := insertSeqs_serialises _ _ _ _ hcreate hinsert
    have hlost' : pkt.getLostSeqs = first :: tail := by
      rw [← hlost, getLostSeqs, getLostSeqs, parse_blocks hserialises hparse]
    have hnear : ∀ seq ∈ tail, seq.toNat ≤ first.toNat + 16 := by
      intro seq hseq
      by_contra hfar
      exact getLostSeqs_far hsorted ⟨seq, hseq, by omega⟩ rfl hinsert hlost'
    refine ⟨first, tail, rfl, hnear, ?_⟩
    rw [← lostSeqs_near_iff hnear hsorted undefinedShift]
    rw [insertSeqList, insertSeqs_near hnear undefinedShift _ _ [] rfl] at hinsert
    obtain ⟨_, _, hblocks, _⟩ := insertBlock_some hinsert
    rw [getLostSeqs, hblocks] at hlost'
    simpa [create] using hlost'
  . rintro ⟨_, _, heq, hnear, hmirror⟩
    cases heq
    have hblock : (create senderSsrc mediaSsrc).insertSeqList undefinedShift (first :: tail)
        = (create senderSsrc mediaSsrc).insertBlock undefinedShift (first :: tail) :=
      insertSeqs_near hnear undefinedShift _ _ [] rfl
    have hsome : ∃ pkt, (create senderSsrc mediaSsrc).insertBlock undefinedShift (first :: tail) = some pkt
        ∧ pkt.data.length ≤ dataSize := by
      unfold insertBlock
      refine ⟨_, if_pos ?_, ?_⟩
      . simp [create, RtcpNackBlock.bytes, length_write2Bytes, length_write4Bytes, dataSize]
      . simp [create, RtcpNackBlock.bytes, length_write2Bytes, length_write4Bytes, dataSize]
    obtain ⟨pkt, hinsert, hfits⟩ := hsome
    obtain ⟨_, _, hblocks, _⟩ := insertBlock_some hinsert
    have hparse := parse_serialises (insertBlock_serialises hcreate hinsert) (by rw [hblocks]; simp) hfits
    refine ⟨pkt, _, hblock.trans hinsert, hparse, ?_⟩
    have hlost := (lostSeqs_near_iff hnear hsorted undefinedShift).mpr hmirror
    rw [getLostSeqs, hblocks]
    simpa [create] using hlost

theorem seqRoundTrips_sample : RoundTrips (fun _ => 0) 1 2 [65500, 65501, 65516] := by
  apply (seqRoundTrips_iff (fun _ => 0) 1 2 (List.cons_ne_nil _ _) (by simp)).mpr
  refine ⟨_, _, rfl, by simp, ?_⟩
  intro d hpos hle
  change 65500 + d ∈ [65501, 65516] ↔ 65500 + (17 - d) ∈ [65501, 65516]
  simp only [List.mem_cons, List.not_mem_nil, or_false]
  omega

/--
The number next to the first one sets the highest bit, and is read as the one 16 behind.
-/
theorem not_seqRoundTrips : ¬RoundTrips (fun _ => 0) 1 2 [1, 2] := by
  rintro ⟨pkt, pkt', hinsert, hparse, hlost⟩
  have hpkt : (create 1 2).insertSeqList (fun _ => 0) [1, 2] = some
      { data := [0x81, 205, 0, 3, 0, 0, 0, 1, 0, 0, 0, 2, 0, 1, 0x80, 0], nackBlocks := [⟨1, 0x8000⟩] } := by
    decide
  cases hinsert.symm.trans hpkt
  have hpkt' : parse [0x81, 205, 0, 3, 0, 0, 0, 1, 0, 0, 0, 2, 0, 1, 0x80, 0] = some
      { data := [0x81, 205, 0, 3, 0, 0, 0, 1, 0, 0, 0, 2, 0, 1, 0x80, 0], nackBlocks := [⟨1, 0x8000⟩] } := by
    decide
  cases hparse.symm.trans hpkt'
  rw [getLostSeqs, List.flatMap_singleton, lostSeqs_eq] at hlost
  revert hlost
  decide

end RoundTrip

end RtcpFbNack
