import CppStreamer.Net.WebRtc.RtcpSafety

/-!
This module contains extended reports of any blocks, and when the loop of `HandleRtcpXr` handles each block
of a report and each part of a block once.
-/

open ByteStream

namespace Rtcp

/--
A report block. Its length counts words, and does not count its header.
-/
structure XrBlock where
  bt : UInt8
  reserved : UInt8
  data : List UInt8
  words : data.length % 4 = 0
  fits : data.length / 4 < 2 ^ 16
  rrt : bt.toNat = xrRrt → data.length = 8
  dlrr : bt.toNat = xrDlrr → data.length % 12 = 0

namespace XrBlock

def header (block : XrBlock) : List UInt8 := block.bt :: block.reserved :: write2Bytes (block.data.length / 4)

def bytes (block : XrBlock) : List UInt8 := block.header ++ block.data

/--
The `XrDlrrData` of a DLRR block.
-/
def subBlocks (block : XrBlock) : List (List UInt8) :=
  (List.range (block.data.length / 12)).map fun i => (block.data.drop (12 * i)).take 12

end XrBlock

structure XrPacket where
  first : UInt8
  version : first.toNat / 2 ^ 6 = 2
  ssrc : List UInt8
  length_ssrc : ssrc.length = 4
  blocks : List XrBlock
  fits : (4 + (blocks.flatMap XrBlock.bytes).length) / 4 < 2 ^ 16

namespace XrPacket

def blockBytes (pkt : XrPacket) : List UInt8 := pkt.blocks.flatMap XrBlock.bytes

def header (pkt : XrPacket) : List UInt8 :=
  pkt.first :: UInt8.ofNat rtcpXr :: (write2Bytes ((4 + pkt.blockBytes.length) / 4) ++ pkt.ssrc)

def bytes (pkt : XrPacket) : List UInt8 := pkt.header ++ pkt.blockBytes

end XrPacket

/--
Where each block begins.
-/
def blockOffsets : Nat → List XrBlock → List Int
  | _, [] => []
  | pos, block :: blocks => pos :: blockOffsets (pos + block.bytes.length) blocks

section Handler

variable (streams : RtcpStreams) (buf : List UInt8)

/--
The loop of `HandleRtcpXr` again, with the headers that it comes to and the length that is left at its end.
-/
def xrVisits : Nat → Int → Int → Int → Except RtcpFault (List Int × Int)
  | 0, _, _, _ => throw .endless
  | fuel + 1, data, hdr, xrLen =>
    if 0 < xrLen then do
      let blockLength ← readAt buf (hdr + 2) 2
      let offset := 4 + read2Bytes blockLength * 4
      let (hdrs, left) ← xrVisits fuel (data + offset) (data + offset) (xrLen - offset)
      pure (hdr :: hdrs, left)
    else pure ([], xrLen)

/--
A part of a DLRR block goes to the receive streams that have its ssrc.
-/
def dlrrEvents (sub : List UInt8) : List RtcpEvent :=
  (matching streams.videoRecv streams.audioRecv (read4Bytes sub)).map fun kind => .dlrr kind sub

/--
What a block should come to.
-/
def XrBlock.events (block : XrBlock) : List RtcpEvent :=
  if block.bt.toNat = xrDlrr then block.subBlocks.flatMap (dlrrEvents streams)
  else if block.bt.toNat = xrRrt then [.rrt (read4Bytes block.data) (read4Bytes (block.data.drop 4))]
  else []

/--
The handler visits each block where it begins, up to the end of the packet, and passes on what is in it.
-/
def XrPacket.HandledOnce (pkt : XrPacket) : Prop :=
  handleRtcpXr streams pkt.bytes 0 pkt.bytes.length
      = .ok (pkt.bytes.length, pkt.blocks.flatMap (XrBlock.events streams))
    ∧ xrVisits pkt.bytes (pkt.bytes.length + 1) 0 8 (pkt.bytes.length - 8) = .ok (blockOffsets 8 pkt.blocks, 0)

/--
A DLRR block has a first part, and no stream has the ssrc of another one.
-/
def XrBlock.FirstOnly (block : XrBlock) : Prop :=
  block.bt.toNat = xrDlrr → ∃ sub subs, block.subBlocks = sub :: subs
    ∧ ∀ sub' ∈ subs, matching streams.videoRecv streams.audioRecv (read4Bytes sub') = []

end Handler

section Blocks

theorem XrBlock.length_bytes (block : XrBlock) : block.bytes.length = 4 + block.data.length := by
  simp only [bytes, header, List.length_append, List.length_cons, length_write2Bytes]

theorem XrPacket.length_header (pkt : XrPacket) : pkt.header.length = 8 := by
  simp only [header, List.length_append, List.length_cons, length_write2Bytes, pkt.length_ssrc]

theorem XrPacket.length_bytes (pkt : XrPacket) : pkt.bytes.length = 8 + pkt.blockBytes.length := by
  rw [bytes, List.length_append, length_header]

theorem readAt_append (front mid rest : List UInt8)
    : readAt (front ++ (mid ++ rest)) front.length mid.length = .ok mid := by
  apply (readAt_eq_ok _).mpr
  constructor
  . unfold Inside
    simp only [List.length_append]
    omega
  . unfold bytesAt
    rw [Int.toNat_natCast, List.drop_left, List.take_left]

theorem XrBlock.subBlocks_nil {block : XrBlock} (h : block.data = []) : block.subBlocks = [] := by
  unfold subBlocks
  rw [h]
  rfl

theorem XrBlock.subBlocks_cons {block : XrBlock} (h : 12 ≤ block.data.length)
    : ∃ subs, block.subBlocks = block.data.take 12 :: subs := by
  have hpos : block.data.length / 12 = block.data.length / 12 - 1 + 1 := by omega
  unfold subBlocks
  rw [hpos, List.range_succ_eq_map, List.map_cons]
  exact ⟨_, rfl⟩

theorem flatMap_dlrrEvents_eq_nil {streams : RtcpStreams} {subs : List (List UInt8)}
    : subs.flatMap (dlrrEvents streams) = []
        ↔ ∀ sub ∈ subs, matching streams.videoRecv streams.audioRecv (read4Bytes sub) = [] := by
  simp only [List.flatMap_eq_nil_iff, dlrrEvents, List.map_eq_nil_iff]

end Blocks

section Single

variable (streams : RtcpStreams) (block : XrBlock) (front : List UInt8)

theorem read4Bytes_take {data : List UInt8} {n : Nat} (hn : 4 ≤ n) (h : n ≤ data.length)
    : read4Bytes (data.take n) = read4Bytes data := by
  have hlen : 4 ≤ (data.take n).length := by
    rw [List.length_take]
    omega
  have hread := read4Bytes_append (data.take n) (data.drop n) hlen
  rw [List.take_append_drop] at hread
  exact hread.symm

/--
The data of a block behind its header.
-/
theorem readAt_data {len : Nat} (h : len ≤ block.data.length)
    : readAt (front ++ block.bytes) ((front.length : Int) + 4) len = .ok (block.data.take len) := by
  have hsplit : front ++ block.bytes
      = (front ++ block.header) ++ (block.data.take len ++ block.data.drop len) := by
    rw [List.take_append_drop, XrBlock.bytes, List.append_assoc]
  have hread := readAt_append (front ++ block.header) (block.data.take len) (block.data.drop len)
  have hfront : (front ++ block.header).length = front.length + 4 := by
    simp only [XrBlock.header, List.length_append, List.length_cons, length_write2Bytes]
  rw [← hsplit, hfront, List.length_take, Nat.min_eq_left h] at hread
  exact hread

theorem handleXrBlock_dlrr (hbt : block.bt.toNat = xrDlrr) (h : 12 ≤ block.data.length)
    : handleXrBlock streams (front ++ block.bytes) block.bt.toNat front.length
        = .ok (dlrrEvents streams (block.data.take 12)) := by
  have hfour := read4Bytes_take (Nat.le_refl 4) (Nat.le_trans (by omega) h)
  have htwelve := read4Bytes_take (n := 12) (by omega) h
  unfold handleXrBlock dlrrEvents
  rw [if_pos hbt, readAt_data block front (Nat.le_trans (by omega) h), htwelve]
  change (if matching _ _ (read4Bytes (block.data.take 4)) = [] then _ else _) = _
  rw [hfour]
  split
  . next hnone =>
    rw [hnone]
    rfl
  . rw [readAt_data block front h]
    rfl

/--
What a block comes to is what it should, if and only if all of it is in its first part.
-/
theorem handleXrBlock_iff
    : handleXrBlock streams (front ++ block.bytes) block.bt.toNat front.length = .ok (block.events streams)
        ↔ block.FirstOnly streams := by
  unfold XrBlock.FirstOnly XrBlock.events
  by_cases hdlrr : block.bt.toNat = xrDlrr
  . rw [if_pos hdlrr]
    simp only [hdlrr, true_implies]
    have hmod := block.dlrr hdlrr
    by_cases hempty : block.data = []
    . have hfails : ¬∃ events, handleXrBlock streams (front ++ block.bytes) xrDlrr front.length = .ok events := by
        intro ⟨events, h⟩
        obtain ⟨_, hread, _⟩ := bind_eq_ok.mp h
        have hinside := ((readAt_eq_ok _).mp hread).left
        unfold Inside at hinside
        rw [List.length_append, block.length_bytes, hempty, List.length_nil] at hinside
        omega
      rw [XrBlock.subBlocks_nil hempty]
      constructor
      . intro h
        exact absurd ⟨_, h⟩ hfails
      . intro ⟨_, _, h, _⟩
        cases h
    . have hpos := List.length_pos_iff.mpr hempty
      have hlong : 12 ≤ block.data.length := by omega
      obtain ⟨subs, hsubs⟩ := XrBlock.subBlocks_cons hlong
      have hfirst := handleXrBlock_dlrr streams block front hdlrr hlong
      rw [hdlrr] at hfirst
      rw [hfirst, hsubs, List.flatMap_cons]
      constructor
      . intro h
        injection h with h
        refine ⟨_, subs, rfl, ?_⟩
        exact flatMap_dlrrEvents_eq_nil.mp (List.self_eq_append_right.mp h)
      . intro ⟨_, subs', h, hnone⟩
        cases h
        rw [flatMap_dlrrEvents_eq_nil.mpr hnone, List.append_nil]
  . rw [if_neg hdlrr]
    simp only [hdlrr, false_implies, iff_true]
    unfold handleXrBlock
    rw [if_neg hdlrr]
    split
    . next hrrt =>
      have hlen := block.rrt hrrt
      rw [readAt_data block front (Nat.le_of_eq hlen.symm), List.take_of_length_le (Nat.le_of_eq hlen)]
      rfl
    . rfl

end Single

section Packet

variable (streams : RtcpStreams) (pkt : XrPacket)

/--
The length in the header of a block takes the loop to its end.
-/
theorem readAt_blockLength (front rest : List UInt8) (block : XrBlock)
    : readAt (front ++ (block.bytes ++ rest)) (front.length + 2) 2 = .ok (write2Bytes (block.data.length / 4))
        ∧ 4 + read2Bytes (write2Bytes (block.data.length / 4)) * 4 = block.bytes.length := by
  have hread := readAt_append (front ++ [block.bt, block.reserved]) (write2Bytes (block.data.length / 4))
    (block.data ++ rest)
  have hfront : (front ++ [block.bt, block.reserved]).length = front.length + 2 := by
    rw [List.length_append]
    rfl
  rw [hfront, length_write2Bytes, List.append_assoc] at hread
  constructor
  . rw [XrBlock.bytes, XrBlock.header, List.append_assoc]
    exact hread
  . have hwords := block.words
    rw [read2Bytes_write2Bytes_of_lt block.fits, block.length_bytes]
    omega

theorem readAt_bt (front rest : List UInt8) (block : XrBlock)
    : readAt (front ++ (block.bytes ++ rest)) front.length 1 = .ok [block.bt] := by
  have hread := readAt_append front [block.bt] (block.reserved :: write2Bytes (block.data.length / 4)
    ++ (block.data ++ rest))
  rw [XrBlock.bytes, XrBlock.header, List.append_assoc]
  exact hread

/--
What the loop visits first, and where it goes on.
-/
theorem xrVisits_block {fuel : Nat} {front rest : List UInt8} {block : XrBlock} {data xrLen : Int}
    (hpos : 0 < xrLen)
    : xrVisits (front ++ (block.bytes ++ rest)) (fuel + 1) data front.length xrLen
        = (xrVisits (front ++ (block.bytes ++ rest)) fuel (data + block.bytes.length)
            (data + block.bytes.length) (xrLen - block.bytes.length)).map
          fun (hdrs, left) => ((front.length : Int) :: hdrs, left) := by
  obtain ⟨hread, hlen⟩ := readAt_blockLength front rest block
  rw [xrVisits, if_pos hpos, hread]
  simp only [← hlen]
  rfl

/--
What the loop does with the block.
-/
theorem xrLoop_block {fuel : Nat} {front rest : List UInt8} {block : XrBlock} {data xrLen : Int}
    (hpos : 0 < xrLen)
    : xrLoop streams (front ++ (block.bytes ++ rest)) (fuel + 1) data front.length xrLen
        = (do
          let events ← handleXrBlock streams (front ++ (block.bytes ++ rest)) block.bt.toNat front.length
          let rest ← xrLoop streams (front ++ (block.bytes ++ rest)) fuel (data + block.bytes.length)
            (data + block.bytes.length) (xrLen - block.bytes.length)
          pure (events ++ rest)) := by
  obtain ⟨hread, hlen⟩ := readAt_blockLength front rest block
  rw [xrLoop, if_pos hpos, readAt_bt, hread]
  simp only [← hlen]
  rfl

theorem xrVisits_done {buf : List UInt8} {fuel : Nat} {data hdr : Int}
    : xrVisits buf (fuel + 1) data hdr 0 = .ok ([], 0) := by
  rw [xrVisits, if_neg (Int.lt_irrefl 0)]
  rfl

theorem xrLoop_done {buf : List UInt8} {fuel : Nat} {data hdr : Int}
    : xrLoop streams buf (fuel + 1) data hdr 0 = .ok [] := by
  rw [xrLoop, if_neg (Int.lt_irrefl 0)]
  rfl

section Single

variable {streams pkt} {block : XrBlock} (hblocks : pkt.blocks = [block])
include hblocks

theorem bytes_single : pkt.bytes = pkt.header ++ block.bytes := by
  rw [XrPacket.bytes, XrPacket.blockBytes, hblocks, List.flatMap_singleton]

theorem xrLeft_single : (pkt.bytes.length : Int) - 8 - block.bytes.length = 0 := by
  have hlength := congrArg List.length (bytes_single hblocks)
  rw [List.length_append, pkt.length_header] at hlength
  omega

theorem handleRtcpXr_single
    : handleRtcpXr streams pkt.bytes 0 pkt.bytes.length
        = (handleXrBlock streams pkt.bytes block.bt.toNat (8 : Nat)).map fun events =>
            ((pkt.bytes.length : Int), events) := by
  have hleft := xrLeft_single hblocks
  have hlen := block.length_bytes
  have hloop := @xrLoop_block streams pkt.bytes.length pkt.header [] block 0 (pkt.bytes.length - 8) (by omega)
  rw [List.append_nil, ← bytes_single hblocks, pkt.length_header, hleft] at hloop
  have hfuel : pkt.bytes.length = pkt.bytes.length - 1 + 1 := by omega
  unfold handleRtcpXr
  change xrLoop streams pkt.bytes (pkt.bytes.length + 1) 0 ((8 : Nat) : Int) _ >>= _ = _
  rw [hloop, hfuel, xrLoop_done, ← hfuel]
  cases handleXrBlock streams pkt.bytes block.bt.toNat ((8 : Nat) : Int) with
  | error => rfl
  | ok events =>
    change Except.ok (_, events ++ []) = _
    rw [List.append_nil]
    rfl

theorem xrVisits_single
    : xrVisits pkt.bytes (pkt.bytes.length + 1) 0 8 (pkt.bytes.length - 8) = .ok ([8], 0) := by
  have hleft := xrLeft_single hblocks
  have hlen := block.length_bytes
  have hvisits := @xrVisits_block pkt.bytes.length pkt.header [] block 0 (pkt.bytes.length - 8) (by omega)
  rw [List.append_nil, ← bytes_single hblocks, pkt.length_header, hleft] at hvisits
  have hfuel : pkt.bytes.length = pkt.bytes.length - 1 + 1 := by omega
  change xrVisits pkt.bytes (pkt.bytes.length + 1) 0 ((8 : Nat) : Int) _ = _
  rw [hvisits, hfuel, xrVisits_done]
  rfl

theorem handledOnce_single : pkt.HandledOnce streams ↔ block.FirstOnly streams := by
  have hiff := handleXrBlock_iff streams block pkt.header
  rw [← bytes_single hblocks, pkt.length_header] at hiff
  unfold XrPacket.HandledOnce
  rw [handleRtcpXr_single hblocks, xrVisits_single hblocks, hblocks, List.flatMap_singleton, ← hiff]
  have hoffsets : blockOffsets 8 [block] = [8] := rfl
  simp only [hoffsets, and_true]
  cases handleXrBlock streams pkt.bytes block.bt.toNat ((8 : Nat) : Int) with
  | error =>
    constructor
    . intro h
      cases h
    . intro h
      cases h
  | ok events =>
    change Except.ok (_, events) = _ ↔ _
    simp only [Except.ok.injEq, Prod.mk.injEq, true_and]

end Single

/--
The second header is looked for eight bytes in front of where it is.
-/
theorem not_handledOnce_of_two {block next : XrBlock} {blocks : List XrBlock}
    (hblocks : pkt.blocks = block :: next :: blocks)
    : ¬pkt.HandledOnce streams := by
  intro ⟨_, hvisited⟩
  have hbytes : pkt.bytes = pkt.header ++ (block.bytes ++ (next.bytes ++ blocks.flatMap XrBlock.bytes)) := by
    rw [XrPacket.bytes, XrPacket.blockBytes, hblocks, List.flatMap_cons, List.flatMap_cons]
  have hlength := congrArg List.length hbytes
  rw [List.length_append, List.length_append, List.length_append, pkt.length_header] at hlength
  have hlen := next.length_bytes
  have hvisits := @xrVisits_block pkt.bytes.length pkt.header (next.bytes ++ blocks.flatMap XrBlock.bytes)
    block 0 (pkt.bytes.length - 8) (by omega)
  rw [← hbytes, pkt.length_header] at hvisits
  change xrVisits pkt.bytes (pkt.bytes.length + 1) 0 ((8 : Nat) : Int) _ = _ at hvisited
  have hfuel : pkt.bytes.length = pkt.bytes.length - 1 + 1 := by omega
  rw [hvisits, hblocks, hfuel, xrVisits, ← hfuel, if_pos (by omega)] at hvisited
  cases hread : readAt pkt.bytes ((0 : Int) + block.bytes.length + 2) 2 with
  | error =>
    rw [hread] at hvisited
    cases hvisited
  | ok blockLength =>
    rw [hread] at hvisited
    change Except.map _ (xrVisits _ _ _ _ _ >>= _) = _ at hvisited
    revert hvisited
    generalize xrVisits _ _ _ _ _ = visits
    intro hvisited
    cases visits with
    | error => cases hvisited
    | ok visits =>
      injection hvisited with hvisited
      have hsecond := (List.cons.inj (List.cons.inj (Prod.mk.inj hvisited).left).right).left
      omega

/--
Each block of a report is handled once if and only if there is one at most, with all of it in its first part.
-/
theorem handledOnce_iff
    : pkt.HandledOnce streams ↔ pkt.blocks.length ≤ 1 ∧ ∀ block ∈ pkt.blocks, block.FirstOnly streams := by
  match hblocks : pkt.blocks with
  | [] =>
    have hlength : pkt.bytes.length = 8 := by
      rw [pkt.length_bytes, XrPacket.blockBytes, hblocks]
      rfl
    have hnone : ∀ block ∈ ([] : List XrBlock), block.FirstOnly streams := by
      intro block hblock
      cases hblock
    apply iff_of_true
    . unfold XrPacket.HandledOnce handleRtcpXr
      rw [hlength, hblocks]
      exact ⟨rfl, rfl⟩
    . exact ⟨Nat.zero_le 1, hnone⟩
  | [block] =>
    rw [handledOnce_single hblocks, List.forall_mem_singleton]
    exact (and_iff_right (Nat.le_refl 1)).symm
  | block :: next :: blocks =>
    apply iff_of_false
    . exact not_handledOnce_of_two streams pkt hblocks
    . intro ⟨hone, _⟩
      simp at hone

/--
Two parts of a DLRR block, the second one for the video stream.
-/
theorem not_handledOnce : ¬∀ (streams : RtcpStreams) (pkt : XrPacket), pkt.HandledOnce streams := by
  intro h
  let block : XrBlock :=
    { bt := 5
      reserved := 0
      data := [0, 0, 0, 1, 0, 0, 0, 0, 0, 0, 0, 0] ++ [0, 0, 0, 7, 0, 0, 0, 0, 0, 0, 0, 0]
      words := rfl
      fits := by decide
      rrt := by intro hbt; cases hbt
      dlrr := by intro _; rfl }
  let pkt : XrPacket :=
    { first := 0x80
      version := rfl
      ssrc := [0, 0, 0, 9]
      length_ssrc := rfl
      blocks := [block]
      fits := by decide }
  have hfirst := ((handledOnce_iff { videoRecv := some 7 } pkt).mp (h _ _)).right block (List.mem_singleton_self _)
  obtain ⟨sub, subs, hsubs, hnone⟩ := hfirst rfl
  have hparts : block.subBlocks = [block.data.take 12, block.data.drop 12] := by
    have hcount : block.data.length / 12 = 2 := by
      simp [block]
    unfold XrBlock.subBlocks
    rw [hcount]
    rfl
  rw [hparts] at hsubs
  obtain ⟨_, rfl⟩ := List.cons.inj hsubs
  have hsecond := hnone _ (List.mem_singleton_self _)
  cases hsecond

end Packet

end Rtcp
