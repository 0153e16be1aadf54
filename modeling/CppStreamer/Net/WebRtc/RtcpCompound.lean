import CppStreamer.Net.WebRtc.RtcpSafety

/-!
This module contains what the walk does with well formed packets that stand one after the other: which
of them are dispatched on their own bytes, and which report blocks reach the streams.
-/

open ByteStream

namespace Rtcp

inductive RtcpPacketKind where
  | sr
  | rr
  | sdes
  | bye
  | nack
  | pli
  | xr
  deriving DecidableEq, Repr

namespace RtcpPacketKind

def packetType : RtcpPacketKind → Nat
  | sr => rtcpSr
  | rr => rtcpRr
  | sdes => rtcpSdes
  | bye => rtcpBye
  | nack => rtcpRtpFb
  | pli => rtcpPsFb
  | xr => rtcpXr

/--
Blocks of an extended report, each as long as its header says.
-/
inductive XrBlocks : List UInt8 → Prop
  | nil : XrBlocks []
  | block {data : List UInt8} : 4 ≤ data.length → 4 + read2Bytes (data.drop 2) * 4 ≤ data.length →
      XrBlocks (data.drop (4 + read2Bytes (data.drop 2) * 4)) → XrBlocks data

/--
The bytes have room for what the count in the first byte promises. An extension of the profile or
padding may follow.
-/
def BodyFits (count : Nat) (data : List UInt8) : RtcpPacketKind → Prop
  | sr => srSize + rrBlockSize * count ≤ data.length
  | rr => 8 + rrBlockSize * count ≤ data.length
  | sdes => 4 + 8 * count ≤ data.length
  | bye => 4 + 4 * count ≤ data.length
  | nack => count = fbRtpNack ∧ RtcpFbNack.headerSize < data.length
  | pli => count = 1 ∧ data.length = 12
  | xr => 8 ≤ data.length ∧ XrBlocks (data.drop 8)

end RtcpPacketKind

/--
A well formed packet of one of the kinds.
-/
structure RtcpPacket where
  kind : RtcpPacketKind
  data : List UInt8
  version : (data.getD 0 0).toNat / 2 ^ 6 = 2
  packetType : (data.getD 1 0).toNat = kind.packetType
  length : commonHeaderSize + read2Bytes (data.drop 2) * 4 = data.length
  body : kind.BodyFits ((data.getD 0 0).toNat % 2 ^ 5) data

/--
The events that tell what is dispatched, and where the report blocks go.
-/
def RtcpEvent.traced : RtcpEvent → Bool
  | .handled .. | .passed .. | .reportBlock .. => true
  | _ => false

/--
A block reaches the send streams that have its ssrc.
-/
def blockReports (streams : RtcpStreams) (block : List UInt8) : List RtcpEvent :=
  (matching streams.videoSend streams.audioSend (read4Bytes block)).map fun kind =>
    .reportBlock kind block

namespace RtcpPacket

def count (pkt : RtcpPacket) : Nat := (pkt.data.getD 0 0).toNat % 2 ^ 5

/--
The report blocks, behind the sender info if there is one.
-/
def reportBlocks (pkt : RtcpPacket) : List (List UInt8) :=
  let blocksFrom (start : Nat) : List (List UInt8) := (List.range pkt.count).map fun i =>
    (pkt.data.drop (start + rrBlockSize * i)).take rrBlockSize
  match pkt.kind with
  | .sr => blocksFrom srSize
  | .rr => blocksFrom 8
  | _ => []

/--
The handler of its type is called on exactly its own bytes, if the type has one.
-/
def dispatchEvent (pkt : RtcpPacket) (pos : Nat) : RtcpEvent :=
  match pkt.kind with
  | .sdes | .bye => .passed pkt.kind.packetType pos
  | _ => .handled pkt.kind.packetType pos pkt.data.length

end RtcpPacket

section Compound

variable (streams : RtcpStreams)

/--
Each packet once, with its report blocks.
-/
def expectedTrace : Nat → List RtcpPacket → List RtcpEvent
  | _, [] => []
  | pos, pkt :: pkts => pkt.dispatchEvent pos :: (pkt.reportBlocks.flatMap (blockReports streams)
      ++ expectedTrace (pos + pkt.data.length) pkts)

def compound (pkts : List RtcpPacket) : List UInt8 := pkts.flatMap RtcpPacket.data

def Dispatches (pkts : List RtcpPacket) : Prop :=
  ∃ events, HandlesRtcp streams (compound pkts) events
    ∧ events.filter RtcpEvent.traced = expectedTrace streams 0 pkts

/--
When a packet is handled as one, and the walk goes on behind it.
-/
def RtcpPacket.Handled (buf : List UInt8) (pos : Nat) (pkt : RtcpPacket) (behind : List RtcpPacket)
    : Prop :=
  match pkt.kind with
  -- the parser takes the length without report blocks only
  | .sr => pkt.data.length = srSize
  -- what is behind the report blocks is taken for blocks as well
  | .rr => pkt.data.length ≤ commonHeaderSize + rrBlockSize
      ∨ (pkt.data.length ≤ packetMaxSize ∧ ∀ block ∈ (rrBlocks pkt.data).drop pkt.count,
          matching streams.videoSend streams.audioSend (read4Bytes block) = [])
  -- the walk skips all that is left
  | .sdes | .bye => behind = []
  | .nack => pkt.data.length ≤ packetMaxSize
  | .pli => True
  | .xr => pkt.data.length < commonHeaderSize + 2 ^ 16
      ∧ XrFits streams buf pos (pos + 8) (pkt.data.length - 8)

def AllHandled (buf : List UInt8) : Nat → List RtcpPacket → Prop
  | _, [] => True
  | pos, pkt :: pkts => pkt.Handled streams buf pos pkts ∧ AllHandled buf (pos + pkt.data.length) pkts

end Compound

section Trace

variable (streams : RtcpStreams) (buf : List UInt8)

theorem mapM_eq_map {ε α β : Type} {f : α → Except ε β} {g : α → β}
    (hf : ∀ a b, f a = .ok b → b = g a) (as : List α)
    : ∀ {bs : List β}, as.mapM f = .ok bs → bs = as.map g := by
  induction as with
  | nil =>
    intro bs h
    cases h
    rfl
  | cons a as ih =>
    intro bs h
    rw [List.mapM_cons] at h
    obtain ⟨b, hb, h⟩ := bind_eq_ok.mp h
    obtain ⟨bs', hbs, h⟩ := bind_eq_ok.mp h
    cases h
    rw [List.map_cons, hf a b hb, ih hbs]

theorem handleBlock_reports (block : List UInt8) (events : List RtcpEvent)
    (h : handleBlock streams block = .ok events)
    : events = blockReports streams block := by
  unfold handleBlock at h
  simp only at h
  split at h
  . cases h
  . cases h
    rfl

theorem filter_blockReports (blocks : List (List UInt8))
    : (blocks.flatMap (blockReports streams)).filter RtcpEvent.traced
        = blocks.flatMap (blockReports streams) := by
  apply List.filter_eq_self.mpr
  intro event hevent
  obtain ⟨block, _, hevent⟩ := List.mem_flatMap.mp hevent
  obtain ⟨kind, _, rfl⟩ := List.mem_map.mp hevent
  rfl

theorem xrLoop_traced (fuel : Nat)
    : ∀ {data hdr xrLen : Int} {events : List RtcpEvent},
        xrLoop streams buf fuel data hdr xrLen = .ok events → events.filter RtcpEvent.traced = [] := by
  induction fuel with
  | zero =>
    intro data hdr xrLen events h
    cases h
  | succ fuel ih =>
    intro data hdr xrLen events h
    rw [xrLoop] at h
    split at h
    . obtain ⟨bt, _, h⟩ := bind_eq_ok.mp h
      obtain ⟨own, hown, h⟩ := bind_eq_ok.mp h
      obtain ⟨_, _, h⟩ := bind_eq_ok.mp h
      obtain ⟨rest, hrest, h⟩ := bind_eq_ok.mp h
      cases h
      have hblock : own.filter RtcpEvent.traced = [] := by
        unfold handleXrBlock at hown
        split at hown
        . obtain ⟨_, _, hown⟩ := bind_eq_ok.mp hown
          simp only at hown
          split at hown
          . cases hown
            rfl
          . obtain ⟨_, _, hown⟩ := bind_eq_ok.mp hown
            cases hown
            simp [RtcpEvent.traced]
        split at hown
        . obtain ⟨_, _, hown⟩ := bind_eq_ok.mp hown
          cases hown
          rfl
        . cases hown
          rfl
      rw [List.filter_append, hblock, ih hrest]
      rfl
    . cases h
      rfl

/--
What the trace of a dispatch begins with.
-/
def eventAt (packetType : Nat) (pos : Int) (len : Nat) : RtcpEvent :=
  if packetType ∈ [rtcpSr, rtcpRr, rtcpRtpFb, rtcpPsFb, rtcpXr] then .handled packetType pos len
  else .passed packetType pos

def reportsAt (packetType : Nat) (pos : Int) (len : Nat) : List RtcpEvent :=
  if packetType = rtcpRr ∧ commonHeaderSize + rrBlockSize < len then
    (rrBlocks (bytesAt buf pos len)).flatMap (blockReports streams)
  else []

theorem handleRtcpRr_traced {pos : Int} {len : Nat} {ret : Int} {events : List RtcpEvent}
    (h : handleRtcpRr streams buf pos len = .ok (ret, events))
    : events.filter RtcpEvent.traced = reportsAt streams buf rtcpRr pos len := by
  unfold handleRtcpRr at h
  unfold reportsAt
  split at h
  . next hshort =>
    cases h
    rw [if_neg (by omega)]
    rfl
  next hlong =>
  split at h
  . cases h
  split at h
  . cases h
  obtain ⟨data, hdata, h⟩ := bind_eq_ok.mp h
  obtain ⟨_, rfl⟩ := (readAt_eq_ok buf).mp hdata
  obtain ⟨reports, hreports, h⟩ := bind_eq_ok.mp h
  cases h
  rw [if_pos ⟨rfl, Nat.lt_of_not_le hlong⟩, mapM_eq_map (handleBlock_reports streams) _ hreports,
    ← List.flatMap_def, filter_blockReports]

theorem handleRtcpSr_traced {pos : Int} {len : Nat} {ret : Int} {events : List RtcpEvent}
    (h : handleRtcpSr streams buf pos len = .ok (ret, events)) : events.filter RtcpEvent.traced = [] := by
  unfold handleRtcpSr at h
  split at h
  . cases h
    rfl
  . obtain ⟨_, _, h⟩ := bind_eq_ok.mp h
    cases h
    apply List.filter_eq_nil_iff.mpr
    intro event hevent
    obtain ⟨kind, _, rfl⟩ := List.mem_map.mp hevent
    simp [RtcpEvent.traced]

theorem handleRtcpRtpFb_traced {pos : Int} {len : Nat} {ret : Int} {events : List RtcpEvent}
    (h : handleRtcpRtpFb streams buf pos len = .ok (ret, events))
    : events.filter RtcpEvent.traced = [] := by
  unfold handleRtcpRtpFb at h
  split at h
  . cases h
    rfl
  obtain ⟨_, _, h⟩ := bind_eq_ok.mp h
  split at h
  . cases h
    rfl
  split at h
  . cases h
  split at h
  . cases h
  obtain ⟨_, _, h⟩ := bind_eq_ok.mp h
  split at h
  . cases h
  . cases h
    simp [RtcpEvent.traced]

theorem handleRtcpXr_traced {pos : Int} {len : Nat} {ret : Int} {events : List RtcpEvent}
    (h : handleRtcpXr streams buf pos len = .ok (ret, events)) : events.filter RtcpEvent.traced = [] := by
  obtain ⟨_, hevents, h⟩ := bind_eq_ok.mp h
  cases h
  exact xrLoop_traced streams buf _ hevents

theorem dispatch_traced {packetType : Nat} {pos : Int} {len : Nat} {ret : Int} {events : List RtcpEvent}
    (h : dispatch streams buf packetType pos len = .ok (ret, events))
    : events.filter RtcpEvent.traced
        = eventAt packetType pos len :: reportsAt streams buf packetType pos len := by
  have hhandled (own : List RtcpEvent) (htype : packetType ∈ [rtcpSr, rtcpRr, rtcpRtpFb, rtcpPsFb, rtcpXr])
      (hown : own.filter RtcpEvent.traced = reportsAt streams buf packetType pos len)
      : (RtcpEvent.handled packetType pos len :: own).filter RtcpEvent.traced
          = eventAt packetType pos len :: reportsAt streams buf packetType pos len := by
    rw [List.filter_cons_of_pos (by rfl), hown, eventAt, if_pos htype]
  have hnone (hne : packetType ≠ rtcpRr) : reportsAt streams buf packetType pos len = [] := by
    rw [reportsAt, if_neg (fun h => hne h.left)]
  unfold dispatch at h
  simp only at h
  split at h
  . next htype =>
    obtain ⟨own, hown, rfl⟩ := handled_ret h
    apply hhandled own (by simp [htype])
    rw [hnone (by rw [htype]; decide)]
    exact handleRtcpSr_traced streams buf hown
  next hsr =>
  split at h
  . next htype =>
    obtain ⟨own, hown, rfl⟩ := handled_ret h
    apply hhandled own (by simp [htype])
    rw [htype]
    exact handleRtcpRr_traced streams buf hown
  next hrr =>
  rw [hnone hrr] at hhandled ⊢
  split at h
  . next htype =>
    obtain ⟨own, hown, rfl⟩ := handled_ret h
    exact hhandled own (by simp [htype]) (handleRtcpRtpFb_traced streams buf hown)
  next hrtpFb =>
  split at h
  . next htype =>
    cases h
    exact hhandled [] (by simp [htype]) rfl
  next hpsFb =>
  split at h
  . next htype =>
    obtain ⟨own, hown, rfl⟩ := handled_ret h
    exact hhandled own (by simp [htype]) (handleRtcpXr_traced streams buf hown)
  next hxr =>
  cases h
  rw [eventAt, if_neg (by simp [hsr, hrr, hrtpFb, hpsFb, hxr])]
  rfl

/--
The walk over one packet, then the rest.
-/
theorem walk_step (P : List RtcpEvent → Prop) {pos : Int} (hpos : pos < buf.length)
    (hinside : Inside buf (pos + 1) 3)
    : (∃ fuel events, walk streams buf fuel pos = .ok events ∧ P events)
        ↔ ∃ ret own, dispatch streams buf (headerAt buf pos).packetType pos (totalAt buf pos)
            = .ok (ret, own)
          ∧ ∃ fuel rest, walk streams buf fuel (pos + ret) = .ok rest ∧ P (own ++ rest) := by
  constructor
  . rintro ⟨fuel, events, h, hP⟩
    cases fuel with
    | zero => cases h
    | succ fuel =>
      rw [walk, if_pos hpos] at h
      obtain ⟨header, hheader, h⟩ := bind_eq_ok.mp h
      obtain ⟨_, rfl⟩ := (readHeader_eq_ok buf).mp hheader
      obtain ⟨⟨ret, own⟩, hdispatch, h⟩ := bind_eq_ok.mp h
      obtain ⟨rest, hrest, h⟩ := bind_eq_ok.mp h
      cases h
      exact ⟨ret, own, hdispatch, fuel, rest, hrest, hP⟩
  . rintro ⟨ret, own, hdispatch, fuel, rest, hrest, hP⟩
    refine ⟨fuel + 1, own ++ rest, ?_, hP⟩
    rw [walk, if_pos hpos]
    apply bind_eq_ok.mpr
    refine ⟨_, (readHeader_eq_ok buf).mpr ⟨hinside, rfl⟩, ?_⟩
    apply bind_eq_ok.mpr
    refine ⟨_, hdispatch, ?_⟩
    apply bind_eq_ok.mpr
    exact ⟨_, hrest, rfl⟩

theorem walk_done {fuel : Nat} {pos : Int} {events : List RtcpEvent} (hdone : buf.length ≤ pos)
    (h : walk streams buf fuel pos = .ok events)
    : events = [] := by
  cases fuel with
  | zero => cases h
  | succ fuel =>
    rw [walk, if_neg (Int.not_lt.mpr hdone)] at h
    cases h
    rfl

/--
What a walk dispatches first is where it begins.
-/
theorem walk_head {fuel : Nat} {pos : Int} {events : List RtcpEvent} (hpos : pos < buf.length)
    (h : walk streams buf fuel pos = .ok events)
    : ∃ packetType len trace, events.filter RtcpEvent.traced = eventAt packetType pos len :: trace := by
  cases fuel with
  | zero => cases h
  | succ fuel =>
    rw [walk, if_pos hpos] at h
    obtain ⟨_, _, h⟩ := bind_eq_ok.mp h
    obtain ⟨⟨_, _⟩, hdispatch, h⟩ := bind_eq_ok.mp h
    obtain ⟨_, _, h⟩ := bind_eq_ok.mp h
    cases h
    rw [List.filter_append, dispatch_traced streams buf hdispatch]
    exact ⟨_, _, _, rfl⟩

theorem eventAt_pos {packetType packetType' : Nat} {pos pos' : Int} {len len' : Nat}
    (h : eventAt packetType pos len = eventAt packetType' pos' len')
    : pos = pos' := by
  unfold eventAt at h
  split at h
  . split at h
    . cases h
      rfl
    . cases h
  . split at h
    . cases h
    . cases h
      rfl

theorem eventAt_ne_reportBlock {packetType : Nat} {pos : Int} {len : Nat} {kind : StreamKind}
    {block : List UInt8}
    : eventAt packetType pos len ≠ .reportBlock kind block := by
  unfold eventAt
  split
  . intro h
    cases h
  . intro h
    cases h

end Trace

section Packet

variable (streams : RtcpStreams) {buf : List UInt8} {pos : Nat} {pkt : RtcpPacket}
  {behind : List RtcpPacket}

theorem RtcpPacket.dispatchEvent_eq (pkt : RtcpPacket) (pos : Nat)
    : pkt.dispatchEvent pos = eventAt pkt.kind.packetType pos pkt.data.length := by
  unfold dispatchEvent eventAt
  cases pkt.kind with
  | sr | rr | sdes | bye | nack | pli | xr => rfl

theorem expectedTrace_head
    : ∀ pkts : List RtcpPacket, expectedTrace streams pos pkts = []
        ∨ ∃ packetType len trace, expectedTrace streams pos pkts = eventAt packetType pos len :: trace
  | [] => .inl rfl
  | pkt :: pkts => by
    rw [expectedTrace, pkt.dispatchEvent_eq]
    exact .inr ⟨_, _, _, rfl⟩

theorem blockReports_cons {blocks : List (List UInt8)} {event : RtcpEvent} {events : List RtcpEvent}
    (h : blocks.flatMap (blockReports streams) = event :: events)
    : ∃ kind block, event = .reportBlock kind block := by
  have hmem : event ∈ blocks.flatMap (blockReports streams) := by
    rw [h]
    apply List.mem_cons_self
  obtain ⟨block, _, hmem⟩ := List.mem_flatMap.mp hmem
  obtain ⟨kind, _, rfl⟩ := List.mem_map.mp hmem
  exact ⟨kind, block, rfl⟩

/--
Reports in front of what is dispatched next are not there.
-/
theorem reports_eq_nil {blocks : List (List UInt8)} {trace : List RtcpEvent} {pkts : List RtcpPacket}
    (h : blocks.flatMap (blockReports streams) ++ trace = expectedTrace streams pos pkts)
    : blocks.flatMap (blockReports streams) = [] := by
  cases hreports : blocks.flatMap (blockReports streams) with
  | nil => rfl
  | cons event events =>
    obtain ⟨kind, block, rfl⟩ := blockReports_cons streams hreports
    rw [hreports] at h
    rcases @expectedTrace_head streams pos pkts with hnil | ⟨_, _, _, hcons⟩
    . rw [hnil] at h
      cases h
    . rw [hcons] at h
      exact absurd (List.cons.inj h).left.symm eventAt_ne_reportBlock

/--
Nothing is expected to be dispatched in front of where the next packet begins.
-/
theorem eventAt_cons_ne {blocks : List (List UInt8)} {packetType len : Nat} {back : Int}
    {trace : List RtcpEvent} {pkts : List RtcpPacket} (hback : back < pos)
    : eventAt packetType back len :: trace
        ≠ blocks.flatMap (blockReports streams) ++ expectedTrace streams pos pkts := by
  intro h
  cases hreports : blocks.flatMap (blockReports streams) with
  | nil =>
    rw [hreports] at h
    rcases @expectedTrace_head streams pos pkts with hnil | ⟨_, _, _, hcons⟩
    . rw [hnil] at h
      cases h
    . rw [hcons] at h
      have hpos := eventAt_pos (List.cons.inj h).left
      omega
  | cons event events =>
    obtain ⟨kind, block, rfl⟩ := blockReports_cons streams hreports
    rw [hreports] at h
    exact eventAt_ne_reportBlock (List.cons.inj h).left

theorem RtcpPacket.length_pos (pkt : RtcpPacket) : 4 ≤ pkt.data.length := by
  have h := pkt.length
  unfold commonHeaderSize at h
  omega

theorem RtcpPacket.aligned (pkt : RtcpPacket) : pkt.data.length % 4 = 0 := by
  have h := pkt.length
  unfold commonHeaderSize at h
  omega

section At

variable (hat : buf.drop pos = pkt.data ++ compound behind)
include hat

theorem length_at : buf.length = pos + pkt.data.length + (compound behind).length := by
  have h := congrArg List.length hat
  have hpos := pkt.length_pos
  rw [List.length_drop, List.length_append] at h
  omega

theorem bytesAt_at : bytesAt buf pos pkt.data.length = pkt.data := by
  unfold bytesAt
  rw [Int.toNat_natCast, hat, List.take_left']
  rfl

theorem inside_at {len : Nat} (h : len ≤ pkt.data.length) : Inside buf pos len := by
  have hlen := length_at hat
  unfold Inside
  omega

theorem drop_at : buf.drop (pos + pkt.data.length) = compound behind := by
  rw [← List.drop_drop, hat, List.drop_left']
  rfl

theorem headerAt_at : headerAt buf pos = ⟨pkt.kind.packetType, read2Bytes (pkt.data.drop 2)⟩ := by
  have hlen := pkt.length_pos
  have hnat : ((pos : Int) + 1).toNat = pos + 1 := by omega
  have htype := pkt.packetType
  unfold headerAt bytesAt
  rw [hnat, ← List.drop_drop, hat]
  match hdata : pkt.data, hlen with
  | b0 :: b1 :: b2 :: b3 :: data, _ =>
    rw [hdata] at htype
    simp only [← htype]
    rfl

theorem head_at : (bytesAt buf pos 1).headD 0 = pkt.data.getD 0 0 := by
  have hlen := pkt.length_pos
  unfold bytesAt
  rw [Int.toNat_natCast, hat]
  match pkt.data, hlen with
  | b0 :: data, _ => rfl

theorem totalAt_at
    : totalAt buf pos = commonHeaderSize + (pkt.data.length - commonHeaderSize) % 2 ^ 16 := by
  have hlen := pkt.length
  unfold totalAt getRtcpLength
  rw [headerAt_at hat]
  simp only
  congr 2
  omega

end At

theorem eventAt_len {packetType : Nat} {pos : Int} {len len' : Nat}
    (htype : packetType ∈ [rtcpSr, rtcpRr, rtcpRtpFb, rtcpPsFb, rtcpXr])
    (h : eventAt packetType pos len = eventAt packetType pos len')
    : len = len' := by
  rw [eventAt, if_pos htype, eventAt, if_pos htype] at h
  cases h
  rfl

theorem reportBlocks_eq_nil {pkt : RtcpPacket} (hrr : pkt.kind ≠ .rr)
    (hsr : pkt.kind = .sr → pkt.data.length = srSize)
    : pkt.reportBlocks = [] := by
  have hbody := pkt.body
  unfold RtcpPacket.reportBlocks
  cases hkind : pkt.kind with
  | sr =>
    have hcount : pkt.count = 0 := by
      have hlen := hsr hkind
      rw [hkind] at hbody
      unfold RtcpPacketKind.BodyFits rrBlockSize at hbody
      unfold RtcpPacket.count
      omega
    simp [hcount]
  | rr => exact absurd hkind hrr
  | sdes | bye | nack | pli | xr => rfl

theorem take_rrBlocks {pkt : RtcpPacket} (hrr : pkt.kind = .rr)
    : (rrBlocks pkt.data).take pkt.count = pkt.reportBlocks := by
  have hbody := pkt.body
  rw [hrr] at hbody
  have hcount : pkt.count ≤ (pkt.data.length - 8 + (rrBlockSize - 1)) / rrBlockSize := by
    unfold RtcpPacketKind.BodyFits rrBlockSize at hbody
    unfold RtcpPacket.count rrBlockSize
    omega
  unfold rrBlocks RtcpPacket.reportBlocks
  rw [hrr, ← List.map_take, List.take_range, Nat.min_eq_left hcount]

theorem reportBlocks_of_short {pkt : RtcpPacket} (hrr : pkt.kind = .rr)
    (hshort : pkt.data.length ≤ commonHeaderSize + rrBlockSize)
    : pkt.reportBlocks = [] := by
  have hbody := pkt.body
  rw [hrr] at hbody
  have hcount : pkt.count = 0 := by
    unfold RtcpPacketKind.BodyFits rrBlockSize at hbody
    unfold commonHeaderSize rrBlockSize at hshort
    unfold RtcpPacket.count
    omega
  rw [← take_rrBlocks hrr, hcount, List.take_zero]

theorem flatMap_blockReports_eq_nil {blocks : List (List UInt8)}
    : blocks.flatMap (blockReports streams) = []
        ↔ ∀ block ∈ blocks, matching streams.videoSend streams.audioSend (read4Bytes block) = [] := by
  simp only [List.flatMap_eq_nil_iff, blockReports, List.map_eq_nil_iff]

theorem length_of_mem_reportBlocks {pkt : RtcpPacket} (hrr : pkt.kind = .rr) {block : List UInt8}
    (h : block ∈ pkt.reportBlocks)
    : block.length = rrBlockSize := by
  have hbody := pkt.body
  rw [hrr] at hbody
  unfold RtcpPacket.reportBlocks at h
  rw [hrr] at h
  obtain ⟨i, hi, rfl⟩ := List.mem_map.mp h
  have hlt := List.mem_range.mp hi
  rw [List.length_take, List.length_drop]
  unfold RtcpPacketKind.BodyFits rrBlockSize at hbody
  unfold RtcpPacket.count at hlt
  unfold rrBlockSize
  omega

/--
What the walk has to find where a packet begins in order to handle it as one.
-/
structure RtcpPacket.HandledAt (buf : List UInt8) (pos : Nat) (pkt : RtcpPacket) : Prop where
  fits : HandlerFits streams buf pkt.kind.packetType pos (totalAt buf pos)
  event : eventAt pkt.kind.packetType pos (totalAt buf pos) = pkt.dispatchEvent pos
  stride : stride buf pkt.kind.packetType pos (totalAt buf pos) = pkt.data.length
  reports : reportsAt streams buf pkt.kind.packetType pos (totalAt buf pos)
    = pkt.reportBlocks.flatMap (blockReports streams)

section Handled

variable (hat : buf.drop pos = pkt.data ++ compound behind)
include hat

theorem totalAt_eq (h : pkt.data.length < commonHeaderSize + 2 ^ 16)
    : totalAt buf pos = pkt.data.length := by
  have hlen := pkt.length_pos
  rw [totalAt_at hat]
  unfold commonHeaderSize at *
  omega

theorem rrFits_at (hrr : pkt.kind = .rr)
    (h : pkt.data.length ≤ packetMaxSize ∧ ∀ block ∈ (rrBlocks pkt.data).drop pkt.count,
      matching streams.videoSend streams.audioSend (read4Bytes block) = [])
    : RrFits streams buf pos pkt.data.length := by
  intro _
  refine ⟨h.left, inside_at hat (Nat.le_refl _), ?_⟩
  rw [bytesAt_at hat]
  intro block hblock hcut
  rw [← List.take_append_drop pkt.count (rrBlocks pkt.data), take_rrBlocks hrr] at hblock
  rcases List.mem_append.mp hblock with hblock | hblock
  -- a block that the count stands for is whole
  . have hwhole := length_of_mem_reportBlocks hrr hblock
    omega
  . exact h.right block hblock

theorem reportsAt_eq (hrr : pkt.kind = .rr) (hlong : commonHeaderSize + rrBlockSize < pkt.data.length)
    : reportsAt streams buf rtcpRr pos pkt.data.length
        = pkt.reportBlocks.flatMap (blockReports streams)
          ++ ((rrBlocks pkt.data).drop pkt.count).flatMap (blockReports streams) := by
  rw [reportsAt, if_pos ⟨rfl, hlong⟩, bytesAt_at hat, ← take_rrBlocks hrr, ← List.flatMap_append,
    List.take_append_drop]

theorem handledAt_of_handled (h : pkt.Handled streams buf pos behind) : pkt.HandledAt streams buf pos := by
  have hinside := inside_at hat (Nat.le_refl _)
  have hend := length_at hat
  unfold RtcpPacket.Handled at h
  cases hkind : pkt.kind with
  | sr =>
    rw [hkind] at h
    change pkt.data.length = srSize at h
    have htotal := totalAt_eq hat (by rw [h]; decide)
    constructor
    . rw [hkind, htotal]
      intro _
      exact hinside
    . rw [htotal, ← pkt.dispatchEvent_eq]
    . rw [hkind, htotal, h]
      rfl
    . rw [reportBlocks_eq_nil (by simp [hkind]) (fun _ => h), hkind]
      rfl
  | rr =>
    rw [hkind] at h
    change _ ∨ _ at h
    have htotal := totalAt_eq hat (by unfold commonHeaderSize rrBlockSize packetMaxSize at *; omega)
    constructor
    . rw [hkind, htotal]
      change RrFits streams buf pos pkt.data.length
      rcases h with hshort | hunmatched
      . intro hlong
        omega
      . exact rrFits_at streams hat hkind hunmatched
    . rw [htotal, ← pkt.dispatchEvent_eq]
    . rw [hkind]
      exact congrArg Nat.cast htotal
    . rw [hkind, htotal]
      by_cases hshort : pkt.data.length ≤ commonHeaderSize + rrBlockSize
      . rw [reportBlocks_of_short hkind hshort, reportsAt, if_neg (by omega)]
        rfl
      . have hunmatched := (h.resolve_left hshort).right
        change reportsAt streams buf rtcpRr pos pkt.data.length = _
        rw [reportsAt_eq streams hat hkind (Nat.lt_of_not_le hshort),
          (flatMap_blockReports_eq_nil streams).mpr hunmatched, List.append_nil]
  | sdes | bye =>
    rw [hkind] at h
    change behind = [] at h
    rw [h] at hend
    change buf.length = pos + pkt.data.length + 0 at hend
    constructor
    . rw [hkind]
      trivial
    . rw [pkt.dispatchEvent_eq, hkind]
      rfl
    . rw [hkind]
      change (buf.length - pos : Int) = pkt.data.length
      omega
    . rw [reportBlocks_eq_nil (by simp [hkind]) (by simp [hkind]), hkind]
      rfl
  | nack =>
    rw [hkind] at h
    change pkt.data.length ≤ packetMaxSize at h
    have htotal := totalAt_eq hat (by unfold commonHeaderSize packetMaxSize at *; omega)
    have hbody := pkt.body
    rw [hkind] at hbody
    constructor
    . rw [hkind, htotal]
      intro _
      exact ⟨inside_at hat (by have hlen := pkt.length_pos; omega), fun _ => ⟨hbody.right, h, hinside⟩⟩
    . rw [htotal, ← pkt.dispatchEvent_eq]
    . rw [hkind]
      exact congrArg Nat.cast htotal
    . rw [reportBlocks_eq_nil (by simp [hkind]) (by simp [hkind]), hkind]
      rfl
  | pli =>
    have hbody := pkt.body
    rw [hkind] at hbody
    have htotal := totalAt_eq hat (by rw [hbody.right]; decide)
    constructor
    . rw [hkind]
      trivial
    . rw [htotal, ← pkt.dispatchEvent_eq]
    . rw [hkind]
      exact congrArg Nat.cast htotal
    . rw [reportBlocks_eq_nil (by simp [hkind]) (by simp [hkind]), hkind]
      rfl
  | xr =>
    rw [hkind] at h
    have htotal := totalAt_eq hat h.left
    constructor
    . rw [hkind, htotal]
      exact h.right
    . rw [htotal, ← pkt.dispatchEvent_eq]
    . rw [hkind]
      exact congrArg Nat.cast htotal
    . rw [reportBlocks_eq_nil (by simp [hkind]) (by simp [hkind]), hkind]
      rfl

theorem handled_of_trace {ret : Int} {own rest : List RtcpEvent} {fuel : Nat}
    (hdispatch : dispatch streams buf (headerAt buf pos).packetType pos (totalAt buf pos)
      = .ok (ret, own))
    (hrest : walk streams buf fuel (pos + ret) = .ok rest)
    (htrace : (own ++ rest).filter RtcpEvent.traced
      = pkt.dispatchEvent pos :: (pkt.reportBlocks.flatMap (blockReports streams)
        ++ expectedTrace streams (pos + pkt.data.length) behind))
    : pkt.Handled streams buf pos behind ∧ ret = pkt.data.length
        ∧ rest.filter RtcpEvent.traced = expectedTrace streams (pos + pkt.data.length) behind := by
  have hlen := pkt.length_pos
  have hbody := pkt.body
  have hend := length_at hat
  rw [headerAt_at hat] at hdispatch
  simp only at hdispatch
  have hfits := (dispatch_ok streams buf _ pos (totalAt_mod buf pos)).mp ⟨_, _, hdispatch⟩
  have hret := dispatch_ret streams buf hdispatch
  rw [List.filter_append, dispatch_traced streams buf hdispatch, List.cons_append,
    pkt.dispatchEvent_eq] at htrace
  obtain ⟨hevent, htrace⟩ := List.cons.inj htrace
  -- a handler that has nothing to report
  have hquiet (hnone : pkt.reportBlocks = [])
      (hreports : reportsAt streams buf pkt.kind.packetType pos (totalAt buf pos) = [])
      : rest.filter RtcpEvent.traced = expectedTrace streams (pos + pkt.data.length) behind := by
    rw [hnone, hreports] at htrace
    exact htrace
  unfold RtcpPacket.Handled
  cases hkind : pkt.kind with
  | sr =>
    rw [hkind] at hevent hret htrace
    have htotal := eventAt_len (by decide) hevent
    rw [htotal] at hret htrace
    change ret = if pkt.data.length = srSize then (pkt.data.length : Int) else -1 at hret
    by_cases hsize : pkt.data.length = srSize
    . rw [if_pos hsize] at hret
      rw [reportBlocks_eq_nil (by simp [hkind]) (fun _ => hsize)] at htrace
      exact ⟨hsize, hret, htrace⟩
    -- the walk goes back, and comes to a packet that nothing behind this one is
    . exfalso
      rw [if_neg hsize] at hret
      obtain ⟨packetType, len, trace, hhead⟩ := walk_head streams buf (by omega) hrest
      change rest.filter RtcpEvent.traced = _ at htrace
      exact eventAt_cons_ne streams (by omega) (hhead.symm.trans htrace)
  | rr =>
    rw [hkind] at hevent hret htrace hfits
    have htotal := eventAt_len (by decide) hevent
    rw [htotal] at hret htrace hfits
    change RrFits streams buf pos pkt.data.length at hfits
    by_cases hshort : pkt.data.length ≤ commonHeaderSize + rrBlockSize
    . rw [reportBlocks_of_short hkind hshort, reportsAt, if_neg (by omega)] at htrace
      exact ⟨.inl hshort, hret, htrace⟩
    . have hlong := Nat.lt_of_not_le hshort
      change reportsAt streams buf rtcpRr pos pkt.data.length ++ _ = _ at htrace
      rw [reportsAt_eq streams hat hkind hlong, List.append_assoc] at htrace
      have hrest := List.append_cancel_left htrace
      have hnone := reports_eq_nil streams hrest
      rw [hnone] at hrest
      exact ⟨.inr ⟨(hfits hlong).left, (flatMap_blockReports_eq_nil streams).mp hnone⟩, hret, hrest⟩
  | sdes | bye =>
    rw [hkind] at hret
    change ret = buf.length - pos at hret
    have hnil := walk_done streams buf (by omega) hrest
    have hexpected := hquiet (reportBlocks_eq_nil (by simp [hkind]) (by simp [hkind])) (by rw [hkind]; rfl)
    cases behind with
    | nil =>
      change buf.length = pos + pkt.data.length + 0 at hend
      exact ⟨rfl, by omega, hexpected⟩
    | cons next behind =>
      rw [hnil, expectedTrace] at hexpected
      cases hexpected
  | nack =>
    rw [hkind] at hevent hret hfits hbody
    have htotal := eventAt_len (by decide) hevent
    rw [htotal] at hret hfits
    have hexpected := hquiet (reportBlocks_eq_nil (by simp [hkind]) (by simp [hkind])) (by rw [hkind]; rfl)
    have hheader : commonHeaderSize < pkt.data.length := by
      have hlong := hbody.right
      unfold RtcpFbNack.headerSize at hlong
      unfold commonHeaderSize
      omega
    have hfmt : ((bytesAt buf pos 1).headD 0).toNat % 2 ^ 5 = fbRtpNack := by
      rw [head_at hat]
      exact hbody.left
    exact ⟨((hfits hheader).right hfmt).right.left, hret, hexpected⟩
  | pli =>
    rw [hkind] at hevent hret
    have htotal := eventAt_len (by decide) hevent
    rw [htotal] at hret
    exact ⟨trivial, hret, hquiet (reportBlocks_eq_nil (by simp [hkind]) (by simp [hkind]))
      (by rw [hkind]; rfl)⟩
  | xr =>
    rw [hkind] at hevent hret hfits
    have htotal := eventAt_len (by decide) hevent
    have hsize : pkt.data.length < commonHeaderSize + 2 ^ 16 := by
      rw [totalAt_at hat] at htotal
      unfold commonHeaderSize at *
      omega
    rw [htotal] at hret hfits
    exact ⟨⟨hsize, hfits⟩, hret, hquiet (reportBlocks_eq_nil (by simp [hkind]) (by simp [hkind]))
      (by rw [hkind]; rfl)⟩

end Handled

end Packet

section Dispatch

variable (streams : RtcpStreams)

/--
One packet at a time, from any position on.
-/
theorem walk_expected_iff {buf : List UInt8} (pkts : List RtcpPacket)
    : ∀ pos : Nat, pos ≤ buf.length → buf.drop pos = compound pkts →
        ((∃ fuel events, walk streams buf fuel pos = .ok events
            ∧ events.filter RtcpEvent.traced = expectedTrace streams pos pkts)
          ↔ AllHandled streams buf pos pkts) := by
  induction pkts with
  | nil =>
    intro pos hle hdrop
    have hend : buf.length ≤ pos := by
      have hlen := congrArg List.length hdrop
      change (buf.drop pos).length = 0 at hlen
      rw [List.length_drop] at hlen
      omega
    simp only [AllHandled, iff_true]
    refine ⟨1, [], ?_, rfl⟩
    rw [walk, if_neg (by omega)]
    rfl
  | cons pkt pkts ih =>
    intro pos hle hdrop
    have hat : buf.drop pos = pkt.data ++ compound pkts := hdrop
    have hlen := pkt.length_pos
    have hend := length_at hat
    have hinside : Inside buf (pos + 1) 3 := by
      unfold Inside
      omega
    have hnext := ih (pos + pkt.data.length) (by omega) (drop_at hat)
    rw [walk_step streams buf _ (by omega) hinside, AllHandled, ← hnext, expectedTrace]
    constructor
    . rintro ⟨ret, own, hdispatch, fuel, rest, hrest, htrace⟩
      obtain ⟨hhandled, hret, hexpected⟩ := handled_of_trace streams hat hdispatch hrest htrace
      rw [hret] at hrest
      exact ⟨hhandled, fuel, rest, hrest, hexpected⟩
    . rintro ⟨hhandled, fuel, rest, hrest, hexpected⟩
      have hpkt := handledAt_of_handled streams hat hhandled
      obtain ⟨ret, own, hown⟩ := (dispatch_ok streams buf _ pos (totalAt_mod buf pos)).mpr hpkt.fits
      have hret := dispatch_ret streams buf hown
      have htrace := dispatch_traced streams buf hown
      rw [hpkt.stride] at hret
      rw [hpkt.event, hpkt.reports] at htrace
      refine ⟨ret, own, ?_, fuel, rest, ?_, ?_⟩
      . rw [headerAt_at hat]
        exact hown
      . rw [hret]
        exact hrest
      . rw [List.filter_append, htrace, hexpected]
        rfl

/--
The packets are dispatched as they stand, and their report blocks arrive, if and only if each is
handled as one.
-/
theorem dispatches_iff (pkts : List RtcpPacket)
    : Dispatches streams pkts ↔ AllHandled streams (compound pkts) 0 pkts := by
  have hdrop : (compound pkts).drop 0 = compound pkts := rfl
  rw [← walk_expected_iff streams pkts 0 (Nat.zero_le _) hdrop]
  constructor
  . rintro ⟨events, ⟨fuel, hwalk⟩, htrace⟩
    exact ⟨fuel, events, hwalk, htrace⟩
  . rintro ⟨fuel, events, hwalk, htrace⟩
    exact ⟨events, ⟨fuel, hwalk⟩, htrace⟩

/--
A source description in front of a receiver report, for a send stream that the report has a block for.
-/
theorem not_dispatches
    : ¬∀ (streams : RtcpStreams) (pkts : List RtcpPacket), Dispatches streams pkts := by
  intro h
  let sdes : RtcpPacket :=
    { kind := .sdes
      data := [0x81, 202, 0, 2, 0, 0, 0, 9, 0, 0, 0, 0]
      version := rfl
      packetType := rfl
      length := rfl
      body := by change 4 + 8 * 1 ≤ 12; decide }
  let rr : RtcpPacket :=
    { kind := .rr
      data := [0x81, 201, 0, 7, 0, 0, 0, 9, 0, 0, 0, 7] ++ List.replicate 20 0
      version := rfl
      packetType := rfl
      length := rfl
      body := by change 8 + 24 * 1 ≤ 32; decide }
  obtain ⟨events, ⟨fuel, hwalk⟩, htrace⟩ := h { videoSend := some 7 } [sdes, rr]
  have hdrop : (compound [sdes, rr]).drop 0 = compound [sdes, rr] := rfl
  have hhandled := (walk_expected_iff _ [sdes, rr] 0 (Nat.zero_le _) hdrop).mp
    ⟨fuel, events, hwalk, htrace⟩
  -- the walk skips what is behind the source description
  have hbehind : [rr] = [] := hhandled.left
  cases hbehind

end Dispatch

end Rtcp
