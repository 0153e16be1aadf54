import CppStreamer.Net.WebRtc.HandleRtcp

/-!
This module contains when the walk over a datagram stays within it and ends: the condition follows the
lengths in the bytes from one packet to the next.
-/

open ByteStream

namespace Rtcp

section Results

variable {ε α β : Type}

theorem bind_eq_ok {x : Except ε α} {f : α → Except ε β} {r : β}
    : x >>= f = .ok r ↔ ∃ a, x = .ok a ∧ f a = .ok r := by
  cases x with
  | error e =>
    constructor
    . intro h
      cases h
    . intro ⟨_, h, _⟩
      cases h
  | ok a =>
    constructor
    . intro h
      exact ⟨a, rfl, h⟩
    . intro ⟨_, h, hf⟩
      cases h
      exact hf

theorem mapM_eq_ok {f : α → Except ε β} (as : List α)
    : (∃ bs, as.mapM f = .ok bs) ↔ ∀ a ∈ as, ∃ b, f a = .ok b := by
  induction as with
  | nil =>
    constructor
    . intro _ a ha
      cases ha
    . intro _
      exact ⟨[], rfl⟩
  | cons a as ih =>
    simp only [List.mapM_cons, bind_eq_ok, List.forall_mem_cons, ← ih]
    constructor
    . intro ⟨_, b, hb, bs, hbs, _⟩
      exact ⟨⟨b, hb⟩, bs, hbs⟩
    . intro ⟨⟨b, hb⟩, bs, hbs⟩
      exact ⟨b :: bs, b, hb, bs, hbs, rfl⟩

end Results

section Reads

variable (buf : List UInt8)

def Inside (pos : Int) (len : Nat) : Prop := 0 ≤ pos ∧ pos + len ≤ buf.length

instance (pos : Int) (len : Nat) : Decidable (Inside buf pos len) := by
  unfold Inside
  infer_instance

def bytesAt (pos : Int) (len : Nat) : List UInt8 := (buf.drop pos.toNat).take len

theorem readAt_eq_ok {pos : Int} {len : Nat} {bytes : List UInt8}
    : readAt buf pos len = .ok bytes ↔ Inside buf pos len ∧ bytes = bytesAt buf pos len := by
  unfold readAt Inside bytesAt
  split
  . next h => simp [h, eq_comm]
  . next h => simp [h]

theorem length_bytesAt {pos : Int} {len : Nat} (h : Inside buf pos len)
    : (bytesAt buf pos len).length = len := by
  unfold Inside at h
  unfold bytesAt
  rw [List.length_take, List.length_drop]
  omega

def headerAt (pos : Int) : RtcpCommonHeader :=
  let bytes := bytesAt buf (pos + 1) 3
  ⟨(bytes.headD 0).toNat, read2Bytes (bytes.drop 1)⟩

def totalAt (pos : Int) : Nat := commonHeaderSize + getRtcpLength (headerAt buf pos)

theorem readHeader_eq_ok {pos : Int} {header : RtcpCommonHeader}
    : readHeader buf pos = .ok header ↔ Inside buf (pos + 1) 3 ∧ header = headerAt buf pos := by
  unfold readHeader
  simp only [bind_eq_ok, readAt_eq_ok]
  constructor
  . intro ⟨_, ⟨hinside, rfl⟩, h⟩
    cases h
    exact ⟨hinside, rfl⟩
  . intro ⟨hinside, h⟩
    exact ⟨_, ⟨hinside, rfl⟩, h ▸ rfl⟩

theorem totalAt_mod (pos : Int) : totalAt buf pos % 4 = 0 := by
  unfold totalAt getRtcpLength commonHeaderSize
  omega

end Reads

section Fits

variable (streams : RtcpStreams) (buf : List UInt8)

/--
A sender report is copied if it has the one length that is expected.
-/
def SrFits (pos : Int) (len : Nat) : Prop := len = srSize → Inside buf pos len

/--
A receiver report is copied if it has room for a block. A block for a stream must be whole.
-/
def RrFits (pos : Int) (len : Nat) : Prop :=
  commonHeaderSize + rrBlockSize < len →
    len ≤ packetMaxSize ∧ Inside buf pos len
      ∧ ∀ block ∈ rrBlocks (bytesAt buf pos len), block.length < rrBlockSize →
          matching streams.videoSend streams.audioSend (read4Bytes block) = []

/--
A NACK is copied, and must be long enough for a block.
-/
def RtpFbFits (pos : Int) (len : Nat) : Prop :=
  commonHeaderSize < len →
    Inside buf pos 1 ∧ (((bytesAt buf pos 1).headD 0).toNat % 2 ^ 5 = fbRtpNack →
      RtcpFbNack.headerSize < len ∧ len ≤ packetMaxSize ∧ Inside buf pos len)

/--
The data of a block are inside, as far as its type and the streams make the code look at them.
-/
def XrBlockFits (hdr : Int) : Prop :=
  let bt := ((bytesAt buf hdr 1).headD 0).toNat
  if bt = xrDlrr then
    Inside buf (hdr + 4) 4
      ∧ (matching streams.videoRecv streams.audioRecv (read4Bytes (bytesAt buf (hdr + 4) 4)) ≠ [] →
          Inside buf (hdr + 4) 12)
  else if bt = xrRrt then Inside buf (hdr + 4) 8
  else True

def xrOffset (hdr : Int) : Nat := 4 + read2Bytes (bytesAt buf (hdr + 2) 2) * 4

/--
Each block that the loop finds is inside.
-/
inductive XrFits : Int → Int → Int → Prop
  | done {data hdr xrLen : Int} : xrLen ≤ 0 → XrFits data hdr xrLen
  | block {data hdr xrLen : Int} : 0 < xrLen → Inside buf hdr 4 → XrBlockFits streams buf hdr →
      XrFits (data + xrOffset buf hdr) (data + xrOffset buf hdr) (xrLen - xrOffset buf hdr) →
      XrFits data hdr xrLen

/--
What the handler of a packet reads is inside.
-/
def HandlerFits (packetType : Nat) (pos : Int) (len : Nat) : Prop :=
  if packetType = rtcpSr then SrFits buf pos len
  else if packetType = rtcpRr then RrFits streams buf pos len
  else if packetType = rtcpRtpFb then RtpFbFits buf pos len
  else if packetType = rtcpPsFb then True
  else if packetType = rtcpXr then XrFits streams buf pos (pos + 8) (len - 8)
  else True

/--
How far the walk goes on. A sender report of another length takes it back by one.
-/
def stride (packetType : Nat) (pos : Int) (len : Nat) : Int :=
  if packetType = rtcpSr then if len = srSize then len else -1
  else if packetType ∈ [rtcpRr, rtcpRtpFb, rtcpPsFb, rtcpXr] then len
  else buf.length - pos

/--
The walk from a position on ends, and each packet it comes to is inside.
-/
inductive WalkFits : Int → Prop
  | done {pos : Int} : buf.length ≤ pos → WalkFits pos
  | packet {pos : Int} : pos < buf.length → Inside buf (pos + 1) 3 →
      HandlerFits streams buf (headerAt buf pos).packetType pos (totalAt buf pos) →
      WalkFits (pos + stride buf (headerAt buf pos).packetType pos (totalAt buf pos)) →
      WalkFits pos

end Fits

section Handlers

variable (streams : RtcpStreams) (buf : List UInt8)

theorem handleRtcpSr_ok (pos : Int) (len : Nat)
    : (∃ ret events, handleRtcpSr streams buf pos len = .ok (ret, events)) ↔ SrFits buf pos len := by
  unfold handleRtcpSr SrFits
  by_cases hlen : len = srSize
  . simp only [hlen, ne_eq, not_true_eq_false, if_false, bind_eq_ok, readAt_eq_ok, true_implies]
    constructor
    . intro ⟨_, _, _, ⟨hinside, _⟩, _⟩
      exact hinside
    . intro hinside
      exact ⟨_, _, _, ⟨hinside, rfl⟩, rfl⟩
  . rw [if_pos hlen]
    simp only [hlen, false_implies, iff_true]
    exact ⟨_, _, rfl⟩

theorem handleBlock_ok (block : List UInt8)
    : (∃ events, handleBlock streams block = .ok events)
        ↔ (block.length < rrBlockSize →
            matching streams.videoSend streams.audioSend (read4Bytes block) = []) := by
  unfold handleBlock
  by_cases hcut : matching streams.videoSend streams.audioSend (read4Bytes block) ≠ []
      ∧ block.length < rrBlockSize
  . rw [if_pos hcut]
    simp only [hcut.right, true_implies, hcut.left, iff_false]
    intro ⟨_, h⟩
    cases h
  . rw [if_neg hcut]
    constructor
    . intro _ hlen
      by_contra hne
      exact hcut ⟨hne, hlen⟩
    . intro _
      exact ⟨_, rfl⟩

theorem handleRtcpRr_ok (pos : Int) {len : Nat} (hmod : len % 4 = 0)
    : (∃ ret events, handleRtcpRr streams buf pos len = .ok (ret, events))
        ↔ RrFits streams buf pos len := by
  unfold handleRtcpRr RrFits
  by_cases hshort : len ≤ commonHeaderSize + rrBlockSize
  . rw [if_pos hshort]
    simp only [Nat.not_lt.mpr hshort, false_implies, iff_true]
    exact ⟨_, _, rfl⟩
  have hlong : commonHeaderSize + rrBlockSize < len := Nat.lt_of_not_le hshort
  have hthrow : ¬len < commonHeaderSize + 4 + rrBlockSize := by
    -- a length that is a multiple of four leaves room for the whole block
    unfold commonHeaderSize rrBlockSize at *
    omega
  rw [if_neg hshort, if_neg hthrow]
  simp only [hlong, true_implies]
  by_cases hmax : packetMaxSize < len
  . rw [if_pos hmax]
    constructor
    . intro ⟨_, _, h⟩
      cases h
    . intro ⟨h, _⟩
      omega
  rw [if_neg hmax]
  simp only [bind_eq_ok, readAt_eq_ok, Nat.le_of_not_lt hmax, true_and]
  have hblocks := mapM_eq_ok (f := handleBlock streams) (rrBlocks (bytesAt buf pos len))
  simp only [handleBlock_ok] at hblocks
  rw [← hblocks]
  constructor
  . intro ⟨_, _, _, ⟨hinside, rfl⟩, events, hevents, _⟩
    exact ⟨hinside, events, hevents⟩
  . intro ⟨hinside, events, hevents⟩
    exact ⟨_, _, _, ⟨hinside, rfl⟩, events, hevents, rfl⟩

theorem parseBlocks_some (data : List UInt8) (hmod : data.length % 4 = 0)
    : ∃ blocks, RtcpFbNack.parseBlocks data = some blocks := by
  fun_induction RtcpFbNack.parseBlocks data with
  | case1 => exact ⟨[], rfl⟩
  | case2 b0 b1 b2 b3 data ih =>
    obtain ⟨blocks, hblocks⟩ := ih (by simp only [List.length_cons] at hmod; omega)
    rw [hblocks]
    exact ⟨_, rfl⟩
  | case3 data hnil hcons =>
    match data with
    | [] => exact absurd rfl hnil
    | [_] | [_, _] | [_, _, _] => simp at hmod
    | b0 :: b1 :: b2 :: b3 :: data => exact absurd rfl (hcons b0 b1 b2 b3 data)

theorem parse_some (data : List UInt8) (hmod : data.length % 4 = 0)
    (hlong : RtcpFbNack.headerSize < data.length) (hmax : data.length ≤ packetMaxSize)
    : ∃ pkt, RtcpFbNack.parse data = some pkt := by
  have hdrop : (data.drop RtcpFbNack.headerSize).length % 4 = 0 := by
    rw [List.length_drop]
    unfold RtcpFbNack.headerSize at *
    omega
  obtain ⟨blocks, hblocks⟩ := parseBlocks_some _ hdrop
  unfold RtcpFbNack.parse
  rw [if_neg (Nat.not_le.mpr hlong), if_pos (by exact hmax), hblocks]
  exact ⟨_, rfl⟩

theorem handleRtcpRtpFb_ok (pos : Int) {len : Nat} (hmod : len % 4 = 0)
    : (∃ ret events, handleRtcpRtpFb streams buf pos len = .ok (ret, events))
        ↔ RtpFbFits buf pos len := by
  unfold handleRtcpRtpFb RtpFbFits
  by_cases hshort : len ≤ commonHeaderSize
  . rw [if_pos hshort]
    simp only [Nat.not_lt.mpr hshort, false_implies, iff_true]
    exact ⟨_, _, rfl⟩
  rw [if_neg hshort]
  simp only [Nat.lt_of_not_le hshort, true_implies, bind_eq_ok, readAt_eq_ok]
  by_cases hfmt : ((bytesAt buf pos 1).headD 0).toNat % 2 ^ 5 = fbRtpNack
  . constructor
    . intro ⟨ret, events, _, ⟨hfirst, rfl⟩, h⟩
      simp only [hfmt, ne_eq, not_true_eq_false, if_false] at h
      split at h
      . cases h
      . next hlong =>
        split at h
        . cases h
        . next hmax =>
          obtain ⟨_, hdata, _⟩ := bind_eq_ok.mp h
          exact ⟨hfirst, fun _ =>
            ⟨Nat.lt_of_not_le hlong, Nat.le_of_not_lt hmax, ((readAt_eq_ok buf).mp hdata).left⟩⟩
    . intro ⟨hfirst, hnack⟩
      obtain ⟨hlong, hmax, hinside⟩ := hnack hfmt
      have hlen := length_bytesAt buf hinside
      obtain ⟨pkt, hpkt⟩ := parse_some (bytesAt buf pos len) (by rw [hlen]; exact hmod)
        (by rw [hlen]; exact hlong) (by rw [hlen]; exact hmax)
      let kinds := matching streams.videoSend streams.audioSend
        (read4Bytes ((bytesAt buf pos len).drop 8))
      refine ⟨len, kinds.map fun kind => .nack kind pkt, _, ⟨hfirst, rfl⟩, ?_⟩
      simp only [hfmt, ne_eq, not_true_eq_false, if_false]
      rw [if_neg (Nat.not_le.mpr hlong), if_neg (Nat.not_lt.mpr hmax)]
      apply bind_eq_ok.mpr
      refine ⟨_, (readAt_eq_ok buf).mpr ⟨hinside, rfl⟩, ?_⟩
      simp only [hpkt]
      rfl
  . simp only [hfmt, false_implies, and_true]
    constructor
    . intro ⟨_, _, _, ⟨hfirst, _⟩, _⟩
      exact hfirst
    . intro hfirst
      refine ⟨len, [], _, ⟨hfirst, rfl⟩, ?_⟩
      rw [if_pos hfmt]
      rfl

theorem handleXrBlock_ok (hdr : Int)
    : (∃ events, handleXrBlock streams buf ((bytesAt buf hdr 1).headD 0).toNat hdr = .ok events)
        ↔ XrBlockFits streams buf hdr := by
  unfold handleXrBlock XrBlockFits
  generalize ((bytesAt buf hdr 1).headD 0).toNat = bt
  by_cases hdlrr : bt = xrDlrr
  . simp only [hdlrr, if_true, bind_eq_ok, readAt_eq_ok]
    by_cases hnone : matching streams.videoRecv streams.audioRecv
        (read4Bytes (bytesAt buf (hdr + 4) 4)) = []
    . simp only [hnone, ne_eq, not_true_eq_false, false_implies, and_true]
      constructor
      . intro ⟨_, _, ⟨hinside, _⟩, _⟩
        exact hinside
      . intro hinside
        refine ⟨[], _, ⟨hinside, rfl⟩, ?_⟩
        rw [if_pos hnone]
        rfl
    . simp only [hnone, ne_eq, not_false_eq_true, true_implies]
      constructor
      . intro ⟨_, _, ⟨hinside, rfl⟩, h⟩
        rw [if_neg hnone] at h
        obtain ⟨_, hdata, _⟩ := bind_eq_ok.mp h
        exact ⟨hinside, ((readAt_eq_ok buf).mp hdata).left⟩
      . intro ⟨hinside, hdata⟩
        let kinds := matching streams.videoRecv streams.audioRecv
          (read4Bytes (bytesAt buf (hdr + 4) 4))
        refine ⟨kinds.map fun kind => .dlrr kind (bytesAt buf (hdr + 4) 12), _, ⟨hinside, rfl⟩, ?_⟩
        rw [if_neg hnone]
        apply bind_eq_ok.mpr
        exact ⟨_, (readAt_eq_ok buf).mpr ⟨hdata, rfl⟩, rfl⟩
  . rw [if_neg hdlrr, if_neg hdlrr]
    by_cases hrrt : bt = xrRrt
    . simp only [hrrt, if_true, bind_eq_ok, readAt_eq_ok]
      constructor
      . intro ⟨_, _, ⟨hinside, _⟩, _⟩
        exact hinside
      . intro hinside
        exact ⟨_, _, ⟨hinside, rfl⟩, rfl⟩
    . rw [if_neg hrrt, if_neg hrrt]
      simp only [iff_true]
      exact ⟨_, rfl⟩

theorem xrFits_iff {data hdr xrLen : Int} (hpos : 0 < xrLen)
    : XrFits streams buf data hdr xrLen
        ↔ Inside buf hdr 4 ∧ XrBlockFits streams buf hdr
          ∧ XrFits streams buf (data + xrOffset buf hdr) (data + xrOffset buf hdr)
            (xrLen - xrOffset buf hdr) := by
  constructor
  . intro h
    cases h with
    | done h => omega
    | block _ hinside hblock hrest => exact ⟨hinside, hblock, hrest⟩
  . intro ⟨hinside, hblock, hrest⟩
    exact .block hpos hinside hblock hrest

/--
Each block takes at least four bytes, so that the loop ends.
-/
theorem xrLoop_ok (fuel : Nat)
    : ∀ {data hdr xrLen : Int}, xrLen ≤ fuel →
        ((∃ events, xrLoop streams buf (fuel + 1) data hdr xrLen = .ok events)
          ↔ XrFits streams buf data hdr xrLen) := by
  induction fuel with
  | zero =>
    intro data hdr xrLen hle
    have hdone : xrLen ≤ 0 := by omega
    rw [xrLoop, if_neg (Int.not_lt.mpr hdone)]
    constructor
    . intro _
      exact .done hdone
    . intro _
      exact ⟨_, rfl⟩
  | succ fuel ih =>
    intro data hdr xrLen hle
    rw [xrLoop]
    by_cases hpos : 0 < xrLen
    . rw [if_pos hpos, xrFits_iff streams buf hpos, ← handleXrBlock_ok]
      have hoffset : xrLen - (xrOffset buf hdr : Nat) ≤ fuel := by
        unfold xrOffset
        omega
      have hnext := @ih (data + xrOffset buf hdr) (data + xrOffset buf hdr) _ hoffset
      rw [← hnext]
      simp only [bind_eq_ok, readAt_eq_ok]
      constructor
      . intro ⟨_, _, ⟨hbt, rfl⟩, events, hblock, _, ⟨hlen, rfl⟩, rest, hrest, _⟩
        have hinside : Inside buf hdr 4 := by
          unfold Inside at *
          omega
        exact ⟨hinside, ⟨events, hblock⟩, rest, hrest⟩
      . intro ⟨hinside, ⟨events, hblock⟩, rest, hrest⟩
        have hbt : Inside buf hdr 1 := by
          unfold Inside at *
          omega
        have hlen : Inside buf (hdr + 2) 2 := by
          unfold Inside at *
          omega
        exact ⟨events ++ rest, _, ⟨hbt, rfl⟩, events, hblock, _, ⟨hlen, rfl⟩, rest, hrest, rfl⟩
    . rw [if_neg hpos]
      constructor
      . intro _
        exact .done (Int.not_lt.mp hpos)
      . intro _
        exact ⟨_, rfl⟩

theorem handleRtcpXr_ok (pos : Int) (len : Nat)
    : (∃ ret events, handleRtcpXr streams buf pos len = .ok (ret, events))
        ↔ XrFits streams buf pos (pos + 8) (len - 8) := by
  have hle : (len : Int) - 8 ≤ len := by omega
  rw [← xrLoop_ok streams buf len hle]
  unfold handleRtcpXr
  simp only [bind_eq_ok]
  constructor
  . intro ⟨_, _, events, hevents, _⟩
    exact ⟨events, hevents⟩
  . intro ⟨events, hevents⟩
    exact ⟨_, _, events, hevents, rfl⟩

end Handlers

section Walk

variable (streams : RtcpStreams) (buf : List UInt8)

/--
How far each handler takes the walk, if it returns.
-/
theorem ret_of_handle {pos : Int} {len : Nat} {ret : Int} {events : List RtcpEvent}
    : (handleRtcpSr streams buf pos len = .ok (ret, events) →
        ret = if len = srSize then (len : Int) else -1)
      ∧ (handleRtcpRr streams buf pos len = .ok (ret, events) → ret = len)
      ∧ (handleRtcpRtpFb streams buf pos len = .ok (ret, events) → ret = len)
      ∧ (handleRtcpXr streams buf pos len = .ok (ret, events) → ret = len) := by
  refine ⟨?_, ?_, ?_, ?_⟩
  . intro h
    unfold handleRtcpSr at h
    by_cases hlen : len = srSize
    . rw [if_neg (not_not.mpr hlen)] at h
      obtain ⟨_, _, h⟩ := bind_eq_ok.mp h
      cases h
      rw [if_pos hlen, hlen]
    . rw [if_pos hlen] at h
      cases h
      rw [if_neg hlen]
  . intro h
    unfold handleRtcpRr at h
    split at h
    . cases h
      rfl
    split at h
    . cases h
    split at h
    . cases h
    obtain ⟨_, _, h⟩ := bind_eq_ok.mp h
    obtain ⟨_, _, h⟩ := bind_eq_ok.mp h
    cases h
    rfl
  . intro h
    unfold handleRtcpRtpFb at h
    split at h
    . cases h
      rfl
    obtain ⟨_, _, h⟩ := bind_eq_ok.mp h
    split at h
    . cases h
      rfl
    split at h
    . cases h
    split at h
    . cases h
    obtain ⟨_, _, h⟩ := bind_eq_ok.mp h
    split at h
    . cases h
    . cases h
      rfl
  . intro h
    obtain ⟨_, _, h⟩ := bind_eq_ok.mp h
    cases h
    rfl

theorem handled_ok {result : Except RtcpFault (Int × List RtcpEvent)} {event : RtcpEvent}
    : (∃ ret events, (do let (ret, events) ← result; pure (ret, event :: events)) = Except.ok (ret, events))
        ↔ ∃ ret events, result = .ok (ret, events) := by
  cases result with
  | error _ =>
    constructor
    . intro ⟨_, _, h⟩
      cases h
    . intro ⟨_, _, h⟩
      cases h
  | ok r => exact ⟨fun _ => ⟨_, _, rfl⟩, fun _ => ⟨_, _, rfl⟩⟩

theorem handled_ret {result : Except RtcpFault (Int × List RtcpEvent)} {event : RtcpEvent} {ret : Int}
    {events : List RtcpEvent}
    (h : (do let (ret, events) ← result; pure (ret, event :: events)) = Except.ok (ret, events))
    : ∃ events', result = .ok (ret, events') ∧ events = event :: events' := by
  obtain ⟨⟨_, _⟩, hresult, h⟩ := bind_eq_ok.mp h
  cases h
  exact ⟨_, hresult, rfl⟩

theorem dispatch_ok (packetType : Nat) (pos : Int) {len : Nat} (hmod : len % 4 = 0)
    : (∃ ret events, dispatch streams buf packetType pos len = .ok (ret, events))
        ↔ HandlerFits streams buf packetType pos len := by
  unfold dispatch HandlerFits
  simp only
  split
  . rw [handled_ok, handleRtcpSr_ok]
  split
  . rw [handled_ok, handleRtcpRr_ok streams buf pos hmod]
  split
  . rw [handled_ok, handleRtcpRtpFb_ok streams buf pos hmod]
  split
  . rw [handled_ok]
    simp only [iff_true]
    exact ⟨_, _, rfl⟩
  split
  . rw [handled_ok, handleRtcpXr_ok]
  . simp only [iff_true]
    exact ⟨_, _, rfl⟩

theorem dispatch_ret {packetType : Nat} {pos : Int} {len : Nat} {ret : Int} {events : List RtcpEvent}
    (h : dispatch streams buf packetType pos len = .ok (ret, events))
    : ret = stride buf packetType pos len := by
  unfold dispatch at h
  unfold stride
  simp only at h
  have hrets (events' : List RtcpEvent) :=
    @ret_of_handle streams buf pos len ret events'
  split at h
  . next htype =>
    obtain ⟨events', h, _⟩ := handled_ret h
    rw [if_pos htype]
    exact (hrets events').left h
  next hsr =>
  rw [if_neg hsr]
  split at h
  . next htype =>
    obtain ⟨events', h, _⟩ := handled_ret h
    rw [if_pos (by simp [htype])]
    exact (hrets events').right.left h
  next hrr =>
  split at h
  . next htype =>
    obtain ⟨events', h, _⟩ := handled_ret h
    rw [if_pos (by simp [htype])]
    exact (hrets events').right.right.left h
  next hrtpFb =>
  split at h
  . next htype =>
    cases h
    rw [if_pos (by simp [htype])]
  next hpsFb =>
  split at h
  . next htype =>
    obtain ⟨events', h, _⟩ := handled_ret h
    rw [if_pos (by simp [htype])]
    exact (hrets events').right.right.right h
  next hxr =>
  cases h
  rw [if_neg (by simp [hrr, hrtpFb, hpsFb, hxr])]

theorem walkFits_of_walk {fuel : Nat}
    : ∀ {pos : Int} {events : List RtcpEvent}, walk streams buf fuel pos = .ok events →
        WalkFits streams buf pos := by
  induction fuel with
  | zero =>
    intro pos events h
    cases h
  | succ fuel ih =>
    intro pos events h
    rw [walk] at h
    split at h
    . next hpos =>
      obtain ⟨header, hheader, h⟩ := bind_eq_ok.mp h
      obtain ⟨hinside, rfl⟩ := (readHeader_eq_ok buf).mp hheader
      obtain ⟨⟨ret, _⟩, hdispatch, h⟩ := bind_eq_ok.mp h
      obtain ⟨_, hrest, _⟩ := bind_eq_ok.mp h
      have hret := dispatch_ret streams buf hdispatch
      have hnext := ih hrest
      rw [hret] at hnext
      have hfits := (dispatch_ok streams buf _ pos (totalAt_mod buf pos)).mp ⟨_, _, hdispatch⟩
      exact .packet hpos hinside hfits hnext
    . next hdone => exact .done (Int.not_lt.mp hdone)

theorem walk_of_walkFits {pos : Int} (h : WalkFits streams buf pos)
    : ∃ fuel events, walk streams buf fuel pos = .ok events := by
  induction h with
  | done hdone =>
    refine ⟨1, [], ?_⟩
    rw [walk, if_neg (Int.not_lt.mpr hdone)]
    rfl
  | @packet pos hpos hinside hfits _ ih =>
    obtain ⟨fuel, rest, hrest⟩ := ih
    obtain ⟨ret, events, hdispatch⟩ := (dispatch_ok streams buf _ pos (totalAt_mod buf pos)).mpr hfits
    rw [← dispatch_ret streams buf hdispatch] at hrest
    refine ⟨fuel + 1, events ++ rest, ?_⟩
    rw [walk, if_pos hpos]
    apply bind_eq_ok.mpr
    refine ⟨_, (readHeader_eq_ok buf).mpr ⟨hinside, rfl⟩, ?_⟩
    apply bind_eq_ok.mpr
    refine ⟨_, hdispatch, ?_⟩
    apply bind_eq_ok.mpr
    exact ⟨_, hrest, rfl⟩

/--
A datagram is handled without a fault if and only if the walk over it fits.
-/
theorem handlesRtcp_iff
    : (∃ events, HandlesRtcp streams buf events) ↔ WalkFits streams buf 0 := by
  constructor
  . intro ⟨_, _, h⟩
    exact walkFits_of_walk streams buf h
  . intro h
    obtain ⟨fuel, events, hwalk⟩ := walk_of_walkFits streams buf h
    exact ⟨events, fuel, hwalk⟩

/--
A NACK without a block: `Parse` gives a null pointer, and its media ssrc is read.
-/
theorem not_handlesRtcp
    : let buf := [0x81, 205, 0, 2, 0, 0, 0, 1, 0, 0, 0, 2]
      isRtcp buf = true ∧ ¬∃ events, HandlesRtcp {} buf events := by
  refine ⟨by decide, ?_⟩
  rintro ⟨_, fuel, h⟩
  cases fuel with
  | zero => cases h
  | succ fuel =>
    rw [walk] at h
    cases h

end Walk

end Rtcp
