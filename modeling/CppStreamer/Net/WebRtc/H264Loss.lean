import CppStreamer.Net.WebRtc.H264RoundTrip

/-!
This module contains what `PackHandleH264` puts together if packets are lost, or time out.
-/

open ByteStream RtpH264Pack

/--
NALUs that share packets, and the way they are put into these.
-/
inductive H264Unit where
  | single (nalu : List UInt8) (type_ge : 1 ≤ H264.nalType (nalu.getD 0 0))
      (type_le : H264.nalType (nalu.getD 0 0) ≤ 23)
  | stapA (nalus : List (List UInt8)) (ne_nil : nalus ≠ []) (nalu_ne_nil : ∀ nalu ∈ nalus, nalu ≠ [])
      (length_lt : ∀ nalu ∈ nalus, nalu.length < 2 ^ 16)
  | fuA (header : UInt8) (body : List UInt8) (body_ne_nil : body ≠ [])

namespace H264Unit

def nalus : H264Unit → List (List UInt8)
  | single nalu _ _ => [nalu]
  | stapA nalus _ _ _ => nalus
  | fuA header body _ => [header :: body]

def packets : H264Unit → List RtpPacket
  | single nalu _ _ => [generateSinglePackets nalu]
  | stapA nalus _ _ _ => [generateStapAPackets nalus]
  | fuA header body _ => generateFuAPackets (header :: body)

/--
The only fragment is both the first and the last.
-/
def isOneFragment : H264Unit → Bool
  | fuA _ body _ => body.length ≤ kPayloadMaxSize
  | _ => false

end H264Unit

/--
A unit that is sent, and which of its packets are delivered.
-/
structure H264Sent where
  unit : H264Unit
  timestamp : UInt32
  delivered : List Bool
  length_delivered : delivered.length = unit.packets.length

namespace H264Sent

open PackHandleH264

def contents (u : H264Sent) : List (List UInt8 × UInt32) :=
  u.unit.packets.map fun pkt => (pkt.payload, u.timestamp)

def mediaPackets (u : H264Sent) : List MediaPacket :=
  u.unit.nalus.map fun nalu => h264Packet nalu u.timestamp.toNat

def isComplete (u : H264Sent) : Bool := u.delivered.all id

end H264Sent

/--
The packet behind these ones would reveal a gap.
-/
def revealsGap (before : List Bool) : Bool := before.any id && before.getLast? ≠ some true

namespace H264Sent

/--
What arrives of a unit without a timeout.
-/
def arriving (before : List Bool) (u : H264Sent) : List MediaPacket :=
  if u.isComplete = true ∧ revealsGap before = false ∧ u.unit.isOneFragment = false then u.mediaPackets
  else []

def arrivingAll (before : List Bool) : List H264Sent → List MediaPacket
  | [] => []
  | u :: us => u.arriving before ++ arrivingAll (before ++ u.delivered) us

end H264Sent

theorem revealsGap_concat_true (before : List Bool) : revealsGap (before ++ [true]) = false := by
  simp [revealsGap]

theorem revealsGap_concat_false (before : List Bool)
    : revealsGap (before ++ [false]) = before.any id := by
  simp [revealsGap]

theorem revealsGap_of_getLast {before : List Bool} (hlast : before.getLast? = some true)
    : revealsGap before = false := by
  simp [revealsGap, hlast]

namespace PackHandleH264

/--
The packets marked by `delivered` arrive in order, between calls of the timer.
-/
inductive DeliversSome : Nat → List RtpPacket → List Bool → List Call → Prop
  | nil (extendSeq : Nat) : DeliversSome extendSeq [] [] []
  | timer {extendSeq : Nat} {pkts : List RtpPacket} {delivered : List Bool} {calls : List Call}
      (now : Int) (h : DeliversSome extendSeq pkts delivered calls)
      : DeliversSome extendSeq pkts delivered (.timer now :: calls)
  | lose {extendSeq : Nat} {pkts : List RtpPacket} {delivered : List Bool} {calls : List Call}
      (pkt : RtpPacket) (h : DeliversSome (extendSeq + 1) pkts delivered calls)
      : DeliversSome extendSeq (pkt :: pkts) (false :: delivered) calls
  | input {pkt : RtpPacket} {pkts : List RtpPacket} {delivered : List Bool} {calls : List Call}
      (info : RtpPacketInfo) (now localMs : Int) (hpkt : info.pkt = pkt.clone localMs)
      (h : DeliversSome (info.extendSeq + 1) pkts delivered calls)
      : DeliversSome info.extendSeq (pkt :: pkts) (true :: delivered) (.input info now :: calls)

/--
The fragments that `CheckFuaTimeout` looks at in a call.
-/
def fuaWaiting (h : PackHandleH264) : Call → List RtpPacketInfo
  | .timer _ => h.packetsQueue
  | .input pkt _ =>
    if h.initFlag ∧ h.lastExtendSeq + 1 ≠ pkt.extendSeq then []
    else if H264.nalType (pkt.pkt.payload.getD 0 0) ≠ kFuA ∨ getEndBit pkt.pkt.payload then []
    else if getStartBit pkt.pkt.payload then [pkt]
    else h.packetsQueue ++ [pkt]

def Call.now : Call → Int
  | .timer now => now
  | .input _ now => now

/--
`CheckFuaTimeout` pops nothing.
-/
def NoTimeout (h : PackHandleH264) : List Call → Prop
  | [] => True
  | call :: calls =>
    (∀ p ∈ (h.fuaWaiting call).head?, call.now - p.pkt.localMs < packBufferTimeout)
      ∧ (h.call call).1.NoTimeout calls

theorem noTimeout_append {h : PackHandleH264} {calls calls' : List Call}
    : h.NoTimeout (calls ++ calls') ↔ h.NoTimeout calls ∧ (h.run calls).1.NoTimeout calls' := by
  induction calls generalizing h with
  | nil => simp [NoTimeout, run]
  | cons call calls ih => simp only [List.cons_append, NoTimeout, run, ih, and_assoc]

theorem checkFuaTimeout_of_head {h : PackHandleH264} {now : Int}
    (htime : ∀ p ∈ h.packetsQueue.head?, now - p.pkt.localMs < packBufferTimeout)
    : h.checkFuaTimeout now = h := by
  have hkeep : h.packetsQueue.dropWhile (fun p => ¬(now - p.pkt.localMs < packBufferTimeout))
      = h.packetsQueue := by
    cases hqueue : h.packetsQueue with
    | nil => rfl
    | cons p queue =>
      rw [List.dropWhile_cons_of_neg]
      have := htime p (by rw [hqueue]; rfl)
      simpa using this
  unfold checkFuaTimeout
  rw [hkeep]

/--
A packet that is lost or delivered leads from `P` to `Q`. If `timely` holds, then nothing is popped.
-/
def Handles (timely : Prop) (h : PackHandleH264) (extendSeq : Nat)
    (contents : List (List UInt8 × UInt32)) (delivered : List Bool)
    (Q : PackHandleH264 → List MediaPacket → Prop) : Prop :=
  ∀ pkts calls, pkts.map content = contents → DeliversSome extendSeq pkts delivered calls →
    (timely → h.NoTimeout calls) →
    Q (h.run calls).1 ((h.run calls).2.filterMap PackEvent.output?)

/--
The timer keeps `I`.
-/
def Stable (timely : Prop) (I : PackHandleH264 → Prop) : Prop :=
  ∀ h now, I h → (timely → h.checkFuaTimeout now = h) → I (h.checkFuaTimeout now)

section Handles

variable {timely : Prop} {h : PackHandleH264} {extendSeq : Nat}
  {contents contents' : List (List UInt8 × UInt32)} {delivered delivered' : List Bool}
  {I : PackHandleH264 → Prop} {Q : PackHandleH264 → List MediaPacket → Prop}

theorem handles_nil (hstable : Stable timely I) (hI : I h) (hQ : ∀ h, I h → Q h [])
    : Handles timely h extendSeq [] [] Q := by
  intro pkts calls hpkts hdelivers htime
  rw [List.map_eq_nil_iff] at hpkts
  subst hpkts
  generalize hnil : ([] : List RtpPacket) = pkts at hdelivers
  generalize hnil' : ([] : List Bool) = delivered at hdelivers
  induction hdelivers generalizing h with
  | nil => exact hQ h hI
  | timer now _ ih =>
    have hkeep := fun t => checkFuaTimeout_of_head (htime t).1
    apply ih (hstable h now hI hkeep) (fun t => (htime t).2) hnil hnil'
  | lose => cases hnil
  | input => cases hnil

theorem handles_lose {c : List UInt8 × UInt32} (hstable : Stable timely I) (hI : I h)
    (hnext : ∀ h, I h → Handles timely h (extendSeq + 1) contents delivered Q)
    : Handles timely h extendSeq (c :: contents) (false :: delivered) Q := by
  intro pkts calls hpkts hdelivers htime
  generalize hfalse : false :: delivered = all at hdelivers
  induction hdelivers generalizing h with
  | nil => cases hfalse
  | timer now _ ih =>
    have hkeep := fun t => checkFuaTimeout_of_head (htime t).1
    apply ih (hstable h now hI hkeep) hnext hpkts (fun t => (htime t).2) hfalse
  | lose pkt hrest =>
    cases hfalse
    rw [List.map_cons, List.cons.injEq] at hpkts
    exact hnext h hI _ _ hpkts.2 hrest htime
  | input => cases hfalse

theorem handles_input {payload : List UInt8} {ts : UInt32} (hstable : Stable timely I) (hI : I h)
    (hnext : ∀ h info now, I h → info.extendSeq = extendSeq → info.pkt.payload = payload →
      info.pkt.timestamp = ts →
      (timely → ∀ p ∈ (h.fuaWaiting (.input info now)).head?, now - p.pkt.localMs < packBufferTimeout) →
      Handles timely (h.inputRtpPacket info now).1 (extendSeq + 1) contents delivered
        fun h' out => Q h' ((h.inputRtpPacket info now).2.filterMap PackEvent.output? ++ out))
    : Handles timely h extendSeq ((payload, ts) :: contents) (true :: delivered) Q := by
  intro pkts calls hpkts hdelivers htime
  generalize htrue : true :: delivered = all at hdelivers
  induction hdelivers generalizing h with
  | nil => cases htrue
  | timer now _ ih =>
    have hkeep := fun t => checkFuaTimeout_of_head (htime t).1
    apply ih (hstable h now hI hkeep) hnext hpkts (fun t => (htime t).2) htrue
  | lose => cases htrue
  | @input pkt pkts _ calls info now localMs hpkt hrest ih =>
    cases htrue
    rw [List.map_cons, List.cons.injEq] at hpkts
    rcases hpkts with ⟨hcontent, hpkts⟩
    rw [content, Prod.mk.injEq] at hcontent
    have hstep := hnext h info now hI rfl (by rw [hpkt, ← hcontent.1]; rfl)
      (by rw [hpkt, ← hcontent.2]; rfl) (fun t => (htime t).1)
    have hout := hstep pkts calls hpkts hrest (fun t => (htime t).2)
    unfold run
    simpa only [call, List.filterMap_append] using hout

theorem DeliversSome.of_append {pkts pkts' : List RtpPacket} {calls : List Call}
    (hlen : pkts.length = delivered.length)
    (h : DeliversSome extendSeq (pkts ++ pkts') (delivered ++ delivered') calls)
    : ∃ calls₁ calls₂, calls = calls₁ ++ calls₂ ∧ DeliversSome extendSeq pkts delivered calls₁
      ∧ DeliversSome (extendSeq + pkts.length) pkts' delivered' calls₂ := by
  generalize hall : pkts ++ pkts' = all at h
  generalize hall' : delivered ++ delivered' = all' at h
  induction h generalizing pkts delivered with
  | nil extendSeq =>
    rw [List.append_eq_nil_iff] at hall hall'
    rw [hall.1, hall.2, hall'.1, hall'.2]
    exact ⟨[], [], rfl, .nil _, .nil _⟩
  | timer now _ ih =>
    rcases ih hlen hall hall' with ⟨calls₁, calls₂, rfl, h₁, h₂⟩
    exact ⟨.timer now :: calls₁, calls₂, rfl, .timer now h₁, h₂⟩
  | @lose extendSeq rest restDelivered calls pkt hrest ih =>
    cases pkts with
    | nil =>
      have hnil : delivered = [] := List.length_eq_zero_iff.mp hlen.symm
      rw [hnil, List.nil_append] at hall'
      rw [List.nil_append] at hall
      rw [hall, hall', hnil]
      exact ⟨[], _, rfl, .nil _, .lose pkt hrest⟩
    | cons p pkts =>
      cases delivered with
      | nil => cases hlen
      | cons d delivered =>
        rw [List.cons_append, List.cons.injEq] at hall hall'
        rcases hall with ⟨rfl, hall⟩
        rcases hall' with ⟨rfl, hall'⟩
        rcases ih (Nat.succ.inj hlen) hall hall' with ⟨calls₁, calls₂, rfl, h₁, h₂⟩
        refine ⟨calls₁, calls₂, rfl, .lose p h₁, ?_⟩
        rwa [List.length_cons, Nat.add_comm pkts.length, ← Nat.add_assoc]
  | @input pkt rest restDelivered calls info now localMs hpkt hrest ih =>
    cases pkts with
    | nil =>
      have hnil : delivered = [] := List.length_eq_zero_iff.mp hlen.symm
      rw [hnil, List.nil_append] at hall'
      rw [List.nil_append] at hall
      rw [hall, hall', hnil]
      exact ⟨[], _, rfl, .nil _, .input info now localMs hpkt hrest⟩
    | cons p pkts =>
      cases delivered with
      | nil => cases hlen
      | cons d delivered =>
        rw [List.cons_append, List.cons.injEq] at hall hall'
        rcases hall with ⟨rfl, hall⟩
        rcases hall' with ⟨rfl, hall'⟩
        rcases ih (Nat.succ.inj hlen) hall hall' with ⟨calls₁, calls₂, rfl, h₁, h₂⟩
        refine ⟨.input info now :: calls₁, calls₂, rfl, .input info now localMs hpkt h₁, ?_⟩
        rwa [List.length_cons, Nat.add_comm pkts.length, ← Nat.add_assoc]

theorem handles_append (hlen : contents.length = delivered.length)
    (hleft : Handles timely h extendSeq contents delivered fun h' out =>
      Handles timely h' (extendSeq + contents.length) contents' delivered' fun h'' out' =>
        Q h'' (out ++ out'))
    : Handles timely h extendSeq (contents ++ contents') (delivered ++ delivered') Q := by
  intro pkts calls hpkts hdelivers htime
  rcases List.map_eq_append_iff.mp hpkts with ⟨pkts₁, pkts₂, rfl, hpkts₁, hpkts₂⟩
  have hlen₁ : pkts₁.length = contents.length := by rw [← hpkts₁, List.length_map]
  rcases hdelivers.of_append (hlen₁.trans hlen) with ⟨calls₁, calls₂, rfl, hdelivers₁, hdelivers₂⟩
  simp only [noTimeout_append] at htime
  have hright := hleft pkts₁ calls₁ hpkts₁ hdelivers₁ fun t => (htime t).1
  rw [hlen₁] at hdelivers₂
  have hout := hright pkts₂ calls₂ hpkts₂ hdelivers₂ fun t => (htime t).2
  rw [run_append, List.filterMap_append]
  exact hout

end Handles

/--
The receiver behind packets of which these were delivered.
-/
structure Tracks (before : List Bool) (extendSeq : Nat) (h : PackHandleH264) : Prop where
  initFlag : h.initFlag = before.any id
  lt : h.initFlag = true → h.lastExtendSeq < extendSeq
  gap : h.initFlag = true ∧ h.lastExtendSeq + 1 ≠ extendSeq ↔ revealsGap before = true
  endFlag : h.endFlag = false

/--
The receiver between two units does not wait for a fragment, unless packets were lost.
-/
structure Between (before : List Bool) (extendSeq : Nat) (h : PackHandleH264) : Prop
    extends Tracks before extendSeq h where
  startFlag : revealsGap before = false → h.startFlag = false

section Tracks

variable {timely : Prop} {before : List Bool} {extendSeq : Nat} {h : PackHandleH264}
  {info : RtpPacketInfo} {now : Int}

theorem Tracks.lose (htracks : Tracks before extendSeq h)
    : Tracks (before ++ [false]) (extendSeq + 1) h := by
  have hlt := htracks.lt
  constructor
  . simp [htracks.initFlag]
  . intro hinit
    have := hlt hinit
    omega
  . rw [revealsGap_concat_false, ← htracks.initFlag]
    constructor
    . intro hgap
      exact hgap.1
    . intro hinit
      have := hlt hinit
      exact ⟨hinit, by omega⟩
  . exact htracks.endFlag

theorem Tracks.of_input (hinit : h.initFlag = true) (hlast : h.lastExtendSeq = extendSeq)
    (hend : h.endFlag = false) : Tracks (before ++ [true]) (extendSeq + 1) h := by
  constructor
  . simp [hinit]
  . omega
  . rw [revealsGap_concat_true, hlast]
    simp
  . exact hend

theorem Tracks.next (htracks : Tracks before extendSeq h) (hgap : revealsGap before = false)
    (hseq : info.extendSeq = extendSeq) : h.initFlag = true → h.lastExtendSeq + 1 = info.extendSeq := by
  intro hinit
  by_contra hne
  rw [hseq] at hne
  have := htracks.gap.mp ⟨hinit, hne⟩
  rw [hgap] at this
  cases this

theorem reportLost_eq (h : PackHandleH264) (info : RtpPacketInfo) (now : Int)
    : ∃ ts events, h.reportLost info now = ({ h with reportLostTs := ts }, events)
      ∧ events.filterMap PackEvent.output? = [] := by
  unfold reportLost
  split
  . exact ⟨_, _, rfl, rfl⟩
  . exact ⟨_, _, rfl, rfl⟩

/--
The packet that reveals a gap is dropped, whatever is in it.
-/
theorem Tracks.input_gap (htracks : Tracks before extendSeq h) (hgap : revealsGap before = true)
    (hseq : info.extendSeq = extendSeq) (now : Int)
    : Between (before ++ [true]) (extendSeq + 1) (h.inputRtpPacket info now).1
      ∧ (h.inputRtpPacket info now).2.filterMap PackEvent.output? = [] := by
  have hlost := htracks.gap.mpr hgap
  rw [← hseq] at hlost
  unfold inputRtpPacket
  rw [if_pos hlost]
  rcases reportLost_eq { h with packetsQueue := [], startFlag := false, endFlag := false } info now with
    ⟨ts, events, hreport, hevents⟩
  simp only [hreport]
  refine ⟨⟨Tracks.of_input hlost.1 hseq rfl, fun _ => rfl⟩, hevents⟩

theorem Tracks.stable : Stable timely (Tracks before extendSeq) := by
  intro h now htracks _
  exact ⟨htracks.initFlag, htracks.lt, htracks.gap, htracks.endFlag⟩

theorem Between.stable : Stable timely (Between before extendSeq) := by
  intro h now hbetween hkeep
  exact ⟨Tracks.stable h now hbetween.toTracks hkeep, hbetween.startFlag⟩

theorem Between.lose (hbetween : Between before extendSeq h)
    : Between (before ++ [false]) (extendSeq + 1) h := by
  refine ⟨hbetween.toTracks.lose, ?_⟩
  intro hgap
  rw [revealsGap_concat_false] at hgap
  apply hbetween.startFlag
  simp [revealsGap, hgap]

end Tracks

/--
What comes out of `expected`: all of it, if nothing times out.
-/
def Arrives (timely : Prop) (expected out : List MediaPacket) : Prop :=
  out.Sublist expected ∧ (timely → out = expected)

theorem Arrives.refl {timely : Prop} (out : List MediaPacket) : Arrives timely out out :=
  ⟨List.Sublist.refl out, fun _ => rfl⟩

theorem Arrives.append {timely : Prop} {expected expected' out out' : List MediaPacket}
    (hleft : Arrives timely expected out) (hright : Arrives timely expected' out')
    : Arrives timely (expected ++ expected') (out ++ out') := by
  refine ⟨hleft.1.append hright.1, ?_⟩
  intro t
  rw [hleft.2 t, hright.2 t]

theorem Between.handles_packet {timely : Prop} {before delivered : List Bool} {extendSeq : Nat}
    {h : PackHandleH264} {payload : List UInt8} {ts : UInt32} {out : List MediaPacket}
    (hbetween : Between before extendSeq h)
    (hinput : ∀ (h : PackHandleH264) info now, info.pkt.payload = payload → info.pkt.timestamp = ts →
      (h.inputPayload info now).1 = h
        ∧ (h.inputPayload info now).2.filterMap PackEvent.output? = out)
    (hlen : delivered.length = 1)
    : Handles timely h extendSeq [(payload, ts)] delivered fun h' out' =>
        Between (before ++ delivered) (extendSeq + delivered.length) h'
          ∧ Arrives timely (if delivered.all id = true ∧ revealsGap before = false then out else [])
              out' := by
  rcases List.length_eq_one_iff.mp hlen with ⟨d, rfl⟩
  cases d with
  | false =>
    refine handles_lose Between.stable hbetween fun h hbetween => ?_
    exact handles_nil Between.stable hbetween.lose fun h hbetween => ⟨hbetween, Arrives.refl []⟩
  | true =>
    refine handles_input Between.stable hbetween fun h info now hbetween hseq hpayload hts _ => ?_
    cases hgap : revealsGap before with
    | true =>
      rcases hbetween.input_gap hgap hseq now with ⟨hbetween', hout⟩
      rw [hout]
      exact handles_nil Between.stable hbetween' fun h hbetween => ⟨hbetween, Arrives.refl []⟩
    | false =>
      rw [inputRtpPacket_eq (hbetween.next hgap hseq)]
      rcases hinput { h with initFlag := true, lastExtendSeq := info.extendSeq } info now hpayload hts
        with ⟨hstate, hout⟩
      rw [hstate, hout]
      refine handles_nil (I := Between (before ++ [true]) (extendSeq + 1)) Between.stable
        ⟨Tracks.of_input rfl hseq hbetween.endFlag, fun _ => hbetween.startFlag hgap⟩ ?_
      intro h' hbetween'
      rw [List.append_nil]
      exact ⟨hbetween', Arrives.refl out⟩

section FuA

/--
No first fragment is in the queue.
-/
def Headless (queue : List RtpPacketInfo) : Prop := ∀ p ∈ queue, getStartBit p.pkt.payload = false

theorem demuxFuaLoop_of_not_hasStart {f : Fua} {queue : List RtpPacketInfo}
    (hstart : f.hasStart = false) (hqueue : f.first = true → Headless queue)
    : (demuxFuaLoop f queue).2 = none := by
  induction queue generalizing f with
  | nil => rfl
  | cons p queue ih =>
    have hpush : (f.push p.pkt).hasStart = false ∧ (f.push p.pkt).first = false := by
      unfold Fua.push
      cases hfirst : f.first with
      | true => simp [hqueue hfirst p (List.mem_cons_self ..), hstart]
      | false => simp [hstart]
    unfold demuxFuaLoop
    simp only [hpush.1, Bool.false_eq_true, if_false]
    split
    . rfl
    . apply ih hpush.1
      intro hfirst
      rw [hpush.2] at hfirst
      cases hfirst

/--
The receiver inside of a NALU. If all of it was delivered so far (`whole`), then the queue holds the
fragments with `data`, or what is left of them after a timeout.
-/
structure Inside (timely : Prop) (before : List Bool) (extendSeq : Nat) (whole : Bool) (ts : UInt32)
    (data : List UInt8) (h : PackHandleH264) : Prop extends Tracks before extendSeq h where
  startFlag : revealsGap before = false → h.startFlag = whole
  last : whole = true → before.getLast? = some true
  queue : whole = true → Collects h.packetsQueue ts data ∨ Headless h.packetsQueue
  tail : whole = true → Headless h.packetsQueue.tail
  timely : whole = true → timely → Collects h.packetsQueue ts data

variable {timely : Prop} {before : List Bool} {extendSeq : Nat} {whole : Bool} {ts : UInt32}
  {data : List UInt8} {h : PackHandleH264} {info : RtpPacketInfo} {now : Int} {header : UInt8}
  {fragment : List UInt8}

theorem Between.inside (hbetween : Between before extendSeq h)
    : Inside timely before extendSeq false ts data h := by
  refine ⟨hbetween.toTracks, hbetween.startFlag, ?_, ?_, ?_, ?_⟩
  all_goals
    intro hwhole
    cases hwhole

theorem Inside.between (hinside : Inside timely before extendSeq false ts data h)
    : Between before extendSeq h := ⟨hinside.toTracks, hinside.startFlag⟩

theorem Inside.not_revealsGap (hinside : Inside timely before extendSeq true ts data h)
    : revealsGap before = false := revealsGap_of_getLast (hinside.last rfl)

theorem dropWhile_eq_or_suffix {α : Type} (p : α → Bool) (l : List α)
    : l.dropWhile p = l ∨ l.dropWhile p <:+ l.tail := by
  cases l with
  | nil => exact .inl rfl
  | cons a l =>
    cases ha : p a with
    | true =>
      rw [List.dropWhile_cons_of_pos ha]
      exact .inr (List.dropWhile_suffix p)
    | false =>
      rw [List.dropWhile_cons_of_neg (by simp [ha])]
      exact .inl rfl

/--
What a timeout leaves of a NALU has no first fragment any more.
-/
theorem Inside.stable : Stable timely (Inside timely before extendSeq whole ts data) := by
  intro h now hinside hkeep
  have hqueue : (h.checkFuaTimeout now).packetsQueue = h.packetsQueue
      ∨ (h.checkFuaTimeout now).packetsQueue <:+ h.packetsQueue.tail := dropWhile_eq_or_suffix _ _
  refine ⟨Tracks.stable h now hinside.toTracks hkeep, hinside.startFlag, hinside.last, ?_, ?_, ?_⟩
  . intro hwhole
    rcases hqueue with hsame | hsuffix
    . rw [hsame]
      exact hinside.queue hwhole
    . right
      intro p hp
      exact hinside.tail hwhole p (hsuffix.subset hp)
  . intro hwhole p hp
    apply hinside.tail hwhole
    rcases hqueue with hsame | hsuffix
    . rwa [hsame] at hp
    . exact hsuffix.subset (List.mem_of_mem_tail hp)
  . intro hwhole t
    rw [hkeep t]
    exact hinside.timely hwhole t

theorem Inside.lose (hinside : Inside timely before extendSeq whole ts data h) (data' : List UInt8)
    : Inside timely (before ++ [false]) (extendSeq + 1) false ts data' h := by
  cases whole with
  | false =>
    apply Between.inside hinside.between.lose
  | true =>
    refine Between.inside ⟨hinside.toTracks.lose, fun hgap => ?_⟩
    have hlast := List.mem_of_getLast? (hinside.last rfl)
    rw [revealsGap_concat_false, List.any_eq_false] at hgap
    exact absurd rfl (hgap true hlast)

theorem Inside.push (hinside : Inside timely before extendSeq whole ts data h)
    (hgap : revealsGap before = false) (hseq : info.extendSeq = extendSeq)
    (hts : info.pkt.timestamp = ts)
    (hpayload : info.pkt.payload = fuIndicator header :: fuHeader header false false :: fragment)
    : Inside timely (before ++ [true]) (extendSeq + 1) whole ts (data ++ fragment)
        { h with
          initFlag := true
          lastExtendSeq := info.extendSeq
          packetsQueue := h.packetsQueue ++ [info] } := by
  have hstart : getStartBit info.pkt.payload = false := by
    rw [hpayload]
    apply getStartBit_fuHeader
  have hheadless (queue : List RtpPacketInfo) (hqueue : Headless queue) : Headless (queue ++ [info]) := by
    intro p hp
    rcases List.mem_append.mp hp with hp | hp
    . exact hqueue p hp
    . rw [List.mem_singleton.mp hp]
      exact hstart
  refine ⟨Tracks.of_input rfl hseq hinside.endFlag, fun _ => hinside.startFlag hgap, ?_, ?_, ?_, ?_⟩
  . simp
  . intro hwhole
    rcases hinside.queue hwhole with hcollects | hqueue
    . exact .inl (hcollects.push hts hpayload)
    . exact .inr (hheadless _ hqueue)
  . intro hwhole p hp
    apply hheadless _ (hinside.tail hwhole) p
    cases hqueue : h.packetsQueue with
    | nil => simp [hqueue] at hp
    | cons q queue => simpa [hqueue] using hp
  . intro hwhole t
    exact (hinside.timely hwhole t).push hts hpayload

theorem outputFua_eq (h : PackHandleH264) (info : RtpPacketInfo) (now : Int)
    : ∃ queue ts events, h.outputFua info now = ({ h with
        packetsQueue := queue
        startFlag := false
        endFlag := false
        reportLostTs := ts }, events)
      ∧ events.filterMap PackEvent.output?
        = ((demuxFuaLoop {} h.packetsQueue).2.map fun nalu => h264Packet nalu.1 nalu.2).toList := by
  unfold outputFua
  rcases demuxFuaLoop {} h.packetsQueue with ⟨queue, nalu⟩
  cases nalu with
  | none =>
    rcases reportLost_eq { h with packetsQueue := queue } info now with ⟨ts, events, hreport, hevents⟩
    simp only [hreport]
    exact ⟨queue, ts, events, rfl, hevents⟩
  | some nalu => exact ⟨queue, _, _, rfl, rfl⟩

theorem fuaWaiting_fragment {start last : Bool}
    (hnext : h.initFlag = true → h.lastExtendSeq + 1 = info.extendSeq)
    (hpayload : info.pkt.payload = fuIndicator header :: fuHeader header start last :: fragment)
    : h.fuaWaiting (.input info now)
      = if last then [] else if start then [info] else h.packetsQueue ++ [info] := by
  have hstart : getStartBit info.pkt.payload = start := by
    rw [hpayload]
    apply getStartBit_fuHeader
  have hend : getEndBit info.pkt.payload = last := by
    rw [hpayload]
    apply getEndBit_fuHeader
  have htype : H264.nalType (info.pkt.payload.getD 0 0) = kFuA := by
    rw [hpayload]
    apply nalType_fuIndicator
  unfold fuaWaiting
  simp only [hstart, hend, htype]
  rw [if_neg (fun hgap => hgap.2 (hnext hgap.1))]
  simp

theorem Inside.input_middle (hinside : Inside timely before extendSeq whole ts data h)
    (hseq : info.extendSeq = extendSeq) (hts : info.pkt.timestamp = ts)
    (hpayload : info.pkt.payload = fuIndicator header :: fuHeader header false false :: fragment)
    (htime : timely → ∀ p ∈ (h.fuaWaiting (.input info now)).head?,
      now - p.pkt.localMs < packBufferTimeout)
    : Inside timely (before ++ [true]) (extendSeq + 1) whole ts (data ++ fragment)
        (h.inputRtpPacket info now).1
      ∧ (h.inputRtpPacket info now).2.filterMap PackEvent.output? = [] := by
  cases hgap : revealsGap before with
  | true =>
    cases whole with
    | true =>
      rw [hinside.not_revealsGap] at hgap
      cases hgap
    | false =>
      have hinput := hinside.input_gap hgap hseq now
      exact ⟨hinput.1.inside, hinput.2⟩
  | false =>
    have hnext := hinside.next hgap hseq
    rcases inputRtpPacket_fuA hnext hpayload with ⟨hinput, hstart, hend⟩
    rw [fuaWaiting_fragment hnext hpayload] at htime
    rw [hinput, inputFua_middle hstart hend (by exact hinside.endFlag)]
    refine ⟨?_, rfl⟩
    apply Inside.stable _ now (hinside.push hgap hseq hts hpayload)
    intro t
    exact checkFuaTimeout_of_head (htime t)

/--
The last fragment completes a NALU of which all was delivered and nothing timed out.
-/
theorem Inside.input_last (hinside : Inside timely before extendSeq whole ts data h)
    (hseq : info.extendSeq = extendSeq) (hts : info.pkt.timestamp = ts)
    (hpayload : info.pkt.payload = fuIndicator header :: fuHeader header false true :: fragment)
    (now : Int)
    : Between (before ++ [true]) (extendSeq + 1) (h.inputRtpPacket info now).1
      ∧ Arrives timely (if whole then [h264Packet (data ++ fragment) ts.toNat] else [])
          ((h.inputRtpPacket info now).2.filterMap PackEvent.output?) := by
  cases hgap : revealsGap before with
  | true =>
    cases whole with
    | true =>
      rw [hinside.not_revealsGap] at hgap
      cases hgap
    | false =>
      rcases hinside.input_gap hgap hseq now with ⟨hbetween, hout⟩
      rw [hout]
      exact ⟨hbetween, Arrives.refl []⟩
  | false =>
    have hnext := hinside.next hgap hseq
    rcases inputRtpPacket_fuA hnext hpayload with ⟨hinput, hstart, hend⟩
    have hflag := hinside.startFlag hgap
    rw [hinput, inputFua_last hstart hend]
    cases whole with
    | false =>
      simp only [hflag, Bool.false_eq_true, if_false]
      rcases reportLost_eq (resetRtpFua { h with
        initFlag := true
        lastExtendSeq := info.extendSeq
        startFlag := false }) info now with ⟨ts, events, hreport, hevents⟩
      rw [hreport, hevents]
      exact ⟨⟨Tracks.of_input rfl hseq rfl, fun _ => rfl⟩, Arrives.refl []⟩
    | true =>
      simp only [hflag, if_true]
      rcases outputFua_eq { h with
        initFlag := true
        lastExtendSeq := info.extendSeq
        startFlag := true
        endFlag := true
        packetsQueue := h.packetsQueue ++ [info] } info now with ⟨queue, ts', events, houtput, hevents⟩
      rw [houtput, hevents]
      refine ⟨⟨Tracks.of_input rfl hseq rfl, fun _ => rfl⟩, ?_, ?_⟩
      . rcases hinside.queue rfl with hcollects | hqueue
        . rw [hcollects.output hts hpayload]
          apply List.Sublist.refl
        . rw [demuxFuaLoop_of_not_hasStart rfl]
          . apply List.nil_sublist
          . intro _ p hp
            rcases List.mem_append.mp hp with hp | hp
            . exact hqueue p hp
            . rw [List.mem_singleton.mp hp]
              exact hstart
      . intro t
        rw [(hinside.timely rfl t).output hts hpayload]
        rfl

theorem Between.input_first (hbetween : Between before extendSeq h)
    (hseq : info.extendSeq = extendSeq) (hts : info.pkt.timestamp = ts)
    (hpayload : info.pkt.payload = fuIndicator header :: fuHeader header true false :: fragment)
    (htime : timely → ∀ p ∈ (h.fuaWaiting (.input info now)).head?,
      now - p.pkt.localMs < packBufferTimeout)
    : Inside timely (before ++ [true]) (extendSeq + 1) (!revealsGap before) ts (header :: fragment)
        (h.inputRtpPacket info now).1
      ∧ (h.inputRtpPacket info now).2.filterMap PackEvent.output? = [] := by
  cases hgap : revealsGap before with
  | true =>
    have hinput := hbetween.input_gap hgap hseq now
    exact ⟨hinput.1.inside, hinput.2⟩
  | false =>
    have hnext := hbetween.next hgap hseq
    rcases inputRtpPacket_fuA hnext hpayload with ⟨hinput, hstart, hend⟩
    rw [fuaWaiting_fragment hnext hpayload] at htime
    rw [hinput, inputFua_first hstart hend (by exact hbetween.endFlag)]
    have hcollects := Collects.push_first hpayload
    rw [hts] at hcollects
    refine ⟨Inside.stable _ now ?_ (fun t => checkFuaTimeout_of_head (htime t)), rfl⟩
    refine ⟨Tracks.of_input rfl hseq hbetween.endFlag, fun _ => rfl, ?_, ?_, ?_, ?_⟩
    . simp
    . exact fun _ => .inl hcollects
    . intro _ p hp
      cases hp
    . exact fun _ _ => hcollects

/--
A fragment that is both the first and the last is dropped.
-/
theorem Between.input_one (hbetween : Between before extendSeq h)
    (hseq : info.extendSeq = extendSeq)
    (hpayload : info.pkt.payload = fuIndicator header :: fuHeader header true true :: fragment)
    (now : Int)
    : Between (before ++ [true]) (extendSeq + 1) (h.inputRtpPacket info now).1
      ∧ (h.inputRtpPacket info now).2.filterMap PackEvent.output? = [] := by
  cases hgap : revealsGap before with
  | true => exact hbetween.input_gap hgap hseq now
  | false =>
    have hnext := hbetween.next hgap hseq
    rcases inputRtpPacket_fuA hnext hpayload with ⟨hinput, hstart, hend⟩
    rw [hinput, inputFua_one hstart hend]
    rcases reportLost_eq (resetRtpFua { h with
      initFlag := true
      lastExtendSeq := info.extendSeq }) info now with ⟨ts, events, hreport, hevents⟩
    rw [hreport]
    exact ⟨⟨Tracks.of_input rfl hseq rfl, fun _ => rfl⟩, hevents⟩

theorem Inside.handles {sizes : List Nat} {delivered : List Bool}
    (hinside : Inside timely before extendSeq whole ts data h) (header : UInt8) (hne : sizes ≠ [])
    (hsum : sizes.sum = fragment.length) (hlen : delivered.length = sizes.length)
    : Handles timely h extendSeq
        ((generateFuALoop header false sizes fragment).map fun pkt => (pkt.payload, ts)) delivered
        fun h' out => Between (before ++ delivered) (extendSeq + sizes.length) h'
          ∧ Arrives timely
              (if whole && delivered.all id then [h264Packet (data ++ fragment) ts.toNat] else []) out := by
  induction sizes generalizing h before extendSeq whole data fragment delivered with
  | nil => exact absurd rfl hne
  | cons size sizes ih =>
    rw [generateFuALoop, List.map_cons]
    rw [List.sum_cons] at hsum
    rcases List.exists_cons_of_length_eq_add_one hlen with ⟨d, delivered, rfl⟩
    cases sizes with
    | nil =>
      have hnil : delivered = [] := List.length_eq_zero_iff.mp (Nat.succ.inj hlen)
      subst hnil
      rw [List.sum_nil, Nat.add_zero] at hsum
      rw [List.take_of_length_le (Nat.le_of_eq hsum.symm)]
      cases d with
      | false =>
        refine handles_lose Inside.stable hinside fun h hinside => ?_
        refine handles_nil Between.stable (hinside.lose data).between fun h hbetween => ⟨hbetween, ?_⟩
        simp only [List.all_cons, id, Bool.false_and, Bool.and_false]
        apply Arrives.refl
      | true =>
        refine handles_input Inside.stable hinside fun h info now hinside hseq hpayload hts _ => ?_
        rcases hinside.input_last hseq hts hpayload now with ⟨hbetween, hout⟩
        refine handles_nil Between.stable hbetween fun h hbetween => ⟨hbetween, ?_⟩
        rw [List.append_nil]
        simpa using hout
    | cons size' sizes =>
      have hdrop : (size' :: sizes).sum = (fragment.drop size).length := by
        rw [List.length_drop]
        omega
      have hlen' : delivered.length = (size' :: sizes).length := Nat.succ.inj hlen
      have hseq' : extendSeq + (size :: size' :: sizes).length
          = extendSeq + 1 + (size' :: sizes).length := by
        simp only [List.length_cons]
        omega
      have hcut : data ++ fragment.take size ++ fragment.drop size = data ++ fragment := by
        rw [List.append_assoc, List.take_append_drop]
      rw [hseq', List.append_cons]
      cases d with
      | false =>
        refine handles_lose Inside.stable hinside fun h hinside => ?_
        have hnext := ih (hinside.lose (data ++ fragment.take size)) (List.cons_ne_nil _ _) hdrop hlen'
        simp only [List.all_cons, id, Bool.false_and, Bool.and_false] at hnext ⊢
        exact hnext
      | true =>
        refine handles_input Inside.stable hinside fun h info now hinside hseq hpayload hts htime => ?_
        rcases hinside.input_middle hseq hts hpayload htime with ⟨hinside', hout⟩
        have hnext := ih hinside' (List.cons_ne_nil _ _) hdrop hlen'
        rw [hcut] at hnext
        simp only [hout, List.all_cons, id, Bool.true_and, List.nil_append]
        exact hnext

theorem Between.handles_fuA {body : List UInt8} {delivered : List Bool}
    (hbetween : Between before extendSeq h) (ts : UInt32) (hbody : body ≠ [])
    (hlen : delivered.length = (generateFuAPackets (header :: body)).length)
    : Handles timely h extendSeq
        ((generateFuAPackets (header :: body)).map fun pkt => (pkt.payload, ts)) delivered
        fun h' out => Between (before ++ delivered) (extendSeq + delivered.length) h'
          ∧ Arrives timely (if delivered.all id = true ∧ revealsGap before = false
                ∧ decide (body.length ≤ kPayloadMaxSize) = false
              then [h264Packet (header :: body) ts.toNat] else []) out := by
  have hpos := List.length_pos_iff.mpr hbody
  unfold generateFuAPackets at hlen ⊢
  simp only [List.headD_cons, List.length_cons, Nat.add_sub_cancel, List.tail_cons] at hlen ⊢
  rw [length_generateFuALoop] at hlen
  rcases List.exists_cons_of_ne_nil (splitNalu_ne_nil hpos) with ⟨size, sizes, hsizes⟩
  rw [hsizes] at hlen
  rcases List.exists_cons_of_length_eq_add_one hlen with ⟨d, delivered, rfl⟩
  by_cases hle : body.length ≤ kPayloadMaxSize
  . rw [splitNalu_of_le hpos hle] at hsizes ⊢
    cases hsizes
    have hnil : delivered = [] := List.length_eq_zero_iff.mp (Nat.succ.inj hlen)
    subst hnil
    simp only [hle, decide_true, Bool.true_eq_false, and_false, if_false]
    cases d with
    | false =>
      refine handles_lose Between.stable hbetween fun h hbetween => ?_
      exact handles_nil Between.stable hbetween.lose fun h hbetween => ⟨hbetween, Arrives.refl []⟩
    | true =>
      refine handles_input Between.stable hbetween fun h info now hbetween hseq hpayload _ _ => ?_
      rcases hbetween.input_one hseq hpayload now with ⟨hbetween', hout⟩
      rw [hout]
      exact handles_nil Between.stable hbetween' fun h hbetween => ⟨hbetween, Arrives.refl []⟩
  . have hgt := Nat.not_le.mp hle
    have hsum := sum_splitNalu (body.length - kPayloadMaxSize)
    have hne : splitNalu (body.length - kPayloadMaxSize) ≠ [] := splitNalu_ne_nil (by omega)
    rw [splitNalu_of_gt hgt] at hsizes ⊢
    cases hsizes
    generalize splitNalu (body.length - kPayloadMaxSize) = sizes at hsum hne hlen
    have hlen' : delivered.length = sizes.length := Nat.succ.inj hlen
    have hempty : sizes.isEmpty = false := by simpa using hne
    have hdrop : sizes.sum = (body.drop kPayloadMaxSize).length := by
      rw [hsum, List.length_drop]
    rw [generateFuALoop, List.map_cons, hempty, List.append_cons, List.length_cons, hlen',
      Nat.add_comm sizes.length, ← Nat.add_assoc]
    simp only [hle, decide_false, and_true]
    cases d with
    | false =>
      refine handles_lose Between.stable hbetween fun h hbetween => ?_
      have hinside : Inside timely _ _ false ts [] h := hbetween.lose.inside
      have hnext := hinside.handles header hne hdrop hlen'
      simpa using hnext
    | true =>
      refine handles_input Between.stable hbetween fun h info now hbetween hseq hpayload hts htime => ?_
      rcases hbetween.input_first hseq hts hpayload htime with ⟨hinside, hout⟩
      have hnext := hinside.handles header hne hdrop hlen'
      rw [List.cons_append, List.take_append_drop] at hnext
      rw [hout]
      simpa [and_comm] using hnext

end FuA

section Sent

variable {timely : Prop} {before : List Bool} {extendSeq : Nat} {h : PackHandleH264}

theorem Between.handles_sent (hbetween : Between before extendSeq h) (u : H264Sent)
    : Handles timely h extendSeq u.contents u.delivered fun h' out =>
        Between (before ++ u.delivered) (extendSeq + u.delivered.length) h'
          ∧ Arrives timely (u.arriving before) out := by
  rcases u with ⟨unit, ts, delivered, hlen⟩
  unfold H264Sent.contents H264Sent.arriving H264Sent.mediaPackets H264Sent.isComplete
  cases unit with
  | single nalu type_ge type_le =>
    simp only [H264Unit.packets, H264Unit.nalus, H264Unit.isOneFragment, and_true]
    apply hbetween.handles_packet _ hlen
    intro h info now hpayload hts
    subst hpayload hts
    rw [inputPayload_single type_ge type_le]
    exact ⟨rfl, rfl⟩
  | stapA nalus ne_nil nalu_ne_nil length_lt =>
    simp only [H264Unit.packets, H264Unit.nalus, H264Unit.isOneFragment, and_true]
    apply hbetween.handles_packet _ hlen
    intro h info now hpayload hts
    rw [inputPayload_stapA hpayload length_lt nalu_ne_nil ne_nil, hts]
    simp [List.filterMap_map, Function.comp_def, PackEvent.output?]
  | fuA header body body_ne_nil => exact hbetween.handles_fuA ts body_ne_nil hlen

theorem Between.handles_all (hbetween : Between before extendSeq h) (us : List H264Sent)
    : Handles timely h extendSeq (us.flatMap H264Sent.contents) (us.flatMap H264Sent.delivered)
        fun _ out => Arrives timely (H264Sent.arrivingAll before us) out := by
  induction us generalizing h before extendSeq with
  | nil => exact handles_nil Between.stable hbetween fun h hbetween => Arrives.refl []
  | cons u us ih =>
    have hlen : u.contents.length = u.delivered.length := by
      rw [u.length_delivered, H264Sent.contents, List.length_map]
    rw [List.flatMap_cons, List.flatMap_cons]
    refine handles_append hlen fun pkts calls hpkts hdelivers htime => ?_
    rcases hbetween.handles_sent u pkts calls hpkts hdelivers htime with ⟨hbetween', hout⟩
    intro pkts' calls' hpkts' hdelivers' htime'
    rw [hlen] at hdelivers'
    exact hout.append (ih hbetween' pkts' calls' hpkts' hdelivers' htime')

theorem between_init (extendSeq : Nat) : Between [] extendSeq {} := by
  constructor
  . constructor
    . rfl
    . intro hinit
      cases hinit
    . simp [revealsGap]
    . rfl
  . intro _
    rfl

theorem run_arrives {us : List H264Sent} {pkts : List RtpPacket} {calls : List Call}
    (hpkts : pkts.map content = us.flatMap H264Sent.contents)
    (hdelivers : DeliversSome extendSeq pkts (us.flatMap H264Sent.delivered) calls)
    : Arrives (NoTimeout {} calls) (H264Sent.arrivingAll [] us)
        ((run {} calls).2.filterMap PackEvent.output?) :=
  (between_init extendSeq).handles_all us pkts calls hpkts hdelivers id

end Sent

end PackHandleH264

namespace H264Sent

theorem arriving_sublist (before : List Bool) (u : H264Sent)
    : (u.arriving before).Sublist u.mediaPackets := by
  unfold arriving
  split
  . apply List.Sublist.refl
  . apply List.nil_sublist

theorem arrivingAll_sublist (before : List Bool) (us : List H264Sent)
    : (arrivingAll before us).Sublist (us.flatMap mediaPackets) := by
  induction us generalizing before with
  | nil => apply List.Sublist.refl
  | cons u us ih =>
    rw [List.flatMap_cons]
    exact (arriving_sublist before u).append (ih _)

end H264Sent

namespace PackHandleH264

open H264Sent

/--
What comes out are NALUs that were sent, in their order and each at most once, whichever packets are
lost and whenever the timer is called.
-/
theorem run_sublist_sent (us : List H264Sent) (pkts : List RtpPacket) (extendSeq : Nat)
    (calls : List Call) (hpkts : pkts.map content = us.flatMap contents)
    (hdelivers : DeliversSome extendSeq pkts (us.flatMap delivered) calls)
    : ((run {} calls).2.filterMap PackEvent.output?).Sublist (us.flatMap mediaPackets)
      ∧ (((run {} calls).2.filterMap PackEvent.output?).map MediaPacket.data).Sublist
          ((us.flatMap fun u => u.unit.nalus).map fun nalu => H264.startCode ++ nalu) := by
  have hsublist := (run_arrives hpkts hdelivers).1.trans (arrivingAll_sublist [] us)
  have hdata : (us.flatMap mediaPackets).map MediaPacket.data
      = (us.flatMap fun u => u.unit.nalus).map fun nalu => H264.startCode ++ nalu := by
    simp [List.map_flatMap, mediaPackets, h264Packet, Function.comp_def]
  refine ⟨hsublist, ?_⟩
  rw [← hdata]
  exact hsublist.map MediaPacket.data

def sampleUnit : H264Unit := .fuA 0x41 (RtcSendStream.sampleBody ++ [7]) (by simp)

theorem packets_sampleUnit : sampleUnit.packets
    = [fuAPacket 0x41 true false RtcSendStream.sampleBody, fuAPacket 0x41 false true [7]] := by
  have hlen : (RtcSendStream.sampleBody ++ [7]).length = 1201 := by
    rw [List.length_append, RtcSendStream.length_sampleBody]
    rfl
  have hsizes : splitNalu 1201 = [1200, 1] := by
    rw [splitNalu_of_gt (by decide), splitNalu_of_le (by decide) (by decide)]
    rfl
  unfold sampleUnit H264Unit.packets generateFuAPackets
  simp only [List.length_cons, Nat.add_sub_cancel, List.tail_cons, hlen, hsizes, generateFuALoop]
  rw [List.take_left' RtcSendStream.length_sampleBody, List.drop_left' RtcSendStream.length_sampleBody]
  rfl

def sampleSingle (body : UInt8) (delivered : Bool) : H264Sent where
  unit := .single [0x41, body] RtcSendStream.sampleSlice.type_ge RtcSendStream.sampleSlice.type_le
  timestamp := 3000
  delivered := [delivered]
  length_delivered := rfl

/--
A NALU in two fragments, both are delivered.
-/
def sampleFragments : H264Sent where
  unit := sampleUnit
  timestamp := 6000
  delivered := [true, true]
  length_delivered := by
    rw [packets_sampleUnit]
    rfl

def samplePacket (ts : UInt32) (payload : List UInt8) : RtpPacket :=
  { makeRtpPacket payload with timestamp := ts }

def sampleInput (extendSeq : Nat) (pkt : RtpPacket) : Call :=
  .input ⟨.video, pkt.clone 0, extendSeq, 90000⟩ 0

theorem delivers_sampleInput {extendSeq : Nat} {pkt : RtpPacket} {pkts : List RtpPacket}
    {delivered : List Bool} {calls : List Call}
    (hrest : DeliversSome (extendSeq + 1) pkts delivered calls)
    : DeliversSome extendSeq (pkt :: pkts) (true :: delivered) (sampleInput extendSeq pkt :: calls) :=
  .input ⟨.video, pkt.clone 0, extendSeq, 90000⟩ 0 0 rfl hrest

/--
The first fragment times out before the last one arrives.
-/
def sampleTimeout : List RtpPacket × List Call :=
  let single := samplePacket 3000 [0x41, 1]
  let first := samplePacket 6000 (fuAPacket 0x41 true false RtcSendStream.sampleBody).payload
  let last := samplePacket 6000 (fuAPacket 0x41 false true [7]).payload
  ([single, first, last],
    [sampleInput 7 single, sampleInput 8 first, .timer 700, sampleInput 9 last])

theorem run_sublist_sent_sample
    : ((run {} sampleTimeout.2).2.filterMap PackEvent.output?).Sublist
        ([sampleSingle 1 true, sampleFragments].flatMap mediaPackets)
      ∧ (((run {} sampleTimeout.2).2.filterMap PackEvent.output?).map MediaPacket.data).Sublist
          [[0, 0, 0, 1, 0x41, 1], [0, 0, 0, 1, 0x41] ++ RtcSendStream.sampleBody ++ [7]] := by
  have hsublist := run_sublist_sent [sampleSingle 1 true, sampleFragments] sampleTimeout.1 7
    sampleTimeout.2
    (by
      simp only [List.flatMap_cons, List.flatMap_nil, contents, sampleFragments, packets_sampleUnit]
      rfl)
    (delivers_sampleInput (delivers_sampleInput (.timer 700 (delivers_sampleInput (.nil 10)))))
  refine ⟨hsublist.1, ?_⟩
  rw [List.append_assoc]
  exact hsublist.2

end PackHandleH264

namespace H264Sent

/--
A unit of which all packets are delivered arrives.
-/
def NotMissed (before : List Bool) (u : H264Sent) : Prop :=
  u.isComplete = true → revealsGap before = false ∧ u.unit.isOneFragment = false

theorem mediaPackets_ne_nil (u : H264Sent) : u.mediaPackets ≠ [] := by
  rcases u with ⟨unit, ts, delivered, hlen⟩
  unfold mediaPackets
  cases unit with
  | single => simp [H264Unit.nalus]
  | stapA nalus ne_nil => simpa [H264Unit.nalus] using ne_nil
  | fuA => simp [H264Unit.nalus]

/--
The units of which all packets are delivered.
-/
def complete (us : List H264Sent) : List MediaPacket := (us.filter isComplete).flatMap mediaPackets

theorem complete_cons (u : H264Sent) (us : List H264Sent)
    : complete (u :: us) = (if u.isComplete then u.mediaPackets else []) ++ complete us := by
  unfold complete
  cases hcomplete : u.isComplete with
  | true => simp [hcomplete]
  | false => simp [hcomplete]

theorem length_arriving_le (before : List Bool) (u : H264Sent)
    : (u.arriving before).length ≤ (if u.isComplete then u.mediaPackets else []).length := by
  unfold arriving
  split
  next h => simp [h.1]
  next => apply Nat.zero_le

theorem length_arrivingAll_le (before : List Bool) (us : List H264Sent)
    : (arrivingAll before us).length ≤ (complete us).length := by
  induction us generalizing before with
  | nil => apply Nat.le_refl
  | cons u us ih =>
    rw [complete_cons, arrivingAll, List.length_append, List.length_append]
    exact Nat.add_le_add (length_arriving_le before u) (ih _)

theorem arriving_eq {before : List Bool} {u : H264Sent} (hnot : u.NotMissed before)
    : u.arriving before = if u.isComplete then u.mediaPackets else [] := by
  unfold arriving
  cases hcomplete : u.isComplete with
  | true => simp [hnot hcomplete]
  | false => simp

theorem length_arriving_lt {before : List Bool} {u : H264Sent} (hmissed : ¬u.NotMissed before)
    : (u.arriving before).length < (if u.isComplete then u.mediaPackets else []).length := by
  unfold NotMissed at hmissed
  rw [Classical.not_imp] at hmissed
  rcases hmissed with ⟨hcomplete, hmissed⟩
  unfold arriving
  rw [if_neg (fun h => hmissed h.2), if_pos hcomplete]
  exact List.length_pos_iff.mpr u.mediaPackets_ne_nil

theorem complete_sublist_iff (before : List Bool) (us : List H264Sent)
    : (complete us).Sublist (arrivingAll before us)
      ↔ ∀ us₁ u us₂, us = us₁ ++ u :: us₂ → u.NotMissed (before ++ us₁.flatMap delivered) := by
  constructor
  . intro hsublist
    have hle := hsublist.length_le
    clear hsublist
    induction us generalizing before with
    | nil => simp
    | cons u us ih =>
      have hrest := length_arrivingAll_le (before ++ u.delivered) us
      have hfirst := length_arriving_le before u
      rw [complete_cons, arrivingAll, List.length_append, List.length_append] at hle
      intro us₁ v us₂ hus
      cases us₁ with
      | nil =>
        cases hus
        by_contra hmissed
        simp only [List.flatMap_nil, List.append_nil] at hmissed
        have := length_arriving_lt hmissed
        omega
      | cons u' us₁ =>
        rw [List.cons_append, List.cons.injEq] at hus
        rcases hus with ⟨rfl, hus⟩
        have hnot := ih (before ++ u.delivered) (by omega) us₁ v us₂ hus
        rwa [List.append_assoc] at hnot
  . intro hall
    have heq : complete us = arrivingAll before us := by
      induction us generalizing before with
      | nil => rfl
      | cons u us ih =>
        have hfirst := hall [] u us rfl
        simp only [List.flatMap_nil, List.append_nil] at hfirst
        have hrest := ih (before ++ u.delivered) fun us₁ v us₂ hus => by
          rw [List.append_assoc]
          apply hall (u :: us₁) v us₂
          rw [hus, List.cons_append]
        rw [complete_cons, arrivingAll, arriving_eq hfirst, hrest]
    rw [heq]

end H264Sent

namespace PackHandleH264

open H264Sent

/--
Without a timeout, every NALU of which all packets are delivered comes out, if and only if none of them
begins with the packet behind a lost one, and none is in one fragment.
-/
theorem run_complete_iff (us : List H264Sent) (pkts : List RtpPacket) (extendSeq : Nat)
    (calls : List Call) (hpkts : pkts.map content = us.flatMap contents)
    (hdelivers : DeliversSome extendSeq pkts (us.flatMap delivered) calls)
    (htime : NoTimeout {} calls)
    : (complete us).Sublist ((run {} calls).2.filterMap PackEvent.output?)
      ↔ ∀ us₁ u us₂, us = us₁ ++ u :: us₂ → u.isComplete = true →
          revealsGap (us₁.flatMap delivered) = false ∧ u.unit.isOneFragment = false := by
  rw [(run_arrives hpkts hdelivers).2 htime]
  apply complete_sublist_iff [] us

def sampleInputs : List Call :=
  [sampleInput 7 (samplePacket 3000 [0x41, 1]), sampleInput 8 (samplePacket 3000 [0x41, 2])]

theorem run_complete_sample
    : (complete [sampleSingle 1 true, sampleSingle 2 true]).Sublist
        ((run {} sampleInputs).2.filterMap PackEvent.output?) := by
  apply (run_complete_iff [sampleSingle 1 true, sampleSingle 2 true]
    [samplePacket 3000 [0x41, 1], samplePacket 3000 [0x41, 2]] 7 sampleInputs rfl
    (delivers_sampleInput (delivers_sampleInput (.nil 9)))
    ⟨by rintro p ⟨⟩, by rintro p ⟨⟩, trivial⟩).mpr
  intro us₁ u us₂ hus _
  rcases us₁ with _ | ⟨u₁, _ | ⟨u₂, us₁⟩⟩
  . cases hus
    decide
  . cases hus
    decide
  . simp at hus

/--
The packet behind a lost one is dropped, though it has all of a NALU in it.
-/
theorem not_run_complete
    : ∃ pkts calls, pkts.map content
          = [sampleSingle 1 true, sampleSingle 2 false, sampleSingle 3 true].flatMap contents
        ∧ DeliversSome 7 pkts [true, false, true] calls ∧ NoTimeout {} calls
        ∧ ¬(complete [sampleSingle 1 true, sampleSingle 2 false, sampleSingle 3 true]).Sublist
            ((run {} calls).2.filterMap PackEvent.output?) := by
  refine ⟨[samplePacket 3000 [0x41, 1], samplePacket 3000 [0x41, 2], samplePacket 3000 [0x41, 3]],
    [sampleInput 7 (samplePacket 3000 [0x41, 1]), sampleInput 9 (samplePacket 3000 [0x41, 3])],
    rfl, delivers_sampleInput (.lose _ (delivers_sampleInput (.nil 10))),
    ⟨by rintro p ⟨⟩, by rintro p ⟨⟩, trivial⟩, ?_⟩
  intro hsublist
  have hle := hsublist.length_le
  revert hle
  decide

end PackHandleH264
