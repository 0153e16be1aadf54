import CppStreamer.Basic.Assembler
import CppStreamer.Format.MpegTs.Output

/-!
This module contains when `MpegtsDemux`, which puts the PES of all pids together in one buffer, keeps the
streams of different pids apart.
-/

open Assemble

namespace MpegTs

section Units

def unitPid (data : List UInt8) : Nat := ((MpegtsDemux.tsHeader data).map (·.pid)).getD 0

def StartsUnit (data : List UInt8) : Prop :=
  (MpegtsDemux.tsHeader data).map (·.payloadUnitStartIndicator) = some true

instance : DecidablePred StartsUnit := fun _ => inferInstanceAs (Decidable (_ = _))

/--
The pid is in the table, and its packets are handed to the streams.
-/
structure MpegtsDemux.Lists (d : MpegtsDemux) (pid : Nat) : Prop where
  stream : pid ∉ [0x00, 0x01, 0x02, 0x03, 0x11, 0x42, 0x1fff]
  notPmt : d.isPmt pid = false
  listed : ∃ info ∈ d.streamPidVec, pid = info.elementaryPid

/--
A packet of 188 bytes with the bytes of a PES. A header in front of them is there as a whole.
-/
structure MpegtsDemux.CarriesPes (d : MpegtsDemux) (data : List UInt8) (h : TsHeader) (npos : Nat)
    : Prop where
  size : data.length = unitSize
  header : tsHeader data = some h
  lists : d.Lists h.pid
  control : h.adaptationFieldControl = 1 ∨ h.adaptationFieldControl = 3
  adaptation : adaptationEnd data h.adaptationFieldControl 4 = some npos
  payload : npos < unitSize
  pes : h.payloadUnitStartIndicator = true → ∃ info pos len, pesParse (data.drop npos) npos = some info
    ∧ info.ret ≤ unitSize ∧ info.retData = some (pos, len) ∧ npos + pos + len ≤ unitSize

end Units

namespace MpegtsDemux

/--
The packets of a buffer, as a delivery of its pid.
-/
def delivery (streamPidVec : List StreamPidInfo) (a : Assembled) : Nat × Option (List MediaPacket) :=
  (a.pid, packets streamPidVec a)

def assembler : Assembler Nat (List UInt8) (Nat × Option (List MediaPacket)) MpegtsDemux where
  step := deliverUnit
  pending d := (d.onCallback d.lastPid d.lastDts d.lastPts).2.map (delivery d.streamPidVec)
  key := unitPid
  opens := StartsUnit
  label := Prod.fst

section Lawful

variable {d : MpegtsDemux}

/--
The tables are those of `d`, and what is in the buffer belongs to the pid.
-/
structure Serves (d : MpegtsDemux) (pid : Nat) (s : MpegtsDemux) : Prop where
  pat : s.patPidVec = d.patPidVec
  streams : s.streamPidVec = d.streamPidVec
  total : s.dataTotal = 0 ↔ s.dataBufferVec = []
  lastPid : s.dataBufferVec ≠ [] → s.lastPid = pid

/--
Two states with one buffer. Without data in it the last pid makes no difference.
-/
structure Same (s t : MpegtsDemux) : Prop where
  pat : s.patPidVec = t.patPidVec
  streams : s.streamPidVec = t.streamPidVec
  buffer : s.dataBufferVec = t.dataBufferVec
  total : s.dataTotal = t.dataTotal
  dts : s.lastDts = t.lastDts
  pts : s.lastPts = t.lastPts
  lastPid : s.dataBufferVec ≠ [] → s.lastPid = t.lastPid

/--
A buffer with the first bytes of a PES, or with nothing if there are none.
-/
structure Opened (d : MpegtsDemux) (pid dts pts : Nat) (bytes : List UInt8) (s : MpegtsDemux)
    : Prop where
  pat : s.patPidVec = d.patPidVec
  streams : s.streamPidVec = d.streamPidVec
  buffer : s.dataBufferVec = if bytes = [] then [] else [bytes]
  total : s.dataTotal = bytes.length
  dts : s.lastDts = dts
  pts : s.lastPts = pts
  lastPid : bytes ≠ [] → s.lastPid = pid

theorem Same.refl (s : MpegtsDemux) : Same s s := ⟨rfl, rfl, rfl, rfl, rfl, rfl, fun _ => rfl⟩

theorem Opened.serves {pid dts pts : Nat} {bytes : List UInt8} {s : MpegtsDemux}
    (h : Opened d pid dts pts bytes s) : Serves d pid s where
  pat := h.pat
  streams := h.streams
  total := by
    rw [h.total, h.buffer]
    split
    . simp [*]
    . simp [*]
  lastPid := by
    rw [h.buffer]
    intro hne
    apply h.lastPid
    rintro rfl
    exact hne rfl

theorem Opened.same {pid dts pts : Nat} {bytes : List UInt8} {s t : MpegtsDemux}
    (hs : Opened d pid dts pts bytes s) (ht : Opened d pid dts pts bytes t) : Same s t where
  pat := hs.pat.trans ht.pat.symm
  streams := hs.streams.trans ht.streams.symm
  buffer := hs.buffer.trans ht.buffer.symm
  total := hs.total.trans ht.total.symm
  dts := hs.dts.trans ht.dts.symm
  pts := hs.pts.trans ht.pts.symm
  lastPid := by
    rw [hs.buffer]
    intro hne
    have hbytes : bytes ≠ [] := by
      rintro rfl
      exact hne rfl
    rw [hs.lastPid hbytes, ht.lastPid hbytes]

theorem Same.onCallback {s t : MpegtsDemux} (h : Same s t)
    : (s.onCallback s.lastPid s.lastDts s.lastPts).2 = (t.onCallback t.lastPid t.lastDts t.lastPts).2 := by
  unfold MpegtsDemux.onCallback
  rw [h.buffer, h.total, h.dts, h.pts]
  split
  . rfl
  . have hne := (not_or.mp ‹_›).2
    rw [h.lastPid (by rw [h.buffer]; exact hne)]

theorem Serves.onCallback {pid : Nat} {s : MpegtsDemux} (h : Serves d pid s) (p dts pts : Nat)
    : (s.onCallback p dts pts).1 = { s with dataBufferVec := [], dataTotal := 0 } := by
  unfold MpegtsDemux.onCallback
  split
  . have hempty : s.dataBufferVec = [] := by
      cases ‹_ ∨ _› with
      | inl htotal => exact h.total.mp htotal
      | inr hempty => exact hempty
    have htotal := h.total.mpr hempty
    cases s
    simp only at hempty htotal
    subst hempty
    subst htotal
    rfl
  . rfl

theorem Opened.onCallback {pid dts pts : Nat} {bytes : List UInt8} {s : MpegtsDemux}
    (h : Opened d pid dts pts bytes s)
    : (s.onCallback s.lastPid s.lastDts s.lastPts).2
        = if bytes = [] then [] else [⟨pid, dts, pts, bytes⟩] := by
  unfold MpegtsDemux.onCallback
  rw [h.total, h.buffer, h.dts, h.pts]
  by_cases hbytes : bytes = []
  . simp [hbytes]
  . rw [h.lastPid hbytes]
    simp [hbytes]

end Lawful

section Steps

variable {d : MpegtsDemux} {data : List UInt8} {h : TsHeader} {npos : Nat}

theorem CarriesPes.decodeUnit (hc : d.CarriesPes data h npos) {pid : Nat} {s : MpegtsDemux}
    (hs : Serves d pid s) : s.decodeUnit data = decodeStreams h data npos d.streamPidVec s := by
  have hpmt : s.isPmt h.pid = false := by
    rw [← hc.lists.notPmt]
    unfold isPmt
    rw [hs.pat]
  have hstream := hc.lists.stream
  simp only [List.mem_cons, List.not_mem_nil, or_false, not_or] at hstream
  unfold MpegtsDemux.decodeUnit
  simp only [hc.header, hc.adaptation, Option.bind_eq_bind, Option.bind_some, if_pos hc.control, hpmt,
    List.mem_cons, List.not_mem_nil, or_false, hstream, if_false, Bool.false_eq_true, hs.streams]

theorem CarriesPes.decodePes_start (hc : d.CarriesPes data h npos)
    (hstart : h.payloadUnitStartIndicator = true)
    : ∃ dts pts bytes, ∀ {pid s}, Serves d pid s → ∃ s',
        s.decodePes h data npos = some ⟨0, s', (s.onCallback s.lastPid s.lastDts s.lastPts).2⟩
          ∧ Opened d h.pid dts pts bytes s' := by
  rcases hc.pes hstart with ⟨info, pos, len, hparse, hret, hdata, hlen⟩
  refine ⟨if info.dts = 0 then info.pts else info.dts, info.pts, (data.drop (npos + pos)).take len, ?_⟩
  intro pid s hs
  have hread : readRange data (npos + pos) len = some ((data.drop (npos + pos)).take len) := by
    unfold readRange
    rw [if_pos (by rw [hc.size]; exact hlen)]
  have hbytes : ((data.drop (npos + pos)).take len).length = len := by
    rw [List.length_take, List.length_drop, hc.size]
    omega
  unfold decodePes
  rw [if_pos hstart]
  simp only [hparse, Option.bind_eq_bind, Option.bind_some, if_neg (Nat.not_lt.mpr hret), hdata,
    hs.onCallback]
  by_cases hpos : 0 < len
  . rw [if_pos hpos]
    simp only [hread, Option.bind_some]
    have hne : (data.drop (npos + pos)).take len ≠ [] := by
      rw [← List.length_pos_iff, hbytes]
      exact hpos
    refine ⟨_, rfl, hs.pat, hs.streams, ?_, ?_, rfl, rfl, fun _ => rfl⟩
    . rw [if_neg hne]
      rfl
    . unfold insertIntoDatabuf
      simp only [Nat.zero_add]
  . rw [if_neg hpos]
    have hzero : len = 0 := Nat.eq_zero_of_not_pos hpos
    subst hzero
    exact ⟨_, rfl, hs.pat, hs.streams, rfl, rfl, rfl, rfl, fun hne => absurd rfl hne⟩

theorem CarriesPes.decodePes_rest (hc : d.CarriesPes data h npos)
    (hrest : h.payloadUnitStartIndicator = false) (s : MpegtsDemux)
    : s.decodePes h data npos
        = some ⟨0, s.insertIntoDatabuf ((data.drop npos).take (unitSize - npos)) h.pid, []⟩ := by
  have hpayload := hc.payload
  have hread : readRange data npos (unitSize - npos) = some ((data.drop npos).take (unitSize - npos)) := by
    unfold readRange
    rw [if_pos (by rw [hc.size]; omega)]
  unfold decodePes
  rw [if_neg (by rw [hrest]; exact Bool.false_ne_true), if_pos (Nat.le_of_lt hpayload), hread]
  rfl

theorem insertIntoDatabuf_serves {pid : Nat} {s : MpegtsDemux} (hs : Serves d pid s) {bytes : List UInt8}
    (hne : bytes ≠ []) : Serves d pid (s.insertIntoDatabuf bytes pid) where
  pat := hs.pat
  streams := hs.streams
  total := by
    have hpos := List.length_pos_iff.mpr hne
    unfold insertIntoDatabuf
    simp only [List.append_eq_nil_iff, List.cons_ne_nil, and_false, iff_false]
    omega
  lastPid := fun _ => rfl

theorem insertIntoDatabuf_same {s t : MpegtsDemux} (hst : Same s t) (bytes : List UInt8) (pid : Nat)
    : Same (s.insertIntoDatabuf bytes pid) (t.insertIntoDatabuf bytes pid) where
  pat := hst.pat
  streams := hst.streams
  buffer := congrArg (· ++ [bytes]) hst.buffer
  total := congrArg (· + bytes.length) hst.total
  dts := hst.dts
  pts := hst.pts
  lastPid := fun _ => rfl

/--
A stream that is listed more than once gets its packet more than once.
-/
theorem CarriesPes.decodeStreams_opened {dts pts : Nat} {bytes : List UInt8}
    (hdecode : ∀ {pid s}, Serves d pid s → ∃ s',
      s.decodePes h data npos = some ⟨0, s', (s.onCallback s.lastPid s.lastDts s.lastPts).2⟩
        ∧ Opened d h.pid dts pts bytes s') (infos : List StreamPidInfo)
    : ∃ own, (∀ a ∈ own, a.pid = h.pid) ∧ ∀ {s}, Opened d h.pid dts pts bytes s → ∃ s',
        decodeStreams h data npos infos s = some ⟨0, s', own⟩ ∧ Opened d h.pid dts pts bytes s' := by
  induction infos with
  | nil => exact ⟨[], fun _ hnone => (nomatch hnone), fun hs => ⟨_, rfl, hs⟩⟩
  | cons info infos ih =>
    rcases ih with ⟨own, hown, hrest⟩
    by_cases hpid : h.pid = info.elementaryPid
    . refine ⟨(if bytes = [] then [] else [⟨h.pid, dts, pts, bytes⟩]) ++ own, ?_, ?_⟩
      . intro a ha
        rcases List.mem_append.mp ha with ha | ha
        . split at ha
          . cases ha
          . rw [List.mem_singleton.mp ha]
        . exact hown a ha
      . intro s hs
        rcases hdecode hs.serves with ⟨s', hstep, hs'⟩
        rcases hrest hs' with ⟨s'', hsteps, hs''⟩
        refine ⟨s'', ?_, hs''⟩
        rw [decodeStreams, if_pos hpid, hstep, hs.onCallback]
        simp only [Option.bind_eq_bind, Option.bind_some, hsteps]
        rfl
    . refine ⟨own, hown, ?_⟩
      intro s hs
      rw [decodeStreams, if_neg hpid]
      exact hrest hs

theorem CarriesPes.decodeStreams_start (hc : d.CarriesPes data h npos)
    (hstart : h.payloadUnitStartIndicator = true)
    : ∃ dts pts bytes own, (∀ a ∈ own, a.pid = h.pid) ∧ ∀ {pid s}, Serves d pid s → ∃ s',
        decodeStreams h data npos d.streamPidVec s
          = some ⟨0, s', (s.onCallback s.lastPid s.lastDts s.lastPts).2 ++ own⟩
          ∧ Opened d h.pid dts pts bytes s' := by
  rcases hc.decodePes_start hstart with ⟨dts, pts, bytes, hdecode⟩
  refine ⟨dts, pts, bytes, ?_⟩
  rcases hc.lists.listed with ⟨info, hinfo, hpid⟩
  generalize d.streamPidVec = infos at hinfo
  induction infos with
  | nil => cases hinfo
  | cons first infos ih =>
    by_cases hfirst : h.pid = first.elementaryPid
    . rcases decodeStreams_opened hdecode infos with ⟨own, hown, hrest⟩
      refine ⟨own, hown, ?_⟩
      intro pid s hs
      rcases hdecode hs with ⟨s', hstep, hs'⟩
      rcases hrest hs' with ⟨s'', hsteps, hs''⟩
      refine ⟨s'', ?_, hs''⟩
      rw [decodeStreams, if_pos hfirst, hstep]
      simp only [Option.bind_eq_bind, Option.bind_some, hsteps]
      rfl
    . have hrest : info ∈ infos := by
        rcases List.mem_cons.mp hinfo with rfl | hrest
        . exact absurd hpid hfirst
        . exact hrest
      rcases ih hrest with ⟨own, hown, hsteps⟩
      refine ⟨own, hown, ?_⟩
      intro pid s hs
      rw [decodeStreams, if_neg hfirst]
      exact hsteps hs

theorem CarriesPes.decodeStreams_rest (hc : d.CarriesPes data h npos)
    (hrest : h.payloadUnitStartIndicator = false) (infos : List StreamPidInfo) {s t : MpegtsDemux}
    (hst : Same s t) (hs : Serves d h.pid s) (ht : Serves d h.pid t)
    : ∃ s' t', decodeStreams h data npos infos s = some ⟨0, s', []⟩
        ∧ decodeStreams h data npos infos t = some ⟨0, t', []⟩
        ∧ Same s' t' ∧ Serves d h.pid s' ∧ Serves d h.pid t' := by
  induction infos generalizing s t with
  | nil => exact ⟨s, t, rfl, rfl, hst, hs, ht⟩
  | cons info infos ih =>
    by_cases hpid : h.pid = info.elementaryPid
    . have hne : (data.drop npos).take (unitSize - npos) ≠ [] := by
        have := hc.payload
        rw [← List.length_pos_iff, List.length_take, List.length_drop, hc.size]
        omega
      rcases ih (insertIntoDatabuf_same hst _ h.pid) (insertIntoDatabuf_serves hs hne)
        (insertIntoDatabuf_serves ht hne) with ⟨s', t', hstep, htstep, hsame, hs', ht'⟩
      refine ⟨s', t', ?_, ?_, hsame, hs', ht'⟩
      . rw [decodeStreams, if_pos hpid, hc.decodePes_rest hrest]
        simp only [Option.bind_eq_bind, Option.bind_some, hstep]
        rfl
      . rw [decodeStreams, if_pos hpid, hc.decodePes_rest hrest]
        simp only [Option.bind_eq_bind, Option.bind_some, htstep]
        rfl
    . rw [decodeStreams, if_neg hpid, decodeStreams, if_neg hpid]
      exact ih hst hs ht

end Steps

section Separation

variable {d : MpegtsDemux}

theorem CarriesPes.startsUnit_iff {data : List UInt8} {h : TsHeader} {npos : Nat}
    (hc : d.CarriesPes data h npos) : StartsUnit data ↔ h.payloadUnitStartIndicator = true := by
  unfold StartsUnit
  rw [hc.header, Option.map_some, Option.some.injEq]

theorem CarriesPes.unitPid_eq {data : List UInt8} {h : TsHeader} {npos : Nat}
    (hc : d.CarriesPes data h npos) : unitPid data = h.pid := by
  unfold unitPid
  rw [hc.header]
  rfl

theorem CarriesPes.deliverUnit_eq {data : List UInt8} {h : TsHeader} {npos pid : Nat}
    (hc : d.CarriesPes data h npos) {s s' : MpegtsDemux} (hs : Serves d pid s)
    {assembled : List Assembled}
    (hdecode : decodeStreams h data npos d.streamPidVec s = some ⟨0, s', assembled⟩)
    : s.deliverUnit data = some (s', assembled.map (delivery d.streamPidVec)) := by
  unfold deliverUnit
  rw [hc.decodeUnit hs, hdecode, hs.streams]
  rfl

theorem Serves.pending {pid : Nat} {s : MpegtsDemux} (hs : Serves d pid s)
    : assembler.pending s
        = (s.onCallback s.lastPid s.lastDts s.lastPts).2.map (delivery d.streamPidVec) := by
  unfold assembler
  simp only
  rw [hs.streams]

theorem Serves.pending_label {pid : Nat} {s : MpegtsDemux} (hs : Serves d pid s)
    : ∀ c ∈ assembler.pending s, c.1 = pid := by
  intro c hc
  rw [hs.pending, List.mem_map] at hc
  rcases hc with ⟨a, ha, rfl⟩
  unfold MpegtsDemux.onCallback at ha
  split at ha
  . cases ha
  . rw [List.mem_singleton.mp ha]
    exact hs.lastPid (not_or.mp ‹_›).2

theorem assembler_lawful (d : MpegtsDemux)
    : assembler.Lawful (fun data => ∃ h npos, d.CarriesPes data h npos) Same (Serves d) where
  same_refl := Same.refl
  pending_same hst := by
    unfold assembler
    simp only
    rw [hst.onCallback, hst.streams]
  pending_label hs := hs.pending_label
  opening {data} := by
    rintro ⟨h, npos, hc⟩ hstart
    rcases hc.decodeStreams_start (hc.startsUnit_iff.mp hstart) with
      ⟨dts, pts, bytes, own, hown, hdecode⟩
    refine ⟨own.map (delivery d.streamPidVec), ?_, ?_⟩
    . intro c hmem
      rcases List.mem_map.mp hmem with ⟨a, ha, rfl⟩
      exact (hown a ha).trans hc.unitPid_eq.symm
    . intro k l s t hs ht
      rcases hdecode hs with ⟨s', hstep, hs'⟩
      rcases hdecode ht with ⟨t', htstep, ht'⟩
      have hpid : assembler.key data = h.pid := hc.unitPid_eq
      rw [hs.pending, ht.pending, ← List.map_append, ← List.map_append, hpid]
      exact ⟨s', t', hc.deliverUnit_eq hs hstep, hc.deliverUnit_eq ht htstep, hs'.same ht', hs'.serves,
        ht'.serves⟩
  continuing {data} := by
    rintro ⟨h, npos, hc⟩ hstart s t hst hs ht
    have hrest : h.payloadUnitStartIndicator = false := by
      rw [← Bool.not_eq_true, ← hc.startsUnit_iff]
      exact hstart
    have hpid : assembler.key data = h.pid := hc.unitPid_eq
    rw [hpid] at hs ht ⊢
    rcases hc.decodeStreams_rest hrest d.streamPidVec hst hs ht with
      ⟨s', t', hstep, htstep, hsame, hs', ht'⟩
    refine ⟨s', t', [], hc.deliverUnit_eq hs hstep, hc.deliverUnit_eq ht htstep, ?_, hsame, hs', ht'⟩
    intro c hmem
    cases hmem

/--
What is delivered of packets, each with the pid of its PES.
-/
def delivered (d : MpegtsDemux) (units : List (List UInt8))
    : Option (List (Nat × Option (List MediaPacket))) :=
  (assembler.run d units).map Prod.snd

/--
Nothing is in the buffer, as behind the tables.
-/
structure Idle (d : MpegtsDemux) : Prop where
  buffer : d.dataBufferVec = []
  total : d.dataTotal = 0

/--
Whenever a PES of a pid starts, what has been delivered for the pid is what is delivered of its packets
alone. The last PES of a pid is not compared.
-/
def Separates (d : MpegtsDemux) (units : List (List UInt8)) : Prop :=
  ∀ front unit rest, units = front ++ unit :: rest → StartsUnit unit → ∃ out alone,
    d.delivered (front ++ [unit]) = some out
      ∧ d.delivered ((front ++ [unit]).filter fun u => unitPid u = unitPid unit) = some alone
      ∧ (out.filter fun c => c.1 = unitPid unit) = alone

/--
Up to the last start of a PES, a packet that goes on with a PES comes right behind one of its own pid.
-/
def Contiguous (units : List (List UInt8)) : Prop :=
  ∀ front a b rest, units = front ++ a :: b :: rest → ¬ StartsUnit b → (∃ u ∈ rest, StartsUnit u) →
    unitPid a = unitPid b

theorem separates_of_contiguous (d : MpegtsDemux) (hidle : d.Idle) (units : List (List UInt8))
    (hunits : ∀ data ∈ units, ∃ h npos, d.CarriesPes data h npos) (hcontiguous : Contiguous units)
    : d.Separates units := by
  intro front unit rest hsplit hstart
  have hchain : assembler.Contiguous (front ++ [unit]) := by
    unfold Assembler.Contiguous
    rw [List.isChain_iff_forall_rel_of_append_cons_cons]
    intro a b before behind hl
    rw [or_iff_not_imp_left]
    intro hb
    apply hcontiguous before a b (behind ++ rest)
    . rw [hsplit, List.append_cons, hl, List.append_assoc]
      rfl
    . exact hb
    . refine ⟨unit, List.mem_append_left _ ?_, hstart⟩
      -- the last packet is the start, which `b` is not
      rcases List.eq_nil_or_concat behind with rfl | ⟨behind, last, rfl⟩
      . have hb' := List.append_inj' (hl.trans (List.append_cons before a [b])) rfl
        cases hb'.2
        exact absurd hstart hb
      . rw [List.concat_eq_append] at hl ⊢
        have hlast : front ++ [unit] = (before ++ a :: b :: behind) ++ [last] := by
          rw [hl, List.append_assoc]
          rfl
        have hlast' := List.append_inj' hlast rfl
        cases hlast'.2
        exact List.mem_append_right _ List.mem_cons_self
  have hvalid : ∀ data ∈ front ++ [unit], ∃ h npos, d.CarriesPes data h npos := by
    intro data hdata
    apply hunits
    rw [hsplit, List.append_cons]
    exact List.mem_append_left _ hdata
  have hpending : assembler.pending d = [] := by
    unfold assembler MpegtsDemux.onCallback
    simp [hidle.buffer]
  have hserves (pid : Nat) : Serves d pid d :=
    ⟨rfl, rfl, iff_of_true hidle.total hidle.buffer, fun hne => absurd hidle.buffer hne⟩
  rcases Assembler.filter_run_concat (assembler_lawful d) hpending hserves hvalid hchain with
    ⟨s, t, out, alone, hrun, halone, hout⟩
  refine ⟨out, alone, ?_, ?_, hout⟩
  . unfold delivered
    rw [hrun]
    rfl
  . unfold delivered
    have hfilter : assembler.run d ((front ++ [unit]).filter fun u => unitPid u = unitPid unit)
        = some (t, alone) := halone
    rw [hfilter]
    rfl

def sampleTables : MpegtsDemux :=
  { patPidVec := [{ programNumber := 1, pid := 0x1001 }]
    streamPidVec := [⟨streamTypeVideoH264, 0x100, 0, []⟩, ⟨streamTypeAudioAac, 0x101, 0, []⟩] }

/--
A packet of a PES without time stamps.
-/
def samplePacket (start video : Bool) (b : UInt8) : List UInt8 :=
  [0x47, if start then 0x41 else 0x01, if video then 0x00 else 0x01, 0x10]
    ++ if start then [0, 0, 1, 0xc0, 0, 0, 0x80, 0, 0] ++ List.replicate 175 b else List.replicate 184 b

theorem samplePacket_carries (start video : Bool) (b : UInt8)
    : ∃ h npos, sampleTables.CarriesPes (samplePacket start video b) h npos := by
  refine ⟨⟨start, if video then 0x100 else 0x101, 1⟩, 4, ?_, ?_, ?_, .inl rfl, rfl, by decide, ?_⟩
  . cases start <;> rfl
  . cases start <;> cases video <;> rfl
  . cases video
    . exact ⟨by simp, rfl, _, .tail _ (.head _), rfl⟩
    . exact ⟨by simp, rfl, _, .head _, rfl⟩
  . intro hstart
    simp only at hstart
    subst hstart
    have hparse (rest : List UInt8) : pesParse ([0, 0, 1, 0xc0, 0, 0, 0x80, 0, 0] ++ rest) 4
        = some { ret := 9, retData := some (9, 175) } := by
      simp [pesParse, readRange, readByte, ByteStream.read3Bytes, plainStreamIds, testBit, skipIf, retSize,
        unitSize]
    have hdrop : (samplePacket true video b).drop 4
        = [0, 0, 1, 0xc0, 0, 0, 0x80, 0, 0] ++ List.replicate 175 b := by
      unfold samplePacket
      simp only [if_true, List.cons_append, List.nil_append, List.drop_succ_cons, List.drop_zero]
    rw [hdrop]
    exact ⟨_, 9, 175, hparse _, by decide, rfl, by decide⟩

/--
Two PES of an audio stream, the first one in two packets, and a PES of the video stream between them.
-/
theorem separates_of_contiguous_sample
    : sampleTables.Separates [samplePacket true false 1, samplePacket false false 2, samplePacket true true 3,
        samplePacket true false 4] := by
  apply separates_of_contiguous sampleTables ⟨rfl, rfl⟩
  . intro data hdata
    simp only [List.mem_cons, List.not_mem_nil, or_false] at hdata
    rcases hdata with rfl | rfl | rfl | rfl <;> apply samplePacket_carries
  . intro front a b rest hsplit hb hlater
    rcases front with _ | ⟨first, _ | ⟨second, front⟩⟩
    . cases hsplit
      rfl
    . cases hsplit
      exact absurd rfl hb
    . cases front with
      | nil =>
        cases hsplit
        exact absurd rfl hb
      | cons third front =>
        have hlen := congrArg List.length hsplit
        simp only [List.length_cons, List.length_append, List.length_nil] at hlen
        omega

/--
The first PES of the audio stream goes on behind the start of a PES of the video stream.
-/
theorem not_separates
    : ¬ ∀ (d : MpegtsDemux) (units : List (List UInt8)), d.Idle →
        (∀ data ∈ units, ∃ h npos, d.CarriesPes data h npos) → d.Separates units := by
  intro h
  have hunits : ∀ data ∈ [samplePacket true false 1, samplePacket true true 2, samplePacket false false 3,
      samplePacket true false 4], ∃ h npos, sampleTables.CarriesPes data h npos := by
    intro data hdata
    simp only [List.mem_cons, List.not_mem_nil, or_false] at hdata
    rcases hdata with rfl | rfl | rfl | rfl <;> apply samplePacket_carries
  rcases h sampleTables _ ⟨rfl, rfl⟩ hunits
    [samplePacket true false 1, samplePacket true true 2, samplePacket false false 3]
    (samplePacket true false 4) [] rfl rfl with ⟨out, alone, hout, halone, hsame⟩
  have hlen : (sampleTables.delivered [samplePacket true false 1, samplePacket true true 2,
      samplePacket false false 3, samplePacket true false 4]).map
        (fun out => (out.filter fun c => c.1 = 0x101).length) = some 2 := by
    decide +kernel
  have hlen' : (sampleTables.delivered [samplePacket true false 1, samplePacket false false 3,
      samplePacket true false 4]).map List.length = some 1 := by
    decide +kernel
  have hfilter : ([samplePacket true false 1, samplePacket true true 2, samplePacket false false 3]
      ++ [samplePacket true false 4]).filter (fun u => unitPid u = unitPid (samplePacket true false 4))
      = [samplePacket true false 1, samplePacket false false 3, samplePacket true false 4] := by
    decide +kernel
  rw [List.cons_append, List.cons_append, List.cons_append, List.nil_append] at hout
  rw [hfilter] at halone
  rw [hout, Option.map_some, Option.some.injEq] at hlen
  rw [halone, Option.map_some, Option.some.injEq] at hlen'
  have hpid : unitPid (samplePacket true false 4) = 0x101 := by
    decide +kernel
  rw [hpid] at hsame
  rw [hsame, hlen'] at hlen
  cases hlen

end Separation

end MpegtsDemux

end MpegTs
