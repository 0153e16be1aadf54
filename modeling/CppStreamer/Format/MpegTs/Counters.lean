import Mathlib.Data.List.Chain
import CppStreamer.Format.MpegTs.Bounds
import CppStreamer.Format.MpegTs.InputPacket
import CppStreamer.Format.MpegTs.RoundTrip

/-!
This module contains the continuity counters of the packets that a run of `InputPacket` puts out. Those of
the streams count on, those of the tables stay what they are.
-/

namespace MpegTs

section Headers

/--
Nothing in front of `i` is touched.
-/
theorem put_front {p : TsPacket} {front bytes : List UInt8} {i : Nat} (h : front <+: p.bytes)
    (hi : front.length ≤ i) : front <+: (p.put i bytes).bytes := by
  obtain ⟨rest, hrest⟩ := h
  unfold TsPacket.put
  rw [← hrest, List.take_append, List.take_of_length_le hi, List.append_assoc]
  apply List.prefix_append

theorem put_control {p : TsPacket} {e : Pes} {first : Bool} {control : UInt8}
    (h : headerWith e first control <+: p.bytes) (control' : UInt8)
    : headerWith e first control' <+: (p.put 3 [control']).bytes := by
  obtain ⟨rest, hrest⟩ := h
  unfold TsPacket.put
  rw [← hrest]
  exact ⟨rest, rfl⟩

variable (u : Unwritten) (e : Pes) (first : Bool)

theorem putPayload_front {p : TsPacket} {front : List UInt8} (h : front <+: p.bytes) {i : Nat}
    (hi : front.length ≤ i) (dataLen n w : Nat)
    : front <+: (putPayload u e first p i dataLen n w).1.bytes := by
  unfold putPayload
  by_cases hhead : first ∧ i < tsPacketSize
  . simp only [if_pos hhead]
    split
    . apply put_front _ (by omega)
      apply put_front h hi
    . apply put_front h hi
  . simp only [if_neg hhead]
    split
    . apply put_front h hi
    . exact h

theorem adaptationBufInit_front {p : TsPacket} {front : List UInt8} (h : front <+: p.bytes) {i : Nat}
    (hi : front.length ≤ i) (n : Nat)
    : front <+: (adaptationBufInit p i n).bytes := by
  unfold adaptationBufInit
  simp only
  split
  . apply put_front _ (by omega)
    apply put_front _ (by omega)
    apply put_front h hi
  . apply put_front h hi

theorem pcrField_front {p : TsPacket} {cc : UInt8} (h : headerWith e first (plainControl cc) <+: p.bytes)
    : headerWith e first (adaptationControl cc) <+: (pcrField e p cc).bytes := by
  unfold pcrField
  apply put_front _ (by simp)
  apply put_front _ (by simp)
  apply put_control h

/--
A packet starts with its header, and with one of the two control bytes.
-/
theorem writeTsPacket_front (cc : UInt8) (n w : Nat)
    : ∃ control, (control = plainControl cc ∨ control = adaptationControl cc)
        ∧ headerWith e first control <+: (writeTsPacket u e first cc n w).1.bytes := by
  have hheader := (filled_header u e first cc).front
  unfold writeTsPacket
  by_cases hpcr : first ∧ e.isVideo ∧ e.pkt.isKeyFrame
  . have hfield := pcrField_front e first hheader
    simp only [if_pos hpcr]
    split
    . refine ⟨_, Or.inr rfl, ?_⟩
      apply putPayload_front _ _ _ hfield (by simp)
    . refine ⟨_, Or.inr rfl, ?_⟩
      apply putPayload_front _ _ _ _ (Nat.le_add_right_of_le (by simp))
      apply adaptationBufInit_front _ (by simp)
      apply put_control hfield
  . simp only [if_neg hpcr]
    split
    . refine ⟨_, Or.inl rfl, ?_⟩
      apply putPayload_front _ _ _ hheader (by simp)
    . refine ⟨_, Or.inr rfl, ?_⟩
      apply putPayload_front _ _ _ _ (Nat.le_add_right _ _)
      apply adaptationBufInit_front _ (by simp)
      apply put_control hheader

end Headers

section Counts

open MpegtsDemux

def ccOf (data : List UInt8) : Nat := dataAt data 3 % 16

/--
The packets of a pid that carry payload.
-/
def ofPid (pid : Nat) (out : List (List UInt8)) : List (List UInt8) :=
  out.filter fun data => (headerAt data).pid = pid
    ∧ ((headerAt data).adaptationFieldControl = 1 ∨ (headerAt data).adaptationFieldControl = 3)

def Continuous (out : List (List UInt8)) : Prop :=
  ∀ pid, (ofPid pid out).IsChain fun data next => ccOf next = (ccOf data + 1) % 16

def ccs (pid : Nat) (out : List (List UInt8)) : List Nat := (ofPid pid out).map ccOf

theorem ccs_append (pid : Nat) (out out' : List (List UInt8))
    : ccs pid (out ++ out') = ccs pid out ++ ccs pid out' := by
  simp [ccs, ofPid]

theorem continuous_iff (out : List (List UInt8))
    : Continuous out ↔ ∀ pid, (ccs pid out).IsChain fun cc next => next = (cc + 1) % 16 := by
  unfold Continuous ccs
  simp only [List.isChain_map]

/--
The counters of packets that go on from one state of a counter to another.
-/
inductive Counts : UInt8 → List Nat → UInt8 → Prop
  | done (cc : UInt8) : Counts cc [] cc
  | next {cc cc' : UInt8} {ns : List Nat} : Counts (nextCc cc) ns cc' →
      Counts cc ((nextCc cc).toNat :: ns) cc'

theorem nextCc_lt (cc : UInt8) : (nextCc cc).toNat < 16 := by
  revert cc
  apply ByteStream.forall_of_bitVec
  decide

theorem nextCc_next (cc : UInt8) : (nextCc (nextCc cc)).toNat = ((nextCc cc).toNat + 1) % 16 := by
  revert cc
  apply ByteStream.forall_of_bitVec
  decide

namespace Counts

theorem append {cc cc' cc'' : UInt8} {ns ns' : List Nat} (h : Counts cc ns cc') (h' : Counts cc' ns' cc'')
    : Counts cc (ns ++ ns') cc'' := by
  induction h with
  | done cc => exact h'
  | next _ ih => exact Counts.next (ih h')

theorem isChain {cc cc' : UInt8} {ns : List Nat} (h : Counts cc ns cc')
    : ns.IsChain fun n next => next = (n + 1) % 16 := by
  induction h with
  | done cc => exact List.isChain_nil
  | next h ih =>
    cases h with
    | done => apply List.isChain_singleton
    | next h => exact List.isChain_cons_cons.mpr ⟨nextCc_next _, ih⟩

end Counts

/--
A packet of a stream: where it belongs and how far it counts.
-/
structure IsCounted (pid : Nat) (cc : UInt8) (data : List UInt8) : Prop where
  pid : (headerAt data).pid = pid
  payload : (headerAt data).adaptationFieldControl = 1 ∨ (headerAt data).adaptationFieldControl = 3
  cc : ccOf data = cc.toNat

theorem ccs_cons {pid pid' : Nat} {cc : UInt8} {data : List UInt8} (h : IsCounted pid cc data)
    (out : List (List UInt8))
    : ccs pid' (data :: out) = (if pid = pid' then [cc.toNat] else []) ++ ccs pid' out := by
  unfold ccs ofPid
  by_cases hpid : pid = pid'
  . subst hpid
    rw [List.filter_cons_of_pos (by simp [h.pid, h.payload]), List.map_cons, h.cc, if_pos rfl]
    rfl
  . rw [List.filter_cons_of_neg (by simp [h.pid, hpid]), if_neg hpid]
    rfl

theorem plainControl_cc {cc : UInt8} : cc.toNat < 16 → (plainControl cc).toNat % 16 = cc.toNat := by
  revert cc
  apply ByteStream.forall_of_bitVec
  decide

theorem adaptationControl_cc {cc : UInt8}
    : cc.toNat < 16 → (adaptationControl cc).toNat % 16 = cc.toNat := by
  revert cc
  apply ByteStream.forall_of_bitVec
  decide

theorem headerAt_headerWith (pkt : MediaPacket) (first : Bool) (control : UInt8) (rest : List UInt8)
    : headerAt (headerWith (pes pkt) first control ++ rest)
        = ⟨first, (pes pkt).pid, control.toNat / 16 % 4⟩ := by
  have hsame : MpegtsDemux.tsHeader (headerWith (pes pkt) first control ++ rest)
      = some (headerAt (headerWith (pes pkt) first control ++ rest)) := rfl
  have hheader := tsHeader_carries pkt first control rest
  rw [hsame] at hheader
  exact Option.some.inj hheader

theorem isCounted_headerWith {pkt : MediaPacket} {first : Bool} {cc control : UInt8} (hcc : cc.toNat < 16)
    (hcontrol : control = plainControl cc ∨ control = adaptationControl cc) {data : List UInt8}
    (h : headerWith (pes pkt) first control <+: data)
    : IsCounted (pes pkt).pid cc data := by
  obtain ⟨rest, rfl⟩ := h
  have hheader := headerAt_headerWith pkt first control rest
  have hbyte : ccOf (headerWith (pes pkt) first control ++ rest) = control.toNat % 16 := rfl
  cases hcontrol with
  | inl hcontrol =>
    subst hcontrol
    constructor
    . rw [hheader]
    . rw [hheader]
      exact Or.inl (plainControl_field cc)
    . rw [hbyte, plainControl_cc hcc]
  | inr hcontrol =>
    subst hcontrol
    constructor
    . rw [hheader]
    . rw [hheader]
      exact Or.inr (adaptationControl_field cc)
    . rw [hbyte, adaptationControl_cc hcc]

variable (u : Unwritten)

/--
The loop counts one further for each packet, and writes nothing to another pid.
-/
theorem writePesLoop_counts (pkt : MediaPacket)
    : ∀ {fuel : Nat} {first : Bool} {cc cc' : UInt8} {n w : Nat} {ps : List TsPacket},
        writePesLoop u (pes pkt) fuel first cc n w = some (ps, cc') →
        Counts cc (ccs (pes pkt).pid (ps.map (·.bytes))) cc'
          ∧ ∀ pid, pid ≠ (pes pkt).pid → ccs pid (ps.map (·.bytes)) = []
  | 0, first, cc, cc', n, w, ps, h => by
    unfold writePesLoop at h
    cases h
  | fuel + 1, first, cc, cc', n, w, ps, h => by
    unfold writePesLoop at h
    by_cases hempty : n = 0
    . rw [if_pos hempty] at h
      cases h
      exact ⟨Counts.done cc, fun _ _ => rfl⟩
    . rw [if_neg hempty] at h
      obtain ⟨control, hcontrol, hfront⟩ := writeTsPacket_front u (pes pkt) first (nextCc cc) n w
      simp only [Option.map_eq_some_iff, Prod.exists] at h
      obtain ⟨rest, last, hrest, hresult⟩ := h
      cases hresult
      obtain ⟨hcounts, hother⟩ := writePesLoop_counts pkt hrest
      have hcounted := isCounted_headerWith (nextCc_lt cc) hcontrol hfront
      constructor
      . rw [List.map_cons, ccs_cons hcounted, if_pos rfl]
        exact Counts.next hcounts
      . intro pid hpid
        rw [List.map_cons, ccs_cons hcounted, if_neg (Ne.symm hpid), hother pid hpid]
        rfl

end Counts

section Emits

open MpegtsDemux

/--
What is put out between two states of the counters: the streams count on, each table starts over.
-/
structure Emits (m : MpegtsMux) (out : List (List UInt8)) (tables : Nat) (m' : MpegtsMux) : Prop where
  video : Counts m.videoCc (ccs videoPid out) m'.videoCc
  audio : Counts m.audioCc (ccs audioPid out) m'.audioCc
  pat : ccs 0 out = List.replicate tables 0
  pmt : ccs pmtPid out = List.replicate tables 0
  other : ∀ pid, pid ∉ [videoPid, audioPid, 0, pmtPid] → ccs pid out = []

namespace Emits

theorem nil {m m' : MpegtsMux} (hvideo : m'.videoCc = m.videoCc) (haudio : m'.audioCc = m.audioCc)
    : Emits m [] 0 m' where
  video := by
    rw [hvideo]
    exact Counts.done _
  audio := by
    rw [haudio]
    exact Counts.done _
  pat := rfl
  pmt := rfl
  other := fun _ _ => rfl

theorem of_ccs {m n m' : MpegtsMux} {out : List (List UInt8)} {tables : Nat} (h : Emits n out tables m')
    (hvideo : n.videoCc = m.videoCc) (haudio : n.audioCc = m.audioCc) : Emits m out tables m' where
  video := hvideo ▸ h.video
  audio := haudio ▸ h.audio
  pat := h.pat
  pmt := h.pmt
  other := h.other

theorem append {m m' m'' : MpegtsMux} {out out' : List (List UInt8)} {tables tables' : Nat}
    (h : Emits m out tables m') (h' : Emits m' out' tables' m'')
    : Emits m (out ++ out') (tables + tables') m'' where
  video := by
    rw [ccs_append]
    exact h.video.append h'.video
  audio := by
    rw [ccs_append]
    exact h.audio.append h'.audio
  pat := by rw [ccs_append, h.pat, h'.pat, List.replicate_append_replicate]
  pmt := by rw [ccs_append, h.pmt, h'.pmt, List.replicate_append_replicate]
  other := by
    intro pid hpid
    rw [ccs_append, h.other pid hpid, h'.other pid hpid]
    rfl

/--
The counters of a table never change.
-/
theorem isChain_replicate (n : Nat)
    : ((List.replicate n 0).IsChain fun cc next => next = (cc + 1) % 16) ↔ n ≤ 1 := by
  match n with
  | 0 => simp
  | 1 => simp
  | n + 2 => simp [List.replicate_succ]

theorem continuous_iff {m m' : MpegtsMux} {out : List (List UInt8)} {tables : Nat}
    (h : Emits m out tables m') : Continuous out ↔ tables ≤ 1 := by
  rw [MpegTs.continuous_iff]
  constructor
  . intro hall
    have hpat := hall 0
    rw [h.pat] at hpat
    exact (isChain_replicate tables).mp hpat
  . intro hle pid
    have htables := (isChain_replicate tables).mpr hle
    by_cases hvideo : pid = videoPid
    . subst hvideo
      exact h.video.isChain
    by_cases haudio : pid = audioPid
    . subst haudio
      exact h.audio.isChain
    by_cases hpat : pid = 0
    . subst hpat
      rw [h.pat]
      exact htables
    by_cases hpmt : pid = pmtPid
    . subst hpmt
      rw [h.pmt]
      exact htables
    rw [h.other pid (by simp [hvideo, haudio, hpat, hpmt])]
    exact List.isChain_nil

end Emits

variable (u : Unwritten)

theorem writePes_emits {m m' : MpegtsMux} {pkt : MediaPacket} {ps : List TsPacket}
    (h : m.writePes u pkt = some (ps, m')) : Emits m (ps.map (·.bytes)) 0 m' := by
  unfold MpegtsMux.writePes at h
  simp only [Option.map_eq_some_iff, Prod.exists] at h
  obtain ⟨ps', cc, hloop, hresult⟩ := h
  obtain ⟨hcounts, hother⟩ := writePesLoop_counts u pkt hloop
  by_cases hvideo : pkt.avType = .video
  . have hpid : (pes pkt).pid = videoPid := by simp [pes, hvideo]
    have hisVideo : (pes pkt).isVideo = true := by simp [pes, hvideo]
    rw [hpid] at hcounts hother
    rw [hisVideo] at hcounts hresult
    cases hresult
    constructor
    . exact hcounts
    . rw [hother audioPid (by decide)]
      exact Counts.done _
    . apply hother 0 (by decide)
    . apply hother pmtPid (by decide)
    . intro pid hnot
      apply hother
      intro heq
      simp [heq] at hnot
  . have hpid : (pes pkt).pid = audioPid := by simp [pes, hvideo]
    have hisVideo : (pes pkt).isVideo = false := by simp [pes, hvideo]
    rw [hpid] at hcounts hother
    rw [hisVideo] at hcounts hresult
    cases hresult
    constructor
    . rw [hother videoPid (by decide)]
      exact Counts.done _
    . exact hcounts
    . apply hother 0 (by decide)
    . apply hother pmtPid (by decide)
    . intro pid hnot
      apply hother
      intro heq
      simp [heq] at hnot

/--
A stored packet counts nothing.
-/
theorem isCounted_stored (b1 b2 : UInt8) (rest : List UInt8)
    : IsCounted ((b1.toNat * 256 + b2.toNat) % 2 ^ 13) 0 (0x47 :: b1 :: b2 :: 0x10 :: rest) where
  pid := rfl
  payload := Or.inl (show (0x10 : UInt8).toNat / 16 % 4 = 1 by decide)
  cc := show (0x10 : UInt8).toNat % 16 = (0 : UInt8).toNat by decide

theorem generatePat_stored (mpegCrc32 : List UInt8 → Nat) (m : MpegtsMux)
    : ∃ rest, m.generatePat mpegCrc32 = 0x47 :: 0x40 :: 0x00 :: 0x10 :: rest := ⟨_, rfl⟩

theorem generatePmt_stored (mpegCrc32 : List UInt8 → Nat) (m : MpegtsMux)
    : ∃ rest, m.generatePmt mpegCrc32 = 0x47 :: 0x50 :: 0x01 :: 0x10 :: rest := ⟨_, rfl⟩

theorem tables_emits (mpegCrc32 : List UInt8 → Nat) (m : MpegtsMuxState)
    : Emits m.toMpegtsMux (m.tables mpegCrc32) 1 m.toMpegtsMux := by
  have hpat : IsCounted 0 0 (m.toMpegtsMux.generatePat mpegCrc32) := by
    obtain ⟨rest, hrest⟩ := generatePat_stored mpegCrc32 m.toMpegtsMux
    rw [hrest]
    apply isCounted_stored 0x40 0x00
  have hpmt : IsCounted pmtPid 0 (m.toMpegtsMux.generatePmt mpegCrc32) := by
    obtain ⟨rest, hrest⟩ := generatePmt_stored mpegCrc32 m.toMpegtsMux
    rw [hrest]
    apply isCounted_stored 0x50 0x01
  have hccs (pid : Nat) : ccs pid (m.tables mpegCrc32)
      = (if 0 = pid then [0] else []) ++ (if pmtPid = pid then [0] else []) := by
    unfold MpegtsMuxState.tables
    rw [ccs_cons hpat, ccs_cons hpmt]
    simp [ccs, ofPid]
  constructor
  . rw [hccs]
    exact Counts.done _
  . rw [hccs]
    exact Counts.done _
  . rw [hccs]
    rfl
  . rw [hccs]
    rfl
  . intro pid hnot
    simp only [List.mem_cons, not_or] at hnot
    rw [hccs, if_neg (Ne.symm hnot.2.2.1), if_neg (Ne.symm hnot.2.2.2.1)]
    rfl

namespace MpegtsMuxState

/--
The counters and what the handlers keep are all that changes.
-/
def SameClock (m m' : MpegtsMuxState) : Prop :=
  m'.lastPatpmtTs = m.lastPatpmtTs ∧ m'.ready = m.ready ∧ m'.waitQueue = m.waitQueue

theorem writeFrames_emits {frames : List MediaPacket} {m m' : MpegtsMuxState} {out : List (List UInt8)}
    (h : m.writeFrames u frames = some (out, m'))
    : Emits m.toMpegtsMux out 0 m'.toMpegtsMux ∧ m.SameClock m' := by
  induction frames generalizing m out with
  | nil =>
    cases h
    exact ⟨Emits.nil rfl rfl, rfl, rfl, rfl⟩
  | cons frame frames ih =>
    unfold writeFrames at h
    simp only [Option.bind_eq_bind, Option.bind_eq_some_iff, Prod.exists] at h
    obtain ⟨ps, mux, hps, out', m'', hrest, hresult⟩ := h
    cases hresult
    obtain ⟨hemits, hsame⟩ := ih hrest
    exact ⟨(writePes_emits u hps).append hemits, hsame⟩

theorem handlePacket_emits {pkt : AvPacket} {m m' : MpegtsMuxState} {out : List (List UInt8)}
    (h : m.handlePacket u pkt = some (out, m'))
    : Emits m.toMpegtsMux out 0 m'.toMpegtsMux ∧ m.SameClock m' := by
  unfold handlePacket at h
  split at h
  . simp only [Option.bind_eq_bind, Option.bind_eq_some_iff, Prod.exists] at h
    obtain ⟨ret, frames, codec, hcodec, hframes⟩ := h
    obtain ⟨hemits, hsame⟩ := writeFrames_emits u hframes
    exact ⟨hemits.of_ccs rfl rfl, hsame⟩
  . obtain ⟨hemits, hsame⟩ := writeFrames_emits u h
    exact ⟨hemits.of_ccs rfl rfl, hsame⟩
  . cases h
    exact ⟨Emits.nil rfl rfl, rfl, rfl, rfl⟩

theorem handlePackets_emits {pkts : List AvPacket} {m m' : MpegtsMuxState} {out : List (List UInt8)}
    (h : m.handlePackets u pkts = some (out, m'))
    : Emits m.toMpegtsMux out 0 m'.toMpegtsMux ∧ m.SameClock m' := by
  induction pkts generalizing m out with
  | nil =>
    cases h
    exact ⟨Emits.nil rfl rfl, rfl, rfl, rfl⟩
  | cons pkt pkts ih =>
    unfold handlePackets at h
    simp only [Option.bind_eq_bind, Option.bind_eq_some_iff, Prod.exists] at h
    obtain ⟨first, next, hfirst, rest, last, hrest, hresult⟩ := h
    cases hresult
    obtain ⟨hemits, hts, hready, hqueue⟩ := handlePacket_emits u hfirst
    obtain ⟨hemits', hts', hready', hqueue'⟩ := ih hrest
    exact ⟨hemits.append hemits', hts'.trans hts, hready'.trans hready, hqueue'.trans hqueue⟩

/--
How often the tables come for packets that do not wait.
-/
def tableCount : Int → List AvPacket → Nat
  | _, [] => 0
  | last, pkt :: pkts =>
    if last < 0 ∨ patpmtInterval ≤ pkt.dts - last then 1 + tableCount pkt.dts pkts
    else tableCount last pkts

theorem tableCount_cons (m : MpegtsMuxState) (pkt : AvPacket) (pkts : List AvPacket)
    : tableCount m.lastPatpmtTs (pkt :: pkts) = (if m.TablesDue pkt then 1 else 0)
        + tableCount (if m.TablesDue pkt then pkt.dts else m.lastPatpmtTs) pkts := by
  have hdue : m.TablesDue pkt ↔ (m.lastPatpmtTs < 0 ∨ patpmtInterval ≤ pkt.dts - m.lastPatpmtTs) := Iff.rfl
  by_cases h : m.TablesDue pkt
  . rw [if_pos h, if_pos h, tableCount, if_pos (hdue.mp h)]
  . rw [if_neg h, if_neg h, tableCount, if_neg (hdue.not.mp h), Nat.zero_add]

theorem tableCount_eq_zero (last : Int) (pkts : List AvPacket)
    : tableCount last pkts = 0 ↔ pkts = [] ∨ (0 ≤ last ∧ ∀ pkt ∈ pkts, pkt.dts < last + patpmtInterval) := by
  induction pkts with
  | nil => simp [tableCount]
  | cons pkt pkts ih =>
    unfold tableCount
    by_cases hdue : last < 0 ∨ patpmtInterval ≤ pkt.dts - last
    . rw [if_pos hdue]
      simp only [reduceCtorEq, false_or, List.forall_mem_cons]
      omega
    . rw [if_neg hdue, ih]
      simp only [reduceCtorEq, false_or, List.forall_mem_cons]
      constructor
      . intro h
        refine ⟨by omega, by omega, ?_⟩
        cases h with
        | inl hnil => simp [hnil]
        | inr h => exact h.right
      . intro h
        exact Or.inr ⟨h.left, h.right.right⟩

/--
The packets of a run that are not held back. Metadata is dropped, and the first packets wait until
there was one of each kind or thirty of them.
-/
def written : Bool → Bool → Nat → List AvPacket → List AvPacket
  | _, _, _, [] => []
  | videoReady, audioReady, waiting, pkt :: pkts =>
    if pkt.avType = .metadata then written videoReady audioReady waiting pkts
    else if (¬videoReady ∨ ¬audioReady) ∧ waiting < 30 then
      written (videoReady || pkt.avType = .video) (audioReady || pkt.avType = .audio) (waiting + 1) pkts
    else pkt :: pkts.filter (·.avType ≠ .metadata)

variable (mpegCrc32 : List UInt8 → Nat)

theorem inputPacket_ready {m m' : MpegtsMuxState} {pkt : AvPacket} {out : List (List UInt8)}
    (hmeta : pkt.avType ≠ .metadata) (hwaits : ¬m.Waits)
    (h : m.inputPacket u mpegCrc32 pkt = some (out, m'))
    : Emits m.toMpegtsMux out (if m.TablesDue pkt then 1 else 0) m'.toMpegtsMux ∧ m'.ready
        ∧ m'.lastPatpmtTs = if m.TablesDue pkt then pkt.dts else m.lastPatpmtTs := by
  have hdue : ({ m with ready := true } : MpegtsMuxState).TablesDue pkt ↔ m.TablesDue pkt := Iff.rfl
  unfold inputPacket at h
  rw [if_neg hmeta, if_neg hwaits] at h
  simp only [hdue, Option.bind_eq_bind, Option.bind_eq_some_iff, Prod.exists] at h
  obtain ⟨rest, next, hrest, hresult⟩ := h
  cases hresult
  obtain ⟨hemits, hts, hready, _⟩ := handlePackets_emits u hrest
  by_cases htables : m.TablesDue pkt
  . simp only [if_pos htables] at hemits hts hready ⊢
    exact ⟨(tables_emits mpegCrc32 { m with ready := true }).append (hemits.of_ccs rfl rfl), hready, hts⟩
  . simp only [if_neg htables] at hemits hts hready ⊢
    exact ⟨hemits, hready, hts⟩

/--
What waiting does to the state, for any kind of packet.
-/
structure WaitEq (m : MpegtsMuxState) (pkt : AvPacket) (m' : MpegtsMuxState) : Prop where
  ready : m'.ready = m.ready
  lastPatpmtTs : m'.lastPatpmtTs = m.lastPatpmtTs
  videoReady : m'.videoReady = (m.videoReady || pkt.avType = .video)
  audioReady : m'.audioReady = (m.audioReady || pkt.avType = .audio)
  waiting : m'.waitQueue.length = m.waitQueue.length + 1
  videoCc : m'.videoCc = m.videoCc
  audioCc : m'.audioCc = m.audioCc

theorem wait_eq (m : MpegtsMuxState) (pkt : AvPacket) : WaitEq m pkt (m.wait pkt) := by
  unfold wait
  cases hpkt : pkt.avType <;> constructor <;> simp [hpkt, setVideoCodec, setAudioCodec]

theorem inputPackets_ready {m m' : MpegtsMuxState} {pkts : List (Unwritten × AvPacket)}
    {out : List (List UInt8)} (hready : m.ready) (h : m.inputPackets mpegCrc32 pkts = some (out, m'))
    : Emits m.toMpegtsMux out
        (tableCount m.lastPatpmtTs ((pkts.map (·.2)).filter (·.avType ≠ .metadata))) m'.toMpegtsMux := by
  induction pkts generalizing m out with
  | nil =>
    cases h
    exact Emits.nil rfl rfl
  | cons pkt pkts ih =>
    obtain ⟨u, pkt⟩ := pkt
    unfold inputPackets at h
    simp only [Option.bind_eq_bind, Option.bind_eq_some_iff, Prod.exists] at h
    obtain ⟨first, next, hfirst, rest, last, hrest, hresult⟩ := h
    cases hresult
    rw [List.map_cons]
    by_cases hmeta : pkt.avType = .metadata
    . rw [List.filter_cons_of_neg (by simp [hmeta])]
      unfold inputPacket at hfirst
      rw [if_pos hmeta] at hfirst
      cases hfirst
      exact ih hready hrest
    . have hwaits : ¬m.Waits := fun hwaits => hwaits.left hready
      obtain ⟨hemits, hready', hts⟩ := inputPacket_ready u mpegCrc32 hmeta hwaits hfirst
      rw [List.filter_cons_of_pos (by simp [hmeta]), tableCount_cons, ← hts]
      exact hemits.append (ih hready' hrest)

/--
What waits is put out with the first packet that does not, behind the tables.
-/
theorem inputPackets_emits {m m' : MpegtsMuxState} {pkts : List (Unwritten × AvPacket)}
    {out : List (List UInt8)} (hready : m.ready = false)
    (h : m.inputPackets mpegCrc32 pkts = some (out, m'))
    : Emits m.toMpegtsMux out
        (tableCount m.lastPatpmtTs
          (written m.videoReady m.audioReady m.waitQueue.length (pkts.map (·.2)))) m'.toMpegtsMux := by
  induction pkts generalizing m out with
  | nil =>
    cases h
    exact Emits.nil rfl rfl
  | cons pkt pkts ih =>
    obtain ⟨u, pkt⟩ := pkt
    unfold inputPackets at h
    simp only [Option.bind_eq_bind, Option.bind_eq_some_iff, Prod.exists] at h
    obtain ⟨first, next, hfirst, rest, last, hrest, hresult⟩ := h
    cases hresult
    rw [List.map_cons]
    unfold written
    by_cases hmeta : pkt.avType = .metadata
    . rw [if_pos hmeta]
      unfold inputPacket at hfirst
      rw [if_pos hmeta] at hfirst
      cases hfirst
      exact ih hready hrest
    rw [if_neg hmeta]
    by_cases hwaits : m.Waits
    . rw [if_pos hwaits.right]
      unfold inputPacket at hfirst
      rw [if_neg hmeta, if_pos hwaits] at hfirst
      cases hfirst
      have hwait := wait_eq m pkt
      have hrest := ih (m := m.wait pkt) (hwait.ready.trans hready) hrest
      rw [hwait.lastPatpmtTs, hwait.videoReady, hwait.audioReady, hwait.waiting] at hrest
      exact hrest.of_ccs hwait.videoCc hwait.audioCc
    . have hleft : ¬((¬m.videoReady ∨ ¬m.audioReady) ∧ m.waitQueue.length < 30) := by
        intro hright
        exact hwaits ⟨by simp [hready], hright⟩
      rw [if_neg hleft]
      obtain ⟨hemits, hready', hts⟩ := inputPacket_ready u mpegCrc32 hmeta hwaits hfirst
      rw [tableCount_cons, ← hts]
      exact hemits.append (inputPackets_ready mpegCrc32 hready' hrest)

/--
The tables come with the first packet that does not wait, and no later one is due for them.
-/
def TablesOnce (pkts : List AvPacket) : Prop :=
  match written false false 0 pkts with
  | [] => True
  | pkt :: rest => rest = [] ∨ (0 ≤ pkt.dts ∧ ∀ next ∈ rest, next.dts < pkt.dts + patpmtInterval)

theorem tablesOnce_iff (pkts : List AvPacket)
    : TablesOnce pkts ↔ tableCount (-1) (written false false 0 pkts) ≤ 1 := by
  unfold TablesOnce
  cases written false false 0 pkts with
  | nil => simp [tableCount]
  | cons pkt rest =>
    rw [tableCount, if_pos (Or.inl (by decide))]
    have hzero := tableCount_eq_zero pkt.dts rest
    simp only
    rw [← hzero]
    omega

theorem inputPackets_continuous_iff (hasVideo hasAudio : Bool) (mpegCrc32 : List UInt8 → Nat)
    (pkts : List (Unwritten × AvPacket)) {out : List (List UInt8)} {m : MpegtsMuxState}
    (h : ({ hasVideo, hasAudio } : MpegtsMuxState).inputPackets mpegCrc32 pkts = some (out, m))
    : Continuous out ↔ TablesOnce (pkts.map (·.2)) := by
  rw [tablesOnce_iff, (inputPackets_emits mpegCrc32 rfl h).continuous_iff]
  rfl

section Returns

theorem putPayload_left_le (e : Pes) (first : Bool) (p : TsPacket) (i dataLen n w : Nat)
    : (putPayload u e first p i dataLen n w).2.1 ≤ n := by
  unfold putPayload
  by_cases hhead : first ∧ i < tsPacketSize
  . simp only [if_pos hhead]
    split
    . simp only
      omega
    . apply Nat.sub_le
  . simp only [if_neg hhead]
    split
    . apply Nat.sub_le
    . apply Nat.le_refl

theorem writeTsPacket_left_le (e : Pes) (first : Bool) (cc : UInt8) (n w : Nat)
    : (writeTsPacket u e first cc n w).2.1 ≤ n := by
  unfold writeTsPacket
  simp only
  split
  . apply putPayload_left_le
  . apply putPayload_left_le

/--
The loop of `WritePes` ends for every packet.
-/
theorem writePes_isSome (m : MpegtsMux) (pkt : MediaPacket) : (m.writePes u pkt).isSome := by
  have hheader := length_header pkt
  have hpos : pkt.data.length + (pes pkt).header.length ≠ 0 := by omega
  have hle := writeTsPacket_left_le u (pes pkt) true
    (nextCc (if (pes pkt).isVideo then m.videoCc else m.audioCc))
    (pkt.data.length + (pes pkt).header.length) 0
  obtain ⟨ps, cc', contents, hloop, _⟩ := writePesLoop_first u (pes pkt) (by
    unfold tsDefDataLen
    omega) hpos hle rfl
  unfold MpegtsMux.writePes
  simp only [hloop]
  rfl

theorem writeFrames_isSome (frames : List MediaPacket) (m : MpegtsMuxState)
    : (m.writeFrames u frames).isSome := by
  induction frames generalizing m with
  | nil => rfl
  | cons frame frames ih =>
    obtain ⟨⟨ps, mux⟩, hps⟩ := Option.isSome_iff_exists.mp (writePes_isSome u m.toMpegtsMux frame)
    obtain ⟨out, hout⟩ := Option.isSome_iff_exists.mp (ih { m with toMpegtsMux := mux })
    unfold writeFrames
    simp only [hps, Option.bind_eq_bind, Option.bind_some, hout]
    rfl

/--
A packet whose handler does not look into its data.
-/
def Plain (pkt : AvPacket) : Prop :=
  pkt.avType = .video → pkt.codecType ≠ .h264 ∧ pkt.codecType ≠ .h265

theorem handlePacket_isSome {pkt : AvPacket} (hplain : Plain pkt) (m : MpegtsMuxState)
    : (m.handlePacket u pkt).isSome := by
  unfold handlePacket
  split
  . next hvideo =>
    obtain ⟨hh264, hh265⟩ := hplain hvideo
    unfold CodecState.handleVideo
    rw [if_neg hh264, if_neg hh265]
    by_cases hvp8 : pkt.codecType = .vp8
    . rw [if_pos hvp8]
      apply writeFrames_isSome
    . rw [if_neg hvp8]
      apply writeFrames_isSome
  . apply writeFrames_isSome
  . rfl

theorem handlePackets_isSome {pkts : List AvPacket} (hplain : ∀ pkt ∈ pkts, Plain pkt)
    (m : MpegtsMuxState) : (m.handlePackets u pkts).isSome := by
  induction pkts generalizing m with
  | nil => rfl
  | cons pkt pkts ih =>
    obtain ⟨hpkt, hplain⟩ := List.forall_mem_cons.mp hplain
    obtain ⟨⟨out, m'⟩, hout⟩ := Option.isSome_iff_exists.mp (handlePacket_isSome u hpkt m)
    obtain ⟨rest, hrest⟩ := Option.isSome_iff_exists.mp (ih hplain m')
    unfold handlePackets
    simp only [hout, Option.bind_eq_bind, Option.bind_some, hrest]
    rfl

theorem waitQueue_wait (m : MpegtsMuxState) (pkt : AvPacket)
    : (m.wait pkt).waitQueue = m.waitQueue ++ [pkt] := by
  unfold wait
  split
  . rfl
  . rfl
  . rfl

theorem inputPacket_isSome {m : MpegtsMuxState} {pkt : AvPacket} (hpkt : Plain pkt)
    (hqueue : ∀ other ∈ m.waitQueue, Plain other)
    : ∃ out m', m.inputPacket u mpegCrc32 pkt = some (out, m') ∧ ∀ other ∈ m'.waitQueue, Plain other := by
  have hall : ∀ other ∈ m.waitQueue ++ [pkt], Plain other := by
    intro other hother
    cases List.mem_append.mp hother with
    | inl hother => exact hqueue other hother
    | inr hother => exact List.mem_singleton.mp hother ▸ hpkt
  unfold inputPacket
  split
  . exact ⟨_, _, rfl, hqueue⟩
  . split
    . refine ⟨_, _, rfl, ?_⟩
      rw [waitQueue_wait]
      exact hall
    . have hhandled (tables : List (List UInt8)) (next : MpegtsMuxState) (hnext : next.waitQueue = [])
          : ∃ out m', (next.handlePackets u (m.waitQueue ++ [pkt]) >>= fun x => pure (tables ++ x.1, x.2))
              = some (out, m') ∧ ∀ other ∈ m'.waitQueue, Plain other := by
        obtain ⟨⟨out, m'⟩, hout⟩ := Option.isSome_iff_exists.mp (handlePackets_isSome u hall next)
        obtain ⟨_, _, _, hempty⟩ := handlePackets_emits u hout
        rw [hout]
        refine ⟨_, m', rfl, ?_⟩
        simp [hempty.trans hnext]
      by_cases hdue : ({ m with ready := true } : MpegtsMuxState).TablesDue pkt
      . simp only [if_pos hdue]
        apply hhandled
        rfl
      . simp only [if_neg hdue]
        apply hhandled
        rfl

/--
A run returns if no handler looks into the data.
-/
theorem inputPackets_isSome {pkts : List (Unwritten × AvPacket)} (hplain : ∀ pkt ∈ pkts, Plain pkt.2)
    {m : MpegtsMuxState} (hqueue : ∀ other ∈ m.waitQueue, Plain other)
    : (m.inputPackets mpegCrc32 pkts).isSome := by
  induction pkts generalizing m with
  | nil => rfl
  | cons pkt pkts ih =>
    obtain ⟨u, pkt⟩ := pkt
    obtain ⟨hpkt, hrest⟩ := List.forall_mem_cons.mp hplain
    obtain ⟨out, m', hout, hqueue'⟩ := inputPacket_isSome u mpegCrc32 hpkt hqueue
    obtain ⟨rest, hrest⟩ := Option.isSome_iff_exists.mp (ih hrest hqueue')
    unfold inputPackets
    simp only [hout, Option.bind_eq_bind, Option.bind_some, hrest]
    rfl

end Returns

/--
A frame and its sound, and two packets of sound behind them that do not wait any more.
-/
def sampleInput (dts : Int) : List (Unwritten × AvPacket) :=
  let sound : AvPacket := { avType := .audio, codecType := .opus, dts := 0, pts := 0, data := [1] }
  ([{ avType := .video, codecType := .vp8, dts := 0, pts := 0, isKeyFrame := true, data := [2, 3] },
    sound, sound, { sound with dts, pts := dts }] : List AvPacket).map (⟨fun _ => 0, fun _ => 0⟩, ·)

theorem sampleInput_returns (mpegCrc32 : List UInt8 → Nat) (dts : Int)
    : ∃ out m, ({} : MpegtsMuxState).inputPackets mpegCrc32 (sampleInput dts) = some (out, m) := by
  have hplain : ∀ pkt ∈ sampleInput dts, Plain pkt.2 := by
    simp [sampleInput, Plain]
  have hrun := inputPackets_isSome mpegCrc32 hplain (m := {}) (fun _ h => nomatch h)
  obtain ⟨⟨out, m⟩, h⟩ := Option.isSome_iff_exists.mp hrun
  exact ⟨out, m, h⟩

theorem inputPackets_continuous_sample
    : ∃ out m, ({} : MpegtsMuxState).inputPackets (fun _ => 0) (sampleInput 20) = some (out, m)
        ∧ Continuous out := by
  obtain ⟨out, m, h⟩ := sampleInput_returns (fun _ => 0) 20
  refine ⟨out, m, h, (inputPackets_continuous_iff true true _ _ h).mpr ?_⟩
  exact Or.inr (by decide)

theorem not_continuous
    : ¬∃ mpegCrc32 : List UInt8 → Nat,
        ∀ (pkts : List (Unwritten × AvPacket)) (out : List (List UInt8)) (m : MpegtsMuxState),
          ({} : MpegtsMuxState).inputPackets mpegCrc32 pkts = some (out, m) → Continuous out := by
  intro ⟨mpegCrc32, hall⟩
  obtain ⟨out, m, h⟩ := sampleInput_returns mpegCrc32 3000
  have hemits := inputPackets_emits _ rfl h
  have hcount : tableCount (-1) (written false false 0 ((sampleInput 3000).map (·.2))) = 2 := by decide
  have hle : tableCount (-1) (written false false 0 ((sampleInput 3000).map (·.2))) ≤ 1 :=
    hemits.continuous_iff.mp (hall _ out m h)
  omega

end MpegtsMuxState

end Emits

end MpegTs
