import CppStreamer.Format.MpegTs.Schedule
import CppStreamer.Format.MpegTs.Separation
import CppStreamer.Format.MpegTs.TimeStamps

/-!
This module contains the way of the frames of a whole run of `MpegtsMux::InputPacket` through `MpegtsDemux::Decode`:
what the sinkers get for the packets that are put out, in whatever buffers these arrive.
-/

namespace MpegTs

namespace MpegtsDemux

def syncByte : UInt8 := 0x47

def cutUnits : Nat → List UInt8 → List (List UInt8)
  | 0, _ => []
  | count + 1, data => data.take unitSize :: cutUnits count (data.drop unitSize)

/--
The units of a buffer. One without the sync byte is skipped, and behind one that is refused the rest is left out.
-/
def decodeLoop (d : MpegtsDemux) (ret : Int)
    : List (List UInt8) → Option (Int × MpegtsDemux × List (Nat × Option (List MediaPacket)))
  | [] => some (ret, d, [])
  | data :: units =>
    if data.head? ≠ some syncByte then d.decodeLoop ret units
    else do
      let decoded ← d.decodeUnit data
      let out := decoded.assembled.map (delivery d.streamPidVec)
      if decoded.ret < 0 then pure (decoded.ret, decoded.demux, out)
      else
        let (ret, d, out') ← decoded.demux.decodeLoop decoded.ret units
        pure (ret, d, out ++ out')

def decode (d : MpegtsDemux) (data : List UInt8)
    : Option (Int × MpegtsDemux × List (Nat × Option (List MediaPacket))) :=
  if data.length < unitSize ∨ data.length % unitSize ≠ 0 then some (-1, d, [])
  else d.decodeLoop (-1) (cutUnits (data.length / unitSize) data)

def decodeAll (d : MpegtsDemux) : List (List UInt8) → Option (MpegtsDemux × List (Nat × Option (List MediaPacket)))
  | [] => some (d, [])
  | data :: buffers => do
    let (_, d, out) ← d.decode data
    let (d, out') ← d.decodeAll buffers
    pure (d, out ++ out')

end MpegtsDemux

section Feeds

/--
Units that are taken one after the other, none of them skipped or refused, with what is handed on for them.
-/
inductive Feeds : MpegtsDemux → List (List UInt8) → List (Nat × Option (List MediaPacket)) → MpegtsDemux → Prop where
  | nil (d : MpegtsDemux) : Feeds d [] [] d
  | cons {d d' d'' : MpegtsDemux} {unit : List UInt8} {units : List (List UInt8)} {assembled : List Assembled}
    {out : List (Nat × Option (List MediaPacket))} (hlen : unit.length = unitSize)
    (hsync : unit.head? = some MpegtsDemux.syncByte) (hunit : d.decodeUnit unit = some ⟨0, d', assembled⟩)
    (hrest : Feeds d' units out d'')
    : Feeds d (unit :: units) (assembled.map (MpegtsDemux.delivery d.streamPidVec) ++ out) d''

theorem Feeds.append {d d' d'' : MpegtsDemux} {units units' : List (List UInt8)}
    {out out' : List (Nat × Option (List MediaPacket))} (h : Feeds d units out d') (h' : Feeds d' units' out' d'')
    : Feeds d (units ++ units') (out ++ out') d'' := by
  induction h with
  | nil => exact h'
  | cons hlen hsync hunit _ ih =>
    rw [List.cons_append, List.append_assoc]
    exact .cons hlen hsync hunit (ih h')

theorem Feeds.split {d d'' : MpegtsDemux} {units units' : List (List UInt8)}
    {out : List (Nat × Option (List MediaPacket))} (h : Feeds d (units ++ units') out d'')
    : ∃ d' out₁ out₂, Feeds d units out₁ d' ∧ Feeds d' units' out₂ d'' ∧ out = out₁ ++ out₂ := by
  induction units generalizing d out with
  | nil => exact ⟨d, [], out, .nil d, h, rfl⟩
  | cons unit units ih =>
    cases h with
    | cons hlen hsync hunit hrest =>
      obtain ⟨d', out₁, out₂, h₁, h₂, rfl⟩ := ih hrest
      refine ⟨d', _, out₂, .cons hlen hsync hunit h₁, h₂, ?_⟩
      rw [List.append_assoc]

theorem Feeds.length_flatten {d d' : MpegtsDemux} {units : List (List UInt8)}
    {out : List (Nat × Option (List MediaPacket))} (h : Feeds d units out d')
    : units.flatten.length = unitSize * units.length := by
  induction h with
  | nil => rfl
  | cons hlen _ _ _ ih =>
    rw [List.flatten_cons, List.length_append, ih, hlen, List.length_cons, Nat.mul_succ, Nat.add_comm]

theorem Feeds.cutUnits_flatten {d d' : MpegtsDemux} {units : List (List UInt8)}
    {out : List (Nat × Option (List MediaPacket))} (h : Feeds d units out d')
    : MpegtsDemux.cutUnits units.length units.flatten = units := by
  induction h with
  | nil => rfl
  | cons hlen _ _ _ ih =>
    rw [List.length_cons, List.flatten_cons, MpegtsDemux.cutUnits, List.take_left' hlen, List.drop_left' hlen, ih]

theorem Feeds.decodeLoop {d d' : MpegtsDemux} {units : List (List UInt8)}
    {out : List (Nat × Option (List MediaPacket))} (h : Feeds d units out d') (ret : Int)
    : d.decodeLoop ret units = some (if units = [] then ret else 0, d', out) := by
  induction h generalizing ret with
  | nil => rfl
  | cons _ hsync hunit _ ih =>
    rw [MpegtsDemux.decodeLoop, if_neg (not_not_intro hsync)]
    simp only [hunit, ih, Option.bind_eq_bind, Option.bind_some, Option.pure_def, reduceCtorEq, if_false]
    rw [if_neg (by decide), ite_self]

theorem Feeds.decode {d d' : MpegtsDemux} {units : List (List UInt8)}
    {out : List (Nat × Option (List MediaPacket))} (h : Feeds d units out d') (hne : units ≠ [])
    : d.decode units.flatten = some (0, d', out) := by
  have hpos : 0 < units.length := List.length_pos_iff.mpr hne
  have hlen := h.length_flatten
  unfold MpegtsDemux.decode
  rw [if_neg (by simp only [unitSize] at *; omega), hlen, Nat.mul_div_cancel_left _ (by decide), h.cutUnits_flatten,
    h.decodeLoop, if_neg hne]

/--
However the units are put together into buffers, they are read the same.
-/
theorem Feeds.decodeAll {d d' : MpegtsDemux} {units : List (List UInt8)}
    {out : List (Nat × Option (List MediaPacket))} (h : Feeds d units out d') {buffers : List (List UInt8)}
    (hflatten : buffers.flatten = units.flatten) (hbuffers : ∀ b ∈ buffers, b ≠ [] ∧ unitSize ∣ b.length)
    : d.decodeAll buffers = some (d', out) := by
  induction buffers generalizing d units out with
  | nil =>
    have hlen := h.length_flatten
    rw [← hflatten, List.flatten_nil, List.length_nil] at hlen
    obtain rfl : units = [] := by
      rw [← List.length_eq_zero_iff]
      simp only [unitSize] at hlen
      omega
    cases h with
    | nil => rfl
  | cons b buffers ih =>
    obtain ⟨hne, count, hcount⟩ := hbuffers b (List.mem_cons_self ..)
    have hlen := h.length_flatten
    have hle : count ≤ units.length := by
      have hall := congrArg List.length hflatten
      rw [List.flatten_cons, List.length_append, hcount, hlen] at hall
      simp only [unitSize] at hall
      omega
    have hsplit := h
    rw [← List.take_append_drop count units] at hsplit
    obtain ⟨d₁, out₁, out₂, h₁, h₂, rfl⟩ := hsplit.split
    have hfront : (units.take count).flatten.length = b.length := by
      rw [h₁.length_flatten, List.length_take, Nat.min_eq_left hle, hcount]
    rw [← List.take_append_drop count units, List.flatten_append, List.flatten_cons] at hflatten
    obtain ⟨rfl, hrest⟩ := List.append_inj hflatten hfront.symm
    have hunits : units.take count ≠ [] := by
      rintro hnil
      rw [hnil] at hne
      exact hne rfl
    rw [MpegtsDemux.decodeAll, h₁.decode hunits]
    simp only [Option.bind_eq_bind, Option.bind_some,
      ih h₂ hrest (fun b' hb' => hbuffers b' (List.mem_cons_of_mem _ hb')), Option.pure_def]

end Feeds

section Tables

variable (mpegCrc32 : List UInt8 → Nat)

theorem tsHeader_generatePat (m : MpegtsMux)
    : MpegtsDemux.tsHeader (m.generatePat mpegCrc32) = some ⟨true, 0, 1⟩ := rfl

theorem tsHeader_generatePmt (m : MpegtsMux)
    : MpegtsDemux.tsHeader (m.generatePmt mpegCrc32) = some ⟨true, pmtPid, 1⟩ := rfl

theorem length_stuffing {bytes : List UInt8} (h : bytes.length ≤ tsPacketSize)
    : (stuffing bytes).length = unitSize := by
  unfold stuffing
  rw [List.length_append, List.length_replicate, Nat.add_sub_cancel' h]
  rfl

theorem length_generatePat (m : MpegtsMux) : (m.generatePat mpegCrc32).length = unitSize := by
  apply length_stuffing
  simp [patSection, tsPacketSize]

theorem length_generatePmt (m : MpegtsMux) : (m.generatePmt mpegCrc32).length = unitSize := by
  have hlen := length_streamEntries_le m
  apply length_stuffing
  simp only [MpegtsMux.pmtSection, List.length_append, List.length_cons, List.length_nil, List.length_reverse,
    ByteStream.length_write2Bytes, ByteStream.length_write4Bytes, tsPacketSize]
  omega

theorem parsePat_patPidVec {d d' : MpegtsDemux} {data : List UInt8} {unitStart : Bool} {npos : Nat}
    {pids : List PidInfo} {assembled : List Assembled}
    (h : d.parsePat data unitStart npos = some ⟨0, { d with patPidVec := pids }, assembled⟩)
    : d'.parsePat data unitStart npos = some ⟨0, { d' with patPidVec := pids }, []⟩ := by
  unfold MpegtsDemux.parsePat at *
  simp only [Option.bind_eq_bind, Option.bind_eq_some_iff] at h ⊢
  obtain ⟨tableId, htable, fields, hfields, h⟩ := h
  refine ⟨tableId, htable, fields, hfields, ?_⟩
  split at h
  . cases h
  . split at h
    . cases h
    . rw [if_neg ‹_›, if_neg ‹_›]
      simp only [Option.bind_eq_some_iff, Option.pure_def, Option.some.injEq] at h ⊢
      obtain ⟨found, hfound, h⟩ := h
      cases h
      exact ⟨_, hfound, rfl⟩

theorem parsePmt_streamPidVec {d d' : MpegtsDemux} {data : List UInt8} {unitStart : Bool} {npos : Nat}
    {infos : List StreamPidInfo} {assembled : List Assembled}
    (h : d.parsePmt data unitStart npos = some ⟨0, { d with streamPidVec := infos }, assembled⟩)
    : d'.parsePmt data unitStart npos = some ⟨0, { d' with streamPidVec := infos }, []⟩ := by
  unfold MpegtsDemux.parsePmt at *
  simp only [Option.bind_eq_bind, Option.bind_eq_some_iff] at h ⊢
  obtain ⟨tableId, htable, fields, hfields, h⟩ := h
  refine ⟨tableId, htable, fields, hfields, ?_⟩
  split at h
  . cases h
  . rw [if_neg ‹_›]
    simp only [Option.bind_eq_some_iff, Option.pure_def, Option.some.injEq] at h ⊢
    obtain ⟨skipped, hskipped, found, hfound, h⟩ := h
    cases h
    exact ⟨_, hskipped, _, hfound, rfl⟩

theorem decodeUnit_pat (m : MpegtsMux) (d : MpegtsDemux)
    : d.decodeUnit (m.generatePat mpegCrc32) = some ⟨0, { d with patPidVec := decodedPat.patPidVec }, []⟩ := by
  have hfirst := decodeUnit_generatePat mpegCrc32 m
  unfold MpegtsDemux.decodeUnit at hfirst ⊢
  simp only [tsHeader_generatePat, Option.bind_eq_bind, Option.bind_some, Option.bind_eq_some_iff, true_or, if_true]
    at hfirst ⊢
  obtain ⟨npos, hnpos, hfirst⟩ := hfirst
  exact ⟨npos, hnpos, parsePat_patPidVec hfirst⟩

def TablePair.streams (t : TablePair) : List StreamPidInfo :=
  ((decodedPat.decodeUnit t.pmt).map fun decoded => decoded.demux.streamPidVec).getD []

def TablePair.Written (t : TablePair) : Prop :=
  ∃ m : MpegtsMux, t.pat = m.generatePat mpegCrc32 ∧ t.pmt = m.generatePmt mpegCrc32

variable {mpegCrc32 : List UInt8 → Nat} {t : TablePair}

theorem TablePair.Written.pat (h : t.Written mpegCrc32) (d : MpegtsDemux)
    : d.decodeUnit t.pat = some ⟨0, { d with patPidVec := decodedPat.patPidVec }, []⟩ := by
  obtain ⟨m, hpat, _⟩ := h
  rw [hpat]
  apply decodeUnit_pat

theorem TablePair.Written.streams (h : t.Written mpegCrc32)
    : ∃ m : MpegtsMux, t.streams.map (·.elementaryPid) = m.streams.map (·.2.1)
        ∧ ∀ d : MpegtsDemux, d.patPidVec = decodedPat.patPidVec →
          d.decodeUnit t.pmt = some ⟨0, { d with streamPidVec := t.streams }, []⟩ := by
  obtain ⟨m, _, hpmt⟩ := h
  obtain ⟨infos, hdecode, hinfos⟩ := decodeUnit_generatePmt mpegCrc32 m
  have hstreams : t.streams = infos := by
    unfold TablePair.streams
    rw [hpmt, hdecode]
    rfl
  refine ⟨m, ?_, ?_⟩
  . have hpids := congrArg (List.map Prod.snd) hinfos
    rw [List.map_map, List.map_map] at hpids
    rw [hstreams]
    exact hpids
  . intro d hd
    have hisPmt (d : MpegtsDemux) (hd : d.patPidVec = decodedPat.patPidVec) : d.isPmt pmtPid = true := by
      unfold MpegtsDemux.isPmt
      rw [hd]
      rfl
    rw [hstreams, hpmt]
    unfold MpegtsDemux.decodeUnit at hdecode ⊢
    simp only [tsHeader_generatePmt, Option.bind_eq_bind, Option.bind_some, Option.bind_eq_some_iff, true_or, if_true,
      hisPmt decodedPat rfl, hisPmt d hd] at hdecode ⊢
    obtain ⟨npos, hnpos, hdecode⟩ := hdecode
    refine ⟨npos, hnpos, ?_⟩
    rw [if_neg (by decide), if_neg (by decide)] at hdecode ⊢
    exact parsePmt_streamPidVec hdecode

end Tables

section Frames

/--
The PES of sound has no dts, the reader takes the pts for it.
-/
def readDts (frame : MediaPacket) : Int := if frame.avType = .video then frame.dts else frame.pts

def assembledOf (frame : MediaPacket) : Assembled where
  pid := (pes frame).pid
  dts := (readDts frame * 90).toNat
  pts := (frame.pts * 90).toNat
  data := frame.data

/--
A frame that the PES can carry: its first packet is filled, the times fit into an `int`, and there is no dts of 0 with
another pts.
-/
structure Passes (frame : MediaPacket) : Prop where
  data_ne : frame.data ≠ []
  filled : ¬TooShort frame
  dts_nonneg : 0 ≤ readDts frame
  pts_nonneg : 0 ≤ frame.pts
  dts_lt : readDts frame * 90 < 2 ^ 31
  pts_lt : frame.pts * 90 < 2 ^ 31
  dts_given : readDts frame = 0 → frame.pts = 0

variable {frame : MediaPacket}

theorem intTs_of_lt {ts : Int} (hpos : 0 ≤ ts) (hlt : ts < 2 ^ 31) : intTs ts.toNat = ts.toNat :=
  (intTs_eq_iff (by omega)).mpr (by omega)

theorem Passes.pesParse_header (h : Passes frame) (data : List UInt8) (npos : Nat)
    : ∃ dts pts, pesParse ((pes frame).header ++ data) npos
          = some { ret := (pes frame).header.length,
                   retData := some ((pes frame).header.length, retSize npos (pes frame).header.length),
                   dts := dts, pts := pts }
        ∧ (if dts = 0 then pts else dts) = (assembledOf frame).dts ∧ pts = (assembledOf frame).pts := by
  have hptsPos := h.pts_nonneg
  have hptsLt := h.pts_lt
  have hdtsPos := h.dts_nonneg
  have hdtsLt := h.dts_lt
  have hgiven := h.dts_given
  have hpts := @readTs_writeTs
    (if decide (frame.avType = .video) = true ∧ frame.dts * 90 ≠ frame.pts * 90 then 3 else 2)
    (frame.pts * 90) (by omega) (by omega)
  rw [intTs_of_lt (by omega) hptsLt] at hpts
  unfold readDts at hdtsPos hdtsLt hgiven
  unfold assembledOf readDts
  by_cases hvideo : frame.avType = .video
  . rw [if_pos hvideo] at hdtsPos hdtsLt hgiven
    have hdts := @readTs_writeTs 1 (frame.dts * 90) (by omega) (by omega)
    rw [intTs_of_lt (by omega) hdtsLt] at hdts
    refine ⟨_, _, pesParse_writePesHeader _ _ _ _ hpts hdts data npos, ?_, rfl⟩
    simp only [hvideo, decide_true, true_and, if_true]
    split
    . split
      . omega
      . rfl
    . rw [if_pos rfl]
      omega
  . obtain ⟨dts, hdts⟩ := readTs_of_length (length_writeTs 1 (frame.dts * 90))
    refine ⟨_, _, pesParse_writePesHeader _ _ _ _ hpts hdts data npos, ?_, rfl⟩
    simp only [hvideo, decide_false, Bool.false_eq_true, false_and, if_false, if_true]

theorem Passes.writePes (h : Passes frame) (u : Unwritten) (m : MpegtsMux)
    : ∃ p ps m' data contents, m.writePes u frame = some (p :: ps, m')
        ∧ Carries (pes frame) true p ((pes frame).header ++ data) ∧ data ≠ []
        ∧ List.Forall₂ (Carries (pes frame) false) ps contents ∧ data ++ contents.flatten = frame.data := by
  have hheader := length_header frame
  have hpos : 0 < frame.data.length := List.length_pos_iff.mpr h.data_ne
  have hsize : pesSize frame = frame.data.length + (pes frame).header.length := rfl
  have hfits : (pes frame).header.length < tsDefDataLen := by
    simp only [tsDefDataLen]
    omega
  obtain ⟨p, len, hturn, hlen, hle, hcarries⟩ := takes_of_not_tooShort u h.data_ne h.filled
    (nextCc (if (pes frame).isVideo then m.videoCc else m.audioCc))
  simp only [Pes.head, if_true] at hturn hle hcarries
  obtain ⟨ps, cc', contents, hloop, hps, hcontents⟩ :=
    writePesLoop_first u (pes frame) hfits (by omega) (Nat.sub_le _ _) hturn
  have hwrite : ∃ m', m.writePes u frame = some (p :: ps, m') := by
    unfold MpegtsMux.writePes
    simp only [pesSize] at hloop
    simp only [hloop, Option.map_some]
    exact ⟨_, rfl⟩
  obtain ⟨m', hwrite⟩ := hwrite
  refine ⟨p, ps, m', _, contents, hwrite, hcarries, ?_, hps, ?_⟩
  . rw [← List.length_pos_iff, length_readData]
    exact hlen
  . rw [hcontents, readData_append,
      show len + (pesSize frame - ((pes frame).header.length + len)) = frame.data.length by omega]
    apply readData_all

theorem Carries.sync {e : Pes} {first : Bool} {p : TsPacket} {content : List UInt8} (h : Carries e first p content)
    : p.bytes.head? = some MpegtsDemux.syncByte := by
  obtain ⟨control, field, _, hbytes⟩ := h.bytes
  rw [hbytes]
  rfl

end Frames

section Reader

namespace MpegtsDemux

/--
What a reader holds, with the pid and the times that it is handed on with.
-/
def held (d : MpegtsDemux) : Option Assembled :=
  if d.dataBufferVec = [] then none else some ⟨d.lastPid, d.lastDts, d.lastPts, d.buffered⟩

/--
The bytes are counted, and without bytes there are no buffers.
-/
structure Sound (d : MpegtsDemux) : Prop where
  total : d.dataTotal = d.buffered.length
  empty : d.buffered = [] → d.dataBufferVec = []

variable {d : MpegtsDemux}

theorem Sound.total_eq_zero_iff (h : d.Sound) : d.dataTotal = 0 ↔ d.dataBufferVec = [] := by
  rw [h.total, List.length_eq_zero_iff]
  refine ⟨h.empty, fun hnil => ?_⟩
  unfold buffered
  rw [hnil, List.flatten_nil]

theorem Sound.onCallback (h : d.Sound)
    : d.onCallback d.lastPid d.lastDts d.lastPts = ({ d with dataBufferVec := [], dataTotal := 0 }, d.held.toList) := by
  unfold MpegtsDemux.onCallback held
  by_cases hempty : d.dataBufferVec = []
  . have htotal := h.total_eq_zero_iff.mpr hempty
    rw [if_pos (Or.inr hempty), if_pos hempty, ← hempty, ← htotal]
    rfl
  . have hne : ¬(d.dataTotal = 0 ∨ d.dataBufferVec = []) := by
      rw [h.total_eq_zero_iff, or_self]
      exact hempty
    rw [if_neg hne, if_neg hempty]
    rfl

theorem buffered_insertIntoDatabuf (data : List UInt8) (pid : Nat)
    : (d.insertIntoDatabuf data pid).buffered = d.buffered ++ data := by
  unfold MpegtsDemux.insertIntoDatabuf buffered
  rw [List.flatten_append, List.flatten_singleton]

theorem Sound.insertIntoDatabuf (h : d.Sound) {data : List UInt8} (hne : d.buffered ++ data ≠ []) (pid : Nat)
    : (d.insertIntoDatabuf data pid).Sound where
  total := by
    rw [buffered_insertIntoDatabuf, List.length_append, ← h.total]
    rfl
  empty := by
    rw [buffered_insertIntoDatabuf]
    exact fun hempty => absurd hempty hne

theorem decodePes_start (h : d.Sound) (pid control : Nat) {unit header data : List UInt8} {npos : Nat}
    (hdrop : unit.drop npos = header ++ data) (hlen : npos + (header ++ data).length = unitSize)
    (hunit : unit.length = unitSize) (hdata : data ≠ []) {dts pts : Nat}
    (hparse : pesParse (header ++ data) npos
      = some { ret := header.length, retData := some (header.length, retSize npos header.length),
               dts := dts, pts := pts })
    : ∃ d', d.decodePes ⟨true, pid, control⟩ unit npos = some ⟨0, d', d.held.toList⟩ ∧ d'.Sound
        ∧ d'.patPidVec = d.patPidVec ∧ d'.streamPidVec = d.streamPidVec
        ∧ d'.held = some ⟨pid, if dts = 0 then pts else dts, pts, data⟩ := by
  rw [List.length_append] at hlen
  have hsize : retSize npos header.length = data.length := by
    unfold retSize
    simp only [unitSize] at *
    omega
  have hread : readRange unit (npos + header.length) data.length = some data := by
    unfold readRange
    rw [if_pos (by omega), ← List.drop_drop, hdrop, List.drop_left, List.take_length]
  unfold MpegtsDemux.decodePes
  simp only [if_true, h.onCallback, hdrop, hparse, Option.bind_eq_bind, Option.bind_some,
    if_neg (show ¬unitSize < header.length by omega), hsize]
  rw [if_pos (List.length_pos_iff.mpr hdata), hread]
  have hempty : ({ d with
      dataBufferVec := [], dataTotal := 0, lastPts := pts, lastDts := if dts = 0 then pts else dts }
      : MpegtsDemux).Sound :=
    ⟨rfl, fun _ => rfl⟩
  refine ⟨_, rfl, hempty.insertIntoDatabuf hdata pid, rfl, rfl, ?_⟩
  unfold held MpegtsDemux.insertIntoDatabuf buffered
  simp

theorem Sound.insert_held (h : d.Sound) {a : Assembled} (ha : d.held = some a) (data : List UInt8)
    : (d.insertIntoDatabuf data a.pid).Sound
        ∧ (d.insertIntoDatabuf data a.pid).held = some { a with data := a.data ++ data } := by
  unfold held at ha
  split at ha
  . cases ha
  . next hne =>
    cases ha
    refine ⟨h.insertIntoDatabuf ?_ _, ?_⟩
    . exact fun hempty => hne (h.empty (List.append_eq_nil_iff.mp hempty).left)
    . unfold held
      rw [buffered_insertIntoDatabuf]
      unfold MpegtsDemux.insertIntoDatabuf
      simp

end MpegtsDemux

/--
A reader of some tables, which holds the bytes of a frame.
-/
structure KeepsUp (mpegCrc32 : List UInt8 → Nat) (latest : Option TablePair) (held : Option Assembled)
    (d : MpegtsDemux) : Prop where
  sound : d.Sound
  held_eq : d.held = held
  written : ∀ t ∈ latest, t.Written mpegCrc32
  pat : ∀ t ∈ latest, d.patPidVec = decodedPat.patPidVec
  pmt : ∀ t ∈ latest, d.streamPidVec = t.streams

variable {mpegCrc32 : List UInt8 → Nat} {latest : Option TablePair} {t : TablePair} {held : Option Assembled}
variable {d : MpegtsDemux}

theorem keepsUp_init : KeepsUp mpegCrc32 none none {} where
  sound := ⟨rfl, fun _ => rfl⟩
  held_eq := rfl
  written t ht := absurd ht (Option.not_mem_none t)
  pat t ht := absurd ht (Option.not_mem_none t)
  pmt t ht := absurd ht (Option.not_mem_none t)

theorem KeepsUp.listens (h : KeepsUp mpegCrc32 (some t) held d) : ∃ m, d.Listens m := by
  obtain ⟨m, hpids, _⟩ := (h.written t rfl).streams
  refine ⟨m, h.pat t rfl, ?_, h.sound.total⟩
  rw [h.pmt t rfl]
  exact hpids

theorem TablePair.Lists.pid_mem (h : t.Lists frame) : (pes frame).pid ∈ t.streams.map (·.elementaryPid) := by
  obtain ⟨_, infos, hdecode, hmem⟩ := h
  unfold TablePair.streams
  rw [hdecode]
  obtain ⟨info, hinfo, heq⟩ := List.mem_map.mp hmem
  exact List.mem_map.mpr ⟨info, hinfo, (Prod.mk.inj heq).right⟩

theorem KeepsUp.tables (h : KeepsUp mpegCrc32 latest held d) (ht : t.Written mpegCrc32)
    : ∃ d', Feeds d [t.pat, t.pmt] [] d' ∧ KeepsUp mpegCrc32 (some t) held d' := by
  obtain ⟨m, _, hpmt⟩ := ht.streams
  have hfirst := ht.pat d
  have hsecond := hpmt { d with patPidVec := decodedPat.patPidVec } rfl
  obtain ⟨m', hpatBytes, hpmtBytes⟩ := ht
  refine ⟨_, .cons ?_ ?_ hfirst (.cons ?_ ?_ hsecond (.nil _)), ?_⟩
  . rw [hpatBytes]
    apply length_generatePat
  . rw [hpatBytes]
    rfl
  . rw [hpmtBytes]
    apply length_generatePmt
  . rw [hpmtBytes]
    rfl
  . refine ⟨⟨h.sound.total, h.sound.empty⟩, h.held_eq, ?_, ?_, ?_⟩
    . rintro _ ⟨⟩
      exact ⟨m', hpatBytes, hpmtBytes⟩
    . rintro _ ⟨⟩
      rfl
    . rintro _ ⟨⟩
      rfl

theorem KeepsUp.continues {a : Assembled} (h : KeepsUp mpegCrc32 (some t) (some a) d) (ha : a.pid = (pes frame).pid)
    (hmem : (pes frame).pid ∈ t.streams.map (·.elementaryPid)) {ps : List TsPacket} {contents : List (List UInt8)}
    (hps : List.Forall₂ (Carries (pes frame) false) ps contents)
    : ∃ d', Feeds d (ps.map (·.bytes)) [] d'
        ∧ KeepsUp mpegCrc32 (some t) (some { a with data := a.data ++ contents.flatten }) d' := by
  induction hps generalizing d a with
  | nil =>
    refine ⟨d, .nil d, ?_⟩
    rw [List.flatten_nil, List.append_nil]
    exact h
  | @cons p content ps contents hp _ ih =>
    obtain ⟨m, hlistens⟩ := h.listens
    have hpids := hlistens.pids
    rw [h.pmt t rfl] at hpids
    obtain ⟨control, npos, hdrop, hlen, _, _, hstep⟩ := decodeUnit_isUnit hlistens (hpids ▸ hmem) hp.isUnit
    have hdecode := hstep _ (decodePes_rest d (pes frame).pid control hdrop hlen hp.length) (Or.inl rfl)
    obtain ⟨hsound, hheld⟩ := h.sound.insert_held h.held_eq content
    rw [← ha] at hdecode
    obtain ⟨d', hfeeds, hkeeps⟩ := ih (a := { a with data := a.data ++ content })
      ⟨hsound, hheld, h.written, h.pat, h.pmt⟩ ha
    refine ⟨d', .cons hp.length hp.sync hdecode hfeeds, ?_⟩
    rw [List.flatten_cons, ← List.append_assoc]
    exact hkeeps

/--
When a PES comes, what the reader held is handed on under the tables that it knows by then.
-/
theorem KeepsUp.pes (h : KeepsUp mpegCrc32 (some t) held d) (hlists : t.Lists frame) (hpasses : Passes frame)
    {u : Unwritten} {m m' : MpegtsMux} {ps : List TsPacket} (hwrite : m.writePes u frame = some (ps, m'))
    : ∃ d', Feeds d (ps.map (·.bytes)) (held.toList.map (MpegtsDemux.delivery t.streams)) d'
        ∧ KeepsUp mpegCrc32 (some t) (some (assembledOf frame)) d' := by
  obtain ⟨p, rest, _, data, contents, hwrite', hp, hdata, hrest, hall⟩ := hpasses.writePes u m
  rw [hwrite] at hwrite'
  cases hwrite'
  obtain ⟨m, hlistens⟩ := h.listens
  have hpids := hlistens.pids
  rw [h.pmt t rfl] at hpids
  obtain ⟨control, npos, hdrop, hlen, _, _, hstep⟩ := decodeUnit_isUnit hlistens (hpids ▸ hlists.pid_mem) hp.isUnit
  obtain ⟨dts, pts, hparse, hdts, hpts⟩ := hpasses.pesParse_header data npos
  obtain ⟨d₁, hstart, hsound, hpat, hpmt, hheld⟩ :=
    MpegtsDemux.decodePes_start h.sound (MpegTs.pes frame).pid control hdrop hlen hp.length hdata hparse
  have hkeeps : KeepsUp mpegCrc32 (some t) (some { assembledOf frame with data := data }) d₁ := by
    refine ⟨hsound, ?_, h.written, fun t ht => hpat.trans (h.pat t ht), fun t ht => hpmt.trans (h.pmt t ht)⟩
    rw [hheld, hdts, hpts]
    rfl
  obtain ⟨d', hfeeds, hkeeps'⟩ := hkeeps.continues rfl hlists.pid_mem hrest
  have hout : held.toList.map (MpegtsDemux.delivery t.streams)
      = d.held.toList.map (MpegtsDemux.delivery d.streamPidVec) ++ [] := by
    rw [List.append_nil, h.held_eq, h.pmt t rfl]
  refine ⟨d', hout ▸ .cons hp.length hp.sync (hstep _ hstart (Or.inl rfl)) hfeeds, ?_⟩
  rw [hall] at hkeeps'
  exact hkeeps'

end Reader

end MpegTs
