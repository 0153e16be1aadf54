import CppStreamer.Format.MpegTs.RoundTrip

/-!
This module contains the round trip of time stamps through `WritePesHeader` and `DecodeUnit`.
-/

open ByteStream

namespace MpegTs

/--
What an `int` keeps of a time stamp, widened to 64 bits.
-/
def intTs (ts : Nat) : Nat :=
  if ts % 2 ^ 32 < 2 ^ 31 then ts % 2 ^ 32 else ts % 2 ^ 32 + (2 ^ 64 - 2 ^ 32)

theorem sum_fields (flag n : Nat)
    : (flag * 16 + n / 2 ^ 30 % 8 * 2 + 1) % 2 ^ 8 / 2 % 8 * 2 ^ 30 % 2 ^ 32
        + (n / 2 ^ 15 % 2 ^ 15 * 2 + 1) / 256 ^ 1 % 256 * 2 ^ 22
        + (n / 2 ^ 15 % 2 ^ 15 * 2 + 1) / 256 ^ 0 % 256 / 2 % 2 ^ 7 * 2 ^ 15
        + (n % 2 ^ 15 * 2 + 1) / 256 ^ 1 % 256 * 2 ^ 7 + (n % 2 ^ 15 * 2 + 1) / 256 ^ 0 % 256 / 2 % 2 ^ 7
      = n % 2 ^ 32 := by
  have hlow : (n % 2 ^ 15 * 2 + 1) / 256 ^ 1 % 256 * 2 ^ 7
      + (n % 2 ^ 15 * 2 + 1) / 256 ^ 0 % 256 / 2 % 2 ^ 7 = n % 2 ^ 15 := by omega
  have hmiddle : (n / 2 ^ 15 % 2 ^ 15 * 2 + 1) / 256 ^ 1 % 256 * 2 ^ 22
      + (n / 2 ^ 15 % 2 ^ 15 * 2 + 1) / 256 ^ 0 % 256 / 2 % 2 ^ 7 * 2 ^ 15
      = n / 2 ^ 15 % 2 ^ 15 * 2 ^ 15 := by omega
  have hhigh : (flag * 16 + n / 2 ^ 30 % 8 * 2 + 1) % 2 ^ 8 / 2 % 8 * 2 ^ 30 % 2 ^ 32
      = n / 2 ^ 30 % 4 * 2 ^ 30 := by omega
  omega

theorem readTs_writeTs (flag : Nat) {ts : Int} (hpos : 0 ≤ ts) (hts : ts < 2 ^ 33)
    : readTs (writeTs flag ts) 0 = some (intTs ts.toNat) := by
  have hcut : ¬0x1ffffffff < ts := by omega
  obtain ⟨n, hn⟩ := Int.eq_ofNat_of_zero_le hpos
  subst hn
  have hhigh : ((n : Int) / 2 ^ 30 % 8).toNat = n / 2 ^ 30 % 8 := by omega
  have hmiddle : ((n : Int) / 2 ^ 15 % 2 ^ 15).toNat = n / 2 ^ 15 % 2 ^ 15 := by omega
  have hlow : ((n : Int) % 2 ^ 15).toNat = n % 2 ^ 15 := by omega
  unfold writeTs readTs intTs
  simp only [if_neg hcut, hhigh, hmiddle, hlow, write2Bytes, List.cons_append, List.nil_append,
    readByte_cons_zero, readByte_cons_succ, Option.bind_eq_bind, Option.bind_some, byteAt_toNat,
    UInt8.toNat_ofNat', sum_fields, Int.toNat_natCast, Option.pure_def]

theorem intTs_eq_iff {ts : Nat} (hts : ts < 2 ^ 33) : intTs ts = ts ↔ ts < 2 ^ 31 := by
  unfold intTs
  split <;> omega

/--
The units of a video PES, with the ticks that `WritePesHeader` is given and the data behind the header.
-/
structure VideoPes where
  dataSize : Nat
  dts : Int
  pts : Int
  data : List UInt8
  first : List UInt8
  rest : List (List UInt8)
  ticks : 0 ≤ dts ∧ dts ≤ pts ∧ pts < 2 ^ 33
  starts : IsUnit videoPid true first (writePesHeader dataSize true dts pts ++ data)
  continues : ∃ contents, List.Forall₂ (IsUnit videoPid false) rest contents

namespace MpegtsDemux

/--
For each PES, the pts that `PesParse` recovers, and the dts that `OnCallback` is called with when the
next unit starts a PES.
-/
def decodeTimes : MpegtsDemux → List VideoPes → Option (List (Nat × Nat))
  | _, [] => some []
  | d, p :: ps => do
    let h ← tsHeader p.first
    let npos ← adaptationEnd p.first h.adaptationFieldControl 4
    let info ← pesParse (p.first.drop npos) npos
    let (_, d) ← decodeUnits d (p.first :: p.rest)
    let times ← d.decodeTimes ps
    pure ((info.pts, d.lastDts) :: times)

def TimesRoundTrip (d : MpegtsDemux) (ps : List VideoPes) : Prop :=
  ∃ times, d.decodeTimes ps = some times
    ∧ times.map (fun t => ((t.1 : Int), (t.2 : Int))) = ps.map fun p => (p.pts, p.dts)

end MpegtsDemux

section Times

variable (p : VideoPes)

/--
The times that a reader gets of a PES.
-/
def VideoPes.readTimes : Nat × Nat :=
  let pts := intTs p.pts.toNat
  let dts := if p.dts ≠ p.pts then intTs p.dts.toNat else 0
  (pts, if dts = 0 then pts else dts)

theorem VideoPes.readTimes_eq_iff
    : ((p.readTimes.1 : Int), (p.readTimes.2 : Int)) = (p.pts, p.dts)
        ↔ p.pts < 2 ^ 31 ∧ (p.dts = 0 → p.pts = 0) := by
  obtain ⟨hpos, hle, hlt⟩ := p.ticks
  have hpts : intTs p.pts.toNat = p.pts.toNat ↔ p.pts.toNat < 2 ^ 31 := intTs_eq_iff (by omega)
  have hdts : intTs p.dts.toNat = p.dts.toNat ↔ p.dts.toNat < 2 ^ 31 := intTs_eq_iff (by omega)
  rw [Prod.mk.injEq]
  simp only [VideoPes.readTimes]
  constructor
  . intro ⟨hfst, hsnd⟩
    have hsmall : p.pts.toNat < 2 ^ 31 := hpts.mp (by omega)
    refine ⟨by omega, ?_⟩
    intro hzero
    by_cases heq : p.dts = p.pts
    . omega
    . have : intTs p.dts.toNat = p.dts.toNat := hdts.mpr (by omega)
      rw [if_pos heq, if_pos (by omega)] at hsnd
      omega
  . intro ⟨hsmall, hzero⟩
    have hfst : intTs p.pts.toNat = p.pts.toNat := hpts.mpr (by omega)
    have hsnd : intTs p.dts.toNat = p.dts.toNat := hdts.mpr (by omega)
    refine ⟨by omega, ?_⟩
    by_cases heq : p.dts = p.pts
    . simp only [heq, ne_eq, not_true_eq_false, if_false, if_true]
      omega
    . rw [if_pos heq, if_neg (by omega)]
      omega

theorem pesParse_videoPes (npos : Nat)
    : let len := (writePesHeader p.dataSize true p.dts p.pts).length
      pesParse (writePesHeader p.dataSize true p.dts p.pts ++ p.data) npos
        = some { ret := len, retData := some (len, retSize npos len),
                 dts := if p.dts ≠ p.pts then intTs p.dts.toNat else 0, pts := p.readTimes.1 } := by
  obtain ⟨hpos, hle, hlt⟩ := p.ticks
  have hpts := readTs_writeTs (if true = true ∧ p.dts ≠ p.pts then 3 else 2) (by omega) hlt
  have hdts := readTs_writeTs 1 hpos (by omega)
  rw [pesParse_writePesHeader _ _ _ _ hpts hdts]
  simp [VideoPes.readTimes]

theorem decodeUnits_videoPes {m : MpegtsMux} {d : MpegtsDemux} (hd : d.Listens m)
    (hvideo : m.hasVideo = true)
    : ∃ control npos info assembled d', MpegtsDemux.tsHeader p.first = some ⟨true, videoPid, control⟩
        ∧ adaptationEnd p.first control 4 = some npos
        ∧ pesParse (p.first.drop npos) npos = some info ∧ info.pts = p.readTimes.1
        ∧ MpegtsDemux.decodeUnits d (p.first :: p.rest) = some (assembled, d') ∧ d'.Listens m
        ∧ d'.lastDts = p.readTimes.2 := by
  have hmem : videoPid ∈ m.streams.map (·.2.1) := by simp [MpegtsMux.streams, hvideo]
  obtain ⟨control, npos, hdrop, hlen, hheader, hend, hstep⟩ := decodeUnit_isUnit hd hmem p.starts
  have hparse := pesParse_videoPes p npos
  obtain ⟨d1, assembled, hdecode, hd1, _, _, hdts, _⟩ :=
    decodePes_parsed hd videoPid control hdrop hlen p.starts.length hparse
  obtain ⟨contents, hrest⟩ := p.continues
  obtain ⟨d2, hrun, hd2, _, hdts', _⟩ := decodeUnits_rest hmem hrest d1 hd1
  refine ⟨control, npos, _, assembled, d2, hheader, hend, by rw [hdrop, hparse], rfl, ?_, hd2, ?_⟩
  . rw [MpegtsDemux.decodeUnits, hstep _ hdecode (Or.inl rfl)]
    simp [hrun]
  . rw [hdts', hdts]
    rfl

theorem decodeTimes_eq {m : MpegtsMux} (hvideo : m.hasVideo = true) (ps : List VideoPes)
    : ∀ d : MpegtsDemux, d.Listens m → d.decodeTimes ps = some (ps.map (·.readTimes)) := by
  induction ps with
  | nil =>
    intro d _
    rfl
  | cons p ps ih =>
    intro d hd
    obtain ⟨control, npos, info, assembled, d', hheader, hend, hparse, hpts, hrun, hd', hdts⟩ :=
      decodeUnits_videoPes p hd hvideo
    unfold MpegtsDemux.decodeTimes
    simp [hheader, hend, hparse, hpts, hrun, ih d' hd', hdts]

/--
A time stamp arrives as it is written if and only if it fits into an `int`, and it is not a dts of 0 with
another pts, which the reader takes for a missing one.
-/
theorem MpegtsDemux.timesRoundTrip_iff {m : MpegtsMux} {d : MpegtsDemux} (hd : d.Listens m)
    (hvideo : m.hasVideo = true) (ps : List VideoPes)
    : d.TimesRoundTrip ps ↔ ∀ p ∈ ps, p.pts < 2 ^ 31 ∧ (p.dts = 0 → p.pts = 0) := by
  unfold MpegtsDemux.TimesRoundTrip
  simp only [decodeTimes_eq hvideo ps d hd, Option.some.injEq, exists_eq_left', List.map_map,
    List.map_inj_left, Function.comp_apply, VideoPes.readTimes_eq_iff]

theorem sampleUnit_starts (dts pts : Int)
    : IsUnit videoPid true
        ([0x47, 0x41, 0x00, 0x10] ++ (writePesHeader 165 true dts pts
          ++ List.replicate (184 - (writePesHeader 165 true dts pts).length) 0xab))
        (writePesHeader 165 true dts pts ++ List.replicate (184 - (writePesHeader 165 true dts pts).length) 0xab) where
  length := by
    have hheader : (writePesHeader 165 true dts pts).length ≤ 184 := by
      rw [length_writePesHeader]
      split <;> omega
    simp only [List.length_append, List.length_cons, List.length_nil, List.length_replicate, unitSize]
    omega
  parts := ⟨1, 4, rfl, Or.inl rfl, rfl, by decide, rfl⟩

/--
A PES in one unit.
-/
def sampleVideoPes (dts pts : Int) (h : 0 ≤ dts ∧ dts ≤ pts ∧ pts < 2 ^ 33) : VideoPes :=
  let header := writePesHeader 165 true dts pts
  let data := List.replicate (184 - header.length) 0xab
  { dataSize := 165, dts, pts, data, rest := [], ticks := h, continues := ⟨[], .nil⟩
    first := [0x47, 0x41, 0x00, 0x10] ++ (header ++ data)
    starts := sampleUnit_starts dts pts }

def sampleDemux : MpegtsDemux :=
  { decodedPat with streamPidVec := [⟨0x1b, videoPid, 0, []⟩, ⟨0x0f, audioPid, 0, []⟩] }

theorem sampleDemux_listens : sampleDemux.Listens {} := ⟨rfl, rfl, rfl⟩

theorem MpegtsDemux.timesRoundTrip_sample
    : sampleDemux.TimesRoundTrip
        [sampleVideoPes 3600 7200 (by omega), sampleVideoPes 7200 7200 (by omega)] :=
  (MpegtsDemux.timesRoundTrip_iff sampleDemux_listens rfl _).mpr (by simp [sampleVideoPes])

/--
The first frame of a stream with reordered frames.
-/
theorem MpegtsDemux.not_timesRoundTrip
    : ¬sampleDemux.TimesRoundTrip [sampleVideoPes 0 3600 (by omega)] := by
  rintro ⟨times, hdecode, htimes⟩
  rw [decodeTimes_eq rfl _ _ sampleDemux_listens] at hdecode
  cases hdecode
  revert htimes
  decide

end Times

end MpegTs
