import Mathlib.Data.List.Forall2
import CppStreamer.Format.MpegTs.PesPackets
import CppStreamer.Format.MpegTs.Tables

/-!
This module contains the round trip of payloads through `WritePes` and `DecodeUnit`.
-/

open ByteStream

namespace MpegTs

section Parse

/--
What `pesParse` makes of a header of the given size.
-/
def Parsed (p : List UInt8) (npos headerLen : Nat) : Prop :=
  ∃ dts pts, pesParse p npos
    = some { ret := headerLen, retData := some (headerLen, retSize npos headerLen), dts := dts, pts := pts }

theorem readTs_of_length {ts : List UInt8} (h : ts.length = 5) : ∃ t, readTs ts 0 = some t := by
  match ts, h with
  | [t0, t1, t2, t3, t4], _ => exact ⟨_, rfl⟩

section

variable {streamId : UInt8} (hid : streamId = 0xe0 ∨ streamId = 0xc0) (b4 b5 b8 : UInt8)
variable (data : List UInt8) (npos : Nat)
include hid

theorem pesParse_pts {pts : List UInt8} (hpts : pts.length = 5) {t : Nat} (ht : readTs pts 0 = some t)
    : pesParse (0 :: 0 :: 1 :: streamId :: b4 :: b5 :: 0x80 :: 0x80 :: b8 :: (pts ++ data)) npos
        = some { ret := 14, retData := some (14, retSize npos 14), pts := t } := by
  match pts, hpts with
  | [t0, t1, t2, t3, t4], _ =>
    have ht' : readTs (0 :: 0 :: 1 :: streamId :: b4 :: b5 :: 0x80 :: 0x80 :: b8
        :: ([t0, t1, t2, t3, t4] ++ data)) 9 = some t := ht
    unfold pesParse
    rw [ht']
    cases hid with
    | inl hid =>
      subst hid
      simp [read3Bytes, plainStreamIds, skipIf, testBit]
    | inr hid =>
      subst hid
      simp [read3Bytes, plainStreamIds, skipIf, testBit]

theorem pesParse_ptsDts {pts dts : List UInt8} (hpts : pts.length = 5) (hdts : dts.length = 5)
    {t t' : Nat} (ht : readTs pts 0 = some t) (ht' : readTs dts 0 = some t')
    : pesParse (0 :: 0 :: 1 :: streamId :: b4 :: b5 :: 0x80 :: 0xc0 :: b8 :: (pts ++ (dts ++ data))) npos
        = some { ret := 19, retData := some (19, retSize npos 19), dts := t', pts := t } := by
  match pts, dts, hpts, hdts with
  | [t0, t1, t2, t3, t4], [t5, t6, t7, t8, t9], _, _ =>
    have hfirst : readTs (0 :: 0 :: 1 :: streamId :: b4 :: b5 :: 0x80 :: 0xc0 :: b8
        :: ([t0, t1, t2, t3, t4] ++ ([t5, t6, t7, t8, t9] ++ data))) 9 = some t := ht
    have hsecond : readTs (0 :: 0 :: 1 :: streamId :: b4 :: b5 :: 0x80 :: 0xc0 :: b8
        :: ([t0, t1, t2, t3, t4] ++ ([t5, t6, t7, t8, t9] ++ data))) 14 = some t' := ht'
    unfold pesParse
    rw [hfirst, hsecond]
    cases hid with
    | inl hid =>
      subst hid
      simp [read3Bytes, plainStreamIds, skipIf, testBit]
    | inr hid =>
      subst hid
      simp [read3Bytes, plainStreamIds, skipIf, testBit]

end

theorem pesParse_writePesHeader (dataSize : Nat) (isVideo : Bool) (dts pts : Int) {t t' : Nat}
    (ht : readTs (writeTs (if isVideo ∧ dts ≠ pts then 3 else 2) pts) 0 = some t)
    (ht' : readTs (writeTs 1 dts) 0 = some t') (data : List UInt8) (npos : Nat)
    : pesParse (writePesHeader dataSize isVideo dts pts ++ data) npos
        = let len := (writePesHeader dataSize isVideo dts pts).length
          some { ret := len, retData := some (len, retSize npos len),
                 dts := if isVideo ∧ dts ≠ pts then t' else 0, pts := t } := by
  simp only [length_writePesHeader]
  unfold writePesHeader
  by_cases hboth : isVideo ∧ dts ≠ pts
  . simp only [if_pos hboth, if_pos hboth.left, List.append_assoc] at ht ⊢
    exact pesParse_ptsDts (Or.inl rfl) _ _ _ _ _ (length_writeTs 3 _) (length_writeTs 1 _) ht ht'
  . simp only [if_neg hboth, List.append_assoc] at ht ⊢
    refine pesParse_pts ?_ _ _ _ _ _ (length_writeTs 2 _) ht
    split
    . exact Or.inl rfl
    . exact Or.inr rfl

theorem parsed_header (pkt : MediaPacket) (data : List UInt8) (npos : Nat)
    : Parsed ((pes pkt).header ++ data) npos (pes pkt).header.length := by
  obtain ⟨t, ht⟩ := readTs_of_length (length_writeTs (if decide (pkt.avType = .video) = true
    ∧ pkt.dts * 90 ≠ pkt.pts * 90 then 3 else 2) (pkt.pts * 90))
  obtain ⟨t', ht'⟩ := readTs_of_length (length_writeTs 1 (pkt.dts * 90))
  exact ⟨_, _, pesParse_writePesHeader _ _ _ _ ht ht' data npos⟩

theorem pesParse_spoiled {content : List UInt8} (hlen : 6 ≤ content.length)
    (h : read3Bytes content ≠ 1) (npos : Nat)
    : pesParse content npos = some { ret := 255 } := by
  match content, hlen with
  | b0 :: b1 :: b2 :: b3 :: b4 :: b5 :: rest, _ =>
    have h' : read3Bytes [b0, b1, b2, b3, b4, b5] ≠ 1 := h
    unfold pesParse
    simp [h']

end Parse

section Adaptation

theorem plainControl_field (cc : UInt8) : (plainControl cc).toNat / 16 % 4 = 1 := by
  revert cc
  apply forall_of_bitVec
  decide

theorem adaptationControl_field (cc : UInt8) : (adaptationControl cc).toNat / 16 % 4 = 3 := by
  revert cc
  apply forall_of_bitVec
  decide

theorem adaptationEnd_field {data : List UInt8} {len flags : Nat} (hlen : readByte data 4 = some len)
    (hflags : 0 < len → readByte data 5 = some flags)
    (hprivate : testBit flags 1 = false) (hextension : testBit flags 0 = false)
    : adaptationEnd data 3 4 = some (4 + 1 + len) := by
  unfold adaptationEnd adaptationFields
  by_cases hpos : 0 < len
  . simp [hlen, hflags hpos, hprivate, hextension]
  . simp [hlen, hpos]

theorem adaptationEnd_carries {control : UInt8} {field : List UInt8} (h : IsAdaptation control field)
    {header : List UInt8} (hheader : header.length = 4) (content : List UInt8)
    : (control.toNat / 16 % 4 = 1 ∨ control.toNat / 16 % 4 = 3)
        ∧ adaptationEnd (header ++ (field ++ content)) (control.toNat / 16 % 4) 4
          = some (4 + field.length) := by
  have hread : ∀ i, readByte (header ++ (field ++ content)) (4 + i) = readByte (field ++ content) i := by
    rw [← hheader]
    apply readByte_append
  cases h with
  | none cc =>
    rw [plainControl_field]
    exact ⟨Or.inl rfl, rfl⟩
  | pcr cc e =>
    rw [adaptationControl_field]
    refine ⟨Or.inr rfl, ?_⟩
    rw [adaptationEnd_field (hread 0) (fun _ => hread 1)]
    . rfl
    . decide
    . decide
  | fill cc hpos hlen =>
    rename_i n
    rw [adaptationControl_field]
    refine ⟨Or.inr rfl, ?_⟩
    have hlen' : n ≤ 184 := hlen
    have hbyte : (UInt8.ofNat (n + 255)).toNat = n - 1 := by
      rw [UInt8.toNat_ofNat']
      omega
    have hfirst : readByte (header ++ (adaptation n ++ content)) 4 = some (n - 1) := by
      rw [hread 0, adaptation, if_neg hpos, List.cons_append, readByte_cons_zero, hbyte]
    have hsecond : 0 < n - 1 → readByte (header ++ (adaptation n ++ content)) 5 = some 0 := by
      intro h1
      rw [hread 1, adaptation, if_neg hpos, if_neg (by omega)]
      rfl
    rw [adaptationEnd_field hfirst hsecond (by decide) (by decide), length_adaptation]
    congr 1
    omega

end Adaptation

namespace MpegtsDemux

def buffered (d : MpegtsDemux) : List UInt8 := d.dataBufferVec.flatten

/--
The buffers that are handed on when a PES starts.
-/
def pending (d : MpegtsDemux) : List (List UInt8) := if d.buffered = [] then [] else [d.buffered]

/--
The reader knows the tables of a writer and counts what it holds.
-/
structure Listens (m : MpegtsMux) (d : MpegtsDemux) : Prop where
  pat : d.patPidVec = decodedPat.patPidVec
  pids : d.streamPidVec.map (·.elementaryPid) = m.streams.map (·.2.1)
  total : d.dataTotal = d.buffered.length

theorem onCallback_pending {m : MpegtsMux} {d : MpegtsDemux} (h : d.Listens m) (pid dts pts : Nat)
    : ∃ d' assembled, d.onCallback pid dts pts = (d', assembled) ∧ d'.Listens m ∧ d'.buffered = []
        ∧ assembled.map (·.data) = d.pending := by
  unfold onCallback pending
  have htotal := h.total
  by_cases hempty : d.buffered = []
  . rw [hempty, List.length_nil] at htotal
    rw [if_pos (Or.inl htotal), if_pos hempty]
    exact ⟨d, [], rfl, h, hempty, rfl⟩
  . have hne : ¬(d.dataTotal = 0 ∨ d.dataBufferVec = []) := by
      rintro (hzero | hnil)
      . rw [hzero] at htotal
        exact hempty (List.length_eq_zero_iff.mp htotal.symm)
      . apply hempty
        rw [buffered, hnil, List.flatten_nil]
    rw [if_neg hne, if_neg hempty]
    exact ⟨_, _, rfl, ⟨h.pat, h.pids, rfl⟩, rfl, rfl⟩

theorem insertIntoDatabuf_listens {m : MpegtsMux} {d : MpegtsDemux} (h : d.Listens m) (data : List UInt8)
    (pid : Nat)
    : (d.insertIntoDatabuf data pid).Listens m
        ∧ (d.insertIntoDatabuf data pid).buffered = d.buffered ++ data := by
  have hbuffered : (d.insertIntoDatabuf data pid).buffered = d.buffered ++ data := by
    simp [insertIntoDatabuf, buffered]
  refine ⟨⟨h.pat, h.pids, ?_⟩, hbuffered⟩
  rw [hbuffered, List.length_append, ← h.total]
  rfl

theorem decodeStreams_once {h : TsHeader} {data : List UInt8} {npos : Nat} {decoded : Decoded}
    {infos : List StreamPidInfo} (hnodup : (infos.map (·.elementaryPid)).Nodup)
    (hmem : h.pid ∈ infos.map (·.elementaryPid)) {d : MpegtsDemux}
    (hdecode : d.decodePes h data npos = some decoded) (hret : decoded.ret = 0 ∨ decoded.ret = -1)
    : decodeStreams h data npos infos d = some decoded := by
  have hnone : ∀ (infos : List StreamPidInfo) (d : MpegtsDemux),
      h.pid ∉ infos.map (·.elementaryPid) → decodeStreams h data npos infos d = some ⟨0, d, []⟩ := by
    intro infos d
    induction infos with
    | nil =>
      intro _
      rfl
    | cons info infos ih =>
      intro hnot
      rw [List.map_cons, List.mem_cons, not_or] at hnot
      rw [decodeStreams, if_neg hnot.left]
      apply ih hnot.right
  induction infos with
  | nil => cases hmem
  | cons info infos ih =>
    rw [List.map_cons, List.nodup_cons] at hnodup
    rw [decodeStreams]
    by_cases hpid : h.pid = info.elementaryPid
    . rw [if_pos hpid, hdecode]
      rw [← hpid] at hnodup
      obtain ⟨ret, d', assembled⟩ := decoded
      cases hret with
      | inl hret =>
        simp only at hret
        subst hret
        simp [hnone infos d' hnodup.left]
      | inr hret =>
        simp only at hret
        subst hret
        simp
    . rw [if_neg hpid]
      rw [List.map_cons, List.mem_cons] at hmem
      apply ih hnodup.right (hmem.resolve_left hpid)

end MpegtsDemux

section Units

def Announces (m : MpegtsMux) (pkt : MediaPacket) : Prop :=
  if pkt.avType = .video then m.hasVideo = true else m.hasAudio = true

theorem pid_mem_streams {m : MpegtsMux} {pkt : MediaPacket} (h : Announces m pkt)
    : (pes pkt).pid ∈ m.streams.map (·.2.1) := by
  unfold Announces at h
  unfold pes MpegtsMux.streams
  by_cases hvideo : pkt.avType = .video
  . rw [if_pos hvideo] at h
    simp [hvideo, h]
  . rw [if_neg hvideo] at h
    simp [hvideo, h]

theorem streams_nodup (m : MpegtsMux) : (m.streams.map (·.2.1)).Nodup := by
  unfold MpegtsMux.streams
  cases m.hasVideo <;> cases m.hasAudio <;> simp [videoPid, audioPid]

theorem tsHeader_carries (pkt : MediaPacket) (first : Bool) (control : UInt8) (rest : List UInt8)
    : MpegtsDemux.tsHeader (headerWith (pes pkt) first control ++ rest)
        = some ⟨first, (pes pkt).pid, control.toNat / 16 % 4⟩ := by
  unfold headerWith pes MpegtsDemux.tsHeader
  by_cases hvideo : pkt.avType = .video
  . cases first with
    | false => simp [hvideo, videoPid, testBit]
    | true => simp [hvideo, videoPid, testBit]
  . cases first with
    | false => simp [hvideo, audioPid, testBit]
    | true => simp [hvideo, audioPid, testBit]

/--
A unit of a stream, with what stands behind its header and adaptation field.
-/
structure IsUnit (pid : Nat) (first : Bool) (unit content : List UInt8) : Prop where
  length : unit.length = unitSize
  parts : ∃ control npos, MpegtsDemux.tsHeader unit = some ⟨first, pid, control⟩
    ∧ (control = 1 ∨ control = 3) ∧ adaptationEnd unit control 4 = some npos ∧ npos ≤ unitSize
    ∧ unit.drop npos = content

theorem Carries.isUnit {pkt : MediaPacket} {first : Bool} {p : TsPacket} {content : List UInt8}
    (hp : Carries (pes pkt) first p content)
    : IsUnit (pes pkt).pid first p.bytes content := by
  obtain ⟨control, field, hfield, hbytes⟩ := hp.bytes
  have hheader : (headerWith (pes pkt) first control).length = 4 := rfl
  obtain ⟨hcontrol, hend⟩ := adaptationEnd_carries hfield hheader content
  have hlen := hp.length
  refine ⟨hlen, control.toNat / 16 % 4, 4 + field.length, ?_, hcontrol, ?_, ?_, ?_⟩
  . rw [hbytes]
    apply tsHeader_carries
  . rw [hbytes]
    exact hend
  . rw [hbytes] at hlen
    simp only [List.length_append, hheader] at hlen
    simp only [unitSize, tsPacketSize] at *
    omega
  . rw [hbytes, ← List.append_assoc]
    apply List.drop_left'
    rw [List.length_append, hheader]

theorem pid_of_mem_streams {m : MpegtsMux} {pid : Nat} (h : pid ∈ m.streams.map (·.2.1))
    : pid = 0x100 ∨ pid = 0x101 := by
  unfold MpegtsMux.streams at h
  cases hvideo : m.hasVideo <;> cases haudio : m.hasAudio <;>
    simp [hvideo, haudio, videoPid, audioPid] at h <;> omega

theorem decodeUnit_isUnit {m : MpegtsMux} {d : MpegtsDemux} (hd : d.Listens m) {pid : Nat}
    (hmem : pid ∈ m.streams.map (·.2.1)) {first : Bool} {unit content : List UInt8}
    (h : IsUnit pid first unit content)
    : ∃ control npos, unit.drop npos = content ∧ npos + content.length = unitSize
        ∧ MpegtsDemux.tsHeader unit = some ⟨first, pid, control⟩
        ∧ adaptationEnd unit control 4 = some npos
        ∧ ∀ decoded, d.decodePes ⟨first, pid, control⟩ unit npos = some decoded →
            decoded.ret = 0 ∨ decoded.ret = -1 → d.decodeUnit unit = some decoded := by
  obtain ⟨control, npos, hheader, hcontrol, hend, hnpos, hdrop⟩ := h.parts
  refine ⟨control, npos, hdrop, ?_, hheader, hend, ?_⟩
  . rw [← hdrop, List.length_drop, h.length]
    omega
  . intro decoded hdecode hret
    have hstreams := MpegtsDemux.decodeStreams_once (by rw [hd.pids]; exact streams_nodup m)
      (by rw [hd.pids]; exact hmem) hdecode hret
    have hpid := pid_of_mem_streams hmem
    have hpmt : d.isPmt pid = false := by
      unfold MpegtsDemux.isPmt
      rw [hd.pat]
      cases hpid with
      | inl hpid => rw [hpid]; rfl
      | inr hpid => rw [hpid]; rfl
    unfold MpegtsDemux.decodeUnit
    simp only [hheader, Option.bind_eq_bind, Option.bind_some, hend, hcontrol, if_true, hpmt]
    cases hpid with
    | inl hpid =>
      simp only [hpid] at hstreams ⊢
      simpa using hstreams
    | inr hpid =>
      simp only [hpid] at hstreams ⊢
      simpa using hstreams

theorem decodePes_parsed {m : MpegtsMux} {d : MpegtsDemux} (hd : d.Listens m) (pid control : Nat)
    {unit header data : List UInt8} {npos : Nat} (hdrop : unit.drop npos = header ++ data)
    (hlen : npos + (header ++ data).length = unitSize) (hunit : unit.length = unitSize) {dts pts : Nat}
    (hparse : pesParse (header ++ data) npos
      = some { ret := header.length, retData := some (header.length, retSize npos header.length),
               dts := dts, pts := pts })
    : ∃ d' assembled, d.decodePes ⟨true, pid, control⟩ unit npos = some ⟨0, d', assembled⟩
        ∧ d'.Listens m ∧ d'.buffered = data ∧ assembled.map (·.data) = d.pending
        ∧ d'.lastDts = (if dts = 0 then pts else dts) ∧ d'.lastPts = pts := by
  obtain ⟨d', assembled, hcall, hlistens, hempty, hassembled⟩ :=
    MpegtsDemux.onCallback_pending hd d.lastPid d.lastDts d.lastPts
  rw [List.length_append] at hlen
  have hsize : retSize npos header.length = data.length := by
    unfold retSize
    simp only [unitSize] at *
    omega
  have hret : ¬unitSize < header.length := by omega
  have hlistens' : ({ d' with
      lastPts := pts, lastDts := if dts = 0 then pts else dts } : MpegtsDemux).Listens m :=
    ⟨hlistens.pat, hlistens.pids, hlistens.total⟩
  unfold MpegtsDemux.decodePes
  simp only [if_true, hcall, hdrop, hparse, Option.bind_eq_bind, Option.bind_some, if_neg hret, hsize]
  by_cases hdata : data = []
  . subst hdata
    exact ⟨_, _, rfl, hlistens', hempty, hassembled, rfl, rfl⟩
  . have hread : readRange unit (npos + header.length) data.length = some data := by
      unfold readRange
      rw [if_pos (by omega), ← List.drop_drop, hdrop, List.drop_left, List.take_length]
    rw [if_pos (List.length_pos_iff.mpr hdata), hread]
    obtain ⟨hinsert, hbuffered⟩ := MpegtsDemux.insertIntoDatabuf_listens hlistens' data pid
    refine ⟨_, _, rfl, hinsert, ?_, hassembled, rfl, rfl⟩
    rw [hbuffered]
    exact congrArg (· ++ data) hempty

theorem decodePes_spoiled {m : MpegtsMux} {d : MpegtsDemux} (hd : d.Listens m) (pid control : Nat)
    {unit content : List UInt8} {npos : Nat} (hdrop : unit.drop npos = content)
    (hcontent : 6 ≤ content.length) (hstart : read3Bytes content ≠ 1)
    : ∃ d' assembled, d.decodePes ⟨true, pid, control⟩ unit npos = some ⟨-1, d', assembled⟩
        ∧ d'.Listens m ∧ d'.buffered = [] ∧ assembled.map (·.data) = d.pending := by
  obtain ⟨d', assembled, hcall, hlistens, hempty, hassembled⟩ :=
    MpegtsDemux.onCallback_pending hd d.lastPid d.lastDts d.lastPts
  refine ⟨d', assembled, ?_, hlistens, hempty, hassembled⟩
  unfold MpegtsDemux.decodePes
  simp [hcall, hdrop, pesParse_spoiled hcontent hstart, unitSize]

theorem decodePes_rest (d : MpegtsDemux) (pid control : Nat) {unit content : List UInt8} {npos : Nat}
    (hdrop : unit.drop npos = content) (hlen : npos + content.length = unitSize)
    (hunit : unit.length = unitSize)
    : d.decodePes ⟨false, pid, control⟩ unit npos = some ⟨0, d.insertIntoDatabuf content pid, []⟩ := by
  have hread : readRange unit npos (unitSize - npos) = some content := by
    unfold readRange
    rw [if_pos (by omega), hdrop, List.take_of_length_le (by omega)]
  unfold MpegtsDemux.decodePes
  simp only [Bool.false_eq_true, if_false]
  rw [if_pos (by omega), hread]
  rfl

theorem decodeUnits_append (d : MpegtsDemux) (units units' : List (List UInt8))
    : MpegtsDemux.decodeUnits d (units ++ units') = (do
        let (assembled, d) ← MpegtsDemux.decodeUnits d units
        let (assembled', d) ← MpegtsDemux.decodeUnits d units'
        pure (assembled ++ assembled', d)) := by
  induction units generalizing d with
  | nil =>
    simp only [List.nil_append, MpegtsDemux.decodeUnits, Option.bind_eq_bind, Option.bind_some]
    cases MpegtsDemux.decodeUnits d units' with
    | none => rfl
    | some _ => rfl
  | cons unit units ih =>
    simp only [List.cons_append, MpegtsDemux.decodeUnits, Option.bind_eq_bind, Option.bind_assoc, ih]
    cases d.decodeUnit unit with
    | none => rfl
    | some decoded =>
      simp only [Option.bind_some]
      cases MpegtsDemux.decodeUnits decoded.demux units with
      | none => rfl
      | some r =>
        obtain ⟨assembled, d'⟩ := r
        simp only [Option.bind_some, Option.pure_def]
        cases MpegtsDemux.decodeUnits d' units' with
        | none => rfl
        | some _ => simp

theorem decodeUnits_rest {m : MpegtsMux} {pid : Nat} (hmem : pid ∈ m.streams.map (·.2.1))
    {units contents : List (List UInt8)} (hunits : List.Forall₂ (IsUnit pid false) units contents)
    : ∀ d : MpegtsDemux, d.Listens m →
        ∃ d', MpegtsDemux.decodeUnits d units = some ([], d') ∧ d'.Listens m
          ∧ d'.buffered = d.buffered ++ contents.flatten
          ∧ d'.lastDts = d.lastDts ∧ d'.lastPts = d.lastPts := by
  induction hunits with
  | nil =>
    intro d hd
    exact ⟨d, rfl, hd, by simp, rfl, rfl⟩
  | cons hunit _ ih =>
    rename_i unit content units contents _
    intro d hd
    obtain ⟨control, npos, hdrop, hlen, _, _, hstep⟩ := decodeUnit_isUnit hd hmem hunit
    have hdecode := hstep _ (decodePes_rest d pid control hdrop hlen hunit.length) (Or.inl rfl)
    obtain ⟨hinsert, hbuffered⟩ := MpegtsDemux.insertIntoDatabuf_listens hd content pid
    obtain ⟨d', hrun, hd', hbuffered', hdts, hpts⟩ := ih _ hinsert
    refine ⟨d', ?_, hd', ?_, hdts, hpts⟩
    . rw [MpegtsDemux.decodeUnits, hdecode]
      simp [hrun]
    . rw [hbuffered', hbuffered, List.append_assoc, List.flatten_cons]

theorem isUnit_of_carries {pkt : MediaPacket} {ps : List TsPacket} {contents : List (List UInt8)}
    (hps : List.Forall₂ (Carries (pes pkt) false) ps contents)
    : List.Forall₂ (IsUnit (pes pkt).pid false) (ps.map (·.bytes)) contents := by
  rw [List.forall₂_map_left_iff]
  exact hps.imp fun _ _ h => h.isUnit

theorem decodeUnits_payload (u : Unwritten) {m : MpegtsMux} {d : MpegtsDemux} (hd : d.Listens m)
    {pkt : MediaPacket} (hpkt : Announces m pkt) {p : TsPacket} {ps : List TsPacket}
    {content : List UInt8} {contents : List (List UInt8)} (hp : Carries (pes pkt) true p content)
    (hps : List.Forall₂ (Carries (pes pkt) false) ps contents)
    (harrives : Arrives u pkt content contents)
    : ∃ d' assembled, MpegtsDemux.decodeUnits d ((p :: ps).map (·.bytes)) = some (assembled, d')
        ∧ d'.Listens m ∧ d'.buffered = arrived u pkt ∧ assembled.map (·.data) = d.pending := by
  have hmem := pid_mem_streams hpkt
  obtain ⟨control, npos, hdrop, hlen, _, _, hstep⟩ := decodeUnit_isUnit hd hmem hp.isUnit
  have hstart : ∃ d' assembled ret, d.decodeUnit p.bytes = some ⟨ret, d', assembled⟩ ∧ d'.Listens m
      ∧ d'.buffered ++ contents.flatten = arrived u pkt ∧ assembled.map (·.data) = d.pending := by
    cases harrives with
    | inl hgood =>
      obtain ⟨data, hcontent, hall⟩ := hgood
      subst hcontent
      obtain ⟨dts, pts, hparse⟩ := parsed_header pkt data npos
      obtain ⟨d', assembled, hdecode, hd', hbuffered, hassembled, _, _⟩ :=
        decodePes_parsed hd (pes pkt).pid control hdrop hlen hp.length hparse
      exact ⟨d', assembled, 0, hstep _ hdecode (Or.inl rfl), hd', by rw [hbuffered, hall], hassembled⟩
    | inr hbad =>
      obtain ⟨hlong, hfront, hall⟩ := hbad
      obtain ⟨d', assembled, hdecode, hd', hbuffered, hassembled⟩ :=
        decodePes_spoiled hd (pes pkt).pid control hdrop hlong hfront
      exact ⟨d', assembled, -1, hstep _ hdecode (Or.inr rfl), hd', by rw [hbuffered, ← hall]; rfl,
        hassembled⟩
  obtain ⟨d', assembled, ret, hdecode, hd', hbuffered, hassembled⟩ := hstart
  obtain ⟨d'', hrun, hd'', hbuffered', _, _⟩ := decodeUnits_rest hmem (isUnit_of_carries hps) d' hd'
  refine ⟨d'', assembled, ?_, hd'', ?_, hassembled⟩
  . rw [List.map_cons, MpegtsDemux.decodeUnits, hdecode]
    simp [hrun]
  . rw [hbuffered', hbuffered]

end Units

/--
The payloads one after the other. Each has its own memory behind the data.
-/
def MpegtsMux.writePesAll (m : MpegtsMux)
    : List (Unwritten × MediaPacket) → Option (List TsPacket × MpegtsMux)
  | [] => some ([], m)
  | (u, pkt) :: ps => do
    let (packets, m) ← m.writePes u pkt
    let (packets', m) ← m.writePesAll ps
    pure (packets ++ packets', m)

/--
The writer ends and stays within its packets, and a reader of the tables and these packets assembles the
payloads that are followed by another one.
-/
def MpegtsMux.RoundTrips (m : MpegtsMux) (mpegCrc32 : List UInt8 → Nat)
    (ps : List (Unwritten × MediaPacket)) : Prop :=
  ∃ packets m' assembled d,
    m.writePesAll ps = some (packets, m')
    ∧ (∀ p ∈ packets, p.bytes.length = tsPacketSize ∧ ∀ c ∈ p.writes, c.InBounds)
    ∧ MpegtsDemux.decodeUnits {}
        (m.generatePat mpegCrc32 :: m.generatePmt mpegCrc32 :: packets.map (·.bytes)) = some (assembled, d)
    ∧ assembled.map (·.data) = ps.dropLast.map (·.2.data)

section Run

theorem MpegtsDemux.Listens.of_flags {m m' : MpegtsMux} {d : MpegtsDemux} (h : d.Listens m)
    (hvideo : m'.hasVideo = m.hasVideo) (haudio : m'.hasAudio = m.hasAudio) : d.Listens m' where
  pat := h.pat
  pids := by
    rw [h.pids]
    unfold MpegtsMux.streams
    rw [hvideo, haudio]
    cases m.hasVideo <;> cases m.hasAudio <;> rfl
  total := h.total

theorem exists_carries {e : Pes} {first : Bool} {ps : List TsPacket} {contents : List (List UInt8)}
    (h : List.Forall₂ (Carries e first) ps contents)
    : ∀ p ∈ ps, ∃ content, Carries e first p content := by
  induction h with
  | nil =>
    intro p hp
    cases hp
  | cons hcarries _ ih =>
    intro p hp
    cases hp with
    | head => exact ⟨_, hcarries⟩
    | tail _ hp => exact ih p hp

/--
The buffers that a reader gets of payloads, with the empty ones left out.
-/
def arrivals (ps : List (Unwritten × MediaPacket)) : List (List UInt8) :=
  (ps.map fun p => arrived p.1 p.2).filter (· ≠ [])

theorem writePesAll_run (ps : List (Unwritten × MediaPacket))
    : ∀ (m : MpegtsMux) (d : MpegtsDemux), d.Listens m →
        (∀ p ∈ ps, p.2.data ≠ [] ∧ Announces m p.2) →
        ∃ packets m' assembled d', m.writePesAll ps = some (packets, m')
          ∧ (∀ p ∈ packets, p.bytes.length = tsPacketSize ∧ ∀ c ∈ p.writes, c.InBounds)
          ∧ MpegtsDemux.decodeUnits d (packets.map (·.bytes)) = some (assembled, d')
          ∧ assembled.map (·.data) = if ps = [] then [] else d.pending ++ arrivals ps.dropLast := by
  induction ps with
  | nil =>
    intro m d _ _
    refine ⟨[], m, [], d, rfl, ?_, rfl, rfl⟩
    intro p hp
    cases hp
  | cons p ps ih =>
    intro m d hd h
    obtain ⟨u, pkt⟩ := p
    obtain ⟨hdata, hannounced⟩ : pkt.data ≠ [] ∧ Announces m pkt := h _ (List.mem_cons_self ..)
    obtain ⟨p0, ps0, m1, content, contents, hwrite, hvideo, haudio, hp0, hps0, harrives⟩ :=
      writePes_arrives u m pkt hdata
    obtain ⟨d1, assembled1, hrun1, hd1, hbuffered, hassembled1⟩ :=
      decodeUnits_payload u hd hannounced hp0 hps0 harrives
    obtain ⟨packets2, m2, assembled2, d2, hwrite2, hgood2, hrun2, hassembled2⟩ :=
      ih m1 d1 (hd1.of_flags hvideo haudio) (by
        intro p hp
        obtain ⟨hne, hannounces⟩ := h p (List.mem_cons_of_mem _ hp)
        refine ⟨hne, ?_⟩
        unfold Announces at *
        rwa [hvideo, haudio])
    refine ⟨(p0 :: ps0) ++ packets2, m2, assembled1 ++ assembled2, d2, ?_, ?_, ?_, ?_⟩
    . rw [MpegtsMux.writePesAll, hwrite]
      simp [hwrite2]
    . intro p hp
      rw [List.mem_append, List.mem_cons] at hp
      rcases hp with (hp | hp) | hp
      . subst hp
        exact ⟨hp0.length, hp0.writes⟩
      . obtain ⟨content', hcarries⟩ := exists_carries hps0 p hp
        exact ⟨hcarries.length, hcarries.writes⟩
      . exact hgood2 p hp
    . rw [List.map_append, decodeUnits_append, hrun1]
      simp [hrun2]
    . rw [List.map_append, hassembled1, hassembled2, if_neg (List.cons_ne_nil _ _)]
      cases ps with
      | nil => simp [arrivals]
      | cons q ps =>
        rw [if_neg (List.cons_ne_nil _ _), List.dropLast_cons_of_ne_nil (List.cons_ne_nil _ _)]
        congr 1
        unfold MpegtsDemux.pending arrivals
        rw [hbuffered, List.map_cons, List.filter_cons]
        by_cases hempty : arrived u pkt = []
        . simp [hempty]
        . simp [hempty]

theorem arrived_eq_iff (u : Unwritten) {pkt : MediaPacket} (hdata : pkt.data ≠ [])
    : arrived u pkt = pkt.data ↔ ¬TooShort pkt := by
  have hheader := length_header pkt
  unfold arrived
  constructor
  . intro heq hshort
    rw [if_pos hshort] at heq
    by_cases hsize : pesSize pkt < 176
    . rw [if_pos hsize] at heq
      exact hdata heq.symm
    . rw [if_neg hsize] at heq
      have hlen := congrArg List.length heq
      rw [length_readData, pesSize] at hlen
      omega
  . intro hlong
    rw [if_neg hlong]

theorem arrivals_eq_iff {ps : List (Unwritten × MediaPacket)} (h : ∀ p ∈ ps, p.2.data ≠ [])
    : arrivals ps = ps.map (·.2.data) ↔ ∀ p ∈ ps, ¬TooShort p.2 := by
  unfold arrivals
  constructor
  . intro heq
    -- a filter that keeps the number of elements keeps all of them
    have hall : (ps.map fun p => arrived p.1 p.2).filter (· ≠ []) = ps.map fun p => arrived p.1 p.2 := by
      apply List.filter_sublist.eq_of_length
      rw [heq, List.length_map, List.length_map]
    rw [hall, List.map_inj_left] at heq
    intro p hp
    exact (arrived_eq_iff p.1 (h p hp)).mp (heq p hp)
  . intro hlong
    have hmap : (ps.map fun p => arrived p.1 p.2) = ps.map (·.2.data) := by
      rw [List.map_inj_left]
      intro p hp
      exact (arrived_eq_iff p.1 (h p hp)).mpr (hlong p hp)
    rw [hmap, List.filter_eq_self]
    intro data hmem
    obtain ⟨p, hp, rfl⟩ := List.mem_map.mp hmem
    exact decide_eq_true (h p hp)

theorem roundTrips_iff_arrivals (m : MpegtsMux) (mpegCrc32 : List UInt8 → Nat)
    {ps : List (Unwritten × MediaPacket)} (h : ∀ p ∈ ps, p.2.data ≠ [] ∧ Announces m p.2)
    : m.RoundTrips mpegCrc32 ps ↔ arrivals ps.dropLast = ps.dropLast.map (·.2.data) := by
  obtain ⟨infos, hpmt, hinfos⟩ := decodeUnit_generatePmt mpegCrc32 m
  have hpids : infos.map (·.elementaryPid) = m.streams.map (·.2.1) := by
    have hsnd := congrArg (List.map Prod.snd) hinfos
    rw [List.map_map, List.map_map] at hsnd
    exact hsnd
  have hlistens : ({ decodedPat with streamPidVec := infos } : MpegtsDemux).Listens m :=
    ⟨rfl, hpids, rfl⟩
  obtain ⟨packets, m', assembled, d', hwrite, hgood, hrun, hassembled⟩ := writePesAll_run ps m _ hlistens h
  have hunits : MpegtsDemux.decodeUnits {}
      (m.generatePat mpegCrc32 :: m.generatePmt mpegCrc32 :: packets.map (·.bytes))
        = some (assembled, d') := by
    simp [MpegtsDemux.decodeUnits, decodeUnit_generatePat, hpmt, hrun]
  have hassembled' : assembled.map (·.data) = arrivals ps.dropLast := by
    rw [hassembled]
    cases ps with
    | nil => rfl
    | cons p ps =>
      rw [if_neg (List.cons_ne_nil _ _)]
      rfl
  rw [← hassembled']
  constructor
  . rintro ⟨packets', _, assembled', _, hwrite', _, hunits', hround⟩
    rw [hwrite] at hwrite'
    cases hwrite'
    rw [hunits] at hunits'
    cases hunits'
    exact hround
  . intro hround
    exact ⟨packets, m', assembled, d', hwrite, hgood, hunits, hround⟩

/--
The writer always ends and stays within its packets. The payloads that another one follows arrive as
they are if and only if none of them is a key frame too short for its first packet.
-/
theorem MpegtsMux.roundTrips_iff (m : MpegtsMux) (mpegCrc32 : List UInt8 → Nat)
    (ps : List (Unwritten × MediaPacket)) (h : ∀ p ∈ ps, p.2.data ≠ [] ∧ Announces m p.2)
    : m.RoundTrips mpegCrc32 ps ↔ ∀ p ∈ ps.dropLast, ¬TooShort p.2 := by
  rw [roundTrips_iff_arrivals m mpegCrc32 h]
  apply arrivals_eq_iff
  intro p hp
  exact (h p (List.dropLast_subset _ hp)).left

/--
A video frame of three NALU bytes behind a start code, and a byte of audio.
-/
def samplePayloads (isKeyFrame : Bool) : List (Unwritten × MediaPacket) :=
  let u : Unwritten := { stack := fun _ => 0xcc, behind := fun _ => 0xdd }
  [(u, { avType := .video, codecType := .h264, dts := 0, pts := 40, isKeyFrame,
         data := [0, 0, 0, 1, 9, 0xff, 0, 0, 0, 1, 0x65, 0x88, 0x84] }),
   (u, { avType := .audio, codecType := .aac, dts := 20, pts := 20, data := [0x21] })]

theorem samplePayloads_announced (isKeyFrame : Bool)
    : ∀ p ∈ samplePayloads isKeyFrame, p.2.data ≠ [] ∧ Announces {} p.2 := by
  intro p hp
  simp only [samplePayloads, List.mem_cons, List.not_mem_nil, or_false] at hp
  rcases hp with rfl | rfl
  . simp [Announces]
  . simp [Announces]

theorem MpegtsMux.roundTrips_sample
    : ({} : MpegtsMux).RoundTrips (fun _ => 0) (samplePayloads false) :=
  (MpegtsMux.roundTrips_iff {} _ _ (samplePayloads_announced false)).mpr (by
    simp [samplePayloads, TooShort])

/--
As a key frame, the same bytes are lost.
-/
theorem MpegtsMux.roundTrips_keyFrame
    : ¬({} : MpegtsMux).RoundTrips (fun _ => 0) (samplePayloads true) := by
  rw [roundTrips_iff_arrivals {} _ (samplePayloads_announced true)]
  decide

end Run

end MpegTs
