import CppStreamer.Format.Mp4.MovItems
import CppStreamer.Format.Mp4.SampleTimes

/-!
This module contains the packets that the parameter sets of an HEVC track are sent in.
-/

open ByteStream Checked Reading

namespace Mp4

/--
The record has one array of a type, with the parameter set, which is not empty and fits into a buffer.
-/
def OneSet (record : Hevc.RecordBytes) (type : UInt8) (set : List UInt8) : Prop :=
  ∃ a, record.arrays.filter (fun a => a.unit.nalUnitType = type) = [a] ∧ a.nalus = [set] ∧ set ≠ [] ∧ set.length ≤ 2048

structure RecordsSets (record : Hevc.RecordBytes) (vps sps pps : List UInt8) : Prop where
  vps : OneSet record MpegTs.naluTypeVps vps
  sps : OneSet record MpegTs.naluTypeHevcSps sps
  pps : OneSet record MpegTs.naluTypeHevcPps pps

/--
The packets are the parameter sets, each behind a start code.
-/
def EmitsSets (around : Surroundings) (trakinfo : TrakInfo) (vps sps pps : List UInt8) : Prop :=
  (handleH265VpsSpsPps around trakinfo).value.map MediaPacket.data
    = [H264.startCode ++ vps, H264.startCode ++ sps, H264.startCode ++ pps]

variable {mem : Nat → UInt8} {p endPos : Nat} {type : UInt8}

/--
The arrays are read up to the end, but for a last one that has no NALUs.
-/
theorem unitsFrom_kept {arrays : List Hevc.HevcArray} (hmem : HoldsAt mem p (arrays.flatMap Hevc.HevcArray.bytes))
    (hend : p + (arrays.flatMap Hevc.HevcArray.bytes).length = endPos)
    : ∃ rest, arrays.map Hevc.HevcArray.unit = (Hevc.unitsFrom mem endPos arrays.length p).value.2 ++ rest
      ∧ ∀ unit ∈ rest, unit.nalDataVec = [] := by
  induction arrays generalizing p with
  | nil => exact ⟨[], rfl, List.forall_mem_nil _⟩
  | cons a arrays ih =>
    rw [List.flatMap_cons] at hmem hend
    by_cases hlen : 5 ≤ (a.bytes ++ arrays.flatMap Hevc.HevcArray.bytes).length
    . obtain ⟨rest, hunits, hempty⟩ := ih (hmem.right rfl) (end_right hend)
      rw [List.length_cons, (Hevc.unitsFrom_array a hmem hend hlen arrays.length).left, List.map_cons, hunits]
      exact ⟨rest, rfl, hempty⟩
    . have hbytes := a.length_bytes
      have harrays : arrays = [] := by
        cases arrays with
        | nil => rfl
        | cons next arrays =>
          rw [List.flatMap_cons, List.length_append, List.length_append, next.length_bytes, hbytes] at hlen
          omega
      subst harrays
      rw [List.length_cons, (Hevc.unitsFrom_short hend (by omega)).left]
      rw [List.flatMap_nil, List.append_nil, Hevc.HevcArray.length_ge, not_not] at hlen
      refine ⟨[a.unit], rfl, ?_⟩
      rw [List.forall_mem_singleton]
      exact hlen

/--
The array of a type is the only one that is read.
-/
theorem filter_naluVec {record : Hevc.RecordBytes} (hmem : HoldsAt mem 0 record.bytes) {set : List UInt8}
    (hone : OneSet record type set)
    : ∃ unit, ((Hevc.getHevcDecInfoFromExtradata mem record.bytes.length).value.2.naluVec.filter fun unit =>
      unit.nalUnitType = type) = [unit] ∧ unit.nalDataVec = [set] := by
  obtain ⟨a, hfilter, hnalus, -, -⟩ := hone
  have hversion : mem 0 = 1 := hmem.head
  have hcountAt : HoldsAt mem 22 (UInt8.ofNat record.arrays.length :: record.arrays.flatMap Hevc.HevcArray.bytes) := by
    apply hmem.tail.right
    rw [record.length_fields]
  have hcount : (mem 22).toNat = record.arrays.length := by
    rw [hcountAt.head, UInt8.toNat_ofNat']
    exact Nat.mod_eq_of_lt record.count_lt
  have hend : 23 + (record.arrays.flatMap Hevc.HevcArray.bytes).length = record.bytes.length := by
    rw [Hevc.RecordBytes.bytes, List.length_cons, List.length_append, List.length_cons, record.length_fields]
    omega
  obtain ⟨rest, hunits, hempty⟩ := unitsFrom_kept hcountAt.tail hend
  have hvec : (Hevc.getHevcDecInfoFromExtradata mem record.bytes.length).value.2.naluVec
      = (Hevc.unitsFrom mem record.bytes.length record.arrays.length 23).value.2 := by
    rw [Hevc.getHevcDecInfoFromExtradata, value_bind, readByte_value, hversion, if_neg (not_not_intro rfl)]
    simp only [value_bind, value_pure, readByte_value, hcount]
  have hboth := congrArg (List.filter fun unit : Hevc.HevcNaluUnit => unit.nalUnitType = type) hunits
  rw [List.filter_append, List.filter_map, Function.comp_def, hfilter, List.map_singleton] at hboth
  rw [hvec]
  cases hread : (Hevc.unitsFrom mem record.bytes.length record.arrays.length 23).value.2.filter fun unit =>
      unit.nalUnitType = type with
  | nil =>
    rw [hread, List.nil_append] at hboth
    have hmemRest : a.unit ∈ rest := by
      apply List.mem_of_mem_filter
      rw [← hboth]
      exact List.mem_cons_self
    have hnil : a.nalus = [] := hempty _ hmemRest
    rw [hnalus] at hnil
    cases hnil
  | cons unit units =>
    rw [hread, List.cons_append, List.cons.injEq] at hboth
    obtain ⟨hunit, hnone⟩ := hboth
    refine ⟨unit, by rw [(List.append_eq_nil_iff.mp hnone.symm).left], ?_⟩
    rw [← hunit]
    exact hnalus

theorem run_vps (c : ParameterSets.Caches) (units : List MpegTs.HevcNalUnit)
    : (Checked.run ParameterSets.Caches.copyUnit c units).value.vps
      = (units.filter fun unit => unit.nalUnitType = MpegTs.naluTypeVps).foldl
        (fun s unit => (s.copy (unit.nalDataVec.headD [])).value) c.vps := by
  induction units generalizing c with
  | nil => rfl
  | cons unit units ih =>
    rw [run, value_bind, ih, List.filter_cons, ParameterSets.Caches.copyUnit]
    by_cases hvps : unit.nalUnitType = MpegTs.naluTypeVps
    . rw [if_pos hvps, if_pos (decide_eq_true hvps)]
      rfl
    . have hnot : ¬decide (unit.nalUnitType = MpegTs.naluTypeVps) = true := by
        simpa using hvps
      rw [if_neg hvps, if_neg hnot]
      congr 1
      split
      . rfl
      . split
        all_goals rfl

/--
The packet with the VPS is as long as the VPS, so there is no room for the start code.
-/
theorem length_vpsPacket (around : Surroundings) {trakinfo : TrakInfo} {record : Hevc.RecordBytes} {vps : List UInt8}
    (hdata : trakinfo.sequenceData = record.bytes) (hone : OneSet record MpegTs.naluTypeVps vps)
    : ∃ packet packets, (handleH265VpsSpsPps around trakinfo).value = packet :: packets
      ∧ packet.data.length ≤ vps.length := by
  have hmem : HoldsAt (sequenceMem around trakinfo) 0 record.bytes := by
    intro i hi
    rw [Nat.zero_add, sequenceMem, hdata]
    exact (List.getElem_eq_getD _).symm
  obtain ⟨unit, hfilter, hset⟩ := filter_naluVec hmem hone
  refine ⟨_, _, rfl, ?_⟩
  rw [sendMediaPacket, List.length_take]
  apply Nat.le_trans (Nat.min_le_left _ _)
  have hcaches := run_vps (h265Caches around).cleared
    ((Hevc.getHevcDecInfoFromExtradata (sequenceMem around trakinfo) record.bytes.length).value.2.naluVec.map
      fun unit => ⟨unit.nalUnitType, unit.nalDataVec⟩)
  rw [List.filter_map, Function.comp_def, hfilter, List.map_singleton, List.foldl_cons, List.foldl_nil, hset] at hcaches
  have hlen := congrArg (fun s : ParameterSet => s.len.toNat) hcaches
  rw [← hdata] at hlen
  exact hlen.le

/--
No record is sent as it should be.
-/
theorem not_emitsSets (around : Surroundings) {trakinfo : TrakInfo} {record : Hevc.RecordBytes}
    {vps sps pps : List UInt8} (hdata : trakinfo.sequenceData = record.bytes) (hsets : RecordsSets record vps sps pps)
    : ¬EmitsSets around trakinfo vps sps pps := by
  intro h
  obtain ⟨packet, packets, hsent, hlen⟩ := length_vpsPacket around hdata hsets.vps
  rw [EmitsSets, hsent, List.map_cons, List.cons.injEq] at h
  rw [h.left, List.length_append] at hlen
  have hstart : H264.startCode.length = 4 := rfl
  omega

section Samples

theorem oneNalu_lt (nalu : List UInt8) : [nalu].length < 2 ^ 16 := Nat.one_lt_two_pow (by decide)

theorem shortNalu_lt (b : UInt8) : ∀ nalu ∈ [[b, 1]], nalu.length < 2 ^ 16 := by
  rw [List.forall_mem_singleton]
  exact show 2 < 2 ^ 16 by decide

/--
An array with one NALU of two bytes.
-/
def shortArray (type b : UInt8) : Hevc.HevcArray := ⟨type, [[b, 1]], oneNalu_lt _, shortNalu_lt b⟩

theorem threeArrays_lt : [shortArray 32 64, shortArray 33 66, shortArray 34 68].length < 256 := by
  decide

theorem length_shortFront : (List.replicate 21 (0 : UInt8)).length = 21 := List.length_replicate

def shortRecord : Hevc.RecordBytes :=
  ⟨List.replicate 21 0, [shortArray 32 64, shortArray 33 66, shortArray 34 68], length_shortFront, threeArrays_lt⟩

def hevcTrak : TrakInfo where
  timescale := 1000
  handlerType := vide
  codecType := .h265
  sequenceData := shortRecord.bytes
  sampleSizes_lt := length_sampleSizes

theorem shortRecord_sets : RecordsSets shortRecord [64, 1] [66, 1] [68, 1] where
  vps := ⟨shortArray 32 64, rfl, rfl, by decide, by decide⟩
  sps := ⟨shortArray 33 66, rfl, rfl, by decide, by decide⟩
  pps := ⟨shortArray 34 68, rfl, rfl, by decide, by decide⟩

theorem not_emitsSets_short : ¬EmitsSets zeroed hevcTrak [64, 1] [66, 1] [68, 1] :=
  not_emitsSets zeroed rfl shortRecord_sets

/--
Of parameter sets of two bytes only the first two bytes of the start code are sent.
-/
theorem shortRecord_packets : RecordsSets shortRecord [64, 1] [66, 1] [68, 1]
    ∧ (handleH265VpsSpsPps zeroed hevcTrak).value.map MediaPacket.data = [[0, 0], [0, 0], [0, 0]]
    ∧ ¬EmitsSets zeroed hevcTrak [64, 1] [66, 1] [68, 1] := by
  have hdata : (handleH265VpsSpsPps zeroed hevcTrak).value.map MediaPacket.data = [[0, 0], [0, 0], [0, 0]] := by
    decide +kernel
  refine ⟨shortRecord_sets, hdata, ?_⟩
  rw [EmitsSets, hdata]
  decide

end Samples

end Mp4
