import CppStreamer.Format.Flv.Fragmentation

/-!
This module contains the streams on which each tag is consumed by the call of `HandlePacket` that handles it, and
the loop of `InputPacket` therefore ends.
-/

open ByteStream

namespace Flv

open FlvDemuxer

instance (p : List UInt8) : Decidable (IsVideoSeqHdr p) := by
  unfold IsVideoSeqHdr
  infer_instance

section Tag

variable {output : MediaPacket} {headerLen tagDataSize tagTimestamp : Nat} {p : List UInt8}

/--
The assertions that `GetAudioInfoByAsc` makes on a tag that is handed on as it is.
-/
def SinkAsserted (headerLen tagDataSize : Nat) (p : List UInt8) : Prop :=
  headerLen < tagDataSize → isAscHeader p →
    AscAsserted ((2 ^ 64 - 2 + (tagDataSize - headerLen)) % 2 ^ 64) (p.drop 2)

theorem sinkData_eq_ok (hlen : tagDataSize ≤ p.length) {events : List FlvEvent}
    : sinkData output headerLen tagDataSize p = .ok events
        ↔ SinkAsserted headerLen tagDataSize p
          ∧ events = if headerLen < tagDataSize then
              [.packet { output with data := (p.take tagDataSize).drop headerLen }] else [] := by
  have hdata : ((p.take tagDataSize).drop headerLen).length = tagDataSize - headerLen := by
    rw [List.length_drop, List.length_take]
    omega
  unfold sinkData SinkAsserted
  by_cases hsize : headerLen < tagDataSize
  . rw [if_pos hsize, if_pos hsize]
    simp only [hdata, hsize, true_implies]
    split
    . next hasc =>
      simp only [reduceCtorEq, false_iff, not_and]
      intro h
      exact absurd (h hasc.left) hasc.right
    . next hasc =>
      rw [not_and, not_not] at hasc
      rw [Except.ok.injEq]
      constructor
      . intro h
        exact ⟨hasc, h.symm⟩
      . intro h
        exact h.right.symm
  . rw [if_neg hsize, if_neg hsize, Except.ok.injEq]
    constructor
    . intro h
      exact ⟨fun h => absurd h hsize, h.symm⟩
    . intro h
      exact h.right.symm

theorem sinkData_bind_eq_ok (hlen : tagDataSize ≤ p.length) {f : List FlvEvent → TagResult} {result : TagResult}
    : (do
        let events ← sinkData output headerLen tagDataSize p
        Except.ok (f events)) = .ok result
        ↔ SinkAsserted headerLen tagDataSize p
          ∧ result = f (if headerLen < tagDataSize then
              [.packet { output with data := (p.take tagDataSize).drop headerLen }] else []) := by
  constructor
  . intro h
    cases hsink : sinkData output headerLen tagDataSize p with
    | error fault =>
      rw [hsink] at h
      cases h
    | ok events =>
      rw [hsink] at h
      cases h
      obtain ⟨hasserted, rfl⟩ := (sinkData_eq_ok hlen).mp hsink
      exact ⟨hasserted, rfl⟩
  . rintro ⟨hasserted, rfl⟩
    rw [(sinkData_eq_ok hlen).mpr ⟨hasserted, rfl⟩]
    rfl

theorem naluPacket_isSome (output : MediaPacket) (nalu : List UInt8) : (naluPacket output (H264.startCode ++ nalu)).isSome := rfl

theorem avccNalus_startCode (dataLen : Int) (data : List UInt8)
    : ∀ nalus, avccNalus dataLen data = some nalus → ∀ nalu ∈ nalus, ∃ rest, nalu = H264.startCode ++ rest := by
  fun_induction avccNalus dataLen data with
  | case1 | case3 =>
    rintro nalus ⟨⟩ nalu hnalu
    cases hnalu
  | case2 | case4 =>
    intro nalus h
    cases h
  | case5 dataLen data hpos hlen naluLen hle hlen' ih =>
    intro nalus h
    obtain ⟨rest, hrest, hsome⟩ := Option.bind_eq_some_iff.mp h
    cases hsome
    intro nalu hnalu
    rcases List.mem_cons.mp hnalu with rfl | hnalu
    . exact ⟨_, rfl⟩
    . exact ih rest hrest nalu hnalu

theorem avccNalus_eq_nil {dataLen : Int} {data : List UInt8} {nalus : List (List UInt8)} (hpos : 0 < dataLen)
    (h : avccNalus dataLen data = some nalus) : nalus = [] ↔ kMaxLen < read4Bytes data := by
  rw [avccNalus, if_neg (by omega)] at h
  split at h
  . cases h
  . simp only at h
    split at h
    . next hlong =>
      cases h
      simp only [hlong]
    . next hle =>
      split at h
      . cases h
      . obtain ⟨rest, -, hsome⟩ := Option.bind_eq_some_iff.mp h
        cases hsome
        simp only [reduceCtorEq, false_iff]
        exact hle

/--
A NALU is handed on unless the first length is too long for `Avcc2Nalus`.
-/
theorem nalus_delivered {len : Nat} {data : List UInt8} {nalus : List (List UInt8)} (hlen : 4 ≤ len)
    (h : avcc2Nalus len data = some nalus)
    : (∃ pkt, FlvEvent.packet pkt ∈ (nalus.filterMap (naluPacket output)).map .packet)
        ↔ read4Bytes data ≤ kMaxLen := by
  rw [avcc2Nalus, if_neg (by omega)] at h
  have hnil := avccNalus_eq_nil (by omega) h
  rw [← Nat.not_lt, ← hnil]
  constructor
  . rintro ⟨pkt, hpkt⟩ rfl
    cases hpkt
  . intro hne
    obtain ⟨nalu, hnalu⟩ := List.exists_mem_of_ne_nil nalus hne
    obtain ⟨rest, rfl⟩ := avccNalus_startCode _ _ nalus h nalu hnalu
    obtain ⟨pkt, hpkt⟩ := Option.isSome_iff_exists.mp (naluPacket_isSome output rest)
    exact ⟨pkt, List.mem_map_of_mem (List.mem_filterMap.mpr ⟨_, hnalu, hpkt⟩)⟩

/--
The tag is consumed when its NALUs are among the bytes that have arrived, and a sequence header is delivered if
a NALU is found in it.
-/
theorem nalus_consumed {data : List UInt8} {seqHdr : Prop} (hlen : seqHdr → 5 < tagDataSize → 9 ≤ tagDataSize)
    : (∃ events, (if 5 < tagDataSize then
          match avcc2Nalus (tagDataSize - 5) data with
          | none => .error .overrun
          | some nalus => .ok (.ok, true, (nalus.filterMap (naluPacket output)).map .packet)
        else .ok (.ok, true, []) : Except FlvFault TagResult) = .ok (.ok, true, events)
          ∧ (seqHdr → 5 < tagDataSize → ∃ pkt, .packet pkt ∈ events))
        ↔ (9 ≤ tagDataSize → NalusInside (tagDataSize - 5 : Nat) data)
          ∧ (seqHdr → 5 < tagDataSize → read4Bytes data ≤ kMaxLen) := by
  have hnone := avcc2Nalus_eq_none (tagDataSize - 5) data
  by_cases hsize : 5 < tagDataSize
  . simp only [hsize, if_true, true_implies]
    cases hnalus : avcc2Nalus (tagDataSize - 5) data with
    | none =>
      obtain ⟨hle, hinside⟩ := hnone.mp hnalus
      simp only [reduceCtorEq, false_and, exists_false, false_iff, not_and]
      intro h
      exact absurd (h (by omega)) hinside
    | some nalus =>
      have hinside : 9 ≤ tagDataSize → NalusInside (tagDataSize - 5 : Nat) data := by
        intro hle
        by_contra hinside
        rw [hnone.mpr ⟨by omega, hinside⟩] at hnalus
        cases hnalus
      constructor
      . rintro ⟨events, h, hdelivered⟩
        cases h
        refine ⟨hinside, ?_⟩
        intro hseq
        have hle := hlen hseq hsize
        exact (nalus_delivered (by omega) hnalus).mp (hdelivered hseq)
      . rintro ⟨-, hshort⟩
        refine ⟨_, rfl, ?_⟩
        intro hseq
        have hle := hlen hseq hsize
        exact (nalus_delivered (by omega) hnalus).mpr (hshort hseq)
  . rw [if_neg hsize]
    simp only [hsize, false_implies, implies_true, and_true]
    constructor
    . intro _ hle
      omega
    . intro _
      exact ⟨[], rfl⟩

/--
A video tag that is consumed: it is no sequence header of H.265, nor one of H.264 with less than 512 bytes, and
what is read of it is there.
-/
structure VideoMoves (tagDataSize : Nat) (p : List UInt8) : Prop where
  avcSeqHdr : IsVideoSeqHdr p → videoCodecType (p.getD 0 0) = .h264 → 512 ≤ extraLen tagDataSize
  avcNalu : IsVideoSeqHdr p → videoCodecType (p.getD 0 0) = .h264 → 5 < tagDataSize →
    read4Bytes (p.drop 5) ≤ kMaxLen
  hevcSeqHdr : IsVideoSeqHdr p → videoCodecType (p.getD 0 0) ≠ .h265
  nalus : videoCodecType (p.getD 0 0) = .h264 ∨ videoCodecType (p.getD 0 0) = .h265 → 9 ≤ tagDataSize →
    NalusInside (tagDataSize - 5 : Nat) (p.drop 5)
  asserted : videoCodecType (p.getD 0 0) ≠ .h264 → videoCodecType (p.getD 0 0) ≠ .h265 →
    SinkAsserted 5 tagDataSize p

theorem lt_of_extraLen (h : 512 ≤ FlvDemuxer.extraLen tagDataSize) (hlen : 5 < tagDataSize) : 9 ≤ tagDataSize := by
  unfold FlvDemuxer.extraLen at h
  omega

/--
An audio tag that is consumed: its codec is known, and the assertions of `GetAudioInfoByAsc` hold both times.
-/
structure AudioMoves (tagDataSize : Nat) (p : List UInt8) : Prop where
  codec : audioCodecType (p.getD 0 0) ≠ none
  asc : isAscHeader p → AscAsserted (2 ^ 64 - 2) (p.drop 2)
  asserted : SinkAsserted 2 tagDataSize p

theorem handleAudio_consumed (hlen : tagDataSize ≤ p.length) {seqHdr : Prop} (hseqHdr : seqHdr → 2 < tagDataSize)
    : (∃ events, handleAudio tagDataSize tagTimestamp p = .ok (.ok, true, events)
          ∧ (seqHdr → ∃ pkt, .packet pkt ∈ events))
        ↔ AudioMoves tagDataSize p := by
  unfold handleAudio
  cases hcodec : audioCodecType (p.getD 0 0) with
  | none =>
    simp only [Except.ok.injEq, Prod.mk.injEq, reduceCtorEq, false_and, exists_false, false_iff]
    intro h
    exact h.codec hcodec
  | some codecType =>
    have hknown : audioCodecType (p.getD 0 0) ≠ none := by
      rw [hcodec]
      exact Option.some_ne_none _
    simp only
    by_cases hasc : isAscHeader p ∧ ¬AscAsserted (2 ^ 64 - 2) (p.drop 2)
    . rw [if_pos hasc]
      simp only [reduceCtorEq, false_and, exists_false, false_iff]
      intro h
      exact hasc.right (h.asc hasc.left)
    . rw [if_neg hasc]
      rw [not_and, not_not] at hasc
      constructor
      . rintro ⟨events, h, -⟩
        have hsink := (sinkData_bind_eq_ok hlen (f := fun events => (FlvRet.ok, true, events))).mp h
        exact ⟨hknown, hasc, hsink.left⟩
      . intro h
        refine ⟨_, (sinkData_bind_eq_ok hlen (f := fun events => (FlvRet.ok, true, events))).mpr
          ⟨h.asserted, rfl⟩, ?_⟩
        intro hseq
        rw [if_pos (hseqHdr hseq)]
        exact ⟨_, List.mem_cons_self⟩

/--
The metadata is decoded from the bytes that have arrived, without a failing assertion.
-/
structure MetaMoves (tagDataSize : Nat) (p : List UInt8) : Prop where
  inside : readsInside p.length (metaScan tagDataSize p).1
  decoded : (metaScan tagDataSize p).2 ≠ none
  asserted : ∀ cursor, (metaScan tagDataSize p).2 = some (true, cursor) → SinkAsserted 0 tagDataSize p

theorem handleMeta_consumed (hlen : tagDataSize ≤ p.length)
    : (∃ events, handleMeta tagDataSize tagTimestamp p = .ok (.ok, true, events))
        ↔ MetaMoves tagDataSize p := by
  unfold handleMeta
  by_cases hinside : readsInside p.length (metaScan tagDataSize p).1
  . rw [if_pos hinside]
    cases hscan : (metaScan tagDataSize p).2 with
    | none =>
      simp only [reduceCtorEq, exists_false, false_iff]
      intro h
      exact h.decoded hscan
    | some result =>
      obtain ⟨ok, cursor⟩ := result
      have hdecoded : (metaScan tagDataSize p).2 ≠ none := by
        rw [hscan]
        exact Option.some_ne_none _
      cases ok with
      | false =>
        simp only [Except.ok.injEq, Prod.mk.injEq, true_and, exists_eq', true_iff]
        refine ⟨hinside, hdecoded, ?_⟩
        intro cursor' h
        rw [hscan] at h
        cases h
      | true =>
        constructor
        . rintro ⟨events, h⟩
          have hsink := (sinkData_bind_eq_ok hlen (f := fun events => (FlvRet.ok, true, events))).mp h
          exact ⟨hinside, hdecoded, fun _ _ => hsink.left⟩
        . intro h
          exact ⟨_, (sinkData_bind_eq_ok hlen (f := fun events => (FlvRet.ok, true, events))).mpr
            ⟨h.asserted cursor hscan, rfl⟩⟩
  . rw [if_neg hinside]
    simp only [reduceCtorEq, exists_false, false_iff]
    intro h
    exact hinside h.inside

theorem handleVideo_consumed (tagTimestamp : Nat) (hlen : tagDataSize ≤ p.length)
    : (∃ events, handleVideo tagDataSize tagTimestamp p = .ok (.ok, true, events)
          ∧ (IsVideoSeqHdr p → 5 < tagDataSize → ∃ pkt, .packet pkt ∈ events))
        ↔ VideoMoves tagDataSize p := by
  have hseqHdr : decide (p.getD 0 0 &&& 0xf0 = videoKeyFlag ∧ p.getD 1 0 = 0x00) = true
      ↔ IsVideoSeqHdr p := decide_eq_true_iff
  unfold handleVideo
  simp only
  by_cases h264 : videoCodecType (p.getD 0 0) = .h264
  . have h265 : videoCodecType (p.getD 0 0) ≠ .h265 := by
      rw [h264]
      exact MediaCodecType.noConfusion
    by_cases hsets : IsVideoSeqHdr p ∧ extraLen tagDataSize < 512
    . rw [if_pos ⟨hseqHdr.mpr hsets.left, h264, hsets.right⟩]
      constructor
      . rintro ⟨events, h, -⟩
        split at h
        all_goals cases h
      . intro h
        exact absurd (h.avcSeqHdr hsets.left h264) (Nat.not_le_of_lt hsets.right)
    . have hlarge (hseq : IsVideoSeqHdr p) : 512 ≤ extraLen tagDataSize :=
        Nat.le_of_not_lt fun h => hsets ⟨hseq, h⟩
      rw [if_neg (fun h => hsets ⟨hseqHdr.mp h.left, h.right.right⟩), if_neg (fun h => h265 h.right),
        if_pos (Or.inl h264)]
      refine (nalus_consumed fun hseq => lt_of_extraLen (hlarge hseq)).trans ?_
      constructor
      . rintro ⟨hinside, hshort⟩
        exact ⟨fun hseq _ => hlarge hseq, fun hseq _ => hshort hseq, fun _ => h265, fun _ => hinside,
          fun h => absurd h264 h⟩
      . intro h
        exact ⟨h.nalus (Or.inl h264), fun hseq => h.avcNalu hseq h264⟩
  . rw [if_neg (fun h => h264 h.right.left)]
    by_cases h265 : videoCodecType (p.getD 0 0) = .h265
    . by_cases hseq : IsVideoSeqHdr p
      . rw [if_pos ⟨hseqHdr.mpr hseq, h265⟩]
        constructor
        . rintro ⟨events, h, -⟩
          split at h
          all_goals cases h
        . intro h
          exact absurd h265 (h.hevcSeqHdr hseq)
      . rw [if_neg (fun h => hseq (hseqHdr.mp h.left)), if_pos (Or.inr h265)]
        refine (nalus_consumed fun h => absurd h hseq).trans ?_
        constructor
        . rintro ⟨hinside, -⟩
          exact ⟨fun h => absurd h hseq, fun h => absurd h hseq, fun h => absurd h hseq, fun _ => hinside,
            fun _ h => absurd h265 h⟩
        . intro h
          exact ⟨h.nalus (Or.inr h265), fun h => absurd h hseq⟩
    . rw [if_neg (fun h => h265 h.right), if_neg (by rintro (h | h); exacts [h264 h, h265 h])]
      constructor
      . rintro ⟨events, h, -⟩
        have hasserted := (sinkData_bind_eq_ok hlen (f := fun events => (FlvRet.ok, true, _)) |>.mp h).left
        exact ⟨fun _ h => absurd h h264, fun _ h => absurd h h264, fun _ => h265,
          fun h => (h.elim h264 h265).elim, fun _ _ => hasserted⟩
      . intro h
        refine ⟨_, (sinkData_bind_eq_ok hlen (f := fun events => (FlvRet.ok, true, _))).mpr
          ⟨h.asserted h264 h265, rfl⟩, ?_⟩
        intro _ hsize
        rw [if_pos hsize]
        split
        . exact ⟨_, List.mem_cons_of_mem _ List.mem_cons_self⟩
        . exact ⟨_, List.mem_cons_self⟩

end Tag

namespace FlvDemuxer

variable {d d' d'' : FlvDemuxer} {ret : FlvRet} {events : List FlvEvent}

/--
The tag is a sequence header with data behind its media header.
-/
def HasSeqHdr (d : FlvDemuxer) : Prop :=
  d.tagType = tagAudio ∧ audioCodecType (d.tag.getD 0 0) ≠ none ∧ d.tag.getD 1 0 = 0x00 ∧ 2 < d.tagDataSize
    ∨ d.tagType = tagVideo ∧ IsVideoSeqHdr d.tag ∧ 5 < d.tagDataSize

instance (d : FlvDemuxer) : Decidable d.HasSeqHdr := by
  unfold HasSeqHdr
  infer_instance

/--
The tag is one that `HandlePacket` consumes.
-/
structure Moves (d : FlvDemuxer) : Prop where
  audio : d.tagType = tagAudio → AudioMoves d.tagDataSize d.tag
  video : d.tagType = tagVideo → VideoMoves d.tagDataSize d.tag
  metadata : d.tagType = tagTypeMeta → MetaMoves d.tagDataSize d.tag

theorem length_tag (h : d.tagDataSize + tagPreSize ≤ d.buffer.length)
    : d.tag.length = d.tagDataSize + tagPreSize := by
  rw [tag, List.length_take]
  omega

/--
A tag whose codec is known, if it is an audio tag, is consumed and delivered if it moves, and only then.
-/
theorem handleTag_consumed (h : d.tagDataSize + tagPreSize ≤ d.buffer.length)
    : (∃ events, d.handleTag = .ok (.ok, true, events) ∧ (d.HasSeqHdr → ∃ pkt, .packet pkt ∈ events))
        ↔ d.Moves := by
  have hlen : d.tagDataSize ≤ d.tag.length := by
    rw [length_tag h]
    exact Nat.le_add_right _ _
  have htypes : tagAudio ≠ tagVideo ∧ tagAudio ≠ tagTypeMeta ∧ tagVideo ≠ tagTypeMeta := by decide
  unfold handleTag
  by_cases haudio : d.tagType = tagAudio
  . have hmoves : d.Moves ↔ AudioMoves d.tagDataSize d.tag := by
      constructor
      . intro h
        exact h.audio haudio
      . intro h
        exact ⟨fun _ => h, fun hvideo => absurd (haudio.symm.trans hvideo) htypes.left,
          fun hmeta => absurd (haudio.symm.trans hmeta) htypes.right.left⟩
    rw [if_pos haudio, hmoves]
    apply handleAudio_consumed hlen
    rintro (hseqHdr | hseqHdr)
    . exact hseqHdr.right.right.right
    . exact absurd (haudio.symm.trans hseqHdr.left) htypes.left
  . rw [if_neg haudio]
    by_cases hvideo : d.tagType = tagVideo
    . have hmoves : d.Moves ↔ VideoMoves d.tagDataSize d.tag := by
        constructor
        . intro h
          exact h.video hvideo
        . intro h
          exact ⟨fun haudio' => absurd haudio' haudio, fun _ => h,
            fun hmeta => absurd (hvideo.symm.trans hmeta) htypes.right.right⟩
      have hseqHdr : d.HasSeqHdr ↔ IsVideoSeqHdr d.tag ∧ 5 < d.tagDataSize := by
        simp only [HasSeqHdr, hvideo, htypes.left.symm, false_and, true_and, false_or]
      rw [if_pos hvideo, hmoves, ← handleVideo_consumed d.tagTimestamp hlen]
      simp only [hseqHdr, and_imp]
    . have hseqHdr : ¬d.HasSeqHdr := by
        simp only [HasSeqHdr, haudio, hvideo, false_and, or_false, not_false_eq_true]
      simp only [hseqHdr, false_implies, and_true]
      rw [if_neg hvideo]
      by_cases hmeta : d.tagType = tagTypeMeta
      . rw [if_pos hmeta, handleMeta_consumed hlen]
        constructor
        . intro h
          exact ⟨fun h => absurd h haudio, fun h => absurd h hvideo, fun _ => h⟩
        . intro h
          exact h.metadata hmeta
      . rw [if_neg hmeta]
        simp only [Except.ok.injEq, Prod.mk.injEq, true_and, exists_eq', true_iff]
        exact ⟨fun h => absurd h haudio, fun h => absurd h hvideo, fun h => absurd h hmeta⟩

/--
A call of `HandlePacket`, with the number of bytes that arrive after it.
-/
structure Call where
  before : FlvDemuxer
  ret : FlvRet
  after : FlvDemuxer
  events : List FlvEvent
  behind : Nat

/--
The loop of `InputPacket`, left in the last state.
-/
inductive Loop (behind : Nat) : FlvDemuxer → List Call → FlvDemuxer → Prop where
  | leave {d d' : FlvDemuxer} {ret : FlvRet} {events : List FlvEvent}
      (h : d.handlePacket = .ok (ret, d', events)) (hret : ret ≠ .ok)
      : Loop behind d [⟨d, ret, d', events, behind⟩] d'
  | again {d d' d'' : FlvDemuxer} {events : List FlvEvent} {calls : List Call}
      (h : d.handlePacket = .ok (.ok, d', events)) (rest : Loop behind d' calls d'')
      : Loop behind d (⟨d, .ok, d', events, behind⟩ :: calls) d''

/--
The calls of `HandlePacket` that the pieces of a stream lead to, where each call of `InputPacket` returns.
-/
inductive Calls : FlvDemuxer → List (List UInt8) → List Call → Prop where
  | done (d : FlvDemuxer) : Calls d [] []
  | input {d d' : FlvDemuxer} {data : List UInt8} {pieces : List (List UInt8)} {calls calls' : List Call}
      (hlen : d.buffer.length + data.length ≤ maxBufferLen)
      (loop : Loop pieces.flatten.length (d.feed data) calls d') (rest : Calls d' pieces calls')
      : Calls d (data :: pieces) (calls ++ calls')

/--
How many bytes of the stream there are from the sequence header on that a call handles.
-/
def Call.seqHdr (call : Call) : Option Nat :=
  match call.before.readHeaders with
  | (.ok, d) => if d.HasSeqHdr then some (d.buffer.length + call.behind) else none
  | _ => none

def Call.Consumes (call : Call) : Prop :=
  call.ret = .ok → call.after.buffer.length < call.before.buffer.length

/--
A call that handles a sequence header hands on a packet.
-/
def Call.Delivers (call : Call) : Prop := call.seqHdr ≠ none → ∃ pkt, .packet pkt ∈ call.events

/--
Each call of `InputPacket` returns, each call of `HandlePacket` that returns 0 has consumed something, and a
sequence header is delivered once.
-/
def Progresses (d : FlvDemuxer) (pieces : List (List UInt8)) : Prop :=
  ∃ calls, Calls d pieces calls
    ∧ (∀ call ∈ calls, call.Consumes)
    ∧ (∀ call ∈ calls, call.Delivers)
    ∧ calls.Pairwise fun call call' => ∀ pos, call.seqHdr = some pos → call'.seqHdr ≠ some pos

/--
The tags at the front of the buffer, up to the point where more bytes are needed or -1 is returned.
-/
inductive Tags : FlvDemuxer → FlvDemuxer → Prop where
  | wait {d d' : FlvDemuxer} {ret : FlvRet} (h : d.readHeaders = (ret, d')) (hret : ret ≠ .ok) : Tags d d'
  | unsupported {d d' : FlvDemuxer} (h : d.readHeaders = (.ok, d')) (htype : d'.tagType = tagAudio)
      (hcodec : audioCodecType (d'.tag.getD 0 0) = none) : Tags d d'
  | tag {d d' d'' : FlvDemuxer} (h : d.readHeaders = (.ok, d')) (hmoves : d'.Moves) (rest : Tags d'.consumeTag d'')
      : Tags d d''

/--
All tags of the stream are consumed, and what is buffered has a size that fits.
-/
inductive Moving : FlvDemuxer → List (List UInt8) → Prop where
  | done (d : FlvDemuxer) : Moving d []
  | input {d d' : FlvDemuxer} {data : List UInt8} {pieces : List (List UInt8)}
      (hlen : d.buffer.length + data.length ≤ maxBufferLen) (tags : Tags (d.feed data) d')
      (rest : Moving d' pieces) : Moving d (data :: pieces)

theorem Call.seqHdr_of_headers {call : Call} (h : call.before.readHeaders = (ret, d)) (hret : ret ≠ .ok)
    : call.seqHdr = none := by
  unfold seqHdr
  rw [h]
  cases ret with
  | ok => exact absurd rfl hret
  | needMore | error => rfl

theorem Call.seqHdr_of_tag {call : Call} (h : call.before.readHeaders = (.ok, d))
    : call.seqHdr = if d.HasSeqHdr then some (d.buffer.length + call.behind) else none := by
  unfold seqHdr
  rw [h]

theorem Call.seqHdr_eq_some {call : Call} {pos : Nat} (h : call.before.readHeaders = (.ok, d))
    : call.seqHdr = some pos ↔ d.HasSeqHdr ∧ pos = d.buffer.length + call.behind := by
  rw [seqHdr_of_tag h]
  split
  . next hseqHdr => simp only [Option.some.injEq, hseqHdr, true_and, eq_comm]
  . next hseqHdr => simp only [reduceCtorEq, hseqHdr, false_and]

theorem not_hasSeqHdr (htype : d.tagType = tagAudio) (hcodec : audioCodecType (d.tag.getD 0 0) = none)
    : ¬d.HasSeqHdr := by
  rintro (h | h)
  . exact h.right.left hcodec
  . exact absurd (htype.symm.trans h.left) (by decide)

theorem handlePacket_unsupported (h : d.readHeaders = (.ok, d')) (htype : d'.tagType = tagAudio)
    (hcodec : audioCodecType (d'.tag.getD 0 0) = none)
    : ∃ value events, d.handlePacket = .ok (.error value, d', events) := by
  rw [handlePacket_of_tag h, handleTag, if_pos htype, handleAudio, hcodec]
  exact ⟨_, _, rfl⟩

theorem handlePacket_moves (h : d.readHeaders = (.ok, d')) (hmoves : d'.Moves)
    : ∃ events, d.handlePacket = .ok (.ok, d'.consumeTag, events)
        ∧ (d'.HasSeqHdr → ∃ pkt, .packet pkt ∈ events) := by
  obtain ⟨events, hhandle, hdelivered⟩ := (handleTag_consumed (readHeaders_ok h).left).mpr hmoves
  rw [handlePacket_of_tag h, hhandle]
  exact ⟨events, rfl, hdelivered⟩

theorem consumeTag_length (h : d.readHeaders = (.ok, d')) : d'.consumeTag.buffer.length < d'.buffer.length := by
  have hlen := (readHeaders_ok h).left
  have hdrop : d'.consumeTag.buffer.length = d'.buffer.length - (d'.tagDataSize + tagPreSize) := List.length_drop
  rw [hdrop]
  simp only [tagPreSize] at hlen ⊢
  omega

/--
Each of the calls consumes and delivers, and the sequence headers that they handle begin between two places of
the stream, each at another one.
-/
structure Sound (low high : Nat) (calls : List Call) : Prop where
  consumes : ∀ call ∈ calls, call.Consumes
  delivers : ∀ call ∈ calls, call.Delivers
  within : ∀ call ∈ calls, ∀ pos, call.seqHdr = some pos → low < pos ∧ pos ≤ high
  distinct : calls.Pairwise fun call call' => ∀ pos, call.seqHdr = some pos → call'.seqHdr ≠ some pos

theorem Sound.append {low mid high : Nat} {calls calls' : List Call} (h : Sound mid high calls)
    (h' : Sound low mid calls') (hlow : low ≤ mid) (hhigh : mid ≤ high) : Sound low high (calls ++ calls') where
  consumes := List.forall_mem_append.mpr ⟨h.consumes, h'.consumes⟩
  delivers := List.forall_mem_append.mpr ⟨h.delivers, h'.delivers⟩
  within := by
    intro call hcall pos hpos
    rcases List.mem_append.mp hcall with hcall | hcall
    . have := h.within call hcall pos hpos
      omega
    . have := h'.within call hcall pos hpos
      omega
  distinct := by
    refine List.pairwise_append.mpr ⟨h.distinct, h'.distinct, ?_⟩
    intro call hcall call' hcall' pos hpos hpos'
    have := h.within call hcall pos hpos
    have := h'.within call' hcall' pos hpos'
    omega

theorem Sound.singleton {low high : Nat} {call : Call} (hconsumes : call.Consumes) (hdelivers : call.Delivers)
    (hwithin : ∀ pos, call.seqHdr = some pos → low < pos ∧ pos ≤ high) : Sound low high [call] where
  consumes := List.forall_mem_singleton.mpr hconsumes
  delivers := List.forall_mem_singleton.mpr hdelivers
  within := List.forall_mem_singleton.mpr hwithin
  distinct := List.pairwise_singleton _ _

/--
A call that leaves the loop without a sequence header.
-/
theorem Sound.leave {low high behind : Nat} (hret : ret ≠ .ok)
    (hseqHdr : (⟨d, ret, d', events, behind⟩ : Call).seqHdr = none)
    : Sound low high [⟨d, ret, d', events, behind⟩] := by
  apply Sound.singleton
  . intro hok
    exact absurd hok hret
  . intro hsome
    exact absurd hseqHdr hsome
  . intro pos hpos
    rw [hseqHdr] at hpos
    cases hpos

theorem tags_length (h : Tags d d') : d'.buffer.length ≤ d.buffer.length := by
  induction h with
  | wait h hret => exact readHeaders_length h
  | unsupported h htype hcodec => exact readHeaders_length h
  | tag h hmoves rest ih =>
    have := readHeaders_length h
    have := consumeTag_length h
    omega

theorem Tags.loop (behind : Nat) (h : Tags d d')
    : ∃ calls, Loop behind d calls d' ∧ Sound (d'.buffer.length + behind) (d.buffer.length + behind) calls := by
  induction h with
  | @wait d d' ret h hret =>
    exact ⟨_, .leave (handlePacket_of_headers h hret) hret, .leave hret (Call.seqHdr_of_headers h hret)⟩
  | @unsupported d d' h htype hcodec =>
    obtain ⟨value, events, hhandle⟩ := handlePacket_unsupported h htype hcodec
    refine ⟨_, .leave hhandle FlvRet.noConfusion, .leave FlvRet.noConfusion ?_⟩
    rw [Call.seqHdr_of_tag h, if_neg (not_hasSeqHdr htype hcodec)]
  | @tag d d' d'' h hmoves rest ih =>
    obtain ⟨events, hhandle, hdelivered⟩ := handlePacket_moves h hmoves
    obtain ⟨calls, hloop, hsound⟩ := ih
    have hread := readHeaders_length h
    have hconsume := consumeTag_length h
    have hrest := tags_length rest
    refine ⟨_, .again hhandle hloop, ?_⟩
    apply @Sound.append _ (d'.consumeTag.buffer.length + behind) _ [_] _ ?_ hsound
    . omega
    . omega
    . apply Sound.singleton
      . intro _
        change d'.consumeTag.buffer.length < d.buffer.length
        omega
      . intro hsome
        obtain ⟨pos, hpos⟩ := Option.ne_none_iff_exists'.mp hsome
        exact hdelivered ((Call.seqHdr_eq_some h).mp hpos).left
      . intro pos hpos
        obtain ⟨-, rfl⟩ := (Call.seqHdr_eq_some h).mp hpos
        change _ < d'.buffer.length + behind ∧ d'.buffer.length + behind ≤ _
        omega

/--
A tag that is not consumed is handled again, and the second call takes nothing out of the buffer.
-/
theorem Loop.consumed {behind : Nat} {calls : List Call} (h : d.readHeaders = (.ok, d'))
    (hhandle : d.handlePacket = .ok (.ok, d', events)) (loop : Loop behind d' calls d'')
    : ¬∀ call ∈ calls, call.Consumes := by
  have hagain : d'.handlePacket = .ok (.ok, d', events) :=
    handlePacket_again hhandle (fun _ => (readHeaders_ok h).right) FlvRet.noConfusion
  intro hconsumes
  cases loop with
  | leave hleave hret =>
    rw [hagain] at hleave
    cases hleave
    exact hret rfl
  | again hagain' rest =>
    rw [hagain] at hagain'
    cases hagain'
    exact Nat.lt_irrefl _ (hconsumes _ List.mem_cons_self rfl)

theorem Loop.tags {behind : Nat} {calls : List Call} (loop : Loop behind d calls d')
    (hconsumes : ∀ call ∈ calls, call.Consumes) (hdelivers : ∀ call ∈ calls, call.Delivers) : Tags d d' := by
  induction loop with
  | @leave d d' ret events h hret =>
    cases hread : d.readHeaders with
    | mk ret1 d1 =>
      by_cases hok : ret1 = .ok
      . subst hok
        rw [handlePacket_of_tag hread] at h
        cases htag : d1.handleTag with
        | error fault =>
          rw [htag] at h
          cases h
        | ok result =>
          obtain ⟨ret2, consumed, events2⟩ := result
          rw [htag] at h
          cases h
          rcases handleTag_ok htag with hret2 | ⟨htype, hcodec, rfl, -⟩
          . exact absurd hret2 hret
          . exact .unsupported hread htype hcodec
      . rw [handlePacket_of_headers hread hok] at h
        cases h
        exact .wait hread hok
  | @again d d' d'' events calls h rest ih =>
    obtain ⟨hdelivered, hdelivers'⟩ := List.forall_mem_cons.mp hdelivers
    have hconsumed := (List.forall_mem_cons.mp hconsumes).right
    cases hread : d.readHeaders with
    | mk ret1 d1 =>
      by_cases hok : ret1 = .ok
      . subst hok
        have hhandle := h
        rw [handlePacket_of_tag hread] at h
        cases htag : d1.handleTag with
        | error fault =>
          rw [htag] at h
          cases h
        | ok result =>
          obtain ⟨ret2, consumed, events2⟩ := result
          rw [htag] at h
          cases consumed with
          | false =>
            cases h
            exact absurd hconsumed (Loop.consumed hread hhandle rest)
          | true =>
            cases h
            refine .tag hread ((handleTag_consumed (readHeaders_ok hread).left).mp ⟨_, htag, ?_⟩)
              (ih hconsumed hdelivers')
            intro hseqHdr
            apply hdelivered
            rw [Call.seqHdr_of_tag hread, if_pos hseqHdr]
            exact Option.some_ne_none _
      . rw [handlePacket_of_headers hread hok] at h
        cases h
        exact absurd rfl hok

theorem Moving.calls {pieces : List (List UInt8)} (h : Moving d pieces)
    : ∃ calls, Calls d pieces calls ∧ Sound 0 (d.buffer.length + pieces.flatten.length) calls := by
  induction h with
  | done d => exact ⟨[], .done d, by simp, by simp, by simp, .nil⟩
  | @input d d' data pieces hlen tags rest ih =>
    obtain ⟨calls, hloop, hsound⟩ := tags.loop pieces.flatten.length
    obtain ⟨calls', hcalls, hsound'⟩ := ih
    have hle := tags_length tags
    have hsize : d.buffer.length + (data :: pieces).flatten.length
        = (d.feed data).buffer.length + pieces.flatten.length := by
      rw [List.flatten_cons, List.length_append, length_feed, Nat.add_assoc]
    rw [hsize]
    refine ⟨_, .input hlen hloop hcalls, hsound.append hsound' (Nat.zero_le _) ?_⟩
    omega

/--
Each tag of a stream that moves is consumed by the call that handles it, and a stream on which the demuxer
progresses moves.
-/
theorem progresses_iff (d : FlvDemuxer) (pieces : List (List UInt8)) : d.Progresses pieces ↔ d.Moving pieces := by
  constructor
  . rintro ⟨calls, hcalls, hconsumes, hdelivers, -⟩
    induction hcalls with
    | done d => exact .done d
    | input hlen loop rest ih =>
      obtain ⟨hconsumes, hconsumes'⟩ := List.forall_mem_append.mp hconsumes
      obtain ⟨hdelivers, hdelivers'⟩ := List.forall_mem_append.mp hdelivers
      exact .input hlen (loop.tags hconsumes hdelivers) (ih hconsumes' hdelivers')
  . intro h
    obtain ⟨calls, hcalls, hsound⟩ := h.calls
    exact ⟨calls, hcalls, hsound.consumes, hsound.delivers, hsound.distinct⟩

/--
A file that begins with the sequence header of H.264.
-/
def avcFile : List UInt8 :=
  [0x46, 0x4c, 0x56, 0x01, 0x01, 0x00, 0x00, 0x00, 0x09, 0x00, 0x00, 0x00, 0x00]
    ++ [0x09, 0x00, 0x00, 0x12, 0x00, 0x00, 0x00, 0x00, 0x00, 0x00, 0x00]
    ++ [0x17, 0x00, 0x00, 0x00, 0x00]
    ++ [0x01, 0x64, 0x00, 0x1f, 0xff, 0xe1, 0x00, 0x01, 0x67, 0x01, 0x00, 0x01, 0x68]
    ++ [0x00, 0x00, 0x00, 0x1d]

/--
The header is delivered for ever.
-/
theorem not_progresses
    : ¬∀ (d : FlvDemuxer) (pieces : List (List UInt8)), d.buffer.length + pieces.flatten.length ≤ maxBufferLen →
        d.Progresses pieces := by
  intro h
  have hhandle : (({} : FlvDemuxer).feed avcFile).handlePacket
      = .ok (.ok, (({} : FlvDemuxer).feed avcFile).readHeaders.2,
          [0x67, 0x68].map fun nalu => .packet
            { avType := .video
              codecType := .h264
              fmtType := .raw
              dts := 0
              pts := 0
              isSeqHdr := true
              isKeyFrame := false
              data := H264.startCode ++ [nalu] }) := rfl
  obtain ⟨calls, hcalls, hconsumes, -⟩ := h {} [avcFile] (by decide)
  cases hcalls with
  | input hlen loop rest =>
    obtain ⟨hconsumes, -⟩ := List.forall_mem_append.mp hconsumes
    cases loop with
    | leave hleave hret =>
      rw [hhandle] at hleave
      cases hleave
      exact hret rfl
    | again hagain rest =>
      have hsame := hhandle.symm.trans hagain
      simp only [Except.ok.injEq, Prod.mk.injEq, true_and] at hsame
      obtain ⟨rfl, rfl⟩ := hsame
      exact Loop.consumed rfl hhandle rest (List.forall_mem_cons.mp hconsumes).right

end FlvDemuxer

end Flv
