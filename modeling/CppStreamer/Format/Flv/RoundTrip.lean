import CppStreamer.Format.Flv.Demux

/-!
This module contains the round trip between `FlvMuxer` and `FlvDemuxer`.
-/

open ByteStream

namespace Flv

open Incremental FlvDemuxer FlvMuxer

/--
NALUs with their lengths in front.
-/
def avcc (nalus : List (List UInt8)) : List UInt8 :=
  nalus.flatMap fun nalu => write4Bytes nalu.length ++ nalu

/--
What a packet is about.
-/
structure Content where
  avType : MediaPktType
  codecType : MediaCodecType
  dts : Int
  pts : Int
  data : List UInt8
  deriving DecidableEq, Repr

def content (pkt : MediaPacket) : Content where
  avType := pkt.avType
  codecType := pkt.codecType
  dts := pkt.dts
  pts := pkt.pts
  data := pkt.data

/--
The times that the fields of a tag have room for.
-/
structure Timed (pkt : MediaPacket) : Prop where
  isSeqHdr : pkt.isSeqHdr = false
  dts_nonneg : 0 ≤ pkt.dts
  dts_lt : pkt.dts < 2 ^ 24
  dts_le_pts : pkt.dts ≤ pkt.pts
  delta_lt : pkt.pts - pkt.dts < 2 ^ 24

/--
What comes out for a packet. The tag of an audio packet has a single time.
-/
inductive Carried (pkt : MediaPacket) : List Content → Prop where
  | video (htimed : Timed pkt) (htype : pkt.avType = .video)
      (hcodec : pkt.codecType = .h264 ∨ pkt.codecType = .h265) {nalus : List (List UInt8)}
      (hdata : pkt.data = avcc nalus) (hnalus : ∀ nalu ∈ nalus, nalu ≠ [] ∧ nalu.length ≤ kMaxLen)
      (hsize : 5 + pkt.data.length < 2 ^ 24)
      : Carried pkt (nalus.map fun nalu =>
          ⟨.video, pkt.codecType, pkt.dts, pkt.pts, H264.startCode ++ nalu⟩)
  | audio (htimed : Timed pkt) (htype : pkt.avType = .audio)
      (hcodec : pkt.codecType = .aac ∨ pkt.codecType = .opus) (hdata : pkt.data ≠ [])
      (hsize : 2 + pkt.data.length < 2 ^ 24)
      : Carried pkt [⟨.audio, pkt.codecType, pkt.dts, pkt.dts, pkt.data⟩]

section Nalus

theorem avcc_cons_append (nalu : List UInt8) (nalus : List (List UInt8)) (size : List UInt8)
    : avcc (nalu :: nalus) ++ size = write4Bytes nalu.length ++ (nalu ++ (avcc nalus ++ size)) := by
  rw [avcc, List.flatMap_cons, List.append_assoc, List.append_assoc]
  rfl

theorem length_avcc_cons (nalu : List UInt8) (nalus : List (List UInt8))
    : (avcc (nalu :: nalus)).length = 4 + nalu.length + (avcc nalus).length := by
  rw [avcc, List.flatMap_cons, List.length_append, List.length_append, length_write4Bytes]
  rfl

theorem read4Bytes_avcc {nalu : List UInt8} (h : nalu.length < 2 ^ 32) (nalus : List (List UInt8)) (size : List UInt8)
    : read4Bytes (avcc (nalu :: nalus) ++ size) = nalu.length := by
  rw [avcc_cons_append, read4Bytes_write4Bytes]
  omega

theorem drop_avcc (nalu : List UInt8) (nalus : List (List UInt8)) (size : List UInt8)
    : (avcc (nalu :: nalus) ++ size).drop (4 + nalu.length) = avcc nalus ++ size := by
  rw [avcc_cons_append, ← List.drop_drop, List.drop_left' (length_write4Bytes _), List.drop_left]

theorem avccNalus_avcc {nalus : List (List UInt8)} (h : ∀ nalu ∈ nalus, nalu.length ≤ kMaxLen)
    (size : List UInt8)
    : avccNalus (avcc nalus).length (avcc nalus ++ size) = some (nalus.map (H264.startCode ++ ·)) := by
  induction nalus with
  | nil =>
    rw [avccNalus]
    rfl
  | cons nalu nalus ih =>
    have hle := h nalu (List.mem_cons_self ..)
    have hread : read4Bytes (avcc (nalu :: nalus) ++ size) = nalu.length := by
      apply read4Bytes_avcc
      simp only [kMaxLen] at hle
      omega
    have hlen := length_avcc_cons nalu nalus
    have htotal : (avcc (nalu :: nalus) ++ size).length = 4 + nalu.length + (avcc nalus ++ size).length := by
      rw [List.length_append, List.length_append, hlen, Nat.add_assoc]
    have htake : ((avcc (nalu :: nalus) ++ size).drop 4).take nalu.length = nalu := by
      rw [avcc_cons_append, List.drop_left' (length_write4Bytes _), List.take_left]
    have hleft : ((avcc (nalu :: nalus)).length : Int) - 4 - nalu.length = (avcc nalus).length := by omega
    rw [avccNalus, if_neg (by omega), if_neg (by omega), hread]
    simp only
    rw [if_neg (by omega), if_neg (by omega), drop_avcc, htake, hleft,
      ih fun nalu hnalu => h nalu (List.mem_cons_of_mem _ hnalu)]
    rfl

theorem avcc2Nalus_avcc {nalus : List (List UInt8)} (h : ∀ nalu ∈ nalus, nalu.length ≤ kMaxLen)
    (size : List UInt8)
    : avcc2Nalus (avcc nalus).length (avcc nalus ++ size) = some (nalus.map (H264.startCode ++ ·)) := by
  rw [avcc2Nalus]
  cases nalus with
  | nil => rfl
  | cons nalu nalus =>
    rw [if_neg, avccNalus_avcc h]
    rw [avcc, List.flatMap_cons, List.length_append, List.length_append, length_write4Bytes]
    omega

theorem naluPackets_content (output : MediaPacket) (nalus : List (List UInt8))
    : ((nalus.map (H264.startCode ++ ·)).filterMap (naluPacket output)).map content
        = nalus.map fun nalu =>
            ⟨output.avType, output.codecType, output.dts, output.pts, H264.startCode ++ nalu⟩ := by
  induction nalus with
  | nil => rfl
  | cons nalu nalus ih =>
    have hpos : H264.getNaluTypePos (H264.startCode ++ nalu) = some 4 := rfl
    rw [List.map_cons, List.map_cons, ← ih, List.filterMap_cons_some (by rw [naluPacket, hpos]; rfl)]
    rfl

end Nalus

section Tag

/--
The state between two tags.
-/
structure Ready (d : FlvDemuxer) : Prop where
  buffer : d.buffer = []
  flvHeaderReady : d.flvHeaderReady = true
  tagHeaderReady : d.tagHeaderReady = false

variable {d : FlvDemuxer} {pkt : MediaPacket}

theorem readHeaders_muxTag (hd : Ready d) (hnonneg : 0 ≤ pkt.dts) (hlt : pkt.dts < 2 ^ 24) (tagType : UInt8)
    {mediaHeader : List UInt8} (hsize : mediaHeader.length + pkt.data.length < 2 ^ 24)
    : (d.feed (muxTag tagType mediaHeader pkt)).readHeaders = (.ok,
        { d with
          tagType
          tagDataSize := mediaHeader.length + pkt.data.length
          tagTimestamp := pkt.dts.toNat
          tagHeaderReady := true
          buffer := mediaHeader ++ pkt.data
            ++ write4Bytes (tagHeaderLen + (mediaHeader.length + pkt.data.length)) }) := by
  generalize hmedia : mediaHeader.length + pkt.data.length = mediaSize at hsize
  generalize hbody : mediaHeader ++ pkt.data ++ write4Bytes (tagHeaderLen + mediaSize) = body
  have hlen : (tagHeader tagType mediaSize pkt.dts).length = tagHeaderLen := rfl
  have hbuffer : (d.feed (muxTag tagType mediaHeader pkt)).buffer
      = tagHeader tagType mediaSize pkt.dts ++ body := by
    rw [feed, muxTag, hmedia, ← hbody, hd.buffer]
    simp only [List.nil_append, List.append_assoc]
  have hbase : (pkt.dts % 2 ^ 24).toNat = pkt.dts.toNat := by
    rw [Int.emod_eq_of_lt hnonneg hlt]
  have hread1 : read3Bytes ((tagHeader tagType mediaSize pkt.dts).drop 1) = mediaSize := by
    rw [tagHeader, List.drop_one, List.tail_cons, read3Bytes_write3Bytes]
    omega
  have hread2 : read3Bytes ((tagHeader tagType mediaSize pkt.dts).drop 4) = pkt.dts.toNat := by
    have hdrop : (tagHeader tagType mediaSize pkt.dts).drop 4
        = write3Bytes (pkt.dts % 2 ^ 24).toNat ++ [byteAt (pkt.dts % 2 ^ 24).toNat 3, 0, 0, 1] := rfl
    rw [hdrop, read3Bytes_write3Bytes, hbase]
    omega
  have hext : ((tagHeader tagType mediaSize pkt.dts).getD 7 0).toNat = 0 := by
    change (byteAt (pkt.dts % 2 ^ 24).toNat 3).toNat = 0
    rw [byteAt_toNat, hbase]
    omega
  have hflv : (d.feed (muxTag tagType mediaHeader pkt)).readFlvHeader
      = (.ok, d.feed (muxTag tagType mediaHeader pkt)) := by
    rw [readFlvHeader, if_pos]
    exact hd.flvHeaderReady
  have htag : (d.feed (muxTag tagType mediaHeader pkt)).readTagHeader = (.ok,
      { d with
        tagType, tagDataSize := mediaSize, tagTimestamp := pkt.dts.toNat, tagHeaderReady := true
        buffer := body }) := by
    have hready : ¬(d.feed (muxTag tagType mediaHeader pkt)).tagHeaderReady = true := by
      change ¬d.tagHeaderReady = true
      rw [hd.tagHeaderReady]
      exact Bool.false_ne_true
    rw [readTagHeader, if_neg hready, hbuffer, if_neg (by rw [List.length_append, hlen]; omega),
      List.take_left' hlen, List.drop_left' hlen]
    simp only [hread1, hread2, hext]
    rfl
  have hfull : ¬body.length < mediaSize + tagPreSize := by
    rw [← hbody, List.length_append, List.length_append, hmedia]
    exact Nat.lt_irrefl _
  rw [readHeaders, hflv]
  simp only [htag]
  rw [if_neg hfull]

theorem Ready.quiet (hd : Ready d) : reader.Quiet d := by
  have hflv : d.readFlvHeader = (.ok, d) := by
    rw [readFlvHeader, if_pos hd.flvHeaderReady]
  have htag : d.readTagHeader = (.needMore, d) := by
    rw [readTagHeader, if_neg (by rw [hd.tagHeaderReady]; exact Bool.false_ne_true), hd.buffer]
    rfl
  have hread : d.readHeaders = (.needMore, d) := by
    rw [readHeaders, hflv]
    simp only [htag]
  change d.step.filterMap FlvOutput.packet? = .stall d
  rw [step, handlePacket, hread]
  rfl

theorem filterMap_packet (pkts : List MediaPacket)
    : ((pkts.map FlvEvent.packet).map FlvOutput.event).filterMap FlvOutput.packet? = pkts := by
  rw [List.map_map, List.filterMap_map]
  exact List.filterMap_some

theorem drains_muxTag (hd : Ready d) (hnonneg : 0 ≤ pkt.dts) (hlt : pkt.dts < 2 ^ 24) (tagType : UInt8)
    (mediaHeader : List UInt8) (hsize : mediaHeader.length + pkt.data.length < 2 ^ 24)
    {pkts : List MediaPacket}
    (hhandle : ∀ d' : FlvDemuxer, d'.tagType = tagType →
      d'.tagDataSize = mediaHeader.length + pkt.data.length → d'.tagTimestamp = pkt.dts.toNat →
      d'.tag = mediaHeader ++ pkt.data
        ++ write4Bytes (tagHeaderLen + (mediaHeader.length + pkt.data.length)) →
      d'.handleTag = .ok (.ok, true, pkts.map .packet))
    : ∃ d', reader.Drains (d.feed (muxTag tagType mediaHeader pkt)) pkts d' ∧ Ready d' := by
  have hread := readHeaders_muxTag hd hnonneg hlt tagType hsize
  generalize hmid : { d with
    tagType, tagDataSize := mediaHeader.length + pkt.data.length, tagTimestamp := pkt.dts.toNat
    tagHeaderReady := true
    buffer := mediaHeader ++ pkt.data
      ++ write4Bytes (tagHeaderLen + (mediaHeader.length + pkt.data.length)) : FlvDemuxer } = mid at hread
  have hlen : mid.buffer.length = mid.tagDataSize + tagPreSize := by
    rw [← hmid, List.length_append, List.length_append]
    rfl
  have htag : mid.tag = mid.buffer := List.take_of_length_le (Nat.le_of_eq hlen)
  have hdone : mid.handleTag = .ok (.ok, true, pkts.map .packet) := by
    apply hhandle mid
    . rw [← hmid]
    . rw [← hmid]
    . rw [← hmid]
    . rw [htag, ← hmid]
  have hready : Ready mid.consumeTag := by
    constructor
    . exact List.drop_of_length_le (Nat.le_of_eq hlen)
    . rw [← hmid]
      exact hd.flvHeaderReady
    . rfl
  have hstep : reader.step (d.feed (muxTag tagType mediaHeader pkt)) = .next mid.consumeTag pkts := by
    have hstep : (d.feed (muxTag tagType mediaHeader pkt)).step
        = .next mid.consumeTag ((pkts.map FlvEvent.packet).map FlvOutput.event) := by
      rw [step, handlePacket, hread]
      simp only [hdone]
      rfl
    change (d.feed (muxTag tagType mediaHeader pkt)).step.filterMap FlvOutput.packet? = _
    rw [hstep, Step.filterMap, filterMap_packet]
  have hdrains := Reader.Drains.next (R := reader) trivial hstep (.stall trivial hready.quiet)
  rw [List.append_nil] at hdrains
  exact ⟨_, hdrains, hready⟩

theorem audioCodecType_muxed {codecType : MediaCodecType} (h : codecType = .aac ∨ codecType = .opus)
    : ∃ codec, audioCodec codecType = some codec ∧ audioCodecType (0x0f ||| codec) = some codecType := by
  rcases h with rfl | rfl
  . exact ⟨_, rfl, rfl⟩
  . exact ⟨_, rfl, rfl⟩

theorem videoCodecType_muxed {codecType : MediaCodecType} (h : codecType = .h264 ∨ codecType = .h265)
    : ∃ codec, videoCodec codecType = some codec
        ∧ ∀ flag ∈ [videoKeyFlag, videoInterFlag], videoCodecType (flag ||| codec) = codecType := by
  rcases h with rfl | rfl
  all_goals
    refine ⟨_, rfl, ?_⟩
    intro flag hflag
    simp only [List.mem_cons, List.not_mem_nil, or_false] at hflag
    rcases hflag with rfl | rfl
    all_goals rfl

theorem handleAudio_muxed (hseq : pkt.isSeqHdr = false) (hne : pkt.data ≠ []) {codec : UInt8}
    (hcodec : audioCodecType (0x0f ||| codec) = some pkt.codecType) (ts : Nat) (size : List UInt8)
    : handleAudio ((audioHeader pkt codec).length + pkt.data.length) ts
        (audioHeader pkt codec ++ pkt.data ++ size) = .ok (.ok, true,
          [{ avType := .audio, codecType := pkt.codecType, fmtType := .raw, dts := ts, pts := ts
             isSeqHdr := false, isKeyFrame := true, data := pkt.data : MediaPacket }].map .packet) := by
  have hpos := List.length_pos_iff.mpr hne
  have htake : (audioHeader pkt codec ++ pkt.data ++ size).take
      ((audioHeader pkt codec).length + pkt.data.length) = audioHeader pkt codec ++ pkt.data :=
    List.take_left' List.length_append
  have hlen : (audioHeader pkt codec).length = 2 := rfl
  have hflags : (audioHeader pkt codec ++ pkt.data ++ size).getD 0 0 = 0x0f ||| codec := rfl
  have htype : (audioHeader pkt codec ++ pkt.data ++ size).getD 1 0 = 1 := by
    change (if pkt.isSeqHdr then (0x00 : UInt8) else 0x01) = 1
    rw [hseq]
    rfl
  have hasc : ¬(isAscHeader (audioHeader pkt codec ++ pkt.data ++ size) = true) := by
    rw [isAscHeader, htype]
    simp
  rw [handleAudio, hflags, hcodec]
  simp only
  rw [if_neg (fun h => hasc h.left), htype, sinkData, if_pos (by omega)]
  simp only
  rw [if_neg (fun h => hasc h.left), htake, List.drop_left' hlen]
  rfl

theorem handleVideo_muxed (htimed : Timed pkt) (hcodec : pkt.codecType = .h264 ∨ pkt.codecType = .h265)
    {codec : UInt8}
    (hmuxed : ∀ flag ∈ [videoKeyFlag, videoInterFlag], videoCodecType (flag ||| codec) = pkt.codecType)
    {nalus : List (List UInt8)} (hdata : pkt.data = avcc nalus)
    (hnalus : ∀ nalu ∈ nalus, nalu ≠ [] ∧ nalu.length ≤ kMaxLen) (size : List UInt8)
    : ∃ pkts : List MediaPacket, handleVideo ((videoHeader pkt codec).length + pkt.data.length) pkt.dts.toNat
          (videoHeader pkt codec ++ pkt.data ++ size) = .ok (.ok, true, pkts.map .packet)
        ∧ pkts.map content = nalus.map fun nalu =>
          ⟨.video, pkt.codecType, pkt.dts, pkt.pts, H264.startCode ++ nalu⟩ := by
  obtain ⟨hseq, hnonneg, hlt, hle, hdelta⟩ := htimed
  generalize hp : videoHeader pkt codec ++ pkt.data ++ size = p
  have hlen : (videoHeader pkt codec).length = 5 := rfl
  have htake : p.take ((videoHeader pkt codec).length + pkt.data.length) = videoHeader pkt codec ++ pkt.data := by
    rw [← hp]
    exact List.take_left' List.length_append
  have hcodecType : videoCodecType (p.getD 0 0) = pkt.codecType := by
    rw [← hp]
    apply hmuxed
    split
    . exact List.mem_cons_self ..
    . exact List.mem_cons_of_mem _ (List.mem_cons_self ..)
  have htype : p.getD 1 0 = 1 := by
    rw [← hp]
    change (if pkt.isSeqHdr then videoAvcSeqhdr else videoAvcNalu) = 1
    rw [hseq]
    rfl
  have hread : read3Bytes (p.drop 2) = (pkt.pts - pkt.dts).toNat := by
    have hdrop : p.drop 2 = write3Bytes
        (if pkt.dts < pkt.pts then ((pkt.pts - pkt.dts) % 2 ^ 32).toNat else 0) ++ (pkt.data ++ size) := by
      rw [← hp]
      rfl
    rw [hdrop, read3Bytes_write3Bytes]
    split
    . omega
    . omega
  have hpts : ((pkt.dts.toNat : Int) + (pkt.pts - pkt.dts).toNat) % 2 ^ 32 = pkt.pts := by omega
  have hdts : (pkt.dts.toNat : Int) = pkt.dts := Int.toNat_of_nonneg hnonneg
  have hseq' (key : Prop) : ¬(key ∧ (1 : UInt8) = 0x00) := fun h => absurd h.right (by decide)
  have hdrop : p.drop 5 = avcc nalus ++ size := by
    rw [← hp, List.append_assoc, List.drop_left' hlen, hdata]
  have hsize : (videoHeader pkt codec).length + pkt.data.length - 5 = (avcc nalus).length := by
    rw [hlen, hdata, Nat.add_sub_cancel_left]
  unfold handleVideo
  simp only [hcodecType, htype, hread, hpts, hseq', decide_false, Bool.false_eq_true, false_and, if_false, hcodec,
    if_true]
  rw [hdts, hdrop, hsize]
  split
  . have havcc := avcc2Nalus_avcc (fun nalu hnalu => (hnalus nalu hnalu).right) size
    rw [havcc]
    exact ⟨_, rfl, naluPackets_content _ nalus⟩
  . next hshort =>
    cases nalus with
    | nil => exact ⟨[], rfl, rfl⟩
    | cons nalu nalus =>
      rw [hlen, hdata, avcc, List.flatMap_cons, List.length_append, List.length_append, length_write4Bytes] at hshort
      omega

theorem drains_muxPacket (hd : Ready d) {contents : List Content} (h : Carried pkt contents)
    : ∃ tag pkts d', muxPacket pkt = some tag ∧ reader.Drains (d.feed tag) pkts d' ∧ Ready d'
        ∧ pkts.map content = contents := by
  cases h with
  | video htimed htype hcodec hdata hnalus hsize =>
    obtain ⟨codec, hsome, hmuxed⟩ := videoCodecType_muxed hcodec
    obtain ⟨pkts, hhandle, hcontent⟩ := handleVideo_muxed htimed hcodec hmuxed hdata hnalus
      (write4Bytes (tagHeaderLen + ((videoHeader pkt codec).length + pkt.data.length)))
    have hdrains := drains_muxTag hd htimed.dts_nonneg htimed.dts_lt tagVideo (videoHeader pkt codec) hsize (by
      intro d' htag hsize htime hbytes
      rw [handleTag, htag, if_neg (by decide), if_pos rfl, hsize, htime, hbytes, hhandle])
    obtain ⟨d', hdrains, hready⟩ := hdrains
    refine ⟨_, pkts, d', ?_, hdrains, hready, hcontent⟩
    rw [muxPacket, htype, hsome]
    rfl
  | audio htimed htype hcodec hdata hsize =>
    obtain ⟨codec, hsome, hmuxed⟩ := audioCodecType_muxed hcodec
    have hhandle := handleAudio_muxed htimed.isSeqHdr hdata hmuxed pkt.dts.toNat
      (write4Bytes (tagHeaderLen + ((audioHeader pkt codec).length + pkt.data.length)))
    have hdrains := drains_muxTag hd htimed.dts_nonneg htimed.dts_lt tagAudio (audioHeader pkt codec) hsize (by
      intro d' htag hsize htime hbytes
      rw [handleTag, htag, if_pos rfl, hsize, htime, hbytes, hhandle])
    obtain ⟨d', hdrains, hready⟩ := hdrains
    refine ⟨_, _, d', ?_, hdrains, hready, ?_⟩
    . rw [muxPacket, htype, hsome]
      rfl
    . have hdts : (pkt.dts.toNat : Int) = pkt.dts := Int.toNat_of_nonneg htimed.dts_nonneg
      simp [content, hdts]

end Tag

section RoundTrip

theorem drains_run {pkts : List MediaPacket} {contents : List (List Content)}
    (h : List.Forall₂ Carried pkts contents)
    : ∀ {m : FlvMuxer} {d : FlvDemuxer}, m.headerReady = true → Ready d →
        ∃ out d', reader.Drains (d.feed ((m.run pkts).flatMap (·.data))) out d' ∧ out.map content = contents.flatten := by
  induction h with
  | nil =>
    intro m d _ hd
    refine ⟨[], d, ?_, rfl⟩
    rw [FlvMuxer.run, List.flatMap_nil]
    have hfeed : d.feed [] = d := reader.feed_nil d
    rw [hfeed]
    exact .stall trivial hd.quiet
  | @cons pkt pkt' pkts contents hpkt hrest ih =>
    intro m d hm hd
    obtain ⟨tag, out, d1, htag, hdrains, hready, hcontent⟩ := drains_muxPacket hd hpkt
    obtain ⟨out', d2, hdrains', hcontent'⟩ := ih (m := { m with headerReady := true }) rfl hready
    refine ⟨out ++ out', d2, ?_, ?_⟩
    . rw [FlvMuxer.run, FlvMuxer.inputPacket, htag, hm]
      exact Reader.Drains.append (R := reader) hdrains hdrains'
    . rw [List.map_append, hcontent, hcontent', List.flatten_cons]

theorem drains_muxFlvHeader (m : FlvMuxer)
    : ∃ d, reader.Drains (({} : FlvDemuxer).feed m.muxFlvHeader) [] d ∧ Ready d := by
  obtain ⟨hasVideo, hasAudio, _⟩ := m
  cases hasVideo
  all_goals
    cases hasAudio
    all_goals exact ⟨_, .stall trivial rfl, rfl, rfl, rfl⟩

/--
What is fed to the demuxer comes out as it was put into the muxer, however the bytes are cut.
-/
theorem run_carried {m : FlvMuxer} (hm : m.headerReady = false) {pkts : List MediaPacket}
    {contents : List (List Content)} (h : List.Forall₂ Carried pkts contents) {cuts : List (List UInt8)}
    (hcuts : cuts.flatten = (m.run pkts).flatMap (·.data))
    : ∃ out d, FlvDemuxer.reader.run {} cuts = (out, some d) ∧ out.map content = contents.flatten := by
  have hquiet : reader.Quiet {} := rfl
  cases h with
  | nil =>
    refine ⟨[], {}, Reader.Drains.run_eq hquiet ?_, rfl⟩
    rw [hcuts]
    exact .stall trivial hquiet
  | @cons pkt pkt' pkts contents hpkt hrest =>
    obtain ⟨d0, hheader, hd0⟩ := drains_muxFlvHeader m
    obtain ⟨tag, out, d1, htag, hdrains, hready, hcontent⟩ := drains_muxPacket hd0 hpkt
    obtain ⟨out', d2, hdrains', hcontent'⟩ := drains_run hrest (m := { m with headerReady := true }) rfl hready
    refine ⟨[] ++ out ++ out', d2, Reader.Drains.run_eq hquiet ?_, ?_⟩
    . rw [hcuts, FlvMuxer.run, FlvMuxer.inputPacket, htag, hm]
      exact Reader.Drains.append (R := reader) (Reader.Drains.append (R := reader) hheader hdrains) hdrains'
    . rw [List.nil_append, List.map_append, hcontent, hcontent', List.flatten_cons]

theorem run_carried_sample
    : ∃ out d, FlvDemuxer.reader.run {}
          [[0x46, 0x4c, 0x56, 0x01, 5, 0, 0, 0, 9, 0, 0, 0, 0, 9, 0, 0, 11, 0, 0, 40],
           [0, 0, 0, 1, 0x17, 1, 0, 0, 5, 0, 0, 0, 2, 0x65, 7, 0, 0, 0, 22, 8, 0, 0, 3, 0, 0, 41, 0, 0, 0, 1],
           [0xaf, 1, 0x21, 0, 0, 0, 14]] = (out, some d)
        ∧ out.map content = [[⟨.video, .h264, 40, 45, [0, 0, 0, 1, 0x65, 7]⟩],
          [⟨.audio, .aac, 41, 41, [0x21]⟩]].flatten := by
  have hvideo : Carried
      { avType := .video, codecType := .h264, dts := 40, pts := 45, isKeyFrame := true
        data := [0, 0, 0, 2, 0x65, 7] } ([[0x65, 7]].map fun nalu => ⟨.video, .h264, 40, 45, H264.startCode ++ nalu⟩) :=
    .video ⟨rfl, by decide, by decide, by decide, by decide⟩ rfl (Or.inl rfl) rfl (by decide) (by decide)
  have haudio : Carried { avType := .audio, codecType := .aac, dts := 41, pts := 50, data := [0x21] }
      [⟨.audio, .aac, 41, 41, [0x21]⟩] :=
    .audio ⟨rfl, by decide, by decide, by decide, by decide⟩ rfl (Or.inl rfl) (by decide) (by decide)
  exact run_carried (m := {}) rfl (.cons hvideo (.cons haudio .nil)) (by decide)

/--
An audio packet comes back with its decoding time as its presentation time.
-/
theorem not_run_carried
    : ¬∃ out d, FlvDemuxer.reader.run {} [((({} : FlvMuxer).run
            [{ avType := .audio, codecType := .aac, dts := 41, pts := 50, data := [0x21] }]).flatMap (·.data))]
          = (out, some d)
        ∧ out.map content = [⟨.audio, .aac, 41, 50, [0x21]⟩] := by
  rintro ⟨out, d, hrun, hcontent⟩
  have hout : (FlvDemuxer.reader.run {} [((({} : FlvMuxer).run
      [{ avType := .audio, codecType := .aac, dts := 41, pts := 50, data := [0x21] }]).flatMap (·.data))]).1.map
        content = [⟨.audio, .aac, 41, 41, [0x21]⟩] := by
    rfl
  rw [hrun, hcontent] at hout
  revert hout
  decide

end RoundTrip

end Flv
