import CppStreamer.Format.MpegTs.MuxSource

/-!
This module contains the bits of an ADTS header, and the runs of AAC packets whose frames are written behind the headers
of their stream.
-/

open ByteStream

namespace MpegTs

section Header

/--
The 56 bits of a header of MPEG-2 without a CRC: the sync word, the profile, the index of the sampling rate, the channel
configuration, the length of the frame, a full buffer and one block.
-/
def adtsBits (profile index channel frameLength : Nat) : Nat :=
  0xfff * 2 ^ 44 + 2 ^ 43 + 2 ^ 40 + profile * 2 ^ 38 + index * 2 ^ 34 + channel * 2 ^ 30 + frameLength * 2 ^ 13
    + 0x7ff * 2 ^ 2

def adtsBytes (profile index channel frameLength : Nat) : List UInt8 :=
  let bits := adtsBits profile index channel frameLength
  [byteAt bits 6, byteAt bits 5, byteAt bits 4, byteAt bits 3, byteAt bits 2, byteAt bits 1, byteAt bits 0]

/--
The 13 bits of the length in a header.
-/
def frameLengthOf (data : List UInt8) : Nat :=
  (data.getD 3 0).toNat % 2 ^ 2 * 2 ^ 11 + (data.getD 4 0).toNat * 2 ^ 3 + (data.getD 5 0).toNat / 2 ^ 5

/--
The frames that are found by the lengths in their headers.
-/
def adtsWalk (data : List UInt8) : List (List UInt8) :=
  if data.length < 7 ∨ frameLengthOf data < 7 then []
  else data.take (frameLengthOf data) :: adtsWalk (data.drop (frameLengthOf data))
termination_by data.length
decreasing_by
  rw [List.length_drop]
  omega

theorem profileByte : ∀ profile < 4, ∀ index < 16, ∀ high < 2,
    UInt8.ofNat (profile * 2 ^ 6) ||| UInt8.ofNat (index * 4) ||| UInt8.ofNat high
      = UInt8.ofNat (profile * 2 ^ 6 + index * 4 + high) := by
  decide

theorem channelByte : ∀ channel < 8, ∀ high < 4,
    UInt8.ofNat (channel * 2 ^ 6) ||| UInt8.ofNat high = UInt8.ofNat (channel * 2 ^ 6 + high) := by
  decide

theorem lengthByte : ∀ low < 8, UInt8.ofNat (low * 2 ^ 5) ||| 0x1f = UInt8.ofNat (low * 2 ^ 5 + 0x1f) := by decide

theorem ofNat_eq_of_mod {a b : Nat} (h : a % 2 ^ 8 = b % 2 ^ 8) : UInt8.ofNat a = UInt8.ofNat b := by
  apply UInt8.toNat_inj.mp
  rw [UInt8.toNat_ofNat', UInt8.toNat_ofNat']
  exact h

theorem byteAt_of_div {value i d v : Nat} (hd : 256 ^ i = d) (h : value / d % 2 ^ 8 = v % 2 ^ 8)
    : byteAt value i = UInt8.ofNat v := by
  rw [byteAt, hd]
  exact ofNat_eq_of_mod h

theorem makeAdts_eq {objectType sampleRate channel size : Nat} (htype : 1 ≤ objectType ∧ objectType ≤ 4)
    (hindex : getSamplerateIndex sampleRate < 2 ^ 4) (hchannel : channel < 2 ^ 3) (hsize : size ≤ 8184)
    : makeAdts objectType sampleRate channel size
        = adtsBytes (objectType - 1) (getSamplerateIndex sampleRate) channel (size + 7) := by
  have hlength : (size + 7) % 2 ^ 13 = size + 7 := by omega
  have hlow : UInt8.ofNat ((size + 7) * 2 ^ 5) = UInt8.ofNat ((size + 7) % 2 ^ 3 * 2 ^ 5) := ofNat_eq_of_mod (by omega)
  unfold makeAdts
  simp only [hlength]
  rw [profileByte _ (by omega) _ hindex _ (by omega), channelByte _ hchannel _ (by omega), hlow,
    lengthByte _ (by omega)]
  generalize getSamplerateIndex sampleRate = index at hindex
  have hbits : adtsBits (objectType - 1) index channel (size + 7) = 0xfff * 2 ^ 44 + 2 ^ 43 + 2 ^ 40
    + (objectType - 1) * 2 ^ 38 + index * 2 ^ 34 + channel * 2 ^ 30 + (size + 7) * 2 ^ 13 + 0x7ff * 2 ^ 2 := rfl
  unfold adtsBytes
  generalize adtsBits (objectType - 1) index channel (size + 7) = bits at hbits
  have hsync : byteAt bits 6 = UInt8.ofNat 0xff := byteAt_of_div (rfl : 256 ^ 6 = 2 ^ 48) (by omega)
  have hversion : byteAt bits 5 = UInt8.ofNat 0xf9 := byteAt_of_div (rfl : 256 ^ 5 = 2 ^ 40) (by omega)
  have hprofile : byteAt bits 4 = UInt8.ofNat ((objectType - 1) * 2 ^ 6 + index * 4 + channel / 4) :=
    byteAt_of_div (rfl : 256 ^ 4 = 2 ^ 32) (by omega)
  have hchannels : byteAt bits 3 = UInt8.ofNat (channel * 2 ^ 6 + (size + 7) / 2 ^ 11) :=
    byteAt_of_div (rfl : 256 ^ 3 = 2 ^ 24) (by omega)
  have hmiddle : byteAt bits 2 = UInt8.ofNat ((size + 7) / 8) := byteAt_of_div (rfl : 256 ^ 2 = 2 ^ 16) (by omega)
  have hlast : byteAt bits 1 = UInt8.ofNat ((size + 7) % 2 ^ 3 * 2 ^ 5 + 0x1f) :=
    byteAt_of_div (rfl : 256 ^ 1 = 2 ^ 8) (by omega)
  have hblocks : byteAt bits 0 = UInt8.ofNat 0xfc := byteAt_of_div (rfl : 256 ^ 0 = 1) (by omega)
  simp only [hsync, hversion, hprofile, hchannels, hmiddle, hlast, hblocks]
  rfl

theorem frameLengthOf_adtsBytes {profile index channel frameLength : Nat} (hlt : frameLength < 2 ^ 13)
    (rest : List UInt8)
    : frameLengthOf (adtsBytes profile index channel frameLength ++ rest) = frameLength := by
  have hbits : adtsBits profile index channel frameLength = 0xfff * 2 ^ 44 + 2 ^ 43 + 2 ^ 40
    + profile * 2 ^ 38 + index * 2 ^ 34 + channel * 2 ^ 30 + frameLength * 2 ^ 13 + 0x7ff * 2 ^ 2 := rfl
  unfold adtsBytes
  generalize adtsBits profile index channel frameLength = bits at hbits
  change (byteAt bits 3).toNat % 2 ^ 2 * 2 ^ 11 + (byteAt bits 2).toNat * 2 ^ 3 + (byteAt bits 1).toNat / 2 ^ 5 = _
  rw [byteAt_toNat, byteAt_toNat, byteAt_toNat]
  have hthree : 256 ^ 3 = 2 ^ 24 := rfl
  have htwo : 256 ^ 2 = 2 ^ 16 := rfl
  rw [hthree, htwo]
  omega

/--
A frame whose header has its length.
-/
def HasLength (frame : List UInt8) : Prop := 7 ≤ frame.length ∧ ∀ rest, frameLengthOf (frame ++ rest) = frame.length

theorem adtsWalk_flatten {frames : List (List UInt8)} (h : ∀ frame ∈ frames, HasLength frame)
    : adtsWalk frames.flatten = frames := by
  induction frames with
  | nil =>
    rw [List.flatten_nil, adtsWalk]
    exact if_pos (Or.inl (Nat.zero_lt_succ 6))
  | cons frame frames ih =>
    rcases List.forall_mem_cons.mp h with ⟨⟨hlen, hlength⟩, hrest⟩
    rw [List.flatten_cons, adtsWalk, hlength, if_neg, List.take_left, List.drop_left, ih hrest]
    rw [List.length_append]
    omega

end Header

section Run

/--
A sequence header.
-/
def IsAacHeader (p : SharedPacket) : Prop := p.isSeqHdr = true ∧ p.hasFlvAudioAsc = true

instance (p : SharedPacket) : Decidable (IsAacHeader p) := inferInstanceAs (Decidable (_ ∧ _))

/--
The rates of the standard table.
-/
def standardRates : List Nat := mpeg4AudioSampleRates.take 13

/--
A sequence header for a type from 1 to 4, a standard rate and up to seven channels, or a frame that has a length of 13
bits with its header.
-/
structure ValidAac (p : SharedPacket) : Prop where
  objectType : IsAacHeader p → 1 ≤ p.aacAscType.toNat ∧ p.aacAscType.toNat ≤ 4
  sampleRate : IsAacHeader p → p.sampleRate ∈ standardRates
  channel : IsAacHeader p → 1 ≤ p.channel.toNat ∧ p.channel.toNat ≤ 7
  length : ¬IsAacHeader p → p.data.length ≤ 8184

/--
The packet as it is written, if it is written.
-/
def MuxSource.writtenFrame (m : MuxSource) (p : SharedPacket) : List (List UInt8) :=
  if (p.isSeqHdr ∧ p.hasFlvAudioAsc) ∨ m.aacType = 0 ∨ m.sampleRate = 0 ∨ m.channel = 0 then []
  else (m.handleAudioAac [p] 0 p).2.map (·.data)

/--
The packets that a muxer writes, each of them in a buffer of its own.
-/
def MuxSource.writtenFrames (m : MuxSource) : List SharedPacket → List (List UInt8)
  | [] => []
  | p :: ps => m.writtenFrame p ++ (m.handleAudioAac [p] 0 p).1.writtenFrames ps

/--
A frame behind the header for the latest sequence header.
-/
def framed (header p : SharedPacket) : List UInt8 :=
  adtsBytes (header.aacAscType.toNat - 1) (standardRates.idxOf header.sampleRate) header.channel.toNat
    (p.data.length + 7) ++ p.data

def framedFrames (latest : Option SharedPacket) : List SharedPacket → List (List UInt8)
  | [] => []
  | p :: ps =>
    if IsAacHeader p then framedFrames (some p) ps
    else (latest.map (framed · p)).toList ++ framedFrames latest ps

/--
Each frame has the type of the latest sequence header, up to those that have the same profile, and room for its header.
-/
def FramesMatch (latest : Option SharedPacket) : List SharedPacket → Prop
  | [] => True
  | p :: ps =>
    if IsAacHeader p then FramesMatch (some p) ps
    else
      (∀ header, latest = some header →
        getAdtsTypeByAscType p.aacAscType = header.aacAscType.toNat ∧ 7 ≤ p.room.length)
      ∧ FramesMatch latest ps

/--
What the muxer keeps of the latest sequence header.
-/
structure Configured (m : MuxSource) (header : SharedPacket) : Prop where
  aacType : m.aacType = header.aacAscType
  sampleRate : m.sampleRate = header.sampleRate
  channel : m.channel = header.channel
  isHeader : IsAacHeader header
  valid : ValidAac header

theorem standardRates_index : ∀ rate ∈ standardRates,
    getSamplerateIndex rate = standardRates.idxOf rate ∧ standardRates.idxOf rate < 2 ^ 4 ∧ rate ≠ 0 := by
  decide

theorem getAdtsTypeByAscType_range (ascType : UInt8)
    : 1 ≤ getAdtsTypeByAscType ascType ∧ getAdtsTypeByAscType ascType ≤ 4 := by
  unfold getAdtsTypeByAscType
  split
  . omega
  . split
    . omega
    . split
      all_goals omega

variable {m : MuxSource} {header p : SharedPacket}

theorem length_adtsBytes (profile index channel frameLength : Nat)
    : (adtsBytes profile index channel frameLength).length = 7 := rfl

theorem hasLength_framed (h : p.data.length ≤ 8184) : HasLength (framed header p) := by
  have hlen : (framed header p).length = p.data.length + 7 := by
    rw [framed, List.length_append, length_adtsBytes, Nat.add_comm]
  constructor
  . omega
  . intro rest
    rw [hlen, framed, List.append_assoc]
    exact frameLengthOf_adtsBytes (by omega) _

theorem adtsHeader_eq (h : Configured m header) (hlen : p.data.length ≤ 8184)
    : m.adtsHeader p = adtsBytes (getAdtsTypeByAscType p.aacAscType - 1) (standardRates.idxOf header.sampleRate)
        header.channel.toNat (p.data.length + 7) := by
  rcases standardRates_index _ (h.valid.sampleRate h.isHeader) with ⟨hindex, hlt, -⟩
  have hchannel := (h.valid.channel h.isHeader).right
  unfold MuxSource.adtsHeader
  rw [h.sampleRate, h.channel, makeAdts_eq (getAdtsTypeByAscType_range _) (by omega) (by omega) hlen, hindex]

/--
A profile can be read back.
-/
theorem adtsBytes_profile {profile profile' index channel frameLength : Nat} (hlt : profile < 4) (hlt' : profile' < 4)
    (h : adtsBytes profile index channel frameLength = adtsBytes profile' index channel frameLength)
    : profile = profile' := by
  have hbyte := congrArg (fun bytes : List UInt8 => (bytes.getD 2 0).toNat) h
  change (byteAt (adtsBits _ _ _ _) 4).toNat = (byteAt (adtsBits _ _ _ _) 4).toNat at hbyte
  have hfour : 256 ^ 4 = 2 ^ 32 := rfl
  rw [byteAt_toNat, byteAt_toNat, hfour] at hbyte
  unfold adtsBits at hbyte
  omega

theorem prependAdts_data {adts : List UInt8} (hadts : adts.length = 7) (p : SharedPacket)
    : (7 ≤ p.room.length → (prependAdts adts p).data = adts ++ p.data)
        ∧ (p.room.length < 7 → (prependAdts adts p).data.length < p.data.length + 7) := by
  unfold prependAdts
  rw [hadts]
  cases hconsume : p.consumeBack 7 with
  | none =>
    have hroom := SharedPacket.consumeBack_isNone.mp hconsume
    constructor
    . omega
    . intro _
      simp only [List.length_append, List.length_take, List.length_drop, hadts]
      omega
  | some p' =>
    constructor
    . intro _
      simp only [SharedPacket.consumeBack_data hconsume]
    . intro hroom
      rw [SharedPacket.consumeBack_isNone.mpr hroom] at hconsume
      cases hconsume

theorem writtenFrame_header (h : IsAacHeader p) : m.writtenFrame p = [] := if_pos (Or.inl h)

theorem writtenFrame_unset (h : m.aacType = 0) : m.writtenFrame p = [] := if_pos (Or.inr (Or.inl h))

/--
A frame is written as it should be if its own type has the profile of the stream, and if there is room for the header.
-/
theorem writtenFrame_eq_iff (h : Configured m header) (hframe : ¬IsAacHeader p) (hlen : p.data.length ≤ 8184)
    : ∃ frame, m.writtenFrame p = [frame]
        ∧ (frame = framed header p
          ↔ getAdtsTypeByAscType p.aacAscType = header.aacAscType.toNat ∧ 7 ≤ p.room.length) := by
  have htype := h.valid.objectType h.isHeader
  have hchannel := h.valid.channel h.isHeader
  have hown := getAdtsTypeByAscType_range p.aacAscType
  have hset : ¬((p.isSeqHdr ∧ p.hasFlvAudioAsc) ∨ m.aacType = 0 ∨ m.sampleRate = 0 ∨ m.channel = 0) := by
    rintro (hheader | hzero | hzero | hzero)
    . exact hframe hheader
    . rw [h.aacType] at hzero
      rw [hzero] at htype
      exact absurd htype.left (by decide)
    . rw [h.sampleRate] at hzero
      exact (standardRates_index _ (h.valid.sampleRate h.isHeader)).right.right hzero
    . rw [h.channel] at hzero
      rw [hzero] at hchannel
      exact absurd hchannel.left (by decide)
  have hwritten : m.writtenFrame p = [(prependAdts (m.adtsHeader p) p).data] := by
    unfold MuxSource.writtenFrame MuxSource.handleAudioAac
    rw [if_neg hset, if_neg fun hheader => hset (Or.inl hheader), if_neg fun hunset => hset (Or.inr hunset)]
    rfl
  refine ⟨_, hwritten, ?_⟩
  rw [adtsHeader_eq h hlen]
  rcases prependAdts_data (length_adtsBytes (getAdtsTypeByAscType p.aacAscType - 1)
    (standardRates.idxOf header.sampleRate) header.channel.toNat (p.data.length + 7)) p with ⟨hroom, hnoRoom⟩
  by_cases hfits : 7 ≤ p.room.length
  . rw [hroom hfits, framed, and_iff_left hfits]
    constructor
    . intro hsame
      have hprofile := adtsBytes_profile (by omega) (by omega) (List.append_cancel_right hsame)
      omega
    . intro hsame
      rw [hsame]
  . apply iff_of_false
    . intro hsame
      have hshort := hnoRoom (by omega)
      rw [hsame, framed, List.length_append, length_adtsBytes] at hshort
      omega
    . exact fun h => hfits h.right

/--
What the muxer keeps, as long as there is no sequence header and behind one.
-/
def Follows (m : MuxSource) (latest : Option SharedPacket) : Prop :=
  (latest = none → m.aacType = 0) ∧ ∀ header, latest = some header → Configured m header

theorem follows_header (h : IsAacHeader p) (hvalid : ValidAac p) (m : MuxSource)
    : Follows (m.handleAudioAac [p] 0 p).1 (some p) := by
  have hmux : (m.handleAudioAac [p] 0 p).1
      = { m with aacType := p.aacAscType, sampleRate := p.sampleRate, channel := p.channel } := by
    have hboth : p.isSeqHdr = true ∧ p.hasFlvAudioAsc = true := h
    unfold MuxSource.handleAudioAac
    rw [if_pos hboth]
  constructor
  . rintro ⟨⟩
  . rintro header ⟨⟩
    rw [hmux]
    exact ⟨rfl, rfl, rfl, h, hvalid⟩

theorem handleAudioAac_frame (h : ¬IsAacHeader p) (m : MuxSource) : (m.handleAudioAac [p] 0 p).1 = m := by
  have hboth : ¬(p.isSeqHdr = true ∧ p.hasFlvAudioAsc = true) := h
  unfold MuxSource.handleAudioAac
  rw [if_neg hboth]
  split
  all_goals rfl

theorem writtenFrames_eq_iff {latest : Option SharedPacket} {ps : List SharedPacket} (hfollows : Follows m latest)
    (hvalid : ∀ p ∈ ps, ValidAac p)
    : m.writtenFrames ps = framedFrames latest ps ↔ FramesMatch latest ps := by
  induction ps generalizing m latest with
  | nil => exact iff_of_true rfl trivial
  | cons p ps ih =>
    rcases List.forall_mem_cons.mp hvalid with ⟨hp, hvalid⟩
    rw [MuxSource.writtenFrames, framedFrames, FramesMatch]
    by_cases hheader : IsAacHeader p
    . rw [if_pos hheader, if_pos hheader, writtenFrame_header hheader, List.nil_append]
      exact ih (follows_header hheader hp m) hvalid
    . rw [if_neg hheader, if_neg hheader, handleAudioAac_frame hheader]
      have hrest := ih hfollows hvalid
      cases latest with
      | none =>
        rw [writtenFrame_unset (hfollows.left rfl)]
        simp only [Option.map_none, Option.toList_none, List.nil_append, reduceCtorEq, false_implies, implies_true,
          true_and]
        exact hrest
      | some header =>
        rcases writtenFrame_eq_iff (hfollows.right header rfl) hheader (hp.length hheader) with ⟨frame, hframe, hiff⟩
        rw [hframe]
        simp only [Option.map_some, Option.toList_some, List.cons_append, List.nil_append, List.cons.injEq, hiff, hrest,
          Option.some.injEq, forall_eq']

theorem hasLength_framedFrames {latest : Option SharedPacket} {ps : List SharedPacket} (hvalid : ∀ p ∈ ps, ValidAac p)
    : ∀ frame ∈ framedFrames latest ps, HasLength frame := by
  induction ps generalizing latest with
  | nil => exact fun _ hframe => absurd hframe List.not_mem_nil
  | cons p ps ih =>
    rcases List.forall_mem_cons.mp hvalid with ⟨hp, hvalid⟩
    rw [framedFrames]
    split
    . exact ih hvalid
    . next hheader =>
      intro frame hframe
      rcases List.mem_append.mp hframe with hframe | hframe
      . rw [Option.mem_toList, Option.map_eq_some_iff] at hframe
        rcases hframe with ⟨header, -, rfl⟩
        exact hasLength_framed (hp.length hheader)
      . exact ih hvalid frame hframe

end Run

/--
The frames of a run are written behind the headers of their stream, and found again by their lengths, if each of them
has the type of its stream and room for its header.
-/
theorem writtenFrames_adts {ps : List SharedPacket} (hvalid : ∀ p ∈ ps, ValidAac p) {m : MuxSource}
    (hunset : m.aacType = 0)
    : (m.writtenFrames ps = framedFrames none ps ∧ adtsWalk (m.writtenFrames ps).flatten = framedFrames none ps)
        ↔ FramesMatch none ps := by
  have hfollows : Follows m none := by
    constructor
    . exact fun _ => hunset
    . rintro header ⟨⟩
  have hwritten := writtenFrames_eq_iff hfollows hvalid
  constructor
  . exact fun h => hwritten.mp h.left
  . intro h
    rw [hwritten.mpr h]
    exact ⟨rfl, adtsWalk_flatten (hasLength_framedFrames hvalid)⟩

def aacHeader (aacAscType : UInt8) : SharedPacket :=
  { avType := .audio, codecType := .aac, isSeqHdr := true, hasFlvAudioAsc := true, aacAscType }

def aacFrame : SharedPacket := { avType := .audio, codecType := .aac, data := [0x21, 0x10] }

/--
A sequence header of a type, and a frame, which has the type AAC LC.
-/
def aacRun (aacAscType : UInt8) : List SharedPacket := [aacHeader aacAscType, aacFrame]

theorem aacRun_valid {aacAscType : UInt8} (h : 1 ≤ aacAscType.toNat ∧ aacAscType.toNat ≤ 4)
    : ∀ p ∈ aacRun aacAscType, ValidAac p := by
  have hframe : ¬IsAacHeader aacFrame := by decide
  have hrate : 44100 ∈ standardRates := by decide
  have hchannel : 1 ≤ (2 : UInt8).toNat ∧ (2 : UInt8).toNat ≤ 7 := by decide
  intro p hp
  rcases List.mem_pair.mp hp with rfl | rfl
  . exact ⟨fun _ => h, fun _ => hrate, fun _ => hchannel, fun hheader => absurd ⟨rfl, rfl⟩ hheader⟩
  . exact ⟨fun hheader => absurd hheader hframe, fun hheader => absurd hheader hframe,
      fun hheader => absurd hheader hframe, fun _ => by decide⟩

theorem framesMatch_aacRun (aacAscType : UInt8) : FramesMatch none (aacRun aacAscType) ↔ aacAscType.toNat = 2 := by
  have hheader : IsAacHeader (aacHeader aacAscType) := ⟨rfl, rfl⟩
  have hframe : ¬IsAacHeader aacFrame := by decide
  have htype : getAdtsTypeByAscType aacFrame.aacAscType = 2 := rfl
  have hroom : 7 ≤ aacFrame.room.length := by
    rw [show aacFrame.room = List.replicate 200 0 from rfl, List.length_replicate]
    omega
  rw [aacRun, FramesMatch, if_pos hheader, FramesMatch, if_neg hframe, FramesMatch, and_true, htype]
  constructor
  . intro h
    exact (h _ rfl).left.symm
  . rintro h header ⟨⟩
    exact ⟨h.symm, hroom⟩

theorem writtenFrames_adts_lc
    : adtsWalk (({} : MuxSource).writtenFrames (aacRun 2)).flatten = framedFrames none (aacRun 2) :=
  ((writtenFrames_adts (aacRun_valid (by decide)) rfl).mpr ((framesMatch_aacRun 2).mpr rfl)).right

theorem writtenFrames_adts_main : ({} : MuxSource).writtenFrames (aacRun 1) ≠ framedFrames none (aacRun 1) := by
  have hfollows : Follows {} none := by
    constructor
    . exact fun _ => rfl
    . rintro header ⟨⟩
  intro h
  rw [writtenFrames_eq_iff hfollows (aacRun_valid (by decide)), framesMatch_aacRun] at h
  exact absurd h (by decide)

end MpegTs
