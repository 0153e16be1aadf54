import CppStreamer.Format.MpegTs.Mux
import CppStreamer.Format.MpegTs.Demux

/-!
This module contains what `DecodeUnit` gets out of the tables that `GeneratePat` and `GeneratePmt` write.
-/

open ByteStream

namespace MpegTs

section Reads

@[simp]
theorem readByte_cons_zero (b : UInt8) (data : List UInt8) : readByte (b :: data) 0 = some b.toNat := rfl

@[simp]
theorem readByte_cons_succ (b : UInt8) (data : List UInt8) (pos : Nat)
    : readByte (b :: data) (pos + 1) = readByte data pos := rfl

theorem readByte_append (front data : List UInt8) (pos : Nat)
    : readByte (front ++ data) (front.length + pos) = readByte data pos := by
  unfold readByte
  rw [List.getElem?_append_right (by omega), Nat.add_sub_cancel_left]

@[simp]
theorem readRange_cons_succ (b : UInt8) (data : List UInt8) (pos len : Nat)
    : readRange (b :: data) (pos + 1) len = readRange data pos len := by
  unfold readRange
  simp only [List.length_cons, List.drop_succ_cons, Nat.add_right_comm pos 1 len,
    Nat.add_le_add_iff_right]

@[simp]
theorem readRange_zero (data : List UInt8) : readRange data 0 0 = some [] := by
  unfold readRange
  simp

@[simp]
theorem readRange_cons_zero (b : UInt8) (data : List UInt8) (len : Nat)
    : readRange (b :: data) 0 (len + 1) = (readRange data 0 len).map (b :: ·) := by
  unfold readRange
  simp only [Nat.zero_add, List.length_cons, Nat.add_le_add_iff_right, List.drop_zero,
    List.take_succ_cons]
  split
  . rfl
  . rfl

theorem readRange_append (front data : List UInt8) (pos len : Nat)
    : readRange (front ++ data) (front.length + pos) len = readRange data pos len := by
  unfold readRange
  simp only [List.length_append, Nat.add_assoc, Nat.add_le_add_iff_left, List.drop_length_add_append]

end Reads

section Loops

variable {data : List UInt8} {sectionEnd pos fuel : Nat}

theorem patLoop_next (hfuel : fuel ≠ 0) (h : pos + 4 ≤ sectionEnd)
    : patLoop data sectionEnd fuel pos = (do
        let programNumber := read2Bytes (← readRange data pos 2)
        let pid := read2Bytes (← readRange data (pos + 2) 2) % 2 ^ 13
        let info : PidInfo :=
          if programNumber = 0 then { programNumber, networkId := pid } else { programNumber, pid }
        let infos ← patLoop data sectionEnd (fuel - 1) (pos + 4)
        pure (info :: infos)) := by
  obtain ⟨fuel, rfl⟩ := Nat.exists_eq_succ_of_ne_zero hfuel
  rw [patLoop, if_pos h]
  rfl

theorem patLoop_end (hfuel : fuel ≠ 0) (h : ¬pos + 4 ≤ sectionEnd)
    : patLoop data sectionEnd fuel pos = some [] := by
  obtain ⟨fuel, rfl⟩ := Nat.exists_eq_succ_of_ne_zero hfuel
  rw [patLoop, if_neg h]

theorem descriptorLoop_end (hfuel : fuel ≠ 0) {infoEnd : Nat} (h : ¬pos < infoEnd)
    : descriptorLoop data infoEnd fuel pos = some ([], pos) := by
  obtain ⟨fuel, rfl⟩ := Nat.exists_eq_succ_of_ne_zero hfuel
  rw [descriptorLoop, if_neg h]

theorem descriptorLoop_next (hfuel : fuel ≠ 0) {infoEnd : Nat} (h : pos < infoEnd) {tag : UInt8}
    {desc : List UInt8} (htag : readByte data pos = some tag.toNat)
    (hlen : readByte data (pos + 1) = some desc.length)
    (hdesc : readRange data (pos + 2) desc.length = some desc)
    : descriptorLoop data infoEnd fuel pos
        = (descriptorLoop data infoEnd (fuel - 1) (pos + 2 + desc.length)).map
            fun (infos, pos) => (⟨tag.toNat, desc.takeWhile (· ≠ 0)⟩ :: infos, pos) := by
  obtain ⟨fuel, rfl⟩ := Nat.exists_eq_succ_of_ne_zero hfuel
  rw [descriptorLoop, if_pos h]
  simp only [htag, hlen, hdesc, Option.bind_eq_bind, Option.bind_some, Nat.succ_sub_one]
  cases descriptorLoop data infoEnd fuel (pos + 2 + desc.length) with
  | none => rfl
  | some _ => rfl

theorem pmtLoop_end (hfuel : fuel ≠ 0) (h : ¬pos + 5 ≤ sectionEnd)
    : pmtLoop data sectionEnd fuel pos = some [] := by
  obtain ⟨fuel, rfl⟩ := Nat.exists_eq_succ_of_ne_zero hfuel
  rw [pmtLoop, if_neg h]

end Loops

section Entries

/--
A reader of descriptors stops at the end of the given ones.
-/
def DescriptorsEnd (esInfo : List UInt8) : Prop :=
  ∀ front rest : List UInt8, ∃ infos,
    descriptorLoop (front ++ (esInfo ++ rest)) (front.length + esInfo.length) (unitSize + 1) front.length
      = some (infos, front.length + esInfo.length)

theorem descriptorsEnd_nil : DescriptorsEnd [] := by
  intro front rest
  refine ⟨[], ?_⟩
  apply descriptorLoop_end (by decide)
  simp

theorem descriptorsEnd_descriptors (a b c d : UInt8) : DescriptorsEnd (descriptors [a, b, c, d]) := by
  intro front rest
  generalize hdata : front ++ (descriptors [a, b, c, d] ++ rest) = data
  have hbyte : ∀ i, readByte data (front.length + i) = readByte (descriptors [a, b, c, d] ++ rest) i := by
    rw [← hdata]
    apply readByte_append
  have hrange : ∀ i len,
      readRange data (front.length + i) len = readRange (descriptors [a, b, c, d] ++ rest) i len := by
    rw [← hdata]
    apply readRange_append
  have hnameTag : readByte data front.length = some (0x05 : UInt8).toNat := hbyte 0
  have hnameLen : readByte data (front.length + 1) = some [a, b, c, d].length := hbyte 1
  have hextensionTag : readByte data (front.length + 6) = some (0x7f : UInt8).toNat := hbyte 6
  have hextensionLen : readByte data (front.length + 7) = some [(0x80 : UInt8), 2].length := hbyte 7
  have hname : readRange data (front.length + 2) [a, b, c, d].length = some [a, b, c, d] := by
    rw [hrange]
    simp [descriptors]
  have hextension : readRange data (front.length + 8) [(0x80 : UInt8), 2].length = some [0x80, 2] := by
    rw [hrange]
    simp [descriptors]
  have hlen : front.length < front.length + (descriptors [a, b, c, d]).length := by
    simp [descriptors]
  have hlen' : front.length + 6 < front.length + 10 := by
    omega
  have hsecond : descriptorLoop data (front.length + 10) unitSize (front.length + 6)
      = some ([⟨0x7f, [0x80, 2]⟩], front.length + 10) := by
    rw [descriptorLoop_next (by decide) hlen' hextensionTag hextensionLen hextension]
    exact congrArg (Option.map _) (descriptorLoop_end (by decide) (Nat.lt_irrefl _))
  refine ⟨[⟨5, [a, b, c, d].takeWhile (· ≠ 0)⟩, ⟨0x7f, [0x80, 2]⟩], ?_⟩
  rw [descriptorLoop_next (by decide) hlen hnameTag hnameLen hname]
  exact congrArg (Option.map _) hsecond

theorem pmtLoop_streamEntry (front rest : List UInt8) {esInfo : List UInt8} (streamType : UInt8)
    {pid : Nat} (hpid : pid < 2 ^ 13) (hlen : esInfo.length < 2 ^ 12) (hdesc : DescriptorsEnd esInfo)
    {sectionEnd fuel : Nat} (hfuel : fuel ≠ 0) (hend : front.length + 5 + esInfo.length ≤ sectionEnd)
    : ∃ infos, pmtLoop (front ++ (streamEntry streamType pid esInfo ++ rest)) sectionEnd fuel front.length
        = (pmtLoop (front ++ (streamEntry streamType pid esInfo ++ rest)) sectionEnd (fuel - 1)
            (front.length + 5 + esInfo.length)).map
            (⟨streamType.toNat, pid, esInfo.length, infos⟩ :: ·) := by
  obtain ⟨fuel, rfl⟩ := Nat.exists_eq_succ_of_ne_zero hfuel
  obtain ⟨infos, hinfos⟩ := hdesc (front ++ (streamType :: write2Bytes (0xe000 + pid)
    ++ write2Bytes (0xf000 + esInfo.length))) rest
  have hdata : front ++ (streamType :: write2Bytes (0xe000 + pid) ++ write2Bytes (0xf000 + esInfo.length))
      ++ (esInfo ++ rest) = front ++ (streamEntry streamType pid esInfo ++ rest) := by
    simp [streamEntry]
  have hfront : (front ++ (streamType :: write2Bytes (0xe000 + pid)
      ++ write2Bytes (0xf000 + esInfo.length))).length = front.length + 5 := by
    simp
  rw [hdata, hfront] at hinfos
  refine ⟨infos, ?_⟩
  have htype : readByte (front ++ (streamEntry streamType pid esInfo ++ rest)) front.length
      = some streamType.toNat := readByte_append front _ 0
  have hpidRead : readRange (front ++ (streamEntry streamType pid esInfo ++ rest)) (front.length + 1) 2
      = some (write2Bytes (0xe000 + pid)) := by
    rw [readRange_append]
    simp [streamEntry, write2Bytes]
  have hlenRead : readRange (front ++ (streamEntry streamType pid esInfo ++ rest)) (front.length + 3) 2
      = some (write2Bytes (0xf000 + esInfo.length)) := by
    rw [readRange_append]
    simp [streamEntry, write2Bytes]
  have hpidValue : read2Bytes (write2Bytes (0xe000 + pid)) % 2 ^ 13 = pid := by
    have := read2Bytes_write2Bytes (0xe000 + pid) []
    rw [List.append_nil] at this
    rw [this]
    omega
  have hlenValue : read2Bytes (write2Bytes (0xf000 + esInfo.length)) % 2 ^ 12 = esInfo.length := by
    have := read2Bytes_write2Bytes (0xf000 + esInfo.length) []
    rw [List.append_nil] at this
    rw [this]
    omega
  rw [pmtLoop, if_pos (by omega)]
  simp only [htype, hpidRead, hlenRead, hpidValue, hlenValue, Option.bind_eq_bind, Option.bind_some,
    Nat.succ_sub_one]
  rw [if_neg (by omega), hinfos]
  cases hloop : pmtLoop (front ++ (streamEntry streamType pid esInfo ++ rest)) sectionEnd fuel
      (front.length + 5 + esInfo.length) with
  | none => simp [hloop]
  | some streams => simp [hloop]

/--
The entries of a table, one for each stream.
-/
def entries (streams : List (UInt8 × Nat × List UInt8)) : List UInt8 :=
  streams.flatMap fun (streamType, pid, esInfo) => streamEntry streamType pid esInfo

theorem pmtLoop_entries (streams : List (UInt8 × Nat × List UInt8))
    (h : ∀ s ∈ streams, s.2.1 < 2 ^ 13 ∧ s.2.2.length < 2 ^ 12 ∧ DescriptorsEnd s.2.2)
    : ∀ (front rest : List UInt8) (fuel : Nat), streams.length < fuel →
        ∃ infos, pmtLoop (front ++ (entries streams ++ rest)) (front.length + (entries streams).length)
            fuel front.length = some infos
          ∧ infos.map (fun info => (info.streamType, info.elementaryPid))
            = streams.map fun (streamType, pid, _) => (streamType.toNat, pid) := by
  induction streams with
  | nil =>
    intro front rest fuel hfuel
    exact ⟨[], pmtLoop_end (by omega) (by simp [entries]), rfl⟩
  | cons s streams ih =>
    intro front rest fuel hfuel
    obtain ⟨streamType, pid, esInfo⟩ := s
    obtain ⟨hpid, hlen, hdesc⟩ : pid < 2 ^ 13 ∧ esInfo.length < 2 ^ 12 ∧ DescriptorsEnd esInfo :=
      h _ (List.mem_cons_self ..)
    have hsplit : entries (⟨streamType, pid, esInfo⟩ :: streams)
        = streamEntry streamType pid esInfo ++ entries streams := rfl
    have hentry : (streamEntry streamType pid esInfo).length = 5 + esInfo.length := by
      simp [streamEntry]
      omega
    simp only [List.length_cons] at hfuel
    obtain ⟨infos, hinfos, hpids⟩ := ih (fun s hs => h s (List.mem_cons_of_mem _ hs))
      (front ++ streamEntry streamType pid esInfo) rest (fuel - 1) (by omega)
    have hend : front.length + 5 + esInfo.length
        ≤ front.length + (entries (⟨streamType, pid, esInfo⟩ :: streams)).length := by
      rw [hsplit, List.length_append, hentry]
      omega
    have hfuel' : fuel ≠ 0 := by omega
    obtain ⟨esInfos, hstep⟩ := pmtLoop_streamEntry front (entries streams ++ rest) streamType hpid hlen
      hdesc hfuel' hend
    rw [hsplit] at hstep ⊢
    simp only [List.append_assoc, List.length_append, hentry, ← Nat.add_assoc] at hinfos hstep ⊢
    refine ⟨⟨streamType.toNat, pid, esInfo.length, esInfos⟩ :: infos, ?_, ?_⟩
    . rw [hstep, hinfos]
      rfl
    . rw [List.map_cons, List.map_cons, hpids]

end Entries

section Tables

variable (mpegCrc32 : List UInt8 → Nat)

def decodedPat : MpegtsDemux := { patPidVec := [{ programNumber := 1, pid := pmtPid }] }

theorem decodeUnit_generatePat (m : MpegtsMux)
    : MpegtsDemux.decodeUnit {} (m.generatePat mpegCrc32) = some ⟨0, decodedPat, []⟩ := by
  obtain ⟨rest, hrest⟩ : ∃ rest, m.generatePat mpegCrc32 = 0x47 :: 0x40 :: 0x00 :: 0x10 :: 0x00
      :: 0x00 :: 0xb0 :: 0x0d :: 0x00 :: 0x01 :: 0xc1 :: 0x00 :: 0x00 :: 0x00 :: 0x01 :: 0xf0 :: 0x01
      :: rest := by
    refine ⟨write4Bytes (m.patChecksum mpegCrc32) ++ List.replicate 167 0xff, ?_⟩
    unfold MpegtsMux.generatePat stuffing
    simp only [List.append_assoc]
    rfl
  have hloop : patLoop (m.generatePat mpegCrc32) 17 189 13 = some decodedPat.patPidVec := by
    rw [hrest, patLoop_next (by decide) (by decide), patLoop_end (by decide) (by decide)]
    simp [read2Bytes, decodedPat, pmtPid]
  unfold MpegtsDemux.decodeUnit MpegtsDemux.tsHeader MpegtsDemux.parsePat
  rw [hrest] at hloop ⊢
  simp [adaptationEnd, testBit, read2Bytes, unitSize]
  rw [hloop]
  rfl

/--
The streams of the program, as they are in the table.
-/
def MpegtsMux.streams (m : MpegtsMux) : List (UInt8 × Nat × List UInt8) :=
  (if m.hasVideo then
    [(videoStreamType m.videoCodecType, videoPid, videoDescriptors m.videoCodecType)]
  else []) ++
  (if m.hasAudio then
    [(audioStreamType m.audioCodecType, audioPid, audioDescriptors m.audioCodecType)]
  else [])

theorem streamEntries_eq (m : MpegtsMux) : m.streamEntries = entries m.streams := by
  unfold MpegtsMux.streamEntries MpegtsMux.streams entries
  cases m.hasVideo <;> cases m.hasAudio <;> simp

theorem length_videoDescriptors_le (codec : MediaCodecType) : (videoDescriptors codec).length ≤ 10 := by
  cases codec <;> simp [videoDescriptors, descriptors]

theorem length_audioDescriptors_le (codec : MediaCodecType) : (audioDescriptors codec).length ≤ 10 := by
  cases codec <;> simp [audioDescriptors, descriptors]

theorem length_streamEntries_le (m : MpegtsMux) : m.streamEntries.length ≤ 30 := by
  have := length_videoDescriptors_le m.videoCodecType
  have := length_audioDescriptors_le m.audioCodecType
  unfold MpegtsMux.streamEntries streamEntry
  cases m.hasVideo <;> cases m.hasAudio <;> simp <;> omega

theorem streams_valid (m : MpegtsMux)
    : ∀ s ∈ m.streams, s.2.1 < 2 ^ 13 ∧ s.2.2.length < 2 ^ 12 ∧ DescriptorsEnd s.2.2 := by
  have hvideo : DescriptorsEnd (videoDescriptors m.videoCodecType) := by
    unfold videoDescriptors
    split
    . apply descriptorsEnd_descriptors
    . apply descriptorsEnd_descriptors
    . apply descriptorsEnd_nil
  have haudio : DescriptorsEnd (audioDescriptors m.audioCodecType) := by
    unfold audioDescriptors
    split
    . apply descriptorsEnd_descriptors
    . apply descriptorsEnd_nil
  have hvideoLen := length_videoDescriptors_le m.videoCodecType
  have haudioLen := length_audioDescriptors_le m.audioCodecType
  intro s hs
  unfold MpegtsMux.streams at hs
  rw [List.mem_append] at hs
  cases hs with
  | inl hs =>
    cases hhas : m.hasVideo with
    | false => simp [hhas] at hs
    | true =>
      simp only [hhas, if_true, List.mem_singleton] at hs
      subst hs
      exact ⟨by simp [videoPid], by simp only; omega, hvideo⟩
  | inr hs =>
    cases hhas : m.hasAudio with
    | false => simp [hhas] at hs
    | true =>
      simp only [hhas, if_true, List.mem_singleton] at hs
      subst hs
      exact ⟨by simp [audioPid], by simp only; omega, haudio⟩

theorem length_streams_le (m : MpegtsMux) : m.streams.length ≤ 2 := by
  unfold MpegtsMux.streams
  cases m.hasVideo <;> cases m.hasAudio <;> simp

theorem decodeUnit_generatePmt (m : MpegtsMux)
    : ∃ infos, decodedPat.decodeUnit (m.generatePmt mpegCrc32)
          = some ⟨0, { decodedPat with streamPidVec := infos }, []⟩
        ∧ infos.map (fun info => (info.streamType, info.elementaryPid))
          = m.streams.map fun (streamType, pid, _) => (streamType.toNat, pid) := by
  have hlen := length_streamEntries_le m
  have hstreams := length_streams_le m
  obtain ⟨tail, htail⟩ : ∃ tail, m.generatePmt mpegCrc32 = [0x47, 0x50, 0x01, 0x10, 0x00]
      ++ m.pmtSection ++ (write4Bytes (mpegCrc32 m.pmtSection)).reverse ++ tail := ⟨_, rfl⟩
  generalize hrest : (write4Bytes (mpegCrc32 m.pmtSection)).reverse ++ tail = rest at *
  generalize hlength : write2Bytes (0xb000 + (9 + m.streamEntries.length + 4)) = length
  have hunit : m.generatePmt mpegCrc32 = ([0x47, 0x50, 0x01, 0x10, 0x00, 0x02] ++ length
      ++ [0x00, 0x01, 0xc1, 0x00, 0x00, 0xe1, 0x00, 0xf0, 0x00]) ++ (entries m.streams ++ rest) := by
    rw [htail, ← hrest, ← hlength, MpegtsMux.pmtSection, streamEntries_eq]
    simp only [List.append_assoc]
    rfl
  have hvalue : read2Bytes length % 2 ^ 12 = m.streamEntries.length + 13 := by
    have := read2Bytes_write2Bytes (0xb000 + (9 + m.streamEntries.length + 4)) []
    rw [List.append_nil, hlength] at this
    omega
  obtain ⟨infos, hloop, hpids⟩ := pmtLoop_entries m.streams (streams_valid m)
    ([0x47, 0x50, 0x01, 0x10, 0x00, 0x02] ++ length
      ++ [0x00, 0x01, 0xc1, 0x00, 0x00, 0xe1, 0x00, 0xf0, 0x00]) rest 189 (by omega)
  refine ⟨infos, ?_, hpids⟩
  rw [← hunit, ← streamEntries_eq] at hloop
  rw [← streamEntries_eq] at hunit
  match length, hlength, hvalue, hunit, hloop with
  | [b1, b0], _, hvalue, hunit, hloop =>
    simp only [List.length_append, List.length_cons, List.length_nil, Nat.reduceAdd] at hloop
    unfold MpegtsDemux.decodeUnit MpegtsDemux.tsHeader MpegtsDemux.parsePmt
    simp only [read2Bytes] at hvalue
    rw [hunit] at hloop ⊢
    simp [adaptationEnd, testBit, read2Bytes, unitSize, MpegtsDemux.isPmt, decodedPat, pmtPid]
    simp only [Nat.reducePow] at hvalue
    rw [hvalue, show m.streamEntries.length + 13 + 4 = 17 + m.streamEntries.length by omega]
    exact congrArg (Option.bind · _) hloop

end Tables

end MpegTs
