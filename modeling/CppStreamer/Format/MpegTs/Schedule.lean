import CppStreamer.Format.MpegTs.Counters

/-!
This module contains what `MpegtsMux::InputPacket` does in which order, for a run of packets: the tables, the packets that
are handled, and their PES.
-/

namespace MpegTs

/--
Both tables, with the time of the packet that they are written for.
-/
structure TablePair where
  dts : Int
  pat : List UInt8
  pmt : List UInt8

inductive MuxEvent where
  | tables (t : TablePair)
  | handle (waited : Bool) (pkt : AvPacket)
  | pes (frame : MediaPacket) (packets : List (List UInt8))

def MuxEvent.output : MuxEvent → List (List UInt8)
  | tables t => [t.pat, t.pmt]
  | handle _ _ => []
  | pes _ packets => packets

namespace MpegtsMuxState

section Log

variable (u : Unwritten)

def writeFramesLog (m : MpegtsMuxState) : List MediaPacket → Option (List MuxEvent × MpegtsMuxState)
  | [] => some ([], m)
  | frame :: frames => do
    let (packets, mux) ← m.toMpegtsMux.writePes u frame
    let (log, m) ← { m with toMpegtsMux := mux }.writeFramesLog frames
    pure (.pes frame (packets.map (·.bytes)) :: log, m)

def handlePacketLog (m : MpegtsMuxState) (waited : Bool) (pkt : AvPacket) : Option (List MuxEvent × MpegtsMuxState) :=
  match pkt.avType with
  | .video => do
    let (_, frames, codec) ← m.codec.handleVideo u pkt
    let (log, m) ← { m.setVideoCodec pkt.codecType with codec }.writeFramesLog u frames
    pure (.handle waited pkt :: log, m)
  | .audio => do
    let (_, frames, codec) := m.codec.handleAudio pkt
    let (log, m) ← { m.setAudioCodec pkt.codecType with codec }.writeFramesLog u frames
    pure (.handle waited pkt :: log, m)
  | _ => some ([.handle waited pkt], m)

def handlePacketsLog (m : MpegtsMuxState) : List (Bool × AvPacket) → Option (List MuxEvent × MpegtsMuxState)
  | [] => some ([], m)
  | (waited, pkt) :: pkts => do
    let (log, m) ← m.handlePacketLog u waited pkt
    let (log', m) ← m.handlePacketsLog pkts
    pure (log ++ log', m)

variable (mpegCrc32 : List UInt8 → Nat)

def tablePair (m : MpegtsMuxState) (dts : Int) : TablePair where
  dts := dts
  pat := m.toMpegtsMux.generatePat mpegCrc32
  pmt := m.toMpegtsMux.generatePmt mpegCrc32

/--
What is handled in a call: the packets that wait, and the one that has come.
-/
def toHandle (m : MpegtsMuxState) (pkt : AvPacket) : List (Bool × AvPacket) :=
  m.waitQueue.map (fun waiting => (true, waiting)) ++ [(false, pkt)]

/--
`inputPacket` with its events in the place of the packets that are put out.
-/
def inputPacketLog (m : MpegtsMuxState) (pkt : AvPacket) : Option (List MuxEvent × MpegtsMuxState) :=
  if pkt.avType = .metadata then some ([], m)
  else if m.Waits then some ([], m.wait pkt)
  else do
    let m := { m with ready := true }
    let tables := if m.TablesDue pkt then [.tables (m.tablePair mpegCrc32 pkt.dts)] else []
    let m := if m.TablesDue pkt then m.tablesWritten mpegCrc32 pkt.dts else m
    let (log, m) ← { m with waitQueue := [] }.handlePacketsLog u (m.toHandle pkt)
    pure (tables ++ log, m)

def inputPacketsLog (m : MpegtsMuxState) : List (Unwritten × AvPacket) → Option (List MuxEvent × MpegtsMuxState)
  | [] => some ([], m)
  | (u, pkt) :: pkts => do
    let (log, m) ← m.inputPacketLog u mpegCrc32 pkt
    let (log', m) ← m.inputPacketsLog pkts
    pure (log ++ log', m)

end Log

end MpegtsMuxState

section Order

/--
The stream type of the codec of a PES.
-/
def streamTypeOf (frame : MediaPacket) : UInt8 :=
  if frame.avType = .video then videoStreamType frame.codecType else audioStreamType frame.codecType

/--
A reader of the tables finds the program map, and in it the pid of the PES with its stream type.
-/
def TablePair.Lists (t : TablePair) (frame : MediaPacket) : Prop :=
  MpegtsDemux.decodeUnit {} t.pat = some ⟨0, decodedPat, []⟩
    ∧ ∃ infos, decodedPat.decodeUnit t.pmt = some ⟨0, { decodedPat with streamPidVec := infos }, []⟩
      ∧ ((streamTypeOf frame).toNat, (pes frame).pid) ∈ infos.map fun info => (info.streamType, info.elementaryPid)

/--
Each PES comes behind tables the latest of which list it, and each packet that has not waited is handled within the
interval of the latest tables.
-/
def Scheduled : Option TablePair → List MuxEvent → Prop
  | _, [] => True
  | _, .tables t :: log => Scheduled (some t) log
  | latest, .handle waited pkt :: log =>
    (waited = false → ∃ t ∈ latest, (pkt.dts - t.dts).natAbs < patpmtInterval) ∧ Scheduled latest log
  | latest, .pes frame _ :: log => (∃ t ∈ latest, t.Lists frame) ∧ Scheduled latest log

/--
The packets that are handled, in their order.
-/
def handled (log : List MuxEvent) : List AvPacket :=
  log.filterMap fun
    | .handle _ pkt => some pkt
    | _ => none

/--
The packets that have arrived, without metadata.
-/
def inputs (pkts : List (Unwritten × AvPacket)) : List AvPacket := (pkts.map (·.2)).filter (·.avType ≠ .metadata)

def OnSchedule (hasVideo hasAudio : Bool) (mpegCrc32 : List UInt8 → Nat) (pkts : List (Unwritten × AvPacket)) : Prop :=
  ∀ log m, ({ hasVideo, hasAudio } : MpegtsMuxState).inputPacketsLog mpegCrc32 pkts = some (log, m) →
    (m.ready → handled log = inputs pkts) ∧ Scheduled none log

end Order

section Conditions

/--
Packets that a PES is written for, if at all.
-/
def AvPacket.MayWrite (pkt : AvPacket) : Prop :=
  (pkt.avType = .video
      ∧ (pkt.codecType = .vp8 ∨ (pkt.codecType = .h264 ∨ pkt.codecType = .h265) ∧ pkt.isSeqHdr = false))
    ∨ (pkt.avType = .audio
      ∧ (pkt.codecType = .opus ∨ pkt.codecType = .aac ∧ (pkt.isSeqHdr && pkt.hasFlvAudioAsc) = false))

instance (pkt : AvPacket) : Decidable pkt.MayWrite := by
  unfold AvPacket.MayWrite
  infer_instance

/--
The tables of a muxer have the stream type of the packet.
-/
def MpegtsMux.ListsPacket (m : MpegtsMux) (pkt : AvPacket) : Prop :=
  (pkt.avType = .video → m.hasVideo ∧ videoStreamType m.videoCodecType = videoStreamType pkt.codecType)
    ∧ (pkt.avType = .audio → m.hasAudio ∧ audioStreamType m.audioCodecType = audioStreamType pkt.codecType)

instance (m : MpegtsMux) (pkt : AvPacket) : Decidable (m.ListsPacket pkt) := by
  unfold MpegtsMux.ListsPacket
  infer_instance

namespace MpegtsMuxState

/--
The muxer as it was when the latest tables behind a packet were written.
-/
def listedBy (m : MpegtsMuxState) (listed : MpegtsMux) (pkt : AvPacket) : MpegtsMux :=
  if pkt.avType ≠ .metadata ∧ ¬m.Waits ∧ m.TablesDue pkt then m.toMpegtsMux else listed

/--
A packet that does not wait is not as much as the interval behind the latest tables, and the latest tables have the stream
types of all packets that are handled with it.
-/
def Meets (m : MpegtsMuxState) (listed : MpegtsMux) (pkt : AvPacket) : Prop :=
  pkt.avType ≠ .metadata → ¬m.Waits →
    (¬m.TablesDue pkt → m.lastPatpmtTs - patpmtInterval < pkt.dts)
      ∧ ∀ other ∈ m.waitQueue ++ [pkt], other.MayWrite → (m.listedBy listed pkt).ListsPacket other

def AllMeet (mpegCrc32 : List UInt8 → Nat) : MpegtsMuxState → MpegtsMux → List (Unwritten × AvPacket) → Prop
  | _, _, [] => True
  | m, listed, (u, pkt) :: pkts =>
    m.Meets listed pkt
      ∧ ∀ out m', m.inputPacket u mpegCrc32 pkt = some (out, m') →
        AllMeet mpegCrc32 m' (m.listedBy listed pkt) pkts

end MpegtsMuxState

end Conditions

section Output

variable (u : Unwritten)

/--
The log without what does not leave the muxer.
-/
def erase (r : List MuxEvent × MpegtsMuxState) : List (List UInt8) × MpegtsMuxState :=
  (r.1.flatMap MuxEvent.output, r.2)

namespace MpegtsMuxState

theorem writeFrames_eq (m : MpegtsMuxState) (frames : List MediaPacket)
    : m.writeFrames u frames = (m.writeFramesLog u frames).map erase := by
  induction frames generalizing m with
  | nil => rfl
  | cons frame frames ih =>
    unfold writeFrames writeFramesLog
    cases m.toMpegtsMux.writePes u frame with
    | none => rfl
    | some written =>
      simp only [Option.bind_eq_bind, Option.bind_some, ih]
      cases { m with toMpegtsMux := written.2 }.writeFramesLog u frames with
      | none => rfl
      | some rest => rfl

theorem handlePacket_eq (m : MpegtsMuxState) (waited : Bool) (pkt : AvPacket)
    : m.handlePacket u pkt = (m.handlePacketLog u waited pkt).map erase := by
  unfold handlePacket handlePacketLog
  cases pkt.avType with
  | video =>
    cases m.codec.handleVideo u pkt with
    | none => rfl
    | some result =>
      simp only [Option.bind_eq_bind, Option.bind_some, writeFrames_eq]
      cases { m.setVideoCodec pkt.codecType with codec := result.2.2 }.writeFramesLog u result.2.1 with
      | none => rfl
      | some rest => rfl
  | audio =>
    simp only [Option.bind_eq_bind, writeFrames_eq]
    cases { m.setAudioCodec pkt.codecType with codec := (m.codec.handleAudio pkt).2.2 }.writeFramesLog u
      (m.codec.handleAudio pkt).2.1 with
    | none => rfl
    | some rest => rfl
  | unknown => rfl
  | movbox => rfl
  | metadata => rfl

theorem handlePackets_eq (m : MpegtsMuxState) (pkts : List (Bool × AvPacket))
    : m.handlePackets u (pkts.map Prod.snd) = (m.handlePacketsLog u pkts).map erase := by
  induction pkts generalizing m with
  | nil => rfl
  | cons pkt pkts ih =>
    rw [List.map_cons]
    unfold handlePackets handlePacketsLog
    rw [handlePacket_eq u m pkt.1]
    cases m.handlePacketLog u pkt.1 pkt.2 with
    | none => rfl
    | some first =>
      simp only [Option.map_some, erase, Option.bind_eq_bind, Option.bind_some, ih]
      cases first.2.handlePacketsLog u pkts with
      | none => rfl
      | some rest => simp [erase]

theorem map_toHandle (m : MpegtsMuxState) (pkt : AvPacket) : (m.toHandle pkt).map Prod.snd = m.waitQueue ++ [pkt] := by
  simp [toHandle, Function.comp_def]

variable (mpegCrc32 : List UInt8 → Nat)

theorem inputPacket_eq (m : MpegtsMuxState) (pkt : AvPacket)
    : m.inputPacket u mpegCrc32 pkt = (m.inputPacketLog u mpegCrc32 pkt).map erase := by
  have htables (tables : List (List UInt8)) (log : List MuxEvent) (next : MpegtsMuxState)
      (hlog : log.flatMap MuxEvent.output = tables)
      : (next.handlePackets u (m.waitQueue ++ [pkt]) >>= fun x => pure (tables ++ x.1, x.2))
        = Option.map erase (next.handlePacketsLog u (m.toHandle pkt) >>= fun x => pure (log ++ x.1, x.2)) := by
    rw [← map_toHandle, handlePackets_eq]
    cases next.handlePacketsLog u (m.toHandle pkt) with
    | none => rfl
    | some rest => simp [erase, hlog]
  unfold inputPacket inputPacketLog
  split
  . rfl
  . split
    . rfl
    . by_cases hdue : ({ m with ready := true } : MpegtsMuxState).TablesDue pkt
      . simp only [if_pos hdue]
        apply htables
        rfl
      . simp only [if_neg hdue]
        apply htables
        rfl

/--
The log says what the muxer puts out.
-/
theorem inputPackets_eq (m : MpegtsMuxState) (pkts : List (Unwritten × AvPacket))
    : m.inputPackets mpegCrc32 pkts = (m.inputPacketsLog mpegCrc32 pkts).map erase := by
  induction pkts generalizing m with
  | nil => rfl
  | cons pkt pkts ih =>
    obtain ⟨u, pkt⟩ := pkt
    unfold inputPackets inputPacketsLog
    rw [inputPacket_eq]
    cases m.inputPacketLog u mpegCrc32 pkt with
    | none => rfl
    | some first =>
      simp only [Option.map_some, erase, Option.bind_eq_bind, Option.bind_some, ih]
      cases first.2.inputPacketsLog mpegCrc32 pkts with
      | none => rfl
      | some rest => simp [erase]

end MpegtsMuxState

end Output

section Frames

/--
A frame has the properties of the packet that it is written for.
-/
def FrameOf (pkt : AvPacket) (frame : MediaPacket) : Prop :=
  pkt.MayWrite ∧ frame.avType = pkt.avType ∧ frame.codecType = pkt.codecType

theorem handleH264Nalus_frames (pkt : MediaPacket) {nalus : List (List UInt8)} {c c' : CodecState}
    {frames : List MediaPacket} (h : c.handleH264Nalus pkt nalus = some (frames, c'))
    : ∀ frame ∈ frames, frame.avType = pkt.avType ∧ frame.codecType = pkt.codecType := by
  induction nalus generalizing c frames with
  | nil =>
    cases h
    simp
  | cons data nalus ih =>
    unfold CodecState.handleH264Nalus at h
    simp only [Option.bind_eq_bind, Option.bind_eq_some_iff] at h
    obtain ⟨pos, _, h⟩ := h
    split at h
    . exact ih h
    . split at h
      . exact ih h
      . split at h
        . exact ih h
        . simp only [Option.bind_eq_some_iff, Prod.exists] at h
          obtain ⟨rest, last, hrest, hresult⟩ := h
          cases hresult
          have htail := ih hrest
          split
          . exact List.forall_mem_cons.mpr ⟨⟨rfl, rfl⟩, htail⟩
          . exact htail

theorem h265Frames_frames (c : CodecState) (pkt : MediaPacket) (appended : Bool) (nalus : List (List UInt8))
    : ∀ frame ∈ c.h265Frames pkt appended nalus, frame.avType = pkt.avType ∧ frame.codecType = pkt.codecType := by
  induction nalus generalizing appended with
  | nil => simp [CodecState.h265Frames]
  | cons data nalus ih =>
    unfold CodecState.h265Frames
    simp only
    split
    . apply ih
    . exact List.forall_mem_cons.mpr ⟨⟨rfl, rfl⟩, ih _⟩

theorem handleH264_frames (u : Unwritten) {c codec : CodecState} {pkt : MediaPacket} {ret : Int}
    {frames : List MediaPacket} (h : c.handleH264 u pkt = some (ret, frames, codec))
    : ∀ frame ∈ frames, pkt.isSeqHdr = false ∧ frame.avType = pkt.avType ∧ frame.codecType = pkt.codecType := by
  unfold CodecState.handleH264 at h
  simp only [Option.bind_eq_bind] at h
  split at h
  . simp only [Option.bind_eq_some_iff] at h
    obtain ⟨_, _, hresult⟩ := h
    cases hresult
    simp
  . next hhdr =>
    split at h
    all_goals
      simp only [Option.bind_eq_some_iff] at h
      obtain ⟨nalus, _, hresult⟩ := h
      split at hresult
      . cases hresult
        simp
      . simp only [Option.bind_eq_some_iff, Prod.exists] at hresult
        obtain ⟨frames', c', hframes, hresult⟩ := hresult
        cases hresult
        intro frame hframe
        exact ⟨by simpa using hhdr, handleH264Nalus_frames pkt hframes frame hframe⟩

theorem handleH265_frames {c codec : CodecState} {pkt : MediaPacket} {ret : Int} {frames : List MediaPacket}
    (h : c.handleH265 pkt = some (ret, frames, codec))
    : ∀ frame ∈ frames, pkt.isSeqHdr = false ∧ frame.avType = pkt.avType ∧ frame.codecType = pkt.codecType := by
  unfold CodecState.handleH265 at h
  split at h
  . unfold CodecState.handleH265SeqHdr at h
    simp only [Option.bind_eq_bind, Option.bind_eq_some_iff] at h
    obtain ⟨units, _, h⟩ := h
    split at h
    . cases h
      simp
    . simp only [Option.bind_eq_some_iff] at h
      obtain ⟨_, _, _, _, _, _, hresult⟩ := h
      cases hresult
      simp
  . next hhdr =>
    simp only [Option.bind_eq_bind, Option.bind_eq_some_iff] at h
    obtain ⟨nalus, _, h⟩ := h
    split at h
    . cases h
      simp
    . cases h
      intro frame hframe
      exact ⟨by simpa using hhdr, h265Frames_frames _ _ _ _ frame hframe⟩

theorem handleVideo_frames (u : Unwritten) {c codec : CodecState} {pkt : AvPacket} {ret : Int}
    {frames : List MediaPacket} (havType : pkt.avType = .video) (h : c.handleVideo u pkt = some (ret, frames, codec))
    : ∀ frame ∈ frames, FrameOf pkt frame := by
  intro frame hframe
  unfold CodecState.handleVideo at h
  split at h
  . next hcodec =>
    obtain ⟨hhdr, hsame⟩ := handleH264_frames u h frame hframe
    exact ⟨Or.inl ⟨havType, Or.inr ⟨Or.inl hcodec, hhdr⟩⟩, hsame⟩
  . split at h
    . next hcodec =>
      cases h
      rw [List.mem_singleton.mp hframe]
      exact ⟨Or.inl ⟨havType, Or.inl hcodec⟩, rfl, rfl⟩
    . split at h
      . next hcodec =>
        obtain ⟨hhdr, hsame⟩ := handleH265_frames h frame hframe
        exact ⟨Or.inl ⟨havType, Or.inr ⟨Or.inr hcodec, hhdr⟩⟩, hsame⟩
      . cases h
        cases hframe

theorem handleAudio_frames (c : CodecState) {pkt : AvPacket} (havType : pkt.avType = .audio)
    : ∀ frame ∈ (c.handleAudio pkt).2.1, FrameOf pkt frame := by
  intro frame hframe
  unfold CodecState.handleAudio at hframe
  split at hframe
  . next hcodec =>
    unfold CodecState.handleAudioAac at hframe
    split at hframe
    . cases hframe
    . next hhdr =>
      split at hframe
      . cases hframe
      . have hnot : (pkt.isSeqHdr && pkt.hasFlvAudioAsc) = false := by simpa using hhdr
        rw [List.mem_singleton.mp hframe]
        exact ⟨Or.inr ⟨havType, Or.inr ⟨hcodec, hnot⟩⟩, rfl, rfl⟩
  . split at hframe
    . next hcodec =>
      rw [List.mem_singleton.mp hframe]
      exact ⟨Or.inr ⟨havType, Or.inl hcodec⟩, rfl, rfl⟩
    . cases hframe

end Frames

section Handled

variable (u : Unwritten)

theorem handled_append (log log' : List MuxEvent) : handled (log ++ log') = handled log ++ handled log' :=
  List.filterMap_append

namespace MpegtsMuxState

theorem handled_writeFramesLog {m m' : MpegtsMuxState} {frames : List MediaPacket} {log : List MuxEvent}
    (h : m.writeFramesLog u frames = some (log, m'))
    : handled log = [] := by
  induction frames generalizing m log with
  | nil =>
    cases h
    rfl
  | cons frame frames ih =>
    unfold writeFramesLog at h
    simp only [Option.bind_eq_bind, Option.bind_eq_some_iff, Prod.exists] at h
    obtain ⟨ps, mux, _, log', m'', hrest, hresult⟩ := h
    cases hresult
    have htail := ih hrest
    exact htail

/--
A packet that is handled, and then what is written for it.
-/
theorem handlePacketLog_cases {m m' : MpegtsMuxState} {waited : Bool} {pkt : AvPacket} {log : List MuxEvent}
    (h : m.handlePacketLog u waited pkt = some (log, m'))
    : ∃ (next : MpegtsMuxState) (frames : List MediaPacket) (log' : List MuxEvent),
        log = .handle waited pkt :: log' ∧ next.writeFramesLog u frames = some (log', m')
          ∧ ∀ frame ∈ frames, FrameOf pkt frame := by
  unfold handlePacketLog at h
  split at h
  . next hvideo =>
    simp only [Option.bind_eq_bind, Option.bind_eq_some_iff, Prod.exists] at h
    obtain ⟨ret, frames, codec, hframes, log', m'', hlog, hresult⟩ := h
    cases hresult
    exact ⟨_, frames, log', rfl, hlog, handleVideo_frames u hvideo hframes⟩
  . next haudio =>
    simp only [Option.bind_eq_bind, Option.bind_eq_some_iff, Prod.exists] at h
    obtain ⟨log', m'', hlog, hresult⟩ := h
    cases hresult
    exact ⟨_, _, log', rfl, hlog, handleAudio_frames m.codec haudio⟩
  . cases h
    refine ⟨m, [], [], rfl, rfl, ?_⟩
    simp

theorem handled_handlePacketsLog {m m' : MpegtsMuxState} {pkts : List (Bool × AvPacket)} {log : List MuxEvent}
    (h : m.handlePacketsLog u pkts = some (log, m'))
    : handled log = pkts.map Prod.snd := by
  induction pkts generalizing m log with
  | nil =>
    cases h
    rfl
  | cons pkt pkts ih =>
    unfold handlePacketsLog at h
    simp only [Option.bind_eq_bind, Option.bind_eq_some_iff, Prod.exists] at h
    obtain ⟨first, next, hfirst, rest, last, hrest, hresult⟩ := h
    cases hresult
    obtain ⟨_, _, log', rfl, hframes, _⟩ := handlePacketLog_cases u hfirst
    have hnone := handled_writeFramesLog u hframes
    rw [handled_append, ih hrest, List.map_cons]
    change (pkt.2 :: handled log') ++ _ = _
    rw [hnone]
    rfl

theorem handlePacketsLog_sameClock {m m' : MpegtsMuxState} {pkts : List (Bool × AvPacket)} {log : List MuxEvent}
    (h : m.handlePacketsLog u pkts = some (log, m'))
    : m.SameClock m' := by
  have herase := handlePackets_eq u m pkts
  rw [h] at herase
  exact (handlePackets_emits u herase).right

variable (mpegCrc32 : List UInt8 → Nat)

/--
The ways of a packet: it is dropped, it waits, or it is handled behind the packets that have waited.
-/
theorem inputPacketLog_cases {m m' : MpegtsMuxState} {pkt : AvPacket} {log : List MuxEvent}
    (h : m.inputPacketLog u mpegCrc32 pkt = some (log, m'))
    : (pkt.avType = .metadata ∧ log = [] ∧ m' = m)
      ∨ (pkt.avType ≠ .metadata ∧ m.Waits ∧ log = [] ∧ m' = m.wait pkt)
      ∨ (pkt.avType ≠ .metadata ∧ ¬m.Waits ∧ m.TablesDue pkt
        ∧ ∃ log', log = .tables (m.tablePair mpegCrc32 pkt.dts) :: log'
          ∧ { ({ m with ready := true } : MpegtsMuxState).tablesWritten mpegCrc32 pkt.dts with
              waitQueue := [] }.handlePacketsLog u (m.toHandle pkt) = some (log', m'))
      ∨ (pkt.avType ≠ .metadata ∧ ¬m.Waits ∧ ¬m.TablesDue pkt
        ∧ { m with ready := true, waitQueue := [] }.handlePacketsLog u (m.toHandle pkt) = some (log, m')) := by
  have hsame : ({ m with ready := true } : MpegtsMuxState).TablesDue pkt ↔ m.TablesDue pkt := Iff.rfl
  unfold inputPacketLog at h
  split at h
  . next hmeta =>
    cases h
    exact Or.inl ⟨hmeta, rfl, rfl⟩
  . next hmeta =>
    split at h
    . next hwaits =>
      cases h
      exact Or.inr (Or.inl ⟨hmeta, hwaits, rfl, rfl⟩)
    . next hwaits =>
      simp only [hsame, Option.bind_eq_bind, Option.bind_eq_some_iff, Prod.exists] at h
      obtain ⟨log', next, hlog, hresult⟩ := h
      by_cases hdue : m.TablesDue pkt
      . rw [if_pos hdue] at hlog hresult
        cases hresult
        exact Or.inr (Or.inr (Or.inl ⟨hmeta, hwaits, hdue, log', rfl, hlog⟩))
      . rw [if_neg hdue] at hlog hresult
        cases hresult
        exact Or.inr (Or.inr (Or.inr ⟨hmeta, hwaits, hdue, hlog⟩))

theorem inputPacketLog_handled {m m' : MpegtsMuxState} {pkt : AvPacket} {log : List MuxEvent}
    (hready : m.ready → m.waitQueue = []) (h : m.inputPacketLog u mpegCrc32 pkt = some (log, m'))
    : handled log ++ m'.waitQueue = m.waitQueue ++ [pkt].filter (·.avType ≠ .metadata)
        ∧ (m'.ready → m'.waitQueue = []) := by
  rcases inputPacketLog_cases u mpegCrc32 h with ⟨hmeta, rfl, rfl⟩ | ⟨hmeta, hwaits, rfl, rfl⟩
    | ⟨hmeta, _, _, log', rfl, hlog⟩ | ⟨hmeta, _, _, hlog⟩
  . exact ⟨by simp [handled, hmeta], hready⟩
  . have hnot : (m.wait pkt).ready → (m.wait pkt).waitQueue = [] := by
      rw [(wait_eq m pkt).ready]
      intro hyes
      exact absurd hyes hwaits.left
    refine ⟨?_, hnot⟩
    rw [waitQueue_wait]
    simp [handled, hmeta]
  . have hhandled := handled_handlePacketsLog u hlog
    obtain ⟨_, _, hqueue⟩ := handlePacketsLog_sameClock u hlog
    rw [map_toHandle] at hhandled
    change handled log' ++ m'.waitQueue = _ ∧ _
    rw [hhandled, hqueue]
    simp [hmeta]
  . have hhandled := handled_handlePacketsLog u hlog
    obtain ⟨_, _, hqueue⟩ := handlePacketsLog_sameClock u hlog
    rw [map_toHandle] at hhandled
    rw [hhandled, hqueue]
    simp [hmeta]

/--
Nothing is handled twice or out of order, and nothing gets lost: what has not been handled waits.
-/
theorem inputPacketsLog_handled {m m' : MpegtsMuxState} {pkts : List (Unwritten × AvPacket)} {log : List MuxEvent}
    (hready : m.ready → m.waitQueue = []) (h : m.inputPacketsLog mpegCrc32 pkts = some (log, m'))
    : handled log ++ m'.waitQueue = m.waitQueue ++ inputs pkts ∧ (m'.ready → m'.waitQueue = []) := by
  induction pkts generalizing m log with
  | nil =>
    cases h
    exact ⟨by simp [handled, inputs], hready⟩
  | cons pkt pkts ih =>
    obtain ⟨u, pkt⟩ := pkt
    unfold inputPacketsLog at h
    simp only [Option.bind_eq_bind, Option.bind_eq_some_iff, Prod.exists] at h
    obtain ⟨first, next, hfirst, rest, last, hrest, hresult⟩ := h
    cases hresult
    obtain ⟨hhandled, hnext⟩ := inputPacketLog_handled u mpegCrc32 hready hfirst
    obtain ⟨hhandled', hlast⟩ := ih hnext hrest
    refine ⟨?_, hlast⟩
    have hinputs : inputs ((u, pkt) :: pkts) = [pkt].filter (·.avType ≠ .metadata) ++ inputs pkts := by
      unfold inputs
      rw [List.map_cons, ← List.singleton_append, List.filter_append]
    rw [handled_append, List.append_assoc, hhandled', ← List.append_assoc, hhandled, hinputs, List.append_assoc]

end MpegtsMuxState

end Handled

section Scheduling

/--
The latest tables behind a log.
-/
def latestTables : Option TablePair → List MuxEvent → Option TablePair
  | latest, [] => latest
  | _, .tables t :: log => latestTables (some t) log
  | latest, .handle _ _ :: log => latestTables latest log
  | latest, .pes _ _ :: log => latestTables latest log

theorem scheduled_append (latest : Option TablePair) (log log' : List MuxEvent)
    : Scheduled latest (log ++ log') ↔ Scheduled latest log ∧ Scheduled (latestTables latest log) log' := by
  induction log generalizing latest with
  | nil => simp [Scheduled, latestTables]
  | cons e log ih =>
    cases e with
    | tables t => exact ih (some t)
    | handle waited pkt =>
      rw [List.cons_append, Scheduled, Scheduled, ih, and_assoc]
      rfl
    | pes frame packets =>
      rw [List.cons_append, Scheduled, Scheduled, ih, and_assoc]
      rfl

theorem latestTables_append (latest : Option TablePair) (log log' : List MuxEvent)
    : latestTables latest (log ++ log') = latestTables (latestTables latest log) log' := by
  induction log generalizing latest with
  | nil => rfl
  | cons e log ih =>
    cases e with
    | tables t => exact ih (some t)
    | handle waited pkt => exact ih latest
    | pes frame packets => exact ih latest

variable (u : Unwritten) (t : TablePair)

namespace MpegtsMuxState

theorem writeFramesLog_latest {m m' : MpegtsMuxState} {frames : List MediaPacket} {log : List MuxEvent}
    (h : m.writeFramesLog u frames = some (log, m')) (latest : Option TablePair)
    : latestTables latest log = latest := by
  induction frames generalizing m log with
  | nil =>
    cases h
    rfl
  | cons frame frames ih =>
    unfold writeFramesLog at h
    simp only [Option.bind_eq_bind, Option.bind_eq_some_iff, Prod.exists] at h
    obtain ⟨ps, mux, _, log', m'', hrest, hresult⟩ := h
    cases hresult
    have hlatest := ih hrest
    exact hlatest

theorem writeFramesLog_scheduled {m m' : MpegtsMuxState} {frames : List MediaPacket} {log : List MuxEvent}
    (hlists : ∀ frame ∈ frames, t.Lists frame) (h : m.writeFramesLog u frames = some (log, m'))
    : Scheduled (some t) log := by
  induction frames generalizing m log with
  | nil =>
    cases h
    trivial
  | cons frame frames ih =>
    unfold writeFramesLog at h
    simp only [Option.bind_eq_bind, Option.bind_eq_some_iff, Prod.exists] at h
    obtain ⟨ps, mux, _, log', m'', hrest, hresult⟩ := h
    cases hresult
    obtain ⟨hframe, hlists⟩ := List.forall_mem_cons.mp hlists
    exact ⟨⟨t, rfl, hframe⟩, ih hlists hrest⟩

/--
No tables come while packets are handled.
-/
theorem handlePacketsLog_latest {m m' : MpegtsMuxState} {pkts : List (Bool × AvPacket)} {log : List MuxEvent}
    (h : m.handlePacketsLog u pkts = some (log, m')) (latest : Option TablePair)
    : latestTables latest log = latest := by
  induction pkts generalizing m log with
  | nil =>
    cases h
    rfl
  | cons pkt pkts ih =>
    unfold handlePacketsLog at h
    simp only [Option.bind_eq_bind, Option.bind_eq_some_iff, Prod.exists] at h
    obtain ⟨first, next, hfirst, rest, last, hrest, hresult⟩ := h
    cases hresult
    obtain ⟨_, frames, log', rfl, hwrite, _⟩ := handlePacketLog_cases u hfirst
    have hlatest : latestTables latest (.handle pkt.1 pkt.2 :: log') = latest := writeFramesLog_latest u hwrite latest
    rw [latestTables_append, hlatest]
    exact ih hrest

/--
While the tables list the packets that are handled, and those that have not waited are within the interval, all is well.
-/
theorem handlePacketsLog_scheduled {m m' : MpegtsMuxState} {pkts : List (Bool × AvPacket)} {log : List MuxEvent}
    (hlists : ∀ pkt ∈ pkts, ∀ frame, FrameOf pkt.2 frame → t.Lists frame)
    (hdts : ∀ pkt ∈ pkts, pkt.1 = false → (pkt.2.dts - t.dts).natAbs < patpmtInterval)
    (h : m.handlePacketsLog u pkts = some (log, m'))
    : Scheduled (some t) log := by
  induction pkts generalizing m log with
  | nil =>
    cases h
    trivial
  | cons pkt pkts ih =>
    unfold handlePacketsLog at h
    simp only [Option.bind_eq_bind, Option.bind_eq_some_iff, Prod.exists] at h
    obtain ⟨first, next, hfirst, rest, last, hrest, hresult⟩ := h
    cases hresult
    obtain ⟨hlist, hlists⟩ := List.forall_mem_cons.mp hlists
    obtain ⟨hinterval, hdts⟩ := List.forall_mem_cons.mp hdts
    obtain ⟨_, frames, log', rfl, hwrite, hframes⟩ := handlePacketLog_cases u hfirst
    have hwritten := writeFramesLog_scheduled u t (fun frame hframe => hlist frame (hframes frame hframe)) hwrite
    have hlatest : latestTables (some t) (.handle pkt.1 pkt.2 :: log') = some t := writeFramesLog_latest u hwrite _
    rw [scheduled_append, hlatest]
    exact ⟨⟨fun hnot => ⟨t, rfl, hinterval hnot⟩, hwritten⟩, ih hlists hdts hrest⟩

end MpegtsMuxState

variable (mpegCrc32 : List UInt8 → Nat)

/--
What the latest tables are: those of the muxer as it was then, with the time that it has kept.
-/
structure Tracks (m : MpegtsMuxState) (listed : MpegtsMux) (latest : Option TablePair) : Prop where
  none : latest = none → m.lastPatpmtTs < 0
  dts : ∀ t ∈ latest, t.dts = m.lastPatpmtTs
  pat : ∀ t ∈ latest, t.pat = listed.generatePat mpegCrc32
  pmt : ∀ t ∈ latest, t.pmt = listed.generatePmt mpegCrc32

theorem tracks_none {m : MpegtsMuxState} (listed : MpegtsMux) (h : m.lastPatpmtTs < 0) : Tracks mpegCrc32 m listed none :=
  ⟨(fun _ => h), (fun _ ht => nomatch ht), (fun _ ht => nomatch ht), (fun _ ht => nomatch ht)⟩

/--
The tables of a muxer list what is written for a packet with the stream types that it has.
-/
theorem Tracks.lists {mpegCrc32 : List UInt8 → Nat} {m : MpegtsMuxState} {listed : MpegtsMux} {t : TablePair}
    (h : Tracks mpegCrc32 m listed (some t)) {pkt : AvPacket} (hlists : pkt.MayWrite → listed.ListsPacket pkt)
    {frame : MediaPacket} (hframe : FrameOf pkt frame)
    : t.Lists frame := by
  obtain ⟨infos, hpmt, hinfos⟩ := decodeUnit_generatePmt mpegCrc32 listed
  obtain ⟨hmay, havType, hcodec⟩ := hframe
  obtain ⟨hvideoType, haudioType⟩ := hlists hmay
  unfold TablePair.Lists
  rw [h.pat t rfl, h.pmt t rfl]
  refine ⟨decodeUnit_generatePat mpegCrc32 listed, infos, hpmt, ?_⟩
  rw [hinfos]
  unfold streamTypeOf pes MpegtsMux.streams
  rw [havType, hcodec]
  rcases hmay with ⟨hvideo, _⟩ | ⟨haudio, _⟩
  . obtain ⟨hhas, htype⟩ := hvideoType hvideo
    simp [hvideo, hhas, htype]
  . obtain ⟨hhas, htype⟩ := haudioType haudio
    simp [haudio, hhas, htype]

namespace MpegtsMuxState

theorem inputPacketLog_tracks {m m' : MpegtsMuxState} {listed : MpegtsMux} {latest : Option TablePair}
    {pkt : AvPacket} {log : List MuxEvent} (htracks : Tracks mpegCrc32 m listed latest)
    (h : m.inputPacketLog u mpegCrc32 pkt = some (log, m'))
    : Tracks mpegCrc32 m' (m.listedBy listed pkt) (latestTables latest log) := by
  rcases inputPacketLog_cases u mpegCrc32 h with ⟨hmeta, rfl, rfl⟩ | ⟨hmeta, hwaits, rfl, rfl⟩
    | ⟨hmeta, hwaits, hdue, log', rfl, hlog⟩ | ⟨hmeta, hwaits, hdue, hlog⟩
  . rw [listedBy, if_neg fun hall => hall.left hmeta]
    exact htracks
  . have hts := (wait_eq m pkt).lastPatpmtTs
    rw [listedBy, if_neg fun hall => hall.right.left hwaits]
    exact ⟨hts ▸ htracks.none, hts ▸ htracks.dts, htracks.pat, htracks.pmt⟩
  . have hts := (handlePacketsLog_sameClock u hlog).left
    have hlatest := handlePacketsLog_latest u hlog (some (m.tablePair mpegCrc32 pkt.dts))
    rw [listedBy, if_pos ⟨hmeta, hwaits, hdue⟩]
    change Tracks mpegCrc32 m' m.toMpegtsMux (latestTables (some (m.tablePair mpegCrc32 pkt.dts)) log')
    rw [hlatest]
    refine ⟨(fun hnone => nomatch hnone), ?_, ?_, ?_⟩
    . rintro _ ⟨⟩
      exact hts.symm
    . rintro _ ⟨⟩
      rfl
    . rintro _ ⟨⟩
      rfl
  . have hts := (handlePacketsLog_sameClock u hlog).left
    rw [listedBy, if_neg fun hall => hdue hall.right.right, handlePacketsLog_latest u hlog]
    exact ⟨hts ▸ htracks.none, hts ▸ htracks.dts, htracks.pat, htracks.pmt⟩

/--
What is handled in a call, once the tables are those that it is handled with.
-/
theorem toHandle_scheduled {m next m' : MpegtsMuxState} {listed : MpegtsMux} {pkt : AvPacket} {log : List MuxEvent}
    {t : TablePair} (hlisted : ∀ pkt, (AvPacket.MayWrite pkt → listed.ListsPacket pkt) → ∀ frame, FrameOf pkt frame →
      t.Lists frame)
    (hlists : ∀ other ∈ m.waitQueue ++ [pkt], other.MayWrite → listed.ListsPacket other)
    (hdts : (pkt.dts - t.dts).natAbs < patpmtInterval)
    (h : next.handlePacketsLog u (m.toHandle pkt) = some (log, m'))
    : Scheduled (some t) log := by
  apply handlePacketsLog_scheduled u t ?_ ?_ h
  . intro other hother
    have hmem : other.2 ∈ m.waitQueue ++ [pkt] := map_toHandle m pkt ▸ List.mem_map_of_mem hother
    exact hlisted other.2 (hlists other.2 hmem)
  . intro other hother hnot
    rcases List.mem_append.mp hother with hwaited | hlast
    . obtain ⟨_, _, rfl⟩ := List.mem_map.mp hwaited
      cases hnot
    . rw [List.mem_singleton.mp hlast]
      exact hdts

theorem inputPacketLog_scheduled {m m' : MpegtsMuxState} {listed : MpegtsMux} {latest : Option TablePair}
    {pkt : AvPacket} {log : List MuxEvent} (htracks : Tracks mpegCrc32 m listed latest) (hmeets : m.Meets listed pkt)
    (h : m.inputPacketLog u mpegCrc32 pkt = some (log, m'))
    : Scheduled latest log := by
  have hnext := inputPacketLog_tracks u mpegCrc32 htracks h
  rcases inputPacketLog_cases u mpegCrc32 h with ⟨_, rfl, _⟩ | ⟨_, _, rfl, _⟩
    | ⟨hmeta, hwaits, hdue, log', rfl, hlog⟩ | ⟨hmeta, hwaits, hdue, hlog⟩
  . trivial
  . trivial
  . obtain ⟨_, hlists⟩ := hmeets hmeta hwaits
    have hlatest := handlePacketsLog_latest u hlog (some (m.tablePair mpegCrc32 pkt.dts))
    change Tracks _ _ _ (latestTables (some (m.tablePair mpegCrc32 pkt.dts)) log') at hnext
    rw [hlatest] at hnext
    apply toHandle_scheduled u (fun pkt hpkt frame => hnext.lists hpkt) hlists ?_ hlog
    simp [tablePair, patpmtInterval]
  . obtain ⟨hbehind, hlists⟩ := hmeets hmeta hwaits
    have hbehind := hbehind hdue
    rw [handlePacketsLog_latest u hlog] at hnext
    unfold TablesDue at hdue
    cases latest with
    | none => exact absurd (Or.inl (htracks.none rfl)) hdue
    | some t =>
      have hts := htracks.dts t rfl
      apply toHandle_scheduled u (fun pkt hpkt frame => hnext.lists hpkt) hlists ?_ hlog
      omega

theorem inputPacketsLog_scheduled {m m' : MpegtsMuxState} {listed : MpegtsMux} {latest : Option TablePair}
    {pkts : List (Unwritten × AvPacket)} {log : List MuxEvent} (htracks : Tracks mpegCrc32 m listed latest)
    (hmeet : AllMeet mpegCrc32 m listed pkts) (h : m.inputPacketsLog mpegCrc32 pkts = some (log, m'))
    : Scheduled latest log := by
  induction pkts generalizing m listed latest log with
  | nil =>
    cases h
    trivial
  | cons pkt pkts ih =>
    obtain ⟨u, pkt⟩ := pkt
    unfold inputPacketsLog at h
    simp only [Option.bind_eq_bind, Option.bind_eq_some_iff, Prod.exists] at h
    obtain ⟨first, next, hfirst, rest, last, hrest, hresult⟩ := h
    cases hresult
    obtain ⟨hmeets, hmeet⟩ := hmeet
    have herase := inputPacket_eq u mpegCrc32 m pkt
    rw [hfirst] at herase
    have htracks' := inputPacketLog_tracks u mpegCrc32 htracks hfirst
    rw [scheduled_append]
    exact ⟨inputPacketLog_scheduled u mpegCrc32 htracks hmeets hfirst, ih htracks' (hmeet _ _ herase) hrest⟩

end MpegtsMuxState

end Scheduling

open MpegtsMuxState

theorem onSchedule (hasVideo hasAudio : Bool) (mpegCrc32 : List UInt8 → Nat) (pkts : List (Unwritten × AvPacket))
    (h : AllMeet mpegCrc32 { hasVideo, hasAudio } { hasVideo, hasAudio } pkts)
    : OnSchedule hasVideo hasAudio mpegCrc32 pkts := by
  intro log m hlog
  have hready : ({ hasVideo, hasAudio } : MpegtsMuxState).ready
      → ({ hasVideo, hasAudio } : MpegtsMuxState).waitQueue = [] := fun _ => rfl
  obtain ⟨hhandled, hempty⟩ := inputPacketsLog_handled mpegCrc32 hready hlog
  have hts : ({ hasVideo, hasAudio } : MpegtsMuxState).lastPatpmtTs < 0 := show (-1 : Int) < 0 by decide
  have htracks := tracks_none mpegCrc32 { hasVideo, hasAudio } hts
  refine ⟨?_, inputPacketsLog_scheduled mpegCrc32 htracks h hlog⟩
  intro hm
  rw [hempty hm, List.append_nil] at hhandled
  exact hhandled

/--
A frame and its sound, which wait, and a packet of sound that does not.
-/
def sampleStart : List (Unwritten × AvPacket) :=
  let sound : AvPacket := { avType := .audio, codecType := .opus, dts := 0, pts := 0, data := [1] }
  ([{ avType := .video, codecType := .vp8, dts := 0, pts := 0, isKeyFrame := true, data := [2, 3] }, sound,
    { sound with dts := 10000, pts := 10000 }] : List AvPacket).map (⟨fun _ => 0, fun _ => 0⟩, ·)

theorem onSchedule_start : OnSchedule true true (fun _ => 0) sampleStart := by
  apply onSchedule true true (fun _ => 0) sampleStart
  refine ⟨fun _ hwaits => absurd (by decide) hwaits, ?_⟩
  rintro _ _ ⟨⟩
  refine ⟨fun _ hwaits => absurd (by decide) hwaits, ?_⟩
  rintro _ _ ⟨⟩
  refine ⟨fun _ _ => ⟨fun _ => by decide, by decide⟩, ?_⟩
  intro _ _ _
  trivial

/--
A packet that goes back behind the interval is handled without new tables.
-/
theorem not_scheduled_of_behind {u : Unwritten} {mpegCrc32 : List UInt8 → Nat} {m m' : MpegtsMuxState}
    {pkt : AvPacket} {log : List MuxEvent} {latest : Option TablePair} (hready : m.ready) (hqueue : m.waitQueue = [])
    (hmeta : pkt.avType ≠ .metadata) (hpos : 0 ≤ m.lastPatpmtTs) (hbehind : pkt.dts + patpmtInterval ≤ m.lastPatpmtTs)
    (hlatest : ∀ t ∈ latest, t.dts = m.lastPatpmtTs) (h : m.inputPacketLog u mpegCrc32 pkt = some (log, m'))
    : ¬Scheduled latest log := by
  have hnotDue : ¬m.TablesDue pkt := by
    unfold TablesDue
    simp only [patpmtInterval] at hbehind ⊢
    omega
  rcases inputPacketLog_cases u mpegCrc32 h with ⟨hyes, _⟩ | ⟨_, hwaits, _⟩ | ⟨_, _, hdue, _⟩ | ⟨_, _, _, hlog⟩
  . exact absurd hyes hmeta
  . exact absurd hready hwaits.left
  . exact absurd hdue hnotDue
  . unfold toHandle at hlog
    rw [hqueue] at hlog
    unfold handlePacketsLog at hlog
    simp only [List.map_nil, List.nil_append, Option.bind_eq_bind, Option.bind_eq_some_iff, Prod.exists] at hlog
    obtain ⟨first, next, hfirst, rest, last, _, hresult⟩ := hlog
    cases hresult
    obtain ⟨_, _, log', rfl, _⟩ := handlePacketLog_cases u hfirst
    rintro ⟨hinterval, _⟩
    obtain ⟨t, ht, hlt⟩ := hinterval rfl
    have hts := hlatest t ht
    simp only [patpmtInterval] at hlt hbehind
    omega

/--
Sound at 10000 and then at 0 again, once the muxer is ready.
-/
def sampleBackwards : List (Unwritten × AvPacket) :=
  sampleStart ++ [(⟨fun _ => 0, fun _ => 0⟩, { avType := .audio, codecType := .opus, dts := 0, pts := 0, data := [1] })]

theorem not_onSchedule : ¬∃ mpegCrc32 : List UInt8 → Nat, OnSchedule true true mpegCrc32 sampleBackwards := by
  rintro ⟨mpegCrc32, h⟩
  have hplain : ∀ pkt ∈ sampleBackwards, Plain pkt.2 := by
    simp [sampleBackwards, sampleStart, Plain]
  have hruns := @inputPackets_isSome mpegCrc32 _ hplain {} (by simp)
  rw [inputPackets_eq, Option.isSome_map] at hruns
  obtain ⟨⟨log, m⟩, hlog⟩ := Option.isSome_iff_exists.mp hruns
  have hscheduled := (h log m hlog).right
  unfold sampleBackwards sampleStart at hlog
  simp only [List.map_cons, List.map_nil, List.cons_append, List.nil_append, inputPacketsLog, Option.bind_eq_bind,
    Option.bind_eq_some_iff, Prod.exists] at hlog
  obtain ⟨_, m1, hfirst, _, _, ⟨_, m2, hsecond, _, _, ⟨log3, m3, hthird, _, _, ⟨log4, m4, hfourth, _, _, hnil, hres4⟩,
    hres3⟩, hres2⟩, hres1⟩ := hlog
  cases hfirst
  cases hsecond
  cases hnil
  cases hres4
  cases hres3
  cases hres2
  cases hres1
  have herase := inputPacket_eq _ mpegCrc32 _ _ ▸ congrArg (Option.map erase) hthird
  obtain ⟨_, hready, hts⟩ := inputPacket_ready _ mpegCrc32 (by decide) (by decide) herase
  obtain ⟨_, hqueue⟩ := inputPacketLog_handled _ mpegCrc32 (by decide) hthird
  have htracks := inputPacketLog_tracks _ mpegCrc32 (tracks_none mpegCrc32 {} (by decide)) hthird
  rw [if_pos (by decide)] at hts
  change m3.lastPatpmtTs = 10000 at hts
  rw [List.nil_append, List.nil_append, List.append_nil, scheduled_append] at hscheduled
  refine not_scheduled_of_behind hready (hqueue hready) (by decide) ?_ ?_ htracks.dts hfourth hscheduled.right
  . rw [hts]
    decide
  . rw [hts]
    decide

end MpegTs
