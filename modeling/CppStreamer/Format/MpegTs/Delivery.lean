import CppStreamer.Format.MpegTs.Transport

/-!
This module contains which packets a reader gets for the frames of a run of `MpegtsMux::InputPacket`.
-/

namespace MpegTs

section Log

def frames (log : List MuxEvent) : List MediaPacket :=
  log.filterMap fun
    | .pes frame _ => some frame
    | _ => none

theorem frames_append (log log' : List MuxEvent) : frames (log ++ log') = frames log ++ frames log' :=
  List.filterMap_append

/--
What is handed on for a log: with each PES what the reader holds, under the tables that have come by then.
-/
def deliveries : Option TablePair → Option MediaPacket → List MuxEvent → List (Nat × Option (List MediaPacket))
  | _, _, [] => []
  | _, held, .tables t :: log => deliveries (some t) held log
  | latest, held, .handle _ _ :: log => deliveries latest held log
  | latest, held, .pes frame _ :: log =>
    (held.toList.map fun f => MpegtsDemux.delivery ((latest.map TablePair.streams).getD []) (assembledOf f))
      ++ deliveries latest (some frame) log

def lastFrame (held : Option MediaPacket) (log : List MuxEvent) : Option MediaPacket :=
  (held.toList ++ frames log).getLast?

/--
Each PES comes behind tables the latest of which list it.
-/
def Listed : Option TablePair → List MuxEvent → Prop
  | _, [] => True
  | _, .tables t :: log => Listed (some t) log
  | latest, .handle _ _ :: log => Listed latest log
  | latest, .pes frame _ :: log => (∃ t ∈ latest, t.Lists frame) ∧ Listed latest log

theorem Scheduled.listed {latest : Option TablePair} {log : List MuxEvent} (h : Scheduled latest log)
    : Listed latest log := by
  induction log generalizing latest with
  | nil => trivial
  | cons e log ih =>
    cases e with
    | tables t => exact @ih (some t) h
    | handle waited pkt => exact ih h.right
    | pes frame packets => exact ⟨h.left, ih h.right⟩

variable (mpegCrc32 : List UInt8 → Nat)

def MuxEvent.Written : MuxEvent → Prop
  | tables t => t.Written mpegCrc32
  | handle _ _ => True
  | pes frame packets => ∃ u m ps m', MpegtsMux.writePes u m frame = some (ps, m') ∧ packets = ps.map (·.bytes)

variable {mpegCrc32 : List UInt8 → Nat}

theorem KeepsUp.log {latest : Option TablePair} {held : Option MediaPacket} {d : MpegtsDemux} {log : List MuxEvent}
    (h : KeepsUp mpegCrc32 latest (held.map assembledOf) d) (hlog : Listed latest log)
    (hwritten : ∀ e ∈ log, e.Written mpegCrc32) (hpasses : ∀ frame ∈ frames log, Passes frame)
    : ∃ d', Feeds d (log.flatMap MuxEvent.output) (deliveries latest held log) d'
        ∧ KeepsUp mpegCrc32 (latestTables latest log) ((lastFrame held log).map assembledOf) d' := by
  induction log generalizing latest held d with
  | nil =>
    refine ⟨d, .nil d, ?_⟩
    have hlast : lastFrame held [] = held := by
      cases held with
      | none => rfl
      | some f => rfl
    rw [hlast]
    exact h
  | cons e log ih =>
    obtain ⟨hfirst, hrest⟩ := List.forall_mem_cons.mp hwritten
    cases e with
    | tables t =>
      obtain ⟨d₁, hfeeds, hkeeps⟩ := h.tables hfirst
      obtain ⟨d', hfeeds', hkeeps'⟩ := ih hkeeps hlog hrest hpasses
      exact ⟨d', hfeeds.append hfeeds', hkeeps'⟩
    | handle waited pkt =>
      obtain ⟨d', hfeeds, hkeeps⟩ := ih h hlog hrest hpasses
      exact ⟨d', hfeeds, hkeeps⟩
    | pes frame packets =>
      obtain ⟨⟨t, ht, hlists⟩, hlog⟩ := hlog
      obtain ⟨u, m, ps, m', hwrite, rfl⟩ := hfirst
      obtain ⟨hpass, hpasses⟩ := List.forall_mem_cons.mp hpasses
      rw [Option.mem_def] at ht
      subst ht
      obtain ⟨d₁, hfeeds, hkeeps⟩ := h.pes hlists hpass hwrite
      obtain ⟨d', hfeeds', hkeeps'⟩ := @ih _ (some frame) _ hkeeps hlog hrest hpasses
      have hlast : lastFrame held (.pes frame (ps.map (·.bytes)) :: log) = lastFrame (some frame) log := by
        unfold lastFrame
        exact List.getLast?_append_of_ne_nil _ (List.cons_ne_nil _ _)
      refine ⟨d', ?_, ?_⟩
      . have hout : held.toList.map (fun f => MpegtsDemux.delivery t.streams (assembledOf f))
            = (held.map assembledOf).toList.map (MpegtsDemux.delivery t.streams) := by
          cases held with
          | none => rfl
          | some f => rfl
        have hall := hfeeds.append hfeeds'
        rw [← hout] at hall
        exact hall
      . rw [hlast]
        exact hkeeps'

end Log

section Media

/--
A codec whose stream type the reader knows.
-/
def Known (frame : MediaPacket) : Prop :=
  frame.avType = .video ∧ (frame.codecType = .h264 ∨ frame.codecType = .h265)
    ∨ frame.avType = .audio ∧ frame.codecType = .aac

/--
The frame as the reader sees it. Whether it was a key frame is not in the PES.
-/
def readFrame (frame : MediaPacket) : MediaPacket where
  avType := frame.avType
  codecType := frame.codecType
  fmtType := .raw
  dts := readDts frame
  pts := frame.pts
  data := frame.data

/--
What is handed on for a frame: the packets of its NALUs, and sound as it is.
-/
def readPackets (frame : MediaPacket) : Nat × Option (List MediaPacket) :=
  ((pes frame).pid, if frame.avType = .video then videoPackets (readFrame frame) else some [readFrame frame])

variable {mpegCrc32 : List UInt8 → Nat} {t : TablePair} {frame : MediaPacket}

theorem find_elementaryPid {infos : List StreamPidInfo} (hnodup : (infos.map (·.elementaryPid)).Nodup)
    {info : StreamPidInfo}
    (hinfo : info ∈ infos)
    : infos.find? (fun other => other.elementaryPid = info.elementaryPid) = some info := by
  induction infos with
  | nil => cases hinfo
  | cons first infos ih =>
    rw [List.map_cons, List.nodup_cons] at hnodup
    rcases List.mem_cons.mp hinfo with rfl | hrest
    . rw [List.find?_cons_of_pos (by simp)]
    . have hne : first.elementaryPid ≠ info.elementaryPid := by
        intro heq
        exact hnodup.left (heq ▸ List.mem_map_of_mem hrest)
      rw [List.find?_cons_of_neg (by simpa using hne)]
      exact ih hnodup.right hrest

theorem Known.byStreamtype (h : Known frame)
    : getMediaInfoByStreamtype (streamTypeOf frame).toNat = (frame.avType, frame.codecType)
        ∧ frame.avType ≠ .unknown ∧ frame.codecType ≠ .unknown := by
  unfold streamTypeOf
  rcases h with ⟨hvideo, hcodec | hcodec⟩ | ⟨haudio, hcodec⟩
  . rw [hvideo, hcodec]
    decide
  . rw [hvideo, hcodec]
    decide
  . rw [haudio, hcodec]
    decide

theorem getMediaInfoByPid_streams (ht : t.Written mpegCrc32) (hlists : t.Lists frame) (hknown : Known frame)
    : getMediaInfoByPid t.streams (pes frame).pid = (frame.avType, frame.codecType) := by
  obtain ⟨m, hpids, _⟩ := ht.streams
  obtain ⟨_, infos, hdecode, hmem⟩ := hlists
  have hstreams : t.streams = infos := by
    unfold TablePair.streams
    rw [hdecode]
    rfl
  obtain ⟨info, hinfo, heq⟩ := List.mem_map.mp hmem
  obtain ⟨htype, hpid⟩ := Prod.mk.inj heq
  obtain ⟨hmedia, havType, hcodec⟩ := hknown.byStreamtype
  rw [hstreams] at hpids ⊢
  have hfind := find_elementaryPid (hpids ▸ streams_nodup m) hinfo
  rw [hpid] at hfind
  unfold getMediaInfoByPid
  simp only [hfind, htype, hmedia]
  rw [if_pos ⟨havType, hcodec⟩]

theorem delivery_assembledOf (ht : t.Written mpegCrc32) (hlists : t.Lists frame) (hknown : Known frame)
    (hpasses : Passes frame)
    : MpegtsDemux.delivery t.streams (assembledOf frame) = readPackets frame := by
  have hdts := hpasses.dts_nonneg
  have hpts := hpasses.pts_nonneg
  have hdts' : ((readDts frame * 90).toNat : Int) / 90 = readDts frame := by omega
  have hpts' : ((frame.pts * 90).toNat : Int) / 90 = frame.pts := by omega
  unfold MpegtsDemux.delivery packets readPackets readFrame
  simp only [assembledOf, getMediaInfoByPid_streams ht hlists hknown, hdts', hpts']
  split
  . rfl
  . rw [if_neg]
    rintro ⟨haudio, hopus⟩
    rcases hknown with ⟨hvideo, _⟩ | ⟨_, haac⟩
    . rw [hvideo] at haudio
      cases haudio
    . rw [haac] at hopus
      cases hopus

end Media

section Handlers

def MpegtsMux.setCodec (m : MpegtsMux) (pkt : AvPacket) : MpegtsMux :=
  match pkt.avType with
  | .video => { m with videoCodecType := pkt.codecType }
  | .audio => { m with audioCodecType := pkt.codecType }
  | _ => m

/--
The frames of a packet. There are no others than those of video and of sound.
-/
def CodecState.handle (u : Unwritten) (c : CodecState) (pkt : AvPacket) : Option (List MediaPacket × CodecState) :=
  match pkt.avType with
  | .video => (c.handleVideo u pkt).map (·.2)
  | .audio => some (c.handleAudio pkt).2
  | _ => some ([], c)

theorem handle_frames {u : Unwritten} {c c' : CodecState} {pkt : AvPacket} {written : List MediaPacket}
    (h : c.handle u pkt = some (written, c'))
    : ∀ frame ∈ written, FrameOf pkt frame := by
  unfold CodecState.handle at h
  split at h
  . next hvideo =>
    rw [Option.map_eq_some_iff] at h
    obtain ⟨⟨ret, handled⟩, hhandled, rfl⟩ := h
    exact handleVideo_frames u hvideo hhandled
  . next haudio =>
    have hwritten : (c.handleAudio pkt).2.1 = written := congrArg Prod.fst (Option.some.inj h)
    rw [← hwritten]
    exact handleAudio_frames c haudio
  . cases h
    intro frame hframe
    cases hframe

theorem handlePacketLog_eq (u : Unwritten) (m : MpegtsMuxState) (waited : Bool) (pkt : AvPacket)
    : m.handlePacketLog u waited pkt = (do
        let (frames, codec) ← m.codec.handle u pkt
        let (log, m) ← { m with toMpegtsMux := m.toMpegtsMux.setCodec pkt, codec }.writeFramesLog u frames
        pure (.handle waited pkt :: log, m)) := by
  unfold MpegtsMuxState.handlePacketLog CodecState.handle MpegtsMux.setCodec
  cases pkt.avType with
  | video =>
    cases m.codec.handleVideo u pkt with
    | none => rfl
    | some handled => rfl
  | audio => rfl
  | metadata => rfl
  | movbox => rfl
  | unknown => rfl

/--
The frames of packets that are handled one after the other, whatever is in the memory.
-/
inductive Handles : CodecState → List AvPacket → List MediaPacket → CodecState → Prop where
  | nil (c : CodecState) : Handles c [] [] c
  | cons {c c' c'' : CodecState} {pkt : AvPacket} {pkts : List AvPacket} {written frames : List MediaPacket}
      (hpkt : ∀ u, c.handle u pkt = some (written, c')) (hrest : Handles c' pkts frames c'')
    : Handles c (pkt :: pkts) (written ++ frames) c''

theorem Handles.split {c c'' : CodecState} {pkts pkts' : List AvPacket} {written : List MediaPacket}
    (h : Handles c (pkts ++ pkts') written c'')
    : ∃ c' front back, Handles c pkts front c' ∧ Handles c' pkts' back c'' ∧ written = front ++ back := by
  induction pkts generalizing c written with
  | nil => exact ⟨c, [], written, .nil c, h, rfl⟩
  | cons pkt pkts ih =>
    cases h with
    | cons hpkt hrest =>
      obtain ⟨c', front, back, hfront, hback, rfl⟩ := ih hrest
      refine ⟨c', _, back, .cons hpkt hfront, hback, ?_⟩
      rw [List.append_assoc]

namespace MpegtsMuxState

variable (u : Unwritten)

theorem exists_writeFramesLog (written : List MediaPacket) (m : MpegtsMuxState)
    : ∃ log m', m.writeFramesLog u written = some (log, m') ∧ frames log = written ∧ m'.codec = m.codec := by
  induction written generalizing m with
  | nil => exact ⟨[], m, rfl, rfl, rfl⟩
  | cons frame written ih =>
    obtain ⟨⟨ps, mux⟩, hps⟩ := Option.isSome_iff_exists.mp (writePes_isSome u m.toMpegtsMux frame)
    obtain ⟨log, m', hlog, hframes, hcodec⟩ := ih { m with toMpegtsMux := mux }
    refine ⟨.pes frame (ps.map (·.bytes)) :: log, m', ?_, ?_, hcodec⟩
    . unfold writeFramesLog
      simp only [hps, hlog, Option.bind_eq_bind, Option.bind_some, Option.pure_def]
    . rw [← hframes]
      rfl

theorem exists_handlePacketsLog {pkts : List (Bool × AvPacket)} {m : MpegtsMuxState} {written : List MediaPacket}
    {c : CodecState} (h : Handles m.codec (pkts.map Prod.snd) written c)
    : ∃ log m', m.handlePacketsLog u pkts = some (log, m') ∧ frames log = written ∧ m'.codec = c := by
  induction pkts generalizing m written with
  | nil =>
    cases h
    exact ⟨[], m, rfl, rfl, rfl⟩
  | cons pkt pkts ih =>
    obtain ⟨waited, pkt⟩ := pkt
    cases h with
    | @cons _ codec _ _ _ first rest hpkt hrest =>
      obtain ⟨log, next, hlog, hframes, hcodec⟩ := exists_writeFramesLog u first
        { m with toMpegtsMux := m.toMpegtsMux.setCodec pkt, codec }
      have hrest' : Handles next.codec (pkts.map Prod.snd) rest c := by
        rw [hcodec]
        exact hrest
      obtain ⟨log', m', hlog', hframes', hcodec'⟩ := ih hrest'
      refine ⟨(.handle waited pkt :: log) ++ log', m', ?_, ?_, hcodec'⟩
      . unfold handlePacketsLog
        rw [handlePacketLog_eq]
        simp only [hpkt, hlog, hlog', Option.bind_eq_bind, Option.bind_some, Option.pure_def]
      . rw [frames_append, hframes', ← hframes]
        rfl

variable (mpegCrc32 : List UInt8 → Nat)

theorem exists_inputPacketLog {pkt : AvPacket} {m : MpegtsMuxState} {others : List AvPacket}
    {written : List MediaPacket} {c : CodecState}
    (h : Handles m.codec (m.waitQueue ++ ([pkt].filter (·.avType ≠ .metadata) ++ others)) written c)
    : ∃ log m', m.inputPacketLog u mpegCrc32 pkt = some (log, m')
        ∧ ∃ rest, Handles m'.codec (m'.waitQueue ++ others) rest c ∧ written = frames log ++ rest := by
  unfold inputPacketLog
  split
  . next hmeta =>
    refine ⟨[], m, rfl, written, ?_, rfl⟩
    simpa [hmeta] using h
  . next hmeta =>
    rw [List.filter_cons_of_pos (by simpa using hmeta), List.filter_nil, ← List.append_assoc] at h
    split
    . refine ⟨[], m.wait pkt, rfl, written, ?_, rfl⟩
      rw [waitQueue_wait]
      have hcodec : (m.wait pkt).codec = m.codec := by
        unfold wait
        split
        . rfl
        . rfl
        . rfl
      rw [hcodec]
      exact h
    . obtain ⟨c', front, back, hfront, hback, rfl⟩ := h.split
      rw [← map_toHandle] at hfront
      have hhandled (tables : List MuxEvent) (htables : frames tables = []) (next : MpegtsMuxState)
          (hcodec : next.codec = m.codec) (hqueue : next.waitQueue = [])
          : ∃ log m', (next.handlePacketsLog u (m.toHandle pkt) >>= fun x => pure (tables ++ x.1, x.2)) = some (log, m')
            ∧ ∃ rest, Handles m'.codec (m'.waitQueue ++ others) rest c ∧ front ++ back = frames log ++ rest := by
        rw [← hcodec] at hfront
        obtain ⟨log, m', hlog, hframes, hcodec'⟩ := exists_handlePacketsLog u hfront
        obtain ⟨_, _, hempty⟩ := handlePacketsLog_sameClock u hlog
        refine ⟨tables ++ log, m', ?_, back, ?_, ?_⟩
        . rw [hlog]
          rfl
        . rw [hempty, hqueue, hcodec', List.nil_append]
          exact hback
        . rw [frames_append, htables, hframes, List.nil_append]
      by_cases hdue : ({ m with ready := true } : MpegtsMuxState).TablesDue pkt
      . simp only [if_pos hdue]
        exact hhandled [.tables _] rfl _ rfl rfl
      . simp only [if_neg hdue]
        exact hhandled [] rfl _ rfl rfl

theorem exists_inputPacketsLog {pkts : List (Unwritten × AvPacket)} {m : MpegtsMuxState} {written : List MediaPacket}
    {c : CodecState} (h : Handles m.codec (m.waitQueue ++ inputs pkts) written c)
    : ∃ log m', m.inputPacketsLog mpegCrc32 pkts = some (log, m')
        ∧ ∃ rest, Handles m'.codec m'.waitQueue rest c ∧ written = frames log ++ rest := by
  induction pkts generalizing m written with
  | nil =>
    refine ⟨[], m, rfl, written, ?_, rfl⟩
    simpa [inputs] using h
  | cons pkt pkts ih =>
    obtain ⟨u, pkt⟩ := pkt
    have hinputs : inputs ((u, pkt) :: pkts) = [pkt].filter (·.avType ≠ .metadata) ++ inputs pkts := by
      unfold inputs
      rw [List.map_cons, ← List.singleton_append, List.filter_append]
    rw [hinputs] at h
    obtain ⟨first, next, hfirst, rest, hrest, rfl⟩ := exists_inputPacketLog u mpegCrc32 h
    obtain ⟨log, m', hlog, waiting, hwaiting, rfl⟩ := ih hrest
    refine ⟨first ++ log, m', ?_, waiting, hwaiting, ?_⟩
    . unfold inputPacketsLog
      simp only [hfirst, hlog, Option.bind_eq_bind, Option.bind_some, Option.pure_def]
    . rw [frames_append, List.append_assoc]

end MpegtsMuxState

end Handlers

section Traces

variable (mpegCrc32 : List UInt8 → Nat) (ok : AvPacket → Prop)

/--
What a muxer does, apart from its handlers: it takes the codecs of packets, and writes tables of itself and the PES of
frames for a packet the codec of which it has.
-/
inductive Traces : MpegtsMux → List MuxEvent → MpegtsMux → Prop where
  | nil (m : MpegtsMux) : Traces m [] m
  | wait {m m' : MpegtsMux} {log : List MuxEvent} {pkt : AvPacket} (hok : ok pkt)
      (hrest : Traces (m.setCodec pkt) log m')
    : Traces m log m'
  | tables {m m' : MpegtsMux} {log : List MuxEvent} (dts : Int)
      (hrest : Traces { m with patCrc := m.patChecksum mpegCrc32 } log m')
    : Traces m (.tables ⟨dts, m.generatePat mpegCrc32, m.generatePmt mpegCrc32⟩ :: log) m'
  | handle {m m' : MpegtsMux} {log : List MuxEvent} (waited : Bool) {pkt : AvPacket} (hok : ok pkt)
      (hrest : Traces (m.setCodec pkt) log m')
    : Traces m (.handle waited pkt :: log) m'
  | pes {m next m' : MpegtsMux} {log : List MuxEvent} {pkt : AvPacket} {frame : MediaPacket} {u : Unwritten}
      {ps : List TsPacket} (hok : ok pkt) (hset : m.setCodec pkt = m) (hframe : FrameOf pkt frame)
      (hwrite : m.writePes u frame = some (ps, next)) (hrest : Traces next log m')
    : Traces m (.pes frame (ps.map (·.bytes)) :: log) m'

variable {mpegCrc32 : List UInt8 → Nat} {ok : AvPacket → Prop}

theorem Traces.append {m m' m'' : MpegtsMux} {log log' : List MuxEvent} (h : Traces mpegCrc32 ok m log m')
    (h' : Traces mpegCrc32 ok m' log' m'')
    : Traces mpegCrc32 ok m (log ++ log') m'' := by
  induction h with
  | nil => exact h'
  | wait hok _ ih => exact .wait hok (ih h')
  | tables dts _ ih => exact .tables dts (ih h')
  | handle waited hok _ ih => exact .handle waited hok (ih h')
  | pes hok hset hframe hwrite _ ih => exact .pes hok hset hframe hwrite (ih h')

theorem Traces.written {m m' : MpegtsMux} {log : List MuxEvent} (h : Traces mpegCrc32 ok m log m')
    : ∀ e ∈ log, e.Written mpegCrc32 := by
  induction h with
  | nil =>
    intro e he
    cases he
  | wait _ _ ih => exact ih
  | @tables m _ _ _ _ ih => exact List.forall_mem_cons.mpr ⟨⟨m, rfl, rfl⟩, ih⟩
  | handle _ _ _ ih => exact List.forall_mem_cons.mpr ⟨trivial, ih⟩
  | pes _ _ _ hwrite _ ih => exact List.forall_mem_cons.mpr ⟨⟨_, _, _, _, hwrite, rfl⟩, ih⟩

theorem writePes_eq {u : Unwritten} {m next : MpegtsMux} {frame : MediaPacket} {ps : List TsPacket}
    (h : m.writePes u frame = some (ps, next))
    : next = { m with videoCc := next.videoCc, audioCc := next.audioCc } := by
  unfold MpegtsMux.writePes at h
  simp only [Option.map_eq_some_iff, Prod.exists] at h
  obtain ⟨_, _, _, heq⟩ := h
  cases heq
  split
  . rfl
  . rfl

theorem setCodec_setCodec (m : MpegtsMux) (pkt : AvPacket) : (m.setCodec pkt).setCodec pkt = m.setCodec pkt := by
  unfold MpegtsMux.setCodec
  cases pkt.avType with
  | video => rfl
  | audio => rfl
  | metadata => rfl
  | movbox => rfl
  | unknown => rfl

theorem setCodec_of_counters {m : MpegtsMux} {pkt : AvPacket} (h : m.setCodec pkt = m) (videoCc audioCc : UInt8)
    : ({ m with videoCc, audioCc } : MpegtsMux).setCodec pkt = { m with videoCc, audioCc } := by
  rw [← h]
  unfold MpegtsMux.setCodec
  cases pkt.avType with
  | video => rfl
  | audio => rfl
  | metadata => rfl
  | movbox => rfl
  | unknown => rfl

namespace MpegtsMuxState

variable (u : Unwritten)

theorem writeFramesLog_traces {m m' : MpegtsMuxState} {pkt : AvPacket} {frames : List MediaPacket} {log : List MuxEvent}
    (hok : ok pkt) (hset : m.toMpegtsMux.setCodec pkt = m.toMpegtsMux) (hframes : ∀ frame ∈ frames, FrameOf pkt frame)
    (h : m.writeFramesLog u frames = some (log, m'))
    : Traces mpegCrc32 ok m.toMpegtsMux log m'.toMpegtsMux := by
  induction frames generalizing m log with
  | nil =>
    cases h
    exact .nil _
  | cons frame frames ih =>
    unfold writeFramesLog at h
    simp only [Option.bind_eq_bind, Option.bind_eq_some_iff, Prod.exists] at h
    obtain ⟨ps, mux, hwrite, log', m'', hrest, hresult⟩ := h
    cases hresult
    obtain ⟨hframe, hframes⟩ := List.forall_mem_cons.mp hframes
    have hmux : mux.setCodec pkt = mux := by
      rw [writePes_eq hwrite]
      exact setCodec_of_counters hset _ _
    exact .pes hok hset hframe hwrite (ih (m := { m with toMpegtsMux := mux }) hmux hframes hrest)

theorem handlePacketLog_traces {m m' : MpegtsMuxState} {waited : Bool} {pkt : AvPacket} {log : List MuxEvent}
    (hok : ok pkt) (h : m.handlePacketLog u waited pkt = some (log, m'))
    : Traces mpegCrc32 ok m.toMpegtsMux log m'.toMpegtsMux := by
  rw [handlePacketLog_eq] at h
  simp only [Option.bind_eq_bind, Option.bind_eq_some_iff, Prod.exists] at h
  obtain ⟨frames, codec, hhandle, log', m'', hlog, hresult⟩ := h
  cases hresult
  exact .handle waited hok (writeFramesLog_traces (m := { m with toMpegtsMux := m.toMpegtsMux.setCodec pkt, codec }) u hok
    (setCodec_setCodec _ pkt) (handle_frames hhandle) hlog)

theorem handlePacketsLog_traces {m m' : MpegtsMuxState} {pkts : List (Bool × AvPacket)} {log : List MuxEvent}
    (hok : ∀ pkt ∈ pkts, ok pkt.2) (h : m.handlePacketsLog u pkts = some (log, m'))
    : Traces mpegCrc32 ok m.toMpegtsMux log m'.toMpegtsMux := by
  induction pkts generalizing m log with
  | nil =>
    cases h
    exact .nil _
  | cons pkt pkts ih =>
    unfold handlePacketsLog at h
    simp only [Option.bind_eq_bind, Option.bind_eq_some_iff, Prod.exists] at h
    obtain ⟨first, next, hfirst, rest, last, hrest, hresult⟩ := h
    cases hresult
    obtain ⟨hpkt, hok⟩ := List.forall_mem_cons.mp hok
    exact (handlePacketLog_traces u hpkt hfirst).append (ih hok hrest)

theorem inputPacketLog_traces {m m' : MpegtsMuxState} {pkt : AvPacket} {log : List MuxEvent}
    (hqueue : ∀ other ∈ m.waitQueue, ok other) (hok : pkt.avType ≠ .metadata → ok pkt)
    (h : m.inputPacketLog u mpegCrc32 pkt = some (log, m'))
    : Traces mpegCrc32 ok m.toMpegtsMux log m'.toMpegtsMux ∧ ∀ other ∈ m'.waitQueue, ok other := by
  have hhandle (hmeta : pkt.avType ≠ .metadata) : ∀ other ∈ m.toHandle pkt, ok other.2 := by
    intro other hother
    have hmem : other.2 ∈ m.waitQueue ++ [pkt] := map_toHandle m pkt ▸ List.mem_map_of_mem hother
    rcases List.mem_append.mp hmem with hwaited | hlast
    . exact hqueue _ hwaited
    . rw [List.mem_singleton.mp hlast]
      exact hok hmeta
  rcases inputPacketLog_cases u mpegCrc32 h with ⟨hmeta, rfl, rfl⟩ | ⟨hmeta, hwaits, rfl, rfl⟩
    | ⟨hmeta, hwaits, hdue, log', rfl, hlog⟩ | ⟨hmeta, hwaits, hdue, hlog⟩
  . exact ⟨.nil _, hqueue⟩
  . refine ⟨.wait (hok hmeta) ?_, ?_⟩
    . have hset : (m.wait pkt).toMpegtsMux = m.toMpegtsMux.setCodec pkt := by
        unfold wait MpegtsMux.setCodec
        cases pkt.avType with
        | video => rfl
        | audio => rfl
        | metadata => rfl
        | movbox => rfl
        | unknown => rfl
      rw [hset]
      exact .nil _
    . rw [waitQueue_wait]
      intro other hother
      rcases List.mem_append.mp hother with hwaited | hlast
      . exact hqueue _ hwaited
      . rw [List.mem_singleton.mp hlast]
        exact hok hmeta
  . obtain ⟨_, _, hempty⟩ := handlePacketsLog_sameClock u hlog
    refine ⟨.tables pkt.dts (handlePacketsLog_traces u (hhandle hmeta) hlog), ?_⟩
    rw [hempty]
    intro other hother
    cases hother
  . obtain ⟨_, _, hempty⟩ := handlePacketsLog_sameClock u hlog
    refine ⟨handlePacketsLog_traces (m := { m with ready := true, waitQueue := [] }) u (hhandle hmeta) hlog, ?_⟩
    rw [hempty]
    intro other hother
    cases hother

theorem inputPacketsLog_traces {m m' : MpegtsMuxState} {pkts : List (Unwritten × AvPacket)} {log : List MuxEvent}
    (hqueue : ∀ other ∈ m.waitQueue, ok other) (hok : ∀ pkt ∈ inputs pkts, ok pkt)
    (h : m.inputPacketsLog mpegCrc32 pkts = some (log, m'))
    : Traces mpegCrc32 ok m.toMpegtsMux log m'.toMpegtsMux := by
  induction pkts generalizing m log with
  | nil =>
    cases h
    exact .nil _
  | cons pkt pkts ih =>
    obtain ⟨u, pkt⟩ := pkt
    unfold inputPacketsLog at h
    simp only [Option.bind_eq_bind, Option.bind_eq_some_iff, Prod.exists] at h
    obtain ⟨first, next, hfirst, rest, last, hrest, hresult⟩ := h
    cases hresult
    have hinputs : inputs ((u, pkt) :: pkts) = [pkt].filter (·.avType ≠ .metadata) ++ inputs pkts := by
      unfold inputs
      rw [List.map_cons, ← List.singleton_append, List.filter_append]
    rw [hinputs] at hok
    obtain ⟨hpkt, hok⟩ := List.forall_mem_append.mp hok
    have hpkt' : pkt.avType ≠ .metadata → ok pkt := by
      intro hmeta
      apply hpkt
      simp [hmeta]
    obtain ⟨htrace, hnext⟩ := inputPacketLog_traces u hqueue hpkt' hfirst
    exact htrace.append (ih hnext hok hrest)

end MpegtsMuxState

end Traces

section Delivery

theorem setCodec_eq_iff {m : MpegtsMux} {pkt : AvPacket}
    : m.setCodec pkt = m ↔ (pkt.avType = .video → m.videoCodecType = pkt.codecType)
        ∧ (pkt.avType = .audio → m.audioCodecType = pkt.codecType) := by
  obtain ⟨_, _, _, _, _, _, _⟩ := m
  unfold MpegtsMux.setCodec
  cases pkt.avType <;> simp [eq_comm]

theorem setCodec_keeps {m : MpegtsMux} {pkt other : AvPacket} (h : m.setCodec pkt = m)
    (hcodec : pkt.avType = other.avType → pkt.codecType = other.codecType)
    : (m.setCodec other).setCodec pkt = m.setCodec other := by
  obtain ⟨hvideo, haudio⟩ := setCodec_eq_iff.mp h
  refine setCodec_eq_iff.mpr ⟨fun hpkt => ?_, fun hpkt => ?_⟩
  . unfold MpegtsMux.setCodec
    split
    . next hother => exact (hcodec (hpkt.trans hother.symm)).symm
    . exact hvideo hpkt
    . exact hvideo hpkt
  . unfold MpegtsMux.setCodec
    split
    . exact haudio hpkt
    . next hother => exact (hcodec (hpkt.trans hother.symm)).symm
    . exact haudio hpkt

theorem setCodec_flags (m : MpegtsMux) (pkt : AvPacket)
    : (m.setCodec pkt).hasVideo = m.hasVideo ∧ (m.setCodec pkt).hasAudio = m.hasAudio := by
  unfold MpegtsMux.setCodec
  split
  . exact ⟨rfl, rfl⟩
  . exact ⟨rfl, rfl⟩
  . exact ⟨rfl, rfl⟩

variable {mpegCrc32 : List UInt8 → Nat} {ok : AvPacket → Prop} {m m' : MpegtsMux} {t : TablePair}
variable {frame : MediaPacket}

/--
The tables of a muxer that announces the same kinds.
-/
def TablePair.WrittenFor (mpegCrc32 : List UInt8 → Nat) (t : TablePair) (m : MpegtsMux) : Prop :=
  ∃ m₀ : MpegtsMux, (m₀.hasVideo = m.hasVideo ∧ m₀.hasAudio = m.hasAudio)
    ∧ t.pat = m₀.generatePat mpegCrc32 ∧ t.pmt = m₀.generatePmt mpegCrc32

theorem TablePair.WrittenFor.written (h : t.WrittenFor mpegCrc32 m) : t.Written mpegCrc32 := by
  obtain ⟨m₀, _, htables⟩ := h
  exact ⟨m₀, htables⟩

theorem TablePair.WrittenFor.of_flags (h : t.WrittenFor mpegCrc32 m)
    (hflags : m'.hasVideo = m.hasVideo ∧ m'.hasAudio = m.hasAudio)
    : t.WrittenFor mpegCrc32 m' := by
  obtain ⟨m₀, ⟨hvideo, haudio⟩, htables⟩ := h
  exact ⟨m₀, ⟨hvideo.trans hflags.left.symm, haudio.trans hflags.right.symm⟩, htables⟩

theorem TablePair.WrittenFor.announces (h : t.WrittenFor mpegCrc32 m) (hlists : t.Lists frame) : Announces m frame := by
  obtain ⟨m₀, ⟨hvideo, haudio⟩, _, hpmt⟩ := h
  obtain ⟨infos, hdecode, hinfos⟩ := decodeUnit_generatePmt mpegCrc32 m₀
  obtain ⟨_, infos', hdecode', hmem⟩ := hlists
  rw [hpmt, hdecode] at hdecode'
  cases hdecode'
  rw [hinfos] at hmem
  unfold Announces
  rw [← hvideo, ← haudio]
  unfold MpegtsMux.streams pes at hmem
  by_cases hkind : frame.avType = .video
  . cases hhas : m₀.hasVideo <;> cases hhas' : m₀.hasAudio <;> simp_all [videoPid, audioPid]
  . cases hhas : m₀.hasVideo <;> cases hhas' : m₀.hasAudio <;> simp_all [videoPid, audioPid]

/--
A frame that has been written, by what the muxer has kept of it since.
-/
def HasCodec (ok : AvPacket → Prop) (m : MpegtsMux) (frame : MediaPacket) : Prop :=
  ∃ pkt, ok pkt ∧ FrameOf pkt frame ∧ m.setCodec pkt = m

theorem HasCodec.lists (h : HasCodec ok m frame) (hannounces : Announces m frame) (dts : Int)
    : TablePair.Lists ⟨dts, m.generatePat mpegCrc32, m.generatePmt mpegCrc32⟩ frame := by
  obtain ⟨pkt, _, hframe, hset⟩ := h
  obtain ⟨hvideo, haudio⟩ := setCodec_eq_iff.mp hset
  have htracks : Tracks mpegCrc32 { lastPatpmtTs := dts } m
      (some ⟨dts, m.generatePat mpegCrc32, m.generatePmt mpegCrc32⟩) := by
    refine ⟨fun hnone => absurd hnone (Option.some_ne_none _), ?_, ?_, ?_⟩
    . rintro _ ⟨⟩
      rfl
    . rintro _ ⟨⟩
      rfl
    . rintro _ ⟨⟩
      rfl
  apply htracks.lists ?_ hframe
  unfold Announces at hannounces
  rw [hframe.right.left] at hannounces
  refine fun _ => ⟨fun hpkt => ?_, fun hpkt => ?_⟩
  . rw [if_pos hpkt] at hannounces
    exact ⟨hannounces, congrArg videoStreamType (hvideo hpkt)⟩
  . rw [if_neg (by rw [hpkt]; decide)] at hannounces
    exact ⟨hannounces, congrArg audioStreamType (haudio hpkt)⟩

theorem HasCodec.setCodec (h : HasCodec ok m frame)
    (hcodec : ∀ p q, ok p → ok q → p.avType = q.avType → p.codecType = q.codecType) {other : AvPacket} (hother : ok other)
    : HasCodec ok (m.setCodec other) frame := by
  obtain ⟨pkt, hok, hframe, hset⟩ := h
  exact ⟨pkt, hok, hframe, setCodec_keeps hset (hcodec pkt other hok hother)⟩

/--
With one codec for each kind, what is handed on for a frame does not depend on when it is handed on.
-/
theorem Traces.deliveries_eq {log : List MuxEvent} (h : Traces mpegCrc32 ok m log m')
    (hcodec : ∀ p q, ok p → ok q → p.avType = q.avType → p.codecType = q.codecType) {latest : Option TablePair}
    {held : Option MediaPacket} (hlatest : ∀ t ∈ latest, t.WrittenFor mpegCrc32 m) (hlog : Listed latest log)
    (hheld : ∀ frame ∈ held, HasCodec ok m frame ∧ (Known frame ∧ Passes frame) ∧ ∃ t ∈ latest, t.Lists frame)
    (hframes : ∀ frame ∈ frames log, Known frame ∧ Passes frame)
    : deliveries latest held log = (held.toList ++ frames log).dropLast.map readPackets := by
  induction h generalizing latest held with
  | nil =>
    cases held with
    | none => rfl
    | some frame => rfl
  | @wait m _ _ pkt hok _ ih =>
    refine ih (fun t ht => (hlatest t ht).of_flags (setCodec_flags m pkt)) hlog ?_ hframes
    intro frame hframe
    obtain ⟨hkept, hrest⟩ := hheld frame hframe
    exact ⟨hkept.setCodec hcodec hok, hrest⟩
  | @tables m _ _ dts _ ih =>
    apply ih ?_ hlog ?_ hframes
    . rintro _ ⟨⟩
      exact ⟨m, ⟨rfl, rfl⟩, rfl, rfl⟩
    . intro frame hframe
      obtain ⟨hkept, hgood, t, ht, hlists⟩ := hheld frame hframe
      obtain ⟨pkt, hok, hframeOf, hset⟩ := hkept
      obtain ⟨hvideo, haudio⟩ := setCodec_eq_iff.mp hset
      refine ⟨⟨pkt, hok, hframeOf, setCodec_eq_iff.mpr ⟨hvideo, haudio⟩⟩, hgood, _, rfl, ?_⟩
      exact HasCodec.lists ⟨pkt, hok, hframeOf, hset⟩ ((hlatest t ht).announces hlists) dts
  | @handle m _ _ _ pkt hok _ ih =>
    refine ih (fun t ht => (hlatest t ht).of_flags (setCodec_flags m pkt)) hlog ?_ hframes
    intro frame hframe
    obtain ⟨hkept, hrest⟩ := hheld frame hframe
    exact ⟨hkept.setCodec hcodec hok, hrest⟩
  | @pes m next _ log pkt frame u ps hok hset hframe hwrite _ ih =>
    obtain ⟨⟨t, ht, hlists⟩, hlog⟩ := hlog
    obtain ⟨hfirst, hframes⟩ := List.forall_mem_cons.mp hframes
    have hmux := writePes_eq hwrite
    have hnext : next.setCodec pkt = next := by
      rw [hmux]
      exact setCodec_of_counters hset _ _
    have hrest := @ih latest (some frame) (fun t ht => (hlatest t ht).of_flags (by rw [hmux]; exact ⟨rfl, rfl⟩)) hlog
      (by
        rintro _ ⟨⟩
        exact ⟨⟨pkt, hok, hframe, hnext⟩, hfirst, t, ht, hlists⟩) hframes
    rw [Option.mem_def] at ht
    subst ht
    have hsplit : frames (.pes frame (ps.map (·.bytes)) :: log) = frame :: frames log := rfl
    rw [deliveries, hrest, hsplit, List.dropLast_append_of_ne_nil (List.cons_ne_nil _ _), List.map_append]
    congr 1
    apply List.map_congr_left
    intro f hf
    obtain ⟨_, ⟨hknown, hpasses⟩, t', ht', hlists'⟩ := hheld f (Option.mem_toList.mp hf)
    rw [Option.mem_def, Option.some.injEq] at ht'
    subst ht'
    exact delivery_assembledOf (hlatest t rfl).written hlists' hknown hpasses

end Delivery

section Run

open MpegtsMuxState

variable (hasVideo hasAudio : Bool) (mpegCrc32 : List UInt8 → Nat)

/--
A reader of a run that puts each PES behind tables that list it.
-/
theorem exists_decodeAll {pkts : List (Unwritten × AvPacket)} {written : List MediaPacket} {c : CodecState}
    (hhandles : Handles {} (inputs pkts) written c)
    (hlisted : ∀ log m, ({ hasVideo, hasAudio } : MpegtsMuxState).inputPacketsLog mpegCrc32 pkts = some (log, m) →
      Listed none log)
    (hcodec : ∀ p q, p ∈ inputs pkts → q ∈ inputs pkts → p.avType = q.avType → p.codecType = q.codecType)
    (hframes : ∀ frame ∈ written, Known frame ∧ Passes frame)
    : ∃ out m, ({ hasVideo, hasAudio } : MpegtsMuxState).inputPackets mpegCrc32 pkts = some (out, m)
        ∧ (m.ready → ∀ buffers : List (List UInt8), buffers.flatten = out.flatten →
          (∀ buffer ∈ buffers, buffer ≠ [] ∧ unitSize ∣ buffer.length) →
          ∃ d, ({} : MpegtsDemux).decodeAll buffers = some (d, written.dropLast.map readPackets)
            ∧ d.held = written.getLast?.map assembledOf) := by
  obtain ⟨log, m, hlog, waiting, hwaiting, hwritten⟩ :=
    exists_inputPacketsLog mpegCrc32 (m := { hasVideo, hasAudio }) hhandles
  refine ⟨log.flatMap MuxEvent.output, m, ?_, ?_⟩
  . rw [inputPackets_eq, hlog]
    rfl
  . intro hready buffers hflatten hbuffers
    -- nothing waits any more
    obtain ⟨_, hempty⟩ := inputPacketsLog_handled mpegCrc32 (m := { hasVideo, hasAudio }) (fun _ => rfl) hlog
    have hnone : waiting = [] := by
      rw [hempty hready] at hwaiting
      cases hwaiting
      rfl
    rw [hnone, List.append_nil] at hwritten
    subst hwritten
    have htraces := inputPacketsLog_traces (m := { hasVideo, hasAudio })
      (fun other hother => absurd hother List.not_mem_nil) (fun pkt hpkt => hpkt) hlog
    obtain ⟨d, hfeeds, hkeeps⟩ := @KeepsUp.log mpegCrc32 none none {} log keepsUp_init (hlisted log m hlog)
      htraces.written fun frame hframe => (hframes frame hframe).right
    have hheld {α : Type} {p : α → Prop} : ∀ a ∈ (none : Option α), p a := fun a ha => absurd ha (Option.not_mem_none a)
    have hdeliveries : deliveries none none log = (frames log).dropLast.map readPackets :=
      htraces.deliveries_eq hcodec hheld (hlisted log m hlog) hheld hframes
    rw [hdeliveries] at hfeeds
    exact ⟨d, hfeeds.decodeAll hflatten hbuffers, hkeeps.held_eq⟩

def sampleKeyFrame : AvPacket where
  avType := .video
  codecType := .h264
  dts := 40
  pts := 80
  data := [0, 0, 0, 1, 0x65, 0x88]

def sampleAac : AvPacket where
  avType := .audio
  codecType := .aac
  dts := 20
  pts := 20
  data := [0x21]

/--
A frame and the configuration of its sound, which wait, and sound that does not.
-/
def sampleMedia : List (Unwritten × AvPacket) :=
  [sampleKeyFrame, { sampleAac with isSeqHdr := true, hasFlvAudioAsc := true }, sampleAac].map
    (⟨fun _ => 0, fun _ => 0⟩, ·)

def sampleVideo : MediaPacket :=
  { sampleKeyFrame.toMediaPacket with data := h264AudData ++ sampleKeyFrame.data }

def sampleSound : MediaPacket :=
  { sampleAac.toMediaPacket with data := makeAdts 2 44100 2 1 ++ sampleAac.data }

theorem handle_sampleKeyFrame (u : Unwritten)
    : CodecState.handle u {} sampleKeyFrame = some ([sampleVideo], { isAnnexb := true, keyframeReady := true }) := by
  have hread : readData u sampleKeyFrame.data 0 4 = H264.startCode := rfl
  unfold CodecState.handle CodecState.handleVideo CodecState.handleH264
  simp only [hread]
  rfl

theorem sampleMedia_handles : ∃ c, Handles {} (inputs sampleMedia) [sampleVideo, sampleSound] c := by
  have hinputs : inputs sampleMedia = sampleMedia.map (·.2) := by decide
  have hhandles : ∃ c, Handles {} (sampleMedia.map (·.2)) ([sampleVideo] ++ ([] ++ ([sampleSound] ++ []))) c :=
    ⟨_, .cons handle_sampleKeyFrame (.cons (fun _ => rfl) (.cons (fun _ => rfl) (.nil _)))⟩
  rw [hinputs]
  exact hhandles

theorem sampleMedia_allMeet : AllMeet (fun _ => 0) {} {} sampleMedia := by
  refine ⟨fun _ hwaits => absurd (by decide) hwaits, ?_⟩
  rintro _ _ ⟨⟩
  refine ⟨fun _ hwaits => absurd (by decide) hwaits, ?_⟩
  rintro _ _ ⟨⟩
  refine ⟨fun _ _ => ⟨fun _ => by decide, by decide⟩, ?_⟩
  intro _ _ _
  trivial

theorem sampleMedia_ready {out : List (List UInt8)} {m : MpegtsMuxState}
    (h : ({} : MpegtsMuxState).inputPackets (fun _ => 0) sampleMedia = some (out, m))
    : m.ready := by
  unfold sampleMedia at h
  simp only [List.map_cons, List.map_nil, inputPackets, Option.bind_eq_bind, Option.bind_eq_some_iff, Prod.exists] at h
  obtain ⟨_, _, hfirst, _, _, ⟨_, _, hsecond, _, _, ⟨_, _, hthird, _, _, hnil, hres⟩, hres'⟩, hres''⟩ := h
  cases hfirst
  cases hsecond
  cases hnil
  cases hres
  cases hres'
  cases hres''
  exact (inputPacket_ready _ _ (by decide) (by decide) hthird).right.left

example : readPackets sampleVideo
    = (0x100, some [{ readFrame sampleVideo with isKeyFrame := true, data := [0, 0, 0, 1, 0x65, 0x88] }]) := by
  decide

end Run

end MpegTs
