import CppStreamer.Net.Rtmp.ChunkRoundTrip
import CppStreamer.Net.Rtmp.ControlHandler

/-!
This module contains a session that answers control messages while its user writes messages, and the
agreement on the chunk size between the session and its peer in both directions.
-/

namespace Rtmp

open ByteStream Incremental RtmpSessionBase

/--
What a session does: it completes a message, it writes a message, or it announces its chunk size.
-/
inductive SessionEvent where
  | received (m : DecodedMessage)
  | wrote (m : RtmpMessage) (buffers : List (List UInt8))
  | announced (chunkSize : Nat) (buffer : List UInt8)

/--
A caller of `ReadChunkStream` that handles the control messages.
-/
def controlHandler : Handler SessionEvent where
  handle s cs :=
    if isControlMessage cs then
      match s.handleRtmpControlMessage cs with
      | some (s, sent) =>
        (.received cs.decoded :: sent.map (.announced s.getChunkSize), some (s.resetChunkStream cs))
      | none => ([.received cs.decoded], none)
    else
      ([.received cs.decoded], some (s.resetChunkStream cs))
  handle_feed s cs x := by
    split
    . rw [handleRtmpControlMessage_feed]
      rcases s.handleRtmpControlMessage cs with _ | ⟨s', sent⟩
      . rfl
      . rfl
    . rfl
  handle_frame s cs s' h := by
    split at h
    . split at h
      . next t sent hhandle =>
        have hframe := handleRtmpControlMessage_frame hhandle
        simp only [Option.some.injEq] at h
        rw [← h]
        exact ⟨hframe.1, hframe.2.1⟩
      . simp at h
    . simp only [Option.some.injEq] at h
      rw [← h]
      exact ⟨rfl, rfl⟩

/--
Control messages have the message stream id 0.
-/
theorem controlStreamId_lt : 0 < 2 ^ 32 := by decide

/--
The Set Chunk Size message a session announces its chunk size with.
-/
def setChunkSizeMessage (chunkSize : Nat) : RtmpMessage where
  csid := 3
  timestamp := 0
  typeId := rtmpControlSetChunkSize
  msgStreamId := 0
  payload := write4Bytes chunkSize
  two_le_csid := by decide
  csid_lt := by decide
  timestamp_lt := by decide
  msgStreamId_lt := controlStreamId_lt
  length_lt := by simp

theorem sendSetChunksize_eq (s : RtmpSessionBase) (chunkSize size : Nat) (h : 4 ≤ size)
    : s.sendSetChunksize chunkSize = (Chunk.mk (setChunkSizeMessage chunkSize) 0 size).bytes := by
  have hdata : (Chunk.mk (setChunkSizeMessage chunkSize) 0 size).data = write4Bytes chunkSize := by
    rw [Chunk.data, List.drop_zero, List.take_of_length_le]
    . rfl
    . exact h
  rw [← RtmpMessage.genData_chunkAll _ s.getChunkSize, hdata]
  rfl

namespace RtmpMessage

/--
Control messages that the session does not refuse, and that announce chunk sizes of at least 128.
-/
structure ControlWellFormed (m : RtmpMessage) : Prop where
  length : m.typeId = rtmpControlSetChunkSize ∨ m.typeId = rtmpControlWindowAckSize →
    4 ≤ m.payload.length
  chunkSize : m.typeId = rtmpControlSetChunkSize → 128 ≤ read4Bytes m.payload

end RtmpMessage

/--
A Set Chunk Size message applies from the chunk on that follows it.
-/
def announce (size : Nat) (m : RtmpMessage) : Nat :=
  if m.typeId = rtmpControlSetChunkSize then read4Bytes m.payload else size

/--
What a session does on a message: it completes it, and answers a new chunk size with the same.
-/
def sessionEvents (m : RtmpMessage) : List SessionEvent :=
  .received m.decoded ::
    if m.typeId = rtmpControlSetChunkSize then
      [.announced (read4Bytes m.payload)
        (Chunk.mk (setChunkSizeMessage (read4Bytes m.payload)) 0 chunkDefSize).bytes]
    else
      []

theorem controlHandler_accepts {m : RtmpMessage} (hm : m.ControlWellFormed)
    : controlHandler.Accepts announce sessionEvents m := by
  intro s cs hdecoded
  have htype : cs.typeId = m.typeId := congrArg DecodedMessage.typeId hdecoded
  have hdata : cs.chunkData = m.payload := congrArg DecodedMessage.chunkData hdecoded
  by_cases hset : m.typeId = rtmpControlSetChunkSize
  . have hlen : ¬m.payload.length < 4 := by have := hm.length (.inl hset); omega
    simp only [controlHandler, isControlMessage, handleRtmpControlMessage, htype, hset, hdata,
      if_pos, if_neg hlen, sessionEvents, announce, hdecoded,
      sendSetChunksize_eq _ _ chunkDefSize (by decide)]
    exact ⟨_, rfl, rfl, rfl⟩
  . simp only [controlHandler, handleRtmpControlMessage, htype, hdata, if_neg hset, sessionEvents,
      announce, hdecoded]
    split
    . by_cases hwindow : m.typeId = rtmpControlWindowAckSize
      . have hlen : ¬m.payload.length < 4 := by have := hm.length (.inr hwindow); omega
        simp only [if_pos hwindow, if_neg hlen]
        exact ⟨_, rfl, rfl, rfl⟩
      . simp only [if_neg hwindow]
        exact ⟨_, rfl, rfl, rfl⟩
    . exact ⟨_, rfl, rfl, rfl⟩

/--
What happens to a session: bytes of the peer arrive, or the user writes a message.
-/
inductive SessionOp where
  | read (data : List UInt8)
  | write (m : RtmpMessage)

namespace SessionOp

def read? : SessionOp → Option (List UInt8)
  | read data => some data
  | write _ => none

def write? : SessionOp → Option RtmpMessage
  | read _ => none
  | write m => some m

end SessionOp

namespace SessionEvent

def received? : SessionEvent → Option DecodedMessage
  | received m => some m
  | _ => none

def wrote? : SessionEvent → Option RtmpMessage
  | wrote m _ => some m
  | _ => none

/--
The bytes an event puts on the wire, and the message they are meant to carry.
-/
def bytes : SessionEvent → List UInt8
  | received _ => []
  | wrote _ buffers => buffers.flatten
  | announced _ buffer => buffer

def sent? : SessionEvent → Option DecodedMessage
  | received _ => none
  | wrote m _ => some m.decoded
  | announced chunkSize _ => some (setChunkSizeMessage chunkSize).decoded

end SessionEvent

/--
Run a session, writes are cut with `GetChunkSize`.
-/
def runOps (s : RtmpSessionBase) : List SessionOp → Result RtmpSessionBase SessionEvent
  | [] => ([], some s)
  | .read data :: ops =>
    ((chunkReader controlHandler).drain (s.feed data)).andThen fun s => runOps s ops
  | .write m :: ops =>
    let buffers :=
      writeDataByChunkStream m.csid m.timestamp m.typeId m.msgStreamId s.getChunkSize m.payload
    Result.andThen ([.wrote m buffers], some s) fun s => runOps s ops

theorem runOps_reads (s : RtmpSessionBase) (ops : List SessionOp)
    : (runOps s ops).2 = ((chunkReader controlHandler).run s (ops.filterMap SessionOp.read?)).2
      ∧ (runOps s ops).1.filterMap SessionEvent.received?
        = ((chunkReader controlHandler).run s (ops.filterMap SessionOp.read?)).1.filterMap
            SessionEvent.received? := by
  induction ops generalizing s with
  | nil => simp [runOps, Reader.run]
  | cons op ops ih =>
    cases op with
    | write m =>
      have hreads : (SessionOp.write m :: ops).filterMap SessionOp.read?
          = ops.filterMap SessionOp.read? := rfl
      rw [hreads, runOps]
      exact ih s
    | read data =>
      have hreads : (SessionOp.read data :: ops).filterMap SessionOp.read?
          = data :: ops.filterMap SessionOp.read? := rfl
      rw [hreads, runOps, Reader.run]
      change ((Reader.drain _ (s.feed data)).andThen _).2 = ((Reader.drain _ (s.feed data)).andThen _).2
        ∧ _ = List.filterMap _ ((Reader.drain _ (s.feed data)).andThen _).1
      rcases (chunkReader controlHandler).drain (s.feed data) with ⟨out, _ | s'⟩
      . simp
      . simp [ih s']

/--
Events that a sender with all messages complete could have caused, from one chunk size to another.
-/
def Emits (size : Nat) (events : List SessionEvent) (size' : Nat) : Prop :=
  ∃ chunks : List Chunk,
    Interleave.Run (Sender.Step announce) (Sender.start size) chunks (Sender.start size')
      ∧ (∀ c ∈ chunks, c.msg.ControlWellFormed)
      ∧ chunks.flatMap Chunk.bytes = events.flatMap SessionEvent.bytes
      ∧ ((chunks.filter Chunk.last).map fun c => c.msg.decoded)
        = events.filterMap SessionEvent.sent?

theorem Emits.nil (size : Nat) : Emits size [] size := ⟨[], .nil _, by simp, rfl, rfl⟩

theorem Emits.append {size size' size'' : Nat} {events events' : List SessionEvent}
    (h : Emits size events size') (h' : Emits size' events' size'')
    : Emits size (events ++ events') size'' := by
  rcases h with ⟨chunks, hrun, hcontrol, hbytes, hsent⟩
  rcases h' with ⟨chunks', hrun', hcontrol', hbytes', hsent'⟩
  refine ⟨chunks ++ chunks', hrun.append hrun', ?_, ?_, ?_⟩
  . intro c hc
    rcases List.mem_append.mp hc with hc | hc
    . exact hcontrol c hc
    . exact hcontrol' c hc
  . rw [List.flatMap_append, List.flatMap_append, hbytes, hbytes']
  . rw [List.filter_append, List.map_append, List.filterMap_append, hsent, hsent']

theorem Emits.received (size : Nat) (m : DecodedMessage) : Emits size [.received m] size :=
  ⟨[], .nil _, by simp, rfl, rfl⟩

theorem Emits.wrote {m : RtmpMessage} {size : Nat} (hpos : 0 < size) (hne : m.payload ≠ [])
    (hset : m.typeId ≠ rtmpControlSetChunkSize) (hm : m.ControlWellFormed)
    : Emits size
        [.wrote m (writeDataByChunkStream m.csid m.timestamp m.typeId m.msgStreamId size m.payload)]
        size := by
  have hmsg : ∀ w ∈ m.written size, w.msg = m := by
    intro w hw
    rcases List.mem_map.mp hw with ⟨_, _, rfl⟩
    rfl
  have hlift : Interleave.Run (Interleave.lift (fun w => w.msg.csid) (WireStep size))
      (fun _ => none) (m.written size) (fun _ => none) := by
    apply Interleave.run_lift
    intro csid
    by_cases hcsid : m.csid = csid
    . rw [List.filter_eq_self.mpr fun w hw => by simp [hmsg w hw, hcsid]]
      exact run_written hpos hne
    . rw [List.filter_eq_nil_iff.mpr fun w hw => by simp [hmsg w hw, hcsid]]
      exact .nil none
  rcases sender_run_of_lift announce hlift
    fun w hw => by rw [announce, hmsg w hw, if_neg hset] with ⟨chunks, hchunks, hrun⟩
  have hwire : ∀ c ∈ chunks, c.msg = m := by
    intro c hc
    apply hmsg c.wire
    rw [hchunks]
    exact List.mem_map_of_mem hc
  refine ⟨chunks, hrun, ?_, ?_, ?_⟩
  . intro c hc
    rw [hwire c hc]
    exact hm
  . have hbytes : chunks.map Chunk.bytes = (m.written size).map WireChunk.bytes := by
      rw [hchunks, List.map_map]
      rfl
    rw [List.flatMap_def, hbytes, m.written_map_bytes]
    simp [SessionEvent.bytes]
  . have hlast := congrArg (List.map RtmpMessage.decoded) (RtmpMessage.written_filter_last hpos hne)
    rw [hchunks, List.filter_map, List.map_map, List.map_map] at hlast
    exact hlast

theorem Emits.announced {size chunkSize : Nat} (hsize : 4 ≤ size) (h128 : 128 ≤ chunkSize)
    (hlt : chunkSize < 2 ^ 32)
    : Emits size
        [.announced chunkSize (Chunk.mk (setChunkSizeMessage chunkSize) 0 chunkDefSize).bytes]
        chunkSize := by
  have hread : read4Bytes (write4Bytes chunkSize) = chunkSize := by
    have := read4Bytes_write4Bytes chunkSize []
    rwa [List.append_nil, Nat.mod_eq_of_lt hlt] at this
  let c := Chunk.mk (setChunkSizeMessage chunkSize) 0 size
  have hlast : c.last = true := by simpa [c, Chunk.last, setChunkSizeMessage] using hsize
  have hstep := Sender.step_whole announce (m := setChunkSizeMessage chunkSize) hsize
  have hannounce : announce size (setChunkSizeMessage chunkSize) = chunkSize := hread
  rw [hannounce] at hstep
  refine ⟨[c], .cons hstep (.nil _), ?_, ?_, ?_⟩
  . intro c' hc'
    rw [List.mem_singleton.mp hc']
    exact ⟨fun _ => Nat.le_refl 4, fun _ => by rw [← hread] at h128; exact h128⟩
  . simp only [List.flatMap_cons, List.flatMap_nil, List.append_nil, SessionEvent.bytes]
    rw [← sendSetChunksize_eq {} chunkSize size hsize,
      sendSetChunksize_eq {} chunkSize chunkDefSize (by decide)]
  . simp [hlast, SessionEvent.sent?, c]

/--
The peer has announced no chunk size below 128.
-/
def ChunkSizesOk (events : List SessionEvent) : Prop :=
  ∀ m, .received m ∈ events → m.typeId = rtmpControlSetChunkSize → 128 ≤ read4Bytes m.chunkData

theorem dispatch_emits {s s' : RtmpSessionBase} {events : List SessionEvent}
    (h : dispatch controlHandler s = .next s' events) (hok : ChunkSizesOk events)
    (hsize : 128 ≤ s.chunkSize)
    : Emits s.chunkSize events s'.chunkSize ∧ 128 ≤ s'.chunkSize := by
  have hnone : Emits s.chunkSize [] s.chunkSize ∧ 128 ≤ s.chunkSize := ⟨.nil _, hsize⟩
  simp only [dispatch] at h
  split at h
  . simp only [Step.next.injEq] at h
    rw [← h.1, ← h.2]
    exact hnone
  . next cs _ =>
    split at h
    . split at h
      . next events' t hhandle =>
        simp only [Step.next.injEq] at h
        rcases h with ⟨rfl, rfl⟩
        simp only [controlHandler] at hhandle
        split at hhandle
        . split at hhandle
          . next t' sent hcontrol =>
            simp only [Prod.mk.injEq, Option.some.injEq] at hhandle
            rcases hhandle with ⟨rfl, rfl⟩
            rcases handleRtmpControlMessage_cases hcontrol with
              ⟨htype, hchunkSize, rfl⟩ | ⟨_, hchunkSize, rfl⟩
            . have h128 : 128 ≤ t'.chunkSize := by
                rw [hchunkSize]
                exact hok cs.decoded List.mem_cons_self htype
              have hlt : t'.chunkSize < 2 ^ 32 := by
                rw [hchunkSize]
                exact read4Bytes_lt _
              have := (Emits.received s.chunkSize cs.decoded).append
                (Emits.announced (by omega) h128 hlt)
              rw [List.map_singleton, sendSetChunksize_eq _ _ chunkDefSize (by decide)]
              exact ⟨this, h128⟩
            . have : (t'.resetChunkStream cs).chunkSize = s.chunkSize := hchunkSize
              rw [this]
              exact ⟨.received _ _, hsize⟩
          . simp at hhandle
        . simp only [Prod.mk.injEq, Option.some.injEq] at hhandle
          rw [← hhandle.1, ← hhandle.2]
          exact ⟨.received _ _, hsize⟩
      . simp at h
    . simp only [Step.next.injEq] at h
      rw [← h.1, ← h.2]
      exact hnone

theorem drain_emits {s s' : RtmpSessionBase} {events : List SessionEvent}
    (h : (chunkReader controlHandler).drain s = (events, some s')) (hok : ChunkSizesOk events)
    (hsize : 128 ≤ s.chunkSize)
    : Emits s.chunkSize events s'.chunkSize ∧ 128 ≤ s'.chunkSize := by
  induction hn : (chunkReader controlHandler).rank s using Nat.strongRecOn generalizing s events with
  | ind n ih =>
    have hframe := (readChunkStream_frame s).1
    cases hstep : (chunkReader controlHandler).step s with
    | stall t =>
      rw [Reader.drain_stall _ hstep, Prod.mk.injEq, Option.some.injEq] at h
      rcases h with ⟨rfl, rfl⟩
      rw [(receive_stall_iff controlHandler).mp hstep] at hframe
      rw [hframe]
      exact ⟨.nil _, hsize⟩
    | fail out => simp [Reader.drain_fail _ hstep] at h
    | next t out =>
      rw [Reader.drain_next _ hstep, Result.andThen_some, Prod.mk.injEq] at h
      rcases h with ⟨rfl, hdrain⟩
      have hlt := (chunkReader controlHandler).rank_lt s t out hstep
      have hfirst : Emits s.chunkSize out t.chunkSize ∧ 128 ≤ t.chunkSize := by
        change receive controlHandler s = _ at hstep
        simp only [receive] at hstep
        split at hstep
        . simp at hstep
        . simp at hstep
        . next u hread =>
          rw [hread] at hframe
          simp only at hframe
          rw [← hframe] at hsize ⊢
          exact dispatch_emits hstep
            (fun m hm => hok m (List.mem_append_left _ hm)) hsize
      have := ih _ (by omega) (Prod.ext rfl hdrain)
        (fun m hm => hok m (List.mem_append_right _ hm)) hfirst.2 rfl
      exact ⟨hfirst.1.append this.1, this.2⟩

/--
The user writes complete messages that do not announce chunk sizes.
-/
def WritesOk (ops : List SessionOp) : Prop :=
  ∀ m ∈ ops.filterMap SessionOp.write?,
    m.payload ≠ [] ∧ m.typeId ≠ rtmpControlSetChunkSize ∧ m.ControlWellFormed

theorem drain_wrote (s : RtmpSessionBase)
    : ((chunkReader controlHandler).drain s).1.filterMap SessionEvent.wrote? = [] := by
  rw [List.filterMap_eq_nil_iff]
  apply drain_forall
  intro s cs
  simp only [controlHandler]
  repeat' split
  all_goals simp [SessionEvent.wrote?]

theorem runOps_emits {s s' : RtmpSessionBase} {ops : List SessionOp} {events : List SessionEvent}
    (h : runOps s ops = (events, some s')) (hok : ChunkSizesOk events) (hwrites : WritesOk ops)
    (hsize : 128 ≤ s.chunkSize)
    : Emits s.chunkSize events s'.chunkSize
      ∧ events.filterMap SessionEvent.wrote? = ops.filterMap SessionOp.write? := by
  induction ops generalizing s events with
  | nil =>
    simp only [runOps, Prod.mk.injEq, Option.some.injEq] at h
    rcases h with ⟨rfl, rfl⟩
    exact ⟨.nil _, rfl⟩
  | cons op ops ih =>
    cases op with
    | write m =>
      rw [runOps, Result.andThen_some, Prod.mk.injEq] at h
      rcases h with ⟨rfl, hops⟩
      have hm := hwrites m List.mem_cons_self
      have := ih (Prod.ext rfl hops) (fun m hm => hok m (List.mem_append_right _ hm))
        (fun m hm => hwrites m (List.mem_cons_of_mem _ hm)) hsize
      refine ⟨(Emits.wrote (by omega) hm.1 hm.2.1 hm.2.2).append this.1, ?_⟩
      exact congrArg (m :: ·) this.2
    | read data =>
      rw [runOps] at h
      rcases hdrain : (chunkReader controlHandler).drain (s.feed data) with ⟨out, _ | t⟩
      . simp [hdrain] at h
      . have hwrote := drain_wrote (s.feed data)
        rw [hdrain, Result.andThen_some, Prod.mk.injEq] at h
        rw [hdrain] at hwrote
        rcases h with ⟨rfl, hops⟩
        have hfirst := drain_emits hdrain (fun m hm => hok m (List.mem_append_left _ hm)) hsize
        have := ih (Prod.ext rfl hops) (fun m hm => hok m (List.mem_append_right _ hm)) hwrites
          hfirst.2
        refine ⟨hfirst.1.append this.1, ?_⟩
        rw [List.filterMap_append, hwrote, List.nil_append, this.2]
        rfl

theorem emitted_received (chunks : List Chunk)
    : (emitted sessionEvents chunks).filterMap SessionEvent.received?
      = (chunks.filter Chunk.last).map fun c => c.msg.decoded := by
  have hone (m : RtmpMessage) : (sessionEvents m).filterMap SessionEvent.received? = [m.decoded] := by
    rw [sessionEvents]
    split
    . rfl
    . rfl
  rw [emitted, List.filterMap_flatMap, List.map_eq_flatMap]
  simp only [hone]

theorem run_received {chunks : List Chunk} {σ : Sender} {cuts : List (List UInt8)}
    (hpeer : Interleave.Run (Sender.Step announce) (Sender.start chunkDefSize) chunks σ)
    (hcontrol : ∀ c ∈ chunks, c.msg.ControlWellFormed)
    (hcuts : cuts.flatten = chunks.flatMap Chunk.bytes)
    : ∃ events s, (chunkReader controlHandler).run {} cuts = (events, some s)
      ∧ events.filterMap SessionEvent.received?
        = ((chunks.filter Chunk.last).map fun c => c.msg.decoded)
      ∧ s.recvBuffer = [] ∧ s.fmtReady = false := by
  have hs : ({} : RtmpSessionBase).InStep (Sender.start chunkDefSize) := inStep_start chunkDefSize
  have hadjust : ∀ size, ∀ c ∈ chunks, 0 < size → 0 < announce size c.msg := by
    intro size c hc hsize
    rw [announce]
    split
    . next hset =>
      have := (hcontrol c hc).chunkSize hset
      omega
    . exact hsize
  rcases hs.drains_run hpeer (fun c hc => controlHandler_accepts (hcontrol c hc)) hadjust
    (by decide) with ⟨s, hdrains, hs'⟩
  rw [← hcuts] at hdrains
  exact ⟨_, s, hdrains.run_eq hs.quiet, emitted_received chunks, hs'.recvBuffer, hs'.fmtReady⟩

theorem runOps_append (s : RtmpSessionBase) (ops ops' : List SessionOp)
    : runOps s (ops ++ ops') = (runOps s ops).andThen fun s => runOps s ops' := by
  induction ops generalizing s with
  | nil => simp [runOps]
  | cons op ops ih =>
    cases op with
    | read data => simp only [List.cons_append, runOps, ih, Result.andThen_assoc]
    | write m => simp only [List.cons_append, runOps, ih, Result.andThen_assoc]

/--
Both directions of a connection agree on the chunk size: while the bytes of a peer arrive in arbitrary
pieces and the user writes messages in between, the session completes exactly the messages of the
peer, and a peer that starts with the default chunk size reads what the session sends as exactly the
messages written and the chunk sizes announced.
-/
theorem chunkSize_agreement (ops : List SessionOp) (chunks : List Chunk) (σ : Sender)
    (hpeer : Interleave.Run (Sender.Step announce) (Sender.start chunkDefSize) chunks σ)
    (hcontrol : ∀ c ∈ chunks, c.msg.ControlWellFormed) (hwrites : WritesOk ops)
    (hreads : (ops.filterMap SessionOp.read?).flatten <+: chunks.flatMap Chunk.bytes)
    : ∃ events s, runOps {} ops = (events, some s)
      ∧ ((ops.filterMap SessionOp.read?).flatten = chunks.flatMap Chunk.bytes →
          events.filterMap SessionEvent.received?
            = ((chunks.filter Chunk.last).map fun c => c.msg.decoded)
          ∧ s.recvBuffer = [] ∧ s.fmtReady = false)
      ∧ events.filterMap SessionEvent.wrote? = ops.filterMap SessionOp.write?
      ∧ ∀ cuts, cuts.flatten = events.flatMap SessionEvent.bytes →
          ∃ peerEvents peer, (chunkReader controlHandler).run {} cuts = (peerEvents, some peer)
            ∧ peerEvents.filterMap SessionEvent.received? = events.filterMap SessionEvent.sent?
            ∧ peer.recvBuffer = [] ∧ peer.fmtReady = false := by
  rcases hreads with ⟨rest, hrest⟩
  -- let the peer's remaining bytes arrive behind the run
  have hall : ((ops ++ [SessionOp.read rest]).filterMap SessionOp.read?).flatten
      = chunks.flatMap Chunk.bytes := by
    rw [List.filterMap_append, List.flatten_append, ← hrest]
    simp [SessionOp.read?]
  rcases run_received hpeer hcontrol hall with ⟨_, t, hrun, hreceived, _⟩
  have hops := runOps_reads {} (ops ++ [.read rest])
  rw [hrun, runOps_append] at hops
  rcases hrunOps : runOps {} ops with ⟨events, _ | s⟩
  . simp [hrunOps] at hops
  . rw [hrunOps, Result.andThen_some] at hops
    have hok : ChunkSizesOk events := by
      intro m hm hset
      have hmem : m ∈ (chunks.filter Chunk.last).map fun c => c.msg.decoded := by
        rw [← hreceived, ← hops.2]
        exact List.mem_filterMap.mpr ⟨_, List.mem_append_left _ hm, rfl⟩
      rcases List.mem_map.mp hmem with ⟨c, hc, rfl⟩
      exact (hcontrol c (List.mem_of_mem_filter hc)).chunkSize hset
    have hemits := runOps_emits hrunOps hok hwrites (by decide)
    refine ⟨events, s, rfl, ?_, hemits.2, ?_⟩
    . intro hdone
      rcases run_received hpeer hcontrol hdone with ⟨_, s', hrun', hreceived', hbuffer⟩
      have hreads' := runOps_reads {} ops
      rw [hrunOps, hrun', Option.some.injEq] at hreads'
      rw [hreads'.2, hreads'.1]
      exact ⟨hreceived', hbuffer⟩
    . intro cuts hcuts
      rcases hemits.1 with ⟨sent, hsent, hsentControl, hbytes, hmsgs⟩
      rcases run_received hsent hsentControl (hcuts.trans hbytes.symm) with
        ⟨peerEvents, peer, hpeerRun, hpeerReceived, hpeerBuffer⟩
      exact ⟨peerEvents, peer, hpeerRun, hpeerReceived.trans hmsgs, hpeerBuffer⟩

theorem chunkSize_agreement_sample
    : ∃ events s,
      runOps {} [.write sampleAudio, .read [3, 0, 0, 0, 0, 0, 4, 1, 0, 0],
          .read [0, 0, 0, 0, 1, 0, 6, 0, 0, 2, 0, 0, 1, 9, 0, 0, 0, 1, 9], .write sampleVideo]
        = (events, some s)
      ∧ events.filterMap SessionEvent.received?
        = [(setChunkSizeMessage 256).decoded, sampleVideo.decoded] := by
  have hpeer : Interleave.Run (Sender.Step announce) (Sender.start chunkDefSize)
      [⟨setChunkSizeMessage 256, 0, 128⟩, ⟨sampleVideo, 0, 256⟩] (Sender.start 256) :=
    .cons (Sender.step_whole announce (by decide)) (.cons (Sender.step_whole announce (by decide)) (.nil _))
  have hcontrol : ∀ c ∈ [Chunk.mk (setChunkSizeMessage 256) 0 128, ⟨sampleVideo, 0, 256⟩],
      c.msg.ControlWellFormed := by
    simp only [List.forall_mem_cons, List.not_mem_nil, false_imp_iff, implies_true, and_true]
    exact ⟨⟨by decide, by decide⟩, ⟨by decide, by decide⟩⟩
  have hwrites : WritesOk [.write sampleAudio, .read [3, 0, 0, 0, 0, 0, 4, 1, 0, 0],
      .read [0, 0, 0, 0, 1, 0, 6, 0, 0, 2, 0, 0, 1, 9, 0, 0, 0, 1, 9], .write sampleVideo] := by
    change ∀ m ∈ [sampleAudio, sampleVideo], _
    simp only [List.forall_mem_cons, List.not_mem_nil, false_imp_iff, implies_true, and_true]
    exact ⟨⟨by decide, by decide, by decide, by decide⟩, by decide, by decide, by decide, by decide⟩
  rcases chunkSize_agreement [.write sampleAudio, .read [3, 0, 0, 0, 0, 0, 4, 1, 0, 0],
      .read [0, 0, 0, 0, 1, 0, 6, 0, 0, 2, 0, 0, 1, 9, 0, 0, 0, 1, 9], .write sampleVideo]
    _ _ hpeer hcontrol hwrites (by decide) with ⟨events, s, hrun, hreceived, _⟩
  exact ⟨events, s, hrun, (hreceived (by decide)).1⟩

end Rtmp
