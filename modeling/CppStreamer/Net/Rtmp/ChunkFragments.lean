import CppStreamer.Net.Rtmp.ChunkRoundTrip

/-!
This module contains the reading of arbitrary bytes that arrive in pieces, and where the pieces may
end such that they do not matter.
-/

namespace Rtmp

open ByteStream Incremental

namespace ChunkStream

theorem readMsgByFormat_csid {cs cs' : ChunkStream} {fmt csid : Nat} {buffer rest : List UInt8}
    (h : cs.readMsgByFormat fmt csid buffer = (.ok, cs', rest))
    : cs'.csid = csid ∧ rest <:+ buffer := by
  have hformat (headerLen : Nat) (assign : ChunkStream → Nat → List UInt8 → ChunkStream)
      (hassign : ∀ cs ts header, (assign cs ts header).csid = cs.csid)
      (h : cs.readMsgFormat fmt csid buffer headerLen assign = (.ok, cs', rest))
      : cs'.csid = csid ∧ rest <:+ buffer := by
    simp only [readMsgFormat] at h
    repeat' split at h
    all_goals cases h
    all_goals exact ⟨hassign _ _ _, List.drop_suffix _ _⟩
  rcases fmt with _ | _ | _ | _ | n
  . exact hformat format0HeaderLen assignFormat0 (fun _ _ _ => rfl) h
  . exact hformat format1HeaderLen assignFormat1 (fun _ _ _ => rfl) h
  . exact hformat format2HeaderLen assignFormat2 (fun _ _ _ => rfl) h
  . simp only [readMsgByFormat, readMsgFormat3] at h
    repeat' split at h
    all_goals cases h
    all_goals first | exact ⟨rfl, List.drop_suffix _ _⟩ | exact ⟨rfl, List.suffix_refl _⟩
  . cases h

theorem readChunk_short {cs : ChunkStream} {csid : Nat} {buffer : List UInt8}
    (hphase : cs.phase = .header) (hlen : buffer.length < format0HeaderLen)
    : cs.readChunk 0 csid buffer = (.needReadMore, cs, buffer) := by
  unfold readChunk readMessageHeader
  rw [hphase]
  simp only [readMsgByFormat, readMsgFormat0, readMsgFormat, if_pos hlen]

theorem readChunk_phase {cs cs' : ChunkStream} {fmt csid : Nat} {buffer rest : List UInt8}
    (h : cs.readChunk fmt csid buffer = (.ok, cs', rest)) : cs'.phase = .header := by
  unfold readChunk at h
  split at h
  . next t buffer' hread =>
    have hphase := readMessageHeader_phase hread
    unfold readMessagePayload at h
    rw [hphase] at h
    simp only at h
    split at h
    . cases h
    . cases h
      rfl
  . next hne => exact absurd h (hne _ _)

theorem readChunk_csid {cs cs' : ChunkStream} {fmt csid : Nat} {buffer rest : List UInt8}
    (hphase : cs.phase = .header) (h : cs.readChunk fmt csid buffer = (.ok, cs', rest))
    : cs'.csid = csid ∧ rest <:+ buffer := by
  unfold readChunk readMessageHeader at h
  rw [hphase] at h
  simp only at h
  rcases hread : cs.readMsgByFormat fmt csid buffer with ⟨ret, t, buffer'⟩
  rw [hread] at h
  cases ret with
  | ok =>
    have hcsid := readMsgByFormat_csid hread
    simp only [readMessagePayload] at h
    split at h
    . cases h
    . cases h
      exact ⟨hcsid.1, (List.drop_suffix _ _).trans hcsid.2⟩
  | needReadMore => cases h
  | error => cases h

theorem readChunk_zeros {cs : ChunkStream} (csid : Nat) (hphase : cs.phase = .header)
    : ∃ cs', cs.readChunk 0 csid (List.replicate 12 0) = (.ok, cs', [0]) ∧ cs'.csid = csid
      ∧ cs'.chunkReady = true := by
  have hread : cs.readMsgFormat0 0 csid (List.replicate 11 0 ++ [0]) = _ :=
    readMsgFormat_eq_of_lt [0] (List.length_replicate) (by decide) (by decide)
  have hbuffer : List.replicate 12 (0 : UInt8) = List.replicate 11 0 ++ [0] := rfl
  unfold readChunk readMessageHeader
  rw [hphase, hbuffer]
  simp only [readMsgByFormat, hread]
  exact ⟨_, rfl, rfl, Bool.or_true _⟩

end ChunkStream

namespace RtmpSessionBase

/--
Only the chunk stream of the chunk being read is between a header and a payload.
-/
def Settled (s : RtmpSessionBase) : Prop :=
  ∀ k cs, s.csMap k = some cs → cs.phase = .header ∨ s.fmtReady = true ∧ k = s.csKey

theorem Settled.csMap {s : RtmpSessionBase} (h : s.Settled) (hready : s.fmtReady = false) {k : UInt8}
    {cs : ChunkStream} (hsome : s.csMap k = some cs) : cs.phase = .header := by
  rcases h k cs hsome with hphase | ⟨hready', _⟩
  . exact hphase
  . rw [hready] at hready'
    cases hready'

theorem Settled.currentChunkStream {s t : RtmpSessionBase} (h : s.Settled)
    (hready : s.fmtReady = false) (hmap : t.csMap = s.csMap) : t.currentChunkStream.phase = .header := by
  unfold RtmpSessionBase.currentChunkStream csPtr
  rw [hmap]
  split
  . rfl
  . next cs hsome =>
    change cs.phase = .header
    exact h.csMap hready hsome

theorem readMessage_settled {s s' : RtmpSessionBase} {ret : Ret}
    (hother : ∀ k cs, s.csMap k = some cs → k ≠ s.csKey → cs.phase = .header)
    (hready : s.fmtReady = true) (h : s.readMessage = (ret, s')) : s'.Settled := by
  rcases hread : s.currentChunkStream.readChunk s.fmt s.csid s.recvBuffer with ⟨ret', cs, buffer⟩
  rw [readMessage_eq hread, Prod.mk.injEq] at h
  rcases h with ⟨rfl, rfl⟩
  intro k c hsome
  by_cases hk : k = s.csKey
  . by_cases hret : ret' = .ok
    . left
      rw [hk] at hsome
      simp only [putChunkStream, Function.update_self, Option.some.injEq] at hsome
      rw [hret] at hread
      rw [← hsome]
      exact ChunkStream.readChunk_phase hread
    . right
      rw [if_neg hret]
      exact ⟨hready, hk⟩
  . left
    simp only [putChunkStream, Function.update_of_ne hk] at hsome
    exact hother k c hsome hk

theorem readFmtCsid_frame (s : RtmpSessionBase)
    : s.readFmtCsid.2.csMap = s.csMap ∧ s.readFmtCsid.2.fmtReady = s.fmtReady := by
  simp only [readFmtCsid]
  repeat' split
  all_goals exact ⟨rfl, rfl⟩

theorem Settled.readChunkStream {s s' : RtmpSessionBase} {ret : Ret} (h : s.Settled)
    (hread : s.readChunkStream = (ret, s')) : s'.Settled := by
  unfold RtmpSessionBase.readChunkStream at hread
  split at hread
  . next hready =>
    apply readMessage_settled ?_ hready hread
    intro k cs hsome hk
    rcases h k cs hsome with hphase | ⟨_, hk'⟩
    . exact hphase
    . exact absurd hk' hk
  . next hready =>
    have hready := Bool.eq_false_iff.mpr hready
    have hframe := s.readFmtCsid_frame
    split at hread
    . next t hfmt =>
      rw [hfmt] at hframe
      have hmap : t.csMap = s.csMap := hframe.1
      apply readMessage_settled ?_ rfl hread
      intro k cs hsome _
      change t.csMap k = some cs at hsome
      rw [hmap] at hsome
      exact h.csMap hready hsome
    . rw [hread] at hframe
      have hmap : s'.csMap = s.csMap := hframe.1
      intro k cs hsome
      rw [hmap] at hsome
      exact .inl (h.csMap hready hsome)

theorem Settled.resetChunkStream {s : RtmpSessionBase} (h : s.Settled) (cs : ChunkStream)
    : (s.resetChunkStream cs).Settled := by
  intro k c hsome
  by_cases hk : k = s.csKey
  . left
    rw [hk] at hsome
    simp only [RtmpSessionBase.resetChunkStream, putChunkStream, Function.update_self,
      Option.some.injEq] at hsome
    rw [← hsome]
    rfl
  . simp only [RtmpSessionBase.resetChunkStream, putChunkStream, Function.update_of_ne hk] at hsome
    exact h k c hsome

theorem Settled.receive {s s' : RtmpSessionBase} {out : List DecodedMessage} (h : s.Settled)
    (hstep : receive readyHandler s = .next s' out) : s'.Settled := by
  unfold RtmpSessionBase.receive at hstep
  split at hstep
  . cases hstep
  . cases hstep
  . next t hread =>
    have ht := h.readChunkStream hread
    unfold dispatch at hstep
    repeat' split at hstep
    all_goals cases hstep
    . exact ht
    . next hhandle =>
      cases hhandle
      exact ht.resetChunkStream _
    . exact ht

theorem settled_run {chunkSize : Nat} {cuts : List (List UInt8)} {out : List DecodedMessage}
    {s : RtmpSessionBase}
    (h : (chunkReader readyHandler).run (setChunkSize {} chunkSize) cuts = (out, some s))
    : s.Settled := by
  apply (chunkReader readyHandler).run_invariant ?_ ?_ ?_ ?_ h
  . exact fun _ _ hs => hs
  . exact fun _ _ hs hstep => hs.readChunkStream ((receive_stall_iff readyHandler).mp hstep)
  . exact fun _ _ _ hs hstep => hs.receive hstep
  . intro k cs hsome
    cases hsome

theorem drain_zeros {s : RtmpSessionBase} (hs : s.Settled) (hready : s.fmtReady = false) {n : Nat}
    (hn : n ≤ 12) (hbuffer : s.recvBuffer = List.replicate n 0)
    : ((chunkReader readyHandler).drain s).1 = [] := by
  suffices hread : ∃ t, s.readChunkStream = (.needReadMore, t) by
    rcases hread with ⟨t, hread⟩
    rw [(chunkReader readyHandler).drain_stall ((receive_stall_iff readyHandler).mpr hread)]
  unfold readChunkStream
  rw [hready, if_neg Bool.false_ne_true]
  match n with
  | 0 =>
    unfold readFmtCsid
    rw [hbuffer]
    exact ⟨_, rfl⟩
  | 1 =>
    unfold readFmtCsid
    rw [hbuffer]
    exact ⟨_, rfl⟩
  | n + 2 =>
    have hfmt : s.readFmtCsid
        = (.ok, { s with fmt := 0, csid := 64, recvBuffer := List.replicate n 0 }) := by
      unfold readFmtCsid
      rw [hbuffer]
      rfl
    rw [hfmt]
    simp only
    generalize ht : RtmpSessionBase.mk _ _ _ _ _ _ _ _ _ = t
    have hphase : t.currentChunkStream.phase = .header :=
      hs.currentChunkStream hready (by rw [← ht])
    have hshort : t.currentChunkStream.readChunk t.fmt t.csid t.recvBuffer
        = (.needReadMore, t.currentChunkStream, t.recvBuffer) := by
      have hfmt : t.fmt = 0 := by rw [← ht]
      rw [hfmt]
      apply ChunkStream.readChunk_short hphase
      rw [← ht]
      simp only [List.length_replicate]
      unfold format0HeaderLen
      omega
    rw [readMessage_eq hshort]
    exact ⟨_, rfl⟩

theorem dispatch_readyHandler {s : RtmpSessionBase} {cs : ChunkStream} (hptr : s.csPtr = some cs)
    : ∃ t, dispatch readyHandler s = .next t (if cs.isReady then [cs.decoded] else []) := by
  unfold dispatch
  rw [hptr]
  simp only
  split
  . exact ⟨_, rfl⟩
  . exact ⟨_, rfl⟩

theorem receive_of_readChunk {s t : RtmpSessionBase} {cs : ChunkStream} {rest : List UInt8}
    (hstart : s.readChunkStream = t.readMessage)
    (hread : t.currentChunkStream.readChunk t.fmt t.csid t.recvBuffer = (.ok, cs, rest))
    : ∃ u, receive readyHandler s = .next u (if cs.isReady then [cs.decoded] else [])
      ∧ u.recvBuffer = rest ∧ u.fmtReady = false := by
  have hmessage := readMessage_eq hread
  rw [← hstart, if_pos rfl] at hmessage
  generalize hv : RtmpSessionBase.mk _ _ _ _ _ _ _ _ _ = v at hmessage
  have hptr : v.csPtr = some cs := by
    rw [← hv]
    exact csPtr_putChunkStream t cs
  rcases dispatch_readyHandler hptr with ⟨u, hdispatch⟩
  have hframe := dispatch_next readyHandler hdispatch
  refine ⟨u, ?_, ?_, ?_⟩
  . unfold receive
    rw [hmessage]
    exact hdispatch
  . rw [hframe.1, ← hv]
  . rw [hframe.2, ← hv]

/--
An empty message on the chunk stream 5, and one zero more.
-/
def probe : List UInt8 := 5 :: List.replicate 12 0

/--
Behind a byte that begins a longer basic header only a message on another chunk stream can be
completed.
-/
theorem drain_probe_longer {s : RtmpSessionBase} (hs : s.Settled) (hready : s.fmtReady = false)
    {b : UInt8} (hb : b.toNat % 64 ≤ 1) (hbuffer : s.recvBuffer = b :: probe)
    : ∀ d ∈ ((chunkReader readyHandler).drain s).1, d.csid = 69 := by
  have hfmt : ∃ n, n ≤ 12 ∧ s.readFmtCsid
      = (.ok, { s with fmt := b.toNat / 64, csid := 69, recvBuffer := List.replicate n 0 }) := by
    unfold readFmtCsid
    rw [hbuffer]
    have hcases : b.toNat % 64 = 0 ∨ b.toNat % 64 = 1 := by omega
    rcases hcases with h0 | h1
    . refine ⟨12, Nat.le_refl _, ?_⟩
      simp only [h0]
      rfl
    . refine ⟨11, by omega, ?_⟩
      simp only [h1]
      rfl
  rcases hfmt with ⟨n, hn, hfmt⟩
  have hstart : s.readChunkStream = readMessage
      { s with
        fmtReady := true, fmt := b.toNat / 64, csid := 69, recvBuffer := List.replicate n 0 } := by
    unfold readChunkStream
    rw [hready, if_neg Bool.false_ne_true, hfmt]
  generalize ht : RtmpSessionBase.mk _ _ _ _ _ _ _ _ _ = t at hstart
  have hphase : t.currentChunkStream.phase = .header := hs.currentChunkStream hready (by rw [← ht])
  rcases hread : t.currentChunkStream.readChunk t.fmt t.csid t.recvBuffer with ⟨ret, cs, rest⟩
  cases ret with
  | needReadMore =>
    rw [readMessage_eq hread] at hstart
    rw [(chunkReader readyHandler).drain_stall ((receive_stall_iff readyHandler).mpr hstart)]
    exact fun d hd => absurd hd List.not_mem_nil
  | error =>
    have hfail : receive readyHandler s = .fail [] := by
      unfold receive
      rw [hstart, readMessage_eq hread]
    rw [(chunkReader readyHandler).drain_fail hfail]
    exact fun d hd => absurd hd List.not_mem_nil
  | ok =>
    have hcs := ChunkStream.readChunk_csid hphase hread
    have hcsid : cs.csid = 69 := by
      rw [hcs.1, ← ht]
    rcases receive_of_readChunk hstart hread with ⟨u, hstep, hrest, hready'⟩
    -- what is left is too short for another chunk
    have hzeros : ∃ m, m ≤ 12 ∧ u.recvBuffer = List.replicate m 0 := by
      have hbuffer' : t.recvBuffer = List.replicate n 0 := by rw [← ht]
      have hsuffix := hcs.2
      rw [hbuffer', List.suffix_replicate_iff] at hsuffix
      refine ⟨rest.length, Nat.le_trans hsuffix.1 hn, ?_⟩
      rw [hrest]
      exact hsuffix.2
    rcases hzeros with ⟨m, hm, hzeros⟩
    rw [(chunkReader readyHandler).drain_next hstep, Result.andThen_some,
      drain_zeros (hs.receive hstep) hready' hm hzeros, List.append_nil]
    intro d hd
    split at hd
    . rw [List.mem_singleton.mp hd]
      exact hcsid
    . exact absurd hd List.not_mem_nil

/--
When the first byte of the header is read alone, the message on the chunk stream 5 is completed.
-/
theorem drain_probe {s : RtmpSessionBase} (hs : s.Settled) (hready : s.fmtReady = false)
    (hbuffer : s.recvBuffer = probe)
    : ∃ d out, ((chunkReader readyHandler).drain s).1 = d :: out ∧ d.csid = 5 := by
  have hfmt : s.readFmtCsid
      = (.ok, { s with fmt := 0, csid := 5, recvBuffer := List.replicate 12 0 }) := by
    unfold readFmtCsid
    rw [hbuffer]
    rfl
  have hstart : s.readChunkStream = readMessage
      { s with fmtReady := true, fmt := 0, csid := 5, recvBuffer := List.replicate 12 0 } := by
    unfold readChunkStream
    rw [hready, if_neg Bool.false_ne_true, hfmt]
  generalize ht : RtmpSessionBase.mk _ _ _ _ _ _ _ _ _ = t at hstart
  have hphase : t.currentChunkStream.phase = .header := hs.currentChunkStream hready (by rw [← ht])
  have hread : ∃ cs, t.currentChunkStream.readChunk t.fmt t.csid t.recvBuffer = (.ok, cs, [0])
      ∧ cs.csid = 5 ∧ cs.chunkReady = true := by
    have hchunk : t.currentChunkStream.readChunk t.fmt t.csid t.recvBuffer
        = t.currentChunkStream.readChunk 0 5 (List.replicate 12 0) := by rw [← ht]
    rw [hchunk]
    exact ChunkStream.readChunk_zeros 5 hphase
  rcases hread with ⟨cs, hread, hcsid, hcsReady⟩
  rcases receive_of_readChunk hstart hread with ⟨u, hstep, _, _⟩
  rw [(chunkReader readyHandler).drain_next hstep, Result.andThen_some, ChunkStream.isReady, hcsReady,
    if_pos rfl]
  exact ⟨cs.decoded, _, rfl, hcsid⟩

/--
The bytes arrive in pieces that do not end inside of a basic header that is read.
-/
def Untorn (chunkSize : Nat) (cuts : List (List UInt8)) : Prop :=
  (chunkReader readyHandler).RunAlong (fun s => ¬ s.Torn) (setChunkSize {} chunkSize) cuts

/--
The first byte of a longer basic header arrives alone, and is lost.
-/
theorem drain_torn {s : RtmpSessionBase} (hready : s.fmtReady = false) (hempty : s.recvBuffer = [])
    {b : UInt8} (hb : b.toNat % 64 ≤ 1)
    : ∃ t, (chunkReader readyHandler).drain (s.feed [b]) = ([], some t) ∧ t.csMap = s.csMap
      ∧ t.fmtReady = false ∧ t.recvBuffer = [] := by
  have hfmt : (s.feed [b]).readFmtCsid = (.needReadMore,
      { s with fmt := b.toNat / 64, csid := b.toNat % 64, recvBuffer := [] }) := by
    unfold readFmtCsid feed
    rw [hempty, List.nil_append]
    have hcases : b.toNat % 64 = 0 ∨ b.toNat % 64 = 1 := by omega
    rcases hcases with h0 | h1
    . simp only [h0]
    . simp only [h1]
  have hread : (s.feed [b]).readChunkStream = (.needReadMore,
      { s with fmt := b.toNat / 64, csid := b.toNat % 64, recvBuffer := [] }) := by
    unfold readChunkStream
    rw [show (s.feed [b]).fmtReady = false from hready, if_neg Bool.false_ne_true, hfmt]
  refine ⟨_, (chunkReader readyHandler).drain_stall ((receive_stall_iff readyHandler).mpr hread),
    rfl, hready, rfl⟩

/--
Where the pieces end does not matter as long as no basic header is torn. Between any two chunks a
longer basic header can follow that is not the same when it is torn behind its first byte.
-/
theorem run_untorn (chunkSize : Nat)
    : (∀ cuts cuts', Untorn chunkSize cuts → Untorn chunkSize cuts' → cuts.flatten = cuts'.flatten →
        (chunkReader readyHandler).run (setChunkSize {} chunkSize) cuts
          = (chunkReader readyHandler).run (setChunkSize {} chunkSize) cuts')
      ∧ ∀ cuts out s (b : UInt8),
        (chunkReader readyHandler).run (setChunkSize {} chunkSize) cuts = (out, some s) →
        s.fmtReady = false → s.recvBuffer = [] → b.toNat % 64 ≤ 1 →
        ∃ rest, ((chunkReader readyHandler).run (setChunkSize {} chunkSize) (cuts ++ [[b], rest])).1
          ≠ ((chunkReader readyHandler).run (setChunkSize {} chunkSize) (cuts ++ [b :: rest])).1 := by
  constructor
  . intro cuts cuts' h h' hflatten
    have hquiet : (chunkReader readyHandler).Quiet (setChunkSize {} chunkSize) :=
      quiet_of_empty rfl rfl
    have hlawful (s : RtmpSessionBase) (hs : ¬ s.Torn) := lawful_of_not_torn readyHandler hs
    rw [Reader.run_eq_drain_of_along _ _ _ hquiet (h.mono hlawful),
      Reader.run_eq_drain_of_along _ _ _ hquiet (h'.mono hlawful), hflatten]
  . intro cuts out s b hrun hready hempty hb
    have hs := settled_run hrun
    refine ⟨probe, ?_⟩
    rw [Reader.run_append, Reader.run_append, hrun, Result.andThen_some, Result.andThen_some,
      Reader.run_singleton, Reader.run]
    rcases drain_torn hready hempty hb with ⟨t, hdrain, hmap, hready', hempty'⟩
    have ht : (t.feed probe).Settled := by
      intro k cs hsome
      change t.csMap k = some cs at hsome
      rw [hmap] at hsome
      exact .inl (hs.csMap hready hsome)
    have hprobe : (t.feed probe).recvBuffer = probe := by
      unfold feed
      rw [hempty', List.nil_append]
    have hlonger : (s.feed (b :: probe)).recvBuffer = b :: probe := by
      unfold feed
      rw [hempty, List.nil_append]
    rcases drain_probe ht hready' hprobe with ⟨d, more, hd, hcsid⟩
    have hother := drain_probe_longer (s := s.feed (b :: probe)) hs hready hb hlonger
    have hfirst : (chunkReader readyHandler).drain ((chunkReader readyHandler).feed s [b])
        = ([], some t) := hdrain
    have hsecond : ((chunkReader readyHandler).drain ((chunkReader readyHandler).feed t probe)).1
        = d :: more := hd
    rw [hfirst, Result.andThen_some, Reader.run_singleton, hsecond]
    intro heq
    have hmem := List.append_cancel_left heq
    have h69 := hother d (by
      change d ∈ ((chunkReader readyHandler).drain ((chunkReader readyHandler).feed s (b :: probe))).1
      rw [← hmem]
      exact List.mem_cons_self)
    rw [hcsid] at h69
    cases h69

/--
An empty message on the chunk stream 64, of which the first byte arrives alone.
-/
theorem not_run_untorn : ¬ ∀ cuts cuts', cuts.flatten = cuts'.flatten →
    ((chunkReader readyHandler).run (setChunkSize {} chunkDefSize) cuts).1
      = ((chunkReader readyHandler).run (setChunkSize {} chunkDefSize) cuts').1 := by
  intro h
  exact absurd (h [[0], List.replicate 12 0] [List.replicate 13 0] rfl) (by decide)

end RtmpSessionBase

end Rtmp
