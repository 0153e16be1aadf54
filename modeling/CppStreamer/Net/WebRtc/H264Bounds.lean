import CppStreamer.Basic.Checked
import CppStreamer.Net.RtpRtcp.RtpBuffer
import CppStreamer.Net.WebRtc.H264RoundTrip

/-!
This module contains what the depacketizer of H.264 reads of a payload, the lengths it hands on and the use of
its queue, and when all of these are right.
-/

open ByteStream RtpH264Pack

/--
Bytes that are read of a payload, a length of type `size_t` that is handed to `AppendData` with what is left there,
or a use of the first packet of the queue.
-/
inductive PackCheck where
  | read (offset len size : Nat)
  | append (len : Nat) (left : Int)
  | front (queueLen : Nat)
  deriving DecidableEq, Repr

def PackCheck.Holds : PackCheck → Prop
  | .read offset len size => offset + len ≤ size
  | .append len left => (len : Int) = left
  | .front queueLen => 0 < queueLen

/--
The difference of two numbers of type `size_t`.
-/
def sizeSub (a b : Nat) : Nat := if b ≤ a then a - b else 2 ^ 64 - (b - a)

theorem sizeSub_of_le {a b : Nat} (h : b ≤ a) : sizeSub a b = a - b := if_pos h

namespace PackHandleH264

section StapA

variable (data : List UInt8)

/--
The loop of `ParseStapAOffsets`, where `p` is the position behind the last NALU.
-/
def readStapAOffsets (p offset leftLen : Nat) : Checked PackCheck (Option (List Nat)) :=
  if leftLen = 0 then pure (some [])
  else if leftLen < 2 then pure none
  else do
    Checked.check (.read p 2 data.length)
    let naluLen := read2Bytes (data.drop p)
    if leftLen - 2 < naluLen then pure none
    else do
      let offsets ← readStapAOffsets (p + 2 + naluLen) (offset + 2 + naluLen) (leftLen - 2 - naluLen)
      pure (offsets.map fun offsets => (offset + 2) :: offsets)
termination_by leftLen

def parseStapAOffsetsChecked : Checked PackCheck (Option (List Nat)) :=
  readStapAOffsets data 1 1 (sizeSub data.length 1)

/--
The loop over the offsets again, with what it reads.
-/
def readStapALoop (dts : Int) : List Nat → Checked PackCheck (List PackEvent × Bool)
  | startOffset :: nextOffset :: offsets => do
    let endOffset := sizeSub nextOffset 2
    let size := sizeSub endOffset startOffset
    if size < 1 then pure ([], false)
    else do
      Checked.check (.append size ((nextOffset : Int) - 2 - startOffset))
      Checked.check (.read startOffset size data.length)
      Checked.check (.read startOffset 1 data.length)
      let (events, ret) ← readStapALoop dts (nextOffset :: offsets)
      pure (.mediaPacketOutput (h264Packet ((data.drop startOffset).take size) dts) :: events, ret)
  | _ => pure ([], true)

def demuxStapAChecked (pkt : RtpPacketInfo) : Checked PackCheck (List PackEvent × Bool) :=
  let payload := pkt.pkt.payload
  if payload.length ≤ 3 then pure ([], false)
  else do
    let offsets ← parseStapAOffsetsChecked payload
    match offsets with
    | none => pure ([], false)
    | some offsets => readStapALoop payload pkt.pkt.timestamp.toNat (offsets ++ [payload.length + 2])

theorem readStapAOffsets_spec (offset : Nat) (p : List UInt8) (hp : data.drop offset = p) (hle : offset ≤ data.length)
    : (readStapAOffsets data offset offset p.length).Passes PackCheck.Holds
      ∧ (readStapAOffsets data offset offset p.length).value = parseStapAOffsets offset p := by
  fun_induction parseStapAOffsets offset p with
  | case1 offset p hzero =>
    unfold readStapAOffsets
    rw [if_pos hzero]
    simp
  | case2 offset p hzero hshort =>
    unfold readStapAOffsets
    rw [if_neg hzero, if_pos hshort]
    simp
  | case3 offset p hzero hshort naluLen hlong =>
    unfold readStapAOffsets
    rw [if_neg hzero, if_neg hshort, hp]
    have hlen := congrArg List.length hp
    rw [List.length_drop] at hlen
    simp [PackCheck.Holds, hlong, naluLen]
    omega
  | case4 offset p hzero hshort naluLen hlong ih =>
    have hlen := congrArg List.length hp
    rw [List.length_drop] at hlen
    have hdrop : data.drop (offset + 2 + naluLen) = p.drop (2 + naluLen) := by
      rw [← hp, List.drop_drop, Nat.add_assoc]
    have hrest : (p.drop (2 + naluLen)).length = p.length - 2 - naluLen := by
      rw [List.length_drop, Nat.sub_sub]
    rcases ih hdrop (by omega) with ⟨hpasses, hvalue⟩
    rw [hrest] at hpasses hvalue
    unfold readStapAOffsets
    rw [if_neg hzero, if_neg hshort, hp]
    simp [PackCheck.Holds, hlong, hpasses, hvalue, naluLen]
    omega

theorem parseStapAOffsetsChecked_spec (hpos : 0 < data.length)
    : (parseStapAOffsetsChecked data).Passes PackCheck.Holds
      ∧ (parseStapAOffsetsChecked data).value = parseStapAOffsets 1 (data.drop 1) := by
  have hlen : sizeSub data.length 1 = (data.drop 1).length := by
    rw [sizeSub_of_le hpos, List.length_drop]
  unfold parseStapAOffsetsChecked
  rw [hlen]
  apply readStapAOffsets_spec data 1 (data.drop 1) rfl hpos

/--
Each offset is at least a length field ahead of the one before, up to the one that stands for the end.
-/
theorem parseStapAOffsets_ascending {offset : Nat} {p : List UInt8} {offsets : List Nat}
    (h : parseStapAOffsets offset p = some offsets)
    : (offset :: (offsets ++ [offset + p.length + 2])).Pairwise fun o next => o + 2 ≤ next := by
  fun_induction parseStapAOffsets offset p generalizing offsets with
  | case1 offset p hzero =>
    cases h
    simp [hzero]
  | case2 => cases h
  | case3 => cases h
  | case4 offset p hzero hshort naluLen hlong =>
    rename_i ih
    rw [Option.map_eq_some_iff] at h
    rcases h with ⟨rest, hrest, rfl⟩
    have hasc := ih hrest
    have hend : offset + 2 + naluLen + (p.drop (2 + naluLen)).length + 2 = offset + p.length + 2 := by
      rw [List.length_drop]
      omega
    rw [hend, List.pairwise_cons] at hasc
    rcases hasc with ⟨hahead, hasc⟩
    rw [List.cons_append, List.pairwise_cons, List.pairwise_cons]
    refine ⟨?_, ?_, hasc⟩
    . intro next hnext
      rcases List.mem_cons.mp hnext with rfl | hnext
      . apply Nat.le_refl
      . have := hahead next hnext
        omega
    . intro next hnext
      have := hahead next hnext
      omega

/--
The ranges are not empty and lie one behind the other within this many bytes.
-/
structure DisjointIn (size : Nat) (ranges : List (Nat × Nat)) : Prop where
  inside : ∀ r ∈ ranges, r.1 < r.2 ∧ r.2 ≤ size
  disjoint : ranges.Pairwise fun r r' => r.2 ≤ r'.1

theorem DisjointIn.nil (size : Nat) : DisjointIn size [] where
  inside r hr := by cases hr
  disjoint := .nil

/--
The event in which the bytes of a range go out.
-/
def rangeEvent (dts : Int) (r : Nat × Nat) : PackEvent :=
  .mediaPacketOutput (h264Packet ((data.drop r.1).take (r.2 - r.1)) dts)

/--
The offsets that `DemuxStapA` goes through, with the one that stands for the end.
-/
theorem ascending_of_parse {data : List UInt8} (hpos : 0 < data.length) {offsets : List Nat}
    (h : parseStapAOffsets 1 (data.drop 1) = some offsets)
    : (offsets ++ [data.length + 2]).Pairwise (fun o next => o + 2 ≤ next)
      ∧ ∀ o ∈ offsets ++ [data.length + 2], o ≤ data.length + 2 := by
  have hasc := parseStapAOffsets_ascending h
  have hend : 1 + (data.drop 1).length + 2 = data.length + 2 := by
    rw [List.length_drop]
    omega
  rw [hend, List.pairwise_cons] at hasc
  refine ⟨hasc.right, fun o ho => ?_⟩
  rcases List.mem_append.mp ho with hmem | hlast
  . have := (List.pairwise_append.mp hasc.right).2.2 o hmem _ (List.mem_singleton.mpr rfl)
    omega
  . rw [List.mem_singleton.mp hlast]

theorem readStapALoop_spec (dts : Int) {offsets : List Nat} (hasc : offsets.Pairwise fun o next => o + 2 ≤ next)
    (hlast : ∀ o ∈ offsets, o ≤ data.length + 2)
    : (readStapALoop data dts offsets).Passes PackCheck.Holds
      ∧ (readStapALoop data dts offsets).value = demuxStapALoop data dts offsets := by
  induction offsets with
  | nil => exact ⟨Checked.passes_pure _, rfl⟩
  | cons startOffset offsets ih =>
    cases offsets with
    | nil => exact ⟨Checked.passes_pure _, rfl⟩
    | cons nextOffset offsets =>
      rw [List.pairwise_cons] at hasc
      rcases hasc with ⟨hahead, hasc⟩
      rcases ih hasc (fun o ho => hlast o (List.mem_cons_of_mem _ ho)) with ⟨hpasses, hvalue⟩
      have hnext := hahead nextOffset List.mem_cons_self
      have hin := hlast nextOffset (by simp)
      have hend : sizeSub nextOffset 2 = nextOffset - 2 := sizeSub_of_le (by omega)
      have hsize : sizeSub (nextOffset - 2) startOffset = nextOffset - 2 - startOffset := sizeSub_of_le (by omega)
      unfold readStapALoop demuxStapALoop
      simp only [hend, hsize]
      by_cases hshort : nextOffset - 2 - startOffset < 1
      . simp [hshort]
      . simp [hshort, hpasses, hvalue, PackCheck.Holds]
        omega

theorem demuxStapALoop_disjoint (dts : Int) {offsets : List Nat}
    (hasc : offsets.Pairwise fun o next => o + 2 ≤ next) (hlast : ∀ o ∈ offsets, o ≤ data.length + 2)
    : ∃ ranges, (demuxStapALoop data dts offsets).1 = ranges.map (rangeEvent data dts)
      ∧ DisjointIn data.length ranges ∧ ∀ r ∈ ranges, ∀ o ∈ offsets.head?, o ≤ r.1 := by
  induction offsets with
  | nil => exact ⟨[], rfl, .nil _, by simp⟩
  | cons startOffset offsets ih =>
    cases offsets with
    | nil => exact ⟨[], rfl, .nil _, by simp⟩
    | cons nextOffset offsets =>
      rw [List.pairwise_cons] at hasc
      rcases hasc with ⟨hahead, hasc⟩
      rcases ih hasc (fun o ho => hlast o (List.mem_cons_of_mem _ ho)) with ⟨ranges, hevents, hdisjoint, hfirst⟩
      have hnext := hahead nextOffset List.mem_cons_self
      have hin := hlast nextOffset (by simp)
      unfold demuxStapALoop
      by_cases hshort : nextOffset - 2 - startOffset < 1
      . refine ⟨[], ?_, .nil _, by simp⟩
        simp [hshort]
      . refine ⟨(startOffset, nextOffset - 2) :: ranges, ?_, ⟨?_, ?_⟩, ?_⟩
        . simp [hshort, hevents, rangeEvent]
        . intro r hr
          rcases List.mem_cons.mp hr with rfl | hr
          . simp only
            omega
          . exact hdisjoint.inside r hr
        . rw [List.pairwise_cons]
          refine ⟨fun r hr => ?_, hdisjoint.disjoint⟩
          have := hfirst r hr nextOffset rfl
          simp only
          omega
        . intro r hr o ho
          cases ho
          rcases List.mem_cons.mp hr with rfl | hr
          . apply Nat.le_refl
          . have := hfirst r hr nextOffset rfl
            omega

theorem demuxStapAChecked_spec (pkt : RtpPacketInfo)
    : (demuxStapAChecked pkt).Passes PackCheck.Holds ∧ (demuxStapAChecked pkt).value = demuxStapA pkt := by
  unfold demuxStapAChecked demuxStapA
  simp only
  split
  . exact ⟨Checked.passes_pure _, rfl⟩
  . next hlong =>
    rcases parseStapAOffsetsChecked_spec pkt.pkt.payload (by omega) with ⟨hpasses, hvalue⟩
    rw [Checked.passes_bind, Checked.value_bind, hvalue]
    cases hoffsets : parseStapAOffsets 1 (pkt.pkt.payload.drop 1) with
    | none => exact ⟨⟨hpasses, Checked.passes_pure _⟩, rfl⟩
    | some offsets =>
      rcases ascending_of_parse (by omega) hoffsets with ⟨hasc, hlast⟩
      rcases readStapALoop_spec pkt.pkt.payload pkt.pkt.timestamp.toNat hasc hlast with ⟨hloop, hvalue⟩
      exact ⟨⟨hpasses, hloop⟩, hvalue⟩

theorem demuxStapA_disjoint (pkt : RtpPacketInfo)
    : ∃ ranges, (demuxStapA pkt).1 = ranges.map (rangeEvent pkt.pkt.payload pkt.pkt.timestamp.toNat)
      ∧ DisjointIn pkt.pkt.payload.length ranges := by
  unfold demuxStapA
  simp only
  split
  . exact ⟨[], rfl, .nil _⟩
  . next hlong =>
    cases hoffsets : parseStapAOffsets 1 (pkt.pkt.payload.drop 1) with
    | none => exact ⟨[], rfl, .nil _⟩
    | some offsets =>
      rcases ascending_of_parse (by omega) hoffsets with ⟨hasc, hlast⟩
      rcases demuxStapALoop_disjoint pkt.pkt.payload pkt.pkt.timestamp.toNat hasc hlast
        with ⟨ranges, hevents, hdisjoint, _⟩
      exact ⟨ranges, hevents, hdisjoint⟩

theorem length_le_generateStapAPackets {nalus : List (List UInt8)} {nalu : List UInt8} (hnalu : nalu ∈ nalus)
    : nalu.length ≤ (generateStapAPackets nalus).payload.length := by
  have hsub := (List.sublist_flatten_of_mem (List.mem_map_of_mem (f := stapAField) hnalu)).length_le
  rw [← List.flatMap_def] at hsub
  simp only [stapAField, List.length_append] at hsub
  simp only [generateStapAPackets, makeRtpPacket, List.length_cons]
  omega

/--
NALUs that fit in a packet come out again one by one. Whatever the payload is, it is only read inside, and what
comes out of it lies disjointly inside.
-/
theorem stapA_roundTrip_and_safe
    : (∀ nalus (pkt : RtpPacketInfo), (∀ nalu ∈ nalus, nalu ≠ []) →
        (generateStapAPackets nalus).bytes.length ≤ rtpPacketMaxSize →
        pkt.pkt.payload = (generateStapAPackets nalus).payload →
        demuxStapA pkt
          = (nalus.map fun nalu => .mediaPacketOutput (h264Packet nalu pkt.pkt.timestamp.toNat), decide (nalus ≠ [])))
      ∧ (∀ payload ≠ [], (parseStapAOffsetsChecked payload).Passes PackCheck.Holds)
      ∧ ∀ pkt, (demuxStapAChecked pkt).Passes PackCheck.Holds ∧ (demuxStapAChecked pkt).value = demuxStapA pkt
        ∧ ∃ ranges, (demuxStapA pkt).1 = ranges.map (rangeEvent pkt.pkt.payload pkt.pkt.timestamp.toNat)
          ∧ DisjointIn pkt.pkt.payload.length ranges := by
  refine ⟨?_, ?_, ?_⟩
  . intro nalus pkt hne hfits hpayload
    rw [RtpPacket.length_bytes] at hfits
    unfold rtpPacketMaxSize at hfits
    by_cases hnalus : nalus = []
    . subst hnalus
      unfold demuxStapA
      simp only
      rw [if_pos (by rw [hpayload]; simp [generateStapAPackets, makeRtpPacket])]
      rfl
    . rw [decide_eq_true hnalus]
      refine demuxStapA_generateStapAPackets hpayload ?_ hne hnalus
      intro nalu hnalu
      have := length_le_generateStapAPackets hnalu
      omega
  . intro payload hne
    exact (parseStapAOffsetsChecked_spec payload (List.length_pos_iff.mpr hne)).left
  . intro pkt
    rcases demuxStapAChecked_spec pkt with ⟨hpasses, hvalue⟩
    exact ⟨hpasses, hvalue, demuxStapA_disjoint pkt⟩

theorem stapA_roundTrip_and_safe_sample
    : demuxStapA ⟨.video, generateStapAPackets [[0x67, 1], [0x68]], 0, 90000⟩
        = ([.mediaPacketOutput (h264Packet [0x67, 1] 0), .mediaPacketOutput (h264Packet [0x68] 0)], true)
      ∧ (parseStapAOffsetsChecked [0x78, 0, 9]).Passes PackCheck.Holds := by
  rcases stapA_roundTrip_and_safe with ⟨hround, hparse, _⟩
  refine ⟨?_, hparse _ (by simp)⟩
  apply hround [[0x67, 1], [0x68]] _ (by simp) _ rfl
  rw [RtpPacket.length_bytes]
  decide

end StapA

/--
What `GetStartEndBit` reads, the bits are `getStartBit` and `getEndBit`.
-/
def getStartEndBit (payload : List UInt8) : Checked PackCheck Unit := Checked.check (.read 1 1 payload.length)

/--
The rest of the payload behind the two bytes of a fragment, with the length `payload_len - 2`.
-/
def appendFragment (payload : List UInt8) : Checked PackCheck Unit := do
  Checked.check (.append (sizeSub payload.length 2) ((payload.length : Int) - 2))
  Checked.check (.read 2 (sizeSub payload.length 2) payload.length)

/--
What the loop of `DemuxFua` does with the payload of a packet.
-/
def appendPayload (f : Fua) (payload : List UInt8) : Checked PackCheck Unit :=
  if f.first then
    if getStartBit payload then do
      Checked.check (.read 0 1 payload.length)
      Checked.check (.read 1 1 payload.length)
      appendFragment payload
    else pure ()
  else if f.hasStart then appendFragment payload
  else pure ()

/--
The loop of `DemuxFua`, for as many packets as there were in the queue.
-/
def demuxFuaQueue (f : Fua) (queue : List RtpPacketInfo)
    : Nat → Checked PackCheck (List RtpPacketInfo × Option (List UInt8 × Int))
  | 0 => pure (queue, none)
  | left + 1 => do
    Checked.check (.front queue.length)
    match queue with
    | [] => pure ([], none)
    | p :: queue => do
      Checked.check (.front (queue.length + 1))
      getStartEndBit p.pkt.payload
      appendPayload f p.pkt.payload
      let f := f.push p.pkt
      if getEndBit p.pkt.payload then pure (queue, if f.hasStart then some (f.data, f.dts) else none)
      else demuxFuaQueue f queue left

/--
The loop of `CheckFuaTimeout`.
-/
def checkFuaQueue (now : Int) (queue : List RtpPacketInfo) : Nat → Checked PackCheck (List RtpPacketInfo)
  | 0 => pure queue
  | left + 1 => do
    Checked.check (.front queue.length)
    match queue with
    | [] => pure []
    | p :: queue =>
      if now - p.pkt.localMs < packBufferTimeout then pure (p :: queue)
      else do
        Checked.check (.front (queue.length + 1))
        checkFuaQueue now queue left

def checkFuaTimeoutChecked (h : PackHandleH264) (now : Int) : Checked PackCheck PackHandleH264 := do
  let queue ← checkFuaQueue now h.packetsQueue h.packetsQueue.length
  pure { h with packetsQueue := queue }

/--
What follows `DemuxFua`.
-/
def finishFua (h : PackHandleH264) (nalu : Option (List UInt8 × Int)) (pkt : RtpPacketInfo) (now : Int)
    : PackHandleH264 × List PackEvent :=
  let (h, events) := match nalu with
    | some (nalu, dts) => (h, [PackEvent.mediaPacketOutput (h264Packet nalu dts)])
    | none => h.reportLost pkt now
  ({ h with startFlag := false, endFlag := false }, events)

def outputFuaChecked (h : PackHandleH264) (pkt : RtpPacketInfo) (now : Int)
    : Checked PackCheck (PackHandleH264 × List PackEvent) := do
  let (queue, nalu) ← demuxFuaQueue {} h.packetsQueue h.packetsQueue.length
  pure ({ h with packetsQueue := queue }.finishFua nalu pkt now)

/--
What the start bit does to the state, and what is done to it before the fragment is looked at.
-/
def startFua (h : PackHandleH264) (payload : List UInt8) : PackHandleH264 :=
  if getStartBit payload then { h with packetsQueue := [], startFlag := true } else h

def queueFua (h : PackHandleH264) (pkt : RtpPacketInfo) : PackHandleH264 :=
  let h := if getEndBit pkt.pkt.payload then { h with endFlag := true } else h
  { h with packetsQueue := h.packetsQueue ++ [pkt] }

def inputFuaChecked (h : PackHandleH264) (pkt : RtpPacketInfo) (now : Int)
    : Checked PackCheck (PackHandleH264 × List PackEvent) := do
  getStartEndBit pkt.pkt.payload
  if getStartBit pkt.pkt.payload ∧ getEndBit pkt.pkt.payload then pure (h.resetRtpFua.reportLost pkt now)
  else do
    let h := h.startFua pkt.pkt.payload
    if getEndBit pkt.pkt.payload ∧ ¬h.startFlag then pure (h.resetRtpFua.reportLost pkt now)
    else do
      let h := h.queueFua pkt
      if h.startFlag ∧ h.endFlag then h.outputFuaChecked pkt now
      else do
        let h ← h.checkFuaTimeoutChecked now
        pure (h, [])

def inputPayloadChecked (h : PackHandleH264) (pkt : RtpPacketInfo) (now : Int)
    : Checked PackCheck (PackHandleH264 × List PackEvent) := do
  let payload := pkt.pkt.payload
  Checked.check (.read 0 1 payload.length)
  let nalType := H264.nalType (payload.getD 0 0)
  if 1 ≤ nalType ∧ nalType ≤ 23 then do
    Checked.check (.append payload.length payload.length)
    Checked.check (.read 0 payload.length payload.length)
    pure (h, [.mediaPacketOutput (h264Packet payload pkt.pkt.timestamp.toNat)])
  else if nalType = 28 then h.inputFuaChecked pkt now
  else if nalType = 24 then do
    let (events, ret) ← demuxStapAChecked pkt
    if ret then pure (h, events)
    else
      let (h, lost) := h.reportLost pkt now
      pure (h, events ++ lost)
  else pure (h, [])

def inputRtpPacketChecked (h : PackHandleH264) (pkt : RtpPacketInfo) (now : Int)
    : Checked PackCheck (PackHandleH264 × List PackEvent) :=
  if h.initFlag ∧ h.lastExtendSeq + 1 ≠ pkt.extendSeq then
    let (h, events) := { h with
      packetsQueue := []
      startFlag := false
      endFlag := false }.reportLost pkt now
    pure ({ h with lastExtendSeq := pkt.extendSeq }, events)
  else
    { h with initFlag := true, lastExtendSeq := pkt.extendSeq }.inputPayloadChecked pkt now

section Fua

variable (h : PackHandleH264) (pkt : RtpPacketInfo) (now : Int)

theorem checkFuaQueue_spec (queue : List RtpPacketInfo)
    : (checkFuaQueue now queue queue.length).Passes PackCheck.Holds
      ∧ (checkFuaQueue now queue queue.length).value
        = queue.dropWhile fun p => ¬(now - p.pkt.localMs < packBufferTimeout) := by
  induction queue with
  | nil => exact ⟨Checked.passes_pure _, rfl⟩
  | cons p queue ih =>
    rcases ih with ⟨hpasses, hvalue⟩
    rw [List.length_cons, checkFuaQueue, List.dropWhile_cons]
    by_cases htime : now - p.pkt.localMs < packBufferTimeout
    . simp [htime, PackCheck.Holds]
    . simp [htime, PackCheck.Holds, hpasses, hvalue]

theorem checkFuaTimeoutChecked_spec
    : (h.checkFuaTimeoutChecked now).Passes PackCheck.Holds
      ∧ (h.checkFuaTimeoutChecked now).value = h.checkFuaTimeout now := by
  rcases checkFuaQueue_spec now h.packetsQueue with ⟨hpasses, hvalue⟩
  unfold checkFuaTimeoutChecked checkFuaTimeout
  simp [hpasses, hvalue]

/--
Packets that have the second byte of a fragment.
-/
def Fragments (queue : List RtpPacketInfo) : Prop := ∀ p ∈ queue, 2 ≤ p.pkt.payload.length

theorem Fragments.sublist {queue queue' : List RtpPacketInfo} (hqueue : Fragments queue')
    (hsub : queue.Sublist queue')
    : Fragments queue := by
  intro p hp
  apply hqueue p (hsub.subset hp)

@[simp]
theorem getStartEndBit_passes (payload : List UInt8)
    : (getStartEndBit payload).Passes PackCheck.Holds ↔ 2 ≤ payload.length := by
  simp [getStartEndBit, PackCheck.Holds]

theorem appendFragment_passes {payload : List UInt8} (hlen : 2 ≤ payload.length)
    : (appendFragment payload).Passes PackCheck.Holds := by
  simp [appendFragment, PackCheck.Holds, sizeSub_of_le hlen]
  omega

theorem appendPayload_passes (f : Fua) {payload : List UInt8} (hlen : 2 ≤ payload.length)
    : (appendPayload f payload).Passes PackCheck.Holds := by
  have happend := appendFragment_passes hlen
  have hfirst : 1 ≤ payload.length := by omega
  simp [appendPayload, happend, PackCheck.Holds, hlen, hfirst]

theorem demuxFuaQueue_spec (f : Fua) (queue : List RtpPacketInfo)
    : (Fragments queue → (demuxFuaQueue f queue queue.length).Passes PackCheck.Holds)
      ∧ (demuxFuaQueue f queue queue.length).value = demuxFuaLoop f queue := by
  induction queue generalizing f with
  | nil => exact ⟨fun _ => Checked.passes_pure _, rfl⟩
  | cons p queue ih =>
    rcases ih (f.push p.pkt) with ⟨hpasses, hvalue⟩
    rw [List.length_cons, demuxFuaQueue, demuxFuaLoop]
    refine ⟨fun hqueue => ?_, ?_⟩
    . have hlen := hqueue p List.mem_cons_self
      have hrest := hpasses (hqueue.sublist (List.sublist_cons_self p queue))
      simp [PackCheck.Holds, hlen, appendPayload_passes f hlen, hrest]
    . by_cases hlast : getEndBit p.pkt.payload = true
      . simp [hlast]
      . simp [hlast, hvalue]

theorem demuxFuaLoop_sublist (f : Fua) (queue : List RtpPacketInfo) : (demuxFuaLoop f queue).1.Sublist queue := by
  induction queue generalizing f with
  | nil => exact .slnil
  | cons p queue ih =>
    rw [demuxFuaLoop]
    split
    . exact List.sublist_cons_self p queue
    . exact (ih _).cons p

theorem outputFua_split
    : h.outputFua pkt now = { h with packetsQueue := (demuxFuaLoop {} h.packetsQueue).1 }.finishFua
        (demuxFuaLoop {} h.packetsQueue).2 pkt now := rfl

theorem outputFuaChecked_spec
    : (Fragments h.packetsQueue → (h.outputFuaChecked pkt now).Passes PackCheck.Holds)
      ∧ (h.outputFuaChecked pkt now).value = h.outputFua pkt now := by
  rcases demuxFuaQueue_spec {} h.packetsQueue with ⟨hpasses, hvalue⟩
  unfold outputFuaChecked
  refine ⟨fun hqueue => ?_, ?_⟩
  . rw [Checked.passes_bind]
    exact ⟨hpasses hqueue, Checked.passes_pure _⟩
  . rw [Checked.value_bind, hvalue, outputFua_split]
    rfl

theorem inputFua_eq
    : h.inputFua pkt now
      = if getStartBit pkt.pkt.payload ∧ getEndBit pkt.pkt.payload then h.resetRtpFua.reportLost pkt now
        else if getEndBit pkt.pkt.payload ∧ ¬(h.startFua pkt.pkt.payload).startFlag then
          (h.startFua pkt.pkt.payload).resetRtpFua.reportLost pkt now
        else if ((h.startFua pkt.pkt.payload).queueFua pkt).startFlag
            ∧ ((h.startFua pkt.pkt.payload).queueFua pkt).endFlag then
          ((h.startFua pkt.pkt.payload).queueFua pkt).outputFua pkt now
        else (((h.startFua pkt.pkt.payload).queueFua pkt).checkFuaTimeout now, []) := rfl

theorem queueFua_sublist
    : ((h.startFua pkt.pkt.payload).queueFua pkt).packetsQueue.Sublist (h.packetsQueue ++ [pkt]) := by
  have hqueue (h : PackHandleH264) : (h.queueFua pkt).packetsQueue = h.packetsQueue ++ [pkt] := by
    unfold queueFua
    split
    all_goals rfl
  rw [hqueue]
  apply List.Sublist.append_right
  unfold startFua
  split
  . apply List.nil_sublist
  . apply List.Sublist.refl

theorem inputFuaChecked_value : (h.inputFuaChecked pkt now).value = h.inputFua pkt now := by
  have houtput (h : PackHandleH264) := (h.outputFuaChecked_spec pkt now).right
  have htimeout (h : PackHandleH264) := (h.checkFuaTimeoutChecked_spec now).right
  rw [inputFua_eq]
  unfold inputFuaChecked
  simp only [Checked.value_bind, Checked.value_pure, apply_ite Checked.value, houtput, htimeout]

theorem Fragments.queueFua (hqueue : Fragments h.packetsQueue) (hlen : 2 ≤ pkt.pkt.payload.length)
    : Fragments ((h.startFua pkt.pkt.payload).queueFua pkt).packetsQueue := by
  apply Fragments.sublist _ (queueFua_sublist h pkt)
  intro p hp
  rcases List.mem_append.mp hp with hmem | hlast
  . exact hqueue p hmem
  . rwa [List.mem_singleton.mp hlast]

/--
A fragment is read as it should be if it has the byte behind its indicator.
-/
theorem inputFuaChecked_passes_iff (hqueue : Fragments h.packetsQueue)
    : (h.inputFuaChecked pkt now).Passes PackCheck.Holds ↔ 2 ≤ pkt.pkt.payload.length := by
  unfold inputFuaChecked
  rw [Checked.passes_bind, getStartEndBit_passes, and_iff_left_iff_imp]
  intro hlen
  have houtput := (((h.startFua pkt.pkt.payload).queueFua pkt).outputFuaChecked_spec pkt now).left
    (hqueue.queueFua h pkt hlen)
  have htimeout := (((h.startFua pkt.pkt.payload).queueFua pkt).checkFuaTimeoutChecked_spec now).left
  simp [houtput, htimeout]

theorem fragments_reportLost (hqueue : Fragments h.packetsQueue) : Fragments (h.reportLost pkt now).1.packetsQueue := by
  unfold reportLost
  split
  all_goals exact hqueue

theorem fragments_checkFuaTimeout (hqueue : Fragments h.packetsQueue)
    : Fragments (h.checkFuaTimeout now).packetsQueue := hqueue.sublist (List.dropWhile_sublist _)

theorem fragments_outputFua (hqueue : Fragments h.packetsQueue) : Fragments (h.outputFua pkt now).1.packetsQueue := by
  have hrest := hqueue.sublist (demuxFuaLoop_sublist {} h.packetsQueue)
  rw [outputFua_split]
  unfold finishFua
  cases (demuxFuaLoop {} h.packetsQueue).2 with
  | none => exact fragments_reportLost _ pkt now hrest
  | some nalu => exact hrest

theorem fragments_inputFua (hqueue : Fragments h.packetsQueue) (hlen : 2 ≤ pkt.pkt.payload.length)
    : Fragments (h.inputFua pkt now).1.packetsQueue := by
  have hqueued := hqueue.queueFua h pkt hlen
  have hreset (h : PackHandleH264) : Fragments (h.resetRtpFua.reportLost pkt now).1.packetsQueue := by
    apply fragments_reportLost
    intro p hp
    cases hp
  rw [inputFua_eq]
  split
  . apply hreset
  . split
    . apply hreset
    . split
      . exact fragments_outputFua _ pkt now hqueued
      . exact fragments_checkFuaTimeout _ now hqueued

theorem inputPayloadChecked_value : (h.inputPayloadChecked pkt now).value = h.inputPayload pkt now := by
  have hfua := inputFuaChecked_value h pkt now
  have hstapA := (demuxStapAChecked_spec pkt).right
  unfold inputPayloadChecked inputPayload
  simp only [Checked.value_bind, Checked.value_pure, apply_ite Checked.value, hfua, hstapA]
  rcases demuxStapA pkt with ⟨events, ret⟩
  cases ret
  all_goals rfl

theorem inputPayloadChecked_passes_iff (hqueue : Fragments h.packetsQueue) (hparsed : pkt.pkt.payload ≠ [])
    : (h.inputPayloadChecked pkt now).Passes PackCheck.Holds
      ↔ H264.nalType (pkt.pkt.payload.getD 0 0) = 28 → 2 ≤ pkt.pkt.payload.length := by
  have hfua := inputFuaChecked_passes_iff h pkt now hqueue
  have hstapA := (demuxStapAChecked_spec pkt).left
  have hpos : 1 ≤ pkt.pkt.payload.length := List.length_pos_iff.mpr hparsed
  simp only [inputPayloadChecked]
  generalize H264.nalType (pkt.pkt.payload.getD 0 0) = nalType
  by_cases hsingle : 1 ≤ nalType ∧ nalType ≤ 23
  . have hne : nalType ≠ 28 := by
      rintro rfl
      exact absurd hsingle.right (by decide)
    rw [if_pos hsingle]
    simp [hne, PackCheck.Holds, hpos]
  . rw [if_neg hsingle]
    by_cases hfragment : nalType = 28
    . simp [hfragment, PackCheck.Holds, hpos, hfua]
    . rw [if_neg hfragment]
      simp [hfragment, PackCheck.Holds, hpos, hstapA]

theorem fragments_inputPayload (hqueue : Fragments h.packetsQueue)
    (hlen : H264.nalType (pkt.pkt.payload.getD 0 0) = 28 → 2 ≤ pkt.pkt.payload.length)
    : Fragments (h.inputPayload pkt now).1.packetsQueue := by
  unfold inputPayload
  simp only
  split
  . exact hqueue
  . split
    . next hfragment => exact fragments_inputFua h pkt now hqueue (hlen hfragment)
    . split
      . split
        . exact hqueue
        . exact fragments_reportLost h pkt now hqueue
      . exact hqueue

/--
The packet is the next one, so its payload is looked at.
-/
def InSequence : Prop := h.initFlag = true → h.lastExtendSeq + 1 = pkt.extendSeq

theorem inSequence_iff : h.InSequence pkt ↔ ¬(h.initFlag = true ∧ h.lastExtendSeq + 1 ≠ pkt.extendSeq) := by
  unfold InSequence
  rw [not_and, not_ne_iff]

theorem inputRtpPacketChecked_value : (h.inputRtpPacketChecked pkt now).value = h.inputRtpPacket pkt now := by
  unfold inputRtpPacketChecked inputRtpPacket
  split
  . rfl
  . apply inputPayloadChecked_value

theorem inputRtpPacketChecked_passes_iff (hqueue : Fragments h.packetsQueue) (hparsed : pkt.pkt.payload ≠ [])
    : (h.inputRtpPacketChecked pkt now).Passes PackCheck.Holds
      ↔ h.InSequence pkt → H264.nalType (pkt.pkt.payload.getD 0 0) = 28 → 2 ≤ pkt.pkt.payload.length := by
  rw [inSequence_iff]
  unfold inputRtpPacketChecked
  split
  . next hskip =>
    apply iff_of_true
    . apply Checked.passes_pure
    . intro hnext
      exact absurd hskip hnext
  . next hnext =>
    have hpayload := inputPayloadChecked_passes_iff { h with initFlag := true, lastExtendSeq := pkt.extendSeq } pkt now
      hqueue hparsed
    rw [hpayload]
    constructor
    . intro hlen _
      exact hlen
    . intro hlen
      exact hlen hnext

theorem fragments_inputRtpPacket (hqueue : Fragments h.packetsQueue)
    (hlen : h.InSequence pkt → H264.nalType (pkt.pkt.payload.getD 0 0) = 28 → 2 ≤ pkt.pkt.payload.length)
    : Fragments (h.inputRtpPacket pkt now).1.packetsQueue := by
  rw [inSequence_iff] at hlen
  unfold inputRtpPacket
  split
  . apply fragments_reportLost
    intro p hp
    cases hp
  . next hnext =>
    exact fragments_inputPayload { h with initFlag := true, lastExtendSeq := pkt.extendSeq } pkt now hqueue (hlen hnext)

end Fua

/--
A call with a packet that `RtpPacket::Parse` accepts, such a packet has a payload.
-/
abbrev ParsedCall := { c : Call // ∀ pkt now, c = .input pkt now → pkt.pkt.payload ≠ [] }

/--
A fragment that is looked at has the byte behind its indicator.
-/
def HasFuHeader (h : PackHandleH264) (c : ParsedCall) : Prop :=
  ∀ pkt now, c.val = .input pkt now → h.InSequence pkt →
    H264.nalType (pkt.pkt.payload.getD 0 0) = 28 → 2 ≤ pkt.pkt.payload.length

def callChecked (h : PackHandleH264) (c : ParsedCall) : Checked PackCheck PackHandleH264 :=
  match c.val with
  | .input pkt now => do
    let result ← h.inputRtpPacketChecked pkt now
    pure result.1
  | .timer now => h.checkFuaTimeoutChecked now

theorem callChecked_value (h : PackHandleH264) (c : ParsedCall) : (h.callChecked c).value = (h.call c.val).1 := by
  rcases c with ⟨c, hc⟩
  cases c with
  | input pkt now => exact congrArg Prod.fst (inputRtpPacketChecked_value h pkt now)
  | timer now => exact (checkFuaTimeoutChecked_spec h now).right

theorem callChecked_passes_iff {h : PackHandleH264} (hqueue : Fragments h.packetsQueue) (c : ParsedCall)
    : (h.callChecked c).Passes PackCheck.Holds ↔ h.HasFuHeader c := by
  rcases c with ⟨c, hc⟩
  cases c with
  | input pkt now =>
    have hpasses : (h.callChecked ⟨.input pkt now, hc⟩).Passes PackCheck.Holds
        ↔ (h.inputRtpPacketChecked pkt now).Passes PackCheck.Holds := by
      simp [callChecked]
    rw [hpasses, inputRtpPacketChecked_passes_iff h pkt now hqueue (hc pkt now rfl)]
    constructor
    . intro hlen pkt' now' heq
      cases heq
      exact hlen
    . intro hheader
      exact hheader pkt now rfl
  | timer now =>
    apply iff_of_true
    . exact (checkFuaTimeoutChecked_spec h now).left
    . intro pkt' now' heq
      cases heq

theorem fragments_call {h : PackHandleH264} (hqueue : Fragments h.packetsQueue) {c : ParsedCall} (hc : h.HasFuHeader c)
    : Fragments (h.callChecked c).value.packetsQueue := by
  rw [callChecked_value]
  rcases c with ⟨c, hparsed⟩
  cases c with
  | input pkt now => exact fragments_inputRtpPacket h pkt now hqueue (hc pkt now rfl)
  | timer now => exact fragments_checkFuaTimeout h now hqueue

/--
Packets and timeouts in any order are safe if and only if no fragment that is looked at ends behind its indicator.
-/
theorem depacketize_safe_iff {h : PackHandleH264} (hqueue : Fragments h.packetsQueue) (calls : List ParsedCall)
    : (Checked.run callChecked h calls).Passes PackCheck.Holds ↔ Checked.RunMeets callChecked HasFuHeader h calls :=
  Checked.run_passes_iff_runMeets (fun h => Fragments h.packetsQueue) HasFuHeader
    (fun _ c hqueue => callChecked_passes_iff hqueue c) (fun _ _ hqueue hc => fragments_call hqueue hc) hqueue calls

/--
A packet of video with this payload, the first one of its stream.
-/
def payloadCall (payload : List UInt8) (hpayload : payload ≠ []) : ParsedCall where
  val := .input ⟨.video, makeRtpPacket payload, 0, 90000⟩ 0
  property pkt now heq := by
    cases heq
    exact hpayload

/--
The first fragment of a NALU, and the end of it, of which nothing but the bits is left.
-/
theorem depacketize_safe_sample
    : (Checked.run callChecked {} [payloadCall [0x7c, 0x85, 1] (by simp)]).Passes PackCheck.Holds := by
  apply (depacketize_safe_iff _ _).mpr
  . refine ⟨?_, trivial⟩
    intro pkt now heq _ _
    cases heq
    decide
  . intro p hp
    cases hp

/--
A fragment of one byte.
-/
theorem not_depacketize_safe
    : ¬(Checked.run callChecked {} [payloadCall [0x7c] (by simp)]).Passes PackCheck.Holds := by
  intro hpasses
  have hcheck := hpasses (.read 1 1 1) (by decide)
  exact absurd hcheck (by unfold PackCheck.Holds; decide)

end PackHandleH264
