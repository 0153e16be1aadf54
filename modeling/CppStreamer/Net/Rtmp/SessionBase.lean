import CppStreamer.Basic.Incremental
import CppStreamer.Net.Rtmp.ChunkStream

/-!
This module contains the session state of `rtmp_session_base.cpp` and the reading of chunks from its
receive buffer, together with the proof that reading does not depend on how the received bytes were
cut into pieces.
-/

namespace Rtmp

open ByteStream

inductive ClientPhase where
  | initial
  | c0c1
  | s0s1s2
  | connect
  | connectResp
  | createStream
  | createStreamResp
  | createPlay
  | createPublish
  | createPlaypublishResp
  | mediaHandle
  deriving DecidableEq, Repr

structure RtmpRequest where
  publishFlag : Bool := false
  app : List UInt8 := []
  tcurl : List UInt8 := []
  streamName : List UInt8 := []
  transactionId : Nat := 1
  deriving DecidableEq, Repr

structure RtmpSessionBase where
  recvBuffer : List UInt8 := []
  fmtReady : Bool := false
  fmt : Nat := 0
  csid : Nat := 0
  csMap : UInt8 → Option ChunkStream := fun _ => none
  remoteWindowAcksize : Nat := 2500000
  req : RtmpRequest := {}
  clientPhase : ClientPhase := .initial
  chunkSize : Nat := chunkDefSize

namespace RtmpSessionBase

def setChunkSize (s : RtmpSessionBase) (chunkSize : Nat) : RtmpSessionBase :=
  { s with chunkSize := chunkSize }

def getChunkSize (s : RtmpSessionBase) : Nat := s.chunkSize

/--
`AppendData` on the receive buffer.
-/
def feed (s : RtmpSessionBase) (data : List UInt8) : RtmpSessionBase :=
  { s with recvBuffer := s.recvBuffer ++ data }

def readFmtCsid (s : RtmpSessionBase) : Ret × RtmpSessionBase :=
  match s.recvBuffer with
  | [] => (.needReadMore, s)
  | b :: buffer =>
    let s := { s with fmt := b.toNat / 64, csid := b.toNat % 64, recvBuffer := buffer }
    match s.csid, buffer with
    | 0, b1 :: buffer => (.ok, { s with csid := 64 + b1.toNat, recvBuffer := buffer })
    | 0, _ => (.needReadMore, s)
    | 1, b1 :: b2 :: buffer =>
      (.ok, { s with csid := 64 + b1.toNat + b2.toNat, recvBuffer := buffer })
    | 1, _ => (.needReadMore, s)
    | _, _ => (.ok, s)

/--
The chunk streams are kept under the low byte of their id.
-/
def csKey (s : RtmpSessionBase) : UInt8 := UInt8.ofNat s.csid

/--
The chunk stream `ReadChunkStream` hands out to its caller.
-/
def csPtr (s : RtmpSessionBase) : Option ChunkStream := s.csMap s.csKey

def putChunkStream (s : RtmpSessionBase) (cs : ChunkStream) : RtmpSessionBase :=
  { s with csMap := Function.update s.csMap s.csKey (some cs) }

/--
The chunk stream of the header read last. It is created when there is none, and one that exists
takes over the current chunk size.
-/
def currentChunkStream (s : RtmpSessionBase) : ChunkStream :=
  match s.csPtr with
  | none => ChunkStream.new s.fmt s.csid s.chunkSize
  | some cs => { cs with chunkSize := s.chunkSize }

/--
The part of `ReadChunkStream` behind the basic header.
-/
def readMessage (s : RtmpSessionBase) : Ret × RtmpSessionBase :=
  let (ret, cs, buffer) := s.currentChunkStream.readChunk s.fmt s.csid s.recvBuffer
  let s := { s.putChunkStream cs with recvBuffer := buffer }
  if ret = .ok then
    (ret, { s with fmtReady := false })
  else
    (ret, s)

def readChunkStream (s : RtmpSessionBase) : Ret × RtmpSessionBase :=
  if s.fmtReady then
    s.readMessage
  else
    match s.readFmtCsid with
    | (.ok, s) => { s with fmtReady := true }.readMessage
    | res => res

/--
The caller's `Reset` of the chunk stream it got.
-/
def resetChunkStream (s : RtmpSessionBase) (cs : ChunkStream) : RtmpSessionBase :=
  s.putChunkStream cs.reset

@[simp]
theorem feed_nil (s : RtmpSessionBase) : s.feed [] = s := by
  simp [feed]

theorem feed_append (s : RtmpSessionBase) (x y : List UInt8)
    : s.feed (x ++ y) = (s.feed x).feed y := by
  simp [feed]

theorem currentChunkStream_feed (s : RtmpSessionBase) (x : List UInt8)
    : (s.feed x).currentChunkStream = s.currentChunkStream := rfl

@[simp]
theorem csPtr_putChunkStream (s : RtmpSessionBase) (cs : ChunkStream)
    : (s.putChunkStream cs).csPtr = some cs := by
  simp [csPtr, csKey, putChunkStream]

theorem putChunkStream_putChunkStream (s : RtmpSessionBase) (cs cs' : ChunkStream)
    : (s.putChunkStream cs).putChunkStream cs' = s.putChunkStream cs' := by
  simp [putChunkStream, csKey]

theorem currentChunkStream_putChunkStream (s : RtmpSessionBase) (cs : ChunkStream)
    (h : cs.chunkSize = s.chunkSize)
    : (s.putChunkStream cs).currentChunkStream = cs := by
  rw [currentChunkStream, csPtr_putChunkStream]
  simp only [putChunkStream, ← h]

theorem currentChunkStream_chunkSize (s : RtmpSessionBase)
    : s.currentChunkStream.chunkSize = s.chunkSize := by
  rw [currentChunkStream]
  split
  . rfl
  . rfl

theorem readMessage_eq {s : RtmpSessionBase} {ret : Ret} {cs : ChunkStream} {buffer : List UInt8}
    (h : s.currentChunkStream.readChunk s.fmt s.csid s.recvBuffer = (ret, cs, buffer))
    : s.readMessage
      = (ret,
        { s.putChunkStream cs with
          recvBuffer := buffer, fmtReady := if ret = .ok then false else s.fmtReady }) := by
  simp only [readMessage, h]
  split
  . simp
  . rfl

theorem readMessage_feed {s s' : RtmpSessionBase} {ret : Ret} (x : List UInt8)
    (h : s.readMessage = (ret, s')) (hret : ret ≠ .needReadMore)
    : (s.feed x).readMessage = (ret, s'.feed x) := by
  rcases hread : s.currentChunkStream.readChunk s.fmt s.csid s.recvBuffer with ⟨ret', cs, buffer⟩
  have hr := ChunkStream.readChunk_resumable s.fmt s.csid
  rw [readMessage_eq hread, Prod.mk.injEq] at h
  rw [h.1] at hread
  have hfeed : (s.feed x).currentChunkStream.readChunk s.fmt s.csid (s.recvBuffer ++ x)
      = (ret, cs, buffer ++ x) := by
    rw [currentChunkStream_feed]
    cases ret with
    | ok => exact hr.ok x hread
    | error => exact hr.error x hread
    | needReadMore => contradiction
  rw [readMessage_eq hfeed, ← h.2, h.1]
  rfl

theorem readMessage_length_le {s s' : RtmpSessionBase} {ret : Ret} (h : s.readMessage = (ret, s'))
    : s'.recvBuffer.length ≤ s.recvBuffer.length := by
  rcases hread : s.currentChunkStream.readChunk s.fmt s.csid s.recvBuffer with ⟨ret', cs, buffer⟩
  rw [readMessage_eq hread, Prod.mk.injEq] at h
  rw [← h.2]
  exact (ChunkStream.readChunk_resumable s.fmt s.csid).length_le hread

theorem readMessage_needReadMore {s s' : RtmpSessionBase} (x : List UInt8)
    (h : s.readMessage = (.needReadMore, s'))
    : (s'.feed x).readMessage = (s.feed x).readMessage ∧ s'.fmtReady = s.fmtReady := by
  have hr := ChunkStream.readChunk_resumable s.fmt s.csid
  rcases hread : s.currentChunkStream.readChunk s.fmt s.csid s.recvBuffer with ⟨ret, cs, buffer⟩
  rw [readMessage_eq hread, Prod.mk.injEq] at h
  rw [h.1] at hread
  have hcur : s'.currentChunkStream = cs := by
    have := hr.chunkSize hread
    rw [currentChunkStream_chunkSize] at this
    rw [← h.2]
    exact currentChunkStream_putChunkStream s cs this
  rcases hagain : cs.readChunk s.fmt s.csid (buffer ++ x) with ⟨ret', cs', buffer'⟩
  have hfeed : (s.feed x).currentChunkStream.readChunk s.fmt s.csid (s.recvBuffer ++ x)
      = (ret', cs', buffer') := by
    rw [currentChunkStream_feed, ← hr.needReadMore x hread, hagain]
  rw [← hcur, ← currentChunkStream_feed _ x] at hagain
  rw [readMessage_eq hfeed]
  rw [← h.2] at hagain ⊢
  rw [readMessage_eq hagain]
  simp [h.1, feed, putChunkStream, csKey]

theorem readFmtCsid_cons {s : RtmpSessionBase} {b : UInt8} {buffer : List UInt8}
    (hbuffer : s.recvBuffer = b :: buffer) (hcsid : 2 ≤ b.toNat % 64)
    : s.readFmtCsid
      = (.ok, { s with fmt := b.toNat / 64, csid := b.toNat % 64, recvBuffer := buffer }) := by
  simp only [readFmtCsid, hbuffer]
  split
  . omega
  . omega
  . omega
  . omega
  . rfl

/--
A basic header of more than one byte is lost when it is not buffered as a whole, because its first
byte is consumed before the others are required.
-/
def Fits (s : RtmpSessionBase) : Prop :=
  s.fmtReady = true ∨ ∀ b ∈ s.recvBuffer.head?, 2 ≤ b.toNat % 64

/--
The number of bytes of a basic header, told by its first byte.
-/
def basicHeaderLen (b : UInt8) : Nat :=
  match b.toNat % 64 with
  | 0 => 2
  | 1 => 3
  | _ => 1

/--
The next basic header has begun to arrive, but is not complete.
-/
def Torn (s : RtmpSessionBase) : Prop :=
  s.fmtReady = false
    ∧ ∃ b buffer, s.recvBuffer = b :: buffer ∧ buffer.length + 1 < basicHeaderLen b

theorem basicHeaderLen_eq_one {b : UInt8} (hcsid : 2 ≤ b.toNat % 64) : basicHeaderLen b = 1 := by
  unfold basicHeaderLen
  split
  . omega
  . omega
  . rfl

theorem Fits.not_torn {s : RtmpSessionBase} (h : s.Fits) : ¬ s.Torn := by
  rintro ⟨hready, b, buffer, hbuffer, hlen⟩
  rcases h with h | h
  . rw [hready] at h
    cases h
  . have hcsid := h b (by rw [hbuffer]; rfl)
    rw [basicHeaderLen_eq_one hcsid] at hlen
    omega

theorem readFmtCsid_of_le {s : RtmpSessionBase} {b : UInt8} {buffer : List UInt8}
    (hbuffer : s.recvBuffer = b :: buffer) (hlen : basicHeaderLen b ≤ buffer.length + 1)
    : ∃ t : RtmpSessionBase, t.recvBuffer.length ≤ buffer.length
      ∧ ∀ x, (s.feed x).readFmtCsid = (.ok, t.feed x) := by
  have hfeed (x : List UInt8) : (s.feed x).recvBuffer = b :: (buffer ++ x) := by
    unfold feed
    rw [hbuffer]
    rfl
  unfold readFmtCsid
  simp only [hfeed]
  unfold basicHeaderLen at hlen
  split at hlen
  . next h0 =>
    rcases buffer with _ | ⟨b1, buffer⟩
    . simp at hlen
    . refine ⟨{ s with fmt := b.toNat / 64, csid := 64 + b1.toNat, recvBuffer := buffer },
        Nat.le_succ _, ?_⟩
      intro x
      rw [h0]
      rfl
  . next h1 =>
    rcases buffer with _ | ⟨b1, _ | ⟨b2, buffer⟩⟩
    . simp at hlen
    . simp at hlen
    . refine ⟨{ s with fmt := b.toNat / 64, csid := 64 + b1.toNat + b2.toNat, recvBuffer := buffer },
        Nat.le_trans (Nat.le_succ _) (Nat.le_succ _), ?_⟩
      intro x
      rw [h1]
      rfl
  . next h0 h1 =>
    refine ⟨{ s with fmt := b.toNat / 64, csid := b.toNat % 64, recvBuffer := buffer },
      Nat.le_refl _, ?_⟩
    intro x
    split
    . next h _ => exact absurd h h0
    . next h _ => exact absurd h h0
    . next h _ => exact absurd h h1
    . next h _ => exact absurd h h1
    . rfl

theorem readChunkStream_cases {s : RtmpSessionBase} (h : ¬ s.Torn)
    : (s.fmtReady = false ∧ s.recvBuffer = [] ∧ s.readChunkStream = (.needReadMore, s))
      ∨ (s.fmtReady = true ∨ s.recvBuffer ≠ []) ∧ ∃ s' : RtmpSessionBase, s'.fmtReady = true
        ∧ 2 * s'.recvBuffer.length < 2 * s.recvBuffer.length + s.fmtReady.toNat
        ∧ ∀ x, (s.feed x).readChunkStream = (s'.feed x).readMessage := by
  cases hready : s.fmtReady with
  | true =>
    refine .inr ⟨.inl rfl, s, hready, by simp, ?_⟩
    intro x
    simp [readChunkStream, feed, hready]
  | false =>
    cases hbuffer : s.recvBuffer with
    | nil =>
      refine .inl ⟨rfl, rfl, ?_⟩
      simp [readChunkStream, hready, readFmtCsid, hbuffer]
    | cons b buffer =>
      have hlen : basicHeaderLen b ≤ buffer.length + 1 := by
        apply Nat.le_of_not_lt
        intro hlt
        exact h ⟨hready, b, buffer, hbuffer, hlt⟩
      rcases readFmtCsid_of_le hbuffer hlen with ⟨t, ht, hread⟩
      refine .inr ⟨.inr (List.cons_ne_nil _ _), { t with fmtReady := true }, rfl, ?_, ?_⟩
      . simp only [List.length_cons, Bool.toNat_false]
        omega
      . intro x
        have hready' : (s.feed x).fmtReady = false := hready
        unfold readChunkStream
        rw [hready', if_neg Bool.false_ne_true, hread]
        rfl

theorem Fits.feed {s : RtmpSessionBase} (h : s.Fits)
    (hbegun : s.fmtReady = true ∨ s.recvBuffer ≠ []) (x : List UInt8) : (s.feed x).Fits := by
  rcases h with hready | hhead
  . exact .inl hready
  . rcases hbegun with hready | hne
    . exact .inl hready
    . right
      intro b hb
      apply hhead b
      cases hbuffer : s.recvBuffer with
      | nil => exact absurd hbuffer hne
      | cons b' buffer => simpa [RtmpSessionBase.feed, hbuffer] using hb

theorem readChunkStream_feed {s s' : RtmpSessionBase} {ret : Ret} (hf : ¬ s.Torn) (x : List UInt8)
    (h : s.readChunkStream = (ret, s')) (hret : ret ≠ .needReadMore)
    : (s.feed x).readChunkStream = (ret, s'.feed x) := by
  rcases readChunkStream_cases hf with ⟨_, _, hshort⟩ | ⟨_, t, _, _, hread⟩
  . rw [hshort, Prod.mk.injEq] at h
    exact absurd h.1.symm hret
  . have h0 := hread []
    rw [feed_nil, feed_nil, h] at h0
    rw [hread x, readMessage_feed x h0.symm hret]

theorem readChunkStream_needReadMore {s s' : RtmpSessionBase} (hf : ¬ s.Torn) (x : List UInt8)
    (h : s.readChunkStream = (.needReadMore, s'))
    : (s'.feed x).readChunkStream = (s.feed x).readChunkStream
      ∧ (s' = s ∨ s'.fmtReady = true ∧ (s.fmtReady = true ∨ s.recvBuffer ≠ [])) := by
  rcases readChunkStream_cases hf with ⟨_, _, hshort⟩ | ⟨hbegun, t, hready, _, hread⟩
  . rw [hshort, Prod.mk.injEq] at h
    rw [← h.2]
    exact ⟨rfl, .inl rfl⟩
  . have h0 := hread []
    rw [feed_nil, feed_nil, h] at h0
    have hmore := readMessage_needReadMore x h0.symm
    have hready' : (s'.feed x).fmtReady = true := hmore.2.trans hready
    refine ⟨?_, .inr ⟨hready', hbegun⟩⟩
    rw [hread x, ← hmore.1, readChunkStream, if_pos hready']

theorem readMessage_fmtReady {s s' : RtmpSessionBase} (h : s.readMessage = (.ok, s'))
    : s'.fmtReady = false := by
  rcases hread : s.currentChunkStream.readChunk s.fmt s.csid s.recvBuffer with ⟨ret, cs, buffer⟩
  rw [readMessage_eq hread, Prod.mk.injEq] at h
  simp [← h.2, h.1]

theorem readFmtCsid_length_lt {s s' : RtmpSessionBase} (h : s.readFmtCsid = (.ok, s'))
    : s'.recvBuffer.length < s.recvBuffer.length := by
  simp only [readFmtCsid] at h
  split at h
  . simp at h
  . next b buffer hbuffer =>
    split at h
    all_goals
      simp only [Prod.mk.injEq, reduceCtorEq, false_and, true_and] at h
      try
        simp only [← h, hbuffer, List.length_cons]
        omega

theorem readChunkStream_rank_lt {s s' : RtmpSessionBase} (h : s.readChunkStream = (.ok, s'))
    : s'.fmtReady = false
      ∧ 2 * s'.recvBuffer.length < 2 * s.recvBuffer.length + s.fmtReady.toNat := by
  simp only [readChunkStream] at h
  split at h
  . next hready =>
    have := readMessage_length_le h
    refine ⟨readMessage_fmtReady h, ?_⟩
    simp only [hready, Bool.toNat_true]
    omega
  . split at h
    . next t hfmt =>
      have := readFmtCsid_length_lt hfmt
      have := readMessage_length_le h
      simp only at this
      refine ⟨readMessage_fmtReady h, ?_⟩
      omega
    . next hne => exact absurd h (hne _)

theorem readChunkStream_frame (s : RtmpSessionBase)
    : s.readChunkStream.2.chunkSize = s.chunkSize ∧ s.readChunkStream.2.req = s.req
      ∧ s.readChunkStream.2.clientPhase = s.clientPhase := by
  have hmessage (s : RtmpSessionBase)
      : s.readMessage.2.chunkSize = s.chunkSize ∧ s.readMessage.2.req = s.req
        ∧ s.readMessage.2.clientPhase = s.clientPhase := by
    simp only [readMessage]
    split
    . exact ⟨rfl, rfl, rfl⟩
    . exact ⟨rfl, rfl, rfl⟩
  have hfmt : s.readFmtCsid.2.chunkSize = s.chunkSize ∧ s.readFmtCsid.2.req = s.req
      ∧ s.readFmtCsid.2.clientPhase = s.clientPhase := by
    simp only [readFmtCsid]
    repeat' split
    all_goals exact ⟨rfl, rfl, rfl⟩
  simp only [readChunkStream]
  split
  . exact hmessage s
  . split
    . next t ht =>
      rw [ht] at hfmt
      simp only [hmessage]
      exact hfmt
    . exact hfmt

/--
What a caller of `ReadChunkStream` does with a chunk stream that became ready. It can neither see nor
change the bytes that are still to be read.
-/
structure Handler (ε : Type) where
  handle : RtmpSessionBase → ChunkStream → Incremental.Result RtmpSessionBase ε
  handle_feed : ∀ s cs x,
    handle (s.feed x) cs = ((handle s cs).1, (handle s cs).2.map fun s' => s'.feed x)
  handle_frame : ∀ s cs s', (handle s cs).2 = some s' →
    s'.recvBuffer = s.recvBuffer ∧ s'.fmtReady = s.fmtReady

/--
What follows on a successful `ReadChunkStream`.
-/
def dispatch {ε : Type} (h : Handler ε) (s : RtmpSessionBase)
    : Incremental.Step RtmpSessionBase ε :=
  match s.csPtr with
  | none => .next s []
  | some cs =>
    if cs.isReady then
      match h.handle s cs with
      | (out, some s) => .next s out
      | (out, none) => .fail out
    else
      .next s []

/--
One turn of the loop around `ReadChunkStream`.
-/
def receive {ε : Type} (h : Handler ε) (s : RtmpSessionBase)
    : Incremental.Step RtmpSessionBase ε :=
  match s.readChunkStream with
  | (.needReadMore, s) => .stall s
  | (.error, _) => .fail []
  | (.ok, s) => dispatch h s

section ChunkReader

variable {ε : Type} (h : Handler ε)

theorem dispatch_ne_stall (s s' : RtmpSessionBase) : dispatch h s ≠ .stall s' := by
  simp only [dispatch]
  repeat' split
  all_goals simp

theorem dispatch_next {s s' : RtmpSessionBase} {out : List ε} (hnext : dispatch h s = .next s' out)
    : s'.recvBuffer = s.recvBuffer ∧ s'.fmtReady = s.fmtReady := by
  simp only [dispatch] at hnext
  split at hnext
  . simp only [Incremental.Step.next.injEq] at hnext
    simp [hnext.1]
  . next cs _ =>
    split at hnext
    . split at hnext
      . next out' t hhandle =>
        simp only [Incremental.Step.next.injEq] at hnext
        rw [← hnext.1]
        exact h.handle_frame s cs t (by rw [hhandle])
      . simp at hnext
    . simp only [Incremental.Step.next.injEq] at hnext
      simp [hnext.1]

theorem dispatch_feed (s : RtmpSessionBase) (x : List UInt8)
    : (∀ s' out, dispatch h s = .next s' out → dispatch h (s.feed x) = .next (s'.feed x) out)
      ∧ ∀ out, dispatch h s = .fail out → dispatch h (s.feed x) = .fail out := by
  have hptr : (s.feed x).csPtr = s.csPtr := rfl
  rcases hcs : s.csPtr with _ | cs
  . simp [dispatch, hptr, hcs]
  . cases hready : cs.isReady with
    | false => simp [dispatch, hptr, hcs, hready]
    | true =>
      rcases hhandle : h.handle s cs with ⟨out, _ | t⟩
      . simp [dispatch, hptr, hcs, hready, hhandle, h.handle_feed]
      . simp [dispatch, hptr, hcs, hready, hhandle, h.handle_feed]

theorem receive_stall_iff {s s' : RtmpSessionBase}
    : receive h s = .stall s' ↔ s.readChunkStream = (.needReadMore, s') := by
  simp only [receive]
  split
  . next hread => simp [hread]
  . next hread => simp [hread]
  . next t hread => simp [hread, dispatch_ne_stall h t s']

theorem receive_stall_feed {s s' : RtmpSessionBase} (ht : ¬ s.Torn) (x : List UInt8)
    (hstep : receive h s = .stall s') : receive h (s'.feed x) = receive h (s.feed x) := by
  have := readChunkStream_needReadMore ht x ((receive_stall_iff h).mp hstep)
  unfold receive
  rw [this.1]

theorem receive_next_feed {s s' : RtmpSessionBase} {out : List ε} (ht : ¬ s.Torn) (x : List UInt8)
    (hstep : receive h s = .next s' out) : receive h (s.feed x) = .next (s'.feed x) out := by
  unfold receive at hstep ⊢
  split at hstep
  . cases hstep
  . cases hstep
  . next t hread =>
    rw [readChunkStream_feed ht x hread (by simp)]
    exact (dispatch_feed h t x).1 s' out hstep

theorem receive_fail_feed {s : RtmpSessionBase} {out : List ε} (ht : ¬ s.Torn) (x : List UInt8)
    (hstep : receive h s = .fail out) : receive h (s.feed x) = .fail out := by
  unfold receive at hstep ⊢
  split at hstep
  . cases hstep
  . next hread =>
    rw [readChunkStream_feed ht x hread (by simp)]
    exact hstep
  . next t hread =>
    rw [readChunkStream_feed ht x hread (by simp)]
    exact (dispatch_feed h t x).2 out hstep

/--
The loop around `ReadChunkStream`, which is indifferent to how the received bytes are cut as long as
no basic header is longer than one byte.
-/
def chunkReader : Incremental.Reader RtmpSessionBase UInt8 ε where
  feed := feed
  step := receive h
  rank s := 2 * s.recvBuffer.length + s.fmtReady.toNat
  fits := Fits
  feed_nil := feed_nil
  feed_append := feed_append
  rank_lt s s' out hstep := by
    simp only [receive] at hstep
    split at hstep
    . simp at hstep
    . simp at hstep
    . next t hread =>
      have hframe := dispatch_next h hstep
      have hlt := readChunkStream_rank_lt hread
      rw [hframe.1, hframe.2, hlt.1]
      exact hlt.2
  step_stall s s' x hf hstep := receive_stall_feed h hf.not_torn x hstep
  step_next s s' out x hf hstep := receive_next_feed h hf.not_torn x hstep
  step_fail s out x hf hstep := receive_fail_feed h hf.not_torn x hstep
  fits_of_feed s x hf := by
    rcases hf with hready | hhead
    . exact .inl hready
    . right
      intro b hb
      apply hhead b
      cases hbuffer : s.recvBuffer with
      | nil => simp [hbuffer] at hb
      | cons b' buffer => simpa [feed, hbuffer] using hb
  fits_stall s s' x hf hstep := by
    have hread := readChunkStream_needReadMore hf.not_torn x ((receive_stall_iff h).mp hstep)
    rcases hread.2 with heq | ⟨hready, hbegun⟩
    . rw [heq]
    . exact iff_of_true (.inl hready) (hf.feed hbegun x)
  fits_next s s' out x hf hstep := by
    rcases readChunkStream_cases hf.not_torn with ⟨_, _, hshort⟩ | ⟨hbegun, _⟩
    . simp [(receive_stall_iff h).mpr hshort] at hstep
    . exact hf.feed hbegun x
  fits_fail s out x hf hstep := by
    rcases readChunkStream_cases hf.not_torn with ⟨_, _, hshort⟩ | ⟨hbegun, _⟩
    . simp [(receive_stall_iff h).mpr hshort] at hstep
    . exact hf.feed hbegun x

/--
Only a basic header that is read before it is complete makes the cuts matter.
-/
theorem lawful_of_not_torn {s : RtmpSessionBase} (ht : ¬ s.Torn) : (chunkReader h).Lawful s where
  stall := fun _ x hstep => receive_stall_feed h ht x hstep
  next := fun _ _ x hstep => receive_next_feed h ht x hstep
  fail := fun _ x hstep => receive_fail_feed h ht x hstep

theorem drain_forall {P : ε → Prop} (hhandle : ∀ s cs, ∀ e ∈ (h.handle s cs).1, P e)
    (s : RtmpSessionBase) : ∀ e ∈ ((chunkReader h).drain s).1, P e := by
  have hdispatch (s : RtmpSessionBase) (out : List ε)
      (hout : (∃ s', dispatch h s = .next s' out) ∨ dispatch h s = .fail out)
      : ∀ e ∈ out, P e := by
    simp only [dispatch] at hout
    split at hout
    . simp_all
    . next cs _ =>
      have hcs := hhandle s cs
      split at hout
      . split at hout
        . next heq =>
          rw [heq] at hcs
          simp_all
        . next heq =>
          rw [heq] at hcs
          simp_all
      . simp_all
  apply Incremental.Reader.drain_forall
  . intro s s' out hstep
    change receive h s = _ at hstep
    simp only [receive] at hstep
    split at hstep
    . simp at hstep
    . simp at hstep
    . exact hdispatch _ out (.inl ⟨s', hstep⟩)
  . intro s out hstep
    change receive h s = _ at hstep
    simp only [receive] at hstep
    split at hstep
    . simp at hstep
    . simp only [Incremental.Step.fail.injEq] at hstep
      simp [← hstep]
    . exact hdispatch _ out (.inr hstep)

end ChunkReader

end RtmpSessionBase

end Rtmp
