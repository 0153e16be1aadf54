import CppStreamer.Basic.Cuts
import CppStreamer.Net.Http.HttpSession
import CppStreamer.Net.Http.WsReceiver

/-!
This module contains the way from the header of an upgrade to the frames behind it: what an endpoint hands over to
`HandleFrame` of the bytes it reads, and when all frames are handled with it.
-/

open Incremental Checked Cuts

namespace WsFrame

/--
Where the frames start and end in a stream, of which `bytes` is what begins at `start`.
-/
def extents (start : Nat) (bytes : List UInt8) : List (Nat × Nat) :=
  go bytes.length start bytes
where
  go : Nat → Nat → List UInt8 → List (Nat × Nat)
    | 0, _, _ => []
    | fuel + 1, start, bytes =>
      match frameAt bytes with
      | none => []
      | some (_, rest) =>
        (start, start + (bytes.length - rest.length)) :: go fuel (start + (bytes.length - rest.length)) rest

section Extents

variable {start : Nat} {bytes rest : List UInt8} {frame : WsFrame}

theorem extents.go_eq_go {n m : Nat} (hn : bytes.length ≤ n) (hm : bytes.length ≤ m)
    : go n start bytes = go m start bytes := by
  have hnil (n start : Nat) : go n start [] = [] := by
    cases n
    all_goals rfl
  induction n generalizing m start bytes with
  | zero =>
    obtain rfl : bytes = [] := List.eq_nil_of_length_eq_zero (by omega)
    rw [hnil, hnil]
  | succ n ih =>
    cases m with
    | zero =>
      obtain rfl : bytes = [] := List.eq_nil_of_length_eq_zero (by omega)
      rw [hnil, hnil]
    | succ m =>
      unfold go
      cases hframe : frameAt bytes with
      | none => rfl
      | some result =>
        have := @frameAt_length bytes result.2 result.1 hframe
        have hrest (start : Nat) : go n start result.2 = go m start result.2 := ih (by omega) (by omega)
        simp only [hrest]

theorem extents_none (h : frameAt bytes = none) : extents start bytes = [] := by
  unfold extents extents.go
  split
  . rfl
  . rw [h]

theorem extents_some (h : frameAt bytes = some (frame, rest))
    : extents start bytes
        = (start, start + (bytes.length - rest.length)) :: extents (start + (bytes.length - rest.length)) rest := by
  have hlen := frameAt_length h
  rw [extents, extents.go_eq_go (Nat.le_refl _) (Nat.le_succ _), extents.go, h]
  simp only
  rw [extents, extents.go_eq_go (by omega) (Nat.le_refl _)]

theorem extents_eq_nil_iff : extents start bytes = [] ↔ frameAt bytes = none := by
  constructor
  . intro hnil
    cases h : frameAt bytes with
    | none => rfl
    | some result =>
      rw [@extents_some start bytes result.2 result.1 h] at hnil
      cases hnil
  . exact extents_none

theorem drain_eq_nil_iff : (frameReader.drain bytes).1 = [] ↔ frameAt bytes = none := by
  cases h : frameAt bytes with
  | none =>
    rw [frameReader.drain_stall (WsReceiver.step_none h)]
    exact iff_of_true rfl rfl
  | some result =>
    rw [frameReader.drain_next (@WsReceiver.step_some bytes result.2 result.1 h)]
    apply iff_of_false
    . apply List.cons_ne_nil
    . apply Option.some_ne_none

theorem head_extents : ∀ e ∈ (extents start bytes).head?, e.1 = start := by
  intro e he
  cases h : frameAt bytes with
  | none =>
    rw [extents_none h] at he
    cases he
  | some result =>
    rw [@extents_some start bytes result.2 result.1 h] at he
    cases he
    rfl

/--
The frames of a stream stand where they stood before more of it arrived.
-/
theorem extents_append {frames : List WsFrame} (hdrain : frameReader.drain bytes = (frames, some rest))
    (x : List UInt8)
    : rest.length ≤ bytes.length
      ∧ extents start (bytes ++ x)
        = extents start bytes ++ extents (start + (bytes.length - rest.length)) (rest ++ x) := by
  induction hn : bytes.length using Nat.strongRecOn generalizing start bytes frames with
  | ind n ih =>
    cases h : frameAt bytes with
    | none =>
      rw [frameReader.drain_stall (WsReceiver.step_none h)] at hdrain
      cases hdrain
      rw [extents_none h, hn, Nat.sub_self]
      exact ⟨Nat.le_refl _, rfl⟩
    | some result =>
      obtain ⟨frame, rest'⟩ := result
      have hlen := frameAt_length h
      have happend := @extents_some start _ _ _ (frameAt_append h x)
      rw [frameReader.drain_next (WsReceiver.step_some h), Result.andThen_some, Prod.mk.injEq] at hdrain
      obtain ⟨hle, hrest⟩ := @ih rest'.length (by omega) (start + (bytes.length - rest'.length)) rest' _
        (Prod.ext rfl hdrain.right) rfl
      have hstep : (bytes ++ x).length - (rest' ++ x).length = bytes.length - rest'.length := by
        rw [List.length_append, List.length_append]
        omega
      have hstop : start + (bytes.length - rest'.length) + (rest'.length - rest.length)
          = start + (n - rest.length) := by
        omega
      rw [happend, extents_some h, hstep, hrest, hstop]
      exact ⟨by omega, rfl⟩

end Extents

end WsFrame

namespace WsReceiver

open WsFrame

/--
Where the frames stand that `handleFrames` takes, if `stop` bytes have arrived by the end of the data.
-/
def taken (nowMs : Int) : Nat → WsReceiver → Nat → List UInt8 → List (Nat × Nat)
  | 0, _, _, _ => []
  | fuel + 1, r, stop, data =>
    match (r.handleOne nowMs data).value with
    | (none, _) => []
    | (some _, r') =>
      (stop - (r.session.frame.buffer ++ data).length, stop - r'.session.frame.buffer.length)
        :: if 0 < r'.session.frame.buffer.length then taken nowMs fuel r' stop [] else []

/--
The same for reads one after the other.
-/
def runTaken (r : WsReceiver) : List (Int × Nat × List UInt8) → List (Nat × Nat)
  | [] => []
  | (nowMs, stop, data) :: reads =>
    taken nowMs (r.session.frame.buffer.length + data.length + 1) r stop data
      ++ (r.handleFrame nowMs data).value.2.runTaken reads

section Taken

theorem taken_eq (nowMs : Int) (fuel stop : Nat)
    : ∀ {r : WsReceiver} {data : List UInt8}, r.Inv → (r.session.frame.buffer ++ data).length < fuel →
        r.room.Admits data → frameReader.Safe (r.session.frame.buffer ++ data) →
        (r.session.frame.buffer ++ data).length ≤ stop →
        taken nowMs fuel r stop data
          = extents (stop - (r.session.frame.buffer ++ data).length) (r.session.frame.buffer ++ data) := by
  induction fuel with
  | zero =>
    intro r data _ hlt
    omega
  | succ fuel ih =>
    intro r data hinv hlt hadmits hsafe hstop
    have hturns := (handleOne_spec nowMs data hinv).right hadmits hsafe.fits
    rw [taken]
    generalize r.session.frame.buffer ++ data = bytes at hlt hsafe hstop hturns ⊢
    generalize (r.handleOne nowMs data).value = turn at hturns ⊢
    obtain ⟨callbacks, r'⟩ := turn
    rcases hturns with ⟨hnone, hcallbacks, -⟩ | ⟨frame, rest, hframe, hcallbacks, hinv', hrest, -, -⟩
    . simp only at hcallbacks
      subst hcallbacks
      rw [extents_none hnone]
    . simp only at hcallbacks hinv' hrest
      subst hcallbacks
      have hlen := frameAt_length hframe
      have hend : stop - bytes.length + (bytes.length - rest.length) = stop - rest.length := by
        omega
      simp only
      rw [extents_some hframe, hend, hrest]
      congr 1
      by_cases hempty : 0 < rest.length
      . have hadmits' : r'.room.Admits [] := fun hgrows => absurd rfl hgrows.left
        have hnext := @ih r' [] hinv'
        rw [List.append_nil, hrest] at hnext
        rw [if_pos hempty]
        exact hnext (by omega) hadmits' (hsafe.of_next (step_some hframe)) (by omega)
      . obtain rfl : rest = [] := List.eq_nil_of_length_eq_zero (by omega)
        rw [if_neg hempty, extents_none rfl]

theorem runTaken_placed (reads : List (Int × List UInt8))
    : ∀ {r : WsReceiver} {pos : Nat}, r.Inv → (r.run reads).Passes WsCheck.Holds →
        frameReader.Drains r.session.frame.buffer [] r.session.frame.buffer →
        r.session.frame.buffer.length ≤ pos →
        r.runTaken (placed pos reads)
          = extents (pos - r.session.frame.buffer.length) (r.session.frame.buffer ++ stream reads) := by
  induction reads with
  | nil =>
    intro r pos _ _ hquiet _
    rw [placed, runTaken, stream_nil, List.append_nil, extents_none (drain_eq_nil_iff.mp (by rw [hquiet.2]))]
  | cons read reads ih =>
    intro r pos hinv hpasses hquiet hpos
    obtain ⟨nowMs, data⟩ := read
    have hlt : (r.session.frame.buffer ++ data).length < r.session.frame.buffer.length + data.length + 1 := by
      rw [List.length_append]
      omega
    have hstop : (r.session.frame.buffer ++ data).length ≤ pos + data.length := by
      rw [List.length_append]
      omega
    have hstart : pos + data.length - (r.session.frame.buffer ++ data).length
        = pos - r.session.frame.buffer.length := by
      rw [List.length_append]
      omega
    obtain ⟨hiff, hhandles⟩ := handleFrames_spec nowMs _ hinv hlt
    rw [run, handleFrame, passes_bind, hiff] at hpasses
    obtain ⟨⟨hadmits, hsafe⟩, hpasses⟩ := hpasses
    have htaken := taken_eq nowMs _ (pos + data.length) hinv hlt hadmits hsafe hstop
    have hhandles := hhandles hadmits hsafe
    rw [placed, runTaken, htaken, handleFrame, hstart, stream_cons, ← List.append_assoc]
    generalize r.session.frame.buffer ++ data = bytes at hsafe hstop hstart hhandles ⊢
    generalize (handleFrames nowMs _ r data).value = result at hpasses hhandles ⊢
    obtain ⟨callbacks, r'⟩ := result
    obtain ⟨frames, rest, hdrain, -, hinv', hrest, -, -⟩ := hhandles
    simp only at hinv' hrest hpasses ⊢
    obtain ⟨hle, happend⟩ := @extents_append (pos - r.session.frame.buffer.length) _ _ _ hdrain (stream reads)
    have hquiet' := hsafe.drains_rest hdrain
    rw [← hrest] at hquiet'
    rw [happend, ih hinv' (passes_bind.mp hpasses).left hquiet' (by rw [hrest]; omega), hrest]
    congr 2
    omega

end Taken

/--
Each frame in `body`, which begins at `start`, is handled once and in order. Frames are told apart by where they
stand.
-/
structure HandlesFrames (handed : List (Int × Nat × List UInt8)) (start : Nat) (body : List UInt8) : Prop where
  passes : (({} : WsReceiver).run (cuts handed)).Passes WsCheck.Holds
  extents : ({} : WsReceiver).runTaken handed = WsFrame.extents start body
  callbacks : (({} : WsReceiver).run (cuts handed)).value.1
    = (({} : WebSocketSessionBase).messages.receiveAll (frameReader.drain body).1).1

/--
The parser makes no fault on the bytes of these reads.
-/
def Parses (reads : List (Int × List UInt8)) : Prop :=
  frameReader.Safe (stream reads) ∧ ReadsFit (.new extraLen) [] (reads.map Prod.snd)

/--
The reads behind a header begin with the rest of the one in which it ends, and are held back as long as there are
less than `contentLength` bytes. What comes first of them is not handed over.
-/
def HandsOver (contentLength : Int) (reads : List (Int × List UInt8)) : Prop :=
  Parses (gather contentLength [] reads).tail
    ∧ (contentLength ≤ 0 ∧ first reads = []
      ∨ frameAt (stream reads) = none ∧ frameAt (stream (gather contentLength [] reads).tail) = none)

section HandsOver

variable {contentLength : Int} {reads : List (Int × List UInt8)} {start : Nat}

theorem handlesFrames_of_parses {fed : List (Int × List UInt8)} {pos : Nat} (hparses : Parses fed)
    : (({} : WsReceiver).run (cuts (placed pos fed))).Passes WsCheck.Holds
      ∧ ({} : WsReceiver).runTaken (placed pos fed) = WsFrame.extents pos (stream fed)
      ∧ (({} : WsReceiver).run (cuts (placed pos fed))).value.1
        = (({} : WebSocketSessionBase).messages.receiveAll (frameReader.drain (stream fed)).1).1 := by
  have hpasses := (run_passes_iff fed).mpr hparses
  have htaken := runTaken_placed fed inv_new hpasses drains_nil (Nat.zero_le pos)
  obtain ⟨frames, rest, hdrain, -, hmessages⟩ := (run_spec fed inv_new drains_nil).right hpasses
  rw [cuts_placed]
  refine ⟨hpasses, htaken, ?_⟩
  change frameReader.drain (stream fed) = _ at hdrain
  rw [hdrain, hmessages]

theorem parses_of_passes {fed : List (Int × List UInt8)} {pos : Nat}
    (hpasses : (({} : WsReceiver).run (cuts (placed pos fed))).Passes WsCheck.Holds) : Parses fed := by
  rw [cuts_placed] at hpasses
  exact (run_passes_iff fed).mp hpasses

theorem first_gather_ne_nil (hlen : 0 < contentLength) (hne : gather contentLength [] reads ≠ [])
    : first (gather contentLength [] reads) ≠ [] := by
  have hle := @le_length_of_mem_gather _ _ contentLength [] reads
  cases hgather : gather contentLength [] reads with
  | nil => exact absurd hgather hne
  | cons cut cuts =>
    intro hnil
    have := hle cut (by rw [hgather]; exact List.mem_cons_self)
    rw [first] at hnil
    rw [hnil, List.length_nil] at this
    omega

theorem handlesFrames_iff
    : HandlesFrames (placed (start + (first (gather contentLength [] reads)).length)
          (gather contentLength [] reads).tail) start (stream reads)
        ↔ HandsOver contentLength reads := by
  unfold HandsOver
  constructor
  . intro h
    have hparses := parses_of_passes h.passes
    obtain ⟨-, htaken, -⟩ := @handlesFrames_of_parses _ (start + (first (gather contentLength [] reads)).length) hparses
    have hextents := htaken.symm.trans h.extents
    refine ⟨hparses, ?_⟩
    by_cases hnone : frameAt (stream reads) = none
    . rw [extents_none hnone, extents_eq_nil_iff] at hextents
      exact Or.inr ⟨hnone, hextents⟩
    . apply Or.inl
      have hsome : extents start (stream reads) ≠ [] := fun hnil => hnone (extents_eq_nil_iff.mp hnil)
      obtain ⟨e, tail, hcons⟩ := List.exists_cons_of_ne_nil hsome
      have hstart := @head_extents start (stream reads) e (by rw [hcons]; rfl)
      have hpos := @head_extents _ _ e (by rw [hextents, hcons]; rfl)
      have hfirst : first (gather contentLength [] reads) = [] := by
        apply List.eq_nil_of_length_eq_zero
        omega
      by_cases hlen : contentLength ≤ 0
      . rw [gather_of_nonpos hlen] at hfirst
        exact ⟨hlen, hfirst⟩
      . have hgather : gather contentLength [] reads ≠ [] := by
          intro hnil
          rw [hnil, List.tail_nil, stream_nil, extents_none rfl] at hextents
          exact hsome hextents.symm
        exact absurd hfirst (first_gather_ne_nil (by omega) hgather)
  . rintro ⟨hparses, h⟩
    obtain ⟨hpasses, htaken, hcallbacks⟩ :=
      @handlesFrames_of_parses _ (start + (first (gather contentLength [] reads)).length) hparses
    rcases h with ⟨hlen, hfirst⟩ | ⟨hnone, hfed⟩
    . rw [gather_of_nonpos hlen] at hpasses htaken hcallbacks ⊢
      have hall := stream_eq_first_append reads
      rw [hfirst, List.nil_append] at hall
      rw [hfirst, List.length_nil, Nat.add_zero] at hpasses htaken hcallbacks ⊢
      rw [← hall] at htaken hcallbacks
      exact ⟨hpasses, htaken, hcallbacks⟩
    . refine ⟨hpasses, ?_, ?_⟩
      . rw [htaken, extents_none hfed, extents_none hnone]
      . rw [hcallbacks, drain_eq_nil_iff.mpr hfed, drain_eq_nil_iff.mpr hnone]

end HandsOver

end WsReceiver

/--
A header that ends with its first blank line, what follows it, and the reads they arrive in.
-/
structure Upgrade (accepts : List UInt8 → Prop) where
  header : List UInt8
  body : List UInt8
  reads : List (Int × List UInt8)
  accepted : accepts header
  blankLine : StringEx.find (HttpSession.crlf ++ HttpSession.crlf)
    (header ++ (HttpSession.crlf ++ HttpSession.crlf ++ body)) = some header.length
  reads_ne : ∀ read ∈ reads, read.2 ≠ []
  stream_eq : stream reads = header ++ (HttpSession.crlf ++ HttpSession.crlf ++ body)

namespace Upgrade

variable {accepts : List UInt8 → Prop}

def bodyStart (u : Upgrade accepts) : Nat := u.header.length + 4

/--
What there is of the reads behind the header.
-/
def behindHeader (u : Upgrade accepts) : List (Int × List UInt8) := behind u.bodyStart u.reads

theorem stream_behindHeader (u : Upgrade accepts) : stream u.behindHeader = u.body := by
  rw [behindHeader, stream_behind, u.stream_eq, ← List.append_assoc, List.drop_left']
  simp [bodyStart, HttpSession.crlf]

/--
The blank line is found by the read that ends it.
-/
theorem find_blankLine {buffer data rest : List UInt8} {n : Nat}
    (hfind : StringEx.find (HttpSession.crlf ++ HttpSession.crlf) (buffer ++ data ++ rest) = some n)
    : StringEx.find (HttpSession.crlf ++ HttpSession.crlf) (buffer ++ data)
        = if n + 4 ≤ buffer.length + data.length then some n else none := by
  have hne : HttpSession.crlf ++ HttpSession.crlf ≠ [] := List.cons_ne_nil _ _
  rw [StringEx.find_of_append hne hfind, ← List.length_append]
  rfl

end Upgrade

section Endpoint

variable {σ : Type} (onRead : σ → List UInt8 → Option (Option (List UInt8) × σ))

/--
What an endpoint calls `HandleFrame` with, if `pos` bytes have arrived so far. There are no reads anymore if the
program ends.
-/
def handedOver (s : σ) (pos : Nat) : List (Int × List UInt8) → List (Int × Nat × List UInt8)
  | [] => []
  | (nowMs, data) :: reads =>
    match onRead s data with
    | none => []
    | some (none, s) => handedOver s (pos + data.length) reads
    | some (some bytes, s) => (nowMs, pos + data.length, bytes) :: handedOver s (pos + data.length) reads

end Endpoint
