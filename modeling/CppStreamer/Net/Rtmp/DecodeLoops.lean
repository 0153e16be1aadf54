import CppStreamer.Format.Amf.Bounds

/-!
This module contains the loops over the AMF values of a message, and the messages on which they end.
-/

open ByteStream Scan

namespace Rtmp

open Amf

section Loops

variable (mem : Nat → UInt8) (fuel : Nat)

/--
The body of the loop over the values of a command. What `Decode` returns is ignored.
-/
def decodeTurn (amfVec : List AmfItem) : Scanner (List AmfItem) := do
  let (_, item) ← decodeAt mem fuel
  return amfVec ++ [item]

/--
The body of the loop of `HandleServerCommandMessage`.
-/
def serverCommandTurn : List AmfItem → Scanner (List AmfItem) := decodeTurn mem fuel

/--
The body of the loop of `HandleClientCommandMessage`.
-/
def clientCommandTurn : List AmfItem → Scanner (List AmfItem) := decodeTurn mem fuel

/--
The text that `ReportMetaData` has put together.
-/
structure MetaText where
  isKey : Bool := true
  desc : String := "\x7b"

def MetaText.append (dumpAmf : AmfItem → String) (text : MetaText) (item : AmfItem) : MetaText :=
  match text.isKey, item with
  | true, .string _ | true, .longString _ => { isKey := false, desc := text.desc ++ dumpAmf item ++ ":" }
  | _, _ => { isKey := true, desc := text.desc ++ dumpAmf item }

/--
The body of the loop of `ReportMetaData`.
-/
def reportTurn (dumpAmf : AmfItem → String) (text : MetaText) : Scanner MetaText := do
  let (_, item) ← decodeAt mem fuel
  let text := text.append dumpAmf item
  if 0 < (← .left) ∧ text.isKey then
    let nextAmfType ← .peek mem 1
    if nextAmfType ≠ [0xff] ∧ nextAmfType ≠ [typeObjectEnd] then
      return { text with desc := text.desc ++ "," }
    else
      return text
  else
    return text

end Loops

/--
The loops over the values of a payload end, whatever there is behind it. More calls than there are bytes twice
over are not nested inside of it.
-/
structure LoopsEnd (dumpAmf : AmfItem → String) (payload : List UInt8) (beyond : Nat → UInt8) : Prop where
  serverCommand : Ends payload.length (serverCommandTurn (memory payload beyond) (2 * payload.length + 1)) []
    ⟨0, payload.length⟩
  clientCommand : Ends payload.length (clientCommandTurn (memory payload beyond) (2 * payload.length + 1)) []
    ⟨0, payload.length⟩
  metadata : Ends payload.length (reportTurn (memory payload beyond) (2 * payload.length + 1) dumpAmf) {}
    ⟨0, payload.length⟩

/--
The values that the loops come to have types that `Decode` knows, as far as they are complete and no assertion
fails.
-/
inductive KnownTypes : List UInt8 → Prop where
  | done : KnownTypes []
  | value {data left : List UInt8} {ok : Bool} (h : Complete .value data (some (ok, left)))
      (htype : data.headD 0 ≤ typeUnsupported) (rest : KnownTypes left) : KnownTypes data
  | aborts {data : List UInt8} (h : Complete .value data none) : KnownTypes data
  | incomplete {data : List UInt8} (h : ∀ out, ¬Complete .value data out) : KnownTypes data

section Turns

variable {σ : Type} {mem : Nat → UInt8} {total fuel : Nat} {data : List UInt8}

/--
A turn that decodes a value and neither goes on nor reads behind the bytes otherwise.
-/
def Decodes (mem : Nat → UInt8) (total fuel : Nat) (turn : σ → Scanner σ) : Prop :=
  ∀ s, ∃ f : Bool × AmfItem → Scanner σ, turn s = decodeAt mem fuel >>= f
    ∧ ∀ a data, Holds mem total data → Spec mem total (f a) data fun out => ∃ s', out = some (s', data)

theorem decodes_decodeTurn : Decodes mem total fuel (decodeTurn mem fuel) := by
  intro amfVec
  refine ⟨_, rfl, ?_⟩
  intro a data hholds
  exact .pure hholds ⟨_, rfl⟩

theorem decodes_reportTurn (dumpAmf : AmfItem → String)
    : Decodes mem total fuel (reportTurn mem fuel dumpAmf) := by
  intro text
  refine ⟨_, rfl, ?_⟩
  intro a data hholds
  apply Spec.left
  split
  . next hleft =>
    apply Spec.peek hholds (by omega)
    split
    . exact .pure hholds ⟨_, rfl⟩
    . exact .pure hholds ⟨_, rfl⟩
  . exact .pure hholds ⟨_, rfl⟩

theorem length_lt_of_known {left : List UInt8} {ok : Bool} (h : Complete .value data (some (ok, left)))
    (htype : data.headD 0 ≤ typeUnsupported) : left.length < data.length := by
  cases ok with
  | true => exact h.length_lt
  | false =>
    cases h with
    | refused hrefused => exact absurd hrefused (by simpa using htype)
    | object hfields => exact Nat.lt_succ_of_le (hfields.length_le _ _ rfl)
    | mixedArray hlen hfields =>
      have hle := hfields.length_le _ _ rfl
      rw [List.length_drop] at hle
      rw [List.length_cons]
      omega
    | array hlen hitems =>
      have hle := hitems.length_le _ _ rfl
      rw [List.length_drop] at hle
      rw [List.length_cons]
      omega
    | unknown _ => exact Nat.lt_succ_self _

variable {turn : σ → Scanner σ} {out : Option (Bool × List UInt8)}

theorem Decodes.spec (hturn : Decodes mem total fuel turn) (h : Complete .value data out) (htotal : total < 2 ^ 31)
    (hholds : Holds mem total data) (hfuel : 2 * data.length < fuel) (s : σ)
    : Spec mem total (turn s) data fun
        | none => out = none
        | some (_, left) => ∃ ok, out = some (ok, left) := by
  obtain ⟨f, hbind, hrest⟩ := hturn s
  rw [hbind]
  apply Spec.bind (h.spec htotal hholds fuel)
  . rintro (hnone | hshort)
    . exact hnone
    . omega
  . rintro ⟨ok, item⟩ left hleft hcomes
    obtain ⟨hsafe, hstops, hreturns⟩ := hrest (ok, item) left hleft
    constructor
    . exact hsafe
    . intro hnone
      obtain ⟨s', hs'⟩ := hstops hnone
      cases hs'
    . intro s' c hsome
      obtain ⟨left', hc, hleft', s'', hsame⟩ := hreturns s' c hsome
      cases hsame
      exact ⟨_, hc, hleft', ok, hcomes⟩

theorem Decodes.complete (hturn : Decodes mem total fuel turn) (htotal : total < 2 ^ 31)
    (hholds : Holds mem total data) (hfuel : 2 * data.length < fuel) {s : σ}
    (hsafe : Safe total (turn s) (cursor total data)) : ∃ out, Complete .value data out := by
  obtain ⟨f, hbind, -⟩ := hturn s
  rw [hbind] at hsafe
  exact complete_of_safe htotal .value data hholds ⟨hfuel, (safe_bind.mp hsafe).left⟩

theorem cursor_left_pos : 0 < (cursor total data).left ↔ data ≠ [] := by
  rw [← List.length_pos_iff]
  exact Int.natCast_pos

/--
A turn on a value of a type that is not known changes nothing.
-/
theorem headD_le_of_lt {left : List UInt8} {ok : Bool} (h : Complete .value data (some (ok, left)))
    (hlt : left.length < data.length) : data.headD 0 ≤ typeUnsupported := by
  obtain ⟨type, rest, rfl⟩ := h.value_cons
  by_contra htype
  have hsame := h.of_refused (by simpa using htype)
  cases hsame
  exact Nat.lt_irrefl _ hlt

theorem Decodes.known_of_ends (hturn : Decodes mem total fuel turn) (htotal : total < 2 ^ 31) {s : σ} {c : Cursor}
    (h : Ends total turn s c) (hholds : Holds mem total data) (hc : c = cursor total data)
    (hfuel : 2 * data.length < fuel) : KnownTypes data := by
  induction h generalizing data with
  | done hleft =>
    subst hc
    have hempty : data = [] := by
      by_contra hne
      exact absurd hleft (Int.not_le.mpr (cursor_left_pos.mpr hne))
    rw [hempty]
    exact .done
  | beyond hleft hunsafe =>
    subst hc
    apply KnownTypes.incomplete
    intro out hcomplete
    exact hunsafe (hturn.spec hcomplete htotal hholds hfuel _).safe
  | stops hleft hsafe hnone =>
    subst hc
    obtain ⟨out, hcomplete⟩ := hturn.complete htotal hholds hfuel hsafe
    cases (hturn.spec hcomplete htotal hholds hfuel _).stops hnone
    exact .aborts hcomplete
  | next hleft hsafe hsome hlt rest ih =>
    subst hc
    obtain ⟨out, hcomplete⟩ := hturn.complete htotal hholds hfuel hsafe
    obtain ⟨left, rfl, hheld, ok, rfl⟩ := (hturn.spec hcomplete htotal hholds hfuel _).returns _ _ hsome
    have hshort : left.length < data.length := Int.ofNat_lt.mp hlt
    exact .value hcomplete (headD_le_of_lt hcomplete hshort) (ih hheld rfl (by omega))

theorem Decodes.ends_of_known (hturn : Decodes mem total fuel turn) (htotal : total < 2 ^ 31) (h : KnownTypes data)
    (hholds : Holds mem total data) (hfuel : 2 * data.length < fuel) (s : σ)
    : Ends total turn s (cursor total data) := by
  induction h generalizing s with
  | done => exact .done (Int.le_refl 0)
  | @value data left ok hcomplete htype rest ih =>
    have hspec := hturn.spec hcomplete htotal hholds hfuel s
    have hlt := length_lt_of_known hcomplete htype
    have hpos : 0 < (cursor total data).left := Int.ofNat_lt.mpr (Nat.zero_lt_of_lt hlt)
    cases hresult : (turn s (cursor total data)).2 with
    | none => cases hspec.stops hresult
    | some result =>
      obtain ⟨s', c'⟩ := result
      obtain ⟨left', rfl, hheld, ok', hsame⟩ := hspec.returns s' c' hresult
      cases hsame
      exact .next hpos hspec.safe hresult (Int.ofNat_lt.mpr hlt) (ih hheld (by omega) s')
  | @aborts data hcomplete =>
    have hspec := hturn.spec hcomplete htotal hholds hfuel s
    obtain ⟨type, rest, rfl⟩ := hcomplete.value_cons
    have hpos : 0 < (cursor total (type :: rest)).left := cursor_left_pos.mpr (List.cons_ne_nil _ _)
    cases hresult : (turn s (cursor total (type :: rest))).2 with
    | none => exact .stops hpos hspec.safe hresult
    | some result =>
      obtain ⟨left, hc, hheld, ok, hsame⟩ := hspec.returns result.1 result.2 hresult
      cases hsame
  | @incomplete data hincomplete =>
    by_cases hempty : data = []
    . rw [hempty]
      exact .done (Int.le_refl 0)
    . refine .beyond (cursor_left_pos.mpr hempty) ?_
      intro hsafe
      obtain ⟨out, hcomplete⟩ := hturn.complete htotal hholds hfuel hsafe
      exact hincomplete out hcomplete

theorem Decodes.ends_iff {payload : List UInt8} {beyond : Nat → UInt8} (hlen : payload.length < 2 ^ 31)
    (hturn : Decodes (memory payload beyond) payload.length (2 * payload.length + 1) turn) (s : σ)
    : Ends payload.length turn s ⟨0, payload.length⟩ ↔ KnownTypes payload := by
  have hholds := memory_holds (Nat.le_refl payload.length) beyond
  have hcursor := memory_cursor (Nat.le_refl payload.length)
  rw [List.take_length] at hholds hcursor
  rw [← hcursor]
  constructor
  . intro h
    exact hturn.known_of_ends hlen h hholds rfl (Nat.lt_succ_self _)
  . intro h
    exact hturn.ends_of_known hlen h hholds (Nat.lt_succ_self _) s

end Turns

/--
The loops end if the values that they come to have known types, and only then.
-/
theorem loops_end_iff (dumpAmf : AmfItem → String) (payload : List UInt8) (hlen : payload.length < 2 ^ 31)
    : (∀ beyond, LoopsEnd dumpAmf payload beyond) ↔ KnownTypes payload := by
  constructor
  . intro h
    exact (decodes_decodeTurn.ends_iff hlen []).mp (h fun _ => 0).serverCommand
  . intro h beyond
    constructor
    . exact (decodes_decodeTurn.ends_iff hlen []).mpr h
    . exact (decodes_decodeTurn.ends_iff hlen []).mpr h
    . exact ((decodes_reportTurn dumpAmf).ends_iff hlen {}).mpr h

/--
A null.
-/
theorem loops_end_null : LoopsEnd (fun _ => "") [5] fun _ => 0 := by
  refine (loops_end_iff (fun _ => "") [5] (by decide)).mpr ?_ fun _ => 0
  have hnull : Complete .value [5] (some (true, [])) := @Complete.fixed 5 [] 0 rfl (by decide)
  exact .value hnull (by decide) .done

/--
A byte that is no type.
-/
theorem not_loops_end
    : ¬∀ (dumpAmf : AmfItem → String) (payload : List UInt8) (beyond : Nat → UInt8), payload.length < 2 ^ 31 →
        LoopsEnd dumpAmf payload beyond := by
  intro h
  have hserver := (h (fun _ => "") [14] (fun _ => 0) (by decide)).serverCommand
  cases hserver with
  | done hleft => exact absurd hleft (by decide)
  | beyond hleft hunsafe =>
    apply hunsafe
    have hlog : (serverCommandTurn (memory [14] fun _ => 0) 3 [] ⟨0, 1⟩).1 = [.read 0 1] := rfl
    change ∀ access ∈ (serverCommandTurn (memory [14] fun _ => 0) 3 [] ⟨0, 1⟩).1, access.Within 1
    rw [hlog]
    exact List.forall_mem_singleton.mpr (Nat.le_refl 1)
  | stops hleft hsafe hnone => cases hnone
  | next hleft hsafe hsome hlt rest =>
    cases hsome
    exact absurd hlt (by decide)

end Rtmp
