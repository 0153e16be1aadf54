import CppStreamer.Utils.StringEx
import Mathlib.Logic.Function.Basic

/-!
This module contains the server side of HTTP: how the reads of a connection become requests, and for which
requests the handler is called.
-/

open StringEx

/--
A map has the string that is kept for a key.
-/
abbrev HttpMap := List UInt8 → Option (List UInt8)

structure HttpRequest where
  method : List UInt8 := []
  uri : List UInt8 := []
  params : HttpMap := fun _ => none
  version : List UInt8 := []
  contentBody : Option (List UInt8) := none
  contentLength : Int := 0
  headers : HttpMap := fun _ => none

structure HttpSession where
  headerData : List UInt8 := []
  contentData : List UInt8 := []
  request : HttpRequest := {}
  contentStart : Int := -1
  headerIsReady : Bool := false

namespace HttpSession

def crlf : List UInt8 := [13, 10]

def contentLengthKey : List UInt8 :=
  ascii ['C', 'o', 'n', 't', 'e', 'n', 't', '-', 'L', 'e', 'n', 'g', 't', 'h']

/--
The loop over the items of `GetUriAndParams`.
-/
def insertParams (params : HttpMap) : List (List UInt8) → Option HttpMap
  | [] => some params
  | item :: items =>
    match stringSplit 61 [] item with
    | [key, value] => insertParams (Function.update params key (some value)) items
    | _ => none

def getUriAndParams (input : List UInt8) (params : HttpMap) : Option (List UInt8 × HttpMap) :=
  match find [63] input with
  | none => some (input, params)
  | some pos =>
    (insertParams params (stringSplit 38 [] (input.drop (pos + 1)))).map fun params =>
      (input.take pos, params)

/--
The loop over the lines behind the first one.
-/
def insertHeaders (request : HttpRequest) : List (List UInt8) → Option HttpRequest
  | [] => some request
  | infoLine :: lines =>
    match find [58] infoLine with
    | none => none
    | some pos =>
      match substr infoLine (pos + 2) with
      | none => none
      | some value =>
        let key := infoLine.take pos
        insertHeaders { request with
          contentLength := if key = contentLengthKey then atoi value else request.contentLength
          headers := if (request.headers key).isSome then request.headers
            else Function.update request.headers key (some value) } lines

def parseHeader (request : HttpRequest) (headerStr : List UInt8) : Option HttpRequest :=
  match stringSplit 13 [10] headerStr with
  | [] => none
  | firstLine :: lines =>
    match stringSplit 32 [] firstLine with
    | [method, target, versionInfo] =>
      match getUriAndParams target request.params with
      | none => none
      | some (uri, params) =>
        match find (ascii ['H', 'T', 'T', 'P']) versionInfo with
        | none => none
        | some pos =>
          match substr versionInfo (pos + 5) with
          | none => none
          | some version =>
            insertHeaders { request with
              method := method
              uri := uri
              params := params
              version := version } lines
    | _ => none

/--
`none` for an error or an exception, behind which the session is not used anymore.
-/
def analyzeHeader (s : HttpSession) : Option HttpSession :=
  match find (crlf ++ crlf) s.headerData with
  | none => some { s with headerIsReady := false }
  | some pos =>
    (parseHeader s.request (s.headerData.take pos)).map fun request =>
      { s with
        contentStart := pos + 4
        headerIsReady := true
        request := request }

/--
The part of `HandleRequest` behind the header, with the request that the handler is called for. The
handlers answer with `continue_flag` set, and the sizes are less than 2 ^ 31, which `int` keeps.
-/
def dispatch (getHandle : HttpRequest → Bool) (s : HttpSession) : Option (HttpSession × Option HttpRequest) :=
  if s.request.method = ascii ['O', 'P', 'T', 'I', 'O', 'N', 'S'] then
    some ({ s with headerIsReady := false, headerData := [] }, none)
  else if s.request.method = ascii ['G', 'E', 'T'] then
    if getHandle s.request then some (s, some s.request) else none
  else if s.request.contentLength ≤ s.contentData.length then
    if getHandle s.request then
      let request := { s.request with contentBody := some s.contentData }
      some ({ s with request := request }, some request)
    else
      none
  else
    some (s, none)

def handleRequest (getHandle : HttpRequest → Bool) (s : HttpSession) (data : List UInt8)
    : Option (HttpSession × Option HttpRequest) :=
  if s.headerIsReady then dispatch getHandle { s with contentData := s.contentData ++ data }
  else
    match { s with headerData := s.headerData ++ data }.analyzeHeader with
    | none => none
    | some s =>
      if s.headerIsReady then
        dispatch getHandle { s with
          contentData := s.contentData ++ s.headerData.drop s.contentStart.toNat }
      else
        some (s, none)

/--
The requests that the handlers are called for. The session is closed by an error.
-/
def onReads (getHandle : HttpRequest → Bool) (s : HttpSession) : List (List UInt8) → List HttpRequest
  | [] => []
  | data :: reads =>
    match s.handleRequest getHandle data with
    | none => []
    | some (s, call) => call.toList ++ onReads getHandle s reads

end HttpSession

inductive HttpMethod where
  | get
  | post
  deriving DecidableEq

def HttpMethod.name : HttpMethod → List UInt8
  | get => ascii ['G', 'E', 'T']
  | post => ascii ['P', 'O', 'S', 'T']

/--
A header field, with the white space in front of its value.
-/
structure HttpField where
  name : List UInt8
  gap : List UInt8
  value : List UInt8

/--
A request as its sender means it.
-/
structure HttpMessage where
  method : HttpMethod
  uri : List UInt8
  params : List (List UInt8 × List UInt8) := []
  version : List UInt8
  headers : List HttpField := []
  body : List UInt8 := []

/--
What a handler gets to know of a request: all values of a parameter and of a header field.
-/
structure HttpView where
  method : List UInt8
  uri : List UInt8
  params : List UInt8 → List (List UInt8)
  headers : List UInt8 → List (List UInt8)
  body : List UInt8

/--
A handler reads `content_length_` bytes behind `content_body_`.
-/
def HttpRequest.view (request : HttpRequest) : HttpView where
  method := request.method
  uri := request.uri
  params key := (request.params key).toList
  headers key := (request.headers key).toList
  body := (request.contentBody.getD []).take request.contentLength.toNat

namespace HttpMessage

open HttpSession (crlf contentLengthKey)

def view (m : HttpMessage) : HttpView where
  method := m.method.name
  uri := m.uri
  params key := (m.params.filter (·.1 = key)).map (·.2)
  headers key := (m.headers.filter (·.name = key)).map (·.value)
  body := m.body

def target (m : HttpMessage) : List UInt8 :=
  m.uri ++ if m.params = [] then [] else 63 :: List.intercalate [38] (m.params.map fun p => p.1 ++ 61 :: p.2)

def requestLine (m : HttpMessage) : List UInt8 :=
  m.method.name ++ 32 :: (m.target ++ 32 :: (ascii ['H', 'T', 'T', 'P', '/'] ++ m.version))

def lines (m : HttpMessage) : List (List UInt8) :=
  m.requestLine :: m.headers.map fun h => h.name ++ 58 :: (h.gap ++ h.value)

def headerStr (m : HttpMessage) : List UInt8 := List.intercalate crlf m.lines

def bytes (m : HttpMessage) : List UInt8 := m.headerStr ++ (crlf ++ crlf ++ m.body)

/--
Names of header fields do not depend on the case of letters.
-/
def toLower (c : UInt8) : UInt8 := if 65 ≤ c ∧ c ≤ 90 then c + 32 else c

def IsContentLength (h : HttpField) : Prop := h.name.map toLower = contentLengthKey.map toLower

/--
The separators of the format are not in the parts between them.
-/
structure WellFormed (m : HttpMessage) : Prop where
  uri : ∀ c ∈ m.uri, c ≠ 63 ∧ c ≠ 32 ∧ c ≠ 13
  params : ∀ p ∈ m.params, ∀ c ∈ p.1 ++ p.2, c ≠ 61 ∧ c ≠ 38 ∧ c ≠ 32 ∧ c ≠ 13
  version : ∀ c ∈ m.version, c ≠ 32 ∧ c ≠ 13
  names : ∀ h ∈ m.headers, h.name ≠ [] ∧ ∀ c ∈ h.name, c ≠ 58 ∧ c ≠ 13
  values : ∀ h ∈ m.headers, (∀ c ∈ h.gap, c = 32 ∨ c = 9) ∧ ∀ c ∈ h.value, c ≠ 13
  contentLength : ∀ h ∈ m.headers, IsContentLength h →
    (∀ c ∈ h.value, isDigit c) ∧ decimal h.value = m.body.length
  body : m.method = .get → m.body = []
  post : m.method = .post → ∃ h ∈ m.headers, IsContentLength h

/--
What the parser relies on beyond that.
-/
structure Plain (m : HttpMessage) : Prop where
  gaps : ∀ h ∈ m.headers, h.gap.length = 1
  names : (m.headers.map (·.name)).Nodup
  contentLength : ∀ h ∈ m.headers, IsContentLength h → h.name = contentLengthKey
  keys : (m.params.map (·.1)).Nodup
  values : ∀ p ∈ m.params, p.2 ≠ []

end HttpMessage

/--
A request and the reads it arrives in.
-/
structure HttpArrival where
  message : HttpMessage
  reads : List (List UInt8)
  reads_ne : ∀ data ∈ reads, data ≠ []
  flatten : reads.flatten = message.bytes

namespace HttpSession

/--
The handlers are called for the requests that have been sent on a connection.
-/
def HandlesOnce (getHandle : HttpRequest → Bool) (arrivals : List HttpArrival) : Prop :=
  (onReads getHandle {} (arrivals.flatMap (·.reads))).map HttpRequest.view
    = arrivals.map fun a => a.message.view

/--
There is a handler for a request.
-/
def Registered (getHandle : HttpRequest → Bool) (m : HttpMessage) : Prop :=
  ∀ request : HttpRequest, request.method = m.method.name → request.uri = m.uri →
    getHandle request = true

end HttpSession

namespace HttpSession

section Header

/--
A separator in front of a line is not the end of the header.
-/
theorem find_crlf {c : UInt8} (hc : c ≠ 13) (s : List UInt8)
    : find [13, 10, 13, 10] (13 :: 10 :: c :: s) = (find [13, 10, 13, 10] (c :: s)).map (· + 2) := by
  have hstart : ¬ List.isPrefixOf [13, 10, 13, 10] (13 :: 10 :: c :: s) = true := by
    simp [List.isPrefixOf, hc.symm]
  rw [find, if_neg hstart, find_cons_of_ne (by decide), Option.map_map]
  rfl

theorem find_intercalate {lines : List (List UInt8)} (hne : lines ≠ [])
    (hlines : ∀ l ∈ lines, l ≠ [] ∧ 13 ∉ l) (body : List UInt8)
    : find (crlf ++ crlf) (List.intercalate crlf lines ++ (crlf ++ crlf ++ body))
      = some (List.intercalate crlf lines).length := by
  induction lines with
  | nil => exact absurd rfl hne
  | cons l lines ih =>
    have hl := hlines l List.mem_cons_self
    cases lines with
    | nil =>
      rw [List.intercalate_singleton]
      exact find_append hl.2 body
    | cons l' lines =>
      have hrest := ih (List.cons_ne_nil _ _) fun l hl => hlines l (List.mem_cons_of_mem _ hl)
      have hl' := hlines l' (List.mem_cons_of_mem _ List.mem_cons_self)
      rcases l' with _ | ⟨c, l'⟩
      . exact absurd rfl hl'.1
      . have hc : c ≠ 13 := fun h => hl'.2 (h ▸ List.mem_cons_self)
        have hfind : find [13, 10, 13, 10] (l ++ (crlf ++ (List.intercalate crlf ((c :: l') :: lines)
            ++ (crlf ++ crlf ++ body)))) = _ := find_append_of_not_mem hl.2 _
        rw [show crlf ++ crlf = [13, 10, 13, 10] from rfl] at hfind hrest ⊢
        rw [List.intercalate_cons_cons, List.append_assoc, List.append_assoc, hfind]
        rw [List.intercalate_cons_cons_left] at hrest ⊢
        simp only [crlf, List.cons_append, List.nil_append] at hrest ⊢
        rw [find_crlf hc, hrest]
        simp only [Option.map_some, List.length_append, List.length_cons, List.length_nil, Option.some.injEq]
        omega

end Header

section Parse

variable {m : HttpMessage}

theorem insertParams_eq (items : List (List UInt8 × List UInt8)) (params : HttpMap)
    (hitems : ∀ p ∈ items, p.2 ≠ [] ∧ 61 ∉ p.1 ∧ 61 ∉ p.2) (hnodup : (items.map (·.1)).Nodup)
    (hnone : ∀ p ∈ items, params p.1 = none)
    : ∃ params', insertParams params (items.map fun p => p.1 ++ 61 :: p.2) = some params'
      ∧ ∀ key, (params' key).toList
        = (params key).toList ++ (items.filter (·.1 = key)).map (·.2) := by
  induction items generalizing params with
  | nil => exact ⟨params, rfl, by simp⟩
  | cons p items ih =>
    have hp := hitems p List.mem_cons_self
    rw [List.map_cons, List.nodup_cons] at hnodup
    have hfresh : ∀ q ∈ items, q.1 ≠ p.1 := by
      intro q hq heq
      exact hnodup.1 (heq ▸ List.mem_map_of_mem hq)
    rcases ih (Function.update params p.1 (some p.2)) (fun q hq => hitems q (List.mem_cons_of_mem _ hq))
      hnodup.2 (fun q hq => by
        rw [Function.update_of_ne (hfresh q hq)]
        exact hnone q (List.mem_cons_of_mem _ hq)) with ⟨params', hinsert, hlookup⟩
    refine ⟨params', ?_, ?_⟩
    . have hsplit : stringSplit 61 [] (p.1 ++ 61 :: p.2) = [p.1, p.2] := by
        have happend := stringSplit_append_byte hp.2.1 p.2
        rwa [stringSplit_of_not_mem hp.2.2 hp.1] at happend
      rw [List.map_cons, insertParams, hsplit]
      exact hinsert
    . intro key
      rw [hlookup]
      by_cases hkey : key = p.1
      . have hrest : items.filter (·.1 = p.1) = [] := by
          rw [List.filter_eq_nil_iff]
          intro q hq
          simpa using hfresh q hq
        rw [hkey, Function.update_self, hrest, hnone p List.mem_cons_self,
          List.filter_cons_of_pos (by simp), hrest]
        rfl
      . rw [Function.update_of_ne hkey, List.filter_cons_of_neg (by simpa using fun h => hkey h.symm)]

theorem insertHeaders_eq (fields : List HttpField) (request : HttpRequest) (n : Int)
    (hfields : ∀ h ∈ fields, 58 ∉ h.name ∧ h.gap.length = 1)
    (hlength : ∀ h ∈ fields, h.name = contentLengthKey → atoi h.value = n)
    (hnodup : (fields.map (·.name)).Nodup) (hnone : ∀ h ∈ fields, request.headers h.name = none)
    : ∃ request', insertHeaders request (fields.map fun h => h.name ++ 58 :: (h.gap ++ h.value))
        = some request'
      ∧ request'.method = request.method ∧ request'.uri = request.uri ∧ request'.params = request.params
      ∧ (∀ key, (request'.headers key).toList
        = (request.headers key).toList ++ (fields.filter (·.name = key)).map (·.value))
      ∧ (request'.contentLength = n
        ∨ (∀ h ∈ fields, h.name ≠ contentLengthKey) ∧ request'.contentLength = request.contentLength) := by
  induction fields generalizing request with
  | nil => exact ⟨request, rfl, rfl, rfl, rfl, by simp, Or.inr ⟨by simp, rfl⟩⟩
  | cons h fields ih =>
    have hh := hfields h List.mem_cons_self
    rw [List.map_cons, List.nodup_cons] at hnodup
    have hfresh : ∀ g ∈ fields, g.name ≠ h.name := by
      intro g hg heq
      exact hnodup.1 (heq ▸ List.mem_map_of_mem hg)
    have hnew := hnone h List.mem_cons_self
    have hfind : find [58] (h.name ++ 58 :: (h.gap ++ h.value)) = some h.name.length :=
      find_append hh.1 (h.gap ++ h.value)
    have hvalue : substr (h.name ++ 58 :: (h.gap ++ h.value)) (h.name.length + 2) = some h.value := by
      have hcut : h.name ++ 58 :: (h.gap ++ h.value) = (h.name ++ 58 :: h.gap) ++ h.value := by
        simp
      unfold substr
      rw [hcut, List.drop_left' (by simp [hh.2]), if_neg]
      simp only [List.length_append, List.length_cons, hh.2]
      omega
    have hname : (h.name ++ 58 :: (h.gap ++ h.value)).take h.name.length = h.name := List.take_left
    rw [List.map_cons, insertHeaders, hfind]
    simp only [hvalue, hname, hnew, Option.isSome_none, Bool.false_eq_true, if_false]
    rcases ih { request with
        contentLength := if h.name = contentLengthKey then atoi h.value else request.contentLength
        headers := Function.update request.headers h.name (some h.value) }
      (fun g hg => hfields g (List.mem_cons_of_mem _ hg)) (fun g hg => hlength g (List.mem_cons_of_mem _ hg))
      hnodup.2 (fun g hg => by
        show Function.update request.headers h.name (some h.value) g.name = none
        rw [Function.update_of_ne (hfresh g hg)]
        exact hnone g (List.mem_cons_of_mem _ hg))
      with ⟨request', hinsert, hmethod, huri, hparams, hlookup, hcontent⟩
    refine ⟨request', hinsert, hmethod, huri, hparams, ?_, ?_⟩
    . intro key
      rw [hlookup]
      simp only
      by_cases hkey : key = h.name
      . have hrest : fields.filter (·.name = h.name) = [] := by
          rw [List.filter_eq_nil_iff]
          intro g hg
          simpa using hfresh g hg
        rw [hkey, Function.update_self, hrest, hnew, List.filter_cons_of_pos (by simp), hrest]
        rfl
      . rw [Function.update_of_ne hkey, List.filter_cons_of_neg (by simpa using fun heq => hkey heq.symm)]
    . rcases hcontent with hcontent | ⟨hother, hcontent⟩
      . exact Or.inl hcontent
      . simp only at hcontent
        by_cases hkey : h.name = contentLengthKey
        . rw [if_pos hkey, hlength h List.mem_cons_self hkey] at hcontent
          exact Or.inl hcontent
        . rw [if_neg hkey] at hcontent
          refine Or.inr ⟨?_, hcontent⟩
          intro g hg
          rcases List.mem_cons.mp hg with rfl | hg
          . exact hkey
          . exact hother g hg

theorem getUriAndParams_eq (hwf : m.WellFormed) (hplain : m.Plain)
    : ∃ params, getUriAndParams m.target (fun _ => none) = some (m.uri, params)
      ∧ ∀ key, (params key).toList = (m.params.filter (·.1 = key)).map (·.2) := by
  have huri : 63 ∉ m.uri := fun h => (hwf.uri 63 h).1 rfl
  unfold getUriAndParams HttpMessage.target
  by_cases hparams : m.params = []
  . rw [if_pos hparams, List.append_nil, find_of_not_mem huri, hparams]
    exact ⟨_, rfl, by simp⟩
  . rw [if_neg hparams]
    have hfind : find [63] (m.uri ++ 63 :: List.intercalate [38] (m.params.map fun p => p.1 ++ 61 :: p.2))
        = some m.uri.length := find_append huri _
    have hchars (p : List UInt8 × List UInt8) (hp : p ∈ m.params) (c : UInt8) (hc : c ∈ p.1 ∨ c ∈ p.2)
        : c ≠ 61 ∧ c ≠ 38 := by
      have h := hwf.params p hp c (List.mem_append.mpr hc)
      exact ⟨h.1, h.2.1⟩
    have hsplit : stringSplit 38 [] (List.intercalate [38] (m.params.map fun p => p.1 ++ 61 :: p.2))
        = m.params.map fun p => p.1 ++ 61 :: p.2 := by
      apply stringSplit_intercalate
      intro s hs
      rcases List.mem_map.mp hs with ⟨p, hp, rfl⟩
      refine ⟨by simp, ?_⟩
      intro hmem
      rw [List.mem_append, List.mem_cons] at hmem
      rcases hmem with hmem | hmem | hmem
      . exact (hchars p hp 38 (Or.inl hmem)).2 rfl
      . exact absurd hmem (by decide)
      . exact (hchars p hp 38 (Or.inr hmem)).2 rfl
    rcases insertParams_eq m.params (fun _ => none) (fun p hp => ⟨hplain.values p hp,
        fun h => (hchars p hp 61 (Or.inl h)).1 rfl, fun h => (hchars p hp 61 (Or.inr h)).1 rfl⟩)
      hplain.keys (fun _ _ => rfl) with ⟨params, hinsert, hlookup⟩
    rw [hfind]
    simp only
    rw [← List.drop_drop, List.drop_left, List.drop_one, List.tail_cons, hsplit, hinsert, List.take_left]
    exact ⟨params, rfl, hlookup⟩

/--
A request that has been parsed.
-/
structure Parsed (request : HttpRequest) (m : HttpMessage) : Prop where
  method : request.method = m.method.name
  uri : request.uri = m.uri
  params : ∀ key, (request.params key).toList = (m.params.filter (·.1 = key)).map (·.2)
  headers : ∀ key, (request.headers key).toList = (m.headers.filter (·.name = key)).map (·.value)
  contentLength : request.contentLength = m.body.length

theorem mem_target (hwf : m.WellFormed) {c : UInt8} (hc : c ∈ m.target) : c ≠ 32 ∧ c ≠ 13 := by
  unfold HttpMessage.target at hc
  rcases List.mem_append.mp hc with hc | hc
  . exact (hwf.uri c hc).2
  . split at hc
    . cases hc
    . rcases List.mem_cons.mp hc with rfl | hc
      . decide
      . rcases mem_intercalate hc with hc | ⟨s, hs, hc⟩
        . rw [List.mem_singleton.mp hc]
          decide
        . rcases List.mem_map.mp hs with ⟨p, hp, rfl⟩
          rw [List.mem_append, List.mem_cons] at hc
          rcases hc with hc | rfl | hc
          . exact (hwf.params p hp c (List.mem_append_left _ hc)).2.2
          . decide
          . exact (hwf.params p hp c (List.mem_append_right _ hc)).2.2

theorem mem_name (method : HttpMethod) {c : UInt8} (hc : c ∈ method.name) : c ≠ 32 ∧ c ≠ 13 := by
  have hall : method.name.all fun c => c ≠ 32 ∧ c ≠ 13 := by
    cases method with
    | get => rfl
    | post => rfl
  simpa using List.all_eq_true.mp hall c hc

theorem mem_version (hwf : m.WellFormed) {c : UInt8}
    (hc : c ∈ ascii ['H', 'T', 'T', 'P', '/'] ++ m.version) : c ≠ 32 ∧ c ≠ 13 := by
  rcases List.mem_append.mp hc with hc | hc
  . have hall : (ascii ['H', 'T', 'T', 'P', '/']).all fun c => c ≠ 32 ∧ c ≠ 13 := rfl
    simpa using List.all_eq_true.mp hall c hc
  . exact hwf.version c hc

theorem mem_lines (hwf : m.WellFormed) : ∀ l ∈ m.lines, l ≠ [] ∧ 13 ∉ l := by
  intro l hl
  rcases List.mem_cons.mp hl with rfl | hl
  . unfold HttpMessage.requestLine
    refine ⟨by simp, ?_⟩
    intro hmem
    simp only [List.mem_append, List.mem_cons] at hmem
    rcases hmem with hmem | hmem | hmem | hmem | hmem
    . exact (mem_name m.method hmem).2 rfl
    . exact absurd hmem (by decide)
    . exact (mem_target hwf hmem).2 rfl
    . exact absurd hmem (by decide)
    . exact (mem_version hwf (List.mem_append.mpr hmem)).2 rfl
  . rcases List.mem_map.mp hl with ⟨h, hh, rfl⟩
    refine ⟨by simp, ?_⟩
    intro hmem
    simp only [List.mem_append, List.mem_cons] at hmem
    rcases hmem with hmem | hmem | hmem | hmem
    . exact ((hwf.names h hh).2 13 hmem).2 rfl
    . exact absurd hmem (by decide)
    . exact absurd ((hwf.values h hh).1 13 hmem) (by decide)
    . exact (hwf.values h hh).2 13 hmem rfl

theorem isContentLength_of_name {h : HttpField} (hname : h.name = contentLengthKey)
    : HttpMessage.IsContentLength h := by
  unfold HttpMessage.IsContentLength
  rw [hname]

theorem parseHeader_eq (hwf : m.WellFormed) (hplain : m.Plain)
    : ∃ request, parseHeader {} m.headerStr = some request ∧ Parsed request m := by
  have hlines : stringSplit 13 [10] m.headerStr = m.lines := stringSplit_intercalate (mem_lines hwf)
  have hfirst : stringSplit 32 [] m.requestLine
      = [m.method.name, m.target, ascii ['H', 'T', 'T', 'P', '/'] ++ m.version] := by
    have hversion : stringSplit 32 [] (ascii ['H', 'T', 'T', 'P', '/'] ++ m.version) = _ :=
      stringSplit_of_not_mem (fun h => (mem_version hwf h).1 rfl) (by simp [ascii])
    have htarget := stringSplit_append_byte (fun h => (mem_target hwf h).1 rfl)
      (ascii ['H', 'T', 'T', 'P', '/'] ++ m.version)
    have hmethod := stringSplit_append_byte (fun h => (mem_name m.method h).1 rfl)
      (m.target ++ 32 :: (ascii ['H', 'T', 'T', 'P', '/'] ++ m.version))
    rw [hversion] at htarget
    exact hmethod.trans (congrArg _ htarget)
  have hhttp : find (ascii ['H', 'T', 'T', 'P']) (ascii ['H', 'T', 'T', 'P', '/'] ++ m.version) = some 0 :=
    find_append_of_prefix (by decide) (ascii ['/'] ++ m.version)
  have hversion : substr (ascii ['H', 'T', 'T', 'P', '/'] ++ m.version) (0 + 5) = some m.version := by
    unfold substr
    rw [if_neg (by simp [ascii])]
    rfl
  rcases getUriAndParams_eq hwf hplain with ⟨params, hparams, hlookup⟩
  have hcontent : ∀ h ∈ m.headers, h.name = contentLengthKey → atoi h.value = m.body.length := by
    intro h hh hname
    have hvalue := hwf.contentLength h hh (isContentLength_of_name hname)
    rw [atoi_of_digits hvalue.1, hvalue.2]
  rcases insertHeaders_eq m.headers {
      method := m.method.name
      uri := m.uri
      params := params
      version := m.version } m.body.length
    (fun h hh => ⟨fun hmem => ((hwf.names h hh).2 58 hmem).1 rfl, hplain.gaps h hh⟩) hcontent hplain.names
    (fun _ _ => rfl) with ⟨request, hinsert, hmethod, huri, hparams', hheaders, hlength⟩
  refine ⟨request, ?_, ⟨hmethod, huri, ?_, hheaders, ?_⟩⟩
  . unfold parseHeader
    rw [hlines]
    simp only [HttpMessage.lines, hfirst, hparams, hhttp, hversion]
    exact hinsert
  . intro key
    rw [hparams', hlookup]
  . rcases hlength with hlength | ⟨hother, hlength⟩
    . exact hlength
    . rw [hlength]
      cases hmethod' : m.method with
      | get =>
        rw [hwf.body hmethod']
        rfl
      | post =>
        rcases hwf.post hmethod' with ⟨h, hh, hname⟩
        exact absurd (hplain.contentLength h hh hname) (hother h hh)

end Parse

end HttpSession

namespace HttpSession

section Reads

variable {m : HttpMessage} {getHandle : HttpRequest → Bool} {s : HttpSession} {x data : List UInt8}

/--
The state after the first bytes of a request, the first one of a connection.
-/
structure Receives (s : HttpSession) (m : HttpMessage) (x : List UInt8) : Prop where
  waiting : x.length < m.headerStr.length + 4 → s = { headerData := x }
  ready : m.headerStr.length + 4 ≤ x.length →
    s.headerIsReady = true ∧ Parsed s.request m ∧ s.contentData = x.drop (m.headerStr.length + 4)

/--
The state behind a request.
-/
structure Handled (s : HttpSession) (m : HttpMessage) : Prop where
  headerIsReady : s.headerIsReady = true
  parsed : Parsed s.request m
  content : m.body <+: s.contentData

theorem Parsed.view {request : HttpRequest} (h : Parsed request m) (content : Option (List UInt8))
    (hcontent : m.body <+: content.getD [])
    : { request with contentBody := content }.view = m.view := by
  rcases hcontent with ⟨tail, htail⟩
  unfold HttpRequest.view HttpMessage.view
  rw [h.method, h.uri, h.contentLength, ← htail]
  simp only [h.params, h.headers, Int.toNat_natCast, List.take_left]

theorem name_ne_options (method : HttpMethod)
    : method.name ≠ ascii ['O', 'P', 'T', 'I', 'O', 'N', 'S'] := by
  cases method with
  | get => decide
  | post => decide

theorem dispatch_handled (hwf : m.WellFormed) (hhandle : Registered getHandle m) (h : Handled s m)
    : ∃ s' request, dispatch getHandle s = some (s', some request) ∧ request.view = m.view
      ∧ Handled s' m := by
  have hregistered := hhandle s.request h.parsed.method h.parsed.uri
  unfold dispatch
  rw [h.parsed.method, if_neg (name_ne_options m.method)]
  cases hmethod : m.method with
  | get =>
    have hbody := hwf.body hmethod
    rw [if_pos (show HttpMethod.get.name = ascii ['G', 'E', 'T'] from rfl), if_pos hregistered]
    refine ⟨s, s.request, rfl, ?_, h⟩
    apply h.parsed.view s.request.contentBody
    rw [hbody]
    apply List.nil_prefix
  | post =>
    have hlen := h.content.length_le
    rw [if_neg (show HttpMethod.post.name ≠ ascii ['G', 'E', 'T'] by decide), h.parsed.contentLength, if_pos (by omega),
      if_pos hregistered]
    refine ⟨_, _, rfl, h.parsed.view (some s.contentData) h.content, ?_⟩
    exact ⟨h.headerIsReady, ⟨h.parsed.method, h.parsed.uri, h.parsed.params, h.parsed.headers,
      h.parsed.contentLength⟩, h.content⟩

theorem dispatch_incomplete (hwf : m.WellFormed) (hparsed : Parsed s.request m)
    (hlen : s.contentData.length < m.body.length) : dispatch getHandle s = some (s, none) := by
  have hpost : m.method ≠ .get := by
    intro hget
    rw [hwf.body hget] at hlen
    exact absurd hlen (Nat.not_lt_zero _)
  have hname : m.method.name ≠ ascii ['G', 'E', 'T'] := by
    cases hmethod : m.method with
    | get => exact absurd hmethod hpost
    | post => decide
  unfold dispatch
  rw [hparsed.method, if_neg (name_ne_options m.method), if_neg hname, hparsed.contentLength,
    if_neg (by omega)]

theorem find_bytes (hwf : m.WellFormed) : find (crlf ++ crlf) m.bytes = some m.headerStr.length :=
  find_intercalate (List.cons_ne_nil _ _) (mem_lines hwf) m.body

theorem analyzeHeader_eq (hwf : m.WellFormed) (hplain : m.Plain) (hx : x <+: m.bytes)
    : (x.length < m.headerStr.length + 4 → analyzeHeader { headerData := x } = some { headerData := x })
      ∧ (m.headerStr.length + 4 ≤ x.length → ∃ request, Parsed request m
        ∧ analyzeHeader { headerData := x } = some {
          headerData := x
          request := request
          contentStart := m.headerStr.length + 4
          headerIsReady := true }) := by
  have hfind := find_take (by decide) (find_bytes hwf) x.length
  rw [← List.prefix_iff_eq_take.mp hx, show (crlf ++ crlf).length = 4 from rfl] at hfind
  refine ⟨?_, ?_⟩
  . intro hlen
    unfold analyzeHeader
    rw [hfind, if_neg (by omega)]
  . intro hlen
    rcases parseHeader_eq hwf hplain with ⟨request, hparse, hparsed⟩
    have htake : x.take m.headerStr.length = m.headerStr := by
      rw [List.prefix_iff_eq_take.mp hx, List.take_take, Nat.min_eq_left (by omega), HttpMessage.bytes,
        List.take_left]
    refine ⟨request, hparsed, ?_⟩
    unfold analyzeHeader
    rw [hfind, if_pos hlen]
    simp only
    rw [htake, hparse]
    rfl

variable (getHandle) in
theorem Receives.handleRequest (hwf : m.WellFormed) (hplain : m.Plain) (h : Receives s m x)
    (hdata : x ++ data <+: m.bytes)
    : ((x ++ data).length < m.headerStr.length + 4 →
        s.handleRequest getHandle data = some ({ headerData := x ++ data }, none))
      ∧ (m.headerStr.length + 4 ≤ (x ++ data).length → ∃ t, t.headerIsReady = true ∧ Parsed t.request m
        ∧ t.contentData = (x ++ data).drop (m.headerStr.length + 4)
        ∧ s.handleRequest getHandle data = dispatch getHandle t) := by
  have hanalyze := analyzeHeader_eq hwf hplain hdata
  by_cases hx : x.length < m.headerStr.length + 4
  . rw [h.waiting hx]
    refine ⟨?_, ?_⟩
    . intro hlen
      unfold HttpSession.handleRequest
      simp only [Bool.false_eq_true, if_false, hanalyze.1 hlen]
    . intro hlen
      rcases hanalyze.2 hlen with ⟨request, hparsed, heq⟩
      have hstart : ((m.headerStr.length : Int) + 4).toNat = m.headerStr.length + 4 := by
        omega
      refine ⟨{
        headerData := x ++ data
        contentData := (x ++ data).drop (m.headerStr.length + 4)
        request := request
        contentStart := m.headerStr.length + 4
        headerIsReady := true }, rfl, hparsed, rfl, ?_⟩
      unfold HttpSession.handleRequest
      simp only [Bool.false_eq_true, if_false, heq, if_true, hstart, List.nil_append]
  . rcases h.ready (by omega) with ⟨hready, hparsed, hcontent⟩
    refine ⟨?_, ?_⟩
    . intro hlen
      rw [List.length_append] at hlen
      omega
    . intro hlen
      refine ⟨{ s with contentData := s.contentData ++ data }, hready, hparsed, ?_, ?_⟩
      . simp only
        rw [hcontent, List.drop_append_of_le_length (by omega)]
      . unfold HttpSession.handleRequest
        rw [if_pos hready]

theorem drop_bytes (m : HttpMessage) : m.bytes.drop (m.headerStr.length + 4) = m.body := by
  rw [HttpMessage.bytes, ← List.drop_drop, List.drop_left]
  rfl

theorem length_bytes (m : HttpMessage) : m.bytes.length = m.headerStr.length + 4 + m.body.length := by
  rw [HttpMessage.bytes, List.length_append, List.length_append, ← Nat.add_assoc]
  rfl

theorem onReads_receives (hwf : m.WellFormed) (hplain : m.Plain) (hhandle : Registered getHandle m)
    {reads : List (List UInt8)} (hne : ∀ data ∈ reads, data ≠ []) (hpos : reads ≠ [])
    (h : Receives s m x) (hbytes : x ++ reads.flatten = m.bytes)
    : ∃ s' request, request.view = m.view ∧ Handled s' m ∧ ∀ more,
      onReads getHandle s (reads ++ more) = request :: onReads getHandle s' more := by
  induction reads generalizing s x with
  | nil => exact absurd rfl hpos
  | cons data reads ih =>
    rw [List.flatten_cons, ← List.append_assoc] at hbytes
    have hdata : x ++ data <+: m.bytes := ⟨_, hbytes⟩
    have hlength := congrArg List.length hbytes
    rw [List.length_append, length_bytes] at hlength
    have hstep := h.handleRequest getHandle hwf hplain hdata
    by_cases hlast : reads = []
    . rw [hlast, List.flatten_nil, List.append_nil] at hbytes
      rw [hlast, List.flatten_nil, List.length_nil] at hlength
      rcases hstep.2 (by omega) with ⟨t, hready, hparsed, hcontent, heq⟩
      rw [hbytes, drop_bytes] at hcontent
      rcases dispatch_handled hwf hhandle ⟨hready, hparsed, hcontent ▸ List.prefix_refl _⟩
        with ⟨s', request, hdispatch, hview, hhandled⟩
      refine ⟨s', request, hview, hhandled, ?_⟩
      intro more
      rw [hlast, List.singleton_append, onReads, heq, hdispatch]
      rfl
    . have hrest : 0 < reads.flatten.length := by
        rcases List.exists_cons_of_ne_nil hlast with ⟨next, later, rfl⟩
        have hnext := List.length_pos_iff.mpr (hne next (by simp))
        rw [List.flatten_cons, List.length_append]
        omega
      have hnext : ∃ s', s.handleRequest getHandle data = some (s', none) ∧ Receives s' m (x ++ data) := by
        by_cases hlen : (x ++ data).length < m.headerStr.length + 4
        . refine ⟨_, hstep.1 hlen, fun _ => rfl, ?_⟩
          intro hlen'
          omega
        . rcases hstep.2 (by omega) with ⟨t, hready, hparsed, hcontent, heq⟩
          refine ⟨t, ?_, ?_, fun _ => ⟨hready, hparsed, hcontent⟩⟩
          . rw [heq]
            apply dispatch_incomplete hwf hparsed
            rw [hcontent, List.length_drop]
            omega
          . intro hlen'
            omega
      rcases hnext with ⟨s', heq, hreceives⟩
      rcases ih (fun data hdata => hne data (List.mem_cons_of_mem _ hdata)) hlast hreceives hbytes
        with ⟨s'', request, hview, hhandled, hmore⟩
      refine ⟨s'', request, hview, hhandled, ?_⟩
      intro more
      rw [List.cons_append, onReads, heq]
      exact hmore more

/--
Behind a request, every read counts as this request again.
-/
theorem onReads_handled (hwf : m.WellFormed) (hhandle : Registered getHandle m) (h : Handled s m)
    (reads : List (List UInt8))
    : (onReads getHandle s reads).map HttpRequest.view = List.replicate reads.length m.view := by
  induction reads generalizing s with
  | nil => rfl
  | cons data reads ih =>
    have hcontent : m.body <+: s.contentData ++ data := h.content.trans (List.prefix_append _ _)
    rcases dispatch_handled hwf hhandle (s := { s with contentData := s.contentData ++ data })
      ⟨h.headerIsReady, h.parsed, hcontent⟩ with ⟨s', request, hdispatch, hview, hhandled⟩
    unfold onReads HttpSession.handleRequest
    rw [if_pos h.headerIsReady, hdispatch]
    simp only [Option.toList_some, List.singleton_append, List.map_cons, List.length_cons,
      List.replicate_succ, hview, ih hhandled]

end Reads

theorem reads_ne_nil (a : HttpArrival) : a.reads ≠ [] := by
  intro hreads
  have hflatten := congrArg List.length a.flatten
  rw [hreads, List.flatten_nil, List.length_nil, length_bytes] at hflatten
  omega

theorem length_reads (arrivals : List HttpArrival)
    : arrivals.length ≤ (arrivals.flatMap (·.reads)).length
      ∧ ((arrivals.flatMap (·.reads)).length = arrivals.length ↔ ∀ a ∈ arrivals, a.reads.length = 1) := by
  induction arrivals with
  | nil => simp
  | cons a arrivals ih =>
    have hpos := List.length_pos_iff.mpr (reads_ne_nil a)
    rw [List.flatMap_cons, List.length_append, List.length_cons, List.forall_mem_cons, ← ih.2]
    have hle := ih.1
    omega

section Claim

variable {getHandle : HttpRequest → Bool} {first : HttpArrival}

theorem onReads_arrivals (hwf : first.message.WellFormed) (hplain : first.message.Plain)
    (hhandle : Registered getHandle first.message) (rest : List HttpArrival)
    : (onReads getHandle {} ((first :: rest).flatMap (·.reads))).map HttpRequest.view
      = List.replicate ((rest.flatMap (·.reads)).length + 1) first.message.view := by
  have hstart : Receives {} first.message [] := by
    refine ⟨fun _ => rfl, ?_⟩
    intro hlen
    rw [List.length_nil] at hlen
    omega
  rcases onReads_receives hwf hplain hhandle first.reads_ne (reads_ne_nil first) hstart
    ((List.nil_append _).trans first.flatten) with ⟨s, request, hview, hhandled, hmore⟩
  rw [List.flatMap_cons, hmore, List.map_cons, hview, onReads_handled hwf hhandle hhandled,
    List.replicate_succ]

theorem handlesOnce_iff (hwf : first.message.WellFormed) (hplain : first.message.Plain)
    (hhandle : Registered getHandle first.message) (rest : List HttpArrival)
    : HandlesOnce getHandle (first :: rest)
      ↔ ∀ a ∈ rest, a.message.view = first.message.view ∧ a.reads.length = 1 := by
  have hlength := length_reads rest
  unfold HandlesOnce
  rw [onReads_arrivals hwf hplain hhandle, List.map_cons, List.replicate_succ, List.cons.injEq,
    eq_comm (a := List.replicate _ _), List.eq_replicate_iff, List.length_map, List.forall_mem_map]
  constructor
  . rintro ⟨_, hsum, hviews⟩
    have hreads := hlength.2.mp hsum.symm
    exact fun a ha => ⟨hviews a ha, hreads a ha⟩
  . intro hrest
    exact ⟨rfl, (hlength.2.mpr fun a ha => (hrest a ha).2).symm, fun a ha => (hrest a ha).1⟩

/--
A request without parameters and header fields, in one read.
-/
def getArrival (c : Char) : HttpArrival where
  message := { method := .get, uri := ascii ['/', c], version := ascii ['1', '.', '1'] }
  reads := [HttpMessage.bytes { method := .get, uri := ascii ['/', c], version := ascii ['1', '.', '1'] }]
  reads_ne := by simp [HttpMessage.bytes, crlf]
  flatten := by simp

theorem wellFormed_getArrival {c : Char} (hc : c.toUInt8 ≠ 63 ∧ c.toUInt8 ≠ 32 ∧ c.toUInt8 ≠ 13)
    : (getArrival c).message.WellFormed where
  uri := by
    intro b hb
    rcases List.mem_cons.mp hb with rfl | hb
    . decide
    . rw [List.mem_singleton.mp hb]
      exact hc
  params := by simp [getArrival]
  version := by
    simp [getArrival, ascii]
    decide
  names := by simp [getArrival]
  values := by simp [getArrival]
  contentLength := by simp [getArrival]
  body := by simp [getArrival]
  post := by simp [getArrival]

theorem plain_getArrival (c : Char) : (getArrival c).message.Plain where
  gaps := by simp [getArrival]
  names := by simp [getArrival]
  contentLength := by simp [getArrival]
  keys := by simp [getArrival]
  values := by simp [getArrival]

theorem handlesOnce_sample : HandlesOnce (fun _ => true) [getArrival 'a', getArrival 'a']
    ↔ ∀ a ∈ [getArrival 'a'], a.message.view = (getArrival 'a').message.view ∧ a.reads.length = 1 :=
  handlesOnce_iff (wellFormed_getArrival (by decide)) (plain_getArrival 'a') (fun _ _ _ => rfl) _

theorem not_handlesOnce : (∀ a ∈ [getArrival 'a', getArrival 'b'], a.message.WellFormed ∧ a.message.Plain)
    ∧ ¬ HandlesOnce (fun _ => true) [getArrival 'a', getArrival 'b'] := by
  have hwf := wellFormed_getArrival (c := 'a') (by decide)
  refine ⟨?_, ?_⟩
  . intro a ha
    rcases List.mem_cons.mp ha with rfl | ha
    . exact ⟨hwf, plain_getArrival 'a'⟩
    . rw [List.mem_singleton.mp ha]
      exact ⟨wellFormed_getArrival (by decide), plain_getArrival 'b'⟩
  . intro h
    have hhandle : Registered (fun _ => true) (getArrival 'a').message := fun _ _ _ => rfl
    have hviews := onReads_arrivals hwf (plain_getArrival 'a') hhandle [getArrival 'b']
    have huris := congrArg (List.map HttpView.uri) (hviews.symm.trans h)
    exact absurd huris (by decide)

end Claim

end HttpSession
