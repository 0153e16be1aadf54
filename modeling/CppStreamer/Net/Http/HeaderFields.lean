import CppStreamer.Net.Http.WebSocketClient

/-!
This module contains what the parsers of both sides of HTTP make of the fields of a header, with what they return or
throw, and the headers for which they return the values of the fields.
-/

open StringEx
open HttpSession (crlf contentLengthKey getUriAndParams)

/--
Why a parser does not succeed: it returns an error, or there is an exception or an assertion that fails.
-/
inductive HttpStop where
  | returned
  | thrown
  deriving DecidableEq, Repr

section Parsers

/--
The name and the value that are taken from a line, `noColon` is what happens if there is no colon in it.
-/
def httpField (noColon : HttpStop) (line : List UInt8) : Except HttpStop (List UInt8 × List UInt8) :=
  match find [58] line with
  | none => .error noColon
  | some pos =>
    match substr line (pos + 2) with
    | none => .error .thrown
    | some value => .ok (line.take pos, value)

namespace HttpSession

/--
The first value of a name stays.
-/
def store (request : HttpRequest) (field : List UInt8 × List UInt8) : HttpRequest :=
  { request with
    contentLength := if field.1 = contentLengthKey then atoi field.2 else request.contentLength
    headers := if (request.headers field.1).isSome then request.headers
      else Function.update request.headers field.1 (some field.2) }

def storeHeaders (request : HttpRequest) : List (List UInt8) → Except HttpStop HttpRequest
  | [] => .ok request
  | infoLine :: lines => do
    let field ← httpField .returned infoLine
    storeHeaders (store request field) lines

def parseHeaderResult (request : HttpRequest) (headerStr : List UInt8) : Except HttpStop HttpRequest :=
  match stringSplit 13 [10] headerStr with
  | [] => .error .returned
  | firstLine :: lines =>
    match stringSplit 32 [] firstLine with
    | [method, target, versionInfo] =>
      match getUriAndParams target request.params with
      | none => .error .returned
      | some (uri, params) =>
        match find (ascii ['H', 'T', 'T', 'P']) versionInfo with
        | none => .error .returned
        | some pos =>
          match substr versionInfo (pos + 5) with
          | none => .error .thrown
          | some version =>
            storeHeaders { request with
              method := method
              uri := uri
              params := params
              version := version } lines
    | _ => .error .returned

/--
`AnalyzeHeader` with what it returns or throws.
-/
def analyzeHeaderResult (s : HttpSession) : Except HttpStop HttpSession :=
  match find (crlf ++ crlf) s.headerData with
  | none => .ok { s with headerIsReady := false }
  | some pos =>
    (parseHeaderResult s.request (s.headerData.take pos)).map fun request =>
      { s with
        contentStart := pos + 4
        headerIsReady := true
        request := request }

end HttpSession

namespace HttpClientHeader

/--
The last value of a name stays.
-/
def store (h : HttpClientHeader) (field : List UInt8 × List UInt8) : HttpClientHeader :=
  { h with
    contentLength := if field.1 = contentLengthKey then atoi field.2 else h.contentLength
    headers := Function.update h.headers field.1 (some field.2) }

def storeHeaders (h : HttpClientHeader) : List (List UInt8) → Except HttpStop HttpClientHeader
  | [] => .ok h
  | line :: lines => do
    let field ← httpField .thrown line
    storeHeaders (store h field) lines

def parseResult (h : HttpClientHeader) (headerStr : List UInt8) : Except HttpStop HttpClientHeader :=
  match stringSplit 13 [10] headerStr with
  | [] => .ok h
  | line :: lines =>
    match stringSplit 32 [] line with
    | item :: code :: status :: more =>
      match find [47] item with
      | none => .error .thrown
      | some pos =>
        storeHeaders
          { h with
            proto := item.take pos
            version := item.drop (pos + 1)
            statusCode := atoi code
            status := (status :: more).flatten } lines
    | _ => .error .thrown

/--
The parser in `OnRead`, for the data that have come so far.
-/
def onReadResult (h : HttpClientHeader) (data : List UInt8) : Except HttpStop HttpClientHeader :=
  match find (crlf ++ crlf) data with
  | none => .ok h
  | some pos => parseResult h (data.take pos)

end HttpClientHeader

/--
Without the reason why they stop, the parsers are those of the session and of the client.
-/
theorem HttpSession.toOption_storeHeaders (request : HttpRequest) (lines : List (List UInt8))
    : (storeHeaders request lines).toOption = insertHeaders request lines := by
  induction lines generalizing request with
  | nil => rfl
  | cons line lines ih =>
    rw [storeHeaders, insertHeaders, httpField]
    cases find [58] line with
    | none => rfl
    | some pos =>
      simp only
      cases substr line (pos + 2) with
      | none => rfl
      | some value => exact ih _

theorem HttpSession.toOption_parseHeaderResult (request : HttpRequest) (headerStr : List UInt8)
    : (parseHeaderResult request headerStr).toOption = parseHeader request headerStr := by
  rw [parseHeaderResult, parseHeader]
  generalize stringSplit 13 [10] headerStr = headerVec
  rcases headerVec with _ | ⟨firstLine, lines⟩
  . rfl
  . simp only
    generalize stringSplit 32 [] firstLine = versionVec
    rcases versionVec with _ | ⟨method, _ | ⟨target, _ | ⟨versionInfo, _ | ⟨more, words⟩⟩⟩⟩
    any_goals rfl
    simp only
    cases getUriAndParams target request.params with
    | none => rfl
    | some uri =>
      simp only
      cases find (ascii ['H', 'T', 'T', 'P']) versionInfo with
      | none => rfl
      | some pos =>
        simp only
        cases substr versionInfo (pos + 5) with
        | none => rfl
        | some version => exact toOption_storeHeaders _ _

theorem HttpSession.toOption_analyzeHeaderResult (s : HttpSession)
    : (analyzeHeaderResult s).toOption = analyzeHeader s := by
  rw [analyzeHeaderResult, analyzeHeader]
  cases find (crlf ++ crlf) s.headerData with
  | none => rfl
  | some pos =>
    simp only
    rw [← toOption_parseHeaderResult]
    cases parseHeaderResult s.request (s.headerData.take pos) <;> rfl

theorem HttpClientHeader.toOption_storeHeaders (h : HttpClientHeader) (lines : List (List UInt8))
    : (storeHeaders h lines).toOption = insertHeaders h lines := by
  induction lines generalizing h with
  | nil => rfl
  | cons line lines ih =>
    rw [storeHeaders, insertHeaders, httpField]
    cases find [58] line with
    | none => rfl
    | some pos =>
      simp only
      cases substr line (pos + 2) with
      | none => rfl
      | some value => exact ih _

theorem HttpClientHeader.toOption_parseResult (h : HttpClientHeader) (headerStr : List UInt8)
    : (parseResult h headerStr).toOption = parse h headerStr := by
  rw [parseResult, parse]
  generalize stringSplit 13 [10] headerStr = linesVec
  rcases linesVec with _ | ⟨line, lines⟩
  . rfl
  . simp only
    generalize stringSplit 32 [] line = itemVec
    rcases itemVec with _ | ⟨item, _ | ⟨code, _ | ⟨status, more⟩⟩⟩
    any_goals rfl
    simp only
    cases find [47] item with
    | none => rfl
    | some pos => exact toOption_storeHeaders _ _

end Parsers

section Fields

/--
White space in front of a value.
-/
def isOws (c : UInt8) : Bool := c = 32 ∨ c = 9

/--
The text in front of the first colon.
-/
def fieldName (line : List UInt8) : List UInt8 := line.takeWhile (· ≠ 58)

/--
The text behind the first colon without the white space in front of it.
-/
def fieldValue (line : List UInt8) : List UInt8 := ((line.dropWhile (· ≠ 58)).drop 1).dropWhile isOws

/--
There is something behind the first colon.
-/
def HasText (line : List UInt8) : Prop := ∀ pos, find [58] line = some pos → pos + 2 ≤ line.length

/--
There is one byte of white space behind the first colon, and then none.
-/
def OneSpace (line : List UInt8) : Prop :=
  ∃ name c value, line = name ++ 58 :: c :: value ∧ 58 ∉ name ∧ isOws c ∧ ∀ c' ∈ value.head?, ¬isOws c'

variable {noColon : HttpStop} {line name : List UInt8}

theorem find_colon (h : 58 ∉ name) (rest : List UInt8) : find [58] (name ++ 58 :: rest) = some name.length :=
  find_append h rest

theorem hasText_iff (h : 58 ∉ name) (rest : List UInt8) : HasText (name ++ 58 :: rest) ↔ rest ≠ [] := by
  rw [HasText, find_colon h, List.length_append, List.length_cons, ← List.length_pos_iff]
  constructor
  . intro htext
    have hle := htext _ rfl
    omega
  . rintro hpos pos hfind
    cases hfind
    omega

theorem httpField_of_not_mem (h : 58 ∉ line) : httpField noColon line = .error noColon := by
  rw [httpField, find_of_not_mem h]

theorem fieldName_append (h : 58 ∉ name) (rest : List UInt8) : fieldName (name ++ 58 :: rest) = name := by
  rw [fieldName, List.takeWhile_append_of_pos]
  . rw [List.takeWhile_cons_of_neg (by simp), List.append_nil]
  . intro c hc
    exact decide_eq_true (ne_of_mem_of_not_mem hc h)

theorem fieldValue_append (h : 58 ∉ name) (rest : List UInt8)
    : fieldValue (name ++ 58 :: rest) = rest.dropWhile isOws := by
  rw [fieldValue, List.dropWhile_append_of_pos]
  . rw [List.dropWhile_cons_of_neg (by simp)]
    rfl
  . intro c hc
    exact decide_eq_true (ne_of_mem_of_not_mem hc h)

/--
What the parsers take for the value: one byte behind the colon is skipped, whatever it is.
-/
def takenValue (line : List UInt8) : List UInt8 := (line.dropWhile (· ≠ 58)).drop 2

theorem takenValue_append (h : 58 ∉ name) (rest : List UInt8) : takenValue (name ++ 58 :: rest) = rest.drop 1 := by
  rw [takenValue, List.dropWhile_append_of_pos]
  . rw [List.dropWhile_cons_of_neg (by simp)]
    rfl
  . intro c hc
    exact decide_eq_true (ne_of_mem_of_not_mem hc h)

theorem httpField_of_hasText (hcolon : 58 ∈ line) (htext : HasText line)
    : httpField noColon line = .ok (fieldName line, takenValue line) := by
  obtain ⟨name, rest, rfl, hname⟩ := List.eq_append_cons_of_mem hcolon
  have hdrop : (name ++ 58 :: rest).drop (name.length + 2) = rest.drop 1 := by
    rw [← List.drop_drop, List.drop_left]
    rfl
  have hlength := htext _ (find_colon hname rest)
  rw [httpField, find_colon hname]
  simp only
  rw [substr, if_neg (Nat.not_lt.mpr hlength), List.take_left, fieldName_append hname, takenValue_append hname, hdrop]

theorem httpField_of_not_hasText (htext : ¬HasText line) : httpField noColon line = .error .thrown := by
  obtain ⟨pos, htext⟩ := not_forall.mp htext
  obtain ⟨hfind, hlength⟩ := Classical.not_imp.mp htext
  rw [httpField, hfind]
  simp only
  rw [substr, if_pos (Nat.lt_of_not_le hlength)]

/--
The value is that of the field exactly if there is one byte of white space.
-/
theorem takenValue_eq_iff (hcolon : 58 ∈ line) (htext : HasText line)
    : takenValue line = fieldValue line ↔ OneSpace line := by
  obtain ⟨name, rest, rfl, hname⟩ := List.eq_append_cons_of_mem hcolon
  rw [takenValue_append hname, fieldValue_append hname]
  obtain ⟨c, value, rfl⟩ := List.exists_cons_of_ne_nil ((hasText_iff hname rest).mp htext)
  have hspace : OneSpace (name ++ 58 :: c :: value) ↔ isOws c ∧ ∀ c' ∈ value.head?, ¬isOws c' := by
    constructor
    . rintro ⟨name', c', value', heq, hname', hows⟩
      have htaken := congrArg takenValue heq
      have hlength := congrArg fieldName heq
      rw [fieldName_append hname, fieldName_append hname'] at hlength
      rw [hlength, List.append_cancel_left_eq, List.cons.injEq, List.cons.injEq] at heq
      obtain ⟨-, rfl, rfl⟩ := heq
      exact hows
    . exact fun hows => ⟨name, c, value, rfl, hname, hows⟩
  rw [hspace, List.drop_one, List.tail_cons]
  by_cases hows : isOws c
  . rw [List.dropWhile_cons_of_pos hows, and_iff_right hows, eq_comm, List.dropWhile_eq_self_iff]
    cases value with
    | nil => simp
    | cons c' value => simp
  . rw [List.dropWhile_cons_of_neg hows]
    refine iff_of_false ?_ (fun h => hows h.left)
    intro heq
    have hlength := congrArg List.length heq
    rw [List.length_cons] at hlength
    omega

/--
Whether all fields can be taken from the lines.
-/
def Taken (lines : List (List UInt8)) : Prop := ∀ line ∈ lines, 58 ∈ line ∧ HasText line

theorem mapM_httpField {lines : List (List UInt8)} (h : Taken lines)
    : lines.mapM (httpField noColon) = .ok (lines.map fun line => (fieldName line, takenValue line)) := by
  induction lines with
  | nil => rfl
  | cons line lines ih =>
    obtain ⟨⟨hcolon, htext⟩, hrest⟩ := List.forall_mem_cons.mp h
    rw [List.mapM_cons, httpField_of_hasText hcolon htext, ih hrest]
    rfl

/--
Of the lines up to the first one without a colon, each has something behind its colon.
-/
def TextsBefore (lines : List (List UInt8)) : Prop := ∀ line ∈ lines.takeWhile (58 ∈ ·), HasText line

theorem mapM_httpField_of_not_taken {lines : List (List UInt8)} (h : ¬Taken lines)
    : (TextsBefore lines → lines.mapM (httpField noColon) = .error noColon)
      ∧ (¬TextsBefore lines → lines.mapM (httpField noColon) = .error .thrown) := by
  induction lines with
  | nil => exact absurd (List.forall_mem_nil _) h
  | cons line lines ih =>
    by_cases hcolon : 58 ∈ line
    . have htexts : TextsBefore (line :: lines) ↔ HasText line ∧ TextsBefore lines := by
        rw [TextsBefore, List.takeWhile_cons_of_pos (by simpa using hcolon), List.forall_mem_cons]
        rfl
      rw [htexts, List.mapM_cons]
      by_cases htext : HasText line
      . have hrest : ¬Taken lines := fun hrest => h (List.forall_mem_cons.mpr ⟨⟨hcolon, htext⟩, hrest⟩)
        obtain ⟨hreturned, hthrown⟩ := ih hrest
        rw [httpField_of_hasText hcolon htext, and_iff_right htext]
        exact ⟨fun h => by rw [hreturned h]; rfl, fun h => by rw [hthrown h]; rfl⟩
      . rw [httpField_of_not_hasText htext]
        exact ⟨fun h => absurd h.left htext, fun _ => rfl⟩
    . have htexts : TextsBefore (line :: lines) := by
        rw [TextsBefore, List.takeWhile_cons_of_neg (by simpa using hcolon)]
        exact List.forall_mem_nil _
      rw [List.mapM_cons, httpField_of_not_mem hcolon]
      exact ⟨fun _ => rfl, fun h => absurd htexts h⟩

end Fields

section Headers

variable {fields : List (List UInt8 × List UInt8)} {lines kept : List (List UInt8)}

/--
The parser returns. With success there is for each name the value of the first of the lines with this name.
-/
def ReturnsFields (kept : List (List UInt8)) : Except HttpStop HttpMap → Prop
  | .error stop => stop = .returned
  | .ok headers => ∀ name, headers name = (kept.find? fun line => fieldName line = name).map fieldValue

/--
There is one byte of white space in each line that is the first one with its name.
-/
def OneSpaced (kept : List (List UInt8)) : Prop :=
  ∀ line, kept.find? (fun other => fieldName other = fieldName line) = some line → OneSpace line

theorem returnsFields_taken_iff (h : Taken kept)
    : ReturnsFields kept (.ok fun name => (kept.find? fun line => fieldName line = name).map takenValue)
      ↔ OneSpaced kept := by
  have hvalue : ∀ {name line}, kept.find? (fun line => fieldName line = name) = some line →
      (takenValue line = fieldValue line ↔ OneSpace line) := by
    intro name line hfind
    obtain ⟨hcolon, htext⟩ := h line (List.mem_of_find?_eq_some hfind)
    exact takenValue_eq_iff hcolon htext
  show (∀ name, (kept.find? fun line => fieldName line = name).map takenValue
    = (kept.find? fun line => fieldName line = name).map fieldValue) ↔ OneSpaced kept
  constructor
  . intro hreturns line hfind
    have hname := hreturns (fieldName line)
    rw [hfind] at hname
    exact (hvalue hfind).mp (Option.some.inj hname)
  . intro hspaced name
    cases hfind : kept.find? fun line => fieldName line = name with
    | none => rfl
    | some line =>
      have hname := List.find?_some hfind
      obtain rfl : fieldName line = name := of_decide_eq_true hname
      exact congrArg some ((hvalue hfind).mpr (hspaced line hfind))

theorem HttpSession.storeHeaders_eq (request : HttpRequest) (lines : List (List UInt8))
    : storeHeaders request lines = (lines.mapM (httpField .returned)).map (·.foldl store request) := by
  induction lines generalizing request with
  | nil => rfl
  | cons line lines ih =>
    rw [storeHeaders, List.mapM_cons]
    cases httpField .returned line with
    | error stop => rfl
    | ok field =>
      refine (ih (store request field)).trans ?_
      cases lines.mapM (httpField .returned) <;> rfl

theorem HttpClientHeader.storeHeaders_eq (h : HttpClientHeader) (lines : List (List UInt8))
    : storeHeaders h lines = (lines.mapM (httpField .thrown)).map (·.foldl store h) := by
  induction lines generalizing h with
  | nil => rfl
  | cons line lines ih =>
    rw [storeHeaders, List.mapM_cons]
    cases httpField .thrown line with
    | error stop => rfl
    | ok field =>
      refine (ih (store h field)).trans ?_
      cases lines.mapM (httpField .thrown) <;> rfl

theorem HttpSession.headers_foldl_store (request : HttpRequest) (name : List UInt8)
    : (fields.foldl store request).headers name
      = (request.headers name).or ((fields.find? fun field => field.1 = name).map Prod.snd) := by
  induction fields generalizing request with
  | nil => exact (Option.or_none).symm
  | cons field fields ih =>
    rw [List.foldl_cons, ih, List.find?_cons]
    by_cases hname : field.1 = name
    . rw [decide_eq_true hname, ← hname, store]
      simp only
      cases hkept : request.headers field.1 with
      | none => simp
      | some value => simp [hkept]
    . rw [decide_eq_false hname, store]
      simp only
      split
      . rfl
      . rw [Function.update_of_ne (Ne.symm hname)]

theorem HttpClientHeader.headers_foldl_store (h : HttpClientHeader) (name : List UInt8)
    : (fields.foldl store h).headers name
      = ((fields.reverse.find? fun field => field.1 = name).map Prod.snd).or (h.headers name) := by
  induction fields generalizing h with
  | nil => rfl
  | cons field fields ih =>
    rw [List.foldl_cons, ih, List.reverse_cons, List.find?_append, List.find?_singleton, store]
    cases fields.reverse.find? fun field => field.1 = name with
    | some last => rfl
    | none =>
      by_cases hname : field.1 = name
      . simp [hname]
      . simp [hname, Function.update_of_ne (Ne.symm hname)]

theorem find?_taken (kept : List (List UInt8)) (name : List UInt8)
    : ((kept.map fun line => (fieldName line, takenValue line)).find? fun field => field.1 = name).map Prod.snd
      = (kept.find? fun line => fieldName line = name).map takenValue := by
  rw [List.find?_map, Option.map_map]
  rfl

/--
The lines behind the first one of the header.
-/
def headerLines (data : List UInt8) : List (List UInt8) :=
  match find (crlf ++ crlf) data with
  | none => []
  | some pos => (stringSplit 13 [10] (data.take pos)).tail

section Session

/--
The first line of a header is that of a request, with the position of HTTP in its third piece.
-/
def RequestLine (params : HttpMap) (headerStr versionInfo : List UInt8) (pos : Nat) (lines : List (List UInt8)) : Prop :=
  ∃ firstLine method target, stringSplit 13 [10] headerStr = firstLine :: lines
    ∧ stringSplit 32 [] firstLine = [method, target, versionInfo] ∧ (getUriAndParams target params).isSome
    ∧ find (ascii ['H', 'T', 'T', 'P']) versionInfo = some pos

variable {request : HttpRequest} {headerStr versionInfo : List UInt8} {pos : Nat}

theorem HttpSession.parseHeaderResult_of_refused
    (h : ∀ versionInfo pos lines, ¬RequestLine request.params headerStr versionInfo pos lines)
    : parseHeaderResult request headerStr = .error .returned := by
  rw [parseHeaderResult]
  cases hvec : stringSplit 13 [10] headerStr with
  | nil => rfl
  | cons firstLine lines =>
    simp only
    split
    . next method target versionInfo hwords =>
      cases huri : getUriAndParams target request.params with
      | none => rfl
      | some uri =>
        cases hfind : find (ascii ['H', 'T', 'T', 'P']) versionInfo with
        | none => rfl
        | some pos =>
          have hline : RequestLine request.params headerStr versionInfo pos lines :=
            ⟨firstLine, method, target, hvec, hwords, by rw [huri]; rfl, hfind⟩
          exact absurd hline (h _ _ _)
    . rfl

theorem HttpSession.parseHeaderResult_of_line (request : HttpRequest)
    (h : RequestLine request.params headerStr versionInfo pos lines)
    : (versionInfo.length < pos + 5 → parseHeaderResult request headerStr = .error .thrown)
      ∧ (pos + 5 ≤ versionInfo.length → ∃ next, next.headers = request.headers
        ∧ parseHeaderResult request headerStr = storeHeaders next lines) := by
  obtain ⟨firstLine, method, target, hvec, hwords, huri, hfind⟩ := h
  obtain ⟨uri, huri⟩ := Option.isSome_iff_exists.mp huri
  rw [parseHeaderResult, hvec]
  simp only [hwords, huri, hfind]
  constructor
  . intro hlt
    rw [substr, if_pos hlt]
  . intro hle
    rw [substr, if_neg (Nat.not_lt.mpr hle)]
    let next : HttpRequest :=
      { request with method, uri := uri.1, params := uri.2, version := versionInfo.drop (pos + 5) }
    exact ⟨next, rfl, rfl⟩

theorem RequestLine.tail {params : HttpMap} (h : RequestLine params headerStr versionInfo pos lines)
    : (stringSplit 13 [10] headerStr).tail = lines := by
  obtain ⟨firstLine, method, target, hvec, -⟩ := h
  rw [hvec, List.tail_cons]

theorem RequestLine.unique {params : HttpMap} {versionInfo' : List UInt8} {pos' : Nat} {lines' : List (List UInt8)}
    (h : RequestLine params headerStr versionInfo pos lines)
    (h' : RequestLine params headerStr versionInfo' pos' lines')
    : versionInfo = versionInfo' ∧ pos = pos' ∧ lines = lines' := by
  have hlines := h.tail.symm.trans h'.tail
  obtain ⟨firstLine, method, target, hvec, hwords, -, hfind⟩ := h
  obtain ⟨firstLine', method', target', hvec', hwords', -, hfind'⟩ := h'
  rw [hvec, List.cons.injEq] at hvec'
  rw [← hvec'.left, hwords, List.cons.injEq, List.cons.injEq, List.cons.injEq] at hwords'
  rw [← hwords'.right.right.left, hfind] at hfind'
  exact ⟨hwords'.right.right.left, Option.some.inj hfind', hlines⟩

/--
What is stored are the values that are taken, if there is no exception.
-/
theorem HttpSession.returnsFields_storeHeaders (hheaders : request.headers = fun _ => none)
    : ReturnsFields lines ((storeHeaders request lines).map (·.headers))
      ↔ TextsBefore lines ∧ ((∀ line ∈ lines, 58 ∈ line) → OneSpaced lines) := by
  rw [storeHeaders_eq]
  by_cases htaken : Taken lines
  . have htexts : TextsBefore lines := fun line hline => (htaken line ((List.takeWhile_sublist _).mem hline)).right
    have hcolons : ∀ line ∈ lines, 58 ∈ line := fun line hline => (htaken line hline).left
    have hmap : (((lines.map fun line => (fieldName line, takenValue line)).foldl store request).headers)
        = fun name => (lines.find? fun line => fieldName line = name).map takenValue := by
      funext name
      rw [headers_foldl_store, hheaders, Option.none_or, find?_taken]
    rw [mapM_httpField htaken, and_iff_right htexts, imp_iff_right hcolons, ← returnsFields_taken_iff htaken, ← hmap]
    rfl
  . obtain ⟨hreturned, hthrown⟩ := @mapM_httpField_of_not_taken .returned lines htaken
    by_cases htexts : TextsBefore lines
    . rw [hreturned htexts, and_iff_right htexts]
      refine iff_of_true rfl ?_
      intro hcolons
      have hall : lines.takeWhile (58 ∈ ·) = lines := List.takeWhile_eq_self_iff.mpr (by simpa using hcolons)
      rw [TextsBefore, hall] at htexts
      exact absurd (fun line hline => ⟨hcolons line hline, htexts line hline⟩) htaken
    . rw [hthrown htexts]
      refine iff_of_false ?_ (fun h => htexts h.left)
      intro h
      cases h

theorem HttpSession.returnsFields_iff (data : List UInt8)
    : ReturnsFields (headerLines data) ((analyzeHeaderResult { headerData := data }).map (·.request.headers))
      ↔ ∀ pos versionInfo versionPos lines, find (crlf ++ crlf) data = some pos →
        RequestLine (fun _ => none) (data.take pos) versionInfo versionPos lines →
        versionPos + 5 ≤ versionInfo.length ∧ TextsBefore lines
          ∧ ((∀ line ∈ lines, 58 ∈ line) → OneSpaced lines) := by
  rw [headerLines, analyzeHeaderResult]
  cases hfind : find (crlf ++ crlf) data with
  | none => exact iff_of_true (fun _ => rfl) (fun _ _ _ _ h => nomatch h)
  | some pos =>
    simp only
    have hmap : ∀ (result : Except HttpStop HttpRequest) (f : HttpRequest → HttpSession),
        (result.map f).map (·.request.headers) = result.map fun request => (f request).request.headers := by
      rintro (stop | request) f
      . rfl
      . rfl
    rw [hmap]
    by_cases hline : ∃ versionInfo versionPos lines,
        RequestLine (fun _ => none) (data.take pos) versionInfo versionPos lines
    . obtain ⟨versionInfo, versionPos, lines, hline⟩ := hline
      obtain ⟨hthrown, hstored⟩ := parseHeaderResult_of_line {} hline
      have hright : (∀ pos' versionInfo' versionPos' lines', some pos = some pos' →
          RequestLine (fun _ => none) (data.take pos') versionInfo' versionPos' lines' →
          versionPos' + 5 ≤ versionInfo'.length ∧ TextsBefore lines'
            ∧ ((∀ line ∈ lines', 58 ∈ line) → OneSpaced lines'))
          ↔ versionPos + 5 ≤ versionInfo.length ∧ TextsBefore lines
            ∧ ((∀ line ∈ lines, 58 ∈ line) → OneSpaced lines) := by
        constructor
        . exact fun h => h _ _ _ _ rfl hline
        . rintro h pos' versionInfo' versionPos' lines' hpos hline'
          cases hpos
          obtain ⟨rfl, rfl, rfl⟩ := hline.unique hline'
          exact h
      rw [hright, hline.tail]
      by_cases hle : versionPos + 5 ≤ versionInfo.length
      . obtain ⟨next, hheaders, hparse⟩ := hstored hle
        rw [and_iff_right hle, hparse]
        exact returnsFields_storeHeaders hheaders
      . rw [hthrown (Nat.lt_of_not_le hle)]
        refine iff_of_false ?_ (fun h => hle h.left)
        intro h
        cases h
    . have hrefused : ∀ versionInfo versionPos lines,
          ¬RequestLine (fun _ => none) (data.take pos) versionInfo versionPos lines :=
        fun versionInfo versionPos lines h => hline ⟨versionInfo, versionPos, lines, h⟩
      rw [parseHeaderResult_of_refused hrefused]
      refine iff_of_true rfl ?_
      rintro pos' versionInfo versionPos lines hpos h
      cases hpos
      exact absurd h (hrefused _ _ _)

end Session

section Client

variable {h : HttpClientHeader} {headerStr line : List UInt8}

/--
The line has three pieces and a slash in the first of them.
-/
def StatusLine (line : List UInt8) : Prop :=
  ∃ item code status more, stringSplit 32 [] line = item :: code :: status :: more ∧ 47 ∈ item

theorem HttpClientHeader.parseResult_of_line (hvec : stringSplit 13 [10] headerStr = line :: lines)
    : (StatusLine line → ∃ next, next.headers = h.headers ∧ parseResult h headerStr = storeHeaders next lines)
      ∧ (¬StatusLine line → parseResult h headerStr = .error .thrown) := by
  rw [parseResult, hvec]
  simp only
  constructor
  . rintro ⟨item, code, status, more, hwords, hslash⟩
    obtain ⟨proto, version, rfl, hproto⟩ := List.eq_append_cons_of_mem hslash
    have hfind : find [47] (proto ++ 47 :: version) = some proto.length := find_append hproto version
    rw [hwords]
    simp only [hfind]
    let next : HttpClientHeader :=
      { h with
        proto := (proto ++ 47 :: version).take proto.length
        version := (proto ++ 47 :: version).drop (proto.length + 1)
        statusCode := atoi code
        status := (status :: more).flatten }
    exact ⟨next, rfl, rfl⟩
  . intro hline
    split
    . next item code status more hwords =>
      rw [find_of_not_mem fun hslash => hline ⟨item, code, status, more, hwords, hslash⟩]
    . rfl

theorem HttpClientHeader.returnsFields_storeHeaders (hheaders : h.headers = fun _ => none)
    : ReturnsFields lines.reverse ((storeHeaders h lines).map (·.headers))
      ↔ Taken lines ∧ OneSpaced lines.reverse := by
  rw [storeHeaders_eq]
  by_cases htaken : Taken lines
  . have hmap : (((lines.map fun line => (fieldName line, takenValue line)).foldl store h).headers)
        = fun name => (lines.reverse.find? fun line => fieldName line = name).map takenValue := by
      funext name
      rw [headers_foldl_store, hheaders, Option.or_none, ← List.map_reverse, find?_taken]
    have hreverse : Taken lines.reverse := fun line hline => htaken line (List.mem_reverse.mp hline)
    rw [mapM_httpField htaken, and_iff_right htaken, ← returnsFields_taken_iff hreverse, ← hmap]
    rfl
  . obtain ⟨hreturned, hthrown⟩ := @mapM_httpField_of_not_taken .thrown lines htaken
    have herror : lines.mapM (httpField .thrown) = .error .thrown := (em (TextsBefore lines)).elim hreturned hthrown
    rw [herror]
    refine iff_of_false ?_ (fun h => htaken h.left)
    intro h
    cases h

theorem HttpClientHeader.returnsFields_iff (data : List UInt8)
    : ReturnsFields (headerLines data).reverse ((onReadResult {} data).map (·.headers))
      ↔ ∀ pos line lines, find (crlf ++ crlf) data = some pos → stringSplit 13 [10] (data.take pos) = line :: lines →
        StatusLine line ∧ Taken lines ∧ OneSpaced lines.reverse := by
  rw [headerLines, onReadResult]
  cases find (crlf ++ crlf) data with
  | none => exact iff_of_true (fun _ => rfl) (fun _ _ _ h => nomatch h)
  | some pos =>
    simp only
    cases hvec : stringSplit 13 [10] (data.take pos) with
    | nil =>
      rw [parseResult, hvec]
      refine iff_of_true (fun _ => rfl) ?_
      intro pos' line lines hpos h
      cases hpos
      rw [hvec] at h
      cases h
    | cons line lines =>
      obtain ⟨hstored, hthrown⟩ := @parseResult_of_line lines {} _ _ hvec
      have hright : (∀ pos' line' lines', some pos = some pos' →
          stringSplit 13 [10] (data.take pos') = line' :: lines' →
          StatusLine line' ∧ Taken lines' ∧ OneSpaced lines'.reverse)
          ↔ StatusLine line ∧ Taken lines ∧ OneSpaced lines.reverse := by
        constructor
        . exact fun h => h _ _ _ rfl hvec
        . rintro h pos' line' lines' hpos heq
          cases hpos
          rw [hvec] at heq
          cases heq
          exact h
      rw [hright, List.tail_cons]
      by_cases hline : StatusLine line
      . obtain ⟨next, hheaders, hparse⟩ := hstored hline
        rw [and_iff_right hline, hparse]
        exact returnsFields_storeHeaders hheaders
      . rw [hthrown hline]
        refine iff_of_false ?_ (fun h => hline h.left)
        intro h
        cases h

end Client

/--
The parsers of both sides return the values of the fields exactly if none of the lines they come to is too short, and in
each line that is kept there is one byte of white space behind the colon.
-/
theorem returnsFields_both_iff (data : List UInt8)
    : (ReturnsFields (headerLines data)
          ((HttpSession.analyzeHeaderResult { headerData := data }).map (·.request.headers))
        ↔ ∀ pos versionInfo versionPos lines, find (crlf ++ crlf) data = some pos →
          RequestLine (fun _ => none) (data.take pos) versionInfo versionPos lines →
          versionPos + 5 ≤ versionInfo.length ∧ TextsBefore lines
            ∧ ((∀ line ∈ lines, 58 ∈ line) → OneSpaced lines))
      ∧ (ReturnsFields (headerLines data).reverse ((HttpClientHeader.onReadResult {} data).map (·.headers))
        ↔ ∀ pos line lines, find (crlf ++ crlf) data = some pos →
          stringSplit 13 [10] (data.take pos) = line :: lines →
          StatusLine line ∧ Taken lines ∧ OneSpaced lines.reverse) :=
  ⟨HttpSession.returnsFields_iff data, HttpClientHeader.returnsFields_iff data⟩

def stopOf {α : Type} : Except HttpStop α → Option HttpStop
  | .error stop => some stop
  | .ok _ => none

theorem not_returnsFields_of_thrown {α : Type} {result : Except HttpStop α} (h : stopOf result = some .thrown)
    (f : α → HttpMap) : ¬ReturnsFields kept (result.map f) := by
  cases result with
  | error stop =>
    cases h
    intro hreturned
    cases hreturned
  | ok a => cases h

/--
A field without a value is an exception on both sides.
-/
theorem not_returnsFields_empty
    : ¬ReturnsFields (headerLines (utf8 "GET / HTTP/1.1\r\nHost:\r\n\r\n"))
        ((HttpSession.analyzeHeaderResult { headerData := utf8 "GET / HTTP/1.1\r\nHost:\r\n\r\n" }).map
          (·.request.headers))
      ∧ ¬ReturnsFields (headerLines (utf8 "HTTP/1.1 200 OK\r\nServer:\r\n\r\n")).reverse
        ((HttpClientHeader.onReadResult {} (utf8 "HTTP/1.1 200 OK\r\nServer:\r\n\r\n")).map (·.headers)) :=
  ⟨not_returnsFields_of_thrown (by decide +kernel) _, not_returnsFields_of_thrown (by decide +kernel) _⟩

-- Without the space a value loses its first byte.
example : ((HttpSession.analyzeHeaderResult { headerData := utf8 "GET / HTTP/1.1\r\nHost:ab\r\n\r\n" }).toOption.bind
    fun s => s.request.headers (utf8 "Host")) = some (utf8 "b") := by decide +kernel

end Headers
