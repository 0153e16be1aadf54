import Mathlib.Data.List.Lex
import CppStreamer.Basic.KeyedMap
import CppStreamer.Net.Http.WebSocketClient

/-!
This module contains `HttpClient`: the request it sends, and what its callback gets of the response, in whatever pieces
the bytes arrive.
-/

open StringEx
open HttpSession (crlf contentLengthKey)

/--
The order of the names in a map.
-/
def HttpFields.key (field : List UInt8 × List UInt8) : List Nat := field.1.map UInt8.toNat

abbrev HttpFields := KeyedMap HttpFields.key

structure HttpRead where
  ret : Int
  resp : Option HttpClientResponse

structure HttpClient where
  host : List UInt8
  method : HttpMethod := .get
  headers : HttpFields := KeyedMap.empty
  subpath : List UInt8 := []
  postData : List UInt8 := []
  resp : Option HttpClientResponse := none

namespace HttpClient

def get (c : HttpClient) (subpath : List UInt8) (headers : HttpFields) : HttpClient :=
  { c with
    method := .get
    subpath := subpath
    headers := headers }

def post (c : HttpClient) (subpath : List UInt8) (headers : HttpFields) (data : List UInt8) : HttpClient :=
  { c with
    method := .post
    subpath := subpath
    postData := data
    headers := headers }

def requestLine (c : HttpClient) : List UInt8 :=
  c.method.name ++ [32] ++ c.subpath ++ utf8 " HTTP/1.1"

def headerLines (c : HttpClient) : List (List UInt8) :=
  [utf8 "Accept: */*", utf8 "Host: " ++ c.host] ++ c.headers.infos.map (fun field => field.1 ++ utf8 ": " ++ field.2)
    ++ if c.method = .post then [utf8 "Content-Length: " ++ natText c.postData.length] else []

/--
`OnConnect` calls back with an error, or sends the request.
-/
def onConnect (c : HttpClient) (retCode : Int) : HttpRead ⊕ List UInt8 :=
  if retCode < 0 then .inl ⟨retCode, none⟩
  else
    .inr
      (c.requestLine ++ crlf ++ (c.headerLines.flatMap fun line => line ++ crlf) ++ crlf
        ++ if c.method = .post then c.postData else [])

/--
The part of `OnRead` behind the header.
-/
def onBody (c : HttpClient) (resp : HttpClientResponse) : Option HttpRead × HttpClient :=
  if 0 < resp.contentLength then
    if resp.contentLength ≤ resp.data.length then
      (some ⟨0, some { resp with bodyReady := true }⟩, { c with resp := some { resp with bodyReady := true } })
    else (none, { c with resp := some resp })
  else (some ⟨0, some resp⟩, { c with resp := some resp })

/--
`OnRead`, `none` if the program ends. Reading has been started once and goes on in any case.
-/
def onRead (c : HttpClient) (retCode : Int) (data : List UInt8) : Option (Option HttpRead × HttpClient) :=
  if retCode < 0 then some (some ⟨retCode, c.resp⟩, c)
  else if data = [] then some (some ⟨-2, c.resp⟩, c)
  else
    let old := c.resp.getD {}
    let resp := { old with data := old.data ++ data }
    if resp.headerReady then some (c.onBody resp)
    else
      match find (crlf ++ crlf) resp.data with
      | none => some (none, { c with resp := some resp })
      | some pos =>
        match resp.toHttpClientHeader.parse (resp.data.take pos) with
        | none => none
        | some header =>
          some (c.onBody
            { resp with
              toHttpClientHeader := header
              data := resp.data.drop (pos + 4)
              headerReady := true })

def onReads (c : HttpClient) : List (List UInt8) → Option (List HttpRead × HttpClient)
  | [] => some ([], c)
  | data :: reads =>
    match c.onRead 0 data with
    | none => none
    | some (read, c) => (onReads c reads).map fun (rest, c) => (read.toList ++ rest, c)

end HttpClient

/--
`OnHttpRead` of the client of WebSocket, which leaves the response as it is if there is an error.
-/
def WebSocketClient.onCallback (hashCode : List UInt8) (c : WebSocketClient)
    : Option HttpRead → Option (List UInt8) × WebSocketClient
  | none => (none, c)
  | some read => if read.ret < 0 then (none, { c with isConnected := false }) else c.onHttpRead hashCode

/--
What the client of WebSocket does with a read is what its `HttpClient` does with it, and then the callback.
-/
theorem WebSocketClient.onRead_eq (hashCode : List UInt8) (c : WebSocketClient) (http : HttpClient) (data : List UInt8)
    (hresp : http.resp = some c.resp)
    : c.onRead hashCode data
        = (http.onRead 0 data).map fun (read, http) =>
          { c with resp := http.resp.getD {} }.onCallback hashCode read := by
  have hbody (resp : HttpClientResponse)
      : { c with resp }.onBody hashCode
          = { c with resp := (http.onBody resp).2.resp.getD {} }.onCallback hashCode (http.onBody resp).1 := by
    unfold onBody HttpClient.onBody
    split
    . split
      . rfl
      . rfl
    . rfl
  unfold onRead HttpClient.onRead
  rw [if_neg (Int.lt_irrefl 0), hresp]
  by_cases hdata : data = []
  . rw [if_pos hdata, if_pos hdata]
    simp [onCallback, hresp]
  . rw [if_neg hdata, if_neg hdata]
    simp only [Option.getD_some]
    split
    . rw [hbody]
      rfl
    . cases find (crlf ++ crlf) (c.resp.data ++ data) with
      | none => rfl
      | some pos =>
        simp only
        cases c.resp.parse ((c.resp.data ++ data).take pos) with
        | none => rfl
        | some header =>
          simp only [hbody]
          rfl

namespace HttpClient

def arrived (pos : Nat) : List (List UInt8) → List Nat
  | [] => []
  | data :: reads => (pos + data.length) :: arrived (pos + data.length) reads

def callback (h : HttpClientHeader) (content : List UInt8) : HttpRead where
  ret := 0
  resp := some
    { toHttpClientHeader := h
      data := content
      headerReady := true
      bodyReady := 0 < h.contentLength }

/--
A response begins with a header that ends with its first blank line and that the parser takes.
-/
structure Response where
  header : List UInt8
  fields : HttpClientHeader
  body : List UInt8
  parsed : HttpClientHeader.parse {} header = some fields
  blankLine : find (crlf ++ crlf) (header ++ (crlf ++ crlf ++ body)) = some header.length

namespace Response

def bytes (r : Response) : List UInt8 := r.header ++ (crlf ++ crlf ++ r.body)

def bodyStart (r : Response) : Nat := r.header.length + 4

def enough (r : Response) : Nat := r.bodyStart + r.fields.contentLength.toNat

def callbacks (r : Response) (ends : List Nat) : List HttpRead :=
  (ends.filter fun stop => r.enough ≤ stop).map fun stop => callback r.fields (r.body.take (stop - r.bodyStart))

structure Receives (r : Response) (c : HttpClient) (x : List UInt8) : Prop where
  front : x <+: r.bytes
  waiting : x.length < r.bodyStart → c.resp.getD {} = { data := x }
  ready : r.bodyStart ≤ x.length → ∃ bodyReady,
    (bodyReady = true → 0 < r.fields.contentLength)
      ∧ c.resp = some
        { toHttpClientHeader := r.fields
          data := r.body.take (x.length - r.bodyStart)
          headerReady := true
          bodyReady := bodyReady }

section Reads

variable {r : Response} {c : HttpClient} {x data : List UInt8}

theorem drop_bodyStart (hfront : x <+: r.bytes)
    : x.drop r.bodyStart = r.body.take (x.length - r.bodyStart) := by
  have hbody : r.bytes.drop r.bodyStart = r.body := by
    rw [bytes, ← List.append_assoc, List.drop_left']
    simp [bodyStart, crlf]
  rw [List.prefix_iff_eq_take.mp hfront, List.drop_take, hbody, List.length_take_of_le hfront.length_le]

theorem find_blankLine (hfront : x <+: r.bytes)
    : find (crlf ++ crlf) x = if r.bodyStart ≤ x.length then some r.header.length else none := by
  have hfind : find (crlf ++ crlf) (r.bytes.take x.length) = _ := find_take (by decide) r.blankLine x.length
  rwa [← List.prefix_iff_eq_take.mp hfront] at hfind

theorem onBody_eq (c : HttpClient) {stop : Nat} {bodyReady : Bool} (hready : bodyReady = true → 0 < r.fields.contentLength)
    (hle : r.bodyStart ≤ stop) (hstop : stop ≤ r.bytes.length)
    : ∃ bodyReady', (bodyReady' = true → 0 < r.fields.contentLength)
      ∧ c.onBody
          { toHttpClientHeader := r.fields
            data := r.body.take (stop - r.bodyStart)
            headerReady := true
            bodyReady := bodyReady }
        = (if r.enough ≤ stop then some (callback r.fields (r.body.take (stop - r.bodyStart))) else none,
          { c with
            resp := some
              { toHttpClientHeader := r.fields
                data := r.body.take (stop - r.bodyStart)
                headerReady := true
                bodyReady := bodyReady' } }) := by
  have hlength : (r.body.take (stop - r.bodyStart)).length = stop - r.bodyStart := by
    rw [List.length_take_of_le]
    simp only [bytes, bodyStart, List.length_append] at hstop ⊢
    have : crlf.length = 2 := rfl
    omega
  unfold onBody
  by_cases hpos : 0 < r.fields.contentLength
  . have henough : r.fields.contentLength ≤ (r.body.take (stop - r.bodyStart)).length ↔ r.enough ≤ stop := by
      rw [hlength, enough]
      omega
    rw [if_pos hpos]
    by_cases hreach : r.enough ≤ stop
    . rw [if_pos (henough.mpr hreach), if_pos hreach]
      refine ⟨true, fun _ => hpos, ?_⟩
      simp [callback, hpos]
    . rw [if_neg (fun h => hreach (henough.mp h)), if_neg hreach]
      exact ⟨bodyReady, hready, rfl⟩
  . have hfalse : bodyReady = false := by
      cases bodyReady
      . rfl
      . exact absurd (hready rfl) hpos
    have hreach : r.enough ≤ stop := by
      rw [enough]
      omega
    rw [if_neg hpos, if_pos hreach, hfalse]
    refine ⟨false, fun h => absurd h Bool.false_ne_true, ?_⟩
    simp [callback, hpos]

theorem Receives.onRead (h : r.Receives c x) (hne : data ≠ []) (hfront : x ++ data <+: r.bytes)
    : ∃ c', c.onRead 0 data
          = some
            (if r.enough ≤ (x ++ data).length then
              some (callback r.fields (r.body.take ((x ++ data).length - r.bodyStart)))
            else none, c')
        ∧ r.Receives c' (x ++ data) := by
  have hstop := hfront.length_le
  have hlength := @List.length_append _ x data
  have hlater : r.enough ≤ (x ++ data).length → r.bodyStart ≤ (x ++ data).length := by
    rw [enough]
    omega
  unfold HttpClient.onRead
  rw [if_neg (Int.lt_irrefl 0), if_neg hne]
  by_cases hx : r.bodyStart ≤ x.length
  . obtain ⟨bodyReady, hready, hresp⟩ := h.ready hx
    have hdata : r.body.take (x.length - r.bodyStart) ++ data = r.body.take ((x ++ data).length - r.bodyStart) := by
      rw [← drop_bodyStart hfront, ← drop_bodyStart h.front, List.drop_append_of_le_length hx]
    obtain ⟨bodyReady', hready', hbody⟩ := @onBody_eq r c (x ++ data).length bodyReady hready (by omega) hstop
    simp only [hresp, Option.getD_some, hdata, if_true]
    rw [hbody]
    refine ⟨_, rfl, hfront, ?_, ?_⟩
    . intro hlt
      omega
    . exact fun _ => ⟨bodyReady', hready', rfl⟩
  . have hold := h.waiting (by omega)
    simp only [hold, Bool.false_eq_true, if_false]
    rw [find_blankLine hfront]
    by_cases hend : r.bodyStart ≤ (x ++ data).length
    . have htake : (x ++ data).take r.header.length = r.header := by
        rw [List.prefix_iff_eq_take.mp hfront, List.take_take, bytes, Nat.min_eq_left, List.take_left]
        rw [bodyStart] at hend
        omega
      obtain ⟨bodyReady', hready', hbody⟩ :=
        @onBody_eq r c (x ++ data).length false (fun h => absurd h Bool.false_ne_true) hend hstop
      rw [if_pos hend]
      simp only [htake, r.parsed]
      rw [show r.header.length + 4 = r.bodyStart from rfl, drop_bodyStart hfront, hbody]
      refine ⟨_, rfl, hfront, ?_, ?_⟩
      . intro hlt
        omega
      . exact fun _ => ⟨bodyReady', hready', rfl⟩
    . rw [if_neg hend, if_neg (fun h => hend (hlater h))]
      refine ⟨_, rfl, hfront, fun _ => rfl, ?_⟩
      intro hle
      omega

theorem Receives.onReads {reads : List (List UInt8)} (h : r.Receives c x) (hne : ∀ data ∈ reads, data ≠ [])
    (hfront : x ++ reads.flatten <+: r.bytes)
    : (c.onReads reads).map Prod.fst = some (r.callbacks (arrived x.length reads)) := by
  induction reads generalizing c x with
  | nil => rfl
  | cons data reads ih =>
    rw [List.forall_mem_cons] at hne
    rw [List.flatten_cons, ← List.append_assoc] at hfront
    obtain ⟨c', heq, hreceives⟩ := h.onRead hne.left ((List.prefix_append _ _).trans hfront)
    have hrest := ih hreceives hne.right hfront
    rw [List.length_append] at heq hrest
    rw [HttpClient.onReads, heq, arrived, callbacks, List.filter_cons]
    obtain ⟨result, hresult, hcallbacks⟩ := Option.map_eq_some_iff.mp hrest
    simp only [hresult, Option.map_some, hcallbacks, decide_eq_true_eq]
    split
    . rfl
    . rfl

theorem receives_nil (r : Response) (hnew : c.resp = none) : r.Receives c [] := by
  refine ⟨List.nil_prefix, fun _ => by rw [hnew]; rfl, ?_⟩
  intro hle
  rw [bodyStart, List.length_nil] at hle
  omega

end Reads

def sampleHeader : List UInt8 := utf8 "HTTP/1.1 200 OK\r\nContent-Length: 2"

theorem isSome_parse_sampleHeader : (HttpClientHeader.parse {} sampleHeader).isSome := by decide +kernel

def sampleResponse : Response where
  header := sampleHeader
  fields := (HttpClientHeader.parse {} sampleHeader).get isSome_parse_sampleHeader
  body := utf8 "ok"
  parsed := (Option.some_get _).symm
  blankLine := by decide +kernel

end Response

end HttpClient
