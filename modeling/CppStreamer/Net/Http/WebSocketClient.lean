import CppStreamer.Net.Http.WsHandover

/-!
This module contains the client side of the upgrade: `HttpClient` reads the response, `WebSocketClient` takes it and
what is read behind it.
-/

open StringEx Cuts
open HttpSession (crlf contentLengthKey)

/--
What is kept of the header of a response.
-/
structure HttpClientHeader where
  status : List UInt8 := ascii ['O', 'K']
  statusCode : Int := 200
  proto : List UInt8 := ascii ['H', 'T', 'T', 'P']
  version : List UInt8 := ascii ['1', '.', '1']
  headers : HttpMap := fun _ => none
  contentLength : Int := 0

/--
The buffer holds less than 2 ^ 31 bytes, which `int` keeps.
-/
structure HttpClientResponse extends HttpClientHeader where
  data : List UInt8 := []
  headerReady : Bool := false
  bodyReady : Bool := false

namespace HttpClientHeader

/--
The loop over the lines behind the first one, `none` for an assertion that fails or an exception.
-/
def insertHeaders (h : HttpClientHeader) : List (List UInt8) → Option HttpClientHeader
  | [] => some h
  | line :: lines =>
    match find [58] line with
    | none => none
    | some pos =>
      match substr line (pos + 2) with
      | none => none
      | some value =>
        let key := line.take pos
        insertHeaders
          { h with
            contentLength := if key = contentLengthKey then atoi value else h.contentLength
            headers := Function.update h.headers key (some value) } lines

def parse (h : HttpClientHeader) (headerStr : List UInt8) : Option HttpClientHeader :=
  match stringSplit 13 [10] headerStr with
  | [] => some h
  | line :: lines =>
    match stringSplit 32 [] line with
    | item :: code :: status :: more =>
      match find [47] item with
      | none => none
      | some pos =>
        insertHeaders
          { h with
            proto := item.take pos
            version := item.drop (pos + 1)
            statusCode := atoi code
            status := (status :: more).flatten } lines
    | _ => none

def connectionKey : List UInt8 := ascii ['C', 'o', 'n', 'n', 'e', 'c', 't', 'i', 'o', 'n']

def upgradeKey : List UInt8 := ascii ['U', 'p', 'g', 'r', 'a', 'd', 'e']

def acceptKey : List UInt8 :=
  ascii ['S', 'e', 'c', '-', 'W', 'e', 'b', 'S', 'o', 'c', 'k', 'e', 't', '-', 'A', 'c', 'c', 'e', 'p', 't']

/--
`operator[]` of the map.
-/
def field (h : HttpClientHeader) (key : List UInt8) : List UInt8 := (h.headers key).getD []

/--
What the client asks for, with the hash of its own key.
-/
structure Switches (h : HttpClientHeader) (hashCode : List UInt8) : Prop where
  statusCode : h.statusCode = 101
  connection : h.field connectionKey = upgradeKey
  upgrade : h.field upgradeKey = ascii ['w', 'e', 'b', 's', 'o', 'c', 'k', 'e', 't']
  accept : h.field acceptKey = hashCode

instance (h : HttpClientHeader) (hashCode : List UInt8) : Decidable (h.Switches hashCode) :=
  decidable_of_iff
    (h.statusCode = 101 ∧ h.field connectionKey = upgradeKey
      ∧ h.field upgradeKey = ascii ['w', 'e', 'b', 's', 'o', 'c', 'k', 'e', 't'] ∧ h.field acceptKey = hashCode)
    ⟨fun ⟨hcode, hconnection, hupgrade, haccept⟩ => ⟨hcode, hconnection, hupgrade, haccept⟩,
      fun ⟨hcode, hconnection, hupgrade, haccept⟩ => ⟨hcode, hconnection, hupgrade, haccept⟩⟩

/--
The upgrade takes place.
-/
def Accepts (hashCode header : List UInt8) : Prop := ∃ h ∈ parse {} header, h.Switches hashCode

instance (hashCode header : List UInt8) : Decidable (Accepts hashCode header) := by
  unfold Accepts
  infer_instance

/--
The content length of a header, 0 if it has none.
-/
def lengthOf (header : List UInt8) : Int := ((parse {} header).map contentLength).getD 0

end HttpClientHeader

structure WebSocketClient where
  resp : HttpClientResponse := {}
  httpReady : Bool := false
  isConnected : Bool := false

namespace WebSocketClient

open HttpClientHeader

def handleHttpRespone (hashCode : List UInt8) (c : WebSocketClient) : WebSocketClient :=
  if c.resp.statusCode ≠ 101 then { c with isConnected := false }
  else if c.resp.field connectionKey ≠ upgradeKey then { c with isConnected := false }
  else if c.resp.field upgradeKey ≠ ascii ['w', 'e', 'b', 's', 'o', 'c', 'k', 'e', 't'] then
    { c with isConnected := false }
  else if hashCode ≠ c.resp.field acceptKey then { c with isConnected := false }
  else
    { c with
      httpReady := true
      isConnected := true
      resp := { c.resp with data := [] } }

/--
`OnHttpRead` with the result 0. The first component is what `HandleFrame` is called with.
-/
def onHttpRead (hashCode : List UInt8) (c : WebSocketClient) : Option (List UInt8) × WebSocketClient :=
  if c.httpReady then (some c.resp.data, { c with resp := { c.resp with data := [] } })
  else (none, c.handleHttpRespone hashCode)

/--
The part of `HttpClient::OnRead` behind the header.
-/
def onBody (hashCode : List UInt8) (c : WebSocketClient) : Option (List UInt8) × WebSocketClient :=
  if 0 < c.resp.contentLength then
    if c.resp.contentLength ≤ c.resp.data.length then
      onHttpRead hashCode { c with resp := { c.resp with bodyReady := true } }
    else (none, c)
  else onHttpRead hashCode c

/--
`HttpClient::OnRead`, `none` if the program ends. Reading goes on in any case.
-/
def onRead (hashCode : List UInt8) (c : WebSocketClient) (data : List UInt8)
    : Option (Option (List UInt8) × WebSocketClient) :=
  if data = [] then some (none, { c with isConnected := false })
  else
    let resp := { c.resp with data := c.resp.data ++ data }
    if resp.headerReady then some (onBody hashCode { c with resp })
    else
      match find (crlf ++ crlf) resp.data with
      | none => some (none, { c with resp })
      | some pos =>
        match resp.toHttpClientHeader.parse (resp.data.take pos) with
        | none => none
        | some header =>
          some (onBody hashCode
            { c with
              resp :=
                { resp with
                  toHttpClientHeader := header
                  data := resp.data.drop (pos + 4)
                  headerReady := true } })

section Reads

variable {hashCode data : List UInt8} {c : WebSocketClient} {h : HttpClientHeader} {n pos : Nat}

/--
The header has been read, and `held` are the bytes that wait in the buffer.
-/
structure Reading (h : HttpClientHeader) (c : WebSocketClient) (httpReady : Bool) (held : List UInt8) : Prop where
  header : c.resp.toHttpClientHeader = h
  headerReady : c.resp.headerReady = true
  httpReady : c.httpReady = httpReady
  data : c.resp.data = held

theorem handleHttpRespone_switches (hswitches : h.Switches hashCode) (hreading : Reading h c false data)
    : Reading h (c.handleHttpRespone hashCode) true [] := by
  obtain ⟨hcode, hconnection, hupgrade, haccept⟩ := hswitches
  obtain ⟨hheader, hready, -, -⟩ := hreading
  unfold handleHttpRespone
  rw [hheader, if_neg (by simp [hcode]), if_neg (by simp [hconnection]), if_neg (by simp [hupgrade]),
    if_neg (by simp [haccept])]
  exact ⟨hheader, hready, rfl, rfl⟩

/--
As long as there is less than the content length, nothing happens to what is held.
-/
theorem onBody_holds {ready : Bool} (hreading : Reading h c ready data) (hlt : ¬h.contentLength ≤ data.length)
    : onBody hashCode c = (none, c) := by
  obtain ⟨rfl, -, -, rfl⟩ := hreading
  rw [onBody, if_pos (by omega), if_neg hlt]

theorem onBody_reaches {ready : Bool} (hreading : Reading h c ready data) (hle : h.contentLength ≤ data.length)
    : ∃ c', onBody hashCode c = onHttpRead hashCode c' ∧ Reading h c' ready data := by
  obtain ⟨rfl, hready, rfl, rfl⟩ := hreading
  rw [onBody, if_pos hle]
  split
  . exact ⟨_, rfl, rfl, hready, rfl, rfl⟩
  . exact ⟨_, rfl, rfl, hready, rfl, rfl⟩

/--
What there is when the response is taken is left behind.
-/
theorem onBody_first (hswitches : h.Switches hashCode) (hreading : Reading h c false data)
    (hle : h.contentLength ≤ data.length)
    : ∃ c', onBody hashCode c = (none, c') ∧ Reading h c' true [] := by
  obtain ⟨c', heq, hreading'⟩ := @onBody_reaches hashCode _ _ _ _ hreading hle
  rw [heq, onHttpRead, if_neg (by simp [hreading'.httpReady])]
  exact ⟨_, rfl, handleHttpRespone_switches hswitches hreading'⟩

theorem onBody_next (hreading : Reading h c true data) (hle : h.contentLength ≤ data.length)
    : ∃ c', onBody hashCode c = (some data, c') ∧ Reading h c' true [] := by
  obtain ⟨c', heq, hreading'⟩ := @onBody_reaches hashCode _ _ _ _ hreading hle
  rw [heq, onHttpRead, if_pos hreading'.httpReady, hreading'.data]
  exact ⟨_, rfl, hreading'.header, hreading'.headerReady, hreading'.httpReady, rfl⟩

theorem onRead_of_ready {ready : Bool} {held : List UInt8} (hreading : Reading h c ready held) (hne : data ≠ [])
    : ∃ c', onRead hashCode c data = some (onBody hashCode c') ∧ Reading h c' ready (held ++ data) := by
  obtain ⟨rfl, hready, rfl, rfl⟩ := hreading
  simp only [onRead]
  rw [if_neg hne, if_pos hready]
  exact ⟨_, rfl, rfl, hready, rfl, rfl⟩

theorem onRead_waits (hready : c.resp.headerReady = false) (hne : data ≠ [])
    (hfind : find (crlf ++ crlf) (c.resp.data ++ data) = none)
    : onRead hashCode c data = some (none, { c with resp := { c.resp with data := c.resp.data ++ data } }) := by
  simp [onRead, hready, hne, hfind]

theorem onRead_ends (hready : c.resp.headerReady = false) (hne : data ≠ [])
    (hfind : find (crlf ++ crlf) (c.resp.data ++ data) = some n)
    (hparse : c.resp.toHttpClientHeader.parse ((c.resp.data ++ data).take n) = some h)
    : ∃ c', onRead hashCode c data = some (onBody hashCode c')
        ∧ Reading h c' c.httpReady ((c.resp.data ++ data).drop (n + 4)) := by
  simp only [onRead]
  rw [if_neg hne, if_neg (by simp [hready]), hfind]
  simp only
  rw [hparse]
  exact ⟨_, rfl, rfl, rfl, rfl, rfl⟩

/--
The response has been taken, everything is handed over from now on.
-/
theorem handedOver_of_ready (reads : List (Int × List UInt8)) (hne : ∀ read ∈ reads, read.2 ≠ [])
    : ∀ {c : WebSocketClient} {held : List UInt8} {pos : Nat}, Reading h c true held → held.length ≤ pos →
        handedOver (onRead hashCode) c pos reads
          = placed (pos - held.length) (gather h.contentLength held reads) := by
  induction reads with
  | nil =>
    intro c held pos _ _
    rfl
  | cons read reads ih =>
    intro c held pos hreading hle
    obtain ⟨nowMs, data⟩ := read
    rw [List.forall_mem_cons] at hne
    have hdata : data ≠ [] := hne.left
    obtain ⟨c', heq, hreading'⟩ := @onRead_of_ready hashCode _ _ _ _ _ hreading hdata
    have hlen := @List.length_append _ held data
    rw [handedOver, heq, gather]
    by_cases hreach : h.contentLength ≤ (held ++ data).length
    . obtain ⟨c'', hbody, hreading''⟩ := @onBody_next hashCode _ _ _ hreading' hreach
      have hpos : pos - held.length + (held ++ data).length = pos + data.length := by
        omega
      rw [hbody, if_pos hreach, placed, hpos]
      simp only
      rw [ih hne.right hreading'' (Nat.zero_le _), List.length_nil, Nat.sub_zero]
    . have hpos : pos + data.length - (held ++ data).length = pos - held.length := by
        omega
      rw [onBody_holds hreading' hreach, if_neg hreach]
      simp only
      rw [ih hne.right hreading' (by omega), hpos]

/--
What is done with the first bytes behind the header, and with the reads that follow them.
-/
theorem handedOver_onBody (hswitches : h.Switches hashCode) (reads : List (Int × List UInt8))
    (hne : ∀ read ∈ reads, read.2 ≠ [])
    : ∀ {c : WebSocketClient} (nowMs : Int) {held : List UInt8} {pos : Nat}, Reading h c false held →
        held.length ≤ pos →
        ∃ c', onBody hashCode c = (none, c') ∧ handedOver (onRead hashCode) c' pos reads
          = placed (pos - held.length + (first (gather h.contentLength [] ((nowMs, held) :: reads))).length)
              (gather h.contentLength [] ((nowMs, held) :: reads)).tail := by
  induction reads with
  | nil =>
    intro c nowMs held pos hreading hle
    by_cases hreach : h.contentLength ≤ held.length
    . obtain ⟨c', hbody, -⟩ := onBody_first hswitches hreading hreach
      rw [gather_cons_of_le hreach]
      exact ⟨c', hbody, rfl⟩
    . rw [gather_cons_of_lt hreach]
      exact ⟨c, onBody_holds hreading hreach, rfl⟩
  | cons read reads ih =>
    intro c nowMs held pos hreading hle
    by_cases hreach : h.contentLength ≤ held.length
    . obtain ⟨c', hbody, hreading'⟩ := onBody_first hswitches hreading hreach
      refine ⟨c', hbody, ?_⟩
      have hpos : pos - held.length + held.length = pos := by
        omega
      rw [handedOver_of_ready _ hne hreading' (Nat.zero_le _), gather_cons_of_le hreach, first, hpos]
      rfl
    . obtain ⟨t, data⟩ := read
      rw [List.forall_mem_cons] at hne
      have hdata : data ≠ [] := hne.left
      obtain ⟨c', heq, hreading'⟩ := @onRead_of_ready hashCode _ _ _ _ _ hreading hdata
      have hlen := @List.length_append _ held data
      obtain ⟨c'', hbody, hrest⟩ := @ih hne.right _ t _ (pos + data.length) hreading' (by omega)
      have hpos : pos + data.length - (held ++ data).length = pos - held.length := by
        omega
      refine ⟨c, onBody_holds hreading hreach, ?_⟩
      rw [handedOver, heq, hbody, gather_cons_of_lt hreach, gather_cons_append]
      simp only
      rw [hrest, hpos]

theorem handedOver_header (hswitches : h.Switches hashCode) (reads : List (Int × List UInt8)) {header : List UInt8}
    (hparse : HttpClientHeader.parse {} header = some h) (hlen : header.length = n)
    (hne : ∀ read ∈ reads, read.2 ≠ [])
    : ∀ {c : WebSocketClient} {pos : Nat}, c.httpReady = false → c.resp.headerReady = false →
        c.resp.toHttpClientHeader = {} → c.resp.data.length = pos →
        find (crlf ++ crlf) (c.resp.data ++ stream reads) = some n → pos < n + 4 →
        header <+: c.resp.data ++ stream reads →
        handedOver (onRead hashCode) c pos reads
          = placed (n + 4 + (first (gather h.contentLength [] (behind (n + 4 - pos) reads))).length)
              (gather h.contentLength [] (behind (n + 4 - pos) reads)).tail := by
  induction reads with
  | nil =>
    intro c pos _ _ _ _ _ _ _
    rfl
  | cons read reads ih =>
    intro c pos hhttp hready hnew hpos hfind hlt hfront
    obtain ⟨nowMs, data⟩ := read
    rw [List.forall_mem_cons] at hne
    have hdata : data ≠ [] := hne.left
    rw [stream_cons, ← List.append_assoc] at hfind hfront
    have hread := Upgrade.find_blankLine hfind
    rw [hpos] at hread
    rw [handedOver, behind]
    by_cases hend : n + 4 - pos ≤ data.length
    . rw [if_pos (by omega)] at hread
      have htake : (c.resp.data ++ data).take n = header := by
        have hle : n ≤ (c.resp.data ++ data).length := by
          rw [List.length_append, hpos]
          omega
        rw [List.prefix_iff_eq_take.mp hfront, hlen, List.take_append_of_le_length hle]
      have hdrop : (c.resp.data ++ data).drop (n + 4) = data.drop (n + 4 - pos) := by
        rw [List.drop_append, List.drop_eq_nil_of_le (by omega), List.nil_append, hpos]
      obtain ⟨c', heq, hreading⟩ := @onRead_ends hashCode _ _ _ _ hready hdata hread
        (by rw [htake, hnew]; exact hparse)
      rw [hhttp, hdrop] at hreading
      have hlength := List.length_drop (i := n + 4 - pos) (l := data)
      obtain ⟨c'', hbody, hrest⟩ := @handedOver_onBody _ _ hswitches reads hne.right _ nowMs _ (pos + data.length)
        hreading (by omega)
      have hstart : pos + data.length - (data.drop (n + 4 - pos)).length = n + 4 := by
        omega
      rw [heq, hbody, if_pos hend]
      simp only
      rw [hrest, hstart]
    . rw [if_neg (by omega)] at hread
      have hnext := @ih hne.right { c with resp := { c.resp with data := c.resp.data ++ data } } (pos + data.length)
        hhttp hready hnew (by rw [List.length_append, hpos]) hfind (by omega) hfront
      rw [onRead_waits hready hdata hread, if_neg hend]
      simp only
      rw [hnext, Nat.sub_sub]

theorem handedOver_upgrade (u : Upgrade (Accepts hashCode))
    : handedOver (onRead hashCode) {} 0 u.reads
        = placed (u.bodyStart + (first (gather (lengthOf u.header) [] u.behindHeader)).length)
            (gather (lengthOf u.header) [] u.behindHeader).tail := by
  obtain ⟨h, hparse, hswitches⟩ := u.accepted
  have hlength : lengthOf u.header = h.contentLength := by
    rw [lengthOf, Option.mem_def.mp hparse]
    rfl
  have hfind := u.blankLine
  rw [← u.stream_eq] at hfind
  rw [hlength]
  have hfront : u.header <+: stream u.reads := by
    rw [u.stream_eq]
    apply List.prefix_append
  exact @handedOver_header hashCode h _ hswitches u.reads _ hparse rfl u.reads_ne {} 0 rfl rfl rfl rfl hfind
    (Nat.succ_pos _) hfront

end Reads

end WebSocketClient
