import CppStreamer.Net.Http.HeaderFields
import CppStreamer.Net.Http.HttpClient

/-!
This module contains an exchange between the two sides of HTTP: the request of `HttpClient` that `HttpSession` calls a
handler for, and what the client gets of the response that the handler writes.
-/

open StringEx
open HttpSession (crlf contentLengthKey)

structure HttpResponse where
  isClose : Bool := false
  writtenHeader : Bool := false
  status : List UInt8 := utf8 "OK"
  statusCode : Int := 200
  headers : HttpFields := KeyedMap.empty
  hasSession : Bool := true
  continueFlag : Bool := false
  remainBytes : Int := 0

namespace HttpResponse

/--
`proto_` and `version_`, which nothing sets.
-/
def proto : List UInt8 := utf8 "HTTP"

def version : List UInt8 := utf8 "1.1"

def setStatusCode (r : HttpResponse) (statusCode : Int) : HttpResponse := { r with statusCode }

def setStatus (r : HttpResponse) (status : List UInt8) : HttpResponse := { r with status }

def addHeader (r : HttpResponse) (key value : List UInt8) : HttpResponse :=
  { r with headers := r.headers.insert (key, value) }

def statusLine (r : HttpResponse) : List UInt8 :=
  proto ++ [47] ++ version ++ [32] ++ intText r.statusCode ++ [32] ++ r.status

/--
There is no blank behind the colon of the content length.
-/
def headerLines (r : HttpResponse) (len : Nat) (continueFlag : Bool) : List (List UInt8) :=
  (if continueFlag then [] else [contentLengthKey ++ [58] ++ natText len])
    ++ r.headers.infos.map fun field => field.1 ++ utf8 ": " ++ field.2

def headerBytes (r : HttpResponse) (len : Nat) (continueFlag : Bool) : List UInt8 :=
  r.statusLine ++ crlf ++ ((r.headerLines len continueFlag).flatMap fun line => line ++ crlf) ++ crlf

/--
`Write`, with what the session gets to send one after the other, `none` for -1.
-/
def write (r : HttpResponse) (data : List UInt8) (continueFlag : Bool) : Option (List (List UInt8)) × HttpResponse :=
  if r.isClose ∨ ¬r.hasSession then (none, { r with continueFlag })
  else
    let header := if r.writtenHeader then [] else [r.headerBytes data.length continueFlag]
    let sent := header ++ if data = [] then [] else [data]
    (some sent,
      { r with
        continueFlag := continueFlag
        writtenHeader := true
        remainBytes := r.remainBytes + sent.flatten.length })

def setClose (r : HttpResponse) (flag : Bool) : HttpResponse :=
  { r with
    isClose := flag
    hasSession := false }

end HttpResponse

section Lines

theorem flatMap_crlf {lines : List (List UInt8)} (hne : lines ≠ [])
    : (lines.flatMap fun line => line ++ crlf) = List.intercalate crlf lines ++ crlf := by
  induction lines with
  | nil => exact absurd rfl hne
  | cons line lines ih =>
    cases lines with
    | nil => simp
    | cons next lines =>
      rw [List.flatMap_cons, ih (List.cons_ne_nil _ _), List.intercalate_cons_cons]
      simp

theorem line_crlf_flatMap (line : List UInt8) (lines : List (List UInt8))
    : line ++ crlf ++ (lines.flatMap fun line => line ++ crlf) ++ crlf
        = List.intercalate crlf (line :: lines) ++ (crlf ++ crlf) := by
  rw [← List.append_assoc _ crlf crlf, ← flatMap_crlf (List.cons_ne_nil _ _), List.flatMap_cons]

theorem flatten_stringSplit (c : UInt8) (s : List UInt8) : (stringSplit c [] s).flatten = s.filter fun d => d ≠ c := by
  induction hn : s.length using Nat.strongRecOn generalizing s with
  | ind n ih =>
    by_cases hc : c ∈ s
    . obtain ⟨front, rest, rfl, hfront⟩ := List.eq_append_cons_of_mem hc
      have hlt : rest.length < n := by
        rw [← hn, List.length_append, List.length_cons]
        omega
      have hkept : front.filter (fun d => d ≠ c) = front := by
        apply List.filter_eq_self.mpr
        intro d hd
        exact decide_eq_true (ne_of_mem_of_not_mem hd hfront)
      rw [stringSplit_append_byte hfront, List.flatten_cons, ih _ hlt rest rfl, List.filter_append, hkept,
        List.filter_cons_of_neg (by simp)]
    . by_cases hnil : s = []
      . rw [hnil, stringSplit_nil]
        rfl
      . rw [stringSplit_of_not_mem hc hnil, List.flatten_singleton, eq_comm, List.filter_eq_self]
        intro d hd
        exact decide_eq_true (ne_of_mem_of_not_mem hd hc)

theorem stringSplit_ne_nil {c : UInt8} {s : List UInt8} (hs : s ≠ []) : stringSplit c [] s ≠ [] := by
  by_cases hc : c ∈ s
  . obtain ⟨front, rest, rfl, hfront⟩ := List.eq_append_cons_of_mem hc
    rw [stringSplit_append_byte hfront]
    apply List.cons_ne_nil
  . rw [stringSplit_of_not_mem hc hs]
    apply List.cons_ne_nil

theorem decimal_drop_natText {n : Nat} (hn : 0 < n) : decimal ((natText n).drop 1) < n := by
  induction n using Nat.strongRecOn with
  | ind n ih =>
    by_cases hlt : n < 10
    . rw [natText, Nat.toDigits_of_lt_base hlt]
      exact hn
    . have hfront := ih (n / 10) (by omega) (by omega)
      have hdigits : natText n = natText (n / 10) ++ natText (n % 10) := by
        rw [natText, Nat.toDigits_of_base_le (by omega) (by omega), natText, natText,
          Nat.toDigits_of_lt_base (Nat.mod_lt n (by omega))]
        simp [ascii]
      have hlast := decimal_natText (n % 10)
      have hsingle : ∃ c, natText (n % 10) = [c] := by
        rw [natText, Nat.toDigits_of_lt_base (Nat.mod_lt n (by omega))]
        exact ⟨_, rfl⟩
      obtain ⟨c, hc⟩ := hsingle
      rw [hc] at hlast
      have hdrop : (natText (n / 10) ++ [c]).drop 1 = (natText (n / 10)).drop 1 ++ [c] :=
        List.drop_append_of_le_length (List.length_pos_iff.mpr (natText_ne_nil _))
      have hdecimal : ∀ digits, decimal (digits ++ [c]) = 10 * decimal digits + decimal [c] := by
        intro digits
        simp [decimal]
      rw [hdigits, hc, hdrop, hdecimal, hlast]
      omega

end Lines

section Fields

variable {fields : List (List UInt8 × List UInt8)}

theorem HttpClientHeader.contentLength_foldl_store (h : HttpClientHeader)
    : (fields.foldl store h).contentLength
        = ((fields.reverse.find? fun field => field.1 = contentLengthKey).map fun field => atoi field.2).getD
          h.contentLength := by
  induction fields generalizing h with
  | nil => rfl
  | cons field fields ih =>
    rw [List.foldl_cons, ih, List.reverse_cons, List.find?_append, List.find?_singleton, store]
    cases fields.reverse.find? fun field => field.1 = contentLengthKey with
    | some last => rfl
    | none => by_cases hname : field.1 = contentLengthKey <;> simp [hname]

theorem HttpClientHeader.insertHeaders_of_taken (h : HttpClientHeader) {lines : List (List UInt8)} (htaken : Taken lines)
    : insertHeaders h lines = some ((lines.map fun line => (fieldName line, takenValue line)).foldl store h) := by
  rw [← toOption_storeHeaders, storeHeaders_eq, mapM_httpField htaken]
  rfl

theorem HttpFields.nodup_names (fields : HttpFields) : (fields.infos.map Prod.fst).Nodup := by
  rw [List.Nodup, List.pairwise_map]
  apply fields.sorted.imp
  intro a b hlt heq
  exact absurd (congrArg (List.map UInt8.toNat) heq) (ne_of_lt hlt)

theorem HttpFields.find?_reverse (fields : HttpFields) (name : List UInt8)
    : (fields.infos.reverse.find? fun field => field.1 = name) = fields.infos.find? fun field => field.1 = name := by
  have hunique : ∀ a ∈ fields.infos, ∀ b ∈ fields.infos, a.1 = b.1 → a = b :=
    fun a ha b hb => List.inj_on_of_nodup_map fields.nodup_names ha hb
  cases hfind : fields.infos.find? fun field => field.1 = name with
  | none =>
    rw [List.find?_eq_none] at hfind ⊢
    intro field hfield
    exact hfind field (List.mem_reverse.mp hfield)
  | some field =>
    have hname : field.1 = name := by simpa using List.find?_some hfind
    have hmem := List.mem_of_find?_eq_some hfind
    cases hreverse : fields.infos.reverse.find? fun field => field.1 = name with
    | none =>
      rw [List.find?_eq_none] at hreverse
      exact absurd (decide_eq_true hname) (hreverse field (List.mem_reverse.mpr hmem))
    | some last =>
      have hlast : last.1 = name := by simpa using List.find?_some hreverse
      have hmem' := List.mem_reverse.mp (List.mem_of_find?_eq_some hreverse)
      rw [hunique last hmem' field hmem (hlast.trans hname.symm)]

end Fields

namespace HttpResponse

open HttpClient

/--
What handlers keep out of a response: an end of line, or a status that is not there.
-/
structure WellFormed (r : HttpResponse) : Prop where
  status_ne : r.status ≠ []
  status : 13 ∉ r.status
  names : ∀ field ∈ r.headers.infos, 58 ∉ field.1 ∧ 13 ∉ field.1
  values : ∀ field ∈ r.headers.infos, 13 ∉ field.2

/--
It is open, and nothing has been written.
-/
structure Fresh (r : HttpResponse) : Prop where
  isClose : r.isClose = false
  hasSession : r.hasSession = true
  writtenHeader : r.writtenHeader = false

def headerStr (r : HttpResponse) (len : Nat) (continueFlag : Bool) : List UInt8 :=
  List.intercalate crlf (r.statusLine :: r.headerLines len continueFlag)

/--
The fields as the client takes them. The content length loses its first digit.
-/
def fieldsRead (r : HttpResponse) (len : Nat) (continueFlag : Bool) : List (List UInt8 × List UInt8) :=
  (if continueFlag then [] else [(contentLengthKey, (natText len).drop 1)]) ++ r.headers.infos

/--
The header as the client reads it. The status loses its blanks.
-/
def headerRead (r : HttpResponse) (len : Nat) (continueFlag : Bool) : HttpClientHeader :=
  (r.fieldsRead len continueFlag).foldl HttpClientHeader.store
    { proto := proto
      version := version
      statusCode := r.statusCode
      status := r.status.filter fun c => c ≠ 32 }

section Read

variable {r : HttpResponse} {len : Nat} {continueFlag : Bool} {data : List UInt8}

theorem headerBytes_eq (r : HttpResponse) (len : Nat) (continueFlag : Bool)
    : r.headerBytes len continueFlag = r.headerStr len continueFlag ++ (crlf ++ crlf) := line_crlf_flatMap _ _

theorem write_fresh (hfresh : r.Fresh) (data : List UInt8) (continueFlag : Bool)
    : ((r.write data continueFlag).1.map List.flatten) = some (r.headerBytes data.length continueFlag ++ data) := by
  unfold write
  rw [hfresh.isClose, hfresh.hasSession, hfresh.writtenHeader]
  by_cases hdata : data = [] <;> simp [hdata]

theorem not_mem_natText {c : UInt8} (n : Nat) (hdigit : isDigit c = false) : c ∉ natText n := by
  intro hmem
  rw [isDigit_of_mem_natText hmem] at hdigit
  cases hdigit

theorem mem_lines (hwf : r.WellFormed) (len : Nat) (continueFlag : Bool)
    : ∀ line ∈ r.statusLine :: r.headerLines len continueFlag, line ≠ [] ∧ 13 ∉ line := by
  intro line hline
  rcases List.mem_cons.mp hline with rfl | hline
  . have hstatus := hwf.status
    have hcode := not_mem_intText (c := 13) r.statusCode (by decide) (by decide)
    refine ⟨by simp [statusLine], ?_⟩
    simp only [statusLine, List.mem_append, not_or]
    exact ⟨⟨⟨⟨⟨⟨by decide, by decide⟩, by decide⟩, by decide⟩, hcode⟩, by decide⟩, hstatus⟩
  . rcases List.mem_append.mp hline with hline | hline
    . split at hline
      . cases hline
      . rw [List.mem_singleton.mp hline]
        have hdigits := not_mem_natText (c := 13) len (by decide)
        refine ⟨by simp, ?_⟩
        simp only [List.mem_append, not_or]
        exact ⟨⟨by decide, by decide⟩, hdigits⟩
    . obtain ⟨field, hfield, rfl⟩ := List.mem_map.mp hline
      have hname := (hwf.names field hfield).right
      have hvalue := hwf.values field hfield
      have hcolon : 58 ∈ field.1 ++ utf8 ": " ++ field.2 :=
        List.mem_append_left _ (List.mem_append_right _ (by decide))
      refine ⟨List.ne_nil_of_mem hcolon, ?_⟩
      simp only [List.mem_append, not_or]
      exact ⟨⟨hname, by decide⟩, hvalue⟩

theorem stringSplit_statusLine (hwf : r.WellFormed)
    : ∃ word more, stringSplit 32 [] r.statusLine = (proto ++ 47 :: version) :: intText r.statusCode :: word :: more
        ∧ (word :: more).flatten = r.status.filter fun c => c ≠ 32 := by
  obtain ⟨word, more, hwords⟩ := List.exists_cons_of_ne_nil (@stringSplit_ne_nil 32 _ hwf.status_ne)
  have hline : r.statusLine = (proto ++ 47 :: version) ++ 32 :: (intText r.statusCode ++ 32 :: r.status) := by
    simp [statusLine]
  have hcode := not_mem_intText (c := 32) r.statusCode (by decide) (by decide)
  refine ⟨word, more, ?_, ?_⟩
  . rw [hline, stringSplit_append_byte (by decide), stringSplit_append_byte hcode, hwords]
  . rw [← hwords]
    apply flatten_stringSplit

theorem fields_headerLines (hwf : r.WellFormed) (len : Nat) (continueFlag : Bool)
    : Taken (r.headerLines len continueFlag)
      ∧ (r.headerLines len continueFlag).map (fun line => (fieldName line, takenValue line))
        = r.fieldsRead len continueFlag := by
  have hlength : contentLengthKey ++ [58] ++ natText len = contentLengthKey ++ 58 :: natText len := by
    simp
  have hfield (field : List UInt8 × List UInt8)
      : field.1 ++ utf8 ": " ++ field.2 = field.1 ++ 58 :: (32 :: field.2) := by
    rw [List.append_assoc]
    rfl
  have hcolon : 58 ∉ contentLengthKey := by decide
  constructor
  . intro line hline
    rcases List.mem_append.mp hline with hline | hline
    . split at hline
      . cases hline
      . rw [List.mem_singleton.mp hline, hlength, hasText_iff hcolon]
        exact ⟨by simp, natText_ne_nil len⟩
    . obtain ⟨field, hmem, rfl⟩ := List.mem_map.mp hline
      rw [hfield, hasText_iff (hwf.names field hmem).left]
      exact ⟨by simp, List.cons_ne_nil _ _⟩
  . rw [headerLines, fieldsRead, List.map_append, List.map_map]
    congr 1
    . split
      . rfl
      . rw [List.map_singleton, hlength, fieldName_append hcolon, takenValue_append hcolon]
    . conv_rhs => rw [← List.map_id r.headers.infos]
      apply List.map_congr_left
      intro field hmem
      have hname := (hwf.names field hmem).left
      simp only [Function.comp, hfield, fieldName_append hname, takenValue_append hname]
      rfl

theorem parse_headerStr (hwf : r.WellFormed) (len : Nat) (continueFlag : Bool)
    : HttpClientHeader.parse {} (r.headerStr len continueFlag) = some (r.headerRead len continueFlag) := by
  obtain ⟨word, more, hwords, hstatus⟩ := stringSplit_statusLine hwf
  obtain ⟨htaken, hfields⟩ := fields_headerLines hwf len continueFlag
  have hlines : stringSplit 13 [10] (r.headerStr len continueFlag) = r.statusLine :: r.headerLines len continueFlag :=
    stringSplit_intercalate (mem_lines hwf len continueFlag)
  have hslash : find [47] (proto ++ 47 :: version) = some proto.length := find_append (by decide) version
  rw [HttpClientHeader.parse, hlines]
  simp only [hwords, hslash]
  rw [HttpClientHeader.insertHeaders_of_taken _ htaken, hfields, hstatus, atoi_intText]
  rfl

/--
What the client is sent when all of a response is written at once.
-/
def toResponse (r : HttpResponse) (hwf : r.WellFormed) (data : List UInt8) (continueFlag : Bool)
    : HttpClient.Response where
  header := r.headerStr data.length continueFlag
  fields := r.headerRead data.length continueFlag
  body := data
  parsed := parse_headerStr hwf _ _
  blankLine := HttpSession.find_intercalate (List.cons_ne_nil _ _) (mem_lines hwf _ _) data

theorem bytes_toResponse (hwf : r.WellFormed) (data : List UInt8) (continueFlag : Bool)
    : (r.toResponse hwf data continueFlag).bytes = r.headerBytes data.length continueFlag ++ data := by
  rw [headerBytes_eq, List.append_assoc]
  rfl

/--
The content length that the client acts on: the last field of the name counts.
-/
theorem contentLength_headerRead (r : HttpResponse) (len : Nat) (continueFlag : Bool)
    : (r.headerRead len continueFlag).contentLength
        = match r.headers.infos.find? fun field => field.1 = contentLengthKey with
          | some field => atoi field.2
          | none => if continueFlag then 0 else atoi ((natText len).drop 1) := by
  rw [headerRead, HttpClientHeader.contentLength_foldl_store, fieldsRead, List.reverse_append, List.find?_append,
    HttpFields.find?_reverse]
  cases r.headers.infos.find? fun field => field.1 = contentLengthKey with
  | some field => rfl
  | none => cases continueFlag <;> rfl

end Read

end HttpResponse

structure ArrivesIn (bytes : List UInt8) (reads : List (List UInt8)) : Prop where
  reads_ne : ∀ data ∈ reads, data ≠ []
  flatten : reads.flatten = bytes

theorem arrivesIn_two {bytes : List UInt8} {n : Nat} (hpos : 0 < n) (hlt : n < bytes.length)
    : ArrivesIn bytes [bytes.take n, bytes.drop n] where
  reads_ne := by
    have hfront : bytes.take n ≠ [] := by
      apply List.ne_nil_of_length_pos
      rw [List.length_take]
      omega
    have hback : bytes.drop n ≠ [] := by
      apply List.ne_nil_of_length_pos
      rw [List.length_drop]
      omega
    simp [hfront, hback]
  flatten := by simp

namespace HttpClient

def message (c : HttpClient) (uri : List UInt8) (params : List (List UInt8 × List UInt8)) : HttpMessage where
  method := c.method
  uri := uri
  params := params
  version := utf8 "1.1"
  headers := ⟨utf8 "Accept", [32], utf8 "*/*"⟩ :: ⟨utf8 "Host", [32], c.host⟩
    :: (c.headers.infos.map fun field => ⟨field.1, [32], field.2⟩)
    ++ if c.method = .post then [⟨contentLengthKey, [32], natText c.postData.length⟩] else []
  body := if c.method = .post then c.postData else []

/--
A request without a response so far, whose parts hold no separators, and whose header fields are none of those that the
client adds itself.
-/
structure Asks (c : HttpClient) (uri : List UInt8) (params : List (List UInt8 × List UInt8)) : Prop where
  resp : c.resp = none
  subpath : c.subpath = (c.message uri params).target
  path : ∀ b ∈ uri, b ≠ 63 ∧ b ≠ 32 ∧ b ≠ 13
  items : ∀ p ∈ params, ∀ b ∈ p.1 ++ p.2, b ≠ 61 ∧ b ≠ 38 ∧ b ≠ 32 ∧ b ≠ 13
  keys : (params.map Prod.fst).Nodup
  values_ne : ∀ p ∈ params, p.2 ≠ []
  host : 13 ∉ c.host
  names : ∀ field ∈ c.headers.infos, field.1 ≠ [] ∧ ∀ b ∈ field.1, b ≠ 58 ∧ b ≠ 13
  values : ∀ field ∈ c.headers.infos, 13 ∉ field.2
  own : ∀ field ∈ c.headers.infos, field.1 ≠ utf8 "Accept" ∧ field.1 ≠ utf8 "Host"
    ∧ field.1.map HttpMessage.toLower ≠ contentLengthKey.map HttpMessage.toLower

section Request

variable {c : HttpClient} {uri : List UInt8} {params : List (List UInt8 × List UInt8)}

theorem onConnect_eq (hasks : c.Asks uri params) : c.onConnect 0 = .inr (c.message uri params).bytes := by
  have hline : c.requestLine = (c.message uri params).requestLine := by
    rw [requestLine, HttpMessage.requestLine, ← hasks.subpath]
    simp only [List.append_assoc]
    rfl
  have hfields : c.headerLines = (c.message uri params).headers.map fun h => h.name ++ 58 :: (h.gap ++ h.value) := by
    rw [headerLines, message]
    simp only [List.map_cons, List.map_append, List.cons_append, List.nil_append, List.map_map]
    refine List.cons_eq_cons.mpr ⟨rfl, List.cons_eq_cons.mpr ⟨rfl, ?_⟩⟩
    congr 1
    . apply List.map_congr_left
      intro field _
      simp only [Function.comp, List.append_assoc]
      rfl
    . split
      . rfl
      . rfl
  rw [onConnect, if_neg (Int.lt_irrefl 0), line_crlf_flatMap, hline, hfields, List.append_assoc]
  rfl

theorem isContentLength_iff (hasks : c.Asks uri params) {h : HttpField} (hmem : h ∈ (c.message uri params).headers)
    : HttpMessage.IsContentLength h
      ↔ c.method = .post ∧ h = ⟨contentLengthKey, [32], natText c.postData.length⟩ := by
  rw [message] at hmem
  simp only [List.cons_append, List.mem_cons, List.mem_append, List.mem_map] at hmem
  unfold HttpMessage.IsContentLength
  -- A field with another name is neither of the two.
  have hother : ∀ {h : HttpField}, h.name.map HttpMessage.toLower ≠ contentLengthKey.map HttpMessage.toLower →
      (h.name.map HttpMessage.toLower = contentLengthKey.map HttpMessage.toLower
        ↔ c.method = .post ∧ h = ⟨contentLengthKey, [32], natText c.postData.length⟩) := by
    intro h hne
    refine iff_of_false hne ?_
    rintro ⟨-, rfl⟩
    exact hne rfl
  have haccept : (utf8 "Accept").map HttpMessage.toLower ≠ contentLengthKey.map HttpMessage.toLower := by decide
  have hhost : (utf8 "Host").map HttpMessage.toLower ≠ contentLengthKey.map HttpMessage.toLower := by decide
  rcases hmem with rfl | rfl | ⟨field, hfield, rfl⟩ | hlength
  . exact hother haccept
  . exact hother hhost
  . exact hother (hasks.own field hfield).right.right
  . split at hlength
    . next hpost =>
      rw [List.mem_singleton.mp hlength]
      exact iff_of_true rfl ⟨hpost, rfl⟩
    . cases hlength

theorem forall_mem_headers {p : HttpField → Prop} (haccept : p ⟨utf8 "Accept", [32], utf8 "*/*"⟩)
    (hhost : p ⟨utf8 "Host", [32], c.host⟩) (hfields : ∀ field ∈ c.headers.infos, p ⟨field.1, [32], field.2⟩)
    (hlength : p ⟨contentLengthKey, [32], natText c.postData.length⟩)
    : ∀ h ∈ (c.message uri params).headers, p h := by
  intro h hmem
  rw [message] at hmem
  simp only [List.cons_append, List.mem_cons, List.mem_append, List.mem_map] at hmem
  rcases hmem with rfl | rfl | ⟨field, hfield, rfl⟩ | hmem
  . exact haccept
  . exact hhost
  . exact hfields field hfield
  . split at hmem
    . rw [List.mem_singleton.mp hmem]
      exact hlength
    . cases hmem

theorem forall_mem_of_all {p : UInt8 → Prop} [DecidablePred p] {s : List UInt8}
    (hall : (s.all fun b => decide (p b)) = true)
    : ∀ b ∈ s, p b :=
  fun b hb => of_decide_eq_true (List.all_eq_true.mp hall b hb)

theorem wellFormed_message (hasks : c.Asks uri params) : (c.message uri params).WellFormed where
  uri := hasks.path
  params := hasks.items
  version := by
    change ∀ b ∈ utf8 "1.1", b ≠ 32 ∧ b ≠ 13
    exact forall_mem_of_all (by decide)
  names := by
    have haccept : utf8 "Accept" ≠ [] ∧ ∀ b ∈ utf8 "Accept", b ≠ 58 ∧ b ≠ 13 := ⟨by decide, forall_mem_of_all (by decide)⟩
    have hhost : utf8 "Host" ≠ [] ∧ ∀ b ∈ utf8 "Host", b ≠ 58 ∧ b ≠ 13 := ⟨by decide, forall_mem_of_all (by decide)⟩
    have hlength : contentLengthKey ≠ [] ∧ ∀ b ∈ contentLengthKey, b ≠ 58 ∧ b ≠ 13 :=
      ⟨by decide, forall_mem_of_all (by decide)⟩
    exact forall_mem_headers haccept hhost (fun field hfield => hasks.names field hfield) hlength
  values := by
    have hne {s : List UInt8} (hs : 13 ∉ s) : ∀ b ∈ s, b ≠ 13 := fun b hb => ne_of_mem_of_not_mem hb hs
    have hgap : ∀ b ∈ [(32 : UInt8)], b = 32 ∨ b = 9 := forall_mem_of_all (by decide)
    apply forall_mem_headers
    . exact ⟨hgap, hne (by decide)⟩
    . exact ⟨hgap, hne hasks.host⟩
    . exact fun field hfield => ⟨hgap, hne (hasks.values field hfield)⟩
    . exact ⟨hgap, hne (HttpResponse.not_mem_natText _ (by decide))⟩
  contentLength := by
    intro h hmem hlength
    obtain ⟨hpost, rfl⟩ := (isContentLength_iff hasks hmem).mp hlength
    refine ⟨fun b hb => isDigit_of_mem_natText hb, ?_⟩
    rw [decimal_natText, message]
    simp only [if_pos hpost]
  body := by
    intro hget
    change c.method = .get at hget
    rw [message, hget]
    rfl
  post := by
    intro hpost
    change c.method = .post at hpost
    have hmem : ⟨contentLengthKey, [32], natText c.postData.length⟩ ∈ (c.message uri params).headers := by
      rw [message, if_pos hpost]
      simp
    exact ⟨_, hmem, (isContentLength_iff hasks hmem).mpr ⟨hpost, rfl⟩⟩

theorem plain_message (hasks : c.Asks uri params) : (c.message uri params).Plain where
  gaps := forall_mem_headers rfl rfl (fun _ _ => rfl) rfl
  names := by
    have hfields := HttpFields.nodup_names c.headers
    have haccept : utf8 "Accept" ∉ c.headers.infos.map Prod.fst := by
      intro hmem
      obtain ⟨field, hfield, heq⟩ := List.mem_map.mp hmem
      exact (hasks.own field hfield).left heq
    have hhost : utf8 "Host" ∉ c.headers.infos.map Prod.fst := by
      intro hmem
      obtain ⟨field, hfield, heq⟩ := List.mem_map.mp hmem
      exact (hasks.own field hfield).right.left heq
    have hlength : contentLengthKey ∉ c.headers.infos.map Prod.fst := by
      intro hmem
      obtain ⟨field, hfield, heq⟩ := List.mem_map.mp hmem
      exact (hasks.own field hfield).right.right (by rw [heq])
    have hnames : (c.message uri params).headers.map (·.name)
        = utf8 "Accept" :: utf8 "Host" :: (c.headers.infos.map Prod.fst
          ++ if c.method = .post then [contentLengthKey] else []) := by
      rw [message]
      simp only [List.map_cons, List.map_append, List.cons_append, List.map_map]
      congr 4
      split
      . rfl
      . rfl
    rw [hnames, List.nodup_cons, List.nodup_cons, List.nodup_append']
    split
    . simp only [List.mem_cons, List.mem_append, not_or, List.disjoint_singleton]
      exact ⟨⟨by decide, haccept, by decide⟩, ⟨hhost, by decide⟩, hfields, by decide, hlength⟩
    . simp only [List.mem_cons, List.mem_append, List.not_mem_nil, not_or, List.disjoint_nil_right, not_false_eq_true]
      exact ⟨⟨by decide, haccept, trivial⟩, ⟨hhost, trivial⟩, hfields, by decide, trivial⟩
  contentLength := by
    intro h hmem hlength
    obtain ⟨-, rfl⟩ := (isContentLength_iff hasks hmem).mp hlength
    rfl
  keys := hasks.keys
  values := hasks.values_ne

end Request

def sampleClient : HttpClient :=
  { host := utf8 "a.b" : HttpClient }.post (utf8 "/live?id=1") KeyedMap.empty (utf8 "v=0")

theorem asks_sampleClient : sampleClient.Asks (utf8 "/live") [(utf8 "id", utf8 "1")] where
  resp := rfl
  subpath := by decide
  path := forall_mem_of_all (by decide)
  items := by
    intro p hp
    rw [List.mem_singleton.mp hp]
    exact forall_mem_of_all (by decide)
  keys := by decide
  values_ne := by decide
  host := by decide
  names := nofun
  values := nofun
  own := nofun

theorem wellFormed_default : ({} : HttpResponse).WellFormed where
  status_ne := by decide
  status := by decide
  names := nofun
  values := nofun

theorem fresh_default : ({} : HttpResponse).Fresh := ⟨rfl, rfl, rfl⟩

end HttpClient

namespace HttpClient

def firstBody (c : HttpClient) (reads : List (List UInt8)) : Option (List UInt8) := do
  let (calls, _) ← c.onReads reads
  let read ← calls.head?
  let resp ← read.resp
  return resp.data

section First

variable {r : Response} {c : HttpClient} {reads : List (List UInt8)}

theorem arrived_total (pos : Nat) (hne : reads ≠ []) : pos + reads.flatten.length ∈ arrived pos reads := by
  induction reads generalizing pos with
  | nil => exact absurd rfl hne
  | cons data reads ih =>
    rw [arrived, List.flatten_cons, List.length_append, ← Nat.add_assoc]
    by_cases hlast : reads = []
    . rw [hlast]
      exact List.mem_cons_self
    . exact List.mem_cons_of_mem _ (ih (pos + data.length) hlast)

theorem firstBody_eq (hnew : c.resp = none) (harrives : ArrivesIn r.bytes reads)
    : c.firstBody reads
        = ((arrived 0 reads).find? fun stop => r.enough ≤ stop).map fun stop => r.body.take (stop - r.bodyStart) := by
  have hcalls := (r.receives_nil hnew).onReads harrives.reads_ne (harrives.flatten ▸ List.prefix_refl _)
  obtain ⟨result, hresult, hcallbacks⟩ := Option.map_eq_some_iff.mp hcalls
  have hhead : result.1.head?
      = ((arrived 0 reads).find? fun stop => r.enough ≤ stop).map fun stop =>
        callback r.fields (r.body.take (stop - r.bodyStart)) := by
    rw [hcallbacks, Response.callbacks, List.head?_map, List.head?_filter]
    rfl
  unfold firstBody
  rw [hresult]
  simp only [Option.bind_eq_bind, Option.bind_some, hhead]
  cases (arrived 0 reads).find? fun stop => r.enough ≤ stop with
  | none => rfl
  | some stop => rfl

end First

end HttpClient

namespace HttpResponse

open HttpClient

section First

variable {r : HttpResponse} {c : HttpClient} {data : List UInt8}

theorem enough_toResponse (hwf : r.WellFormed) (hown : ∀ field ∈ r.headers.infos, field.1 ≠ contentLengthKey)
    (data : List UInt8)
    : (r.toResponse hwf data false).enough
        = (r.toResponse hwf data false).bodyStart + decimal ((natText data.length).drop 1) := by
  have hfind : (r.headers.infos.find? fun field => field.1 = contentLengthKey) = none := by
    rw [List.find?_eq_none]
    intro field hfield
    simpa using hown field hfield
  have hdigits : ∀ b ∈ (natText data.length).drop 1, isDigit b := fun b hb =>
    isDigit_of_mem_natText (List.mem_of_mem_drop hb)
  have hlength : (r.toResponse hwf data false).fields.contentLength = decimal ((natText data.length).drop 1) := by
    change (r.headerRead data.length false).contentLength = _
    rw [contentLength_headerRead, hfind]
    exact atoi_of_digits hdigits
  rw [Response.enough, hlength, Int.toNat_natCast]

/--
The client gets the whole body with its first callback, in whatever reads a response arrives, only if there is none: as
there is no blank behind the colon of the content length, the first digit of this is lost.
-/
theorem firstBody_iff (hwf : r.WellFormed) (hfresh : r.Fresh)
    (hown : ∀ field ∈ r.headers.infos, field.1 ≠ contentLengthKey) (hnew : c.resp = none) {sent : List (List UInt8)}
    (hsent : (r.write data false).1 = some sent)
    : (∀ reads, ArrivesIn sent.flatten reads → c.firstBody reads = some data) ↔ data = [] := by
  have hwrite := write_fresh hfresh data false
  rw [hsent, Option.map_some, Option.some.injEq, ← bytes_toResponse hwf] at hwrite
  have henough := enough_toResponse hwf hown data
  have hbody : (r.toResponse hwf data false).body = data := rfl
  have hlength : (r.toResponse hwf data false).bytes.length
      = (r.toResponse hwf data false).bodyStart + data.length := by
    rw [Response.bytes, Response.bodyStart, hbody]
    simp only [List.length_append]
    have : crlf.length = 2 := rfl
    omega
  rw [hwrite]
  generalize r.toResponse hwf data false = response at henough hbody hlength
  constructor
  . intro hall
    by_contra hne
    have hless := decimal_drop_natText (List.length_pos_iff.mpr hne)
    have hpos : 0 < response.enough := by
      rw [henough, Response.bodyStart]
      omega
    have harrives := arrivesIn_two hpos (by omega : response.enough < response.bytes.length)
    have hfirst := (firstBody_eq hnew harrives).symm.trans (hall _ harrives)
    have hends : (response.bytes.take response.enough).length = response.enough :=
      List.length_take_of_le (by omega)
    rw [arrived, Nat.zero_add, hends, List.find?_cons_of_pos (by simp), Option.map_some, Option.some.injEq, hbody,
      henough, Nat.add_sub_cancel_left] at hfirst
    have hshort := congrArg List.length hfirst
    rw [List.length_take_of_le (by omega)] at hshort
    omega
  . rintro rfl reads harrives
    have hreads : reads ≠ [] := by
      rintro rfl
      have hempty := congrArg List.length harrives.flatten
      rw [hlength, Response.bodyStart] at hempty
      simp at hempty
    have hlast := arrived_total 0 hreads
    rw [Nat.zero_add, harrives.flatten] at hlast
    have hreach : response.enough ≤ response.bytes.length := by
      rw [henough, hlength]
      exact Nat.le_refl _
    rw [firstBody_eq hnew harrives, hbody]
    cases hfind : (arrived 0 reads).find? fun stop => response.enough ≤ stop with
    | none =>
      rw [List.find?_eq_none] at hfind
      exact absurd (decide_eq_true hreach) (hfind _ hlast)
    | some stop => rw [Option.map_some, List.take_nil]

theorem firstBody_sample
    : (∀ reads, ArrivesIn [({} : HttpResponse).headerBytes 2 false, utf8 "ok"].flatten reads →
        sampleClient.firstBody reads = some (utf8 "ok")) ↔ utf8 "ok" = [] :=
  firstBody_iff wellFormed_default fresh_default nofun rfl rfl

end First

end HttpResponse
