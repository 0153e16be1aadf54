import CppStreamer.Net.Http.WsHandover

/-!
This module contains the server side of the upgrade: the request is read up to its blank line, and what is read
behind it goes to `HandleFrame`.
-/

open StringEx Cuts
open HttpSession (crlf)

/--
What is kept of the request.
-/
structure WebSocketRequest where
  method : List UInt8 := []
  path : List UInt8 := []
  headers : HttpMap := fun _ => none
  secWsVer : Int := 13
  secWsKey : List UInt8 := []
  secWsProtocol : List UInt8 := []

namespace WebSocketRequest

def connectionKey : List UInt8 := ascii ['c', 'o', 'n', 'n', 'e', 'c', 't', 'i', 'o', 'n']

def upgradeKey : List UInt8 := ascii ['u', 'p', 'g', 'r', 'a', 'd', 'e']

def webSocket : List UInt8 := ascii ['w', 'e', 'b', 's', 'o', 'c', 'k', 'e', 't']

/--
The keys that begin with this are those of the protocol.
-/
def secWs : List UInt8 := ascii ['s', 'e', 'c', '-', 'w', 'e', 'b', 's', 'o', 'c', 'k', 'e', 't', '-']

def versionKey : List UInt8 := secWs ++ ascii ['v', 'e', 'r', 's', 'i', 'o', 'n']

def keyKey : List UInt8 := secWs ++ ascii ['k', 'e', 'y']

/--
This one is spelled with a capital letter, no key of `headers_` is.
-/
def protocolKey : List UInt8 :=
  ascii ['s', 'e', 'c', '-', 'w', 'e', 'b', 'S', 'o', 'c', 'k', 'e', 't', '-', 'p', 'r', 'o', 't', 'o', 'c', 'o', 'l']

/--
The loop over the lines behind the first one. The `substr` in front of a blank that begins the line takes all of it.
-/
def insertHeaders (headers : HttpMap) : List (List UInt8) → HttpMap
  | [] => headers
  | line :: lines =>
    match find [32] line with
    | none => insertHeaders headers lines
    | some pos =>
      let key := if pos = 0 then line else line.take (pos - 1)
      insertHeaders (Function.update headers (string2Lower key) (some (line.drop (pos + 1)))) lines

def checkHeaders (r : WebSocketRequest) : Except String WebSocketRequest :=
  match r.headers connectionKey with
  | none => .error "websocket http header error: Connection not exist"
  | some connection =>
    if string2Lower connection ≠ upgradeKey then .error "websocket http header error: Connection is not upgrade"
    else
      match r.headers upgradeKey with
      | none => .error "websocket http header error: Upgrade not exist"
      | some upgrade =>
        if string2Lower upgrade ≠ webSocket then .error "websocket http header error: upgrade is not websocket"
        else
          match r.headers keyKey with
          | none => .error "websocket http header error: Sec-WebSocket-Key not exist"
          | some secWsKey =>
            .ok
              { r with
                headers := Function.update (Function.update r.headers connectionKey (some upgradeKey)) upgradeKey
                  (some webSocket)
                secWsVer := (r.headers versionKey).elim 13 atoi
                secWsKey
                secWsProtocol := (r.headers protocolKey).getD r.secWsProtocol }

/--
The part of `OnHandleHttpRequest` behind the search for the blank line.
-/
def parse (getHandle : List UInt8 → Bool) (r : WebSocketRequest) (content : List UInt8)
    : Except String WebSocketRequest :=
  match stringSplit 13 [10] content with
  | [] => .error "websocket http header error"
  | line :: lines =>
    match stringSplit 32 [] line with
    | [method, path, _] =>
      if getHandle path then
        checkHeaders
          { r with
            method := string2Lower method
            path
            headers := insertHeaders r.headers lines }
      else .error "fail to find subpath"
    | _ => .error "websocket http header error"

/--
The request is answered with the upgrade.
-/
def Accepts (getHandle : List UInt8 → Bool) (header : List UInt8) : Prop :=
  (parse getHandle {} header).isOk = true

instance (getHandle : List UInt8 → Bool) (header : List UInt8) : Decidable (Accepts getHandle header) := by
  unfold Accepts
  infer_instance

end WebSocketRequest

/--
The buffer holds less than 2 ^ 31 bytes, which `int` keeps.
-/
structure WebSocketSession extends WebSocketRequest where
  httpRequestReady : Bool := false
  httpRecvBuffer : List UInt8 := []
  isConnected : Bool := true

namespace WebSocketSession

def onHandleHttpRequest (getHandle : List UInt8 → Bool) (s : WebSocketSession)
    : Except String Int × WebSocketSession :=
  match find (crlf ++ crlf) s.httpRecvBuffer with
  | none => (.ok 1, s)
  | some pos =>
    let s := { s with httpRequestReady := true }
    match s.toWebSocketRequest.parse getHandle (s.httpRecvBuffer.take pos) with
    | .ok request => (.ok 0, { s with toWebSocketRequest := request })
    | .error message => (.error message, s)

/--
What `HandleFrame` is called with. What is written is left out, reading goes on in any case.
-/
def onRead (getHandle : List UInt8 → Bool) (s : WebSocketSession) (data : List UInt8)
    : Option (Option (List UInt8) × WebSocketSession) :=
  if s.httpRequestReady then some (some data, s)
  else
    match onHandleHttpRequest getHandle { s with httpRecvBuffer := s.httpRecvBuffer ++ data } with
    | (.ok ret, s) => some (none, if ret = 0 then { s with httpRecvBuffer := [] } else s)
    | (.error _, s) => some (none, { s with isConnected := false })

section Reads

variable {getHandle : List UInt8 → Bool} {s : WebSocketSession} {data : List UInt8} {n pos : Nat}

theorem onRead_of_ready (hready : s.httpRequestReady = true) : onRead getHandle s data = some (some data, s) := by
  rw [onRead, if_pos hready]

/--
The blank line has not arrived yet.
-/
theorem onRead_waits (hready : s.httpRequestReady = false) (hfind : find (crlf ++ crlf) (s.httpRecvBuffer ++ data) = none)
    : onRead getHandle s data = some (none, { s with httpRecvBuffer := s.httpRecvBuffer ++ data }) := by
  simp [onRead, onHandleHttpRequest, hready, hfind]

/--
Whatever the request comes to, what follows its blank line in the same read is left behind.
-/
theorem onRead_ends (hready : s.httpRequestReady = false)
    (hfind : find (crlf ++ crlf) (s.httpRecvBuffer ++ data) = some n)
    : ∃ s', onRead getHandle s data = some (none, s') ∧ s'.httpRequestReady = true := by
  unfold onRead onHandleHttpRequest
  rw [if_neg (by rw [hready]; exact Bool.false_ne_true), hfind]
  simp only
  split
  . next heq =>
    split at heq
    all_goals cases heq
    exact ⟨_, rfl, rfl⟩
  . next heq =>
    split at heq
    all_goals cases heq
    exact ⟨_, rfl, rfl⟩

theorem handedOver_of_ready (reads : List (Int × List UInt8)) (hready : s.httpRequestReady = true)
    : handedOver (onRead getHandle) s pos reads = placed pos reads := by
  induction reads generalizing pos with
  | nil => rfl
  | cons read reads ih =>
    obtain ⟨nowMs, data⟩ := read
    rw [handedOver, onRead_of_ready hready, placed]
    simp only
    rw [ih]

theorem handedOver_header (reads : List (Int × List UInt8))
    : ∀ {s : WebSocketSession} {pos : Nat}, s.httpRequestReady = false → s.httpRecvBuffer.length = pos →
        find (crlf ++ crlf) (s.httpRecvBuffer ++ stream reads) = some n → pos < n + 4 →
        handedOver (onRead getHandle) s pos reads
          = placed (n + 4 + (first (behind (n + 4 - pos) reads)).length) (behind (n + 4 - pos) reads).tail := by
  induction reads with
  | nil =>
    intro s pos _ _ _ _
    rfl
  | cons read reads ih =>
    intro s pos hready hlen hfind hpos
    obtain ⟨nowMs, data⟩ := read
    rw [stream_cons, ← List.append_assoc] at hfind
    have hread := Upgrade.find_blankLine hfind
    rw [hlen] at hread
    rw [handedOver, behind]
    by_cases hend : n + 4 - pos ≤ data.length
    . rw [if_pos (by omega)] at hread
      obtain ⟨s', heq, hready'⟩ := @onRead_ends getHandle _ _ _ hready hread
      rw [heq, if_pos hend, first, List.tail_cons, List.length_drop]
      simp only
      rw [handedOver_of_ready reads hready']
      congr 1
      omega
    . rw [if_neg (by omega)] at hread
      rw [onRead_waits hready hread, if_neg hend]
      simp only
      have hnext := @ih { s with httpRecvBuffer := s.httpRecvBuffer ++ data } (pos + data.length) hready
        (by rw [List.length_append, hlen]) hfind (by omega)
      rw [hnext, Nat.sub_sub]

theorem handedOver_upgrade (u : Upgrade (WebSocketRequest.Accepts getHandle))
    : handedOver (onRead getHandle) {} 0 u.reads
        = placed (u.bodyStart + (first u.behindHeader).length) u.behindHeader.tail := by
  have hfind := u.blankLine
  rw [← u.stream_eq] at hfind
  exact handedOver_header u.reads rfl rfl hfind (Nat.succ_pos _)

end Reads

end WebSocketSession
