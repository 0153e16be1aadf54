import CppStreamer.Net.Http.WebSocketClient
import CppStreamer.Net.Http.WebSocketSession

/-!
This module contains the two sides of the upgrade, and the frames that arrive together with the header.
-/

open StringEx Cuts

namespace Upgrade

/--
A text frame with one letter.
-/
def frameBytes : List UInt8 := [0x81, 0x81, 0, 0, 0, 0, 97]

/--
The hash that belongs to the key of `requestHeader`.
-/
def sampleHash : List UInt8 :=
  ascii
    ['s', '3', 'p', 'P', 'L', 'M', 'B', 'i', 'T', 'x', 'a', 'Q', '9', 'k', 'Y', 'G', 'z', 'z', 'h', 'Z', 'R', 'b', 'K',
      '+', 'x', 'O', 'o', '=']

def requestHeader : List UInt8 :=
  ascii
    ['G', 'E', 'T', ' ', '/', ' ', 'H', 'T', 'T', 'P', '/', '1', '.', '1', '\r', '\n',
      'C', 'o', 'n', 'n', 'e', 'c', 't', 'i', 'o', 'n', ':', ' ', 'U', 'p', 'g', 'r', 'a', 'd', 'e', '\r', '\n',
      'U', 'p', 'g', 'r', 'a', 'd', 'e', ':', ' ', 'w', 'e', 'b', 's', 'o', 'c', 'k', 'e', 't', '\r', '\n',
      'S', 'e', 'c', '-', 'W', 'e', 'b', 'S', 'o', 'c', 'k', 'e', 't', '-', 'K', 'e', 'y', ':', ' ',
      'd', 'G', 'h', 'l', 'I', 'H', 'N', 'h', 'b', 'X', 'B', 's', 'Z', 'S', 'B', 'u', 'b', '2', '5', 'j', 'Z', 'Q',
      '=', '=']

def responseHeader : List UInt8 :=
  ascii
    ['H', 'T', 'T', 'P', '/', '1', '.', '1', ' ', '1', '0', '1', ' ', 'S', 'w', 'i', 't', 'c', 'h', '\r', '\n',
      'C', 'o', 'n', 'n', 'e', 'c', 't', 'i', 'o', 'n', ':', ' ', 'U', 'p', 'g', 'r', 'a', 'd', 'e', '\r', '\n',
      'U', 'p', 'g', 'r', 'a', 'd', 'e', ':', ' ', 'w', 'e', 'b', 's', 'o', 'c', 'k', 'e', 't', '\r', '\n',
      'S', 'e', 'c', '-', 'W', 'e', 'b', 'S', 'o', 'c', 'k', 'e', 't', '-', 'A', 'c', 'c', 'e', 'p', 't', ':', ' ']
    ++ sampleHash

/--
The header and the frame arrive in one read.
-/
def withFrame {accepts : List UInt8 → Prop} (header : List UInt8) (accepted : accepts header)
    (blankLine : find (HttpSession.crlf ++ HttpSession.crlf)
      (header ++ (HttpSession.crlf ++ HttpSession.crlf ++ frameBytes)) = some header.length)
    : Upgrade accepts where
  header := header
  body := frameBytes
  reads := [(0, header ++ (HttpSession.crlf ++ HttpSession.crlf ++ frameBytes))]
  accepted := accepted
  blankLine := blankLine
  reads_ne := by simp [frameBytes]
  stream_eq := by rw [stream_cons, stream_nil, List.append_nil]

def request : Upgrade (WebSocketRequest.Accepts fun _ => true) :=
  withFrame requestHeader (by decide +kernel) (by decide +kernel)

def response : Upgrade (HttpClientHeader.Accepts sampleHash) :=
  withFrame responseHeader (by decide +kernel) (by decide +kernel)

end Upgrade
