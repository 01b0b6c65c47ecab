import Fxcode.Server.Handler
import Mathlib.Data.List.Infix
/-!
# The WebSocket upgrade of `startServer`

The `upgrade` listener closes the socket with `HTTP/1.1 400 Bad Request` unless the `Upgrade`
header is `websocket`, the request has a URL, and the URL's query holds a nonempty
`reconnectionToken` string.  Otherwise it writes the handshake head, its `Sec-WebSocket-Accept`
the digest of the request's `Sec-WebSocket-Key` followed by the RFC 6455 GUID, with a
`permessage-deflate` line when the client's extensions header names it, and hands the socket,
the query and the deflate choice to the editor runtime.

What the listener takes from outside is a parameter: how `url.parse` reads the URL (`none` when
it throws, which rejects the listener's promise before anything is written) and the SHA-1 digest
in base64.  Logging and the socket's `error` listener are left out.
-/

namespace Fxcode.Server.Upgrade

open Path Handler

/-- The fields of an upgrade request the listener reads. -/
structure UpgradeRequest where
  url : String
  upgrade : Option String
  secWebSocketKey : Option String
  secWebSocketExtensions : Option String
  deriving DecidableEq, Repr

/-- `String(header)`: `undefined` for a header the request lacks. -/
def jsString : Option String → String
  | some value => value
  | none => "undefined"

/-- `s.indexOf(search) !== -1`. -/
def includes (s search : String) : Bool := decide (search.data <:+: s.data)

/-- The GUID RFC 6455 appends to the key before hashing it. -/
def webSocketGUID : String := "258EAFA5-E914-47DA-95CA-C5AB0DC85B11"

/-- `token`: the query's `reconnectionToken` when it is a string. -/
def reconnectionToken (query : List (String × QueryValue)) : Option String :=
  match query.lookup "reconnectionToken" with
  | some (.single token) => some token
  | _ => none

/-- `responseHeaders`. -/
def responseHeaders (hash : String) (permessageDeflate : Bool) : List String :=
  ["HTTP/1.1 101 Web Socket Protocol Handshake", "Upgrade: WebSocket", "Connection: Upgrade",
      "Sec-WebSocket-Accept: " ++ hash] ++
    if permessageDeflate then ["Sec-WebSocket-Extensions: permessage-deflate; server_max_window_bits=15"]
    else []

/-- What `socket.write` sends: the header lines joined by CRLF, then an empty line. -/
def handshakeHead (hash : String) (permessageDeflate : Bool) : String :=
  String.intercalate "\r\n" (responseHeaders hash permessageDeflate) ++ "\r\n\r\n"

/-- What the listener does with the socket. -/
inductive UpgradeOutcome
  /-- `socket.end(text)`. -/
  | ended (text : String)
  /-- `socket.write(head)`, then `vscode.handleWebSocket(socket, query, permessageDeflate)`. -/
  | handshake (head : String) (query : List (String × QueryValue)) (permessageDeflate : Bool)
  /-- `url.parse` threw: the listener's promise rejects and the socket stays unanswered. -/
  | rejected
  deriving DecidableEq, Repr

/-- The `upgrade` listener. -/
def handleUpgrade (urlParse : String → Option ParsedUrl) (sha1Base64 : String → String)
    (req : UpgradeRequest) : UpgradeOutcome :=
  if req.upgrade ≠ some "websocket" ∨ req.url = "" then .ended "HTTP/1.1 400 Bad Request"
  else match urlParse req.url with
    | none => .rejected
    | some parsedUrl =>
      match reconnectionToken parsedUrl.query with
      | none => .ended "HTTP/1.1 400 Bad Request"
      | some token =>
        if token = "" then .ended "HTTP/1.1 400 Bad Request"
        else
          let hash := sha1Base64 (jsString req.secWebSocketKey ++ webSocketGUID)
          let permessageDeflate := includes (jsString req.secWebSocketExtensions) "permessage-deflate"
          .handshake (handshakeHead hash permessageDeflate) parsedUrl.query permessageDeflate

example : handleUpgrade (fun _ => some ⟨some "/", [("reconnectionToken", .single "c0e3")]⟩) id
    ⟨"/?reconnectionToken=c0e3", some "websocket", some "dGhl", some "permessage-deflate"⟩ =
      .handshake ("HTTP/1.1 101 Web Socket Protocol Handshake\r\nUpgrade: WebSocket\r\n" ++
        "Connection: Upgrade\r\nSec-WebSocket-Accept: dGhl258EAFA5-E914-47DA-95CA-C5AB0DC85B11\r\n" ++
        "Sec-WebSocket-Extensions: permessage-deflate; server_max_window_bits=15\r\n\r\n")
        [("reconnectionToken", .single "c0e3")] true :=
  rfl

end Fxcode.Server.Upgrade
