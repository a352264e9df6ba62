import Mathlib.Algebra.Group.Nat.Defs
import MsgRiver.Connector.Exchange

/-!
# The ntfy driver

`deliver` validates the message, connects, writes one HTTP request and classifies the response.
`response` reads it: a header section of at most 16 KiB, one `Content-Length`, and exactly that
many body bytes.  The subtraction `MAX_RESPONSE_HEADERS - header_end` is checked, so it panics when
the header section ends past the limit.
-/

namespace MsgRiver.Connector.Ntfy

open Ascii Text

/-- A validated, operator-owned ntfy HTTP endpoint. -/
structure NtfyEndpoint where
  host : String
  port : UInt16
  pathPrefix : String
  deriving DecidableEq

/-- A fixed-destination ntfy publication. -/
structure NtfyMessage where
  topic : String
  title : Option String
  body : String
  deriving DecidableEq

/-- The longest head of a response that the driver reads. -/
def maxResponseHeaders : ℕ := 16 * 1024

/-- The checks on a message, all made before the driver connects. -/
def validateMessage (message : NtfyMessage) : Except DriverError Unit :=
  if message.topic.isEmpty
      || 64 < message.topic.utf8ByteSize
      || !(utf8Bytes message.topic).all (fun byte =>
          isAlphanumeric byte || byte == 0x2d || byte == 0x5f)
      || message.body.isEmpty
      || 4096 < message.body.utf8ByteSize
      || message.body.toList.contains '\x00'
      || message.title.any (fun title => title.isEmpty || 256 < title.utf8ByteSize
          || title.toList.any fun c => c == '\r' || c == '\n' || c == '\x00') then
    .error .invalidDelivery
  else .ok ()

/-- What the driver writes to the socket; the `Host` header names the port unless it is 80. -/
def requestBytes (endpoint : NtfyEndpoint) (message : NtfyMessage) : List UInt8 :=
  let path := endpoint.pathPrefix ++ "/" ++ message.topic
  let host := if endpoint.port = 80 then endpoint.host
    else endpoint.host ++ ":" ++ toString endpoint.port.toNat
  let head := utf8Bytes ("POST " ++ path ++ " HTTP/1.1\r\nHost: " ++ host ++
    "\r\nUser-Agent: MsgRiver/0.1.0-alpha\r\nContent-Type: text/plain; charset=utf-8" ++
    "\r\nContent-Length: " ++ toString message.body.utf8ByteSize ++ "\r\nConnection: close\r\n")
  let title := match message.title with
    | some title => utf8Bytes "Title: " ++ utf8Bytes title ++ utf8Bytes "\r\n"
    | none => []
  head ++ title ++ utf8Bytes "\r\n" ++ utf8Bytes message.body

/-- A response that was read to its end. -/
structure NtfyResponse where
  status : ℕ
  body : List UInt8
  deriving DecidableEq

/-- The status line and the one `Content-Length` of a header section. -/
structure ResponseHead where
  status : ℕ
  headerEnd : ℕ
  length : ℕ

/-- The values of the `Content-Length` lines; nothing when one of them is not a number. -/
def contentLengths (headers : List Char) : Option (List ℕ) :=
  (((splitCrLf headers).filterMap (splitOnce ':')).filter
    fun line => eqIgnoreAsciiCase line.1 "content-length".toList).mapM
      fun line => parseUnsigned (2 ^ 64 - 1) (trim line.2)

/-- The part of `response` between the blank line and the body: the header section ends at
`headerEnd`. -/
def responseHead (bytes : List UInt8) (headerEnd : ℕ) : Except Panic (Option ResponseHead) :=
  let parsed : Option (ℕ × List ℕ) := do
    let lineEnd ← position [0x0d, 0x0a] bytes
    let line ← decodeUtf8 (bytes.take lineEnd)
    let pieces := splitAsciiWhitespace line
    let version ← pieces[0]?
    if version != "HTTP/1.1".toList && version != "HTTP/1.0".toList then none
    let status ← parseUnsigned 65535 (← pieces[1]?)
    let headers ← decodeUtf8 ((bytes.take headerEnd).drop (lineEnd + 2))
    let lengths ← contentLengths headers
    return (status, lengths)
  match parsed with
  | some (status, [length]) =>
    if maxResponseHeaders < headerEnd then .error .subtractOverflow
    else if maxResponseHeaders - headerEnd < length then .ok none
    else .ok (some ⟨status, headerEnd, length⟩)
  | _ => .ok none

/-- The end of the body loop: the bytes are exactly the response. -/
def completeResponse (head : ResponseHead) (bytes : List UInt8) : Option NtfyResponse :=
  if bytes.length ≠ head.headerEnd + head.length then none
  else some ⟨head.status, bytes.drop head.headerEnd⟩

/-- Read until the body is complete. -/
def responseBody (head : ResponseHead) (bytes : List UInt8) : List Turn → Option NtfyResponse
  | [] =>
    if bytes.length < head.headerEnd + head.length then none else completeResponse head bytes
  | turn :: turns =>
    if bytes.length < head.headerEnd + head.length then
      if turn.late then none
      else
        match turn.read with
        | .failed => none
        | .chunk chunk _ =>
          if chunk.isEmpty || maxResponseHeaders < bytes.length + chunk.length then none
          else responseBody head (bytes ++ chunk) turns
    else completeResponse head bytes

/-- Read until the blank line, then the body. -/
def responseFrom (bytes : List UInt8) : List Turn → Except Panic (Option NtfyResponse)
  | [] => .ok none
  | turn :: turns =>
    if bytes.length < maxResponseHeaders then
      if turn.late then .ok none
      else
        match turn.read with
        | .failed => .ok none
        | .chunk chunk _ =>
          if chunk.isEmpty then .ok none
          else
            match position blankLine (bytes ++ chunk) with
            | none => responseFrom (bytes ++ chunk) turns
            | some separator =>
              (responseHead (bytes ++ chunk) (separator + 4)).map fun head =>
                head.bind fun head => responseBody head (bytes ++ chunk) turns
    else .ok none

/-- The response of the provider, when it is well framed. -/
def response (turns : List Turn) : Except Panic (Option NtfyResponse) := responseFrom [] turns

/-- The acknowledgement id in the body of a successful response. -/
def acknowledgement (json : Json.Codec) (body : List UInt8) : Option String :=
  ((json.fromSlice body).bind fun value => (value.get "id").bind Json.Value.asString).filter
    validAcknowledgement

/-- The classification of a well-framed response. -/
def classify (json : Json.Codec) (response : NtfyResponse) : Except DriverError DeliveryOutcome :=
  if 200 ≤ response.status ∧ response.status < 300 then
    match acknowledgement json response.body with
    | some ack => .ok (.accepted ack)
    | none => .error .invalidDelivery
  else if response.status = 429 then .ok .rateLimited
  else if response.status = 401 ∨ response.status = 403 ∨ response.status = 404 then
    .ok .authOrConfig
  else if 400 ≤ response.status ∧ response.status < 500 then .ok .permanent
  else .ok .ambiguous

/-- One delivery: a message that fails its checks is not sent. -/
def deliver (json : Json.Codec) (endpoint : NtfyEndpoint) (message : NtfyMessage) (peer : Peer) :
    Attempt :=
  match validateMessage message with
  | .error e => .unsent (.error e)
  | .ok () =>
    if !peer.connects then .unsent (.ok .transient)
    else if !peer.timeoutsSet then .unsent (.ok .transient)
    else
      let request := requestBytes endpoint message
      if !peer.writes then ⟨.ok (.ok .ambiguous), request⟩
      else
        match response peer.turns with
        | .error panic => ⟨.error panic, request⟩
        | .ok none => ⟨.ok (.ok .ambiguous), request⟩
        | .ok (some response) => ⟨.ok (classify json response), request⟩

end MsgRiver.Connector.Ntfy
