import MsgRiver.Connector.Exchange

/-!
# The WhatsApp driver

`deliver` builds the template command, connects over TLS, writes one HTTPS request, reads the
response to the end of the stream (at most 16 KiB) and classifies it.
-/

namespace MsgRiver.Connector.Whatsapp

open Ascii Text

/-- A fixed operator-owned HTTPS Cloud endpoint. -/
structure WhatsappEndpoint where
  host : String
  port : UInt16
  version : String
  phoneId : String
  deriving DecidableEq

/-- One operator-registered text-template shape. -/
structure TemplateRegistration where
  name : String
  locale : String
  parameterCount : ℕ
  deriving DecidableEq

/-- One fixed endpoint/token/allowlist driver. -/
structure WhatsappDriver where
  endpoint : WhatsappEndpoint
  token : String
  registration : TemplateRegistration
  deriving DecidableEq

/-- A caller's closed WhatsApp template command. -/
structure WhatsappMessage where
  recipient : String
  template : String
  locale : String
  parameters : List String
  deriving DecidableEq

/-- The most parameters a template takes. -/
def maxParameters : ℕ := 15

/-- The longest parameter, in bytes. -/
def maxParameterBytes : ℕ := 1024

/-- The most bytes of a response that the driver reads. -/
def maxResponse : ℕ := 16 * 1024

/-- A plus sign and seven to fifteen digits, the first of them not zero. -/
def validRecipient (value : String) : Bool :=
  let bytes := utf8Bytes value
  (8 ≤ bytes.length && bytes.length ≤ 16)
    && bytes[0]? == some 0x2b
    && bytes[1]?.any (fun byte => 0x31 ≤ byte && byte ≤ 0x39)
    && (bytes.drop 2).all isDigit

/-- A template name of at most 128 letters, digits and underscores. -/
def validTemplate (value : String) : Bool :=
  !value.isEmpty && value.utf8ByteSize ≤ 128
    && (utf8Bytes value).all fun byte => isAlphanumeric byte || byte == 0x5f

/-- A locale such as `en_US`. -/
def validLocale (value : String) : Bool :=
  let bytes := utf8Bytes value
  bytes.length == 5
    && bytes[2]? == some 0x5f
    && (bytes.take 2).all isLowercase
    && (bytes.drop 3).all isUppercase

/-- A nonempty parameter without a NUL. -/
def validParameter (value : String) : Bool :=
  !value.isEmpty && value.utf8ByteSize ≤ maxParameterBytes && !value.toList.contains '\x00'

/-- The fixed Cloud API command of a message, its members in key order. -/
def commandJson (message : WhatsappMessage) : Json.Value :=
  let text (s : String) : Json.Value := .object [("text", .string s), ("type", .string "text")]
  .object
    [("messaging_product", .string "whatsapp"),
     ("template", .object
       [("components", .array [.object
          [("parameters", .array (message.parameters.map text)), ("type", .string "body")]]),
        ("language", .object [("code", .string message.locale)]),
        ("name", .string message.template)]),
     ("to", .string message.recipient),
     ("type", .string "template")]

/-- The body of a request, after the checks of the message against the registration. -/
def requestBody (json : Json.Codec) (registration : TemplateRegistration)
    (message : WhatsappMessage) : Except DriverError (List UInt8) :=
  if !validRecipient message.recipient
      || !validTemplate registration.name
      || !validLocale registration.locale
      || message.template != registration.name
      || message.locale != registration.locale
      || message.parameters.length != registration.parameterCount
      || maxParameters < message.parameters.length
      || message.parameters.any (!validParameter ·) then
    .error .invalidDelivery
  else
    match json.toVec (commandJson message) with
    | some body => .ok body
    | none => .error .invalidDelivery

/-- The HTTPS request around a command. -/
def request (driver : WhatsappDriver) (body : List UInt8) : List UInt8 :=
  let host := if driver.endpoint.port = 443 then driver.endpoint.host
    else driver.endpoint.host ++ ":" ++ toString driver.endpoint.port.toNat
  utf8Bytes ("POST /" ++ driver.endpoint.version ++ "/" ++ driver.endpoint.phoneId ++
    "/messages HTTP/1.1\r\nHost: " ++ host ++ "\r\nAuthorization: Bearer " ++ driver.token ++
    "\r\nContent-Type: application/json\r\nContent-Length: " ++ toString body.length ++
    "\r\nConnection: close\r\n\r\n") ++ body

/-- Read to the end of the stream. -/
def readResponseFrom (response : List UInt8) : List Turn → Option (List UInt8)
  | [] => none
  | turn :: turns =>
    if response.length < maxResponse then
      match turn.read with
      | .failed => none
      | .chunk chunk _ =>
        if chunk.isEmpty then some response
        else if maxResponse < response.length + chunk.length then none
        else readResponseFrom (response ++ chunk) turns
    else none

/-- The bytes of a response up to the end of the stream. -/
def readResponse (turns : List Turn) : Option (List UInt8) := readResponseFrom [] turns

/-- The status and the body of a response. -/
def responseStatus (response : List UInt8) : Option (ℕ × List UInt8) := do
  let separator ← position blankLine response
  let head ← decodeUtf8 (response.take separator)
  let line ← firstLine head
  let status ← parseUnsigned 65535 (← (splitAsciiWhitespace line)[1]?)
  return (status, response.drop (separator + 4))

/-- The id of the first message in the body of a successful response. -/
def acknowledgement (json : Json.Codec) (body : List UInt8) : Option String :=
  ((json.fromSlice body).bind fun value =>
    (value.get "messages").bind fun messages =>
      messages.asArray.bind fun items =>
        items.head?.bind fun first =>
          (first.get "id").bind Json.Value.asString).filter validAcknowledgement

/-- What a response means for the delivery; an unreadable one is ambiguous. -/
def classifyResponse (json : Json.Codec) (response : Option (List UInt8)) : DeliveryOutcome :=
  match response.bind responseStatus with
  | none => .ambiguous
  | some (status, body) =>
    if status = 200 then
      match acknowledgement json body with
      | some ack => .accepted ack
      | none => .ambiguous
    else if status = 401 ∨ status = 403 ∨ status = 404 then .authOrConfig
    else if status = 429 then .rateLimited
    else if 400 ≤ status ∧ status ≤ 499 then .permanent
    else .ambiguous

/-- One delivery: a message that fails its checks is not sent. -/
def deliver (json : Json.Codec) (driver : WhatsappDriver) (message : WhatsappMessage)
    (peer : Peer) : Attempt :=
  match requestBody json driver.registration message with
  | .error e => .unsent (.error e)
  | .ok body =>
    if !peer.resolves then .unsent (.error .invalidEndpoint)
    else if !peer.connects then .unsent (.ok .transient)
    else if !peer.timeoutsSet then .unsent (.ok .transient)
    else if !peer.tlsReady then .unsent (.error .invalidEndpoint)
    else
      let request := request driver body
      if !peer.writes then ⟨.ok (.ok .ambiguous), request⟩
      else ⟨.ok (.ok (classifyResponse json (readResponse peer.turns))), request⟩

end MsgRiver.Connector.Whatsapp
