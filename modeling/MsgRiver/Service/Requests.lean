import MsgRiver.Service.Local
import MsgRiver.Store.Intent
import MsgRiver.Store.Status

/-!
# Local requests

`handle_request` serves one connection of the Unix socket: it reads a request, carries it out on the
store and answers.

* `parse_canonical`, `canonical_of_parse`: the canonical payload of a WhatsApp command reads back,
  and nothing else does;
* `whatsapp_command_survives`: the driver is handed the command that was admitted.
-/

namespace MsgRiver.Service

open MsgRiver.Store MsgRiver.Connector StepRun RelTable Checked Result

/-- A client of the Unix socket: its answers to the reads, and whether it takes the response. -/
structure UnixPeer where
  reads : List ReadResult
  writes : Bool

/-- The part of the configuration that local requests use. -/
structure LocalConfig where
  ntfyTopic : String
  whatsapp : Option Whatsapp.TemplateRegistration
  inbound : Option InboundConfig

/-! ### Answers -/

/-- The response on the local socket. -/
def responseBytes (status : ℕ) (body : String) : List UInt8 :=
  let reason := match status with
    | 200 => "OK"
    | 202 => "Accepted"
    | 400 => "Bad Request"
    | 404 => "Not Found"
    | 409 => "Conflict"
    | _ => "Error"
  Ascii.utf8Bytes ("HTTP/1.1 " ++ toString status ++ " " ++ reason ++
    "\r\nContent-Type: application/json\r\nContent-Length: " ++ toString body.utf8ByteSize ++
    "\r\nConnection: close\r\n\r\n" ++ body)

/-- The response, where the client still reads. -/
def writeResponse (peer : UnixPeer) (status : ℕ) (body : String) : Except Fault (List UInt8) :=
  if peer.writes then .ok (responseBytes status body) else .error (.error "socket write failed")

/-- A JSON truth value. -/
def boolText (b : Bool) : String := if b then "true" else "false"

/-- The answer to a submission. -/
def jsonResult (messageId : String) (deduplicated : Bool) : String :=
  "\x7b\"message_id\":\"" ++ messageId ++ "\",\"deduplicated\":" ++ boolText deduplicated ++ "\x7d"

/-- The answer to a status request. -/
def jsonQueueSummary (summary : M6QueueSummary) : String :=
  "\x7b\"counts\":\x7b\"queued\":" ++ toString summary.queued ++
  ",\"retry_scheduled\":" ++ toString summary.retryScheduled ++
  ",\"sending\":" ++ toString summary.sending ++
  ",\"provider_accepted\":" ++ toString summary.providerAccepted ++
  ",\"failed\":" ++ toString summary.failed ++
  ",\"ambiguous\":" ++ toString summary.ambiguous ++ "\x7d\x7d"

/-- The answer about one message, with what a person can do about it. -/
def jsonMessageStatus (messageId : String) (status : M6MessageStatus) : String :=
  let recovery := match status.state with
    | "failed" => "retry_after_configuration_check"
    | "ambiguous" => "manual_resolution_required"
    | _ => "none"
  "\x7b\"message_id\":\"" ++ messageId ++ "\",\"state\":\"" ++ status.state ++
  "\",\"attempts\":" ++ toString status.attempts ++ ",\"recovery\":\"" ++ recovery ++ "\"\x7d"

/-- The answer to a retry. -/
def jsonRetry (messageId : String) (requeued : Bool) : String :=
  "\x7b\"message_id\":\"" ++ messageId ++ "\",\"requeued\":" ++ boolText requeued ++ "\x7d"

/-- The body of a 400. -/
def invalidRequest : String := "\x7b\"error\":\"invalid request\"\x7d"

/-- The body of a 404. -/
def notFound : String := "\x7b\"error\":\"not found\"\x7d"

/-- The body of a 409. -/
def requestRefused : String := "\x7b\"error\":\"request refused\"\x7d"

/-- The answer to a submission. -/
def writeAccepted (peer : UnixPeer) : Except StoreError M2Accepted → Except Fault (List UInt8)
  | .ok (.new messageId) => writeResponse peer 202 (jsonResult messageId false)
  | .ok (.existing messageId) => writeResponse peer 200 (jsonResult messageId true)
  | .error _ => writeResponse peer 409 requestRefused

/-! ### The handler -/

/-- The command of a WhatsApp request. -/
def IncomingWhatsappMessage.message (request : IncomingWhatsappMessage) :
    Whatsapp.WhatsappMessage :=
  ⟨request.recipient, request.template, request.locale, request.parameters⟩

/-- The queue submission of a WhatsApp request. -/
def whatsappSubmission (request : IncomingWhatsappMessage) (payload : String) : M3Submission :=
  ⟨request.idempotencyKey, "whatsapp", request.recipient, payload⟩

/-- Carry out a request; the clock is read before the store is called. -/
def serveRequest (sha256 : List UInt8 → List.Vector UInt8 32) (json : Json.Codec)
    (config : LocalConfig) (now : Option Int64) (peer : UnixPeer) (db : Db) :
    IncomingRequest → Except Fault (List UInt8) × Db
  | .ntfy message =>
    match now with
    | none => (.error (.error "clock failed"), db)
    | some now =>
      let (accepted, db) := m2Submit sha256
        ⟨message.idempotencyKey, config.ntfyTopic, message.title, message.body⟩ now db
      (writeAccepted peer accepted, db)
  | .whatsapp request =>
    match config.whatsapp with
    | none => (writeResponse peer 404 notFound, db)
    | some registration =>
      match Whatsapp.requestBody json registration request.message with
      | .error _ => (writeResponse peer 400 invalidRequest, db)
      | .ok _ =>
        match canonicalWhatsappPayload json request.template request.locale request.parameters with
        | .error fault => (.error fault, db)
        | .ok payload =>
          match now with
          | none => (.error (.error "clock failed"), db)
          | some now =>
            let (accepted, db) := m3Submit sha256 (whatsappSubmission request payload) now db
            (writeAccepted peer accepted, db)
  | .inboundControl enabled =>
    match config.inbound with
    | none => (writeResponse peer 404 notFound, db)
    | some _ =>
      match m4SetInboundEnabled enabled db with
      | (.ok (), db) =>
        (writeResponse peer 200 ("\x7b\"enabled\":" ++ boolText enabled ++ "\x7d"), db)
      | (.error _, db) => (writeResponse peer 409 requestRefused, db)
  | .status => (writeResponse peer 200 (jsonQueueSummary (m6QueueSummary db)), db)
  | .messageStatus messageId =>
    match m6MessageStatus messageId db with
    | .ok (some status) => (writeResponse peer 200 (jsonMessageStatus messageId status), db)
    | .ok none => (writeResponse peer 404 notFound, db)
    | .error _ => (writeResponse peer 409 requestRefused, db)
  | .messageRetry messageId =>
    match now with
    | none => (.error (.error "clock failed"), db)
    | some now =>
      match m6RequeueFailed messageId now db with
      | (.ok (some true), db) => (writeResponse peer 202 (jsonRetry messageId true), db)
      | (.ok (some false), db) => (writeResponse peer 409 (jsonRetry messageId false), db)
      | (.ok none, db) => (writeResponse peer 404 notFound, db)
      | (.error _, db) => (writeResponse peer 409 requestRefused, db)

/-- One connection of the local socket. -/
def handleRequest (sha256 : List UInt8 → List.Vector UInt8 32) (json : Json.Codec)
    (config : LocalConfig) (now : Option Int64) (peer : UnixPeer) (db : Db) :
    Except Fault (List UInt8) × Db :=
  match readRequest json peer.reads with
  | .error fault => (.error fault, db)
  | .ok none => (writeResponse peer 400 invalidRequest, db)
  | .ok (some request) => serveRequest sha256 json config now peer db request

/-! ### The canonical payload -/

/-- The members of a payload object are those of the payload. -/
theorem payloadMembers_toJson (payload : CanonicalWhatsappPayload) :
    payloadMembers payload.toJson = some payload := by
  obtain ⟨template, locale, parameters⟩ := payload
  have hparameters : (parameters.map Json.Value.string).mapM Json.Value.asString = some parameters :=
    Json.Value.mapM_asString_eq_some.2 rfl
  simp [payloadMembers, CanonicalWhatsappPayload.toJson, Json.Value.asObject, Json.Value.get,
    Json.Value.asArray, Json.Value.asString, hparameters, -List.mapM_map]

/-- A canonical payload reads back. -/
theorem parse_canonical {json : Json.Codec} {payload : CanonicalWhatsappPayload}
    (h : json.RoundTrips payload.toJson) :
    ∃ text, canonicalWhatsappPayload json payload.template payload.locale payload.parameters =
        .ok text ∧ parseCanonicalWhatsappPayload json text = some payload := by
  obtain ⟨text, hprint, hread⟩ := h
  refine ⟨text, ?_, ?_⟩
  · rw [canonicalWhatsappPayload, hprint]
    rfl
  · simp [parseCanonicalWhatsappPayload, hread, payloadMembers_toJson, hprint]

/-- Only canonical payloads are read. -/
theorem canonical_of_parse {json : Json.Codec} {text : String} {payload : CanonicalWhatsappPayload}
    (h : parseCanonicalWhatsappPayload json text = some payload) :
    canonicalWhatsappPayload json payload.template payload.locale payload.parameters =
      .ok text := by
  simp only [parseCanonicalWhatsappPayload, Option.bind_eq_bind, Option.bind_eq_some_iff] at h
  obtain ⟨value, -, canonical, -, reconstructed, hprint, h⟩ := h
  split_ifs at h with hsame
  obtain rfl := Option.some.inj h
  rw [canonicalWhatsappPayload, show
    (⟨canonical.template, canonical.locale, canonical.parameters⟩ : CanonicalWhatsappPayload) =
      canonical from rfl, hprint]
  exact congrArg Except.ok (beq_iff_eq.1 hsame)

/-! ### From admission to delivery -/

/-- The id that an answer to a submission names. -/
def acceptedId : M2Accepted → String
  | .new messageId => messageId
  | .existing messageId => messageId

/-- An accepted provider-neutral submission has a row with its content, new or found. -/
theorem m3Submit_row {sha256 : List UInt8 → List.Vector UInt8 32} {db : Db} {s : M3Submission}
    {now : Int64} {accepted : M2Accepted} (h : (m3Submit sha256 s now db).1 = .ok accepted) :
    ∃ m ∈ (m3Submit sha256 s now db).2.messages.rows, m.messageId = acceptedId accepted ∧
      m.driver = s.driver ∧ m.destination = s.destination ∧ m.payload = s.payload := by
  have heff := step_effect sha256 db (.m3Submit s now)
  have hreply : (step sha256 db (.m3Submit s now)).1 = .ok (.submitted accepted) := by
    show (m3Submit sha256 s now db).1.map Reply.submitted = _
    rw [h]
    rfl
  show ∃ m ∈ (step sha256 db (.m3Submit s now)).2.messages.rows, _
  generalize step sha256 db (.m3Submit s now) = p at heff hreply ⊢
  obtain ⟨answer, db'⟩ := p
  simp only at hreply
  subst hreply
  cases heff with
  | m3Existing hrow _ _ hdriver hdestination hsame =>
    exact ⟨_, hrow, rfl, hdriver, hdestination, hsame⟩
  | m3New _ hrows =>
    refine ⟨m3Message sha256 s now, ?_, rfl, rfl, rfl, rfl⟩
    simp [hrows]
  | moved _ hmove => cases hmove

/-- The payload of a WhatsApp request. -/
def IncomingWhatsappMessage.payload (request : IncomingWhatsappMessage) :
    CanonicalWhatsappPayload :=
  ⟨request.template, request.locale, request.parameters⟩

/-- `handle_request` admits a WhatsApp request: its command can be built, and the store accepts its
payload under `messageId`. -/
structure WhatsappAdmitted (sha256 : List UInt8 → List.Vector UInt8 32) (json : Json.Codec)
    (config : LocalConfig) (now : Option Int64) (peer : UnixPeer) (db : Db)
    (request : IncomingWhatsappMessage) (registration : Whatsapp.TemplateRegistration)
    (body : List UInt8) (messageId : String) : Prop where
  read : readRequest json peer.reads = .ok (some (.whatsapp request))
  configured : config.whatsapp = some registration
  built : Whatsapp.requestBody json registration request.message = .ok body
  accepted : ∃ payload time accepted,
    canonicalWhatsappPayload json request.template request.locale request.parameters = .ok payload ∧
      now = some time ∧
      (m3Submit sha256 (whatsappSubmission request payload) time db).1 = .ok accepted ∧
      acceptedId accepted = messageId

/-- What the handler does for a WhatsApp request whose command can be built. -/
theorem handleRequest_submits {sha256 : List UInt8 → List.Vector UInt8 32} {json : Json.Codec}
    {config : LocalConfig} {time : Int64} {peer : UnixPeer} {db : Db}
    {request : IncomingWhatsappMessage} {registration : Whatsapp.TemplateRegistration}
    {body : List UInt8} {payload : String}
    (hread : readRequest json peer.reads = .ok (some (.whatsapp request)))
    (hconfigured : config.whatsapp = some registration)
    (hbuilt : Whatsapp.requestBody json registration request.message = .ok body)
    (hpayload : canonicalWhatsappPayload json request.template request.locale request.parameters =
      .ok payload) :
    (handleRequest sha256 json config (some time) peer db).2 =
      (m3Submit sha256 (whatsappSubmission request payload) time db).2 := by
  simp only [handleRequest, hread, serveRequest, hconfigured, hbuilt, hpayload]

/-- The row of an admitted request. -/
theorem WhatsappAdmitted.row {sha256 : List UInt8 → List.Vector UInt8 32} {json : Json.Codec}
    {config : LocalConfig} {now : Option Int64} {peer : UnixPeer} {db : Db}
    {request : IncomingWhatsappMessage} {registration : Whatsapp.TemplateRegistration}
    {body : List UInt8} {messageId : String}
    (h : WhatsappAdmitted sha256 json config now peer db request registration body messageId) :
    ∃ payload, canonicalWhatsappPayload json request.template request.locale request.parameters =
        .ok payload ∧
      ∃ m ∈ (handleRequest sha256 json config now peer db).2.messages.rows,
        m.messageId = messageId ∧ m.driver = "whatsapp" ∧ m.destination = request.recipient ∧
          m.payload = payload := by
  obtain ⟨hread, hconfigured, hbuilt, payload, time, accepted, hpayload, rfl, haccepted, rfl⟩ := h
  rw [handleRequest_submits hread hconfigured hbuilt hpayload]
  exact ⟨payload, hpayload, m3Submit_row haccepted⟩

/-- What a WhatsApp delivery hands to the transport is the request around its command. -/
theorem handed_of_deliver {json : Json.Codec} {driver : Whatsapp.WhatsappDriver}
    {message : Whatsapp.WhatsappMessage} {body : List UInt8}
    (h : Whatsapp.requestBody json driver.registration message = .ok body) (peer : Peer) :
    (Whatsapp.deliver json driver message peer).handed = [] ∨
      (Whatsapp.deliver json driver message peer).handed = Whatsapp.request driver body := by
  unfold Whatsapp.deliver
  rw [h]
  simp only
  split_ifs <;> simp [Attempt.unsent]

/-- **A WhatsApp command survives the queue.**  Its canonical payload reads back; nothing but a
canonical payload is read; and whatever happens after its admission, a delivery of its row hands the
driver the command that was admitted, whose request body is the one built then. -/
theorem whatsapp_command_survives {json : Json.Codec} {request : IncomingWhatsappMessage}
    (hround : json.RoundTrips request.payload.toJson) :
    (∃ text, canonicalWhatsappPayload json request.template request.locale request.parameters =
        .ok text ∧ parseCanonicalWhatsappPayload json text = some request.payload) ∧
    (∀ text payload, parseCanonicalWhatsappPayload json text = some payload →
      canonicalWhatsappPayload json payload.template payload.locale payload.parameters = .ok text) ∧
    ∀ (sha256 : List UInt8 → List.Vector UInt8 32) (config : Config) (localConfig : LocalConfig)
      (driver : Whatsapp.WhatsappDriver) (now : Option Int64) (peer : UnixPeer) (db : Db)
      (body : List UInt8) (messageId : String),
      config.json = json → config.whatsapp = some ⟨.whatsapp driver⟩ →
      WhatsappAdmitted sha256 json localConfig now peer db request driver.registration body
        messageId →
      ∀ (later : List Call) (claimNow markNow : Option Int64) (provider : Peer)
        (delivery : M2Delivery) (a : Attempt),
        (dispatchDue sha256 config claimNow provider markNow
          (run (step sha256) (handleRequest sha256 json localConfig now peer db).2 later)).1.attempt =
            some (delivery, a) →
        delivery.messageId = messageId →
        handover config delivery = some (.whatsapp driver, .whatsapp request.recipient
          request.template request.locale request.parameters) ∧
        Whatsapp.requestBody json driver.registration request.message = .ok body ∧
        (a.handed = [] ∨ a.handed = Whatsapp.request driver body) := by
  obtain ⟨text, hprint, hparse⟩ := parse_canonical hround
  refine ⟨⟨text, hprint, hparse⟩, fun _ _ => canonical_of_parse, ?_⟩
  rintro sha256 config localConfig driver now peer db body messageId rfl hdriver hadmitted later
    claimNow markNow provider delivery a hattempt hid
  obtain ⟨payload, hpayload, m, hm, hmid, hmdriver, hmdestination, hmpayload⟩ := hadmitted.row
  obtain rfl : text = payload := Except.ok.inj (hprint.symm.trans hpayload)
  have heff := dispatchDue_effect sha256 config claimNow provider markNow
    (run (step sha256) (handleRequest sha256 config.json localConfig now peer db).2 later)
  rw [hattempt] at heff
  obtain ⟨rfl, x, hx, n, rfl⟩ := heff.row
  -- the claimed row is the admitted one, some calls later
  obtain ⟨m', hm', hlater⟩ := row_run sha256 _ later hm
  have hxm : x = m' := Table.eq_of_key messageId_mem_keys hx hm'
    ((show x.messageId = messageId from hid).trans (hmid.symm.trans hlater.id.symm))
  subst hxm
  have hhandover : handover config (x.delivery n) = some (.whatsapp driver, .whatsapp
      request.recipient request.template request.locale request.parameters) := by
    rw [handover_of_identity hlater.identity n n]
    simp [handover, whatsappDelivery, Message.delivery, hmdriver, hmdestination, hmpayload, hdriver,
      hparse, IncomingWhatsappMessage.payload]
  refine ⟨hhandover, hadmitted.built, ?_⟩
  unfold attempt
  rw [hhandover]
  exact handed_of_deliver hadmitted.built provider

/-! ### A notice -/

/-- A WhatsApp message of a client. -/
def notice : IncomingWhatsappMessage := ⟨"job-1", "+15551234567", "notice", "en_US", ["Ok"]⟩

/-- The bytes of an ASCII text that is cut in pieces. -/
def asciiText (pieces : List String) : List UInt8 :=
  pieces.flatMap fun piece => Ascii.codes piece.toList

/-- The body of the request for it. -/
def noticeBody : List UInt8 := asciiText
  ["\x7b\"idempotency_key\":\"job-1\",\"local",
   "e\":\"en_US\",\"params\":[\"Ok\"],\"templ",
   "ate\":\"notice\",\"to\":\"+15551234567\"",
   "\x7d"]

/-- The command that the provider gets. -/
def noticeCommand : List UInt8 := asciiText
  ["\x7b\"messaging_product\":\"whatsapp\",\"",
   "template\":\x7b\"components\":[\x7b\"parame",
   "ters\":[\x7b\"text\":\"Ok\",\"type\":\"text\"",
   "\x7d],\"type\":\"body\"\x7d],\"language\":\x7b\"c",
   "ode\":\"en_US\"\x7d,\"name\":\"notice\"\x7d,\"t",
   "o\":\"+15551234567\",\"type\":\"templat",
   "e\"\x7d"]

/-- The payload that is stored. -/
def noticePayload : String :=
  "\x7b\"locale\":\"en_US\",\"params\":[\"Ok\"],\"template\":\"notice\"\x7d"

/-- A codec that knows the texts of this notice. -/
def noticeCodec : Json.Codec where
  fromSlice bytes :=
    if bytes = noticeBody then
      some (.object [("idempotency_key", .string "job-1"), ("locale", .string "en_US"),
        ("params", .array [.string "Ok"]), ("template", .string "notice"),
        ("to", .string "+15551234567")])
    else none
  fromStr text := if text = noticePayload then some notice.payload.toJson else none
  toVec
    | .object (("messaging_product", _) :: _) => some noticeCommand
    | _ => none
  toString
    | .object (("locale", _) :: _) => some noticePayload
    | _ => none

/-- The template of the service. -/
def noticeRegistration : Whatsapp.TemplateRegistration := ⟨"notice", "en_US", 1⟩

/-- The driver of the service. -/
def noticeDriver : Whatsapp.WhatsappDriver :=
  ⟨⟨"graph.example", 443, "v20.0", "100200300"⟩, "token", noticeRegistration⟩

/-- The delivery part of its configuration. -/
def noticeConfig : Config :=
  ⟨noticeCodec, .ntfy ⟨"127.0.0.1", 8080, ""⟩, some ⟨.whatsapp noticeDriver⟩⟩

/-- The local part of its configuration. -/
def noticeLocal : LocalConfig := ⟨"alerts", some noticeRegistration, none⟩

/-- The request as it is sent. -/
def noticeStream : List UInt8 :=
  asciiText ["POST /v1/whatsapp/messages HTTP/1.1", "\r\nContent-Length: 100"] ++
    (blankLine ++ noticeBody)

theorem noticeStream_size : noticeStream.length ≤ 1024 := by decide +kernel

/-- A client that sends it at once. -/
def noticePeer : UnixPeer := ⟨[.chunk noticeStream noticeStream_size], true⟩

/-- The notice is admitted to an empty store. -/
theorem notice_admitted : WhatsappAdmitted Sha256.sha256 noticeCodec noticeLocal (some 0) noticePeer
    Db.migrated notice noticeRegistration noticeCommand
    (m3Message Sha256.sha256 (whatsappSubmission notice noticePayload) 0).messageId := by
  refine ⟨?_, rfl, ?_, noticePayload, 0, .new _, ?_, rfl, ?_, rfl⟩ <;> decide +kernel

/-- The driver is handed the notice. -/
theorem whatsapp_notice_survives : ∃ delivery a,
    (dispatchDue Sha256.sha256 noticeConfig (some 5) refusingPeer (some 6)
      (handleRequest Sha256.sha256 noticeCodec noticeLocal (some 0) noticePeer
        Db.migrated).2).1.attempt = some (delivery, a) ∧
    handover noticeConfig delivery = some (.whatsapp noticeDriver,
      .whatsapp "+15551234567" "notice" "en_US" ["Ok"]) := by
  have hstore : (handleRequest Sha256.sha256 noticeCodec noticeLocal (some 0) noticePeer
      Db.migrated).2 =
        (m3Submit Sha256.sha256 (whatsappSubmission notice noticePayload) 0 Db.migrated).2 :=
    handleRequest_submits notice_admitted.read rfl notice_admitted.built rfl
  have hround : (dispatchDue Sha256.sha256 noticeConfig (some 5) refusingPeer (some 6)
      (m3Submit Sha256.sha256 (whatsappSubmission notice noticePayload) 0
        Db.migrated).2).1.attempt.map (fun x => x.1.messageId) =
      some (m3Message Sha256.sha256 (whatsappSubmission notice noticePayload) 0).messageId := by
    decide +kernel
  rw [← hstore] at hround
  obtain ⟨⟨delivery, a⟩, hattempt, hid⟩ := Option.map_eq_some_iff.1 hround
  have hread : noticeCodec.fromStr noticePayload = some notice.payload.toJson := by
    show (if noticePayload = noticePayload then some notice.payload.toJson else none) = _
    rw [if_pos rfl]
  have hcodec : noticeCodec.RoundTrips notice.payload.toJson := ⟨noticePayload, rfl, hread⟩
  exact ⟨delivery, a, hattempt, ((whatsapp_command_survives hcodec).2.2 Sha256.sha256 noticeConfig
    noticeLocal noticeDriver (some 0) noticePeer Db.migrated noticeCommand _ rfl rfl notice_admitted
    [] (some 5) (some 6) refusingPeer delivery a (by rw [run_nil]; exact hattempt) hid).1⟩

end MsgRiver.Service
