import MsgRiver.Service.Requests
import MsgRiver.Service.Startup

/-!
# The intents of callbacks and the checks of the drivers

`handle_inbound_request` submits what a callback asks for without the driver's checks, which the
local interface makes before it submits.  A notify always passes them later.  A status passes them
when the registered template takes one parameter, the fixed `ready`, and the sender, whose digits
become the recipient, has at most 15 digits and no leading zero (`callback_deliverable_iff`).
-/

namespace MsgRiver.Service.Startup

open MsgRiver.Store MsgRiver.Connector Ascii Text

/-- The message passes the checks that its driver makes before any provider effect. -/
def PassesValidation (json : Json.Codec) : Driver → Delivery → Prop
  | .ntfy _, .ntfy topic title body => Ntfy.validateMessage ⟨topic, title, body⟩ = .ok ()
  | .whatsapp driver, .whatsapp recipient template locale parameters =>
    ∃ body, Whatsapp.requestBody json driver.registration
      ⟨recipient, template, locale, parameters⟩ = .ok body
  | _, _ => False

/-- The delivery reaches a driver and passes its checks. -/
def LocallyValid (config : Config) (delivery : M2Delivery) : Prop :=
  ∃ driver item, handover config delivery = some (driver, item) ∧
    PassesValidation config.json driver item

/-- The digits of a sender that are a recipient. -/
structure RecipientDigits (sender : String) : Prop where
  length : sender.utf8ByteSize ≤ 15
  first : (utf8Bytes sender).head? ≠ some 0x30

/-! ### The recipient of a status -/

theorem validRecipient_plus_iff {sender : String} (h : validPhoneSender sender = true) :
    Whatsapp.validRecipient ("+" ++ sender) = true ↔ RecipientDigits sender := by
  have hbytes : utf8Bytes ("+" ++ sender) = 0x2b :: utf8Bytes sender := by
    rw [utf8Bytes_append]
    rfl
  simp only [validPhoneSender, Bool.and_eq_true, decide_eq_true_eq] at h
  obtain ⟨⟨hmin, hmax⟩, hdigits⟩ := h
  have hlength := length_utf8Bytes sender
  have hdigit := List.all_eq_true.1 hdigits
  obtain ⟨first, rest, hcons⟩ : ∃ first rest, utf8Bytes sender = first :: rest := by
    refine List.exists_cons_of_ne_nil fun hnil => ?_
    rw [hnil] at hlength
    simp at hlength
    omega
  have hrest : rest.all Ascii.isDigit = true := by
    rw [hcons, List.all_cons, Bool.and_eq_true] at hdigits
    exact hdigits.2
  -- a digit is not zero exactly if it is in the range for the first one
  have hfirst : (0x31 ≤ first && first ≤ 0x39) = true ↔ first ≠ 0x30 := by
    have hrange := hdigit first (hcons ▸ List.mem_cons_self)
    simp only [Ascii.isDigit, Bool.and_eq_true, decide_eq_true_eq,
      UInt8.le_iff_toNat_le] at hrange ⊢
    rw [ne_eq, ← UInt8.toNat_inj]
    simp only [UInt8.reduceToNat] at hrange ⊢
    omega
  have hsize : sender.utf8ByteSize = rest.length + 1 := by
    rw [← hlength, hcons, List.length_cons]
  unfold Whatsapp.validRecipient
  rw [hbytes, hcons]
  simp only [List.length_cons, List.getElem?_cons_zero, List.getElem?_cons_succ, Option.any_some,
    List.drop_succ_cons, List.drop_zero, hrest, BEq.rfl, Bool.and_true, Bool.and_eq_true,
    decide_eq_true_eq]
  constructor
  · rintro ⟨⟨-, hlong⟩, hrange⟩
    refine ⟨by omega, ?_⟩
    rw [hcons, List.head?_cons]
    intro hzero
    exact hfirst.1 (by simpa using hrange) (Option.some.inj hzero)
  · rintro ⟨hlong, hzero⟩
    rw [hcons, List.head?_cons] at hzero
    have hrange := hfirst.2 fun hfirst => hzero (congrArg some hfirst)
    exact ⟨⟨by omega, by omega⟩, by simpa using hrange⟩

/-- The command of a status passes the checks of the driver exactly when it has the one parameter
and the sender is a recipient. -/
theorem requestBody_status_iff {json : Json.Codec} {whatsapp : WhatsappConfig}
    (hwhatsapp : WhatsappOf whatsapp) {sender : String} (hsender : validPhoneSender sender = true)
    (hwrite : (json.toVec (Whatsapp.commandJson
      ⟨"+" ++ sender, whatsapp.template, whatsapp.locale, ["ready"]⟩)).isSome = true) :
    (∃ body, Whatsapp.requestBody json
      ⟨whatsapp.template, whatsapp.locale, whatsapp.parameterCount⟩
      ⟨"+" ++ sender, whatsapp.template, whatsapp.locale, ["ready"]⟩ = .ok body) ↔
      whatsapp.parameterCount = 1 ∧ RecipientDigits sender := by
  have hready : Whatsapp.validParameter "ready" = true := by decide
  obtain ⟨bytes, hbytes⟩ := Option.isSome_iff_exists.1 hwrite
  rw [← validRecipient_plus_iff hsender]
  unfold Whatsapp.requestBody
  simp only [hwhatsapp.template, hwhatsapp.locale, hbytes, hready, bne_self_eq_false,
    Bool.not_true, Bool.or_false, List.any_cons, List.any_nil, List.length_singleton,
    show ¬ Whatsapp.maxParameters < 1 by decide, decide_false]
  by_cases hrecipient : Whatsapp.validRecipient ("+" ++ sender) = true
  · by_cases hcount : whatsapp.parameterCount = 1
    · simp [hrecipient, hcount]
    · simp [hrecipient, hcount, Ne.symm hcount]
  · simp [hrecipient]

/-! ### The two intents -/

/-- What a submitted callback asks for. -/
theorem callbackEffect_cases {json : Json.Codec} {config : WebhookConfig} {inbound : InboundConfig}
    {callback : ParsedCallback} {submission : M4InboundSubmission}
    (h : callbackEffect json config inbound callback = .ok (some submission)) :
    (callback.verb = "notify" ∧ submission = ⟨callback.messageId, callback.sender, callback.verb,
      "ntfy", inbound.ntfyTopic, "WhatsApp notify request accepted"⟩) ∨
    (callback.verb ≠ "notify" ∧ ∃ template locale payload, config.whatsapp = some (template, locale) ∧
      canonicalWhatsappPayload json template locale ["ready"] = .ok payload ∧
      submission = ⟨callback.messageId, callback.sender, callback.verb, "whatsapp",
        "+" ++ callback.sender, payload⟩) := by
  unfold callbackEffect at h
  split_ifs at h with hverb
  · exact Or.inl ⟨hverb, (Option.some.inj (Except.ok.inj h)).symm⟩
  · refine Or.inr ⟨hverb, ?_⟩
    cases hwhatsapp : config.whatsapp with
    | none =>
      rw [hwhatsapp] at h
      cases h
    | some template =>
      obtain ⟨template, locale⟩ := template
      rw [hwhatsapp] at h
      dsimp only at h
      cases hpayload : canonicalWhatsappPayload json template locale ["ready"] with
      | error fault =>
        rw [hpayload] at h
        cases h
      | ok payload =>
        rw [hpayload] at h
        exact ⟨template, locale, payload, rfl, hpayload,
          (Option.some.inj (Except.ok.inj h)).symm⟩

/-- A notify to a topic of ntfy passes the checks of the driver. -/
theorem validateMessage_notice {topic : String} (h : validTopic topic = true) :
    Ntfy.validateMessage ⟨topic, none, "WhatsApp notify request accepted"⟩ = .ok () := by
  have hbody : ("WhatsApp notify request accepted".isEmpty ||
      decide (4096 < "WhatsApp notify request accepted".utf8ByteSize) ||
      "WhatsApp notify request accepted".toList.contains '\x00') = false := by decide +kernel
  simp only [Bool.or_eq_false_iff] at hbody
  simp only [validTopic, Bool.and_eq_true, Bool.not_eq_true', decide_eq_true_eq] at h
  unfold Ntfy.validateMessage
  simp only [h.1.1, h.2, hbody.1.1, hbody.1.2, hbody.2, Nat.not_lt.2 h.1.2, decide_false,
    Bool.not_true, Option.any_none, Bool.or_false, Bool.false_eq_true, if_false]

/-- A notify, or a status for a sender that is a recipient, under a template of one parameter. -/
def DeliverableSubmission (service : ServiceConfig) (submission : M4InboundSubmission) : Prop :=
  submission.verb = "notify" ∨ ∃ whatsapp ∈ service.whatsapp,
    whatsapp.parameterCount = 1 ∧ RecipientDigits submission.sender

/-- **The intents of callbacks are deliverable** exactly under this condition. -/
theorem callback_deliverable_iff {world : Surroundings} {arguments : List OsString}
    {service : ServiceConfig} (hservice : parseServiceConfig world arguments = .ok service)
    {inbound : InboundConfig} (hinbound : service.inbound = some inbound) {json : Json.Codec}
    {nowMs : Option Int64} {head : List Char} {body : List UInt8}
    {submission : M4InboundSubmission}
    (hsubmit : judgeCallback json service.webhook inbound nowMs head body =
      .ok (.submit submission))
    (hround : ∀ whatsapp ∈ service.whatsapp, json.RoundTrips
      (CanonicalWhatsappPayload.toJson ⟨whatsapp.template, whatsapp.locale, ["ready"]⟩))
    (hwrite : ∀ whatsapp ∈ service.whatsapp, (json.toVec (Whatsapp.commandJson
      ⟨"+" ++ submission.sender, whatsapp.template, whatsapp.locale, ["ready"]⟩)).isSome = true)
    (sha256 : List UInt8 → List.Vector UInt8 32) (endpoint : Ntfy.NtfyEndpoint) (now : Int64)
    (attempt : UInt8) :
    LocallyValid (service.dispatch json endpoint)
        ((m4Message sha256 submission now).delivery attempt) ↔
      DeliverableSubmission service submission := by
  obtain ⟨hwhatsapps, hinbounds⟩ := parseServiceConfig_eq_ok hservice
  obtain ⟨-, callback, -, -, -, hcallback, hgranted, heffect⟩ := judgeCallback_eq_submit hsubmit
  have hsender := (hinbounds inbound hinbound).policy.sender _ hgranted
  -- a notice is always deliverable; a status depends on the recipient
  rcases callbackEffect_cases heffect with ⟨hverb, rfl⟩ |
    ⟨hverb, template, locale, payload, hconfig, hpayload, rfl⟩
  · refine ⟨fun _ => Or.inl hverb, fun _ => ⟨.ntfy endpoint, _, rfl, ?_⟩⟩
    exact validateMessage_notice (hinbounds inbound hinbound).topic
  · obtain ⟨whatsapp, hsome, hpair⟩ := Option.map_eq_some_iff.1 hconfig
    obtain ⟨rfl, rfl⟩ := Prod.mk.inj hpair
    have hwhatsapp := hwhatsapps whatsapp hsome
    obtain ⟨driver, hdriver, hregistration⟩ := hwhatsapp.driver
    obtain ⟨text, hprint, hparse⟩ := parse_canonical (hround whatsapp hsome)
    obtain rfl := Except.ok.inj (hprint.symm.trans hpayload)
    have hhandover : handover (service.dispatch json endpoint)
        ((m4Message sha256 ⟨callback.messageId, callback.sender, callback.verb, "whatsapp",
          "+" ++ callback.sender, text⟩ now).delivery attempt) =
        some (.whatsapp driver, .whatsapp ("+" ++ callback.sender) whatsapp.template
          whatsapp.locale ["ready"]) := by
      have hconfigured : (service.dispatch json endpoint).whatsapp = some ⟨whatsapp.driver⟩ := by
        rw [ServiceConfig.dispatch, Option.mem_def.1 hsome]
        rfl
      rw [← hdriver]
      show whatsappDelivery (service.dispatch json endpoint) _ = _
      rw [whatsappDelivery, hconfigured]
      show (parseCanonicalWhatsappPayload json text).bind _ = _
      rw [hparse]
      rfl
    have hstatus := requestBody_status_iff hwhatsapp hsender (hwrite whatsapp hsome)
    rw [← hregistration] at hstatus
    constructor
    · rintro ⟨_, _, hcall, hpasses⟩
      obtain ⟨rfl, rfl⟩ := Prod.mk.inj (Option.some.inj (hhandover.symm.trans hcall))
      exact Or.inr ⟨whatsapp, hsome, hstatus.1 hpasses⟩
    · rintro (hnotify | ⟨other, hother, hdeliverable⟩)
      · exact absurd hnotify hverb
      · obtain rfl := Option.some.inj (hsome.symm.trans hother)
        exact ⟨_, _, hhandover, hstatus.2 hdeliverable⟩

/-! ### A status under two templates -/

/-- Files with a secret and a policy. -/
def statusWorld : Surroundings where
  contents path :=
    if path = "/policy" then some (codes "15550001111 status\n".toList)
    else some (codes "secret\n".toList)
  loopback _ := true
  trusts _ := true
  parent _ _ := true

/-- The arguments of a service whose template takes `count` parameters. -/
def statusArguments (count : String) : List OsString :=
  ["--state-dir", "/state", "--socket", "/state/socket", "--ntfy-url", "http://127.0.0.1",
    "--ntfy-topic", "alerts", "--whatsapp-url", "https://graph.example/v20.0",
    "--whatsapp-phone-id", "1", "--whatsapp-token-file", "/token", "--whatsapp-template", "alert",
    "--whatsapp-locale", "en_US", "--whatsapp-parameter-count", count,
    "--whatsapp-inbound-listen", "127.0.0.1:8080", "--whatsapp-inbound-app-secret-file", "/secret",
    "--whatsapp-inbound-verify-token-file", "/token", "--whatsapp-inbound-policy-file", "/policy",
    "--whatsapp-inbound-ntfy-topic", "alerts", "--whatsapp-inbound-waba-id", "w",
    "--whatsapp-inbound-phone-id", "1"].map fun argument => codes argument.toList

/-- The inbound part of that configuration. -/
def statusInbound : InboundConfig :=
  ⟨codes "secret".toList, codes "secret".toList, [("15550001111", "status")], "alerts", "w", "1"⟩

/-- The configuration that these arguments give. -/
def statusService (count : ℕ) : ServiceConfig :=
  ⟨"/state", "/state/socket", "http://127.0.0.1", "alerts",
    some ⟨.whatsapp ⟨⟨"graph.example", 443, "v20.0", "1"⟩, "secret", ⟨"alert", "en_US", count⟩⟩,
      "alert", "en_US", count⟩, some statusInbound⟩

theorem parseServiceConfig_status :
    parseServiceConfig statusWorld (statusArguments "0") = .ok (statusService 0) ∧
      parseServiceConfig statusWorld (statusArguments "1") = .ok (statusService 1) := by
  decide +kernel

/-- The text of a callback. -/
def statusBody : List UInt8 := codes <|
  ("\x7b\"entry\":[\x7b\"changes\":[\x7b\"field\":\"messages\",\"value\":\x7b\"messages\":[" ++
   "\x7b\"from\":\"15550001111\",\"id\":\"w1\",\"text\":\x7b\"body\":\"status\"\x7d," ++
   "\"timestamp\":\"1000\"\x7d],\"metadata\":\x7b\"phone_number_id\":\"1\"\x7d\x7d\x7d]," ++
   "\"id\":\"w\"\x7d]\x7d").toList

/-- The value that the text stands for. -/
def statusValue : Json.Value :=
  .object [("entry", .array [.object
    [("changes", .array [.object
      [("field", .string "messages"),
       ("value", .object
         [("messages", .array [.object
           [("from", .string "15550001111"), ("id", .string "w1"),
            ("text", .object [("body", .string "status")]), ("timestamp", .string "1000")]]),
          ("metadata", .object [("phone_number_id", .string "1")])])]]),
     ("id", .string "w")]])]

/-- The payload that the callback leads to. -/
def statusPayload : String :=
  "\x7b\"locale\":\"en_US\",\"params\":[\"ready\"],\"template\":\"alert\"\x7d"

/-- A codec that knows the texts of this callback. -/
def statusCodec : Json.Codec where
  fromSlice bytes := if bytes = statusBody then some statusValue else none
  fromStr text :=
    if text = statusPayload then
      some (CanonicalWhatsappPayload.toJson ⟨"alert", "en_US", ["ready"]⟩)
    else none
  toVec
    | .object (("messaging_product", _) :: _) => some (codes <|
      ("\x7b\"messaging_product\":\"whatsapp\",\"template\":\x7b\"components\":[\x7b\"parameters\":" ++
       "[\x7b\"text\":\"ready\",\"type\":\"text\"\x7d],\"type\":\"body\"\x7d],\"language\":\x7b" ++
       "\"code\":\"en_US\"\x7d,\"name\":\"alert\"\x7d,\"to\":\"+15550001111\"," ++
       "\"type\":\"template\"\x7d").toList)
    | _ => none
  toString
    | .object (("locale", _) :: _) => some statusPayload
    | _ => none

/-- The head of the request, with the signature of the text. -/
def statusHead : List Char :=
  "POST /v1/whatsapp/webhook HTTP/1.1".toList ++ "\r\nContent-Type: application/json".toList ++
  "\r\nX-Hub-Signature-256: sha256=".toList ++
  "53d460b4d54db56e3af81a377ec6ad74".toList ++ "7ef64b934adf5d4981cbdd68600eb6d8".toList ++
  "\r\nContent-Length: 190".toList

/-- The submission that the callback leads to. -/
def statusSubmission : M4InboundSubmission :=
  ⟨"w1", "15550001111", "status", "whatsapp", "+15550001111", statusPayload⟩

/-- The number of parameters of the template is not looked at. -/
theorem judgeCallback_status (count : ℕ) :
    judgeCallback statusCodec (statusService count).webhook statusInbound (some 1000000) statusHead
      statusBody = .ok (.submit statusSubmission) := by
  have hwebhook : (statusService count).webhook =
      ⟨some statusInbound, some ("alert", "en_US")⟩ := rfl
  rw [hwebhook]
  decide +kernel

theorem statusCodec_roundTrips (count : ℕ) : ∀ whatsapp ∈ (statusService count).whatsapp,
    statusCodec.RoundTrips
      (CanonicalWhatsappPayload.toJson ⟨whatsapp.template, whatsapp.locale, ["ready"]⟩) := by
  rintro whatsapp hsome
  obtain rfl := Option.some.inj hsome
  refine ⟨statusPayload, rfl, ?_⟩
  simp only [statusCodec, if_true]

theorem statusCodec_writes (count : ℕ) : ∀ whatsapp ∈ (statusService count).whatsapp,
    (statusCodec.toVec (Whatsapp.commandJson ⟨"+" ++ statusSubmission.sender, whatsapp.template,
      whatsapp.locale, ["ready"]⟩)).isSome = true := by
  rintro whatsapp hsome
  obtain rfl := Option.some.inj hsome
  rfl

/-- With one parameter the status is deliverable. -/
theorem status_deliverable :
    LocallyValid ((statusService 1).dispatch statusCodec ⟨"127.0.0.1", 80, ""⟩)
      ((m4Message Sha256.sha256 statusSubmission 1000000).delivery 1) := by
  refine (callback_deliverable_iff parseServiceConfig_status.2 rfl (judgeCallback_status 1)
    (statusCodec_roundTrips 1) (statusCodec_writes 1) Sha256.sha256 ⟨"127.0.0.1", 80, ""⟩
    1000000 1).2 ?_
  exact Or.inr ⟨_, rfl, rfl, by decide, by decide⟩

/-- Without parameters it is not. -/
theorem status_undeliverable :
    ¬ ∀ (world : Surroundings) (arguments : List OsString) (service : ServiceConfig)
      (inbound : InboundConfig) (json : Json.Codec) (nowMs : Option Int64) (head : List Char)
      (body : List UInt8) (submission : M4InboundSubmission),
      parseServiceConfig world arguments = .ok service → service.inbound = some inbound →
      judgeCallback json service.webhook inbound nowMs head body = .ok (.submit submission) →
      (∀ whatsapp ∈ service.whatsapp, json.RoundTrips
        (CanonicalWhatsappPayload.toJson ⟨whatsapp.template, whatsapp.locale, ["ready"]⟩)) →
      (∀ whatsapp ∈ service.whatsapp, (json.toVec (Whatsapp.commandJson
        ⟨"+" ++ submission.sender, whatsapp.template, whatsapp.locale, ["ready"]⟩)).isSome = true) →
      ∀ (endpoint : Ntfy.NtfyEndpoint) (now : Int64) (attempt : UInt8),
        LocallyValid (service.dispatch json endpoint)
          ((m4Message Sha256.sha256 submission now).delivery attempt) := by
  intro hall
  obtain ⟨driver, item, hcall, hpasses⟩ := hall statusWorld (statusArguments "0") (statusService 0)
    statusInbound statusCodec (some 1000000) statusHead statusBody statusSubmission
    parseServiceConfig_status.1 rfl (judgeCallback_status 0) (statusCodec_roundTrips 0)
    (statusCodec_writes 0) ⟨"127.0.0.1", 80, ""⟩ 1000000 1
  have hhandover : handover ((statusService 0).dispatch statusCodec ⟨"127.0.0.1", 80, ""⟩)
      ((m4Message Sha256.sha256 statusSubmission 1000000).delivery 1) =
      some (.whatsapp ⟨⟨"graph.example", 443, "v20.0", "1"⟩, "secret", ⟨"alert", "en_US", 0⟩⟩,
        .whatsapp "+15550001111" "alert" "en_US" ["ready"]) := by
    decide +kernel
  obtain ⟨rfl, rfl⟩ := Prod.mk.inj (Option.some.inj (hhandover.symm.trans hcall))
  obtain ⟨body, hbody⟩ := hpasses
  have hrefused : Whatsapp.requestBody statusCodec ⟨"alert", "en_US", 0⟩
      ⟨"+15550001111", "alert", "en_US", ["ready"]⟩ = .error .invalidDelivery := by
    decide +kernel
  exact absurd (hrefused.symm.trans hbody) (by simp)

end MsgRiver.Service.Startup
