import MsgRiver.Connector.Endpoint
import MsgRiver.Service.Arguments
import MsgRiver.Service.Local
import MsgRiver.Service.Subscription

/-!
# The configuration of the service

`parse_service_config` reads the arguments and the files that they name.  A configuration that it
returns has passed the checks of its parts: the policy grants the two verbs to senders of 7 to 20
digits (`policy_of_parse`), the topic is one of ntfy, and the template is one that a driver was
built for (`parseServiceConfig_eq_ok`).
-/

namespace MsgRiver.Service.Startup

open MsgRiver.Store MsgRiver.Connector Result Ascii Text

/-- What the start-up asks of its surroundings. -/
structure Surroundings where
  /-- The contents of a file, none when one of the checks on it or one of its reads fails. -/
  contents : String → Option (List UInt8)
  /-- The text is the address of a socket on a loopback interface. -/
  loopback : String → Bool
  /-- The certificate can be added to the trust anchors. -/
  trusts : List UInt8 → Bool
  /-- The parent of the first path is the second one. -/
  parent : String → String → Bool

/-- `WhatsappConfig`. -/
structure WhatsappConfig where
  driver : Driver
  template : String
  locale : String
  parameterCount : ℕ
  deriving DecidableEq

deriving instance DecidableEq for InboundConfig

/-- What the arguments of `serve` give. -/
structure ServiceConfig where
  stateDir : String
  socket : String
  ntfyUrl : String
  ntfyTopic : String
  whatsapp : Option WhatsappConfig
  inbound : Option InboundConfig
  deriving DecidableEq

/-! ### The policy -/

/-- `str::lines`: a line feed ends a line, together with a carriage return in front of it. -/
def lines (cs : List Char) : List (List Char) :=
  let parts := splitOn (· == '\n') cs
  let ended := parts.dropLast.map fun line =>
    if line.getLast? = some '\r' then line.dropLast else line
  ended ++ (parts.getLast?.filter fun last => !last.isEmpty).toList

/-- One line of the policy.  The set refuses a pair that it has. -/
def policyLine (policy : List (String × String)) (line : List Char) :
    Except String (List (String × String)) :=
  match splitOn (· == ' ') line with
  | [sender, verb] =>
    if !validPhoneSender (String.ofList sender) || !validVerb (String.ofList verb)
        || policy.contains (String.ofList sender, String.ofList verb) then
      .error "invalid WhatsApp inbound policy"
    else .ok (policy ++ [(String.ofList sender, String.ofList verb)])
  | _ => .error "invalid WhatsApp inbound policy"

/-- The senders and verbs of a policy file, at least one of them. -/
def parseInboundPolicy (bytes : List UInt8) : Except String (List (String × String)) := do
  let text ← orError "invalid WhatsApp inbound policy" (decodeUtf8 bytes)
  let policy ← (lines text).foldlM policyLine []
  reject policy.isEmpty "invalid WhatsApp inbound policy"
  return policy

/-! ### The inbound interface -/

/-- A topic of at most 64 letters, digits, hyphens and underscores. -/
def validTopic (value : String) : Bool :=
  !value.isEmpty && value.utf8ByteSize ≤ 64 &&
    (utf8Bytes value).all fun byte => isAlphanumeric byte || byte == 0x2d || byte == 0x5f

/-- The arguments are all there. -/
def inboundConfigOf (world : Surroundings)
    (listen appSecret verifyToken policyFile ntfyTopic wabaId phoneId : String) :
    Except String InboundConfig := do
  reject (!world.loopback listen) "invalid WhatsApp inbound configuration"
  let appSecret ← readOwnerOnlyToken (world.contents appSecret)
  let verifyToken ← readOwnerOnlyToken (world.contents verifyToken)
  let policy ← parseInboundPolicy (← readOwnerOnlyFile (world.contents policyFile) (8 * 1024))
  reject (!validTopic ntfyTopic || !validIdentifier wabaId 128
    || !(utf8Bytes phoneId).all Ascii.isDigit) "invalid WhatsApp inbound configuration"
  return ⟨utf8Bytes appSecret, utf8Bytes verifyToken, policy, ntfyTopic, wabaId, phoneId⟩

/-- The inbound flags are all there or all missing. -/
def parseInboundConfig (world : Surroundings) (arguments : List OsString) :
    Except String (Option InboundConfig) := do
  let listen ← optionalFlag arguments "--whatsapp-inbound-listen"
  let appSecret ← optionalFlag arguments "--whatsapp-inbound-app-secret-file"
  let verifyToken ← optionalFlag arguments "--whatsapp-inbound-verify-token-file"
  let policyFile ← optionalFlag arguments "--whatsapp-inbound-policy-file"
  let ntfyTopic ← optionalFlag arguments "--whatsapp-inbound-ntfy-topic"
  let wabaId ← optionalFlag arguments "--whatsapp-inbound-waba-id"
  let phoneId ← optionalFlag arguments "--whatsapp-inbound-phone-id"
  match listen, appSecret, verifyToken, policyFile, ntfyTopic, wabaId, phoneId with
  | some listen, some appSecret, some verifyToken, some policyFile, some ntfyTopic, some wabaId,
    some phoneId =>
    some <$> inboundConfigOf world listen appSecret verifyToken policyFile ntfyTopic wabaId phoneId
  | _, _, _, _, _, _, _ =>
    reject ([listen, appSecret, verifyToken, policyFile, ntfyTopic, wabaId, phoneId].any
      Option.isSome) "incomplete WhatsApp inbound configuration"
    return none

/-! ### The WhatsApp driver -/

/-- An error of a constructor, reported as one of the configuration. -/
def asInvalid {α : Type} : Except DriverError α → Except String α
  | .ok a => .ok a
  | .error _ => .error "invalid WhatsApp configuration"

/-- The additional trust anchor, when a file for it is named. -/
def additionalRoot (world : Surroundings) : Option String → Except String (Option (List UInt8))
  | none => .ok none
  | some path => some <$> readOwnerOnlyFile (world.contents path) (32 * 1024)

/-- The required arguments are all there. -/
def whatsappConfigOf (world : Surroundings) (url phoneId tokenFile : String)
    (caFile : Option String) (template locale parameterCount : String) :
    Except String WhatsappConfig := do
  let count ← orError "invalid WhatsApp configuration"
    (parseUnsigned (2 ^ 64 - 1) parameterCount.toList)
  let token ← readOwnerOnlyToken (world.contents tokenFile)
  let root ← additionalRoot world caFile
  let endpoint ← asInvalid (Whatsapp.WhatsappEndpoint.parse url phoneId)
  let driver ← asInvalid (Whatsapp.WhatsappDriver.newWithAdditionalRoot world.trusts endpoint token
    ⟨template, locale, count⟩ root)
  return ⟨.whatsapp driver, template, locale, count⟩

/-- The WhatsApp flags are all there or all missing, but for the certificate. -/
def parseWhatsappConfig (world : Surroundings) (arguments : List OsString) :
    Except String (Option WhatsappConfig) := do
  let url ← optionalFlag arguments "--whatsapp-url"
  let phoneId ← optionalFlag arguments "--whatsapp-phone-id"
  let tokenFile ← optionalFlag arguments "--whatsapp-token-file"
  let caFile ← optionalFlag arguments "--whatsapp-ca-file"
  let template ← optionalFlag arguments "--whatsapp-template"
  let locale ← optionalFlag arguments "--whatsapp-locale"
  let parameterCount ← optionalFlag arguments "--whatsapp-parameter-count"
  match url, phoneId, tokenFile, template, locale, parameterCount with
  | some url, some phoneId, some tokenFile, some template, some locale, some parameterCount =>
    some <$> whatsappConfigOf world url phoneId tokenFile caFile template locale parameterCount
  | _, _, _, _, _, _ =>
    reject ([url, phoneId, tokenFile, template, locale, parameterCount, caFile].any Option.isSome)
      "incomplete WhatsApp configuration"
    return none

/-- The whole configuration. -/
def parseServiceConfig (world : Surroundings) (arguments : List OsString) :
    Except String ServiceConfig := do
  validateServiceArguments arguments
  let stateDir ← flag arguments "--state-dir"
  let socket ← flag arguments "--socket"
  reject (!world.parent socket stateDir) "socket must be inside state directory"
  let whatsapp ← parseWhatsappConfig world arguments
  let inbound ← parseInboundConfig world arguments
  let ntfyUrl ← flag arguments "--ntfy-url"
  let ntfyTopic ← flag arguments "--ntfy-topic"
  return ⟨stateDir, socket, ntfyUrl, ntfyTopic, whatsapp, inbound⟩

/-- What the webhook uses of a configuration. -/
def ServiceConfig.webhook (service : ServiceConfig) : WebhookConfig where
  inbound := service.inbound
  whatsapp := service.whatsapp.map fun w => (w.template, w.locale)

/-- What dispatch uses of it, with the ntfy endpoint. -/
def ServiceConfig.dispatch (service : ServiceConfig) (json : Json.Codec)
    (endpoint : Ntfy.NtfyEndpoint) : Config where
  json := json
  ntfyDriver := .ntfy endpoint
  whatsapp := service.whatsapp.map fun w => ⟨w.driver⟩

/-! ### What an accepted configuration holds -/

theorem policyLine_eq_ok {policy next : List (String × String)} {line : List Char}
    (h : policyLine policy line = .ok next) :
    ∃ sender verb, next = policy ++ [(sender, verb)] ∧ validPhoneSender sender = true ∧
      validVerb verb = true ∧ (sender, verb) ∉ policy := by
  unfold policyLine at h
  split at h
  · split_ifs at h with hcheck
    obtain rfl := Except.ok.inj h
    simp only [Bool.or_eq_true, Bool.not_eq_true', not_or, Bool.not_eq_false,
      List.contains_iff_mem] at hcheck
    exact ⟨_, _, rfl, hcheck.1.1, hcheck.1.2, hcheck.2⟩
  · cases h

/-- The policy grants the two verbs to senders of 7 to 20 digits, each pair once. -/
structure PolicyOf (policy : List (String × String)) : Prop where
  sender : ∀ p ∈ policy, validPhoneSender p.1 = true
  verb : ∀ p ∈ policy, validVerb p.2 = true
  nodup : policy.Nodup

theorem policyOf_foldlM {lines : List (List Char)} {policy final : List (String × String)}
    (hpolicy : PolicyOf policy) (h : lines.foldlM policyLine policy = .ok final) :
    PolicyOf final := by
  induction lines generalizing policy with
  | nil =>
    obtain rfl := Except.ok.inj h
    exact hpolicy
  | cons line lines ih =>
    obtain ⟨next, hnext, hrest⟩ := bind_eq_ok.1 h
    obtain ⟨sender, verb, rfl, hsender, hverb, hnew⟩ := policyLine_eq_ok hnext
    refine ih ⟨?_, ?_, ?_⟩ hrest
    · rw [List.forall_mem_append]
      exact ⟨hpolicy.sender, by simpa using hsender⟩
    · rw [List.forall_mem_append]
      exact ⟨hpolicy.verb, by simpa using hverb⟩
    · refine List.nodup_append.2 ⟨hpolicy.nodup, List.nodup_singleton _, ?_⟩
      rintro p hp q hq rfl
      rw [List.mem_singleton.1 hq] at hp
      exact hnew hp

theorem parseInboundPolicy_eq_ok {bytes : List UInt8} {policy : List (String × String)}
    (h : parseInboundPolicy bytes = .ok policy) : PolicyOf policy ∧ policy ≠ [] := by
  unfold parseInboundPolicy at h
  rw [orError_bind_eq_ok] at h
  obtain ⟨text, -, h⟩ := h
  obtain ⟨final, hfold, h⟩ := bind_eq_ok.1 h
  rw [reject_bind_eq_ok, pure_eq_ok] at h
  obtain ⟨hempty, rfl⟩ := h
  refine ⟨policyOf_foldlM ⟨by simp, by simp, List.nodup_nil⟩ hfold, ?_⟩
  rintro rfl
  cases hempty

/-- An inbound interface has a topic of ntfy and such a policy. -/
structure InboundOf (inbound : InboundConfig) : Prop where
  topic : validTopic inbound.ntfyTopic = true
  policy : PolicyOf inbound.policy

theorem inboundConfigOf_eq_ok {world : Surroundings}
    {listen appSecret verifyToken policyFile ntfyTopic wabaId phoneId : String}
    {inbound : InboundConfig}
    (h : inboundConfigOf world listen appSecret verifyToken policyFile ntfyTopic wabaId phoneId =
      .ok inbound) : InboundOf inbound := by
  unfold inboundConfigOf at h
  rw [reject_bind_eq_ok] at h
  obtain ⟨secret, -, h⟩ := bind_eq_ok.1 h.2
  obtain ⟨token, -, h⟩ := bind_eq_ok.1 h
  obtain ⟨bytes, -, h⟩ := bind_eq_ok.1 h
  obtain ⟨policy, hpolicy, h⟩ := bind_eq_ok.1 h
  rw [reject_bind_eq_ok, pure_eq_ok] at h
  obtain ⟨hcheck, rfl⟩ := h
  simp only [Bool.or_eq_false_iff, Bool.not_eq_false'] at hcheck
  exact ⟨hcheck.1.1, (parseInboundPolicy_eq_ok hpolicy).1⟩

theorem parseInboundConfig_eq_ok {world : Surroundings} {arguments : List OsString}
    {inbound : InboundConfig} (h : parseInboundConfig world arguments = .ok (some inbound)) :
    InboundOf inbound := by
  unfold parseInboundConfig at h
  obtain ⟨listen, -, h⟩ := bind_eq_ok.1 h
  obtain ⟨appSecret, -, h⟩ := bind_eq_ok.1 h
  obtain ⟨verifyToken, -, h⟩ := bind_eq_ok.1 h
  obtain ⟨policyFile, -, h⟩ := bind_eq_ok.1 h
  obtain ⟨ntfyTopic, -, h⟩ := bind_eq_ok.1 h
  obtain ⟨wabaId, -, h⟩ := bind_eq_ok.1 h
  obtain ⟨phoneId, -, h⟩ := bind_eq_ok.1 h
  split at h
  · obtain ⟨inbound', hinbound, hsome⟩ := map_eq_ok.1 h
    obtain rfl := Option.some.inj hsome
    exact inboundConfigOf_eq_ok hinbound
  · rw [reject_bind_eq_ok, pure_eq_ok] at h
    cases h.2

/-- A WhatsApp driver was built for the template, the locale and the number of parameters. -/
structure WhatsappOf (whatsapp : WhatsappConfig) : Prop where
  driver : ∃ driver : Whatsapp.WhatsappDriver, whatsapp.driver = .whatsapp driver ∧
    driver.registration = ⟨whatsapp.template, whatsapp.locale, whatsapp.parameterCount⟩
  template : Whatsapp.validTemplate whatsapp.template = true
  locale : Whatsapp.validLocale whatsapp.locale = true
  count : whatsapp.parameterCount ≤ Whatsapp.maxParameters

theorem asInvalid_eq_ok {α : Type} {x : Except DriverError α} {a : α} :
    asInvalid x = .ok a ↔ x = .ok a := by
  cases x <;> simp [asInvalid]

theorem whatsappConfigOf_eq_ok {world : Surroundings} {url phoneId tokenFile : String}
    {caFile : Option String} {template locale parameterCount : String} {whatsapp : WhatsappConfig}
    (h : whatsappConfigOf world url phoneId tokenFile caFile template locale parameterCount =
      .ok whatsapp) : WhatsappOf whatsapp := by
  unfold whatsappConfigOf at h
  obtain ⟨count, -, h⟩ := bind_eq_ok.1 h
  obtain ⟨token, -, h⟩ := bind_eq_ok.1 h
  obtain ⟨root, -, h⟩ := bind_eq_ok.1 h
  obtain ⟨endpoint, -, h⟩ := bind_eq_ok.1 h
  obtain ⟨driver, hdriver, h⟩ := bind_eq_ok.1 h
  rw [pure_eq_ok] at h
  obtain rfl := h
  obtain ⟨rfl, -, htemplate, hlocale, hcount⟩ :=
    Whatsapp.newWithAdditionalRoot_eq_ok (asInvalid_eq_ok.1 hdriver)
  exact ⟨⟨_, rfl, rfl⟩, htemplate, hlocale, hcount⟩

theorem parseWhatsappConfig_eq_ok {world : Surroundings} {arguments : List OsString}
    {whatsapp : WhatsappConfig} (h : parseWhatsappConfig world arguments = .ok (some whatsapp)) :
    WhatsappOf whatsapp := by
  unfold parseWhatsappConfig at h
  obtain ⟨url, -, h⟩ := bind_eq_ok.1 h
  obtain ⟨phoneId, -, h⟩ := bind_eq_ok.1 h
  obtain ⟨tokenFile, -, h⟩ := bind_eq_ok.1 h
  obtain ⟨caFile, -, h⟩ := bind_eq_ok.1 h
  obtain ⟨template, -, h⟩ := bind_eq_ok.1 h
  obtain ⟨locale, -, h⟩ := bind_eq_ok.1 h
  obtain ⟨parameterCount, -, h⟩ := bind_eq_ok.1 h
  split at h
  · obtain ⟨whatsapp', hwhatsapp, hsome⟩ := map_eq_ok.1 h
    obtain rfl := Option.some.inj hsome
    exact whatsappConfigOf_eq_ok hwhatsapp
  · rw [reject_bind_eq_ok, pure_eq_ok] at h
    cases h.2

/-- **What `parse_service_config` accepts.** -/
theorem parseServiceConfig_eq_ok {world : Surroundings} {arguments : List OsString}
    {service : ServiceConfig} (h : parseServiceConfig world arguments = .ok service) :
    (∀ whatsapp ∈ service.whatsapp, WhatsappOf whatsapp) ∧
      ∀ inbound ∈ service.inbound, InboundOf inbound := by
  unfold parseServiceConfig at h
  obtain ⟨-, -, h⟩ := bind_eq_ok.1 h
  obtain ⟨stateDir, -, h⟩ := bind_eq_ok.1 h
  obtain ⟨socket, -, h⟩ := bind_eq_ok.1 h
  rw [reject_bind_eq_ok] at h
  obtain ⟨-, h⟩ := h
  obtain ⟨whatsapp, hwhatsapp, h⟩ := bind_eq_ok.1 h
  obtain ⟨inbound, hinbound, h⟩ := bind_eq_ok.1 h
  obtain ⟨ntfyUrl, -, h⟩ := bind_eq_ok.1 h
  obtain ⟨ntfyTopic, -, h⟩ := bind_eq_ok.1 h
  rw [pure_eq_ok] at h
  obtain rfl := h
  constructor
  · rintro w hw
    obtain rfl := Option.mem_def.1 hw
    exact parseWhatsappConfig_eq_ok hwhatsapp
  · rintro i hi
    obtain rfl := Option.mem_def.1 hi
    exact parseInboundConfig_eq_ok hinbound

end MsgRiver.Service.Startup
