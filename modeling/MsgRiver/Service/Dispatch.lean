import MsgRiver.Connector.Driver
import MsgRiver.Store.Intent

/-!
# Dispatch

`dispatch_due` claims one due message, hands it to its driver and records the outcome.  The store
sees at most two calls, the claim and a mark (`dispatchDue_calls`), so a run of the service is a run
of the store.

`handover_intent_iff` compares what the driver is handed with what was submitted.  The dispatcher
reads the legacy topic column for ntfy, which `m3_submit` fills with the driver name; and for
WhatsApp it hands nothing over when the payload is not canonical or no driver is configured, which
`m3_submit` does not check.
-/

namespace MsgRiver.Service

open Store Connector StepRun RelTable

/-- The part of `WhatsappConfig` that dispatch uses. -/
structure WhatsappConfig where
  driver : Driver
  deriving DecidableEq

/-- The configured drivers, and the JSON reader behind them. -/
structure Config where
  json : Json.Codec
  ntfyDriver : Driver
  whatsapp : Option WhatsappConfig

/-- What the payload of a WhatsApp row says. -/
structure CanonicalWhatsappPayload where
  template : String
  locale : String
  parameters : List String
  deriving DecidableEq

/-- The JSON object of a canonical payload, its members in key order. -/
def CanonicalWhatsappPayload.toJson (payload : CanonicalWhatsappPayload) : Json.Value :=
  .object
    [("locale", .string payload.locale),
     ("params", .array (payload.parameters.map .string)),
     ("template", .string payload.template)]

/-- The members of a payload object, before the canonical form is compared. -/
def payloadMembers (value : Json.Value) : Option CanonicalWhatsappPayload := do
  let object ← value.asObject
  if object.length != 3 || ["template", "locale", "params"].any (fun key =>
      !object.any fun entry => entry.1 == key) then none
  let params ← (← value.get "params").asArray
  let parameters ← params.mapM Json.Value.asString
  let template ← (← value.get "template").asString
  let locale ← (← value.get "locale").asString
  return ⟨template, locale, parameters⟩

/-- A payload is read only when it is the text that its own value is written as. -/
def parseCanonicalWhatsappPayload (json : Json.Codec) (payload : String) :
    Option CanonicalWhatsappPayload := do
  let value ← json.fromStr payload
  let canonical ← payloadMembers value
  let reconstructed ← json.toString canonical.toJson
  if reconstructed == payload then some canonical else none

/-- The call that `whatsapp_delivery` makes, if it gets that far. -/
def whatsappDelivery (config : Config) (delivery : M2Delivery) : Option (Driver × Delivery) := do
  let whatsapp ← config.whatsapp
  let payload ← parseCanonicalWhatsappPayload config.json delivery.payload
  return (whatsapp.driver,
    .whatsapp delivery.destination payload.template payload.locale payload.parameters)

/-- The driver call for a claimed message; without one the outcome is `InvalidDelivery`. -/
def handover (config : Config) (delivery : M2Delivery) : Option (Driver × Delivery) :=
  if delivery.driver = "ntfy" then
    some (config.ntfyDriver, .ntfy delivery.topic delivery.title delivery.body)
  else if delivery.driver = "whatsapp" then whatsappDelivery config delivery
  else none

/-- The provider attempt for a claimed message. -/
def attempt (config : Config) (delivery : M2Delivery) (peer : Peer) : Attempt :=
  match handover config delivery with
  | some (driver, item) => driver.deliver config.json item peer
  | none => .unsent (.error .invalidDelivery)

/-- The mark that records an outcome. -/
def outcomeCall (messageId : String) (now : Int64) : Except DriverError DeliveryOutcome → Call
  | .ok (.accepted acknowledgement) => .m2MarkAccepted messageId acknowledgement now
  | .ok .rateLimited => .m2MarkRetry messageId "ntfy temporary failure" 1000 now
  | .ok .transient => .m2MarkRetry messageId "ntfy temporary failure" 1000 now
  | .ok .ambiguous => .m2MarkAmbiguous messageId "ntfy response uncertain" now
  | .ok .permanent => .m2MarkFailed messageId "ntfy rejected request" now
  | .ok .authOrConfig => .m2MarkFailed messageId "ntfy rejected request" now
  | .error _ => .m2MarkFailed messageId "ntfy request invalid" now

/-- What one round of `dispatch_due` did: its result, and the attempt it made, if any. -/
structure Dispatch where
  result : Except Panic (Except String Unit)
  attempt : Option (M2Delivery × Attempt)

/-- One round of dispatch.  The two readings of the clock may fail; a panic or a failed reading
leaves the claimed message in `sending`. -/
def dispatchDue (sha256 : List UInt8 → List.Vector UInt8 32) (config : Config)
    (claimNow : Option Int64) (peer : Peer) (markNow : Option Int64) (db : Db) : Dispatch × Db :=
  match claimNow with
  | none => (⟨.ok (.error "clock failed"), none⟩, db)
  | some now =>
    match step sha256 db (.m2ClaimDue now) with
    | (.ok (.claimed (some delivery)), db) =>
      let attempt := attempt config delivery peer
      match attempt.result with
      | .error panic => (⟨.error panic, some (delivery, attempt)⟩, db)
      | .ok outcome =>
        match markNow with
        | none => (⟨.ok (.error "clock failed"), some (delivery, attempt)⟩, db)
        | some now =>
          match step sha256 db (outcomeCall delivery.messageId now outcome) with
          | (.ok _, db) => (⟨.ok (.ok ()), some (delivery, attempt)⟩, db)
          | (.error _, db) => (⟨.ok (.error "store outcome failed"), some (delivery, attempt)⟩, db)
    | (.ok _, db) => (⟨.ok (.ok ()), none⟩, db)
    | (.error _, db) => (⟨.ok (.error "store claim failed"), none⟩, db)

/-! ### What a round of dispatch does to the store -/

/-- Everything a round can do to the store: nothing, a claim, or a claim and the mark of its
outcome. -/
inductive DispatchEffect (sha256 : List UInt8 → List.Vector UInt8 32) (config : Config) (peer : Peer)
    (db : Db) : Option Int64 → Option (M2Delivery × Attempt) → Db → Prop
  | idle : DispatchEffect sha256 config peer db none none db
  | unclaimed {now : Int64} :
      DispatchEffect sha256 config peer db (some now) none (step sha256 db (.m2ClaimDue now)).2
  | unmarked {now : Int64} {delivery : M2Delivery}
      (hclaim : (step sha256 db (.m2ClaimDue now)).1 = .ok (.claimed (some delivery))) :
      DispatchEffect sha256 config peer db (some now)
        (some (delivery, attempt config delivery peer)) (step sha256 db (.m2ClaimDue now)).2
  | marked {now now' : Int64} {delivery : M2Delivery} {outcome : Except DriverError DeliveryOutcome}
      (hclaim : (step sha256 db (.m2ClaimDue now)).1 = .ok (.claimed (some delivery)))
      (houtcome : (attempt config delivery peer).result = .ok outcome) :
      DispatchEffect sha256 config peer db (some now)
        (some (delivery, attempt config delivery peer))
        (step sha256 (step sha256 db (.m2ClaimDue now)).2
          (outcomeCall delivery.messageId now' outcome)).2

/-- **Everything a round of dispatch can do.** -/
theorem dispatchDue_effect (sha256 : List UInt8 → List.Vector UInt8 32) (config : Config)
    (claimNow : Option Int64) (peer : Peer) (markNow : Option Int64) (db : Db) :
    DispatchEffect sha256 config peer db claimNow
      (dispatchDue sha256 config claimNow peer markNow db).1.attempt
      (dispatchDue sha256 config claimNow peer markNow db).2 := by
  cases claimNow with
  | none => exact .idle
  | some now =>
    unfold dispatchDue
    simp only
    split
    · rename_i delivery db' hstep
      have hclaim : (step sha256 db (.m2ClaimDue now)).1 = .ok (.claimed (some delivery)) := by
        rw [hstep]
      have hdb : db' = (step sha256 db (.m2ClaimDue now)).2 := by rw [hstep]
      subst hdb
      -- a claimed delivery is marked if the attempt and the clock both answer
      cases hresult : (attempt config delivery peer).result with
      | error panic => exact .unmarked hclaim
      | ok outcome =>
        cases markNow with
        | none => exact .unmarked hclaim
        | some now' =>
          have hmarked : DispatchEffect sha256 config peer db (some now)
              (some (delivery, attempt config delivery peer))
              (step sha256 (step sha256 db (.m2ClaimDue now)).2
                (outcomeCall delivery.messageId now' outcome)).2 := .marked hclaim hresult
          simp only
          split
          · rename_i hmark
            rw [hmark] at hmarked
            exact hmarked
          · rename_i hmark
            rw [hmark] at hmarked
            exact hmarked
    · rename_i hstep
      have h : DispatchEffect sha256 config peer db (some now) none
          (step sha256 db (.m2ClaimDue now)).2 := .unclaimed
      rw [hstep] at h
      exact h
    · rename_i hstep
      have h : DispatchEffect sha256 config peer db (some now) none
          (step sha256 db (.m2ClaimDue now)).2 := .unclaimed
      rw [hstep] at h
      exact h

/-- The message a claim answers with, as a row of the queue. -/
theorem claimed_row {sha256 : List UInt8 → List.Vector UInt8 32} {db : Db} {now : Int64}
    {delivery : M2Delivery}
    (h : (step sha256 db (.m2ClaimDue now)).1 = .ok (.claimed (some delivery))) :
    ∃ m ∈ db.messages.rows, m.due now = true ∧ ∃ n, delivery = m.delivery n := by
  have heff := step_effect sha256 db (.m2ClaimDue now)
  generalize step sha256 db (.m2ClaimDue now) = p at heff h
  obtain ⟨a, db'⟩ := p
  simp only at h
  subst h
  cases heff with
  | moved hm hmove =>
    cases hmove with
    | claim hdue => exact ⟨_, hm, hdue, _, rfl⟩

/-- The attempt of a round is made for a row of the queue. -/
theorem DispatchEffect.row {sha256 : List UInt8 → List.Vector UInt8 32} {config : Config}
    {peer : Peer} {db db' : Db} {claimNow : Option Int64} {delivery : M2Delivery} {a : Attempt}
    (h : DispatchEffect sha256 config peer db claimNow (some (delivery, a)) db') :
    a = attempt config delivery peer ∧
      ∃ m ∈ db.messages.rows, ∃ n, delivery = m.delivery n := by
  cases h with
  | unmarked hclaim =>
    obtain ⟨m, hm, -, n, hn⟩ := claimed_row hclaim
    exact ⟨rfl, m, hm, n, hn⟩
  | marked hclaim houtcome =>
    obtain ⟨m, hm, -, n, hn⟩ := claimed_row hclaim
    exact ⟨rfl, m, hm, n, hn⟩

/-! ### What the driver is handed -/

/-- The payload text is JSON with these values as its members. -/
def Encodes (json : Json.Codec) (payload template locale : String) (parameters : List String) :
    Prop :=
  ∃ value, json.fromStr payload = some value ∧
    value.get "template" = some (.string template) ∧
    value.get "locale" = some (.string locale) ∧
    value.get "params" = some (.array (parameters.map .string))

/-- The driver call that an intent asks for. -/
inductive Handed (config : Config) (intent : Intent) : Option (Driver × Delivery) → Prop
  | ntfy (hdriver : intent.driver = "ntfy") :
      Handed config intent
        (some (config.ntfyDriver, .ntfy intent.destination intent.title intent.body))
  | whatsapp {whatsapp : WhatsappConfig} {template locale : String} {parameters : List String}
      (hdriver : intent.driver = "whatsapp") (hconfigured : config.whatsapp = some whatsapp)
      (hpayload : Encodes config.json intent.body template locale parameters) :
      Handed config intent
        (some (whatsapp.driver, .whatsapp intent.destination template locale parameters))

/-- The submission is not a provider-neutral one for ntfy with a destination other than `ntfy`. -/
def TopicIsDestination (i : Intake) : Prop :=
  ∀ s, i = .m3 s → s.driver = "ntfy" → s.destination = "ntfy"

/-- A submission for WhatsApp has a canonical payload, and there is a driver for it. -/
def PayloadIsReadable (config : Config) (intent : Intent) : Prop :=
  intent.driver = "whatsapp" → config.whatsapp.isSome = true ∧
    (parseCanonicalWhatsappPayload config.json intent.body).isSome = true

theorem payloadMembers_eq_some {value : Json.Value} {payload : CanonicalWhatsappPayload}
    (h : payloadMembers value = some payload) :
    value.get "template" = some (.string payload.template) ∧
      value.get "locale" = some (.string payload.locale) ∧
      value.get "params" = some (.array (payload.parameters.map .string)) := by
  obtain ⟨object, -, h⟩ := Option.bind_eq_some_iff.1 h
  split at h
  · cases h
  obtain ⟨params, hparams, h⟩ := Option.bind_eq_some_iff.1 h
  obtain ⟨items, hitems, h⟩ := Option.bind_eq_some_iff.1 h
  obtain ⟨parameters, hparameters, h⟩ := Option.bind_eq_some_iff.1 h
  obtain ⟨template, htemplate, h⟩ := Option.bind_eq_some_iff.1 h
  obtain ⟨templateText, htemplateText, h⟩ := Option.bind_eq_some_iff.1 h
  obtain ⟨locale, hlocale, h⟩ := Option.bind_eq_some_iff.1 h
  obtain ⟨localeText, hlocaleText, h⟩ := Option.bind_eq_some_iff.1 h
  cases h
  rw [Json.Value.asString_eq_some] at htemplateText hlocaleText
  rw [Json.Value.asArray_eq_some] at hitems
  rw [Json.Value.mapM_asString_eq_some] at hparameters
  rw [htemplate, hlocale, hparams, htemplateText, hlocaleText, hitems, hparameters]
  exact ⟨rfl, rfl, rfl⟩

/-- What is read of a canonical payload is what it encodes. -/
theorem encodes_of_parse {json : Json.Codec} {text : String} {payload : CanonicalWhatsappPayload}
    (h : parseCanonicalWhatsappPayload json text = some payload) :
    Encodes json text payload.template payload.locale payload.parameters := by
  obtain ⟨value, hvalue, h⟩ := Option.bind_eq_some_iff.1 h
  obtain ⟨canonical, hmembers, h⟩ := Option.bind_eq_some_iff.1 h
  obtain ⟨reconstructed, -, h⟩ := Option.bind_eq_some_iff.1 h
  split at h
  · cases h
    exact ⟨value, hvalue, payloadMembers_eq_some hmembers⟩
  · cases h

/-- The call for a row depends on its content only. -/
theorem handover_of_identity {config : Config} {a b : Message} (h : a.identity = b.identity)
    (n k : UInt8) : handover config (a.delivery n) = handover config (b.delivery k) := by
  simp only [Message.identity, Message.content, Prod.mk.injEq] at h
  obtain ⟨-, -, hdriver, hdestination, hpayload, htopic, htitle, hbody⟩ := h
  simp only [handover, whatsappDelivery, Message.delivery, hdriver, hdestination, hpayload, htopic,
    htitle, hbody]
  rfl

theorem handed_ntfy_iff {config : Config} {intent : Intent} {call : Option (Driver × Delivery)}
    (hdriver : intent.driver = "ntfy") :
    Handed config intent call ↔
      call = some (config.ntfyDriver, .ntfy intent.destination intent.title intent.body) := by
  constructor
  · intro h
    cases h with
    | ntfy => rfl
    | whatsapp hother => exact absurd (hdriver.symm.trans hother) (by decide)
  · rintro rfl
    exact .ntfy hdriver

/-- The call for a WhatsApp row is the one that its payload asks for, if it can be made. -/
theorem handed_whatsapp_iff {config : Config} {intent : Intent} {delivery : M2Delivery}
    (hdriver : intent.driver = "whatsapp") (hdestination : delivery.destination = intent.destination)
    (hpayload : delivery.payload = intent.body) :
    Handed config intent (whatsappDelivery config delivery) ↔ PayloadIsReadable config intent := by
  rw [whatsappDelivery, hdestination, hpayload]
  constructor
  · intro h _
    cases hwhatsapp : config.whatsapp with
    | none =>
      rw [hwhatsapp] at h
      cases h
    | some whatsapp =>
      cases hparse : parseCanonicalWhatsappPayload config.json intent.body with
      | none =>
        rw [hwhatsapp, hparse] at h
        cases h
      | some payload => exact ⟨rfl, rfl⟩
  · intro h
    obtain ⟨hconfigured, hreadable⟩ := h hdriver
    obtain ⟨whatsapp, hwhatsapp⟩ := Option.isSome_iff_exists.1 hconfigured
    obtain ⟨payload, hparse⟩ := Option.isSome_iff_exists.1 hreadable
    rw [hparse, hwhatsapp]
    exact .whatsapp hdriver hwhatsapp (encodes_of_parse hparse)

/-- The call for the row of a submission, compared with its intent. -/
theorem handover_row_iff (sha256 : List UInt8 → List.Vector UInt8 32) (config : Config) (i : Intake)
    (now : Int64) (n : UInt8)
    (hknown : i.intent.driver = "ntfy" ∨ i.intent.driver = "whatsapp") :
    Handed config i.intent (handover config ((i.row sha256 now).delivery n)) ↔
      TopicIsDestination i ∧ PayloadIsReadable config i.intent := by
  have hrow := Intake.row_intent sha256 now i
  rcases hknown with hntfy | hwhatsapp
  · -- the title and the body are those of the intent, the topic is that of the intake
    have hhand : handover config ((i.row sha256 now).delivery n) =
        some (config.ntfyDriver, .ntfy (i.row sha256 now).topic i.intent.title i.intent.body) := by
      rw [← hrow] at hntfy ⊢
      exact if_pos hntfy
    have hreadable : PayloadIsReadable config i.intent := fun h =>
      absurd (hntfy.symm.trans h) (by decide)
    rw [handed_ntfy_iff hntfy, hhand, and_iff_left hreadable]
    cases i with
    | m2 s => exact iff_of_true rfl (by rintro s' ⟨⟩)
    | m4 s => exact iff_of_true rfl (by rintro s' ⟨⟩)
    | m3 s =>
      simp only [Option.some.injEq, Prod.mk.injEq, Delivery.ntfy.injEq, true_and, and_true]
      constructor
      · rintro h s' ⟨⟩ -
        exact (h.symm.trans hntfy)
      · intro h
        exact hntfy.trans (h s rfl hntfy).symm
  · have htopic : TopicIsDestination i := by
      rintro s rfl h
      exact absurd (hwhatsapp.symm.trans h) (by decide)
    have hhand : handover config ((i.row sha256 now).delivery n) =
        whatsappDelivery config ((i.row sha256 now).delivery n) := by
      have hdriver : (i.row sha256 now).driver = "whatsapp" := by
        rw [← hwhatsapp, ← hrow]
        rfl
      simp [handover, Message.delivery, hdriver]
    rw [hhand, and_iff_right htopic]
    cases i with
    | m2 s => exact absurd hwhatsapp (by decide : ¬ "ntfy" = "whatsapp")
    | m3 s => exact handed_whatsapp_iff hwhatsapp rfl rfl
    | m4 s => exact handed_whatsapp_iff hwhatsapp rfl rfl

/-- **What the driver is handed.**  In every reachable state, when a round of dispatch makes an
attempt for an admitted submission, the driver of the submission is handed what it asked for, exactly
when the submission is not an `m3_submit` for ntfy with a destination other than `ntfy`, and for
WhatsApp there is a driver and the payload is canonical. -/
theorem handover_intent_iff (sha256 : List UInt8 → List.Vector UInt8 32) (config : Config)
    (calls : List Call) (p : Intake × Int64)
    (hp : p ∈ admissions (events (step sha256) Db.migrated calls))
    (claimNow : Option Int64) (peer : Peer) (markNow : Option Int64) (delivery : M2Delivery)
    (a : Attempt)
    (hround : (dispatchDue sha256 config claimNow peer markNow
      (run (step sha256) Db.migrated calls)).1.attempt = some (delivery, a))
    (hid : delivery.messageId = (p.1.row sha256 p.2).messageId) :
    a = attempt config delivery peer ∧
      (Handed config p.1.intent (handover config delivery) ↔
        TopicIsDestination p.1 ∧ PayloadIsReadable config p.1.intent) := by
  have heff := dispatchDue_effect sha256 config claimNow peer markNow
    (run (step sha256) Db.migrated calls)
  rw [hround] at heff
  obtain ⟨ha, m, hm, n, rfl⟩ := heff.row
  refine ⟨ha, ?_⟩
  obtain ⟨x, hx, hident⟩ := row_of_admitted hp
  have hxid : x.messageId = m.messageId := by
    rw [show x.messageId = (p.1.row sha256 p.2).messageId from congrArg Prod.fst hident, ← hid]
    rfl
  obtain rfl := Table.eq_of_key messageId_mem_keys hx hm hxid
  -- a row of the queue is for one of the two drivers
  have hknown := ((Message.check_iff x).1 (Db.check_of_mem hm)).2.2.2.2.2.2.2.2
  rw [show x.driver = p.1.intent.driver from congrArg Intent.driver
    ((intent_of_identity hident).trans (Intake.row_intent ..))] at hknown
  rw [handover_of_identity hident n n]
  exact handover_row_iff sha256 config p.1 p.2 n hknown

/-! ### A notice that goes to the wrong topic -/

/-- A service with a local ntfy server and no WhatsApp driver. -/
def localConfig : Config :=
  ⟨⟨fun _ => none, fun _ => none, fun _ => none, fun _ => none⟩,
   .ntfy ⟨"127.0.0.1", 8080, ""⟩, none⟩

/-- A peer that refuses the connection. -/
def refusingPeer : Peer := ⟨true, false, false, false, false, []⟩

/-- A notice of the first intake. -/
def alertsNotice : M2Submission := ⟨"job-7", "alerts", none, "disk full"⟩

/-- The same notice through the provider-neutral intake. -/
def alertsCommand : M3Submission := ⟨"job-7", "ntfy", "alerts", "disk full"⟩

/-- The first intake hands the notice to its topic. -/
theorem handover_of_alertsNotice :
    ∃ delivery a, (dispatchDue Sha256.sha256 localConfig (some 5) refusingPeer (some 6)
        (run (step Sha256.sha256) Db.migrated [.m2Submit alertsNotice 0])).1.attempt
          = some (delivery, a) ∧
      Handed localConfig (Intake.m2 alertsNotice).intent (handover localConfig delivery) := by
  have hround : ((dispatchDue Sha256.sha256 localConfig (some 5) refusingPeer (some 6)
      (run (step Sha256.sha256) Db.migrated [.m2Submit alertsNotice 0])).1.attempt.map
        fun x => x.1.messageId) = some (m2Message Sha256.sha256 alertsNotice 0).messageId ∧
      (Intake.m2 alertsNotice, (0 : Int64)) ∈
        admissions (events (step Sha256.sha256) Db.migrated [.m2Submit alertsNotice 0]) := by
    decide +kernel
  obtain ⟨hmap, hp⟩ := hround
  obtain ⟨⟨delivery, a⟩, hattempt, hid⟩ := Option.map_eq_some_iff.1 hmap
  exact ⟨delivery, a, hattempt, (handover_intent_iff Sha256.sha256 localConfig
    [.m2Submit alertsNotice 0] (.m2 alertsNotice, 0) hp (some 5) refusingPeer (some 6) delivery a
    hattempt hid).2.2 ⟨by rintro s ⟨⟩, fun h => absurd h (by decide)⟩⟩

/-- The provider-neutral intake sends it to the topic `ntfy`. -/
theorem handover_of_alertsCommand :
    ¬ ∀ (calls : List Call) (p : Intake × Int64),
      p ∈ admissions (events (step Sha256.sha256) Db.migrated calls) →
      ∀ claimNow markNow delivery a,
        (dispatchDue Sha256.sha256 localConfig claimNow refusingPeer markNow
          (run (step Sha256.sha256) Db.migrated calls)).1.attempt = some (delivery, a) →
        delivery.messageId = (p.1.row Sha256.sha256 p.2).messageId →
        Handed localConfig p.1.intent (handover localConfig delivery) := by
  intro h
  have hround : ((dispatchDue Sha256.sha256 localConfig (some 5) refusingPeer (some 6)
      (run (step Sha256.sha256) Db.migrated [.m3Submit alertsCommand 0])).1.attempt.map
        fun x => (x.1.messageId, x.1.driver, x.1.topic)) =
          some ((m3Message Sha256.sha256 alertsCommand 0).messageId, "ntfy", "ntfy") ∧
      (Intake.m3 alertsCommand, (0 : Int64)) ∈
        admissions (events (step Sha256.sha256) Db.migrated [.m3Submit alertsCommand 0]) := by
    decide +kernel
  obtain ⟨hmap, hp⟩ := hround
  obtain ⟨⟨delivery, a⟩, hattempt, hcols⟩ := Option.map_eq_some_iff.1 hmap
  simp only [Prod.mk.injEq] at hcols
  obtain ⟨hid, hdriver, htopic⟩ := hcols
  have hbad := h [.m3Submit alertsCommand 0] (.m3 alertsCommand, 0) hp (some 5) (some 6) delivery a
    hattempt hid
  rw [handed_ntfy_iff rfl] at hbad
  simp [handover, hdriver, htopic, Intake.intent, alertsCommand] at hbad

end MsgRiver.Service
