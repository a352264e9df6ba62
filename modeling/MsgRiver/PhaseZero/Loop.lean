import MsgRiver.PhaseZero.Kernel

/-!
# The reference loop

`handle` answers one request: the challenge of a webhook subscription, a callback, a registered
outbound message, the dispatch of an alert, the retention of a reply and the correction of a service
window.  What a request does to the durable state is a function of its own (`outboundAfter`,
`retentionAfter`, `serviceWindowAfter` and the evidences of a callback); the kernel then replaces
the state, if nobody else did.
-/

namespace MsgRiver.PhaseZero

open Ascii Result
open Callback (ReferenceLoopResponse Header QueryParameter CallbackIngress Reply emptyResponse
  constantTimeEqual safeEvent CallbackCandidate)

namespace Loop

/-! ### Requests -/

/-- What a caller may not choose. -/
inductive CallerSuppliedAuthority
  | endpoint (value : List UInt8)
  | token (value : List UInt8)
  | senderId (value : List UInt8)
  | webhook (value : List UInt8)
  | header (value : Header)
  | arbitraryBody (value : List UInt8)
  deriving DecidableEq

/-- The template that a caller names. -/
inductive TemplateSelection
  | registered (template : RegisteredTemplate)
  | unknown (name : List UInt8)
  deriving DecidableEq

/-- A message that a caller wants to send. -/
structure RegisteredOutbound where
  attemptReference : SafeReference
  senderGeneration : UInt64
  template : TemplateSelection
  destination : List UInt8
  locale : List UInt8
  parameters : List (List UInt8)
  callerSuppliedAuthority : Option CallerSuppliedAuthority
  deriving DecidableEq

/-- What an operator asks for a reply that is kept. -/
structure RetentionControl where
  localOperator : Bool
  requestedRawHours : Option UInt16
  extensionHours : Option UInt16
  purge : Bool
  deriving DecidableEq

/-- The operations of a request. -/
inductive ReferenceLoopOperation
  | callback (ingress : CallbackIngress)
  | clientCallback (ingress : CallbackIngress)
  | registeredOutbound (outbound : RegisteredOutbound)
  | dispatchAlert (eventReference : SafeReference)
  | retention (control : RetentionControl)
  | correctServiceWindow (eventReference priorEventReference : SafeReference)
      (state : ServiceWindowState)
  | clientApi
  | clientApiKey
  | cliCatalog
  deriving DecidableEq

/-- What the fixture of the provider answers. -/
inductive ProviderFixtureOutcome
  | accepted (reference : SafeReference)
  | classified (outcome : ProviderOutcomeClass)
  deriving DecidableEq

/-- What a request reads of the configuration. -/
structure ReferenceLoopConfiguration extends Callback.ReferenceLoopConfiguration where
  verificationToken : List UInt8
  endpointGeneration : UInt64
  credentialGeneration : UInt64
  templateAllowlistGeneration : UInt64
  fakeProviderOutcome : ProviderFixtureOutcome
  deriving DecidableEq

/-- A request to the reference loop. -/
structure ReferenceLoopRequest where
  operation : ReferenceLoopOperation
  configuration : ReferenceLoopConfiguration
  receivedAt : Int64
  deriving DecidableEq

/-- The part of a request that a callback reads. -/
def ReferenceLoopRequest.callback (request : ReferenceLoopRequest) :
    Callback.ReferenceLoopRequest where
  configuration := request.configuration.toReferenceLoopConfiguration
  receivedAt := request.receivedAt.toInt

/-! ### The challenge -/

/-- The parameters of a challenge that were found so far. -/
structure ChallengeParameters where
  mode : Option (List UInt8) := none
  token : Option (List UInt8) := none
  challenge : Option (List UInt8) := none
  deriving DecidableEq

/-- One turn of the loop over the query. -/
def readParameter (found : ChallengeParameters) (parameter : QueryParameter) :
    Except ReferenceLoopResponse ChallengeParameters :=
  if parameter.name = utf8Bytes "hub.mode" then
    if found.mode.isSome then .error (emptyResponse 401)
    else .ok { found with mode := some parameter.value }
  else if parameter.name = utf8Bytes "hub.verify_token" then
    if found.token.isSome then .error (emptyResponse 401)
    else .ok { found with token := some parameter.value }
  else if parameter.name = utf8Bytes "hub.challenge" then
    if found.challenge.isSome then .error (emptyResponse 401)
    else .ok { found with challenge := some parameter.value }
  else .error (emptyResponse 401)

/-- The challenge of a request that subscribes with the right token. -/
def challengeOf (configuration : ReferenceLoopConfiguration) (ingress : CallbackIngress) :
    Except ReferenceLoopResponse (List UInt8) := do
  let unauthorized := emptyResponse 401
  reject (!ingress.rawBody.isEmpty || 1000 < ingress.elapsedMillis || !ingress.headers.isEmpty)
    unauthorized
  let found ← ingress.query.foldlM readParameter {}
  let mode ← orError unauthorized found.mode
  let token ← orError unauthorized found.token
  let challenge ← orError unauthorized found.challenge
  reject (mode != utf8Bytes "subscribe" || token.isEmpty || 512 < token.length ||
    challenge.isEmpty || 256 < challenge.length || (Text.decodeUtf8 token).isNone ||
    (Text.decodeUtf8 challenge).isNone ||
    !constantTimeEqual token configuration.verificationToken) unauthorized
  return challenge

/-- The challenge is sent back as it came. -/
def handleChallenge (configuration : ReferenceLoopConfiguration) (ingress : CallbackIngress) :
    ReferenceLoopResponse :=
  match challengeOf configuration ingress with
  | .error response => response
  | .ok challenge =>
    ⟨200, [⟨utf8Bytes "content-type", utf8Bytes "text/plain; charset=utf-8"⟩], challenge⟩

/-! ### Outbound messages -/

/-- The order of the next event, which is the number of events with it. -/
def receiptOrderOf (state : LoopState) : UInt64 := saturatingSucc state.events.length

/-- The state with another event. -/
def pushEvent (state : LoopState) (event : EvidenceEvent) : LoopState :=
  { state with events := state.events ++ [event] }

/-- The generations of a pin are those in force. -/
def pinMatches (configuration : ReferenceLoopConfiguration) (pin : OutboundPin) : Bool :=
  pin.senderGeneration == configuration.senderGeneration &&
    pin.endpointGeneration == configuration.endpointGeneration &&
    pin.credentialGeneration == configuration.credentialGeneration &&
    pin.templateAllowlistGeneration == configuration.templateAllowlistGeneration

/-- One parameter of 1 to 4096 bytes. -/
def validParameters : List (List UInt8) → Bool
  | [parameter] => !parameter.isEmpty && parameter.length ≤ 4096
  | _ => false

/-- What an outbound message has to be. -/
def registeredOutboundIsValid (configuration : ReferenceLoopConfiguration)
    (outbound : RegisteredOutbound) : Bool :=
  outbound.template == .registered .phase0Notice &&
    outbound.senderGeneration == configuration.senderGeneration &&
    outbound.destination == utf8Bytes "+5511999999999" && outbound.locale == utf8Bytes "pt_BR" &&
    validParameters outbound.parameters

/-- The checks before the provider is called: a response ends the request. -/
def admitOutbound (configuration : ReferenceLoopConfiguration) (outbound : RegisteredOutbound)
    (before : LoopState) : Except ReferenceLoopResponse Unit := do
  reject outbound.callerSuppliedAuthority.isSome (emptyResponse 400)
  match before.outboundPins.find? fun pin =>
      pin.attemptReference == outbound.attemptReference with
  | some pin => .error (emptyResponse (if pinMatches configuration pin then 202 else 409))
  | none => reject (!registeredOutboundIsValid configuration outbound) (emptyResponse 400)

/-- What the provider is asked to send. -/
def providerCaptureOf (configuration : ReferenceLoopConfiguration)
    (outbound : RegisteredOutbound) : ProviderCapture where
  template := .phase0Notice
  senderGeneration := outbound.senderGeneration
  providerMessageId :=
    match configuration.fakeProviderOutcome with
    | .accepted reference => some reference
    | .classified _ => none

/-- The event of a message that was sent. -/
def outboundEvent (outbound : RegisteredOutbound) (reference : SafeReference)
    (before : LoopState) : EvidenceEvent where
  kind := .outboundOutcome
  reference
  senderGeneration := outbound.senderGeneration
  providerOccurredAt := none
  receiptOrder := receiptOrderOf before

/-- The state after the provider has answered. -/
def outboundAfter (configuration : ReferenceLoopConfiguration) (outbound : RegisteredOutbound)
    (before : LoopState) : Except RuntimeError LoopState :=
  match configuration.fakeProviderOutcome with
  | .accepted reference =>
    let after := pushEvent before (outboundEvent outbound outbound.attemptReference before)
    .ok { after with
      bindings := after.bindings ++ [⟨outbound.senderGeneration, reference⟩]
      outboundPins := after.outboundPins ++
        [{ attemptReference := outbound.attemptReference
           senderGeneration := configuration.senderGeneration
           endpointGeneration := configuration.endpointGeneration
           credentialGeneration := configuration.credentialGeneration
           templateAllowlistGeneration := configuration.templateAllowlistGeneration }] }
  | .classified outcome => do
    let reference ← safeEvent 14
    let after := pushEvent before (outboundEvent outbound reference before)
    return { after with
      v1History := after.v1History ++ [.providerOutcome outcome 1 (outcome == .ambiguous)] }

/-! ### Retention -/

/-- The order behind the largest one that is there. -/
def nextReceiptOrder (state : LoopState) : UInt64 :=
  saturatingSucc ((state.events.map fun event => event.receiptOrder.toNat).foldl max 0)

/-- The event of a change to the retention. -/
def retentionEvent (configuration : ReferenceLoopConfiguration) (reference : SafeReference)
    (receiptOrder : UInt64) : EvidenceEvent where
  kind := .retentionDisposition
  reference
  senderGeneration := configuration.senderGeneration
  providerOccurredAt := none
  receiptOrder

/-- Why the reply is removed, as the number of the event. -/
def removalNumber (control : RetentionControl) (receivedAt : Int64)
    (sensitive : SensitiveReplyState) : Option ℕ :=
  if sensitive.expiresAt < receivedAt then some 11
  else if control.purge then some 20
  else if control.requestedRawHours = some 0 then some 21
  else none

/-- The reply is kept for a number of hours after its receipt. -/
def extendRetention (configuration : ReferenceLoopConfiguration) (control : RetentionControl)
    (requestedHours : UInt16) (sensitive : SensitiveReplyState) (before : LoopState) :
    Except Reply LoopState := do
  reject (168 < requestedHours) (.ok (emptyResponse 400))
  let extensionHours := control.extensionHours.getD requestedHours
  reject (168 < extensionHours) (.ok (emptyResponse 400))
  let expiresAt ← orError (.ok (emptyResponse 400))
    (Checked.checkedAdd sensitive.retainedAt (Int64.ofNat (extensionHours.toNat * 3600)))
  let reference ← (safeEvent 19).mapError .error
  return { pushEvent before (retentionEvent configuration reference 2) with
    sensitiveReply := some ⟨sensitive.retainedAt, expiresAt, true⟩ }

/-- The state with the reply removed or kept for other hours. -/
def retentionAfter (configuration : ReferenceLoopConfiguration) (control : RetentionControl)
    (receivedAt : Int64) (before : LoopState) : Except Reply LoopState := do
  let sensitive ← orError (.ok (emptyResponse 200)) before.sensitiveReply
  match removalNumber control receivedAt sensitive, control.requestedRawHours with
  | some number, _ => do
    let reference ← (safeEvent number).mapError .error
    return { pushEvent before (retentionEvent configuration reference (nextReceiptOrder before)) with
      sensitiveReply := none }
  | none, some requestedHours =>
    extendRetention configuration control requestedHours sensitive before
  | none, none => .error (.ok (emptyResponse 200))

/-! ### Service windows -/

/-- The state with the disposition that corrects an earlier one. -/
def serviceWindowAfter (configuration : ReferenceLoopConfiguration)
    (eventReference priorEventReference : SafeReference) (state : ServiceWindowState)
    (receivedAt : Int64) (before : LoopState) : Except Reply LoopState := do
  reject (!before.serviceWindowDispositions.any fun disposition =>
    disposition.eventReference == priorEventReference) (.ok (emptyResponse 400))
  let event : EvidenceEvent :=
    { kind := .serviceWindowDisposition, reference := eventReference,
      senderGeneration := configuration.senderGeneration,
      providerOccurredAt := some receivedAt.toInt, receiptOrder := receiptOrderOf before }
  return { pushEvent before event with
    serviceWindowDispositions := before.serviceWindowDispositions ++
      [⟨eventReference, some priorEventReference, state⟩] }

/-! ### Callbacks -/

/-- The state with the evidences of a callback. -/
def callbackAfter (added : List Callback.Evidence) (before : LoopState) : LoopState :=
  { before with toDurableState := added.foldl Callback.addEvidence before.toDurableState }

/-! ### Handling -/

/-- The revision that every operation proposes. -/
def nextRevision (before after : LoopState) : LoopState :=
  { after with revision := saturatingSucc before.revision.toNat }

/-- Only a stop is reported as an error. -/
def commit (before replacement : LoopState) : Method Bool := do
  let result ← Kernel.observing (Kernel.replaceDurableState before.revision replacement)
  match result with
  | .ok () => return true
  | .error (.stop stop) => throw (.stop stop)
  | .error _ => return false

/-- Propose the state and answer. -/
def commitAndAnswer (before after : LoopState) (status : ℕ) : Method ReferenceLoopResponse := do
  let done ← commit before (nextRevision before after)
  return emptyResponse (if done then status else 503)

/-- The provider is asked before the state is replaced. -/
def handleRegisteredOutbound (configuration : ReferenceLoopConfiguration)
    (outbound : RegisteredOutbound) : Method ReferenceLoopResponse := do
  let before := (← get).durable
  match admitOutbound configuration outbound before with
  | .error response => return response
  | .ok () => do
    Kernel.captureProvider (providerCaptureOf configuration outbound)
    let after ← Kernel.ofExcept (outboundAfter configuration outbound before)
    commitAndAnswer before after 202

/-- An error of the dispatch that ends it with a response. -/
def handleDispatch (eventReference : SafeReference) (receivedAt : Int64) :
    Method ReferenceLoopResponse := do
  let lease ← Kernel.observing (Kernel.leaseAlert eventReference receivedAt)
  match lease with
  | .error (.stop stop) => throw (.stop stop)
  | .error _ => return emptyResponse 202
  | .ok lease => do
    let captured ← Kernel.observing (Kernel.captureAlert
      ⟨lease.eventReference, lease.isMatched, lease.safeTimestamp⟩ lease.leaseFence receivedAt)
    match captured with
    | .error .alertUnavailable => return emptyResponse 202
    | .error error => throw error
    | .ok () => do
      let settled ← Kernel.observing (Kernel.settleAlert eventReference lease.leaseFence)
      match settled with
      | .error (.stop stop) => throw (.stop stop)
      | .error _ | .ok () => return emptyResponse 202

/-- Only the local operator changes the retention. -/
def handleRetention (configuration : ReferenceLoopConfiguration) (control : RetentionControl)
    (receivedAt : Int64) : Method ReferenceLoopResponse := do
  if !control.localOperator then return emptyResponse 403
  let before := (← get).durable
  match retentionAfter configuration control receivedAt before with
  | .error reply => Kernel.ofExcept reply
  | .ok after => commitAndAnswer before after 200

/-- Corrects the service window of an event. -/
def handleServiceWindow (configuration : ReferenceLoopConfiguration)
    (eventReference priorEventReference : SafeReference) (state : ServiceWindowState)
    (receivedAt : Int64) : Method ReferenceLoopResponse := do
  let before := (← get).durable
  match serviceWindowAfter configuration eventReference priorEventReference state receivedAt
      before with
  | .error reply => Kernel.ofExcept reply
  | .ok after => commitAndAnswer before after 200

section Digest

-- `hmac_sha256`
variable (hmac : List UInt8 → List UInt8 → Bytes.ByteVec 32)

/-- The candidates are staged and proposed together. -/
def handleCandidates (request : ReferenceLoopRequest) (candidates : List CallbackCandidate) :
    Method ReferenceLoopResponse := do
  let before := (← get).durable
  match Callback.acceptAll hmac before.toDurableState request.callback.configuration candidates with
  | .error reply => Kernel.ofExcept reply
  | .ok accepted =>
    if accepted = [] then return emptyResponse 200
    Kernel.stageCallbackCandidates (accepted.map (Callback.receiptOf request.callback))
    match Callback.evidences request.callback before.toDurableState accepted with
    | .error reply => Kernel.ofExcept reply
    | .ok added => commitAndAnswer before (callbackAfter added before) 200

/-- A callback that is not admitted is answered without a proposal. -/
def handleCallback (request : ReferenceLoopRequest) (ingress : CallbackIngress) :
    Method ReferenceLoopResponse :=
  match Callback.admittedCandidates hmac request.callback ingress with
  | .error response => return response
  | .ok candidates => handleCandidates hmac request candidates

/-- `handle`: the operations of clients do not exist here. -/
def handle (request : ReferenceLoopRequest) : Method ReferenceLoopResponse :=
  match request.operation with
  | .clientCallback _ | .clientApi | .clientApiKey | .cliCatalog => return emptyResponse 404
  | .callback ingress =>
    if ingress.method = utf8Bytes "GET" then
      return handleChallenge request.configuration ingress
    else handleCallback hmac request ingress
  | .registeredOutbound outbound => handleRegisteredOutbound request.configuration outbound
  | .dispatchAlert eventReference => handleDispatch eventReference request.receivedAt
  | .retention control => handleRetention request.configuration control request.receivedAt
  | .correctServiceWindow eventReference priorEventReference state =>
    handleServiceWindow request.configuration eventReference priorEventReference state
      request.receivedAt

/-! ### Workers -/

/-- What a worker is asked to do. -/
inductive Task
  | handle (request : ReferenceLoopRequest)
  | injectStop (checkpoint : TransactionCheckpoint)
  | injectAlertUnavailable
  | restart

/-- A worker that handles requests; after a stop it opens the store again. -/
def duty : Duty StoreCall StoreReply Kernel Task where
  work kernel task :=
    match task with
    | .handle request => do
      let p ← handle hmac request kernel
      return some p.2
    | .injectStop checkpoint => return some { kernel with stopAt := some checkpoint }
    | .injectAlertUnavailable => return some { kernel with alertUnavailable := true }
    | .restart => return some kernel.restart
  boot := Kernel.reopenStore

end Digest

end Loop

end MsgRiver.PhaseZero
