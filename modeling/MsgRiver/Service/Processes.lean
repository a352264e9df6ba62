import MsgRiver.Service.Effects
import MsgRiver.Service.OwnerLock
import MsgRiver.Service.Requests
import MsgRiver.Service.Startup

/-!
# The processes of the service

`serve` starts the service and `poll` is one turn of its loop.  Both are programs over the calls of
`SystemCall`, so that the processes of a pool take turns between any two calls and can end at each
of them.  What they share is the `World`: the file system, one store in each state directory, and a log
of what the processes did to them.  The log is only written.

A round of dispatch is three calls here, the claim, the attempt and the mark, where `dispatchDue`
makes it in one step.
-/

namespace MsgRiver.Service.Processes

open Store Connector StepRun OwnerLock Startup

/-! ### The calls that a request leads to -/

/-- The store call of a local request. -/
def requestCall (json : Json.Codec) (config : LocalConfig) (now : Option Int64) :
    IncomingRequest → Option Call
  | .ntfy message => now.map fun now =>
    .m2Submit ⟨message.idempotencyKey, config.ntfyTopic, message.title, message.body⟩ now
  | .whatsapp request =>
    match config.whatsapp with
    | none => none
    | some registration =>
      match Whatsapp.requestBody json registration request.message with
      | .error _ => none
      | .ok _ =>
        match canonicalWhatsappPayload json request.template request.locale request.parameters with
        | .error _ => none
        | .ok payload => now.map fun now => .m3Submit (whatsappSubmission request payload) now
  | .inboundControl enabled => config.inbound.map fun _ => .m4SetInboundEnabled enabled
  | .status | .messageStatus _ => none
  | .messageRetry messageId => now.map fun now => .m6RequeueFailed messageId now

/-- The store call that a client leads to, if any. -/
def localCall (json : Json.Codec) (config : LocalConfig) (now : Option Int64) (peer : UnixPeer) :
    Option Call :=
  match readRequest json peer.reads with
  | .ok (some request) => requestCall json config now request
  | _ => none

/-- The store call of a webhook request. -/
def webhookCall (json : Json.Codec) (config : WebhookConfig) (parseNow submitNow : Option Int64)
    (peer : TcpPeer) : Option Call :=
  match config.inbound, readHttpRequest peer.reads with
  | some inbound, .ok (some (head, body)) =>
    if requestLineOf head = webhookLine then
      match judgeCallback json config inbound parseNow head body with
      | .ok (.submit submission) => submitNow.map fun now => .m4SubmitInbound submission now
      | _ => none
    else none
  | _, _ => none

/-- The store after a call, if there was one. -/
def after (sha256 : List UInt8 → List.Vector UInt8 32) (db : Db) : Option Call → Db
  | none => db
  | some c => (step sha256 db c).2

/-! ### The world -/

/-- What the log notes.  An event of a store is the transaction that was committed. -/
inductive Record
  | locked (directory file : ℕ)
  | opened (store : ℕ)
  | stored (store : ℕ) (event : StoreEvent)
  | attempted (store : ℕ) (config : Config) (delivery : M2Delivery) (peer : Peer)
  | ended

/-- The file system, the stores and a log of what happened. -/
structure World where
  files : Files
  /-- The store in a state directory. -/
  db : ℕ → Db
  log : List (ℕ × Record)

/-- What `accept` returns on a socket that does not block. -/
inductive Arrival
  | connection
  | wouldBlock
  | failed
  deriving DecidableEq

/-- The calls of a process.  `step` is a step of the start that only succeeds or fails, `openStore`
opens the store in the directory that the path names, and with `spawn` the number of a process that
has ended is used again. -/
inductive SystemCall
  | file (call : FileCall)
  | step
  | clock
  | openStore
  | accept
  | transact (store : ℕ) (call : Call)
  | answerLocal (store : ℕ) (config : LocalConfig)
  | answerWebhook (store : ℕ) (config : WebhookConfig)
  | deliver (store : ℕ) (config : Config) (delivery : M2Delivery)
  | spawn
  | exit
  | outside (change : Change)

/-- The answer to a call. -/
abbrev SystemReply : SystemCall → Type
  | .file call => FileReply call
  | .step => Option String
  | .clock => Option Int64
  | .openStore => Option ℕ
  | .accept => Arrival
  | .transact .. => Store.Answer
  | .answerLocal .. | .answerWebhook .. => Except Fault (List UInt8)
  | .deliver .. => Except Panic (Except DriverError DeliveryOutcome)
  | .spawn | .exit | .outside _ => Unit

/-- How a transaction turns out: an error is reported before or after the commit. -/
inductive StoreFate
  | done
  | refused
  | lost
  deriving DecidableEq

/-- How a call turns out, and what comes from outside: errors, the clock, clients and providers. -/
structure Fate where
  file : FileFate
  error : Option String
  now : Option Int64
  parseNow : Option Int64
  arrival : Arrival
  store : StoreFate
  unixPeer : UnixPeer
  tcpPeer : TcpPeer
  peer : Peer

/-- Nothing fails, and nobody comes. -/
def calm : Fate where
  file := ⟨none, 0, 0⟩
  error := none
  now := some 0
  parseNow := some 0
  arrival := .wouldBlock
  store := .done
  unixPeer := ⟨[], true⟩
  tcpPeer := ⟨[], true⟩
  peer := silentPeer

section System

variable (sha256 : List UInt8 → List.Vector UInt8 32) (json : Json.Codec) (euid : ℕ)

namespace World

/-- The log gets a record. -/
def note (s : World) (w : ℕ) (record : Record) : World := { s with log := s.log ++ [(w, record)] }

/-- A transaction is committed. -/
def commit (w store : ℕ) (call : Call) (s : World) : World :=
  { s.note w (.stored store (event (step sha256) (s.db store) call)) with
    db := Function.update s.db store (step sha256 (s.db store) call).2 }

/-- A store call that is made, refused or committed without an answer. -/
def transact (w store : ℕ) (call : Call) (fate : StoreFate) (s : World) :
    Store.Answer × World :=
  match fate with
  | .done => ((step sha256 (s.db store) call).1, s.commit sha256 w store call)
  | .refused => (.error .delivery, s)
  | .lost => (.error .delivery, s.commit sha256 w store call)

/-- The connection of a client, with the store call that it leads to and its two answers: with the
result of the call, and when the store reports an error. -/
def serveClient (w store : ℕ) (call : Option Call) (answered refused : Except Fault (List UInt8))
    (fate : StoreFate) (s : World) : Except Fault (List UInt8) × World :=
  match call, fate with
  | none, _ => (answered, s)
  | some call, .done => (answered, s.commit sha256 w store call)
  | some _, .refused => (refused, s)
  | some call, .lost => (refused, s.commit sha256 w store call)

/-- The log notes a lock that was granted. -/
def noteLock (w : ℕ) : (call : FileCall) → FileReply call → World → World
  | .flock d n, .ok _, s => s.note w (.locked d n)
  | _, _, s => s

/-- The descriptors and the memory of a process are gone. -/
def release (w : ℕ) (s : World) : World := { s.note w .ended with files := s.files.release w }

/-- The answer to a call of a process. -/
def answer (w : ℕ) : (call : SystemCall) → Fate → World → SystemReply call × World
  | .file call, fate, s =>
    let (reply, files) := s.files.answer euid w call fate.file
    (reply, noteLock w call reply { s with files })
  | .step, fate, s => (fate.error, s)
  | .clock, fate, s => (fate.now, s)
  | .openStore, fate, s =>
    match fate.error, s.files.root with
    | none, some store => (some store, s.note w (.opened store))
    | _, _ => (none, s)
  | .accept, fate, s => (fate.arrival, s)
  | .transact store call, fate, s => s.transact sha256 w store call fate.store
  | .answerLocal store config, fate, s =>
    s.serveClient sha256 w store (localCall json config fate.now fate.unixPeer)
      (handleRequest sha256 json config fate.now fate.unixPeer (s.db store)).1
      (writeResponse fate.unixPeer 409 requestRefused) fate.store
  | .answerWebhook store config, fate, s =>
    s.serveClient sha256 w store (webhookCall json config fate.parseNow fate.now fate.tcpPeer)
      (handleInboundRequest sha256 json config fate.parseNow fate.now fate.tcpPeer (s.db store)).1
      (.error (.error "inbound store failed")) fate.store
  | .deliver store config delivery, fate, s =>
    ((attempt config delivery fate.peer).result,
      s.note w (.attempted store config delivery fate.peer))
  | .spawn, _, s => ((), s.release w)
  | .exit, _, s => ((), s.release w)
  | .outside change, _, s => ((), { s with files := change.apply euid s.files })

/-- The world as a system that answers calls. -/
def system : System World SystemCall SystemReply Fate where
  answer := answer sha256 json euid
  release := release

/-- Nobody has started; the stores are new. -/
def start (files : Files) : World :=
  ⟨{ files with held := fun _ => none, rebound := false }, fun _ => Db.migrated, []⟩

end World

/-! ### The programs -/

/-- A part of `serve`, which may fail with a text. -/
abbrev Serving (α : Type) : Type := ExceptT String (Program SystemCall SystemReply) α

/-- A system call. -/
def call (c : SystemCall) : Serving (SystemReply c) := ExceptT.lift (Program.call c)

/-- A call to the file system. -/
def file (c : FileCall) : Program SystemCall SystemReply (FileReply c) :=
  Program.call (SystemCall.file c)

/-- A value that is there, or an error. -/
def require {α : Type} (e : String) : Option α → Serving α
  | some a => pure a
  | none => throw e

/-- A step of the start. -/
def must : Serving Unit := do
  let error ← call .step
  match (error : Option String) with
  | none => pure ()
  | some e => throw e

/-- The time, if the clock gives one. -/
def nowUnixMs : Serving Int64 := do
  let now ← call .clock
  require "clock failed" now

/-- A store call whose error has this text. -/
def transact (e : String) (store : ℕ) (c : Call) : Serving Reply := do
  let answer ← call (.transact store c)
  match (answer : Store.Answer) with
  | .ok reply => pure reply
  | .error _ => throw e

/-- An open service. -/
structure Session where
  store : ℕ
  config : Config
  localConfig : LocalConfig
  webhook : WebhookConfig

/-- What a configuration holds for local requests. -/
def localConfig (service : ServiceConfig) : LocalConfig where
  ntfyTopic := service.ntfyTopic
  whatsapp := service.whatsapp.map fun w => ⟨w.template, w.locale, w.parameterCount⟩
  inbound := service.inbound

/-- `serve`, up to its loop. -/
def serve (service : ServiceConfig) : Serving Session := do
  -- `apply_linux_startup_policy` and `ensure_linux_non_root`
  must
  must
  prepareStateRoot file euid
  (acquire file euid).adapt fun _ => "state is unavailable"
  let opened ← call .openStore
  let store ← require "store open failed" opened
  let _ ← nowUnixMs
  -- `apply_product_migrations`
  must
  let now ← nowUnixMs
  let _ ← transact "store recovery failed" store (.m2RecoverInterrupted now)
  let endpoint ← require "invalid ntfy endpoint" (Ntfy.NtfyEndpoint.parse service.ntfyUrl).toOption
  -- `bind_socket`, `set_nonblocking` and `bind_inbound_listener`
  must
  return ⟨store, service.dispatch json endpoint, localConfig service, service.webhook⟩

/-- A panic in a handler ends the process; its other results are dropped. -/
def survive : Except Fault (List UInt8) → Serving Unit
  | .error .panic => throw "panicked"
  | _ => pure ()

/-- Accept a connection, if there is one. -/
def accepting (e : String) (handle : Serving Unit) : Serving Unit := do
  let arrival ← call .accept
  match (arrival : Arrival) with
  | .connection => handle
  | .wouldBlock => pure ()
  | .failed => throw e

/-- The attempt and its mark; a panic of the driver ends the process. -/
def attemptDelivery (session : Session) (delivery : M2Delivery) : Serving Unit := do
  let result ← call (.deliver session.store session.config delivery)
  match (result : Except Panic (Except DriverError DeliveryOutcome)) with
  | .error _ => throw "panicked"
  | .ok outcome =>
    let now ← nowUnixMs
    let _ ← transact "store outcome failed" session.store
      (outcomeCall delivery.messageId now outcome)

/-- One claim, and the delivery that it may lead to. -/
def dispatch (session : Session) : Serving Unit := do
  let now ← nowUnixMs
  let claimed ← transact "store claim failed" session.store (.m2ClaimDue now)
  match claimed with
  | .claimed (some delivery) => attemptDelivery session delivery
  | _ => pure ()

/-- One turn of the loop of `serve`. -/
def poll (session : Session) : Serving Unit := do
  accepting "socket accept failed" do
    let response ← call (.answerLocal session.store session.localConfig)
    survive response
  if session.webhook.inbound.isSome then
    accepting "webhook accept failed" do
      let response ← call (.answerWebhook session.store session.webhook)
      survive response
  dispatch session

/-! ### The processes -/

/-- What a process is told to do.  A process that does not serve stands for any other program. -/
inductive Op
  | serve (service : ServiceConfig)
  | poll
  | outside (change : Change)

/-- A process that fails ends, and with it what it owns. -/
def finish (x : Serving Session) : Program SystemCall SystemReply (Option (Option Session)) := do
  let result ← x.run
  match result with
  | .ok session => return some (some session)
  | .error _ =>
    let _ ← Program.call .exit
    return none

/-- What a process does when it is told to, and how a number is used again. -/
def duty : Duty SystemCall SystemReply (Option Session) Op where
  work
    | none, .serve service => finish (serve json euid service)
    | some session, .poll => finish do
      poll session
      return session
    | none, .outside change => do
      let _ ← Program.call (.outside change)
      return some none
    | kernel, _ => return some kernel
  boot := do
    let _ ← Program.call .spawn
    return some none

end System

/-! ### What a request does to the store -/

section Requests

variable {sha256 : List UInt8 → List.Vector UInt8 32} {json : Json.Codec}

theorem serveRequest_db (config : LocalConfig) (now : Option Int64) (peer : UnixPeer) (db : Db)
    (request : IncomingRequest) :
    (serveRequest sha256 json config now peer db request).2 =
      after sha256 db (requestCall json config now request) := by
  cases request with
  | ntfy message => cases now <;> rfl
  | whatsapp request =>
    simp only [serveRequest, requestCall]
    cases config.whatsapp with
    | none => rfl
    | some registration =>
      dsimp only
      cases Whatsapp.requestBody json registration request.message with
      | error e => rfl
      | ok body =>
        cases canonicalWhatsappPayload json request.template request.locale
          request.parameters with
        | error fault => rfl
        | ok payload => cases now <;> rfl
  | inboundControl enabled =>
    simp only [serveRequest, requestCall]
    cases config.inbound with
    | none => rfl
    | some inbound =>
      simp only [Option.map_some, after, step, answer]
      rcases m4SetInboundEnabled enabled db with ⟨_ | _, db'⟩ <;> rfl
  | status => rfl
  | messageStatus messageId =>
    simp only [serveRequest, requestCall, after]
    rcases m6MessageStatus messageId db with _ | (_ | _) <;> rfl
  | messageRetry messageId =>
    cases now with
    | none => rfl
    | some now =>
      simp only [serveRequest, requestCall, Option.map_some, after, step, answer]
      rcases m6RequeueFailed messageId now db with ⟨_ | (_ | (_ | _)), db'⟩ <;> rfl

/-- A local connection makes the store call that it leads to, and no other. -/
theorem handleRequest_db (config : LocalConfig) (now : Option Int64) (peer : UnixPeer) (db : Db) :
    (handleRequest sha256 json config now peer db).2 =
      after sha256 db (localCall json config now peer) := by
  unfold handleRequest localCall
  rcases readRequest json peer.reads with fault | _ | request
  · rfl
  · rfl
  · exact serveRequest_db config now peer db request

theorem handleInboundRequest_db (config : WebhookConfig) (parseNow submitNow : Option Int64)
    (peer : TcpPeer) (db : Db) :
    (handleInboundRequest sha256 json config parseNow submitNow peer db).2 =
      after sha256 db (webhookCall json config parseNow submitNow peer) := by
  unfold handleInboundRequest webhookCall
  cases config.inbound with
  | none => rfl
  | some inbound =>
  rcases readHttpRequest peer.reads with fault | _ | ⟨head, body⟩
  · rfl
  · rfl
  by_cases hline : requestLineOf head = webhookLine
  · have hget : ¬ subscriptionStart.isPrefixOf webhookLine = true := by decide
    simp only [hline, if_neg hget, ne_eq, not_true_eq_false, if_false, if_true]
    rcases judgeCallback json config inbound parseNow head body with fault | status | submission
    · rfl
    · rfl
    · cases submitNow with
      | none => rfl
      | some now =>
        simp only [Option.map_some, after, step, answer]
        rcases m4SubmitInbound sha256 submission now db with ⟨_ | _, db'⟩ <;> rfl
  · simp only [if_neg hline]
    split_ifs
    · split <;> rfl
    · rfl

/-- A connection is served as its handler serves it, unless the store reports an error. -/
theorem serveClient_done {w store : ℕ} {call : Option Call}
    {answered refused : Except Fault (List UInt8)} {s : World} :
    (s.serveClient sha256 w store call answered refused .done).1 = answered ∧
      (s.serveClient sha256 w store call answered refused .done).2.db =
        Function.update s.db store (after sha256 (s.db store) call) := by
  cases call with
  | none => exact ⟨rfl, (Function.update_eq_self store s.db).symm⟩
  | some c => exact ⟨rfl, rfl⟩

variable {euid : ℕ}

theorem answerLocal_done (w store : ℕ) (config : LocalConfig) (s : World) {fate : Fate}
    (h : fate.store = .done) :
    (World.answer sha256 json euid w (.answerLocal store config) fate s).1 =
        (handleRequest sha256 json config fate.now fate.unixPeer (s.db store)).1 ∧
      (World.answer sha256 json euid w (.answerLocal store config) fate s).2.db =
        Function.update s.db store
          (handleRequest sha256 json config fate.now fate.unixPeer (s.db store)).2 := by
  simp only [World.answer, h]
  rw [handleRequest_db]
  exact serveClient_done

theorem answerWebhook_done (w store : ℕ) (config : WebhookConfig) (s : World) {fate : Fate}
    (h : fate.store = .done) :
    (World.answer sha256 json euid w (.answerWebhook store config) fate s).1 =
        (handleInboundRequest sha256 json config fate.parseNow fate.now fate.tcpPeer
          (s.db store)).1 ∧
      (World.answer sha256 json euid w (.answerWebhook store config) fate s).2.db =
        Function.update s.db store
          (handleInboundRequest sha256 json config fate.parseNow fate.now fate.tcpPeer
            (s.db store)).2 := by
  simp only [World.answer, h]
  rw [handleInboundRequest_db]
  exact serveClient_done

theorem isClientCall_requestCall {config : LocalConfig} {now : Option Int64}
    {request : IncomingRequest} {c : Call} (h : requestCall json config now request = some c) :
    isClientCall c = true := by
  cases request with
  | ntfy message =>
    obtain ⟨_, -, rfl⟩ := Option.map_eq_some_iff.1 h
    rfl
  | whatsapp request =>
    simp only [requestCall] at h
    split at h
    · cases h
    split at h
    · cases h
    split at h
    · cases h
    obtain ⟨_, -, rfl⟩ := Option.map_eq_some_iff.1 h
    rfl
  | inboundControl enabled =>
    obtain ⟨_, -, rfl⟩ := Option.map_eq_some_iff.1 h
    rfl
  | status => cases h
  | messageStatus messageId => cases h
  | messageRetry messageId =>
    obtain ⟨_, -, rfl⟩ := Option.map_eq_some_iff.1 h
    rfl

theorem isClientCall_localCall {config : LocalConfig} {now : Option Int64} {peer : UnixPeer}
    {c : Call} (h : localCall json config now peer = some c) : isClientCall c = true := by
  unfold localCall at h
  split at h
  · exact isClientCall_requestCall h
  · cases h

theorem isClientCall_webhookCall {config : WebhookConfig} {parseNow submitNow : Option Int64}
    {peer : TcpPeer} {c : Call} (h : webhookCall json config parseNow submitNow peer = some c) :
    isClientCall c = true := by
  unfold webhookCall at h
  split at h
  · split_ifs at h
    split at h
    · obtain ⟨_, -, rfl⟩ := Option.map_eq_some_iff.1 h
      rfl
    · cases h
  · cases h

end Requests

end MsgRiver.Service.Processes
