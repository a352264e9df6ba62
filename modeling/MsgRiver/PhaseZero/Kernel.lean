import MsgRiver.Lib.Pool
import MsgRiver.PhaseZero.Snapshot

/-!
# The fixture kernel

A kernel runs the reference loop over a store that it shares with other workers: the snapshot file
and an advisory lock.  It keeps a copy of the durable state, and what it has captured is lost with
it.

The kernel is a program over the calls of `StoreCall`.  `Shared` is what survives a worker: the
bytes of the snapshot file, who holds the lock, and a log of what the workers committed and let out.
The log is only written.
-/

namespace MsgRiver.PhaseZero

open Bytes Result
open Snapshot (encodeState decodeState)

/-! ### The store -/

/-- The templates that may be sent. -/
inductive RegisteredTemplate
  | phase0Notice
  deriving DecidableEq

/-- What the fixture of the provider was asked to send. -/
structure ProviderCapture where
  template : RegisteredTemplate
  senderGeneration : UInt64
  providerMessageId : Option SafeReference
  deriving DecidableEq

/-- What the fixture of the alerts was asked to send. -/
structure AlertCapture where
  eventReference : SafeReference
  isMatched : Bool
  safeTimestamp : ℤ
  deriving DecidableEq

/-- What the log notes: the replacements of the durable state, with their reason, and the captures.
-/
inductive Record
  | leased (intent : AlertIntent) (state : LoopState)
  | settled (eventReference : SafeReference) (leaseFence : UInt64) (state : LoopState)
  | replaced (state : LoopState)
  | alerted (capture : AlertCapture) (leaseFence : UInt64) (observedAt : Int64)
  | provided (capture : ProviderCapture)
  deriving DecidableEq

/-- What the workers share: the snapshot file, the lock on it, and the log. -/
structure Shared where
  snapshot : List UInt8
  lock : Option ℕ
  log : List (ℕ × Record)

/-- The calls of a kernel.  The records are not part of what it does to the file. -/
inductive StoreCall
  | load
  | tryLock
  | unlock
  | persist (bytes : List UInt8) (record : Record)
  | capture (record : Record)

/-- The answer to an attempt to lock. -/
inductive LockReply
  | granted
  | wouldBlock
  | failed
  deriving DecidableEq

/-- A file is read or it is not; a lock is granted or not; a file is replaced or an error is
reported. -/
def StoreReply : StoreCall → Type
  | .load => Option (List UInt8)
  | .tryLock => LockReply
  | .unlock => Unit
  | .persist .. => Bool
  | .capture _ => Unit

/-- How a call turns out.  `FixtureStore::persist` can also fail when the file is replaced already,
because the directory is not synced. -/
inductive StoreFate
  | done
  | failed
  | failedLate
  deriving DecidableEq

namespace Shared

/-- The log with another entry of a worker. -/
def note (s : Shared) (w : ℕ) (record : Record) : Shared := { s with log := s.log ++ [(w, record)] }

/-- The lock of a worker is released, also by the system when the worker has stopped. -/
def unlock (s : Shared) (w : ℕ) : Shared :=
  { s with lock := if s.lock = some w then none else s.lock }

/-- What a call does.  `failedLate` is a failure behind the replacement of the file. -/
def answer (w : ℕ) : (call : StoreCall) → StoreFate → Shared → StoreReply call × Shared
  | .load, .done, s => (some s.snapshot, s)
  | .load, _, s => (none, s)
  | .tryLock, .done, s =>
    if s.lock = none then (.granted, { s with lock := some w }) else (.wouldBlock, s)
  | .tryLock, _, s => (.failed, s)
  | .unlock, _, s => ((), s.unlock w)
  | .persist bytes record, .done, s => (true, { s.note w record with snapshot := bytes })
  | .persist _ _, .failed, s => (false, s)
  | .persist bytes record, .failedLate, s => (false, { s.note w record with snapshot := bytes })
  | .capture record, _, s => ((), s.note w record)

/-- The store of the fixture. -/
def system : System Shared StoreCall StoreReply StoreFate where
  answer := answer
  release w s := s.unlock w

end Shared

/-! ### The kernel -/

/-- The points at which a kernel can be set to stop. -/
inductive TransactionCheckpoint
  | beforeCommit
  | afterReceiptInsert
  | afterCommitBeforeAck
  | beforeDispatchLease
  | afterDispatchSend
  deriving DecidableEq

/-- A kernel with the state that it loses when it stops. -/
structure Kernel where
  durable : LoopState
  provider : List ProviderCapture := []
  alerts : List AlertCapture := []
  attemptedAlerts : List AlertCapture := []
  stagedCandidates : List Receipt := []
  stagedBatch : Option (List Receipt) := none
  stopAt : Option TransactionCheckpoint := none
  alertUnavailable : Bool := false
  deriving DecidableEq

/-- A method of a kernel: also an error leaves another kernel. -/
abbrev Method (α : Type) : Type :=
  ExceptT RuntimeError (StateT Kernel (Program StoreCall StoreReply)) α

namespace Kernel

/-- A call to the store. -/
def ask (call : StoreCall) : Method (StoreReply call) := fun k => do
  let reply ← Program.call call
  return (.ok reply, k)

/-- The result of a method as a value. -/
def observing {α : Type} (body : Method α) : Method (Except RuntimeError α) := fun k => do
  let p ← body k
  return (.ok p.1, p.2)

/-- A result that needs no call. -/
def ofExcept {α : Type} (x : Except RuntimeError α) : Method α := fun k => pure (x, k)

/-- Reads the snapshot file; one that does not decode is an invalid fixture. -/
def load : Method LoopState := do
  let bytes ← ask .load
  match bytes with
  | none => throw .invalidFixture
  | some bytes =>
    match decodeState bytes with
    | .error _ => throw .invalidFixture
    | .ok state => return state

/-- A lock that another worker holds counts as a conflict of revisions. -/
def acquireLock : Method Unit := do
  let reply ← ask .tryLock
  match reply with
  | .granted => return
  | .wouldBlock => throw .revisionConflict
  | .failed => throw .invalidFixture

/-- The lock is held until the value that owns it is dropped. -/
def withLock {α : Type} (body : Method α) : Method α := do
  acquireLock
  let result ← observing body
  let _ ← ask .unlock
  ofExcept result

/-- Encodes the state and replaces the snapshot file.  A failed replacement may have happened. -/
def persist (record : Record) (state : LoopState) : Method Unit :=
  match encodeState state with
  | .error _ => throw .invalidFixture
  | .ok bytes => do
    let replaced : Bool ← ask (.persist bytes record)
    if replaced then return else throw .invalidFixture

/-- Replaces the state under the lock if it still has the revision that was read. -/
def replaceIfRevision (expectedRevision : UInt64) (record : Record) (replacement : LoopState) :
    Method Unit :=
  withLock do
    let current ← load
    ofExcept (reject (current.revision != expectedRevision) .revisionConflict)
    persist record replacement

/-- Takes the copy of the state from the store. -/
def refreshFromStore : Method Unit := do
  let durable ← load
  modify fun k => { k with durable }

/-- The error of a kernel that stops at the checkpoint. -/
def stopFor : TransactionCheckpoint → RuntimeStop
  | .beforeCommit => .beforeCommit
  | .afterReceiptInsert => .afterReceiptInsert
  | .afterCommitBeforeAck => .afterCommitBeforeAck
  | .beforeDispatchLease => .beforeDispatchLease
  | .afterDispatchSend => .afterDispatchSend

/-- A kernel that is set to stop at the checkpoint returns there with a typed error. -/
def checkpoint (point : TransactionCheckpoint) : Method Unit := do
  let k ← get
  ofExcept (reject (k.stopAt == some point) (.stop (stopFor point)))

/-- The receipts that are expected are taken out of the others one by one. -/
def removeAll : List Receipt → List Receipt → Bool
  | [], _ => true
  | candidate :: expected, remaining =>
    remaining.contains candidate && removeAll expected (remaining.erase candidate)

/-- The new state has the receipts of the staged batch, and no others besides the old ones. -/
def stagedBatchIsExactReceiptDelta (k : Kernel) (replacement : LoopState) : Bool :=
  match k.stagedBatch with
  | none => true
  | some batch =>
    let expected := k.durable.receipts ++ batch
    expected.length == replacement.receipts.length && removeAll expected replacement.receipts

/-- A step that is made when a batch is staged. -/
def whenStaged (k : Kernel) (step : Method Unit) : Method Unit :=
  if k.stagedBatch.isSome then step else pure ()

/-- Proposes a state under the revision that it was made from; the next revision is given here. -/
def replaceDurableState (expectedRevision : UInt64) (replacement : LoopState) : Method Unit := do
  refreshFromStore
  let k ← get
  ofExcept (reject (expectedRevision != k.durable.revision) .revisionConflict)
  ofExcept (reject (!k.stagedBatchIsExactReceiptDelta replacement) .invalidFixture)
  checkpoint .beforeCommit
  whenStaged k (checkpoint .afterReceiptInsert)
  let revision ← ofExcept (orError .invalidFixture (checkedSucc expectedRevision))
  let replacement := { replacement with revision }
  replaceIfRevision expectedRevision (.replaced replacement) replacement
  modify fun k => { k with durable := replacement, stagedBatch := none, stagedCandidates := [] }
  checkpoint .afterCommitBeforeAck

/-- The provider is asked, and nothing is known of it in the durable state yet. -/
def captureProvider (capture : ProviderCapture) : Method Unit := do
  modify fun k => { k with provider := k.provider ++ [capture] }
  let _ ← ask (.capture (.provided capture))
  checkpoint .afterDispatchSend

/-- Stages the receipts of a callback; there may be no others. -/
def stageCallbackCandidates (candidates : List Receipt) : Method Unit := do
  ofExcept (reject candidates.isEmpty .invalidFixture)
  let k ← get
  ofExcept (reject k.stagedBatch.isSome .invalidFixture)
  modify fun k => { k with
    stagedBatch := some candidates
    stagedCandidates := k.stagedCandidates ++ candidates }

/-- The lease of an intent under the fence has not run out. -/
def eligible (eventReference : SafeReference) (leaseFence : UInt64) (observedAt : Int64)
    (intent : AlertIntent) : Bool :=
  intent.eventReference == eventReference && intent.leased && !intent.delivered &&
    intent.leaseFence == leaseFence && intent.leaseExpiresAt.any fun t => observedAt.toInt < t

/-- The alert is let out under the lock, while its lease has not run out. -/
def captureAlert (capture : AlertCapture) (leaseFence : UInt64) (observedAt : Int64) :
    Method Unit := do
  modify fun k => { k with attemptedAlerts := k.attemptedAlerts ++ [capture] }
  withLock do
    refreshFromStore
    let k ← get
    ofExcept (reject
      (!k.durable.outbox.any (eligible capture.eventReference leaseFence observedAt)) .invalidFixture)
    ofExcept (reject k.alertUnavailable .alertUnavailable)
    let _ ← ask (.capture (.alerted capture leaseFence observedAt))
    modify fun k => { k with alerts := k.alerts ++ [capture] }
    checkpoint .afterDispatchSend

/-- The first element that is looked for, with what stands before and behind it. -/
def splitFirst {α : Type} (p : α → Bool) : List α → Option (List α × α × List α)
  | [] => none
  | x :: xs => if p x then some ([], x, xs) else (splitFirst p xs).map fun q => (x :: q.1, q.2)

/-- The intent can be leased: it never was, or its lease has run out. -/
def leasable (eventReference : SafeReference) (leasedAt : Int64) (intent : AlertIntent) : Bool :=
  intent.eventReference == eventReference && !intent.delivered &&
    (!intent.leased || intent.leaseExpiresAt.any fun t => t ≤ leasedAt.toInt)

/-- The intent under the next fence for a minute.  A lease that ran out leaves it open whether the
alert went out. -/
def leaseIntent (intent : AlertIntent) (leasedAt : Int64) : Except RuntimeError AlertIntent := do
  let leaseFence ← orError .invalidFixture (checkedSucc intent.leaseFence)
  let leaseExpiresAt ← orError .invalidFixture (Checked.checkedAdd leasedAt 60)
  let dispatchAttempts ← orError .invalidFixture (ofNat? (intent.dispatchAttempts.toNat + 1))
  return { intent with
    leased := true
    leaseFence
    leaseExpiresAt := some leaseExpiresAt.toInt
    dispatchAttempts
    ambiguousDispatch := intent.ambiguousDispatch || intent.leased }

/-- The state with another outbox and the next revision. -/
def withOutbox (state : LoopState) (outbox : List AlertIntent) : Except RuntimeError LoopState := do
  let revision ← orError .invalidFixture (checkedSucc state.revision)
  return { state with outbox, revision }

/-- Leases the first intent of the event that can be leased. -/
def leaseAlert (eventReference : SafeReference) (leasedAt : Int64) : Method AlertIntent := do
  refreshFromStore
  let k ← get
  match splitFirst (leasable eventReference leasedAt) k.durable.outbox with
  | none => throw .invalidFixture
  | some (front, intent, back) => do
    checkpoint .beforeDispatchLease
    let leased ← ofExcept (leaseIntent intent leasedAt)
    let replacement ← ofExcept (withOutbox k.durable (front ++ leased :: back))
    replaceIfRevision k.durable.revision (.leased leased replacement) replacement
    modify fun k => { k with durable := replacement }
    return leased

/-- The lease of the intent is held under the fence. -/
def settleable (eventReference : SafeReference) (leaseFence : UInt64) (intent : AlertIntent) :
    Bool :=
  intent.eventReference == eventReference && intent.leased && !intent.delivered &&
    intent.leaseFence == leaseFence

/-- The intent is delivered, and no lease is left. -/
def settleIntent (intent : AlertIntent) : AlertIntent :=
  { intent with leased := false, leaseExpiresAt := none, delivered := true }

/-- Settles the intent that is leased under the fence. -/
def settleAlert (eventReference : SafeReference) (leaseFence : UInt64) : Method Unit := do
  refreshFromStore
  let k ← get
  match splitFirst (settleable eventReference leaseFence) k.durable.outbox with
  | none => throw .invalidFixture
  | some (front, intent, back) => do
    let replacement ← ofExcept (withOutbox k.durable (front ++ settleIntent intent :: back))
    replaceIfRevision k.durable.revision (.settled eventReference leaseFence replacement)
      replacement
    modify fun k => { k with durable := replacement }

/-- `FixtureKernel::reopen_store`. -/
def reopenStore : Program StoreCall StoreReply (Option Kernel) := do
  let bytes ← Program.call .load
  return (bytes : Option (List UInt8)).bind fun bytes =>
    (decodeState bytes).toOption.map fun durable => { durable }

/-- A restart in place keeps the durable state and forgets what was captured. -/
def restart (k : Kernel) : Kernel :=
  { durable := k.durable, alertUnavailable := k.alertUnavailable }

end Kernel

end MsgRiver.PhaseZero
