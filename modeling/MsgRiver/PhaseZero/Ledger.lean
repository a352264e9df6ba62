import MsgRiver.Lib.History
import MsgRiver.PhaseZero.Loop

/-!
# The ledger of the reference loop

What the workers of a store note in its log, read as a history of the durable state.  `Atomic` says
what a single operation does to the state that it finds, and `Legal` says when a worker may add a
record: a replacement is one operation on the state that the log has reached, an alert is captured
while its lease is in force, and each worker leases, captures and settles in this order.

In a legal log the revision counts the replacements, so a state is known by its revision
(`currentOf_eq_of_revision`).
-/

namespace MsgRiver.PhaseZero

open Bytes Result History

namespace Ledger

/-- The entries of the log, with the worker that made each one. -/
abbrev Log := List (ℕ × Record)

/-- The durable state that a record puts in place. -/
def stateOf : Record → Option LoopState
  | .leased _ state | .settled _ _ state | .replaced state => some state
  | .alerted .. | .provided _ => none

/-- The state that a log has reached. -/
def currentOf (initial : LoopState) (log : Log) : LoopState :=
  log.foldl (fun state e => (stateOf e.2).getD state) initial

@[simp] theorem currentOf_nil (initial : LoopState) : currentOf initial [] = initial := rfl

theorem currentOf_concat (initial : LoopState) (log : Log) (e : ℕ × Record) :
    currentOf initial (log ++ [e]) = (stateOf e.2).getD (currentOf initial log) := by
  rw [currentOf, List.foldl_append]
  rfl

/-- The record belongs to the dispatch of an alert. -/
def dispatches : Record → Bool
  | .leased .. | .settled .. | .alerted .. => true
  | .replaced _ | .provided _ => false

/-- How far the worker has got with the dispatch of an alert. -/
def lastDispatch (w : ℕ) (log : Log) : Option Record :=
  log.foldl (fun found e => if e.1 = w ∧ dispatches e.2 = true then some e.2 else found) none

theorem lastDispatch_concat (w : ℕ) (log : Log) (e : ℕ × Record) :
    lastDispatch w (log ++ [e]) =
      if e.1 = w ∧ dispatches e.2 = true then some e.2 else lastDispatch w log := by
  rw [lastDispatch, List.foldl_append]
  rfl

section Digest

-- `hmac_sha256`
variable (hmac : List UInt8 → List UInt8 → ByteVec 32)

/-- The operations that replace the state as a whole, up to its revision. -/
inductive Replaces (before : LoopState) : LoopState → Prop
  | callback {request : Callback.ReferenceLoopRequest} {candidates : List Callback.CallbackCandidate}
      {accepted : List (Callback.CallbackCandidate × ByteVec 32)} {added : List Callback.Evidence}
      (haccepted : Callback.acceptAll hmac before.toDurableState request.configuration candidates
        = .ok accepted)
      (hadded : Callback.evidences request before.toDurableState accepted = .ok added) :
      Replaces before (Loop.callbackAfter added before)
  | outbound {configuration : Loop.ReferenceLoopConfiguration} {outbound : Loop.RegisteredOutbound}
      {after : LoopState} (hadmitted : Loop.admitOutbound configuration outbound before = .ok ())
      (hafter : Loop.outboundAfter configuration outbound before = .ok after) :
      Replaces before after
  | retention {configuration : Loop.ReferenceLoopConfiguration} {control : Loop.RetentionControl}
      {receivedAt : Int64} {after : LoopState}
      (hafter : Loop.retentionAfter configuration control receivedAt before = .ok after) :
      Replaces before after
  | serviceWindow {configuration : Loop.ReferenceLoopConfiguration}
      {eventReference priorEventReference : SafeReference} {state : ServiceWindowState}
      {receivedAt : Int64} {after : LoopState}
      (hafter : Loop.serviceWindowAfter configuration eventReference priorEventReference state
        receivedAt before = .ok after) :
      Replaces before after

/-- What one operation does to the state that it finds. -/
inductive Atomic (before : LoopState) : Record → Prop
  | leased {eventReference : SafeReference} {leasedAt : Int64} {front back : List AlertIntent}
      {intent lease : AlertIntent} {after : LoopState}
      (hfind : Kernel.splitFirst (Kernel.leasable eventReference leasedAt) before.outbox
        = some (front, intent, back))
      (hlease : Kernel.leaseIntent intent leasedAt = .ok lease)
      (hafter : Kernel.withOutbox before (front ++ lease :: back) = .ok after) :
      Atomic before (.leased lease after)
  | settled {eventReference : SafeReference} {leaseFence : UInt64} {front back : List AlertIntent}
      {intent : AlertIntent} {after : LoopState}
      (hfind : Kernel.splitFirst (Kernel.settleable eventReference leaseFence) before.outbox
        = some (front, intent, back))
      (hafter : Kernel.withOutbox before (front ++ Kernel.settleIntent intent :: back)
        = .ok after) :
      Atomic before (.settled eventReference leaseFence after)
  | replaced {after : LoopState} {revision : UInt64} (hafter : Replaces hmac before after)
      (hrevision : checkedSucc before.revision = some revision) :
      Atomic before (.replaced { after with revision })

/-- What is captured of a lease. -/
def captureOf (lease : AlertIntent) : AlertCapture :=
  ⟨lease.eventReference, lease.isMatched, lease.safeTimestamp⟩

/-- It is the worker's turn for the record: it captures what it has just leased, and settles what it
has just captured. -/
def Turn (w : ℕ) (log : Log) : Record → Prop
  | .alerted capture leaseFence _ => ∃ lease state,
      lastDispatch w log = some (.leased lease state) ∧ capture = captureOf lease ∧
        leaseFence = lease.leaseFence
  | .settled eventReference leaseFence _ => ∃ capture observedAt,
      lastDispatch w log = some (.alerted capture leaseFence observedAt) ∧
        capture.eventReference = eventReference
  | .leased .. | .replaced _ | .provided _ => True

/-- A worker may add the record to the log. -/
structure Legal (initial : LoopState) (log : Log) (e : ℕ × Record) : Prop where
  turn : Turn e.1 log e.2
  atomic : (stateOf e.2).isSome → Atomic hmac (currentOf initial log) e.2
  eligible : ∀ capture leaseFence observedAt, e.2 = .alerted capture leaseFence observedAt →
    (currentOf initial log).outbox.any
      (Kernel.eligible capture.eventReference leaseFence observedAt) = true

variable {hmac} {initial : LoopState} {log : Log}

theorem withOutbox_eq_ok {before after : LoopState} {outbox : List AlertIntent} :
    Kernel.withOutbox before outbox = .ok after ↔
      ∃ revision, checkedSucc before.revision = some revision ∧
        { before with outbox, revision } = after := by
  unfold Kernel.withOutbox
  rw [orError_bind_eq_ok]
  exact exists_congr fun revision => and_congr_right fun _ =>
    ⟨fun h => Except.ok.inj h, fun h => congrArg Except.ok h⟩

theorem splitFirst_eq_some {α : Type} {p : α → Bool} {xs front back : List α} {x : α}
    (h : Kernel.splitFirst p xs = some (front, x, back)) : xs = front ++ x :: back ∧ p x = true := by
  induction xs generalizing front with
  | nil => cases h
  | cons y ys ih =>
    rw [Kernel.splitFirst] at h
    split_ifs at h with hy
    · cases h
      exact ⟨rfl, hy⟩
    · obtain ⟨⟨ys₁, z, ys₂⟩, hq, heq⟩ := Option.map_eq_some_iff.1 h
      cases heq
      obtain ⟨hys, hx⟩ := ih hq
      exact ⟨by rw [hys, List.cons_append], hx⟩

/-- What a lease changes of its intent. -/
theorem leaseIntent_eq_ok {intent lease : AlertIntent} {leasedAt : Int64}
    (h : Kernel.leaseIntent intent leasedAt = .ok lease) :
    ∃ leaseFence leaseExpiresAt dispatchAttempts,
      checkedSucc intent.leaseFence = some leaseFence ∧
      Checked.checkedAdd leasedAt 60 = some leaseExpiresAt ∧
      ofNat? (intent.dispatchAttempts.toNat + 1) = some dispatchAttempts ∧
      lease = { intent with
        leased := true
        leaseFence
        leaseExpiresAt := some leaseExpiresAt.toInt
        dispatchAttempts
        ambiguousDispatch := intent.ambiguousDispatch || intent.leased } := by
  unfold Kernel.leaseIntent at h
  obtain ⟨leaseFence, hfence, h⟩ := orError_bind_eq_ok.1 h
  obtain ⟨leaseExpiresAt, hexpires, h⟩ := orError_bind_eq_ok.1 h
  obtain ⟨dispatchAttempts, hattempts, h⟩ := orError_bind_eq_ok.1 h
  exact ⟨_, _, _, hfence, hexpires, hattempts, (Except.ok.inj h).symm⟩

theorem eventReference_of_leasable {eventReference : SafeReference} {leasedAt : Int64}
    {intent : AlertIntent} (h : Kernel.leasable eventReference leasedAt intent = true) :
    intent.eventReference = eventReference := by
  rw [Kernel.leasable, Bool.and_eq_true, Bool.and_eq_true, beq_iff_eq] at h
  exact h.1.1

/-- Every operation takes the next revision. -/
theorem Atomic.revision {before after : LoopState} {record : Record}
    (h : Atomic hmac before record) (hstate : stateOf record = some after) :
    after.revision.toNat = before.revision.toNat + 1 := by
  cases h with
  | leased hfind hlease hafter =>
    cases hstate
    obtain ⟨revision, hrevision, rfl⟩ := withOutbox_eq_ok.1 hafter
    exact checkedSucc_eq_some.1 hrevision
  | settled hfind hafter =>
    cases hstate
    obtain ⟨revision, hrevision, rfl⟩ := withOutbox_eq_ok.1 hafter
    exact checkedSucc_eq_some.1 hrevision
  | replaced hafter hrevision =>
    cases hstate
    exact checkedSucc_eq_some.1 hrevision

/-- The replacements in a log. -/
def replacements (log : Log) : ℕ := log.countP fun e => (stateOf e.2).isSome

theorem replacements_concat (log : Log) (e : ℕ × Record) :
    replacements (log ++ [e]) = replacements log + if (stateOf e.2).isSome then 1 else 0 := by
  rw [replacements, List.countP_append, List.countP_singleton]
  rfl

/-- **The revision counts the replacements.** -/
theorem revision_currentOf (h : Everywhere (Legal hmac initial) log) :
    (currentOf initial log).revision.toNat = initial.revision.toNat + replacements log := by
  refine h.induct (I := fun log => (currentOf initial log).revision.toNat =
    initial.revision.toNat + replacements log) rfl ?_
  intro log e _ hlegal ih
  rw [currentOf_concat, replacements_concat]
  cases hstate : stateOf e.2 with
  | none =>
    rw [Option.getD_none, ih]
    rfl
  | some state =>
    have hsome : (stateOf e.2).isSome := by rw [hstate]; rfl
    rw [Option.getD_some, (hlegal.atomic hsome).revision hstate, ih]
    rfl

/-- A log without replacements has reached nothing new. -/
theorem currentOf_append_of_replacements {front back : Log}
    (h : replacements (front ++ back) = replacements front) :
    currentOf initial (front ++ back) = currentOf initial front := by
  induction back using List.reverseRecOn with
  | nil => rw [List.append_nil]
  | append_singleton back e ih =>
    have hle : replacements front ≤ replacements (front ++ back) := by
      rw [replacements, replacements, List.countP_append]
      omega
    rw [← List.append_assoc] at h ⊢
    rw [replacements_concat] at h
    rw [currentOf_concat, ih (by omega)]
    split_ifs at h with hstate
    · omega
    · rw [Bool.not_eq_true, Option.isSome_eq_false_iff, Option.isNone_iff_eq_none] at hstate
      rw [hstate]
      rfl

/-- The state was in place at some point of the log. -/
def Known (initial : LoopState) (log : Log) (state : LoopState) : Prop :=
  ∃ front back, log = front ++ back ∧ currentOf initial front = state

theorem Known.append {state : LoopState} (h : Known initial log state) (more : Log) :
    Known initial (log ++ more) state := by
  obtain ⟨front, back, rfl, hstate⟩ := h
  exact ⟨front, back ++ more, List.append_assoc .., hstate⟩

theorem known_currentOf : Known initial log (currentOf initial log) :=
  ⟨log, [], (List.append_nil log).symm, rfl⟩

/-- **A state is known by its revision.**  So a replacement under the revision of a state that was
read is one of this state, whatever happened in between. -/
theorem currentOf_eq_of_revision (h : Everywhere (Legal hmac initial) log) {state : LoopState}
    (hknown : Known initial log state)
    (hrevision : state.revision = (currentOf initial log).revision) :
    currentOf initial log = state := by
  obtain ⟨front, back, rfl, rfl⟩ := hknown
  have hfront := revision_currentOf h.front
  have hall := revision_currentOf h
  rw [hrevision] at hfront
  exact currentOf_append_of_replacements (by omega)

end Digest

end Ledger

end MsgRiver.PhaseZero
