import Mathlib.Algebra.BigOperators.Group.Finset.Basic
import Mathlib.Algebra.BigOperators.Group.Finset.Piecewise
import Mathlib.Algebra.Order.BigOperators.Group.Finset
import MsgRiver.PhaseZero.Evidence

/-!
# Leases and alerts

An alert goes out under a lease of its intent, and the intent is settled when the alert is out.
Workers can stop between these steps, and another worker can take the lease over when it has run
out.  For a history of all workers:

* `alerts_accounted`: there are at most as many settlements as alerts and at most as many alerts as
  leases, for each worker; the leases are counted by the fences of the stored intents, and the
  settlements by those that are delivered;
* `alerts_fenced`: where an event has one intent, a later alert has a greater fence than an earlier
  one, follows a lease that was taken when the earlier one had run out, and leaves its mark on the
  intent; after a settlement there is none.
-/

namespace MsgRiver.PhaseZero

open Bytes Result History

namespace Lease

open Ledger Evidence

/-! ### Records of an event -/

/-- The record leases an intent of the event. -/
def isLease (r : SafeReference) : Record → Bool
  | .leased lease _ => lease.eventReference == r
  | .settled .. | .replaced _ | .alerted .. | .provided _ => false

/-- The record lets out an alert of the event. -/
def isAlert (r : SafeReference) : Record → Bool
  | .alerted capture _ _ => capture.eventReference == r
  | .leased .. | .settled .. | .replaced _ | .provided _ => false

/-- The record settles the event. -/
def isSettlement (r : SafeReference) : Record → Bool
  | .settled eventReference _ _ => eventReference == r
  | .leased .. | .alerted .. | .replaced _ | .provided _ => false

/-- How many records of the kind a log has. -/
def count (p : Record → Bool) (log : Log) : ℕ := log.countP fun e => p e.2

/-- How many of them are by the worker. -/
def countBy (w : ℕ) (p : Record → Bool) (log : Log) : ℕ := log.countP fun e => e.1 == w && p e.2

theorem count_concat (p : Record → Bool) (log : Log) (e : ℕ × Record) :
    count p (log ++ [e]) = count p log + if p e.2 then 1 else 0 := by
  rw [count, List.countP_append, List.countP_singleton]
  rfl

theorem countBy_concat (w : ℕ) (p : Record → Bool) (log : Log) (e : ℕ × Record) :
    countBy w p (log ++ [e]) = countBy w p log + if e.1 == w && p e.2 then 1 else 0 := by
  rw [countBy, List.countP_append, List.countP_singleton]
  rfl

theorem count_append (p : Record → Bool) (log more : Log) :
    count p (log ++ more) = count p log + count p more := List.countP_append ..

theorem count_cons_of_not {p : Record → Bool} {e : ℕ × Record} (log : Log) (h : p e.2 = false) :
    count p (e :: log) = count p log :=
  List.countP_cons_of_neg (by rw [h]; exact nofun)

/-- Each record is by one worker. -/
theorem count_eq_sum (p : Record → Bool) (log : Log) {workers : Finset ℕ}
    (h : ∀ e ∈ log, e.1 ∈ workers) : count p log = ∑ w ∈ workers, countBy w p log := by
  induction log with
  | nil => simp [count, countBy]
  | cons e log ih =>
    rw [List.forall_mem_cons] at h
    have hhead : (∑ w ∈ workers, if e.1 == w && p e.2 then 1 else 0) = if p e.2 then 1 else 0 := by
      cases p e.2 <;> simp [h.1]
    have htail := ih h.2
    rw [count] at htail
    simp only [count, countBy, List.countP_cons, Finset.sum_add_distrib, hhead, htail]

/-! ### What a record does to the outbox -/

/-- The outbox before a record, the record and the outbox after it. -/
inductive Moved : List AlertIntent → Record → List AlertIntent → Prop
  | leased {front back : List AlertIntent} {intent lease : AlertIntent} {state : LoopState}
      {leasedAt : Int64} (hleasable : Kernel.leasable lease.eventReference leasedAt intent = true)
      (hlease : Kernel.leaseIntent intent leasedAt = .ok lease) :
      Moved (front ++ intent :: back) (.leased lease state) (front ++ lease :: back)
  | settled {front back : List AlertIntent} {intent : AlertIntent} {eventReference : SafeReference}
      {leaseFence : UInt64} {state : LoopState}
      (hsettleable : Kernel.settleable eventReference leaseFence intent = true) :
      Moved (front ++ intent :: back) (.settled eventReference leaseFence state)
        (front ++ Kernel.settleIntent intent :: back)
  | replaced {outbox fresh : List AlertIntent} {state : LoopState}
      (hfresh : ∀ intent ∈ fresh, Fresh intent) : Moved outbox (.replaced state) (outbox ++ fresh)
  | alerted {outbox : List AlertIntent} {capture : AlertCapture} {leaseFence : UInt64}
      {observedAt : Int64}
      (heligible : outbox.any (Kernel.eligible capture.eventReference leaseFence observedAt) = true) :
      Moved outbox (.alerted capture leaseFence observedAt) outbox
  | provided {outbox : List AlertIntent} {capture : ProviderCapture} :
      Moved outbox (.provided capture) outbox

theorem Moved.mem_lease {xs ys : List AlertIntent} {lease : AlertIntent} {state : LoopState}
    (h : Moved xs (.leased lease state) ys) : lease ∈ ys := by
  cases h with
  | leased hleasable hlease => exact List.mem_append_right _ List.mem_cons_self

/-- A lease is taken on an intent that had none, or whose lease had run out. -/
theorem Moved.exists_leasable {xs ys : List AlertIntent} {lease : AlertIntent} {state : LoopState}
    (h : Moved xs (.leased lease state) ys) :
    ∃ intent ∈ xs, ∃ leasedAt, Kernel.leasable lease.eventReference leasedAt intent = true ∧
      Kernel.leaseIntent intent leasedAt = .ok lease := by
  cases h with
  | leased hleasable hlease =>
    exact ⟨_, List.mem_append_right _ List.mem_cons_self, _, hleasable, hlease⟩

theorem Moved.exists_settled {xs ys : List AlertIntent} {r : SafeReference} {leaseFence : UInt64}
    {state : LoopState} (h : Moved xs (.settled r leaseFence state) ys) :
    ∃ intent ∈ ys, intent.eventReference = r ∧ intent.delivered = true := by
  cases h with
  | @settled front back intent _ _ _ hsettleable =>
    rw [Kernel.settleable, Bool.and_eq_true, Bool.and_eq_true, Bool.and_eq_true,
      beq_iff_eq] at hsettleable
    exact ⟨Kernel.settleIntent intent, List.mem_append_right _ List.mem_cons_self,
      hsettleable.1.1.1, rfl⟩

/-- A step of a dispatch finds an intent of its event that is not delivered. -/
theorem Moved.exists_undelivered {xs ys : List AlertIntent} {record : Record} (r : SafeReference)
    (h : Moved xs record ys)
    (hrecord : isLease r record = true ∨ isAlert r record = true ∨ isSettlement r record = true) :
    ∃ intent ∈ xs, intent.eventReference = r ∧ intent.delivered = false := by
  cases h with
  | @leased front back intent lease state leasedAt hleasable hlease =>
    have hr : lease.eventReference = r := by simpa [isLease, isAlert, isSettlement] using hrecord
    refine ⟨intent, List.mem_append_right _ List.mem_cons_self,
      (eventReference_of_leasable hleasable).trans hr, ?_⟩
    rw [Kernel.leasable, Bool.and_eq_true, Bool.and_eq_true, Bool.not_eq_true'] at hleasable
    exact hleasable.1.2
  | @settled front back intent eventReference leaseFence state hsettleable =>
    have hr : eventReference = r := by simpa [isLease, isAlert, isSettlement] using hrecord
    rw [Kernel.settleable, Bool.and_eq_true, Bool.and_eq_true, Bool.and_eq_true, beq_iff_eq,
      Bool.not_eq_true'] at hsettleable
    exact ⟨intent, List.mem_append_right _ List.mem_cons_self, hsettleable.1.1.1.trans hr,
      hsettleable.1.2⟩
  | @alerted _ capture leaseFence observedAt heligible =>
    have hr : capture.eventReference = r := by simpa [isLease, isAlert, isSettlement] using hrecord
    obtain ⟨intent, hmem, heligible⟩ := List.any_eq_true.1 heligible
    rw [Kernel.eligible, Bool.and_eq_true, Bool.and_eq_true, Bool.and_eq_true, Bool.and_eq_true,
      beq_iff_eq, Bool.not_eq_true'] at heligible
    exact ⟨intent, hmem, heligible.1.1.1.1.trans hr, heligible.1.1.2⟩
  | replaced | provided => rcases hrecord with h | h | h <;> cases h

/-! ### What the outbox counts -/

/-- The sum of the fences of an event. -/
def fences (r : SafeReference) (outbox : List AlertIntent) : ℕ :=
  (outbox.map fun intent => if intent.eventReference == r then intent.leaseFence.toNat else 0).sum

/-- How many intents of an event are delivered. -/
def deliveries (r : SafeReference) (outbox : List AlertIntent) : ℕ :=
  outbox.countP fun intent => intent.eventReference == r && intent.delivered

theorem fences_append (r : SafeReference) (xs ys : List AlertIntent) :
    fences r (xs ++ ys) = fences r xs + fences r ys := by
  rw [fences, List.map_append, List.sum_append]
  rfl

theorem fences_cons (r : SafeReference) (intent : AlertIntent) (xs : List AlertIntent) :
    fences r (intent :: xs) =
      (if intent.eventReference == r then intent.leaseFence.toNat else 0) + fences r xs := by
  rw [fences, List.map_cons, List.sum_cons]
  rfl

theorem fences_fresh (r : SafeReference) {fresh : List AlertIntent}
    (h : ∀ intent ∈ fresh, Fresh intent) : fences r fresh = 0 := by
  induction fresh with
  | nil => rfl
  | cons intent fresh ih =>
    rw [List.forall_mem_cons] at h
    rw [fences_cons, ih h.2, h.1.leaseFence]
    split_ifs <;> rfl

theorem deliveries_fresh (r : SafeReference) {fresh : List AlertIntent}
    (h : ∀ intent ∈ fresh, Fresh intent) : deliveries r fresh = 0 := by
  rw [deliveries, List.countP_eq_zero]
  intro intent hintent
  rw [(h intent hintent).delivered, Bool.and_false]
  exact nofun

/-- **A lease raises one fence by one.** -/
theorem fences_moved (r : SafeReference) {xs ys : List AlertIntent} {record : Record}
    (h : Moved xs record ys) : fences r ys = fences r xs + if isLease r record then 1 else 0 := by
  cases h with
  | @leased front back intent lease state leasedAt hleasable hlease =>
    obtain ⟨leaseFence, _, _, hfence, -, -, rfl⟩ := leaseIntent_eq_ok hlease
    have hsucc := checkedSucc_eq_some.1 hfence
    by_cases hr : intent.eventReference = r
    · simp only [fences_append, fences_cons, isLease, hr, beq_self_eq_true, if_true, hsucc]
      omega
    · simp [fences_append, fences_cons, isLease, hr]
  | settled hsettleable =>
    simp only [fences_append, fences_cons, isLease, Kernel.settleIntent]
    rfl
  | replaced hfresh =>
    rw [fences_append, fences_fresh r hfresh]
    rfl
  | alerted heligible => rfl
  | provided => rfl

/-- **A settlement delivers one intent.** -/
theorem deliveries_moved (r : SafeReference) {xs ys : List AlertIntent} {record : Record}
    (h : Moved xs record ys) :
    deliveries r ys = deliveries r xs + if isSettlement r record then 1 else 0 := by
  cases h with
  | @leased front back intent lease state leasedAt hleasable hlease =>
    obtain ⟨_, _, _, -, -, -, rfl⟩ := leaseIntent_eq_ok hlease
    simp only [deliveries, List.countP_append, List.countP_cons, isSettlement]
    rfl
  | @settled front back intent eventReference leaseFence state hsettleable =>
    rw [Kernel.settleable, Bool.and_eq_true, Bool.and_eq_true, Bool.and_eq_true, beq_iff_eq,
      Bool.not_eq_true'] at hsettleable
    obtain ⟨⟨⟨rfl, -⟩, hnot⟩, -⟩ := hsettleable
    by_cases hr : intent.eventReference = r
    · simp [deliveries, isSettlement, Kernel.settleIntent, hr, hnot, Nat.add_assoc]
    · simp [deliveries, isSettlement, Kernel.settleIntent, hr]
  | replaced hfresh =>
    rw [deliveries, List.countP_append, ← deliveries, ← deliveries, deliveries_fresh r hfresh]
    rfl
  | alerted heligible => rfl
  | provided => rfl

/-! ### Events with one intent -/

/-- At most one intent is for the event. -/
def Unique (r : SafeReference) (outbox : List AlertIntent) : Prop :=
  outbox.countP (fun intent => intent.eventReference == r) ≤ 1

theorem fences_eq_zero (r : SafeReference) {xs : List AlertIntent}
    (h : xs.countP (fun intent => intent.eventReference == r) = 0) : fences r xs = 0 := by
  induction xs with
  | nil => rfl
  | cons intent xs ih =>
    rw [List.countP_cons] at h
    rw [fences_cons, ih (by omega), if_neg]
    intro hr
    rw [if_pos hr] at h
    omega

/-- Where the event has one intent, its fence is the sum. -/
theorem Unique.fences_eq {r : SafeReference} {xs : List AlertIntent} (h : Unique r xs)
    {intent : AlertIntent} (hmem : intent ∈ xs) (hr : intent.eventReference = r) :
    fences r xs = intent.leaseFence.toNat := by
  obtain ⟨front, back, rfl⟩ := List.append_of_mem hmem
  rw [Unique, List.countP_append, List.countP_cons, if_pos (beq_iff_eq.2 hr)] at h
  rw [fences_append, fences_cons, if_pos (beq_iff_eq.2 hr), fences_eq_zero r (by omega),
    fences_eq_zero r (by omega), Nat.zero_add, Nat.add_zero]

theorem Unique.eq {r : SafeReference} {xs : List AlertIntent} (h : Unique r xs)
    {i j : AlertIntent} (hi : i ∈ xs) (hir : i.eventReference = r) (hj : j ∈ xs)
    (hjr : j.eventReference = r) : j = i := by
  obtain ⟨front, back, rfl⟩ := List.append_of_mem hi
  rw [Unique, List.countP_append, List.countP_cons, if_pos (beq_iff_eq.2 hir)] at h
  have hnone : ∀ ys : List AlertIntent, ys.countP (fun i => i.eventReference == r) = 0 → j ∉ ys :=
    fun ys hys hmem => List.countP_eq_zero.1 hys j hmem (beq_iff_eq.2 hjr)
  rcases List.mem_append.1 hj with hfront | hrest
  · exact (hnone front (by omega) hfront).elim
  · rcases List.mem_cons.1 hrest with rfl | hback
    · rfl
    · exact (hnone back (by omega) hback).elim

theorem Unique.earlier {r : SafeReference} {xs ys : List AlertIntent} (h : Unique r ys)
    (hgrows : Grows Later xs ys) : Unique r xs := by
  refine (hgrows.countP_le ?_).trans h
  intro x y hxy hx
  rw [beq_iff_eq] at hx ⊢
  exact hxy.eventReference.trans hx

section Runs

variable {hmac : List UInt8 → List UInt8 → ByteVec 32} {initial : LoopState} {log : Log}
  {e : ℕ × Record}

theorem moved_atomic {before after : LoopState} {record : Record}
    (h : Atomic hmac before record) (hstate : stateOf record = some after) :
    Moved before.outbox record after.outbox := by
  cases h with
  | leased hfind hlease hafter =>
    cases hstate
    obtain ⟨hsplit, hleasable⟩ := splitFirst_eq_some hfind
    obtain ⟨revision, -, rfl⟩ := withOutbox_eq_ok.1 hafter
    have hreference := eventReference_of_leasable hleasable
    have hlater := later_leaseIntent hleasable hlease
    rw [← hreference, ← hlater.eventReference] at hleasable
    rw [hsplit]
    exact .leased hleasable hlease
  | settled hfind hafter =>
    cases hstate
    obtain ⟨hsplit, hsettleable⟩ := splitFirst_eq_some hfind
    obtain ⟨revision, -, rfl⟩ := withOutbox_eq_ok.1 hafter
    rw [hsplit]
    exact .settled hsettleable
  | replaced hreplaces hrevision =>
    cases hstate
    obtain ⟨added, hadmissible, rfl⟩ := exists_extended hreplaces
    exact .replaced hadmissible.outbox

theorem moved_legal (h : Legal hmac initial log e) :
    Moved (currentOf initial log).outbox e.2 (currentOf initial (log ++ [e])).outbox := by
  rw [currentOf_concat]
  obtain ⟨w, record⟩ := e
  cases record with
  | leased lease state => exact moved_atomic (h.atomic rfl) rfl
  | settled eventReference leaseFence state => exact moved_atomic (h.atomic rfl) rfl
  | replaced state => exact moved_atomic (h.atomic rfl) rfl
  | alerted capture leaseFence observedAt => exact .alerted (h.eligible _ _ _ rfl)
  | provided capture => exact .provided

/-! ### One worker -/

/-- The worker's last step of a dispatch was of the kind. -/
def pending (p : Record → Bool) (w : ℕ) (log : Log) : ℕ :=
  if (lastDispatch w log).any p then 1 else 0

theorem lastDispatch_concat_of_ne {w : ℕ} (h : e.1 ≠ w) :
    lastDispatch w (log ++ [e]) = lastDispatch w log := by
  rw [lastDispatch_concat, if_neg fun hboth => h hboth.1]

theorem lastDispatch_concat_self {w : ℕ} {record : Record} :
    lastDispatch w (log ++ [(w, record)]) =
      if dispatches record then some record else lastDispatch w log := by
  rw [lastDispatch_concat]
  simp only [true_and]

theorem countBy_concat_of_ne (p : Record → Bool) {w : ℕ} (h : e.1 ≠ w) :
    countBy w p (log ++ [e]) = countBy w p log := by
  rw [countBy_concat, if_neg, Nat.add_zero]
  simp [h]

theorem countBy_concat_self (p : Record → Bool) (w : ℕ) (record : Record) :
    countBy w p (log ++ [(w, record)]) = countBy w p log + if p record then 1 else 0 := by
  rw [countBy_concat]
  simp

/-- Each record of the second kind has one of the first kind before it. -/
theorem countBy_le {p q : Record → Bool} (hp : ∀ record, p record = true → dispatches record = true)
    (hq : ∀ record, q record = true → dispatches record = true ∧ p record = false)
    (hturn : ∀ log w record, Legal hmac initial log (w, record) → q record = true →
      (lastDispatch w log).any p = true)
    (h : Everywhere (Legal hmac initial) log) (w : ℕ) :
    countBy w q log + pending p w log ≤ countBy w p log := by
  refine h.induct (I := fun log => countBy w q log + pending p w log ≤ countBy w p log)
    (by simp [countBy, pending, lastDispatch]) ?_
  rintro log ⟨v, record⟩ _ hlegal ih
  by_cases hv : v = w
  · subst hv
    rw [countBy_concat_self, countBy_concat_self, pending, lastDispatch_concat_self]
    rw [pending] at ih
    by_cases hqr : q record = true
    · obtain ⟨hdispatches, hpr⟩ := hq record hqr
      rw [if_pos (hturn log v record hlegal hqr)] at ih
      simp only [hqr, hdispatches, hpr, if_true, Option.any_some]
      simpa using ih
    · by_cases hpr : p record = true
      · simp only [hqr, hpr, hp record hpr, if_true, Option.any_some]
        have : countBy v q log ≤ countBy v p log := by omega
        simpa using this
      · cases hdispatches : dispatches record with
        | false => simpa [hqr, hpr] using ih
        | true =>
          have : countBy v q log ≤ countBy v p log := by omega
          simpa [hqr, hpr] using this
  · rw [countBy_concat_of_ne _ hv, countBy_concat_of_ne _ hv, pending, lastDispatch_concat_of_ne hv]
    exact ih

/-- A worker captures an alert only under a lease of its own. -/
theorem alertsBy_le (h : Everywhere (Legal hmac initial) log) (r : SafeReference) (w : ℕ) :
    countBy w (isAlert r) log + pending (isLease r) w log ≤ countBy w (isLease r) log := by
  refine countBy_le ?_ ?_ ?_ h w
  · rintro (_ | _ | _ | _ | _) hp <;> first | rfl | cases hp
  · rintro (_ | _ | _ | _ | _) hq <;> first | exact ⟨rfl, rfl⟩ | cases hq
  · rintro log w (_ | _ | _ | ⟨capture, leaseFence, observedAt⟩ | _) hlegal hq <;> try cases hq
    obtain ⟨lease, state, hlast, rfl, -⟩ := hlegal.turn
    rw [hlast]
    exact hq

/-- A worker settles only an alert that it captured. -/
theorem settlementsBy_le (h : Everywhere (Legal hmac initial) log) (r : SafeReference) (w : ℕ) :
    countBy w (isSettlement r) log + pending (isAlert r) w log ≤ countBy w (isAlert r) log := by
  refine countBy_le ?_ ?_ ?_ h w
  · rintro (_ | _ | _ | _ | _) hp <;> first | rfl | cases hp
  · rintro (_ | _ | _ | _ | _) hq <;> first | exact ⟨rfl, rfl⟩ | cases hq
  · rintro log w (_ | ⟨eventReference, leaseFence, state⟩ | _ | _ | _) hlegal hq <;> try cases hq
    obtain ⟨capture, observedAt, hlast, rfl⟩ := hlegal.turn
    rw [hlast]
    exact hq

/-! ### All workers -/

theorem fences_currentOf (h : Everywhere (Legal hmac initial) log) (r : SafeReference) :
    fences r (currentOf initial log).outbox = fences r initial.outbox + count (isLease r) log := by
  refine h.induct (I := fun log => fences r (currentOf initial log).outbox =
    fences r initial.outbox + count (isLease r) log) rfl ?_
  intro log e _ hlegal ih
  rw [fences_moved r (moved_legal hlegal), ih, count_concat, Nat.add_assoc]

theorem fences_append_currentOf {front back : Log}
    (h : Everywhere (Legal hmac initial) (front ++ back)) (r : SafeReference) :
    fences r (currentOf initial (front ++ back)).outbox =
      fences r (currentOf initial front).outbox + count (isLease r) back := by
  rw [fences_currentOf h, fences_currentOf h.front, count_append, Nat.add_assoc]

theorem deliveries_currentOf (h : Everywhere (Legal hmac initial) log) (r : SafeReference) :
    deliveries r (currentOf initial log).outbox =
      deliveries r initial.outbox + count (isSettlement r) log := by
  refine h.induct (I := fun log => deliveries r (currentOf initial log).outbox =
    deliveries r initial.outbox + count (isSettlement r) log) rfl ?_
  intro log e _ hlegal ih
  rw [deliveries_moved r (moved_legal hlegal), ih, count_concat, Nat.add_assoc]

/-- What holds of each worker holds of all. -/
theorem count_le_of_countBy {p q : Record → Bool} (h : ∀ w, countBy w q log ≤ countBy w p log) :
    count q log ≤ count p log := by
  have hworkers : ∀ e ∈ log, e.1 ∈ (log.map Prod.fst).toFinset := fun e he =>
    List.mem_toFinset.2 (List.mem_map_of_mem he)
  rw [count_eq_sum q log hworkers, count_eq_sum p log hworkers]
  exact Finset.sum_le_sum fun w _ => h w

/-- **Alerts are accounted for.**  After any run of the workers on a store, for each event: every
settlement has an alert and every alert a lease of the same worker; the fences of the stored intents
have grown by the leases, and the delivered intents by the settlements.  So no intent is taken for
delivered without an alert of its event, and no more alerts are let out than fences. -/
theorem alerts_accounted {bytes : List UInt8} (h : Snapshot.encodeState initial = .ok bytes)
    (moves : List (Move Loop.Task StoreFate)) (r : SafeReference) :
    ∃ state, Snapshot.decodeState (Serial.outcome hmac bytes moves).snapshot = .ok state ∧
      (∀ w, countBy w (isSettlement r) (Serial.outcome hmac bytes moves).log ≤
          countBy w (isAlert r) (Serial.outcome hmac bytes moves).log ∧
        countBy w (isAlert r) (Serial.outcome hmac bytes moves).log ≤
          countBy w (isLease r) (Serial.outcome hmac bytes moves).log) ∧
      deliveries r state.outbox ≤
        deliveries r initial.outbox + count (isAlert r) (Serial.outcome hmac bytes moves).log ∧
      fences r initial.outbox + count (isAlert r) (Serial.outcome hmac bytes moves).log ≤
        fences r state.outbox := by
  have hinv : Serial.Inv hmac initial _ := Serial.run_inv h moves
  have hsettlements := settlementsBy_le hinv.legal r
  have halerts := alertsBy_le hinv.legal r
  have hsettled : count (isSettlement r) (Serial.outcome hmac bytes moves).log ≤ _ :=
    count_le_of_countBy fun w => (Nat.le_add_right ..).trans (hsettlements w)
  have halerted : count (isAlert r) (Serial.outcome hmac bytes moves).log ≤ _ :=
    count_le_of_countBy fun w => (Nat.le_add_right ..).trans (halerts w)
  refine ⟨_, hinv.snapshot, fun w => ⟨?_, ?_⟩, ?_, ?_⟩
  · exact (Nat.le_add_right ..).trans (hsettlements w)
  · exact (Nat.le_add_right ..).trans (halerts w)
  · rw [deliveries_currentOf hinv.legal]
    omega
  · rw [fences_currentOf hinv.legal]
    omega

theorem alerts_accounted_takeover :
    ∃ state, Snapshot.decodeState (Serial.outcome Sha256.hmacSha256 Serial.sampleBytes
        Serial.takeover).snapshot = .ok state ∧
      (∀ w, countBy w (isSettlement Serial.sampleEvent) (Serial.outcome Sha256.hmacSha256
          Serial.sampleBytes Serial.takeover).log ≤ countBy w (isAlert Serial.sampleEvent)
            (Serial.outcome Sha256.hmacSha256 Serial.sampleBytes Serial.takeover).log ∧
        countBy w (isAlert Serial.sampleEvent) (Serial.outcome Sha256.hmacSha256
          Serial.sampleBytes Serial.takeover).log ≤ countBy w (isLease Serial.sampleEvent)
            (Serial.outcome Sha256.hmacSha256 Serial.sampleBytes Serial.takeover).log) ∧
      deliveries Serial.sampleEvent state.outbox ≤
        deliveries Serial.sampleEvent Serial.sampleState.outbox + count (isAlert Serial.sampleEvent)
          (Serial.outcome Sha256.hmacSha256 Serial.sampleBytes Serial.takeover).log ∧
      fences Serial.sampleEvent Serial.sampleState.outbox + count (isAlert Serial.sampleEvent)
          (Serial.outcome Sha256.hmacSha256 Serial.sampleBytes Serial.takeover).log ≤
        fences Serial.sampleEvent state.outbox :=
  alerts_accounted Serial.encodeState_sampleState Serial.takeover Serial.sampleEvent

/-! ### Two alerts of one event -/

/-- The worker of the last lease. -/
def lastLease (r : SafeReference) (log : Log) : Option ℕ :=
  log.foldl (fun found e => if isLease r e.2 then some e.1 else found) none

theorem lastLease_concat (r : SafeReference) (log : Log) (e : ℕ × Record) :
    lastLease r (log ++ [e]) = if isLease r e.2 then some e.1 else lastLease r log := by
  rw [lastLease, List.foldl_append]
  rfl

theorem lastLease_append {r : SafeReference} {more : Log} (h : count (isLease r) more = 0) :
    lastLease r (log ++ more) = lastLease r log := by
  induction more using List.reverseRecOn with
  | nil => rw [List.append_nil]
  | append_singleton more e ih =>
    rw [count_concat] at h
    rw [← List.append_assoc, lastLease_concat, if_neg, ih (by omega)]
    intro hlease
    rw [if_pos hlease] at h
    omega

theorem lastDispatch_append {w : ℕ} {more : Log} {record : Record}
    (h : lastDispatch w (log ++ more) = some record) :
    (w, record) ∈ more ∨ lastDispatch w log = some record := by
  induction more using List.reverseRecOn with
  | nil =>
    rw [List.append_nil] at h
    exact .inr h
  | append_singleton more e ih =>
    rw [← List.append_assoc, lastDispatch_concat] at h
    split_ifs at h with hlast
    · cases h
      rw [← hlast.1]
      exact .inl (List.mem_append_right _ (List.mem_singleton_self _))
    · exact (ih h).imp_left (List.mem_append_left _)

theorem unique_earlier {front back : Log} {r : SafeReference}
    (h : Everywhere (Legal hmac initial) (front ++ back))
    (hunique : Unique r (currentOf initial (front ++ back)).outbox) :
    Unique r (currentOf initial front).outbox :=
  hunique.earlier (retains_currentOf h).outbox

/-- A worker whose lease has the last fence took the last lease. -/
theorem lastLease_of_fence (h : Everywhere (Legal hmac initial) log) {r : SafeReference}
    (hunique : Unique r (currentOf initial log).outbox) {w : ℕ} {lease : AlertIntent}
    {state : LoopState} (hlast : lastDispatch w log = some (.leased lease state))
    (hr : lease.eventReference = r) :
    lease.leaseFence.toNat ≤ fences r (currentOf initial log).outbox ∧
      (lease.leaseFence.toNat = fences r (currentOf initial log).outbox →
        lastLease r log = some w) := by
  revert hunique hlast
  refine h.induct (I := fun log => Unique r (currentOf initial log).outbox →
    lastDispatch w log = some (.leased lease state) →
    lease.leaseFence.toNat ≤ fences r (currentOf initial log).outbox ∧
      (lease.leaseFence.toNat = fences r (currentOf initial log).outbox →
        lastLease r log = some w)) (fun _ => nofun) ?_
  intro log e hall hlegal ih hunique hlast
  have hmoved := fences_moved r (moved_legal hlegal)
  rw [lastDispatch_concat] at hlast
  rw [lastLease_concat]
  split_ifs at hlast with hmine
  · obtain ⟨v, record⟩ := e
    cases hlast
    have hlease : isLease r (.leased lease state) = true := beq_iff_eq.2 hr
    have hin : lease ∈ (currentOf initial (log ++ [(v, .leased lease state)])).outbox :=
      (moved_legal hlegal).mem_lease
    rw [hunique.fences_eq hin hr]
    refine ⟨le_rfl, fun _ => ?_⟩
    rw [if_pos hlease, hmine.1]
  · obtain ⟨hle, hlatest⟩ := ih (unique_earlier (hall.concat hlegal) hunique) hlast
    rw [hmoved]
    by_cases hlease : isLease r e.2 = true
    · rw [if_pos hlease]
      exact ⟨by omega, fun heq => by omega⟩
    · rw [if_neg hlease, if_neg hlease]
      exact ⟨hle, hlatest⟩

/-- An alert is captured while its intent is leased under the fence and the lease has not run out. -/
theorem exists_eligible {w : ℕ} {capture : AlertCapture} {leaseFence : UInt64} {observedAt : Int64}
    (h : Legal hmac initial log (w, .alerted capture leaseFence observedAt)) :
    ∃ intent ∈ (currentOf initial log).outbox, intent.eventReference = capture.eventReference ∧
      intent.leased = true ∧ intent.delivered = false ∧ intent.leaseFence = leaseFence ∧
      ∃ expires, intent.leaseExpiresAt = some expires ∧ observedAt.toInt < expires := by
  obtain ⟨intent, hmem, heligible⟩ := List.any_eq_true.1 (h.eligible _ _ _ rfl)
  rw [Kernel.eligible, Bool.and_eq_true, Bool.and_eq_true, Bool.and_eq_true, Bool.and_eq_true,
    beq_iff_eq, beq_iff_eq, Bool.not_eq_true'] at heligible
  obtain ⟨⟨⟨⟨hr, hleased⟩, hnot⟩, hfence⟩, hexpires⟩ := heligible
  obtain ⟨expires, hsome, hlt⟩ := (Option.any_eq_true ..).1 hexpires
  exact ⟨intent, hmem, hr, hleased, hnot, hfence, expires, hsome, of_decide_eq_true hlt⟩

/-- The first lease of an event in a log. -/
theorem exists_first_lease {r : SafeReference} {log : Log} (h : count (isLease r) log ≠ 0) :
    ∃ front w lease state back, log = front ++ (w, .leased lease state) :: back ∧
      lease.eventReference = r ∧ count (isLease r) front = 0 := by
  cases hfind : log.find? fun e => isLease r e.2 with
  | none =>
    refine (h ?_).elim
    rw [count, List.countP_eq_zero]
    exact List.find?_eq_none.1 hfind
  | some e =>
    obtain ⟨hlease, front, back, hlog, hfront⟩ := List.find?_eq_some_iff_append.1 hfind
    obtain ⟨w, record⟩ := e
    cases record with
    | leased lease state =>
      refine ⟨front, w, lease, state, back, hlog, beq_iff_eq.1 hlease, ?_⟩
      rw [count, List.countP_eq_zero]
      intro e he
      have hnot := hfront e he
      rw [Bool.not_eq_true'] at hnot
      rw [hnot]
      exact nofun
    | settled | replaced | alerted | provided => cases hlease

/-- Between two alerts of an event somebody takes a lease. -/
theorem lease_between {front mid : Log} {w w' : ℕ} {capture capture' : AlertCapture}
    {leaseFence leaseFence' : UInt64} {observedAt observedAt' : Int64}
    (h : Everywhere (Legal hmac initial)
      (front ++ (w, .alerted capture leaseFence observedAt) :: mid))
    (hnext : Legal hmac initial (front ++ (w, .alerted capture leaseFence observedAt) :: mid)
      (w', .alerted capture' leaseFence' observedAt'))
    (hunique : Unique capture.eventReference (currentOf initial
      (front ++ (w, .alerted capture leaseFence observedAt) :: mid)).outbox)
    (hr : capture'.eventReference = capture.eventReference) :
    leaseFence'.toNat = leaseFence.toNat + count (isLease capture.eventReference) mid ∧
      count (isLease capture.eventReference) mid ≠ 0 := by
  have hlegal : Legal hmac initial front (w, .alerted capture leaseFence observedAt) :=
    h front _ mid rfl
  obtain ⟨i, hi, hir, -, -, hfence, -⟩ := exists_eligible hlegal
  obtain ⟨j, hj, hjr, -, -, hfence', -⟩ := exists_eligible hnext
  have hfront := (unique_earlier h hunique).fences_eq hi hir
  have hall := hunique.fences_eq hj (hjr.trans hr)
  have hcons := count_cons_of_not (e := (w, .alerted capture leaseFence observedAt)) mid
    (show isLease capture.eventReference _ = false from rfl)
  have hcount : leaseFence'.toNat = leaseFence.toNat + count (isLease capture.eventReference) mid := by
    rw [← hfence, ← hfence', ← hfront, ← hall, fences_append_currentOf h, hcons]
  refine ⟨hcount, fun hnone => ?_⟩
  -- without a lease both alerts would be under the last lease before them, so by one worker, which
  -- has to lease again after an alert
  obtain ⟨lease, state, hlast, hcapture, hmine⟩ := hlegal.turn
  obtain ⟨lease', state', hlast', hcapture', hmine'⟩ := hnext.turn
  have hlease : lease.eventReference = capture.eventReference := by rw [hcapture]; rfl
  have hlease' : lease'.eventReference = capture.eventReference := by rw [← hr, hcapture']; rfl
  have hw : lastLease capture.eventReference front = some w := by
    refine (lastLease_of_fence h.front (unique_earlier h hunique) hlast hlease).2 ?_
    rw [hfront, hfence, hmine]
  have hw' : lastLease capture.eventReference
      (front ++ (w, .alerted capture leaseFence observedAt) :: mid) = some w' := by
    refine (lastLease_of_fence h hunique hlast' hlease').2 ?_
    rw [hall, hfence', hmine']
  rw [lastLease_append (hcons.trans hnone), hw] at hw'
  obtain rfl := Option.some.inj hw'
  rw [List.append_cons] at hlast'
  rcases lastDispatch_append hlast' with hmem | hearlier
  · exact List.countP_eq_zero.1 hnone _ hmem (beq_iff_eq.2 hlease')
  · rw [lastDispatch_concat_self] at hearlier
    cases hearlier

/-- Under the lease of an alert, the next lease of the event waits until it has run out. -/
theorem lease_after_alert {front mid : Log} {w v : ℕ} {capture : AlertCapture}
    {leaseFence : UInt64} {observedAt : Int64} {lease : AlertIntent} {state : LoopState}
    (h : Everywhere (Legal hmac initial)
      (front ++ (w, .alerted capture leaseFence observedAt) :: mid))
    (hnext : Legal hmac initial (front ++ (w, .alerted capture leaseFence observedAt) :: mid)
      (v, .leased lease state))
    (hunique : Unique capture.eventReference (currentOf initial
      (front ++ (w, .alerted capture leaseFence observedAt) :: mid)).outbox)
    (hnone : count (isLease capture.eventReference) mid = 0)
    (hr : lease.eventReference = capture.eventReference) :
    ∃ expires, lease.leaseExpiresAt = some expires ∧ observedAt.toInt + 60 < expires := by
  have hlegal : Legal hmac initial front (w, .alerted capture leaseFence observedAt) :=
    h front _ mid rfl
  obtain ⟨i, hi, hir, hleased, -, -, expires, hexpires, hlt⟩ := exists_eligible hlegal
  obtain ⟨j, hj, hij⟩ := (retains_currentOf h).outbox.exists_mem hi
  obtain ⟨x, hx, leasedAt, hleasable, hlease⟩ := (moved_legal hnext).exists_leasable
  have hxr : x.eventReference = capture.eventReference :=
    (eventReference_of_leasable hleasable).trans hr
  have hjr : j.eventReference = capture.eventReference := hij.eventReference.trans hir
  obtain rfl : x = j := hunique.eq hj hjr hx hxr
  rw [Kernel.leasable, Bool.and_eq_true, Bool.and_eq_true, Bool.not_eq_true'] at hleasable
  obtain ⟨⟨-, hnot⟩, hout⟩ := hleasable
  have hfence : x.leaseFence = i.leaseFence := by
    have hfences := fences_append_currentOf h capture.eventReference
    rw [(unique_earlier h hunique).fences_eq hi hir, hunique.fences_eq hx hxr,
      count_cons_of_not mid rfl, hnone] at hfences
    exact UInt64.toNat_inj.1 hfences
  have hsame : x = i := by
    rcases hij.sameFence hfence with hsame | hsettled
    · exact hsame
    · rw [hsettled] at hnot
      cases hnot
  subst hsame
  rw [hleased, hexpires, Bool.not_true, Bool.false_or, Option.any_some, decide_eq_true_eq] at hout
  obtain ⟨_, leaseExpiresAt, _, -, hadd, -, rfl⟩ := leaseIntent_eq_ok hlease
  have hsum : leaseExpiresAt.toInt = leasedAt.toInt + 60 := Checked.ofInt?_eq_some.1 hadd
  exact ⟨_, rfl, by omega⟩

theorem alerts_fenced_of_legal {front mid back : Log} {w w' : ℕ} {capture capture' : AlertCapture}
    {leaseFence leaseFence' : UInt64} {observedAt observedAt' : Int64}
    (h : Everywhere (Legal hmac initial) (front ++ (w, .alerted capture leaseFence observedAt) ::
      (mid ++ (w', .alerted capture' leaseFence' observedAt') :: back)))
    (hr : capture'.eventReference = capture.eventReference)
    (hunique : Unique capture.eventReference (currentOf initial
      (front ++ (w, .alerted capture leaseFence observedAt) ::
        (mid ++ (w', .alerted capture' leaseFence' observedAt') :: back))).outbox) :
    leaseFence.toNat < leaseFence'.toNat ∧
      (∃ v lease taken expires, (v, .leased lease taken) ∈ mid ∧
        lease.eventReference = capture.eventReference ∧ lease.leaseExpiresAt = some expires ∧
          observedAt.toInt + 60 < expires) ∧
      ∃ intent ∈ (currentOf initial (front ++ (w, .alerted capture leaseFence observedAt) ::
          (mid ++ (w', .alerted capture' leaseFence' observedAt') :: back))).outbox,
        intent.eventReference = capture.eventReference ∧ intent.ambiguousDispatch = true := by
  -- the same log, cut before the later alert
  have hcut : front ++ (w, .alerted capture leaseFence observedAt) ::
      (mid ++ (w', .alerted capture' leaseFence' observedAt') :: back) =
        (front ++ (w, .alerted capture leaseFence observedAt) :: mid) ++
          (w', .alerted capture' leaseFence' observedAt') :: back := by
    rw [List.append_assoc, List.cons_append]
  have hall := h
  have hlast := hunique
  rw [hcut] at hall hlast
  obtain ⟨hcount, hne⟩ := lease_between hall.front (hall _ _ back rfl) (unique_earlier hall hlast) hr
  have hlt : leaseFence.toNat < leaseFence'.toNat := by omega
  refine ⟨hlt, ?_, ?_⟩
  · obtain ⟨mid₁, v, lease, taken, mid₂, rfl, hlease, hnone⟩ := exists_first_lease hne
    have hfirst : front ++ (w, .alerted capture leaseFence observedAt) ::
        (mid₁ ++ (v, .leased lease taken) :: mid₂) =
          (front ++ (w, .alerted capture leaseFence observedAt) :: mid₁) ++
            (v, .leased lease taken) :: mid₂ := by
      rw [List.append_assoc, List.cons_append]
    have hbefore := hall.front
    have honce := unique_earlier hall hlast
    rw [hfirst] at hbefore honce
    obtain ⟨expires, hexpires, hout⟩ := lease_after_alert hbefore.front (hbefore _ _ mid₂ rfl)
      (unique_earlier hbefore honce) hnone hlease
    exact ⟨v, lease, taken, expires, List.mem_append_right _ List.mem_cons_self, hlease, hexpires,
      hout⟩
  · obtain ⟨i, hi, hir, hleased, -, hfence, -⟩ := exists_eligible (h front _ _ rfl)
    obtain ⟨j, hj, hij⟩ := (retains_currentOf h).outbox.exists_mem hi
    have hjr : j.eventReference = capture.eventReference := hij.eventReference.trans hir
    refine ⟨j, hj, hjr, hij.marked hleased ?_⟩
    obtain ⟨x, hx, hxr, -, -, hfence', -⟩ := exists_eligible (hall _ _ back rfl)
    have hgrown := fences_append_currentOf hall capture.eventReference
    rw [← hcut, hunique.fences_eq hj hjr,
      (unique_earlier hall hlast).fences_eq hx (hxr.trans hr), hfence'] at hgrown
    rw [hfence]
    omega

/-- **Alerts are fenced.**  After any run of the workers on a store, for an event that has one
intent: of two alerts of the event the later one has the greater fence; in between somebody took a
lease when the one of the earlier alert had run out; and the intent is marked. -/
theorem alerts_fenced {bytes : List UInt8} (h : Snapshot.encodeState initial = .ok bytes)
    (moves : List (Move Loop.Task StoreFate)) {state : LoopState}
    (hstate : Snapshot.decodeState (Serial.outcome hmac bytes moves).snapshot = .ok state)
    {front mid back : Log} {w w' : ℕ} {capture capture' : AlertCapture}
    {leaseFence leaseFence' : UInt64} {observedAt observedAt' : Int64}
    (hlog : (Serial.outcome hmac bytes moves).log =
      front ++ (w, .alerted capture leaseFence observedAt) ::
        (mid ++ (w', .alerted capture' leaseFence' observedAt') :: back))
    (hr : capture'.eventReference = capture.eventReference)
    (hunique : Unique capture.eventReference state.outbox) :
    leaseFence.toNat < leaseFence'.toNat ∧
      (∃ v lease taken expires, (v, .leased lease taken) ∈ mid ∧
        lease.eventReference = capture.eventReference ∧ lease.leaseExpiresAt = some expires ∧
          observedAt.toInt + 60 < expires) ∧
      ∃ intent ∈ state.outbox, intent.eventReference = capture.eventReference ∧
        intent.ambiguousDispatch = true := by
  have hinv : Serial.Inv hmac initial _ := Serial.run_inv h moves
  obtain rfl := Except.ok.inj (hstate.symm.trans hinv.snapshot)
  have hlegal := hinv.legal
  rw [hlog] at hlegal hunique ⊢
  exact alerts_fenced_of_legal hlegal hr hunique

theorem alerts_fenced_takeover :
    (1 : UInt64).toNat < (2 : UInt64).toNat ∧
      (∃ v lease taken expires, (v, .leased lease taken) ∈
          [(1, Record.leased (Serial.sampleLease 2 260 2 true) Serial.sampleLeasedAgain)] ∧
        lease.eventReference = Serial.sampleEvent ∧ lease.leaseExpiresAt = some expires ∧
          (100 : Int64).toInt + 60 < expires) ∧
      ∃ intent ∈ Serial.takenOver.outbox, intent.eventReference = Serial.sampleEvent ∧
        intent.ambiguousDispatch = true := by
  have hlog : (Serial.outcome Sha256.hmacSha256 Serial.sampleBytes Serial.takeover).log =
      [(0, .leased (Serial.sampleLease 1 160 1 false) Serial.sampleLeased)] ++
        (0, .alerted (captureOf Serial.sampleIntent) 1 100) ::
          ([(1, .leased (Serial.sampleLease 2 260 2 true) Serial.sampleLeasedAgain)] ++
            (1, .alerted (captureOf Serial.sampleIntent) 2 200) :: Serial.sampleHistory.drop 4) :=
    Serial.log_takeover
  have hunique : Unique Serial.sampleEvent Serial.takenOver.outbox := by
    rw [Unique]
    decide
  exact alerts_fenced Serial.encodeState_sampleState Serial.takeover Serial.snapshot_takeover hlog
    rfl hunique

/-- **A settlement is final.**  After any run of the workers on a store, for an event that has one
intent: when the event is settled, it is not leased, alerted or settled again. -/
theorem settlement_final {bytes : List UInt8} (h : Snapshot.encodeState initial = .ok bytes)
    (moves : List (Move Loop.Task StoreFate)) {state : LoopState}
    (hstate : Snapshot.decodeState (Serial.outcome hmac bytes moves).snapshot = .ok state)
    {front back : Log} {w : ℕ} {r : SafeReference} {leaseFence : UInt64} {settled : LoopState}
    (hlog : (Serial.outcome hmac bytes moves).log =
      front ++ (w, .settled r leaseFence settled) :: back)
    (hunique : Unique r state.outbox) :
    ∀ e ∈ back, isLease r e.2 = false ∧ isAlert r e.2 = false ∧ isSettlement r e.2 = false := by
  have hinv : Serial.Inv hmac initial _ := Serial.run_inv h moves
  obtain rfl := Except.ok.inj (hstate.symm.trans hinv.snapshot)
  have hlegal := hinv.legal
  rw [hlog] at hlegal hunique
  intro e he
  obtain ⟨back₁, back₂, rfl⟩ := List.append_of_mem he
  rw [List.append_cons, ← List.append_assoc] at hlegal hunique
  -- the settled intent is still there and has not changed
  obtain ⟨i, hi, hir, hdelivered⟩ := (moved_legal hlegal.front.front.last).exists_settled
  obtain ⟨j, hj, hij⟩ := (retains_currentOf hlegal.front).outbox.exists_mem hi
  obtain rfl := hij.delivered hdelivered
  have hidle : ¬(isLease r e.2 = true ∨ isAlert r e.2 = true ∨ isSettlement r e.2 = true) := by
    intro hrecord
    obtain ⟨x, hx, hxr, hnot⟩ :=
      (moved_legal (hlegal _ e back₂ rfl)).exists_undelivered r hrecord
    obtain rfl := (unique_earlier hlegal hunique).eq hj hir hx hxr
    cases hdelivered.symm.trans hnot
  rw [not_or, not_or, Bool.not_eq_true, Bool.not_eq_true, Bool.not_eq_true] at hidle
  exact hidle

theorem settlement_final_takeover :
    ((Serial.sampleHistory.drop 5).all fun e => !isLease Serial.sampleEvent e.2 &&
      !isAlert Serial.sampleEvent e.2 && !isSettlement Serial.sampleEvent e.2) = true := by
  have hlog : (Serial.outcome Sha256.hmacSha256 Serial.sampleBytes Serial.takeover).log =
      Serial.sampleHistory.take 4 ++ (1, .settled Serial.sampleEvent 2 Serial.sampleSettled) ::
        Serial.sampleHistory.drop 5 :=
    Serial.log_takeover
  have hunique : Unique Serial.sampleEvent Serial.takenOver.outbox := by
    rw [Unique]
    decide
  have hfinal := settlement_final Serial.encodeState_sampleState Serial.takeover
    Serial.snapshot_takeover hlog hunique
  rw [List.all_eq_true]
  intro e he
  obtain ⟨hlease, halert, hsettlement⟩ := hfinal e he
  rw [hlease, halert, hsettlement]
  rfl

end Runs

end Lease

end MsgRiver.PhaseZero
