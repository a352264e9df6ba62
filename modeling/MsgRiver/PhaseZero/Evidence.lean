import MsgRiver.PhaseZero.Dedup
import MsgRiver.PhaseZero.Serial

/-!
# What the reference loop retains

The operations of the reference loop add to what was recorded and take nothing back: `extended` is
the state with more evidence, and only the retained reply and the intents of the outbox change.

* `evidence_retained`: between two moments of a run the recorded lists grow at their ends, intents
  only move forward, and the retained reply is what the retention events recorded meanwhile have
  made of it, one event for each change;
* `durable_sound`: the invariant of single states.
-/

namespace MsgRiver.PhaseZero

open Bytes Result History

namespace Evidence

open Ledger

/-! ### What one operation changes -/

/-- The state with the lists of `added` at the end of its own and the reply of `added`. -/
def extended (before added : LoopState) : LoopState :=
  { before with
    receipts := before.receipts ++ added.receipts
    bindings := before.bindings ++ added.bindings
    events := before.events ++ added.events
    outbox := before.outbox ++ added.outbox
    tombstones := before.tombstones ++ added.tombstones
    v1History := before.v1History ++ added.v1History
    outboundPins := before.outboundPins ++ added.outboundPins
    sensitiveReply := added.sensitiveReply
    serviceWindowDispositions := before.serviceWindowDispositions ++ added.serviceWindowDispositions }

/-- The intent was not leased yet. -/
structure Fresh (intent : AlertIntent) : Prop where
  leased : intent.leased = false
  leaseFence : intent.leaseFence = 0
  leaseExpiresAt : intent.leaseExpiresAt = none
  dispatchAttempts : intent.dispatchAttempts = 0
  delivered : intent.delivered = false
  ambiguousDispatch : intent.ambiguousDispatch = false

/-- What a retention request does to the reply, with the event that it records.  The reply goes when
its end has passed (11), by a purge (20) or for zero hours (21); else its end is moved (19). -/
inductive Disposed (s : SensitiveReplyState) (event : EvidenceEvent) :
    Option SensitiveReplyState → Prop
  | removed {number : ℕ} (hkind : event.kind = .retentionDisposition)
      (hnumber : number = 11 ∨ number = 20 ∨ number = 21)
      (hreference : Callback.safeEvent number = .ok event.reference) : Disposed s event none
  | moved {expiresAt : Int64} (hkind : event.kind = .retentionDisposition)
      (hreference : Callback.safeEvent 19 = .ok event.reference)
      (hbound : expiresAt.toInt ≤ s.retainedAt.toInt + 168 * 3600) :
      Disposed s event (some ⟨s.retainedAt, expiresAt, true⟩)

/-- The reply before and after some events: each retention event is one change of it. -/
inductive Replied (reply : Option SensitiveReplyState) :
    List EvidenceEvent → Option SensitiveReplyState → Prop
  | refl : Replied reply [] reply
  | other {events : List EvidenceEvent} {later : Option SensitiveReplyState} {event : EvidenceEvent}
      (h : Replied reply events later) (hkind : event.kind ≠ .retentionDisposition) :
      Replied reply (events ++ [event]) later
  | disposed {events : List EvidenceEvent} {s : SensitiveReplyState} {event : EvidenceEvent}
      {later : Option SensitiveReplyState} (h : Replied reply events (some s))
      (hdisposed : Disposed s event later) : Replied reply (events ++ [event]) later

theorem Disposed.kind {s : SensitiveReplyState} {event : EvidenceEvent}
    {later : Option SensitiveReplyState} (h : Disposed s event later) :
    event.kind = .retentionDisposition := by
  cases h with
  | removed hkind hnumber hreference => exact hkind
  | moved hkind hreference hbound => exact hkind

theorem Replied.trans {a b c : Option SensitiveReplyState} {events more : List EvidenceEvent}
    (h : Replied a events b) (h' : Replied b more c) : Replied a (events ++ more) c := by
  induction h' with
  | refl => rwa [List.append_nil]
  | other _ hkind ih =>
    rw [← List.append_assoc]
    exact .other ih hkind
  | disposed _ hdisposed ih =>
    rw [← List.append_assoc]
    exact .disposed ih hdisposed

theorem replied_others (reply : Option SensitiveReplyState) {events : List EvidenceEvent}
    (h : ∀ event ∈ events, event.kind ≠ .retentionDisposition) : Replied reply events reply := by
  induction events using List.reverseRecOn with
  | nil => exact .refl
  | append_singleton events event ih =>
    rw [List.forall_mem_append, List.forall_mem_singleton] at h
    exact .other (ih h.1) h.2

theorem replied_disposed {s : SensitiveReplyState} {event : EvidenceEvent}
    {later : Option SensitiveReplyState} (h : Disposed s event later) :
    Replied (some s) [event] later :=
  .disposed .refl h

/-- What an operation may add to a state. -/
structure Admissible (before added : LoopState) : Prop where
  outbox : ∀ intent ∈ added.outbox, Fresh intent
  pins : added.outboundPins = [] ∨ ∃ pin, added.outboundPins = [pin] ∧
    ∀ other ∈ before.outboundPins, other.attemptReference ≠ pin.attemptReference
  dispositions : added.serviceWindowDispositions = [] ∨ ∃ disposition prior,
    added.serviceWindowDispositions = [disposition] ∧
      disposition.priorEventReference = some prior ∧
      ∃ other ∈ before.serviceWindowDispositions, other.eventReference = prior
  reply : Replied before.sensitiveReply added.events added.sensitiveReply

theorem foldl_addEvidence (state : DurableState) (added : List Callback.Evidence) :
    added.foldl Callback.addEvidence state = { state with
      receipts := state.receipts ++ added.map Callback.Evidence.receipt
      tombstones := state.tombstones ++ added.map Callback.Evidence.tombstone
      events := state.events ++ added.map Callback.Evidence.event
      outbox := state.outbox ++ added.filterMap Callback.Evidence.alert } := by
  induction added generalizing state with
  | nil => simp
  | cons evidence added ih =>
    rw [List.foldl_cons, ih]
    cases halert : evidence.alert <;> simp [Callback.addEvidence, halert]

theorem statusEventKind_ne {status : String} {kind : EventKind}
    (h : Callback.statusEventKind status = some kind) : kind ≠ .retentionDisposition := by
  rintro rfl
  unfold Callback.statusEventKind at h
  split_ifs at h <;> cases h

theorem fresh_of_eventOf {request : Callback.ReferenceLoopRequest} {after : DurableState}
    {candidate : Callback.CallbackCandidate} {pushed : EvidenceEvent × Option AlertIntent}
    (h : Callback.eventOf request after candidate = .ok pushed) :
    pushed.1.kind ≠ .retentionDisposition ∧ ∀ intent, pushed.2 = some intent → Fresh intent := by
  cases candidate with
  | message id context occurredAt =>
    obtain ⟨reference, -, h⟩ := bind_eq_ok.1 h
    rw [pure_eq_ok] at h
    subst h
    refine ⟨?_, fun intent hintent => ?_⟩
    · dsimp only
      split <;> decide
    · have heq := Option.some.inj hintent
      subst heq
      exact ⟨rfl, rfl, rfl, rfl, rfl, rfl⟩
  | status id kind recipient occurredAt =>
    obtain ⟨_, hkind, h⟩ := orError_bind_eq_ok.1 h
    obtain ⟨_, -, h⟩ := bind_eq_ok.1 h
    cases h
    exact ⟨statusEventKind_ne hkind, fun intent hintent => by cases hintent⟩

theorem fresh_of_evidences {request : Callback.ReferenceLoopRequest} {after : DurableState}
    {accepted : List (Callback.CallbackCandidate × ByteVec 32)} {added : List Callback.Evidence}
    (h : Callback.evidences request after accepted = .ok added) :
    ∀ evidence ∈ added, evidence.event.kind ≠ .retentionDisposition ∧
      ∀ intent, evidence.alert = some intent → Fresh intent := by
  induction accepted generalizing after added with
  | nil =>
    cases h
    exact List.forall_mem_nil _
  | cons p accepted ih =>
    obtain ⟨evidence, hmade, h⟩ := bind_eq_ok.1 h
    obtain ⟨more, hmore, h⟩ := bind_eq_ok.1 h
    cases h
    refine List.forall_mem_cons.2 ⟨?_, ih hmore⟩
    obtain ⟨pushed, hpushed, hevidence⟩ := bind_eq_ok.1 hmade
    cases hevidence
    exact fresh_of_eventOf hpushed

/-- What a provider's answer adds. -/
theorem outboundAfter_eq_ok {configuration : Loop.ReferenceLoopConfiguration}
    {outbound : Loop.RegisteredOutbound} {before after : LoopState}
    (h : Loop.outboundAfter configuration outbound before = .ok after) :
    ∃ event bindings pins history, event.kind ≠ .retentionDisposition ∧ after = extended before
        { events := [event], bindings, outboundPins := pins, v1History := history,
          sensitiveReply := before.sensitiveReply } ∧
      (pins = [] ∨ ∃ pin, pins = [pin] ∧ pin.attemptReference = outbound.attemptReference) := by
  unfold Loop.outboundAfter at h
  cases houtcome : configuration.fakeProviderOutcome with
  | accepted reference =>
    simp only [houtcome] at h
    refine ⟨Loop.outboundEvent outbound outbound.attemptReference before,
      [⟨outbound.senderGeneration, reference⟩],
      [⟨outbound.attemptReference, configuration.senderGeneration, configuration.endpointGeneration,
        configuration.credentialGeneration, configuration.templateAllowlistGeneration⟩], [], (fun h => by cases h),
      (Except.ok.inj h).symm.trans ?_, .inr ⟨_, rfl, rfl⟩⟩
    simp only [extended, Loop.pushEvent, List.append_nil]
  | classified outcome =>
    simp only [houtcome] at h
    obtain ⟨reference, -, h⟩ := bind_eq_ok.1 h
    rw [pure_eq_ok] at h
    refine ⟨Loop.outboundEvent outbound reference before, [], [],
      [.providerOutcome outcome 1 (outcome == .ambiguous)], (fun h => by cases h), h.symm.trans ?_, .inl rfl⟩
    simp only [extended, Loop.pushEvent, List.append_nil]

/-- No attempt that is pinned reaches the provider again. -/
theorem admitOutbound_eq_ok {configuration : Loop.ReferenceLoopConfiguration}
    {outbound : Loop.RegisteredOutbound} {before : LoopState} {u : Unit}
    (h : Loop.admitOutbound configuration outbound before = .ok u) :
    ∀ pin ∈ before.outboundPins, pin.attemptReference ≠ outbound.attemptReference := by
  unfold Loop.admitOutbound at h
  rw [reject_bind_eq_ok] at h
  obtain ⟨-, h⟩ := h
  split at h
  · cases h
  · next hfind =>
    intro pin hpin heq
    have hnot := List.find?_eq_none.1 hfind pin hpin
    exact hnot (beq_iff_eq.2 heq)

theorem extendRetention_eq_ok {configuration : Loop.ReferenceLoopConfiguration}
    {control : Loop.RetentionControl} {requestedHours : UInt16} {sensitive : SensitiveReplyState}
    {before after : LoopState}
    (h : Loop.extendRetention configuration control requestedHours sensitive before = .ok after) :
    ∃ event later, Disposed sensitive event later ∧
      after = extended before { events := [event], sensitiveReply := later } := by
  unfold Loop.extendRetention at h
  rw [reject_bind_eq_ok] at h
  obtain ⟨-, h⟩ := h
  rw [reject_bind_eq_ok] at h
  obtain ⟨hhours, h⟩ := h
  obtain ⟨expiresAt, hexpires, h⟩ := orError_bind_eq_ok.1 h
  obtain ⟨reference, hreference, h⟩ := bind_eq_ok.1 h
  rw [pure_eq_ok] at h
  refine ⟨Loop.retentionEvent configuration reference 2,
    some ⟨sensitive.retainedAt, expiresAt, true⟩, .moved rfl (mapError_eq_ok.1 hreference) ?_,
    h.symm.trans ?_⟩
  · have hle : (control.extensionHours.getD requestedHours).toNat ≤ 168 := by
      have hnot := of_decide_eq_false hhours
      exact Nat.not_lt.1 fun hlt => hnot (UInt16.lt_iff_toNat_lt.2 hlt)
    have hsum : expiresAt.toInt = _ := Checked.ofInt?_eq_some.1 hexpires
    rw [Int64.toInt_ofNat_of_lt (by omega)] at hsum
    push_cast at hsum
    omega
  · simp only [extended, Loop.pushEvent, List.append_nil]

theorem removalNumber_eq_some {control : Loop.RetentionControl} {receivedAt : Int64}
    {sensitive : SensitiveReplyState} {number : ℕ}
    (h : Loop.removalNumber control receivedAt sensitive = some number) :
    number = 11 ∨ number = 20 ∨ number = 21 := by
  unfold Loop.removalNumber at h
  split_ifs at h <;> simp_all

theorem retentionAfter_eq_ok {configuration : Loop.ReferenceLoopConfiguration}
    {control : Loop.RetentionControl} {receivedAt : Int64} {before after : LoopState}
    (h : Loop.retentionAfter configuration control receivedAt before = .ok after) :
    ∃ sensitive event later, before.sensitiveReply = some sensitive ∧
      Disposed sensitive event later ∧
      after = extended before { events := [event], sensitiveReply := later } := by
  unfold Loop.retentionAfter at h
  obtain ⟨sensitive, hsensitive, h⟩ := orError_bind_eq_ok.1 h
  split at h
  · next number _ hremoval =>
    obtain ⟨reference, hreference, h⟩ := bind_eq_ok.1 h
    rw [pure_eq_ok] at h
    refine ⟨sensitive, Loop.retentionEvent configuration reference (Loop.nextReceiptOrder before),
      none, hsensitive, .removed rfl (removalNumber_eq_some hremoval) (mapError_eq_ok.1 hreference),
      h.symm.trans ?_⟩
    simp only [extended, Loop.pushEvent, List.append_nil]
  · exact ⟨sensitive, by simpa [hsensitive] using extendRetention_eq_ok h⟩
  · cases h

theorem serviceWindowAfter_eq_ok {configuration : Loop.ReferenceLoopConfiguration}
    {eventReference priorEventReference : SafeReference} {state : ServiceWindowState}
    {receivedAt : Int64} {before after : LoopState}
    (h : Loop.serviceWindowAfter configuration eventReference priorEventReference state receivedAt
      before = .ok after) :
    (∃ other ∈ before.serviceWindowDispositions, other.eventReference = priorEventReference) ∧
      ∃ event, event.kind ≠ .retentionDisposition ∧ after = extended before
        { events := [event]
          sensitiveReply := before.sensitiveReply
          serviceWindowDispositions := [⟨eventReference, some priorEventReference, state⟩] } := by
  unfold Loop.serviceWindowAfter at h
  rw [reject_bind_eq_ok] at h
  obtain ⟨hprior, h⟩ := h
  rw [pure_eq_ok] at h
  rw [Bool.not_eq_false', List.any_eq_true] at hprior
  obtain ⟨other, hother, heq⟩ := hprior
  refine ⟨⟨other, hother, beq_iff_eq.1 heq⟩,
    ⟨.serviceWindowDisposition, eventReference, configuration.senderGeneration,
      some receivedAt.toInt, Loop.receiptOrderOf before⟩, (fun h => by cases h), h.symm.trans ?_⟩
  simp only [extended, Loop.pushEvent, List.append_nil]

section Digest

variable {hmac : List UInt8 → List UInt8 → ByteVec 32} {before after : LoopState}

/-- **What an operation adds.** -/
theorem exists_extended (h : Replaces hmac before after) :
    ∃ added, Admissible before added ∧ after = extended before added := by
  cases h with
  | @callback request candidates accepted added haccepted hadded =>
    refine ⟨{ receipts := added.map Callback.Evidence.receipt
              tombstones := added.map Callback.Evidence.tombstone
              events := added.map Callback.Evidence.event
              outbox := added.filterMap Callback.Evidence.alert
              sensitiveReply := before.sensitiveReply },
      ⟨?_, .inl rfl, .inl rfl, replied_others _ ?_⟩, ?_⟩
    · intro intent hintent
      obtain ⟨evidence, hevidence, halert⟩ := List.mem_filterMap.1 hintent
      exact (fresh_of_evidences hadded evidence hevidence).2 intent halert
    · intro event hevent
      obtain ⟨evidence, hevidence, rfl⟩ := List.mem_map.1 hevent
      exact (fresh_of_evidences hadded evidence hevidence).1
    · rw [Loop.callbackAfter, foldl_addEvidence]
      simp only [extended, List.append_nil]
  | @outbound configuration outbound _ hadmitted hafter =>
    obtain ⟨event, bindings, pins, history, hkind, rfl, hpins⟩ := outboundAfter_eq_ok hafter
    refine ⟨_, ?_, rfl⟩
    refine ⟨List.forall_mem_nil _, ?_, .inl rfl,
      replied_others _ (List.forall_mem_singleton.2 hkind)⟩
    rcases hpins with rfl | ⟨pin, rfl, hpin⟩
    · exact .inl rfl
    · exact .inr ⟨pin, rfl, by rw [hpin]; exact admitOutbound_eq_ok hadmitted⟩
  | retention hafter =>
    obtain ⟨sensitive, event, later, hsensitive, hdisposed, rfl⟩ := retentionAfter_eq_ok hafter
    refine ⟨_, ?_, rfl⟩
    refine ⟨List.forall_mem_nil _, .inl rfl, .inl rfl, ?_⟩
    rw [hsensitive]
    exact replied_disposed hdisposed
  | @serviceWindow configuration eventReference priorEventReference state receivedAt _ hafter =>
    obtain ⟨hprior, event, hkind, rfl⟩ := serviceWindowAfter_eq_ok hafter
    refine ⟨_, ?_, rfl⟩
    exact ⟨List.forall_mem_nil _, .inl rfl, .inr ⟨_, priorEventReference, rfl, rfl, hprior⟩,
      replied_others _ (List.forall_mem_singleton.2 hkind)⟩

end Digest

/-! ### Intents -/

/-- What becomes of an intent in time.  The attempts rise with the fence, under one fence it is only
settled, and a second lease of an intent that was leased and not delivered is marked and waits until
the lease before it has run out. -/
structure Later (i j : AlertIntent) : Prop where
  eventReference : j.eventReference = i.eventReference
  isMatched : j.isMatched = i.isMatched
  safeTimestamp : j.safeTimestamp = i.safeTimestamp
  leaseFence : i.leaseFence.toNat ≤ j.leaseFence.toNat
  attempts : j.dispatchAttempts.toNat + i.leaseFence.toNat =
    i.dispatchAttempts.toNat + j.leaseFence.toNat
  sameFence : j.leaseFence = i.leaseFence → j = i ∨ j = Kernel.settleIntent i
  delivered : i.delivered = true → j = i
  leased : i.leased = true → j.leased = true ∨ j.delivered = true
  ambiguousDispatch : i.ambiguousDispatch = true → j.ambiguousDispatch = true
  marked : i.leased = true → i.leaseFence.toNat < j.leaseFence.toNat → j.ambiguousDispatch = true
  expires : i.leased = true → i.leaseFence.toNat < j.leaseFence.toNat →
    ∃ t, i.leaseExpiresAt = some t ∧ ∀ u, j.leaseExpiresAt = some u → t + 60 ≤ u

theorem Later.refl (i : AlertIntent) : Later i i :=
  ⟨rfl, rfl, rfl, le_rfl, rfl, fun _ => .inl rfl, fun _ => rfl, fun h => .inl h, id,
    fun _ h => (lt_irrefl _ h).elim, fun _ h => (lt_irrefl _ h).elim⟩

theorem Later.trans (i j k : AlertIntent) (h : Later i j) (h' : Later j k) : Later i k where
  eventReference := h'.eventReference.trans h.eventReference
  isMatched := h'.isMatched.trans h.isMatched
  safeTimestamp := h'.safeTimestamp.trans h.safeTimestamp
  leaseFence := h.leaseFence.trans h'.leaseFence
  attempts := by
    have := h.attempts
    have := h'.attempts
    omega
  sameFence hfence := by
    have hij : j.leaseFence = i.leaseFence := by
      refine UInt64.toNat_inj.1 (le_antisymm ?_ h.leaseFence)
      rw [← hfence]
      exact h'.leaseFence
    rcases h.sameFence hij with rfl | rfl
    · exact h'.sameFence hfence
    · exact .inr (h'.delivered rfl)
  delivered hi := by
    have hj := h.delivered hi
    subst hj
    exact h'.delivered hi
  leased hi := by
    rcases h.leased hi with hj | hj
    · exact h'.leased hj
    · rw [h'.delivered hj]
      exact .inr hj
  ambiguousDispatch hi := h'.ambiguousDispatch (h.ambiguousDispatch hi)
  marked hi hlt := by
    rcases Nat.lt_or_ge i.leaseFence.toNat j.leaseFence.toNat with hij | hij
    · exact h'.ambiguousDispatch (h.marked hi hij)
    · rcases h.leased hi with hj | hj
      · exact h'.marked hj (lt_of_le_of_lt hij hlt)
      · rw [h'.delivered hj] at hlt
        omega
  expires hi hlt := by
    rcases Nat.lt_or_ge i.leaseFence.toNat j.leaseFence.toNat with hij | hij
    · obtain ⟨t, ht, hend⟩ := h.expires hi hij
      refine ⟨t, ht, fun u hu => ?_⟩
      by_cases hjk : k.leaseFence = j.leaseFence
      · -- the lease of `j`, or none when it is settled
        rcases h'.sameFence hjk with rfl | rfl
        · exact hend u hu
        · cases hu
      · have hrise : j.leaseFence.toNat < k.leaseFence.toNat :=
          lt_of_le_of_ne h'.leaseFence fun heq => hjk (UInt64.toNat_inj.1 heq.symm)
        rcases h.leased hi with hj | hj
        · obtain ⟨t', ht', hend'⟩ := h'.expires hj hrise
          have hfirst := hend t' ht'
          have hsecond := hend' u hu
          omega
        · rw [h'.delivered hj] at hrise
          omega
    · -- the fence of `j` is that of `i`, and `j` is not settled
      rcases h.sameFence (UInt64.toNat_inj.1 (le_antisymm hij h.leaseFence)) with rfl | rfl
      · exact h'.expires hi hlt
      · rw [h'.delivered rfl] at hlt
        exact (lt_irrefl _ hlt).elim

theorem later_leaseIntent {eventReference : SafeReference} {leasedAt : Int64}
    {intent lease : AlertIntent} (hleasable : Kernel.leasable eventReference leasedAt intent = true)
    (h : Kernel.leaseIntent intent leasedAt = .ok lease) : Later intent lease := by
  obtain ⟨leaseFence, leaseExpiresAt, dispatchAttempts, hfence, hexpires, hattempts, rfl⟩ :=
    leaseIntent_eq_ok h
  have hsucc := checkedSucc_eq_some.1 hfence
  have hcount : dispatchAttempts.toNat = intent.dispatchAttempts.toNat + 1 :=
    ofNat?_eq_some.1 hattempts
  rw [Kernel.leasable, Bool.and_eq_true, Bool.and_eq_true, Bool.not_eq_true'] at hleasable
  obtain ⟨⟨-, hdelivered⟩, hout⟩ := hleasable
  have hnot : intent.delivered ≠ true := by simp [hdelivered]
  refine ⟨rfl, rfl, rfl, ?_, ?_, fun heq => ?_, fun hd => (hnot hd).elim, fun _ => .inl rfl,
    fun ha => ?_, fun hl _ => ?_, fun hl _ => ?_⟩
  · show intent.leaseFence.toNat ≤ leaseFence.toNat
    omega
  · show dispatchAttempts.toNat + intent.leaseFence.toNat =
      intent.dispatchAttempts.toNat + leaseFence.toNat
    omega
  · have hsame : leaseFence = intent.leaseFence := heq
    rw [hsame] at hsucc
    omega
  · show (intent.ambiguousDispatch || intent.leased) = true
    rw [ha, Bool.true_or]
  · show (intent.ambiguousDispatch || intent.leased) = true
    rw [hl, Bool.or_true]
  · rw [hl, Bool.not_true, Bool.false_or] at hout
    obtain ⟨t, ht, hle⟩ := (Option.any_eq_true ..).1 hout
    refine ⟨t, ht, fun u hu => ?_⟩
    have hsum : leaseExpiresAt.toInt = leasedAt.toInt + 60 := Checked.ofInt?_eq_some.1 hexpires
    have heq : leaseExpiresAt.toInt = u := Option.some.inj hu
    have hrun := of_decide_eq_true hle
    omega

theorem later_settleIntent {eventReference : SafeReference} {leaseFence : UInt64}
    {intent : AlertIntent} (h : Kernel.settleable eventReference leaseFence intent = true) :
    Later intent (Kernel.settleIntent intent) := by
  rw [Kernel.settleable, Bool.and_eq_true, Bool.and_eq_true, Bool.not_eq_true'] at h
  have hnot : intent.delivered ≠ true := by simp [h.1.2]
  exact ⟨rfl, rfl, rfl, le_rfl, rfl, fun _ => .inr rfl, fun hd => (hnot hd).elim, fun _ => .inr rfl,
    id, fun _ hlt => (lt_irrefl _ hlt).elim, fun _ hlt => (lt_irrefl _ hlt).elim⟩

/-! ### Two moments of a run -/

/-- What a later state has of an earlier one. -/
structure Retains (before after : LoopState) : Prop where
  receipts : before.receipts <+: after.receipts
  bindings : before.bindings <+: after.bindings
  events : before.events <+: after.events
  tombstones : before.tombstones <+: after.tombstones
  v1History : before.v1History <+: after.v1History
  outboundPins : before.outboundPins <+: after.outboundPins
  dispositions : before.serviceWindowDispositions <+: after.serviceWindowDispositions
  outbox : Grows Later before.outbox after.outbox
  reply : Replied before.sensitiveReply (after.events.drop before.events.length)
    after.sensitiveReply

theorem Retains.refl (s : LoopState) : Retains s s where
  receipts := List.prefix_rfl
  bindings := List.prefix_rfl
  events := List.prefix_rfl
  tombstones := List.prefix_rfl
  v1History := List.prefix_rfl
  outboundPins := List.prefix_rfl
  dispositions := List.prefix_rfl
  outbox := .refl Later.refl _
  reply := by
    rw [List.drop_length]
    exact .refl

theorem Retains.trans (s t u : LoopState) (h : Retains s t) (h' : Retains t u) : Retains s u where
  receipts := h.receipts.trans h'.receipts
  bindings := h.bindings.trans h'.bindings
  events := h.events.trans h'.events
  tombstones := h.tombstones.trans h'.tombstones
  v1History := h.v1History.trans h'.v1History
  outboundPins := h.outboundPins.trans h'.outboundPins
  dispositions := h.dispositions.trans h'.dispositions
  outbox := .trans Later.trans h.outbox h'.outbox
  reply := by
    obtain ⟨more, hmore⟩ := h.events
    obtain ⟨rest, hrest⟩ := h'.events
    have hfirst := h.reply
    have hsecond := h'.reply
    rw [← hrest, List.drop_left] at hsecond
    rw [← hmore, List.drop_left] at hfirst
    rw [← hrest, ← hmore, List.append_assoc, List.drop_left]
    exact hfirst.trans hsecond

theorem retains_extended {before added : LoopState} (h : Admissible before added) :
    Retains before (extended before added) where
  receipts := List.prefix_append ..
  bindings := List.prefix_append ..
  events := List.prefix_append ..
  tombstones := List.prefix_append ..
  v1History := List.prefix_append ..
  outboundPins := List.prefix_append ..
  dispositions := List.prefix_append ..
  outbox := .append Later.refl _ _
  reply := by
    show Replied _ ((before.events ++ added.events).drop before.events.length) _
    rw [List.drop_left]
    exact h.reply

/-- A state with another outbox. -/
theorem retains_outbox {before after : LoopState} {outbox : List AlertIntent}
    (hgrows : Grows Later before.outbox outbox)
    (h : Kernel.withOutbox before outbox = .ok after) : Retains before after := by
  obtain ⟨revision, -, rfl⟩ := withOutbox_eq_ok.1 h
  exact { Retains.refl before with outbox := hgrows }

section Runs

variable {hmac : List UInt8 → List UInt8 → ByteVec 32} {initial : LoopState}

theorem retains_atomic {before after : LoopState} {record : Record}
    (h : Atomic hmac before record) (hstate : stateOf record = some after) :
    Retains before after := by
  cases h with
  | leased hfind hlease hafter =>
    cases hstate
    obtain ⟨hsplit, hleasable⟩ := splitFirst_eq_some hfind
    refine retains_outbox ?_ hafter
    rw [hsplit]
    exact .replace Later.refl _ _ (later_leaseIntent hleasable hlease)
  | settled hfind hafter =>
    cases hstate
    obtain ⟨hsplit, hsettleable⟩ := splitFirst_eq_some hfind
    refine retains_outbox ?_ hafter
    rw [hsplit]
    exact .replace Later.refl _ _ (later_settleIntent hsettleable)
  | replaced hreplaces hrevision =>
    cases hstate
    obtain ⟨added, hadmissible, rfl⟩ := exists_extended hreplaces
    exact { retains_extended hadmissible with }

/-- **Two moments of a run.** -/
theorem retains_currentOf {front back : Log}
    (h : Everywhere (Legal hmac initial) (front ++ back)) :
    Retains (currentOf initial front) (currentOf initial (front ++ back)) := by
  refine Everywhere.forward (currentOf initial) Retains.refl Retains.trans ?_ h
  intro log e _ hlegal
  rw [currentOf_concat]
  cases hstate : stateOf e.2 with
  | none => exact .refl _
  | some state =>
    exact retains_atomic (hlegal.atomic (by rw [hstate]; rfl)) hstate

/-- An intent as the dispatches leave it: the fence counts the attempts, and an intent is marked from
its second attempt on. -/
structure SoundIntent (intent : AlertIntent) : Prop where
  attempts : intent.dispatchAttempts.toNat = intent.leaseFence.toNat
  expires : intent.leaseExpiresAt.isSome = intent.leased
  leased : intent.leased = true → 0 < intent.leaseFence.toNat
  delivered : intent.delivered = true → 0 < intent.leaseFence.toNat ∧ intent.leased = false
  idle : intent.leased = false → intent.delivered = false → intent.leaseFence.toNat = 0
  ambiguousDispatch : intent.ambiguousDispatch = true ↔ 2 ≤ intent.leaseFence.toNat

theorem Fresh.sound {intent : AlertIntent} (h : Fresh intent) : SoundIntent intent where
  attempts := by rw [h.leaseFence, h.dispatchAttempts]; rfl
  expires := by rw [h.leaseExpiresAt, h.leased]; rfl
  leased hl := by rw [h.leased] at hl; cases hl
  delivered hd := by rw [h.delivered] at hd; cases hd
  idle _ _ := by rw [h.leaseFence]; rfl
  ambiguousDispatch := by rw [h.ambiguousDispatch, h.leaseFence]; decide

theorem sound_leaseIntent {eventReference : SafeReference} {leasedAt : Int64}
    {intent lease : AlertIntent} (hleasable : Kernel.leasable eventReference leasedAt intent = true)
    (h : Kernel.leaseIntent intent leasedAt = .ok lease) (hsound : SoundIntent intent) :
    SoundIntent lease := by
  obtain ⟨leaseFence, leaseExpiresAt, dispatchAttempts, hfence, -, hattempts, rfl⟩ :=
    leaseIntent_eq_ok h
  have hsucc := checkedSucc_eq_some.1 hfence
  have hcount : dispatchAttempts.toNat = intent.dispatchAttempts.toNat + 1 :=
    ofNat?_eq_some.1 hattempts
  rw [Kernel.leasable, Bool.and_eq_true, Bool.and_eq_true, Bool.not_eq_true'] at hleasable
  have hnot : intent.delivered = false := hleasable.1.2
  refine ⟨?_, rfl, fun _ => ?_, fun hd => ?_, fun hidle => ?_, ?_⟩
  · rw [hcount, hsucc, hsound.attempts]
  · show 0 < leaseFence.toNat
    omega
  · cases hnot.symm.trans hd
  · cases hidle
  · show (intent.ambiguousDispatch || intent.leased) = true ↔ 2 ≤ leaseFence.toNat
    rw [Bool.or_eq_true, hsound.ambiguousDispatch, hsucc]
    constructor
    · rintro (hmarked | hleased)
      · omega
      · have := hsound.leased hleased
        omega
    · intro htwo
      by_cases hleased : intent.leased = true
      · exact .inr hleased
      · have := hsound.idle (Bool.eq_false_of_not_eq_true hleased) hnot
        omega

theorem sound_settleIntent {eventReference : SafeReference} {leaseFence : UInt64}
    {intent : AlertIntent} (h : Kernel.settleable eventReference leaseFence intent = true)
    (hsound : SoundIntent intent) : SoundIntent (Kernel.settleIntent intent) := by
  rw [Kernel.settleable, Bool.and_eq_true, Bool.and_eq_true, Bool.and_eq_true] at h
  exact ⟨hsound.attempts, rfl, nofun, fun _ => ⟨hsound.leased h.1.1.2, rfl⟩, fun _ => nofun,
    hsound.ambiguousDispatch⟩

/-- What holds of the durable state in itself. -/
structure Sound (s : LoopState) : Prop where
  intents : ∀ intent ∈ s.outbox, SoundIntent intent
  /-- An attempt has one pin. -/
  pins : (s.outboundPins.map OutboundPin.attemptReference).Nodup
  /-- A disposition corrects one that stands before it. -/
  dispositions : Everywhere (fun front disposition => ∀ prior,
    disposition.priorEventReference = some prior → ∃ other ∈ front, other.eventReference = prior)
    s.serviceWindowDispositions

theorem sound_replace {front back : List AlertIntent} {intent other : AlertIntent}
    (h : ∀ i ∈ front ++ intent :: back, SoundIntent i)
    (hother : SoundIntent intent → SoundIntent other) :
    ∀ i ∈ front ++ other :: back, SoundIntent i := by
  rw [List.forall_mem_append, List.forall_mem_cons] at h ⊢
  exact ⟨h.1, hother h.2.1, h.2.2⟩

theorem sound_extended {before added : LoopState} (h : Admissible before added)
    (hsound : Sound before) : Sound (extended before added) where
  intents := by
    show ∀ i ∈ before.outbox ++ added.outbox, SoundIntent i
    rw [List.forall_mem_append]
    exact ⟨hsound.intents, fun i hi => (h.outbox i hi).sound⟩
  pins := by
    show ((before.outboundPins ++ added.outboundPins).map _).Nodup
    rcases h.pins with hpins | ⟨pin, hpins, hnew⟩
    · rw [hpins, List.append_nil]
      exact hsound.pins
    · rw [hpins, List.map_append]
      refine hsound.pins.append (List.nodup_singleton _) fun reference hreference hnewest => ?_
      obtain ⟨other, hother, rfl⟩ := List.mem_map.1 hreference
      exact hnew other hother (List.mem_singleton.1 hnewest)
  dispositions := by
    show Everywhere _ (before.serviceWindowDispositions ++ added.serviceWindowDispositions)
    rcases h.dispositions with hadded | ⟨disposition, prior, hadded, hprior, hother⟩
    · rw [hadded, List.append_nil]
      exact hsound.dispositions
    · rw [hadded]
      refine hsound.dispositions.concat fun prior' hprior' => ?_
      cases hprior.symm.trans hprior'
      exact hother

theorem sound_atomic {before after : LoopState} {record : Record}
    (h : Atomic hmac before record) (hstate : stateOf record = some after)
    (hsound : Sound before) : Sound after := by
  cases h with
  | leased hfind hlease hafter =>
    cases hstate
    obtain ⟨hsplit, hleasable⟩ := splitFirst_eq_some hfind
    obtain ⟨revision, -, rfl⟩ := withOutbox_eq_ok.1 hafter
    refine ⟨sound_replace ?_ (sound_leaseIntent hleasable hlease), hsound.pins,
      hsound.dispositions⟩
    rw [← hsplit]
    exact hsound.intents
  | settled hfind hafter =>
    cases hstate
    obtain ⟨hsplit, hsettleable⟩ := splitFirst_eq_some hfind
    obtain ⟨revision, -, rfl⟩ := withOutbox_eq_ok.1 hafter
    refine ⟨sound_replace ?_ (sound_settleIntent hsettleable), hsound.pins, hsound.dispositions⟩
    rw [← hsplit]
    exact hsound.intents
  | replaced hreplaces hrevision =>
    cases hstate
    obtain ⟨added, hadmissible, rfl⟩ := exists_extended hreplaces
    exact { sound_extended hadmissible hsound with }

theorem sound_currentOf {log : Log} (h : Everywhere (Legal hmac initial) log)
    (hinitial : Sound initial) : Sound (currentOf initial log) := by
  refine h.induct (I := fun log => Sound (currentOf initial log)) hinitial ?_
  intro log e _ hlegal hsound
  rw [currentOf_concat]
  cases hstate : stateOf e.2 with
  | none => exact hsound
  | some state => exact sound_atomic (hlegal.atomic (by rw [hstate]; rfl)) hstate hsound

/-- **The durable state stays sound.**  After any run of the workers on a store. -/
theorem durable_sound {bytes : List UInt8} (h : Snapshot.encodeState initial = .ok bytes)
    (hinitial : Sound initial) (moves : List (Move Loop.Task StoreFate)) :
    ∃ state, Snapshot.decodeState (Serial.outcome hmac bytes moves).snapshot = .ok state ∧
      Sound state :=
  have hinv : Serial.Inv hmac initial _ := Serial.run_inv h moves
  ⟨_, hinv.snapshot, sound_currentOf hinv.legal hinitial⟩

theorem durable_sound_takeover :
    ∃ state, Snapshot.decodeState (Serial.outcome Sha256.hmacSha256 Serial.sampleBytes
        Serial.takeover).snapshot = .ok state ∧ Sound state := by
  have hfresh : Fresh Serial.sampleIntent := ⟨rfl, rfl, rfl, rfl, rfl, rfl⟩
  exact durable_sound Serial.encodeState_sampleState
    ⟨List.forall_mem_singleton.2 hfresh.sound, List.nodup_nil, .nil⟩ Serial.takeover

end Runs

end Evidence

end MsgRiver.PhaseZero
