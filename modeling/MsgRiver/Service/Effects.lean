import MsgRiver.Service.Dispatch

/-!
# No second send

The service as a machine: client calls (submissions, callbacks, the inbound switch, requeues and
the recovery of a restart) and rounds of dispatch, in any order, with any behaviour of the peers.

A message whose provider effect may have happened is *guarded*: it is being sent, accepted or
ambiguous, and from none of these states can a claim or a requeue send it again.  One round guards
the message it attempted (`guarded_after_attempt`), and no later step releases it
(`guarded_step`).
-/

namespace MsgRiver.Service

open Store Connector StepRun RelTable

/-- The store calls that the service makes outside of dispatch. -/
def isClientCall : Call → Bool
  | .m2Submit .. | .m3Submit .. | .m4SubmitInbound .. | .m4SetInboundEnabled ..
  | .m2RecoverInterrupted .. | .m6RequeueFailed .. => true
  | .m2ClaimDue .. | .m2MarkAccepted .. | .m2MarkRetry .. | .m2MarkFailed ..
  | .m2MarkAmbiguous .. => false

/-- A step of the service. -/
inductive ServiceCall
  | client (c : Call) (h : isClientCall c = true)
  | dispatch (claimNow : Option Int64) (peer : Peer) (markNow : Option Int64)

/-- What a step answers. -/
inductive ServiceReply
  | client (a : Store.Answer)
  | dispatch (d : Dispatch)

section Machine

variable (sha256 : List UInt8 → List.Vector UInt8 32) (config : Config)

/-- One step of the service. -/
def serviceStep (db : Db) : ServiceCall → ServiceReply × Db
  | .client c _ => (.client (step sha256 db c).1, (step sha256 db c).2)
  | .dispatch claimNow peer markNow =>
    let round := dispatchDue sha256 config claimNow peer markNow db
    (.dispatch round.1, round.2)

end Machine

/-- The message cannot be sent again by a claim, nor after a requeue. -/
def Guarded (id : String) (db : Db) : Prop :=
  ∃ m ∈ db.messages.rows, m.messageId = id ∧
    (m.state = .sending ∨ m.state = .providerAccepted ∨ m.state = .ambiguous)

/-- The round attempted the message, handed request bytes to the transport, and got no explicit
rejection. -/
def MayHaveEffect (config : Config) (id : String) (e : StepRun.Event Db ServiceCall ServiceReply) :
    Prop :=
  ∃ claimNow peer markNow round delivery a driver item,
    e.call = .dispatch claimNow peer markNow ∧ e.reply = .dispatch round ∧
    round.attempt = some (delivery, a) ∧ delivery.messageId = id ∧
    handover config delivery = some (driver, item) ∧ a.handed ≠ [] ∧
    ¬ Rejection (driver.replyStatus peer)

/-- The round is not answered by an unacknowledged success. -/
def AcknowledgedRound (sha256 : List UInt8 → List.Vector UInt8 32) (config : Config)
    (e : StepRun.Event Db ServiceCall ServiceReply) : Prop :=
  ∀ now peer markNow delivery driver item,
    e.call = .dispatch (some now) peer markNow →
    (step sha256 e.before (.m2ClaimDue now)).1 = .ok (.claimed (some delivery)) →
    handover config delivery = some (driver, item) →
    ¬ UnacknowledgedSuccess config.json driver item peer

section Runs

variable {sha256 : List UInt8 → List.Vector UInt8 32} {config : Config}

theorem guarded_not_waiting {m : Message}
    (h : m.state = .sending ∨ m.state = .providerAccepted ∨ m.state = .ambiguous) :
    m.state.waiting = false := by
  rcases h with h | h | h <;> rw [h] <;> rfl

/-- The mark a call records, by the id of its message. -/
def markedId : Call → Option String
  | .m2MarkAccepted id _ _ | .m2MarkRetry id _ _ _ | .m2MarkFailed id _ _
  | .m2MarkAmbiguous id _ _ => some id
  | _ => none

theorem markedId_outcomeCall (id : String) (now : Int64)
    (outcome : Except DriverError DeliveryOutcome) :
    markedId (outcomeCall id now outcome) = some id := by
  cases outcome with
  | error e => rfl
  | ok o => cases o <;> rfl

theorem markedId_client {c : Call} (h : isClientCall c = true) : markedId c = none := by
  cases c <;> first | rfl | cases h

/-- A store call that does not mark the message keeps it guarded. -/
theorem guarded_call {db : Db} {c : Call} {id : String} (hmark : markedId c ≠ some id)
    (h : Guarded id db) : Guarded id (step sha256 db c).2 := by
  obtain ⟨m, hm, rfl, hs⟩ := h
  obtain ⟨m', hm', hstep⟩ := row_step sha256 db c hm
  refine ⟨m', hm', hstep.later.id, ?_⟩
  cases hstep with
  | same => exact hs
  | recovered => exact Or.inr (Or.inr rfl)
  | moved ha hmove =>
    cases hmove with
    | claim hdue =>
      rw [Message.due, guarded_not_waiting hs] at hdue
      cases hdue
    | accept | schedule | exhaust | fail | doubt => exact absurd rfl hmark
    | requeue hfailed =>
      rw [hfailed] at hs
      rcases hs with hs | hs | hs <;> cases hs

/-- A claim answers with a message that was not guarded, and guards it. -/
theorem claim_guards {db : Db} {now : Int64} {delivery : M2Delivery}
    (h : (step sha256 db (.m2ClaimDue now)).1 = .ok (.claimed (some delivery))) :
    ¬ Guarded delivery.messageId db ∧
      ∃ m ∈ (step sha256 db (.m2ClaimDue now)).2.messages.rows,
        m.messageId = delivery.messageId ∧ m.state = .sending := by
  obtain ⟨⟨m, hm, hid, hwait⟩, hsending⟩ :=
    claim_event (c := .m2ClaimDue now) ⟨delivery, h, rfl⟩
  refine ⟨?_, hsending⟩
  rintro ⟨x, hx, hxid, hxs⟩
  obtain rfl := Table.eq_of_key messageId_mem_keys hx hm (hxid.trans hid.symm)
  rw [guarded_not_waiting hxs] at hwait
  cases hwait

/-- **One step keeps a guarded message guarded.** -/
theorem guarded_step (id : String) (db : Db) (c : ServiceCall) (h : Guarded id db) :
    Guarded id (serviceStep sha256 config db c).2 := by
  cases c with
  | client c hc => exact guarded_call (by rw [markedId_client hc]; simp) h
  | dispatch claimNow peer markNow =>
    have heff := dispatchDue_effect sha256 config claimNow peer markNow db
    simp only [serviceStep]
    generalize dispatchDue sha256 config claimNow peer markNow db = p at heff ⊢
    obtain ⟨⟨result, att⟩, db'⟩ := p
    have hclaimed : ∀ now, Guarded id (step sha256 db (.m2ClaimDue now)).2 :=
      fun now => guarded_call (by simp [markedId]) h
    cases heff with
    | idle => exact h
    | unclaimed => exact hclaimed _
    | unmarked => exact hclaimed _
    | marked hclaim =>
      refine guarded_call ?_ (hclaimed _)
      rw [markedId_outcomeCall]
      rintro ⟨⟩
      exact (claim_guards hclaim).1 h

/-- A sent attempt without a rejection is recorded as accepted or ambiguous. -/
theorem outcome_of_effect {driver : Driver} {item : Delivery} {peer : Peer}
    {outcome : Except DriverError DeliveryOutcome}
    (hsafe : (driver.deliver config.json item peer).Safe (driver.replyStatus peer))
    (hresult : (driver.deliver config.json item peer).result = .ok outcome)
    (hhanded : (driver.deliver config.json item peer).handed ≠ [])
    (hrejection : ¬ Rejection (driver.replyStatus peer)) :
    (∃ ack, outcome = .ok (.accepted ack)) ∨ outcome = .ok .ambiguous := by
  cases (hsafe outcome hresult).2 hhanded with
  | accepted ack => exact Or.inl ⟨ack, rfl⟩
  | ambiguous => exact Or.inr rfl
  | rateLimited h => exact absurd ⟨429, h, by omega, by omega⟩ hrejection
  | permanent h => exact absurd h hrejection
  | authOrConfig h => exact absurd h hrejection

/-- The mark of an accepted or ambiguous outcome guards a message that is being sent. -/
theorem guarded_after_mark {db : Db} {m : Message} {now : Int64}
    {outcome : Except DriverError DeliveryOutcome} (hm : m ∈ db.messages.rows)
    (hs : m.state = .sending)
    (hout : (∃ ack, outcome = .ok (.accepted ack)) ∨ outcome = .ok .ambiguous) :
    Guarded m.messageId (step sha256 db (outcomeCall m.messageId now outcome)).2 := by
  obtain ⟨m', hm', hstep⟩ := row_step sha256 db (outcomeCall m.messageId now outcome) hm
  refine ⟨m', hm', hstep.later.id, ?_⟩
  cases hstep with
  | same => exact Or.inl hs
  | recovered => exact Or.inr (Or.inr rfl)
  | moved ha hmove =>
    generalize hcall : outcomeCall m.messageId now outcome = c at hmove
    rcases hout with ⟨ack, rfl⟩ | rfl
    · cases hmove with
      | accept => exact Or.inr (Or.inl rfl)
      | claim | schedule | exhaust | fail | doubt | requeue => cases hcall
    · cases hmove with
      | doubt => exact Or.inr (Or.inr rfl)
      | claim | accept | schedule | exhaust | fail | requeue => cases hcall

/-- **One round guards the message whose effect may have happened**, unless it is answered by an
unacknowledged success. -/
theorem guarded_after_attempt {db : Db} {c : ServiceCall} {id : String}
    (hack : AcknowledgedRound sha256 config (event (serviceStep sha256 config) db c))
    (heffect : MayHaveEffect config id (event (serviceStep sha256 config) db c)) :
    Guarded id (serviceStep sha256 config db c).2 := by
  obtain ⟨claimNow, peer, markNow, round, delivery, a, driver, item, hcall, hreply, hattempt, rfl,
    hhand, hhanded, hrejection⟩ := heffect
  simp only [event] at hcall hreply
  subst hcall
  simp only [serviceStep, ServiceReply.dispatch.injEq] at hreply ⊢
  have heff := dispatchDue_effect sha256 config claimNow peer markNow db
  rw [hreply, hattempt] at heff
  have hdeliver : attempt config delivery peer = driver.deliver config.json item peer := by
    simp only [attempt, hhand]
  generalize (dispatchDue sha256 config claimNow peer markNow db).2 = db' at heff ⊢
  cases heff with
  | unmarked hclaim =>
    obtain ⟨-, m, hm, hid, hs⟩ := claim_guards hclaim
    exact ⟨m, hm, hid, Or.inl hs⟩
  | @marked now _ _ _ hclaim houtcome =>
    obtain ⟨-, m, hm, hid, hs⟩ := claim_guards hclaim
    rw [hdeliver] at houtcome hhanded
    have hsafe := (deliver_safe_iff config.json driver item peer).2
      (hack now peer markNow delivery driver item rfl hclaim hhand)
    rw [← hid]
    exact guarded_after_mark hm hs (outcome_of_effect hsafe houtcome hhanded hrejection)

/-- A guarded message is neither claimed nor requeued. -/
theorem guarded_not_sent {db : Db} {id : String} (h : Guarded id db) (now : Int64) :
    (∀ delivery, (step sha256 db (.m2ClaimDue now)).1 = .ok (.claimed (some delivery)) →
      delivery.messageId ≠ id) ∧
    (step sha256 db (.m6RequeueFailed id now)).1 ≠ .ok (.requeued (some true)) := by
  constructor
  · rintro delivery hclaim rfl
    exact (claim_guards hclaim).1 h
  · intro hreply
    obtain ⟨m, hm, rfl, hs⟩ := h
    have heff := step_effect sha256 db (.m6RequeueFailed m.messageId now)
    generalize step sha256 db (.m6RequeueFailed m.messageId now) = p at heff hreply
    obtain ⟨a, db'⟩ := p
    simp only at hreply
    subst hreply
    generalize hid : m.messageId = id at heff
    cases heff with
    | notRequeued hr => exact hr rfl
    | moved hx hmove =>
      cases hmove with
      | requeue hfailed =>
        obtain rfl := Table.eq_of_key messageId_mem_keys hm hx hid
        rw [hfailed] at hs
        rcases hs with hs | hs | hs <;> cases hs

end Runs

/-- **No second send.**  Every attempt reports no more than what is known about the request bytes,
exactly when it is not answered by an unacknowledged success of the ntfy provider.  And in every run
of the service: once a round that is not answered so has attempted a message whose effect may have
happened, the message stays being sent, accepted or ambiguous, and neither a claim nor a requeue
takes it again. -/
theorem no_second_send (sha256 : List UInt8 → List.Vector UInt8 32) (config : Config) :
    (∀ driver delivery peer,
      (driver.deliver config.json delivery peer).Safe (driver.replyStatus peer) ↔
        ¬ UnacknowledgedSuccess config.json driver delivery peer) ∧
    (∀ pre c post id,
      AcknowledgedRound sha256 config
        (event (serviceStep sha256 config) (run (serviceStep sha256 config) Db.migrated pre) c) →
      MayHaveEffect config id
        (event (serviceStep sha256 config) (run (serviceStep sha256 config) Db.migrated pre) c) →
      let db := run (serviceStep sha256 config) Db.migrated (pre ++ c :: post)
      Guarded id db ∧ ∀ now,
        (∀ delivery, (step sha256 db (.m2ClaimDue now)).1 = .ok (.claimed (some delivery)) →
          delivery.messageId ≠ id) ∧
        (step sha256 db (.m6RequeueFailed id now)).1 ≠ .ok (.requeued (some true))) := by
  refine ⟨deliver_safe_iff config.json, ?_⟩
  intro pre c post id hack heffect db
  have hguarded : Guarded id db := by
    simp only [db, run_append, run_cons]
    exact run_induct (guarded_step id) (guarded_after_attempt hack heffect) post
  exact ⟨hguarded, guarded_not_sent hguarded⟩

/-- A peer that takes the request and never answers. -/
def silentPeer : Peer := ⟨true, true, true, true, true, []⟩

/-- A notice sent to a silent peer is never sent again. -/
theorem silent_notice_guarded :
    Guarded (m2Message Sha256.sha256 alertsNotice 0).messageId
      (run (serviceStep Sha256.sha256 localConfig) Db.migrated
        ([.client (.m2Submit alertsNotice 0) rfl] ++
          .dispatch (some 5) silentPeer (some 6) :: [.client (.m2RecoverInterrupted 7) rfl])) := by
  let db := run (serviceStep Sha256.sha256 localConfig) Db.migrated
    [.client (.m2Submit alertsNotice 0) rfl]
  have hround : ((dispatchDue Sha256.sha256 localConfig (some 5) silentPeer (some 6) db).1.attempt.map
      fun x => (x.1.messageId, x.1.driver, x.2.handed.isEmpty)) =
        some ((m2Message Sha256.sha256 alertsNotice 0).messageId, "ntfy", false) := by
    decide +kernel
  obtain ⟨⟨delivery, a⟩, hattempt, hcols⟩ := Option.map_eq_some_iff.1 hround
  simp only [Prod.mk.injEq] at hcols
  obtain ⟨hid, hdriver, hhanded⟩ := hcols
  have hhand : handover localConfig delivery =
      some (localConfig.ntfyDriver, .ntfy delivery.topic delivery.title delivery.body) := by
    rw [handover, if_pos hdriver]
  refine ((no_second_send Sha256.sha256 localConfig).2 [.client (.m2Submit alertsNotice 0) rfl]
    (.dispatch (some 5) silentPeer (some 6)) [.client (.m2RecoverInterrupted 7) rfl] _ ?_ ?_).1
  · rintro now peer markNow d driver item hcall - - ⟨_, _, _, _, r, -, -, -, -, -, -, hresponse, -⟩
    cases hcall
    cases hresponse
  · refine ⟨some 5, silentPeer, some 6,
      (dispatchDue Sha256.sha256 localConfig (some 5) silentPeer (some 6) db).1, delivery, a, _, _,
      rfl, rfl, hattempt, hid, hhand, ?_, ?_⟩
    · intro hnil
      rw [hnil] at hhanded
      cases hhanded
    · rintro ⟨s, hs, -⟩
      cases hs

/-! ### A success that is recorded as a failure -/

/-- The response of a provider that accepted a publication and answered with an empty object. -/
def bareSuccess : List UInt8 :=
  Ascii.utf8Bytes "HTTP/1.1 200 OK\r\nContent-Length: 2\r\n\r\n\x7b\x7d"

/-- A peer that takes the request and sends one response. -/
def answeringPeer (response : List UInt8) (size : response.length ≤ 1024) : Peer :=
  ⟨true, true, true, true, true, [⟨false, .chunk response size⟩]⟩

/-- A JSON reader that knows the empty object. -/
def emptyObjectCodec : Json.Codec where
  fromSlice bytes := if bytes = Ascii.utf8Bytes "\x7b\x7d" then some (.object []) else none
  fromStr text := if text = "\x7b\x7d" then some (.object []) else none
  toVec _ := none
  toString _ := none

/-- The request was written and accepted, and the attempt is reported as a local validation
failure. -/
theorem unacknowledged_success_not_safe :
    ¬ ∀ (driver : Driver) (delivery : Delivery) (peer : Peer),
      (driver.deliver emptyObjectCodec delivery peer).Safe (driver.replyStatus peer) := by
  intro h
  have hsafe := h (.ntfy ⟨"127.0.0.1", 8080, ""⟩) (.ntfy "alerts" none "disk full")
    (answeringPeer bareSuccess (by decide +kernel))
  refine (deliver_safe_iff _ _ _ _).1 hsafe ⟨_, _, _, _, ⟨200, Ascii.utf8Bytes "\x7b\x7d"⟩, rfl, rfl,
    ?_, rfl, rfl, rfl, ?_, ?_, ?_⟩
  · decide +kernel
  · decide +kernel
  · decide
  · decide +kernel

end MsgRiver.Service
