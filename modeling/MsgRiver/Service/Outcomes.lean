import MsgRiver.Service.Effects
import MsgRiver.Store.Budget
import MsgRiver.Store.Marks

/-!
# Every outcome is recorded

After a claim the message is `sending`, and whatever its driver returns, the mark of the outcome
succeeds (`mark_of_outcome`).  So a round that ends with a clock reading does not fail after its
attempt, and between the rounds of a living process no row is `sending`.
-/

namespace MsgRiver.Service

open Store Connector StepRun RelTable Checked

/-- The state that an outcome leads to after `attempts` attempts. -/
def documentedState (attempts : ℤ) : Except DriverError DeliveryOutcome → MessageState
  | .ok (.accepted _) => .providerAccepted
  | .ok .rateLimited => if attempts < 5 then .retryScheduled else .failed
  | .ok .transient => if attempts < 5 then .retryScheduled else .failed
  | .ok .ambiguous => .ambiguous
  | .ok .permanent => .failed
  | .ok .authOrConfig => .failed
  | .error _ => .failed

/-! ### Acknowledgements -/

/-- The filters of the drivers and of the store agree. -/
theorem validText_of_acknowledgement {ack : String} (h : validAcknowledgement ack = true) :
    validText ack 256 = true := h

theorem classify_acknowledged {json : Json.Codec} {response : Ntfy.NtfyResponse} {ack : String}
    (h : Ntfy.classify json response = .ok (.accepted ack)) : validAcknowledgement ack = true := by
  unfold Ntfy.classify at h
  split_ifs at h
  · cases hack : Ntfy.acknowledgement json response.body with
    | none =>
      rw [hack] at h
      cases h
    | some found =>
      rw [hack] at h
      cases h
      exact (Option.filter_eq_some_iff.1 hack).2
  all_goals cases h

theorem ntfy_acknowledged {json : Json.Codec} {endpoint : Ntfy.NtfyEndpoint}
    {message : Ntfy.NtfyMessage} {peer : Peer} {ack : String}
    (h : (Ntfy.deliver json endpoint message peer).result = .ok (.ok (.accepted ack))) :
    validAcknowledgement ack = true := by
  unfold Ntfy.deliver at h
  cases hvalid : Ntfy.validateMessage message with
  | error e =>
    rw [hvalid] at h
    cases h
  | ok u =>
    simp only [hvalid] at h
    split_ifs at h
    · cases h
    · cases h
    · cases h
    · cases hresponse : Ntfy.response peer.turns with
      | error panic =>
        rw [hresponse] at h
        cases h
      | ok response =>
        cases response with
        | none =>
          rw [hresponse] at h
          cases h
        | some response =>
          rw [hresponse] at h
          exact classify_acknowledged (Except.ok.inj h)

theorem classifyResponse_acknowledged {json : Json.Codec} {response : Option (List UInt8)}
    {ack : String} (h : Whatsapp.classifyResponse json response = .accepted ack) :
    validAcknowledgement ack = true := by
  unfold Whatsapp.classifyResponse at h
  split at h
  · cases h
  · rename_i status body _
    split_ifs at h
    cases hack : Whatsapp.acknowledgement json body with
    | none =>
      rw [hack] at h
      cases h
    | some found =>
      rw [hack] at h
      cases h
      exact (Option.filter_eq_some_iff.1 hack).2

theorem whatsapp_acknowledged {json : Json.Codec} {driver : Whatsapp.WhatsappDriver}
    {message : Whatsapp.WhatsappMessage} {peer : Peer} {ack : String}
    (h : (Whatsapp.deliver json driver message peer).result = .ok (.ok (.accepted ack))) :
    validAcknowledgement ack = true := by
  unfold Whatsapp.deliver at h
  cases hbody : Whatsapp.requestBody json driver.registration message with
  | error e =>
    rw [hbody] at h
    cases h
  | ok body =>
    simp only [hbody] at h
    split_ifs at h
    all_goals first
      | cases h
      | exact classifyResponse_acknowledged (Except.ok.inj (Except.ok.inj h))

/-- Every acknowledgement that an attempt returns is one that the store takes. -/
theorem attempt_acknowledged {config : Config} {delivery : M2Delivery} {peer : Peer} {ack : String}
    (h : (attempt config delivery peer).result = .ok (.ok (.accepted ack))) :
    validText ack 256 = true := by
  unfold attempt at h
  cases hhandover : handover config delivery with
  | none =>
    rw [hhandover] at h
    cases h
  | some call =>
    obtain ⟨driver, item⟩ := call
    rw [hhandover] at h
    cases driver with
    | ntfy endpoint =>
      cases item with
      | ntfy topic title body => exact validText_of_acknowledgement (ntfy_acknowledged h)
      | whatsapp recipient template locale parameters => cases h
    | whatsapp driver =>
      cases item with
      | ntfy topic title body => cases h
      | whatsapp recipient template locale parameters =>
        exact validText_of_acknowledgement (whatsapp_acknowledged h)

/-! ### Marks -/

theorem reasons_valid : validText "ntfy temporary failure" 256 = true ∧
    validText "ntfy response uncertain" 256 = true ∧ validText "ntfy rejected request" 256 = true ∧
    validText "ntfy request invalid" 256 = true := by
  decide +kernel

/-- The mark of an outcome succeeds on a sending row, and moves it to the documented state. -/
theorem mark_of_outcome {sha256 : List UInt8 → List.Vector UInt8 32} {db : Db} {m : Message}
    {now : Int64} {outcome : Except DriverError DeliveryOutcome} (hm : m ∈ db.messages.rows)
    (hs : m.state = .sending) (hnow : now.toInt < 2 ^ 63 - 1 - 1000)
    (hack : ∀ ack, outcome = .ok (.accepted ack) → validText ack 256 = true) :
    ∃ m', Marked sha256 db (outcomeCall m.messageId now outcome) m m' ∧
      m'.state = documentedState m.attempts outcome ∧ m'.identity = m.identity ∧
      m'.attempts = m.attempts ∧ ∀ ack, outcome = .ok (.accepted ack) →
        m'.providerAck = some ack := by
  obtain ⟨hretry, hdoubt, hreject, hinvalid⟩ := reasons_valid
  have hfail : ∀ reason, validText reason 256 = true →
      Marked sha256 db (.m2MarkFailed m.messageId reason now) m (m.giveUp .failed reason now) :=
    fun reason hreason => markSending_ok hm hs rfl hreason (fun _ => rfl) (fun _ => rfl)
      (giveUp_check hm hs rfl reason now)
  -- a rate limit and a transient failure are both retried while the budget lasts
  have htemporary : ∃ m', Marked sha256 db
      (.m2MarkRetry m.messageId "ntfy temporary failure" 1000 now) m m' ∧
      m'.state = (if m.attempts < 5 then .retryScheduled else .failed) ∧ m'.identity = m.identity ∧
      m'.attempts = m.attempts := by
    obtain ⟨next, hnext⟩ : ∃ next, ofInt? (now.toInt + (1000 : UInt32).toNat) = some next := by
      have hlow := now.le_toInt
      cases hnext : ofInt? (now.toInt + (1000 : UInt32).toNat) with
      | some next => exact ⟨next, rfl⟩
      | none =>
        rw [ofInt?_eq_none, show ((1000 : UInt32).toNat : ℤ) = 1000 from rfl] at hnext
        omega
    refine ⟨_, m2MarkRetry_ok hm hs hretry (by decide) hnext, ?_⟩
    by_cases hbudget : m.attempts < 5
    · simp only [if_pos hbudget]
      exact ⟨rfl, rfl, rfl⟩
    · simp only [if_neg hbudget]
      exact ⟨rfl, rfl, rfl⟩
  cases outcome with
  | error e => exact ⟨_, hfail _ hinvalid, rfl, rfl, rfl, nofun⟩
  | ok outcome =>
    cases outcome with
    | accepted ack =>
      refine ⟨m.accept ack now, markSending_ok hm hs rfl (hack ack rfl) (fun _ => rfl) (fun _ => rfl)
        (accept_check hm hs ack now), rfl, rfl, rfl, ?_⟩
      rintro _ ⟨⟩
      rfl
    | rateLimited =>
      obtain ⟨m', hmarked, hstate, hidentity, hattempts⟩ := htemporary
      exact ⟨m', hmarked, hstate, hidentity, hattempts, nofun⟩
    | transient =>
      obtain ⟨m', hmarked, hstate, hidentity, hattempts⟩ := htemporary
      exact ⟨m', hmarked, hstate, hidentity, hattempts, nofun⟩
    | permanent => exact ⟨_, hfail _ hreject, rfl, rfl, rfl, nofun⟩
    | authOrConfig => exact ⟨_, hfail _ hreject, rfl, rfl, rfl, nofun⟩
    | ambiguous =>
      exact ⟨m.giveUp .ambiguous "ntfy response uncertain" now, markSending_ok hm hs rfl hdoubt
        (fun _ => rfl) (fun _ => rfl) (giveUp_check hm hs rfl _ now), rfl, rfl, rfl, nofun⟩

/-! ### Rounds -/

section Rounds

variable {sha256 : List UInt8 → List.Vector UInt8 32} {config : Config}

/-- The row of a claimed message. -/
theorem claimed_sending {db : Db} {now : Int64} {delivery : M2Delivery}
    (h : (step sha256 db (.m2ClaimDue now)).1 = .ok (.claimed (some delivery))) :
    ∃ m ∈ (step sha256 db (.m2ClaimDue now)).2.messages.rows,
      m.messageId = delivery.messageId ∧ m.state = .sending :=
  (claim_event (c := .m2ClaimDue now) ⟨delivery, h, rfl⟩).2

/-- The mark of a returned outcome succeeds. -/
theorem outcome_marked {db : Db} {now now' : Int64} {delivery : M2Delivery} {peer : Peer}
    {outcome : Except DriverError DeliveryOutcome}
    (hclaim : (step sha256 db (.m2ClaimDue now)).1 = .ok (.claimed (some delivery)))
    (houtcome : (attempt config delivery peer).result = .ok outcome)
    (hnow : now'.toInt < 2 ^ 63 - 1 - 1000) :
    ∃ m ∈ (step sha256 db (.m2ClaimDue now)).2.messages.rows,
      m.messageId = delivery.messageId ∧ m.state = .sending ∧
      ∃ m', Marked sha256 (step sha256 db (.m2ClaimDue now)).2
          (outcomeCall delivery.messageId now' outcome) m m' ∧
        m'.state = documentedState m.attempts outcome ∧ m'.identity = m.identity ∧
        m'.attempts = m.attempts ∧
        ∀ ack, outcome = .ok (.accepted ack) → m'.providerAck = some ack := by
  obtain ⟨m, hm, hid, hs⟩ := claimed_sending hclaim
  have hack : ∀ ack, outcome = .ok (.accepted ack) → validText ack 256 = true := by
    rintro ack rfl
    exact attempt_acknowledged houtcome
  refine ⟨m, hm, hid, hs, ?_⟩
  rw [← hid]
  exact mark_of_outcome hm hs hnow hack

/-- A round that made an attempt and read the clock again does not fail. -/
theorem dispatchDue_ok {db : Db} {claimNow : Option Int64} {now' : Int64} {delivery : M2Delivery}
    {peer : Peer} {a : Attempt} {outcome : Except DriverError DeliveryOutcome}
    (hattempt : (dispatchDue sha256 config claimNow peer (some now') db).1.attempt =
      some (delivery, a))
    (houtcome : a.result = .ok outcome) (hnow : now'.toInt < 2 ^ 63 - 1 - 1000) :
    (dispatchDue sha256 config claimNow peer (some now') db).1.result = .ok (.ok ()) := by
  cases claimNow with
  | none => cases hattempt
  | some now =>
    have hmarked : ∀ d, (step sha256 db (.m2ClaimDue now)).1 = .ok (.claimed (some d)) →
        (attempt config d peer).result = .ok outcome →
        (step sha256 (step sha256 db (.m2ClaimDue now)).2
          (outcomeCall d.messageId now' outcome)).1 = .ok .done := by
      intro d hclaim hresult
      obtain ⟨m, -, -, -, m', hmark, -⟩ := outcome_marked hclaim hresult hnow
      exact hmark.1
    unfold dispatchDue at hattempt ⊢
    simp only at hattempt ⊢
    generalize step sha256 db (.m2ClaimDue now) = p at hattempt hmarked ⊢
    obtain ⟨reply, db'⟩ := p
    rcases reply with e | (_ | _ | (_ | d) | _ | _ | _)
    case some.ok.claimed.some =>
      have hd : delivery = d ∧ a = attempt config d peer := by
        simp only at hattempt
        split at hattempt
        · cases hattempt
          exact ⟨rfl, rfl⟩
        · split at hattempt <;>
          · cases hattempt
            exact ⟨rfl, rfl⟩
      obtain ⟨rfl, rfl⟩ := hd
      have hdone := hmarked delivery rfl houtcome
      simp only [houtcome]
      generalize step sha256 db' (outcomeCall delivery.messageId now' outcome) = q at hdone ⊢
      obtain ⟨reply, db''⟩ := q
      simp only at hdone
      rw [hdone]
    all_goals cases hattempt

/-! ### Living processes -/

/-- Only the messages `ids` are being sent. -/
def SendingIn (ids : Set String) (db : Db) : Prop :=
  ∀ m ∈ db.messages.rows, m.state = .sending → m.messageId ∈ ids

/-- The process goes on after the step: a round that fails or panics ends it. -/
def Lives (e : StepRun.Event Db ServiceCall ServiceReply) : Prop :=
  ∀ round, e.reply = .dispatch round → round.result = .ok (.ok ())

/-- Only a claim answers with a claimed message. -/
theorem claims_call {db : Db} {c : Call} {id : String}
    (h : Claims id (event (step sha256) db c)) : ∃ now, c = .m2ClaimDue now := by
  obtain ⟨d, hreply, -⟩ := h
  have heff := step_effect sha256 db c
  simp only [event] at hreply
  generalize step sha256 db c = p at heff hreply
  obtain ⟨a, db'⟩ := p
  simp only at hreply
  subst hreply
  cases heff with
  | moved hm hmove =>
    cases hmove with
    | claim => exact ⟨_, rfl⟩

/-- A row that starts to be sent is one that the call claims. -/
theorem Moves.claims {c : Call} {r : Reply} {m m' : Message} (h : Moves c r m m')
    (hs : m'.state = .sending) : ∃ d, r = .claimed (some d) ∧ d.messageId = m'.messageId := by
  cases h with
  | claim => exact ⟨_, rfl, rfl⟩
  | accept | schedule | exhaust | fail | doubt | requeue => cases hs

/-- One call sends only what was sent before, or what it claims. -/
theorem sendingIn_step {ids : Set String} {db : Db} (c : Call) (h : SendingIn ids db) :
    SendingIn (ids ∪ {id | Claims id (event (step sha256) db c)}) (step sha256 db c).2 := by
  have heff := step_effect sha256 db c
  have hkeep : ∀ m ∈ db.messages.rows, m.state = .sending →
      m.messageId ∈ ids ∪ {id | Claims id (event (step sha256) db c)} :=
    fun m hm hs => Or.inl (h m hm hs)
  -- a new row is queued
  have hnew : ∀ m, m.state = .queued → ∀ x ∈ db.messages.rows ++ [m], x.state = .sending →
      x.messageId ∈ ids ∪ {id | Claims id (event (step sha256) db c)} := by
    intro m hqueued x hx hs
    rcases List.mem_append.1 hx with hx | hx
    · exact hkeep x hx hs
    · rw [List.mem_singleton.1 hx, hqueued] at hs
      cases hs
  unfold SendingIn event at *
  generalize step sha256 db c = p at heff hkeep hnew ⊢
  obtain ⟨a, db'⟩ := p
  cases heff with
  | failure | m2Existing | m3Existing | inboundIdle | switched | nothingDue | notRequeued =>
    exact hkeep
  | m2New hrows => exact fun x hx => hnew _ rfl x (hrows ▸ hx)
  | m3New _ hrows => exact fun x hx => hnew _ rfl x (hrows ▸ hx)
  | inboundAccepted _ _ hmessages => exact fun x hx => hnew _ rfl x (hmessages ▸ hx)
  | moved hm hmove hrows =>
    intro x hx hs
    rcases replaceRow_mem (hrows ▸ hx) with rfl | hx
    · obtain ⟨d, rfl, hid⟩ := Moves.claims hmove hs
      exact Or.inr ⟨d, rfl, hid⟩
    · exact hkeep x hx hs
  | recovered hrows =>
    intro x hx hs
    obtain ⟨y, hy, rfl⟩ := List.mem_map.1 (hrows ▸ hx)
    unfold recoverRow at hs ⊢
    split_ifs at hs ⊢
    · cases hs
    · exact hkeep y hy hs

/-- A mark that answers `Ok` ends the sending of its message. -/
theorem sendingIn_mark {db : Db} {c : Call} {id : String} {r : Reply} (hid : markedId c = some id)
    (hok : (step sha256 db c).1 = .ok r) (h : SendingIn {id} db) :
    SendingIn ∅ (step sha256 db c).2 := by
  have heff := step_effect sha256 db c
  generalize step sha256 db c = p at heff hok ⊢
  obtain ⟨a, db'⟩ := p
  simp only at hok
  subst hok
  cases heff with
  | m2Existing | m2New | m3Existing | m3New | inboundIdle | inboundAccepted | switched
  | nothingDue | recovered | notRequeued => cases hid
  | @moved _ _ m m' messages hm hmove hrows =>
    have hmarked : m.messageId = id ∧ m'.state ≠ .sending := by
      cases hmove with
      | claim | requeue => cases hid
      | accept | schedule | exhaust | fail | doubt => exact ⟨Option.some.inj hid, nofun⟩
    intro x hx hxs
    obtain ⟨y, hy, rfl⟩ := List.mem_map.1 (hrows ▸ hx)
    unfold replaceRow at hxs
    split_ifs at hxs with hyid
    · exact absurd hxs hmarked.2
    · exact absurd ((h y hy hxs).trans hmarked.1.symm) hyid

/-- A recovery leaves nothing being sent. -/
theorem sendingIn_recovered {db : Db} {now : Int64} {n : ℕ}
    (h : (step sha256 db (.m2RecoverInterrupted now)).1 = .ok (.recovered n)) :
    SendingIn ∅ (step sha256 db (.m2RecoverInterrupted now)).2 := by
  have heff := step_effect sha256 db (.m2RecoverInterrupted now)
  generalize step sha256 db (.m2RecoverInterrupted now) = p at heff h ⊢
  obtain ⟨a, db'⟩ := p
  simp only at h
  subst h
  cases heff with
  | moved hm hmove => cases hmove
  | recovered hrows =>
    intro x hx hs
    obtain ⟨y, hy, rfl⟩ := List.mem_map.1 (hrows ▸ hx)
    unfold recoverRow at hs
    split_ifs at hs with hy
    · cases hs
    · exact absurd hs hy

/-- A round that does not end the process: it claimed nothing, or it marked what it claimed. -/
theorem dispatchDue_lives {db : Db} {claimNow : Option Int64} {peer : Peer}
    {markNow : Option Int64}
    (h : (dispatchDue sha256 config claimNow peer markNow db).1.result = .ok (.ok ())) :
    ∃ now, claimNow = some now ∧
      (((∀ d, (step sha256 db (.m2ClaimDue now)).1 ≠ .ok (.claimed (some d))) ∧
        (dispatchDue sha256 config claimNow peer markNow db).2 =
          (step sha256 db (.m2ClaimDue now)).2) ∨
      ∃ now' d outcome r, (step sha256 db (.m2ClaimDue now)).1 = .ok (.claimed (some d)) ∧
        (step sha256 (step sha256 db (.m2ClaimDue now)).2
          (outcomeCall d.messageId now' outcome)).1 = .ok r ∧
        (dispatchDue sha256 config claimNow peer markNow db).2 =
          (step sha256 (step sha256 db (.m2ClaimDue now)).2
            (outcomeCall d.messageId now' outcome)).2) := by
  cases claimNow with
  | none => cases h
  | some now =>
    refine ⟨now, rfl, ?_⟩
    unfold dispatchDue at h ⊢
    simp only at h ⊢
    generalize step sha256 db (.m2ClaimDue now) = p at h ⊢
    obtain ⟨reply, db'⟩ := p
    -- only a claimed delivery goes on to an attempt
    rcases reply with e | (_ | _ | (_ | d) | _ | _ | _)
    case some.error => cases h
    case some.ok.claimed.some =>
      right
      cases hresult : (attempt config d peer).result with
      | error panic =>
        simp only [hresult] at h
        cases h
      | ok outcome =>
        cases markNow with
        | none =>
          simp only [hresult] at h
          cases h
        | some now' =>
          refine ⟨now', d, outcome, ?_⟩
          simp only [hresult] at h ⊢
          generalize step sha256 db' (outcomeCall d.messageId now' outcome) = q at h ⊢
          obtain ⟨reply, db''⟩ := q
          cases reply with
          | error e => cases h
          | ok r => exact ⟨r, trivial, rfl, rfl⟩
    all_goals exact Or.inl ⟨nofun, rfl⟩

/-- **One step of a living process leaves nothing being sent.** -/
theorem sendingIn_service {db : Db} {c : ServiceCall}
    (hlives : Lives (event (serviceStep sha256 config) db c)) (h : SendingIn ∅ db) :
    SendingIn ∅ (serviceStep sha256 config db c).2 := by
  cases c with
  | client c hc =>
    intro m hm hs
    rcases sendingIn_step c h m hm hs with hid | hid
    · exact hid
    · obtain ⟨now, rfl⟩ := claims_call hid
      cases hc
  | dispatch claimNow peer markNow =>
    have hlives : (dispatchDue sha256 config claimNow peer markNow db).1.result = .ok (.ok ()) :=
      hlives _ rfl
    obtain ⟨now, rfl, ⟨hnone, hdb⟩ | ⟨now', d, outcome, r, hclaim, hmark, hdb⟩⟩ :=
      dispatchDue_lives hlives
    · simp only [serviceStep, hdb]
      intro m hm hs
      rcases sendingIn_step _ h m hm hs with hid | ⟨d, hreply, -⟩
      · exact hid
      · exact absurd hreply (hnone d)
    · simp only [serviceStep, hdb]
      refine sendingIn_mark (markedId_outcomeCall _ _ _) hmark ?_
      intro m hm hs
      rcases sendingIn_step _ h m hm hs with hid | ⟨d', hreply, hid⟩
      · exact absurd hid (Set.notMem_empty _)
      · simp only [event, hclaim, Except.ok.injEq, Reply.claimed.injEq, Option.some.injEq] at hreply
        subst hreply
        exact hid.symm

/-- In every state of a living process nothing is being sent. -/
theorem sendingIn_run {db : Db} (h : SendingIn ∅ db) (calls : List ServiceCall)
    (hlives : ∀ e ∈ events (serviceStep sha256 config) db calls, Lives e) :
    SendingIn ∅ (run (serviceStep sha256 config) db calls) := by
  induction calls generalizing db with
  | nil => exact h
  | cons c calls ih =>
    rw [run_cons]
    rw [events_cons, List.forall_mem_cons] at hlives
    exact ih (sendingIn_service hlives.1 h) hlives.2

end Rounds

/-- **Every outcome is recorded.**  In every state after a claim, the mark of whatever the driver
returns succeeds and moves the row from `sending` to the documented state.  A round that made an
attempt and read the clock again does not fail.  And after the recovery of a start no row is
`sending` between the steps of the process, as long as it lives. -/
theorem every_outcome_recorded (sha256 : List UInt8 → List.Vector UInt8 32) (config : Config) :
    (∀ db now delivery peer outcome now',
      (step sha256 db (.m2ClaimDue now)).1 = .ok (.claimed (some delivery)) →
      (attempt config delivery peer).result = .ok outcome →
      now'.toInt < 2 ^ 63 - 1 - 1000 →
      ∃ m ∈ (step sha256 db (.m2ClaimDue now)).2.messages.rows,
        m.messageId = delivery.messageId ∧ m.state = .sending ∧
        ∃ m', Marked sha256 (step sha256 db (.m2ClaimDue now)).2
            (outcomeCall delivery.messageId now' outcome) m m' ∧
          m'.state = documentedState m.attempts outcome ∧ m'.identity = m.identity ∧
          m'.attempts = m.attempts ∧
          ∀ ack, outcome = .ok (.accepted ack) → m'.providerAck = some ack) ∧
    (∀ db claimNow now' delivery peer a outcome,
      (dispatchDue sha256 config claimNow peer (some now') db).1.attempt = some (delivery, a) →
      a.result = .ok outcome → now'.toInt < 2 ^ 63 - 1 - 1000 →
      (dispatchDue sha256 config claimNow peer (some now') db).1.result = .ok (.ok ())) ∧
    ∀ db now n calls,
      (step sha256 db (.m2RecoverInterrupted now)).1 = .ok (.recovered n) →
      (∀ e ∈ events (serviceStep sha256 config) (step sha256 db (.m2RecoverInterrupted now)).2 calls,
        Lives e) →
      ∀ m ∈ (run (serviceStep sha256 config) (step sha256 db (.m2RecoverInterrupted now)).2
        calls).messages.rows, m.state ≠ .sending := by
  refine ⟨fun db now delivery peer outcome now' => outcome_marked,
    fun db claimNow now' delivery peer a outcome => dispatchDue_ok, ?_⟩
  intro db now n calls hrecover hlives m hm hs
  exact sendingIn_run (sendingIn_recovered hrecover) calls hlives m hm hs

end MsgRiver.Service
