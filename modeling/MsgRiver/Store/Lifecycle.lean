import MsgRiver.Store.Calls

/-!
# The lifecycle of a message over a run

`RowStep` is what one call can do to one row, `Later` the preorder in which a row grows: content
is fixed, attempts only go up, and a row that is `provider_accepted` or `ambiguous` keeps its
outcome.  From these:

* `row_run`: a row is never lost, and is `Later` at the end of a run;
* `reclaim_path`: the way of a row from `sending` back to a claimable state passes through a
  successful `m2_mark_retry`, or through `failed` and a successful `m6_requeue_failed`;
* `message_lifecycle`: the guarantees together.
-/

namespace MsgRiver.Store

open RelTable Result StepRun

/-- What one answered call can do to one row. -/
inductive RowStep (c : Call) (a : Answer) (m : Message) : Message → Prop
  | same : RowStep c a m m
  | moved {m' : Message} {r : Reply} (ha : a = .ok r) (hmove : Moves c r m m') : RowStep c a m m'
  | recovered {now : Int64} (hc : c = .m2RecoverInterrupted now) (hs : m.state = .sending) :
      RowStep c a m (m.giveUp .ambiguous interruptedError now)

/-- The outcome of a row is final. -/
def Message.settled (m : Message) : Prop := m.state = .providerAccepted ∨ m.state = .ambiguous

/-- The submitted content of a row. -/
def Message.content (m : Message) :
    String × String × String × String × String × Option String × String :=
  (m.idempotencyKey, m.driver, m.destination, m.payload, m.topic, m.title, m.body)

/-- `m'` is the row `m` at a later time. -/
structure Later (m m' : Message) : Prop where
  id : m'.messageId = m.messageId
  content : m'.content = m.content
  attempts : m.attempts ≤ m'.attempts
  settled : m.settled → m'.state = m.state ∧ m'.attempts = m.attempts ∧
    m'.providerAck = m.providerAck ∧ m'.lastError = m.lastError

theorem Later.refl (m : Message) : Later m m :=
  ⟨rfl, rfl, le_rfl, fun _ => ⟨rfl, rfl, rfl, rfl⟩⟩

theorem Later.trans {a b c : Message} (h₁ : Later a b) (h₂ : Later b c) : Later a c where
  id := h₂.id.trans h₁.id
  content := h₂.content.trans h₁.content
  attempts := h₁.attempts.trans h₂.attempts
  settled hs := by
    obtain ⟨hst, hat, hack, herr⟩ := h₁.settled hs
    have hb : b.settled := by unfold Message.settled; rw [hst]; exact hs
    obtain ⟨hst', hat', hack', herr'⟩ := h₂.settled hb
    exact ⟨hst'.trans hst, hat'.trans hat, hack'.trans hack, herr'.trans herr⟩

theorem not_settled_of_state {m : Message} {s : MessageState} (hm : m.state = s)
    (h₁ : s ≠ .providerAccepted) (h₂ : s ≠ .ambiguous) : ¬ m.settled := by
  rintro (h | h)
  · exact h₁ (hm.symm.trans h)
  · exact h₂ (hm.symm.trans h)

theorem not_settled_of_waiting {m : Message} (h : m.state.waiting = true) : ¬ m.settled := by
  rintro (hs | hs) <;> rw [hs] at h <;> cases h

/-- A row only moves forward. -/
theorem RowStep.later {c : Call} {a : Answer} {m m' : Message} (h : RowStep c a m m') :
    Later m m' := by
  cases h with
  | same => exact Later.refl m
  | recovered hc hs =>
    exact ⟨rfl, rfl, le_rfl, fun h => absurd h (not_settled_of_state hs (by decide) (by decide))⟩
  | moved ha hmove =>
    cases hmove with
    | claim hdue =>
      refine ⟨rfl, rfl, ?_, fun h => absurd h (not_settled_of_waiting ?_)⟩
      · simp only [Message.claim]; omega
      · simp only [Message.due, Bool.and_eq_true] at hdue
        exact hdue.1
    | accept hs =>
      exact ⟨rfl, rfl, le_rfl, fun h => absurd h (not_settled_of_state hs (by decide) (by decide))⟩
    | schedule hs =>
      exact ⟨rfl, rfl, le_rfl, fun h => absurd h (not_settled_of_state hs (by decide) (by decide))⟩
    | exhaust hs =>
      exact ⟨rfl, rfl, le_rfl, fun h => absurd h (not_settled_of_state hs (by decide) (by decide))⟩
    | fail hs =>
      exact ⟨rfl, rfl, le_rfl, fun h => absurd h (not_settled_of_state hs (by decide) (by decide))⟩
    | doubt hs =>
      exact ⟨rfl, rfl, le_rfl, fun h => absurd h (not_settled_of_state hs (by decide) (by decide))⟩
    | requeue hs =>
      exact ⟨rfl, rfl, le_rfl, fun h => absurd h (not_settled_of_state hs (by decide) (by decide))⟩

section Runs

variable {sha256 : List UInt8 → List.Vector UInt8 32}

variable (sha256) in
/-- **One call and one row.**  The row stays in the table and makes at most one step. -/
theorem row_step (db : Db) (c : Call) {m : Message} (hm : m ∈ db.messages.rows) :
    ∃ m' ∈ (step sha256 db c).2.messages.rows, RowStep c (step sha256 db c).1 m m' := by
  have heff := step_effect sha256 db c
  generalize step sha256 db c = p at heff ⊢
  obtain ⟨a, db'⟩ := p
  cases heff with
  | failure | m2Existing | m3Existing | inboundIdle | switched | nothingDue | notRequeued =>
    exact ⟨m, hm, .same⟩
  | m2New hrows => exact ⟨m, by simp only [hrows]; exact List.mem_append_left _ hm, .same⟩
  | m3New _ hrows => exact ⟨m, by simp only [hrows]; exact List.mem_append_left _ hm, .same⟩
  | inboundAccepted _ _ hmessages =>
    exact ⟨m, by simp only [hmessages]; exact List.mem_append_left _ hm, .same⟩
  | @moved _ r x x' messages hx hmove hrows =>
    refine ⟨replaceRow x x' m, ?_, ?_⟩
    · simp only [hrows]
      exact List.mem_map_of_mem hm
    · unfold replaceRow
      split_ifs with hid
      · obtain rfl := Table.eq_of_key messageId_mem_keys hm hx hid
        exact .moved rfl hmove
      · exact .same
  | @recovered now _ messages hrows =>
    refine ⟨recoverRow now m, ?_, ?_⟩
    · simp only [hrows]
      exact List.mem_map_of_mem hm
    · unfold recoverRow
      split_ifs with hs
      · exact .recovered rfl hs
      · exact .same

variable (sha256) in
/-- A row is never lost over a run, and only moves forward. -/
theorem row_run (db : Db) (calls : List Call) {m : Message} (hm : m ∈ db.messages.rows) :
    ∃ m' ∈ (run (step sha256) db calls).messages.rows, Later m m' := by
  induction calls generalizing db m with
  | nil => exact ⟨m, hm, Later.refl m⟩
  | cons c calls ih =>
    obtain ⟨m₁, hm₁, hstep⟩ := row_step sha256 db c hm
    obtain ⟨m₂, hm₂, hlater⟩ := ih _ hm₁
    exact ⟨m₂, hm₂, hstep.later.trans hlater⟩

/-! ### Events of one message -/

/-- The event hands the message out to a driver. -/
def Claims (id : String) (e : StoreEvent) : Prop :=
  ∃ d, e.reply = .ok (.claimed (some d)) ∧ d.messageId = id

/-- The event is a successful `m2_mark_retry` of the message. -/
def MarksRetry (id : String) (e : StoreEvent) : Prop :=
  (∃ reason delayMs now, e.call = .m2MarkRetry id reason delayMs now) ∧ e.reply = .ok .done

/-- The event is a successful `m6_requeue_failed` of the message. -/
def Requeues (id : String) (e : StoreEvent) : Prop :=
  (∃ now, e.call = .m6RequeueFailed id now) ∧ e.reply = .ok (.requeued (some true))

/-- The event takes the row of the message to `failed`. -/
def TurnsFailed (id : String) (e : StoreEvent) : Prop :=
  (∃ m ∈ e.before.messages.rows, m.messageId = id ∧ m.state ≠ .failed) ∧
    ∃ m ∈ e.after.messages.rows, m.messageId = id ∧ m.state = .failed

/-- A retry, or a failure followed by a requeue, among the events. -/
def Released (id : String) (es : List StoreEvent) : Prop :=
  (∃ e ∈ es, MarksRetry id e) ∨
    ∃ l f r, es = l ++ f :: r ∧ TurnsFailed id f ∧ ∃ q ∈ r, Requeues id q

theorem Released.cons {id : String} {es : List StoreEvent} (h : Released id es) (e : StoreEvent) :
    Released id (e :: es) := by
  rcases h with ⟨x, hx, hr⟩ | ⟨l, f, r, rfl, hf, hq⟩
  · exact Or.inl ⟨x, List.mem_cons_of_mem _ hx, hr⟩
  · exact Or.inr ⟨e :: l, f, r, rfl, hf, hq⟩

/-- The claim behind a claiming event: a waiting row before it, a sending row after it. -/
theorem claim_event {db : Db} {c : Call} {id : String}
    (h : Claims id (event (step sha256) db c)) :
    (∃ m ∈ db.messages.rows, m.messageId = id ∧ m.state.waiting = true) ∧
      ∃ m ∈ (step sha256 db c).2.messages.rows, m.messageId = id ∧ m.state = .sending := by
  obtain ⟨d, hreply, rfl⟩ := h
  simp only [event] at hreply
  have heff := step_effect sha256 db c
  generalize step sha256 db c = p at heff hreply ⊢
  obtain ⟨a, db'⟩ := p
  simp only at hreply
  subst hreply
  cases heff with
  | @moved _ _ m m' messages hm hmove hrows =>
    cases hmove with
    | @claim _ now _ hdue =>
      simp only [Message.due, Bool.and_eq_true] at hdue
      refine ⟨⟨m, hm, rfl, hdue.1⟩, m.claim now, ?_, rfl, rfl⟩
      simp only [hrows]
      exact List.mem_map.2 ⟨m, hm, by simp [replaceRow]⟩

/-- **The way back to a claim.**  A row that waits at the end of a run was released on the way, by
its own retry mark or by a failure and a requeue; a settled row never waits again. -/
theorem reclaim_path (db : Db) (calls : List Call) {m m' : Message} (hm : m ∈ db.messages.rows)
    (hm' : m' ∈ (run (step sha256) db calls).messages.rows) (hid : m'.messageId = m.messageId)
    (hw : m'.state.waiting = true) :
    (m.state = .sending → Released m.messageId (events (step sha256) db calls)) ∧
    (m.state = .failed → ∃ q ∈ events (step sha256) db calls, Requeues m.messageId q) ∧
    ¬ m.settled := by
  induction calls generalizing db m with
  | nil =>
    obtain rfl := Table.eq_of_key messageId_mem_keys hm' hm hid
    refine ⟨fun h => ?_, fun h => ?_, not_settled_of_waiting hw⟩ <;> rw [h] at hw <;> cases hw
  | cons c calls ih =>
    obtain ⟨x, hx, hstep⟩ := row_step sha256 db c hm
    have hxid := hstep.later.id
    obtain ⟨ihs, ihf, ihn⟩ := ih _ hx hm' (hid.trans hxid.symm)
    rw [hxid] at ihs ihf
    have hset : ¬ m.settled := by
      intro hs
      obtain ⟨hst, -⟩ := hstep.later.settled hs
      exact ihn (by unfold Message.settled; rw [hst]; exact hs)
    -- the first step either releases the row, or leaves it to the rest of the run
    cases hstep with
    | same =>
      refine ⟨fun h => (ihs h).cons _, fun h => ?_, hset⟩
      obtain ⟨q, hq, hr⟩ := ihf h
      exact ⟨q, List.mem_cons_of_mem _ hq, hr⟩
    | recovered hc hs => exact absurd (Or.inr rfl) ihn
    | @moved _ r ha hmove =>
      cases hmove with
      | claim hdue =>
        have hwait : m.state.waiting = true := by
          simp only [Message.due, Bool.and_eq_true] at hdue
          exact hdue.1
        refine ⟨fun h => ?_, fun h => ?_, hset⟩ <;> rw [h] at hwait <;> cases hwait
      | accept hs => exact absurd (Or.inl rfl) ihn
      | schedule hs hbudget hnext =>
        refine ⟨fun _ => Or.inl ⟨event (step sha256) db _, List.mem_cons_self, ?_⟩,
          fun h => ?_, hset⟩
        · exact ⟨⟨_, _, _, rfl⟩, ha⟩
        · rw [hs] at h; cases h
      | exhaust hs hbudget =>
        refine ⟨fun _ => Or.inl ⟨event (step sha256) db _, List.mem_cons_self, ?_⟩,
          fun h => ?_, hset⟩
        · exact ⟨⟨_, _, _, rfl⟩, ha⟩
        · rw [hs] at h; cases h
      | fail hs =>
        refine ⟨fun _ => Or.inr ⟨[], event (step sha256) db _, _, rfl, ⟨?_, ?_⟩, ihf rfl⟩,
          fun h => ?_, hset⟩
        · exact ⟨m, hm, rfl, by rw [hs]; decide⟩
        · exact ⟨_, hx, rfl, rfl⟩
        · rw [hs] at h; cases h
      | doubt hs => exact absurd (Or.inr rfl) ihn
      | requeue hs =>
        refine ⟨fun h => ?_, fun _ => ⟨event (step sha256) db _, List.mem_cons_self, ?_⟩, hset⟩
        · rw [hs] at h; cases h
        · exact ⟨⟨_, rfl⟩, ha⟩

/-- Between two claims of a message it was released. -/
theorem released_between_claims {db : Db} {calls : List Call} {id : String}
    {l mid r : List StoreEvent} {e₁ e₂ : StoreEvent}
    (h : events (step sha256) db calls = l ++ e₁ :: (mid ++ e₂ :: r)) (h₁ : Claims id e₁)
    (h₂ : Claims id e₂) : Released id mid := by
  obtain ⟨pre, c₁, post, rfl, rfl, rfl, hpost⟩ := events_eq_append_cons h
  obtain ⟨between, c₂, post', rfl, rfl, rfl, -⟩ := events_eq_append_cons hpost.symm
  obtain ⟨-, m, hm, rfl, hs⟩ := claim_event h₁
  obtain ⟨⟨m', hm', hid, hw⟩, -⟩ := claim_event h₂
  exact (reclaim_path _ between hm hm' hid hw).1 hs

/-- A settled row is not claimed in the rest of a run. -/
theorem settled_not_claimed {db : Db} {calls : List Call} {m : Message}
    (hm : m ∈ db.messages.rows) (hs : m.settled) :
    ∀ e ∈ events (step sha256) db calls, ¬ Claims m.messageId e := by
  intro e he hclaim
  obtain ⟨pre, c, post, rfl, rfl⟩ := mem_events_iff.1 he
  obtain ⟨⟨m', hm', hid, hw⟩, -⟩ := claim_event hclaim
  exact (reclaim_path db pre hm hm' hid hw).2.2 hs

/-- An answer `Err` goes with an unchanged store. -/
theorem unchanged_of_error {db : Db} {c : Call} {e : StoreError}
    (h : (step sha256 db c).1 = .error e) : (step sha256 db c).2 = db := by
  have heff := step_effect sha256 db c
  generalize step sha256 db c = p at heff h ⊢
  obtain ⟨a, db'⟩ := p
  simp only at h
  subst h
  cases heff
  rfl

end Runs

/-- The nullable columns of a row fit its state. -/
theorem nullable_columns {db : Db} {m : Message} (hm : m ∈ db.messages.rows) :
    (m.nextAttemptAtUnixMs.isSome ↔ m.state = .queued ∨ m.state = .retryScheduled) ∧
    (m.providerAck.isSome ↔ m.state = .providerAccepted) ∧
    (m.lastError.isSome ↔ m.state = .ambiguous ∨ m.state = .failed) := by
  obtain ⟨-, -, -, -, -, hnext, hack, herr, -⟩ := (Message.check_iff m).1 (Db.check_of_mem hm)
  rw [← hnext, ← hack, ← herr]
  cases m.state <;> decide

/-- **The delivery lifecycle.**  Over every run of the store: (a) a row that is
`provider_accepted` or `ambiguous` is never claimed again and keeps its outcome; (b) two claims of
a message have a release between them; (c) rows are kept with their content, and attempts never go
down; (d) the nullable columns fit the state; (e) a call that answers `Err` changes nothing. -/
theorem message_lifecycle (sha256 : List UInt8 → List.Vector UInt8 32) (calls : List Call) :
    (∀ pre post, calls = pre ++ post →
      ∀ m ∈ (run (step sha256) Db.migrated pre).messages.rows, m.settled →
        (∀ e ∈ events (step sha256) (run (step sha256) Db.migrated pre) post,
          ¬ Claims m.messageId e) ∧
        ∃ m' ∈ (run (step sha256) Db.migrated calls).messages.rows,
          m'.messageId = m.messageId ∧ m'.state = m.state ∧ m'.attempts = m.attempts ∧
          m'.providerAck = m.providerAck ∧ m'.lastError = m.lastError) ∧
    (∀ l e₁ mid e₂ r id,
      events (step sha256) Db.migrated calls = l ++ e₁ :: (mid ++ e₂ :: r) →
      Claims id e₁ → Claims id e₂ → Released id mid) ∧
    (∀ pre post, calls = pre ++ post →
      ∀ m ∈ (run (step sha256) Db.migrated pre).messages.rows,
        ∃ m' ∈ (run (step sha256) Db.migrated calls).messages.rows,
          m'.messageId = m.messageId ∧ m'.content = m.content ∧ m.attempts ≤ m'.attempts) ∧
    (∀ m ∈ (run (step sha256) Db.migrated calls).messages.rows,
      (m.nextAttemptAtUnixMs.isSome ↔ m.state = .queued ∨ m.state = .retryScheduled) ∧
      (m.providerAck.isSome ↔ m.state = .providerAccepted) ∧
      (m.lastError.isSome ↔ m.state = .ambiguous ∨ m.state = .failed)) ∧
    (∀ e ∈ events (step sha256) Db.migrated calls, ∀ err, e.reply = .error err →
      e.after = e.before) := by
  refine ⟨?_, ?_, ?_, ?_, ?_⟩
  · rintro pre post rfl m hm hs
    refine ⟨settled_not_claimed hm hs, ?_⟩
    rw [run_append]
    obtain ⟨m', hm', hlater⟩ := row_run sha256 _ post hm
    exact ⟨m', hm', hlater.id, hlater.settled hs⟩
  · intro l e₁ mid e₂ r id h h₁ h₂
    exact released_between_claims h h₁ h₂
  · rintro pre post rfl m hm
    rw [run_append]
    obtain ⟨m', hm', hlater⟩ := row_run sha256 _ post hm
    exact ⟨m', hm', hlater.id, hlater.content, hlater.attempts⟩
  · intro m hm
    exact nullable_columns hm
  · intro e he err herr
    obtain ⟨pre, c, post, rfl, rfl⟩ := mem_events_iff.1 he
    exact unchanged_of_error herr

end MsgRiver.Store
