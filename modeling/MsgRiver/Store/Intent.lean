import MsgRiver.Lib.Sha256
import MsgRiver.Store.Lifecycle

/-!
# Submissions and the queue

The three intakes (`m2_submit`, `m3_submit`, `m4_submit_inbound`) share one table and one key space.
An `Intake` is a submission through one of them, and its `Intent` is what the submitter asked for.

* `queue_run`: the queue is a record of the admitted submissions, in order, with their content;
* `existing_intent_iff`: when an answer `Existing` stands for the submitted intent.  `m3_submit`
  compares the provider-neutral columns and is always right; `m2_submit` compares the legacy
  columns only, which other intakes fill differently.
-/

namespace MsgRiver.Store

open RelTable Result StepRun

/-- What a submission asks for. -/
structure Intent where
  driver : String
  destination : String
  title : Option String
  body : String
  deriving DecidableEq

/-- A submission through one of the three intakes. -/
inductive Intake
  | m2 (submission : M2Submission)
  | m3 (submission : M3Submission)
  | m4 (submission : M4InboundSubmission)
  deriving DecidableEq

/-- The idempotency key that a call reserves. -/
def Intake.key : Intake → String
  | .m2 s => s.idempotencyKey
  | .m3 s => s.idempotencyKey
  | .m4 s => m4Key s.providerMessageId

/-- What a call asks to be delivered. -/
def Intake.intent : Intake → Intent
  | .m2 s => ⟨"ntfy", s.topic, s.title, s.body⟩
  | .m3 s => ⟨s.driver, s.destination, none, s.payload⟩
  | .m4 s => ⟨s.driver, s.destination, none, s.payload⟩

/-- The row that an admitted submission inserts. -/
def Intake.row (sha256 : List UInt8 → List.Vector UInt8 32) (now : Int64) : Intake → Message
  | .m2 s => m2Message sha256 s now
  | .m3 s => m3Message sha256 s now
  | .m4 s => m4Message sha256 s now

/-- The submission that an event admits, with its time. -/
def admission (e : StoreEvent) : Option (Intake × Int64) :=
  match e.call, e.reply with
  | .m2Submit s now, .ok (.submitted (.new _)) => some (.m2 s, now)
  | .m3Submit s now, .ok (.submitted (.new _)) => some (.m3 s, now)
  | .m4SubmitInbound s now, .ok (.inbound .accepted) => some (.m4 s, now)
  | _, _ => none

/-- The submissions admitted in a run, in order. -/
def admissions (es : List StoreEvent) : List (Intake × Int64) := es.filterMap admission

/-- The columns of a row that never change. -/
def Message.identity (m : Message) :
    String × String × String × String × String × String × Option String × String :=
  (m.messageId, m.content)

/-- The intent that a row stands for. -/
def Message.intent (m : Message) : Intent := ⟨m.driver, m.destination, m.title, m.body⟩

theorem intent_of_identity {a b : Message} (h : a.identity = b.identity) : a.intent = b.intent := by
  simp only [Message.identity, Message.content, Prod.mk.injEq] at h
  simp only [Message.intent, h]

theorem key_of_identity {a b : Message} (h : a.identity = b.identity) :
    a.idempotencyKey = b.idempotencyKey := by
  simp only [Message.identity, Message.content, Prod.mk.injEq] at h
  exact h.2.1

theorem Intake.row_intent (sha256 : List UInt8 → List.Vector UInt8 32) (now : Int64) (i : Intake) :
    (i.row sha256 now).intent = i.intent := by
  cases i <;> rfl

theorem Intake.row_key (sha256 : List UInt8 → List.Vector UInt8 32) (now : Int64) (i : Intake) :
    (i.row sha256 now).idempotencyKey = i.key := by
  cases i <;> rfl

/-- The payload column of an admitted row: empty for `m2_submit`, the body otherwise, and then
without a title. -/
theorem Intake.row_payload (sha256 : List UInt8 → List.Vector UInt8 32) (now : Int64) (i : Intake) :
    (i.row sha256 now).payload = "" ∨
      (i.row sha256 now).payload = (i.row sha256 now).body ∧ (i.row sha256 now).title = none := by
  cases i with
  | m2 s => exact Or.inl rfl
  | m3 s => exact Or.inr ⟨rfl, rfl⟩
  | m4 s => exact Or.inr ⟨rfl, rfl⟩

/-! ### The queue is a record of the admissions -/

section Runs

variable {sha256 : List UInt8 → List.Vector UInt8 32}

theorem Later.identity {m m' : Message} (h : Later m m') : m'.identity = m.identity := by
  simp only [Message.identity, h.id, h.content]

theorem replaceRow_identity {c : Call} {r : Reply} {m m' : Message} {rows : List Message}
    (huniq : ∀ x ∈ rows, x.messageId = m.messageId → x = m) (hmove : Moves c r m m') :
    (rows.map (replaceRow m m')).map Message.identity = rows.map Message.identity := by
  rw [List.map_map]
  apply List.map_congr_left
  intro x hx
  simp only [Function.comp_apply, replaceRow]
  split_ifs with hid
  · rw [huniq x hx hid]
    exact (RowStep.moved rfl hmove).later.identity
  · rfl

theorem recoverRow_identity (now : Int64) (rows : List Message) :
    (rows.map (recoverRow now)).map Message.identity = rows.map Message.identity := by
  rw [List.map_map]
  apply List.map_congr_left
  intro x _
  simp only [Function.comp_apply, recoverRow]
  split_ifs <;> rfl

/-- **One call and the queue.**  It grows by the row of an admitted submission. -/
theorem queue_step (db : Db) (c : Call) :
    (step sha256 db c).2.messages.rows.map Message.identity =
      db.messages.rows.map Message.identity ++
        (admission (event (step sha256) db c)).toList.map
          (fun p => (p.1.row sha256 p.2).identity) := by
  have heff := step_effect sha256 db c
  unfold event
  generalize step sha256 db c = p at heff ⊢
  obtain ⟨a, db'⟩ := p
  cases heff with
  | failure c e => cases c <;> simp [admission]
  | m2Existing | m3Existing | switched | nothingDue | notRequeued => simp [admission]
  | inboundIdle hd =>
    rename_i d
    cases d <;> first | exact absurd rfl hd | simp [admission]
  | m2New hrows => simp [hrows, admission, Intake.row]
  | m3New _ hrows => simp [hrows, admission, Intake.row]
  | inboundAccepted _ _ hmessages => simp [hmessages, admission, Intake.row]
  | @moved _ r x x' messages hx hmove hrows =>
    have hnone : admission ⟨db, c, .ok r, { db with messages := messages }⟩ = none := by
      cases hmove <;> rfl
    simp only [hnone, hrows, Option.toList_none, List.map_nil, List.append_nil]
    exact replaceRow_identity
      (fun y hy hid => Table.eq_of_key messageId_mem_keys hy hx hid) hmove
  | recovered hrows =>
    simp only [hrows, admission, Option.toList_none, List.map_nil, List.append_nil]
    exact recoverRow_identity _ _

/-- **A run and the queue.** -/
theorem queue_run (db : Db) (calls : List Call) :
    (run (step sha256) db calls).messages.rows.map Message.identity =
      db.messages.rows.map Message.identity ++
        (admissions (events (step sha256) db calls)).map
          (fun p => (p.1.row sha256 p.2).identity) := by
  induction calls generalizing db with
  | nil => simp [admissions]
  | cons c calls ih =>
    have hsplit : admissions (events (step sha256) db (c :: calls)) =
        (admission (event (step sha256) db c)).toList ++
          admissions (events (step sha256) (step sha256 db c).2 calls) := by
      rw [events_cons, admissions, List.filterMap_cons]
      cases admission (event (step sha256) db c) <;> rfl
    rw [run_cons, ih, queue_step, hsplit, List.map_append, List.append_assoc]

/-- The rows of a reachable queue are those of the admitted submissions. -/
theorem queue_of_run (calls : List Call) :
    (run (step sha256) Db.migrated calls).messages.rows.map Message.identity =
      (admissions (events (step sha256) Db.migrated calls)).map
        (fun p => (p.1.row sha256 p.2).identity) :=
  queue_run Db.migrated calls

/-- Every row comes from an admitted submission. -/
theorem admitted_of_row {calls : List Call} {m : Message}
    (hm : m ∈ (run (step sha256) Db.migrated calls).messages.rows) :
    ∃ p ∈ admissions (events (step sha256) Db.migrated calls),
      (p.1.row sha256 p.2).identity = m.identity := by
  have h := List.mem_map_of_mem (f := Message.identity) hm
  rw [queue_of_run] at h
  exact List.mem_map.1 h

/-- Every admitted submission has its row. -/
theorem row_of_admitted {calls : List Call} {p : Intake × Int64}
    (hp : p ∈ admissions (events (step sha256) Db.migrated calls)) :
    ∃ m ∈ (run (step sha256) Db.migrated calls).messages.rows,
      m.identity = (p.1.row sha256 p.2).identity := by
  have h := List.mem_map_of_mem (f := fun p => (Intake.row sha256 p.2 p.1).identity) hp
  rw [← queue_of_run] at h
  exact List.mem_map.1 h

/-! ### Answers to a key that is taken -/

theorem key_taken_of_new {db : Db} {messages : Table messageSchema} {m row : Message}
    (hrows : messages.rows = db.messages.rows ++ [m]) (hrow : row ∈ db.messages.rows) :
    row.idempotencyKey ≠ m.idempotencyKey := by
  intro heq
  have hnodup := messages.unique _ idempotencyKey_mem_keys
  rw [hrows, List.map_append, List.nodup_append] at hnodup
  exact hnodup.2.2 _ (List.mem_map_of_mem hrow) _
    (List.mem_map_of_mem (List.mem_singleton.2 rfl)) heq

variable (sha256) in
/-- `m2_submit` under a key that is taken compares the legacy columns. -/
theorem m2Submit_of_key {db : Db} {s : M2Submission} {row : Message} (now : Int64)
    (hvalid : validateM2Submission s = .ok ()) (hrow : row ∈ db.messages.rows)
    (hkey : row.idempotencyKey = s.idempotencyKey) (htopic : row.topic = s.topic)
    (htitle : row.title = s.title) (hbody : row.body = s.body) :
    (step sha256 db (.m2Submit s now)).1 = .ok (.submitted (.existing row.messageId)) := by
  have hsel : db.messages.select (fun m => decide (m.idempotencyKey = s.idempotencyKey))
      = some row := (Table.select_key_eq_some idempotencyKey_mem_keys).2 ⟨hrow, hkey⟩
  simp [step, answer, m2Submit, transaction, hvalid, hsel, htopic, htitle, hbody, bind, Except.bind,
    pure, Except.pure, Except.map]

end Runs

/-! ### The meaning of `Existing` -/

/-- The key and intent that a call of `m2_submit` or `m3_submit` submits. -/
def Call.submitted : Call → Option Intake
  | .m2Submit s _ => some (.m2 s)
  | .m3Submit s _ => some (.m3 s)
  | _ => none

/-- An answer to a submission respects the intents on record: `Existing` names the row of an
admitted submission with the same key and intent, and a key on record with another intent is
answered with `Err` and no change. -/
def RespectsIntent (sha256 : List UInt8 → List.Vector UInt8 32) (admitted : List (Intake × Int64))
    (e : StoreEvent) : Prop :=
  ∀ i, e.call.submitted = some i →
    (∀ id, e.reply = .ok (.submitted (.existing id)) →
      ∃ m ∈ e.before.messages.rows, m.idempotencyKey = i.key ∧ m.messageId = id ∧
        ∃ p ∈ admitted, (p.1.row sha256 p.2).identity = m.identity ∧ p.1.intent = i.intent) ∧
    (∀ p ∈ admitted, p.1.key = i.key → p.1.intent ≠ i.intent →
      (∃ err, e.reply = .error err) ∧ e.after = e.before)

/-- A valid `m2_submit` that finds its topic, title and body in the legacy columns of the row under
its key finds an ntfy row addressed to that topic. -/
def LegacyColumnsDecide (e : StoreEvent) : Prop :=
  ∀ s now, e.call = .m2Submit s now → validateM2Submission s = .ok () →
    ∀ m ∈ e.before.messages.rows, m.idempotencyKey = s.idempotencyKey → m.topic = s.topic →
      m.title = s.title → m.body = s.body → m.driver = "ntfy" ∧ m.destination = s.topic

section Runs

variable {sha256 : List UInt8 → List.Vector UInt8 32}

/-- Two answers of the kind `RespectsIntent` asks for, from the row under the submitted key. -/
theorem respectsIntent_of_row {calls : List Call} {c : Call} {i : Intake}
    (hi : c.submitted = some i)
    (hexisting : ∀ m ∈ (run (step sha256) Db.migrated calls).messages.rows,
      m.idempotencyKey = i.key →
      (step sha256 (run (step sha256) Db.migrated calls) c).1 =
        .ok (.submitted (.existing m.messageId)) → m.intent = i.intent) :
    RespectsIntent sha256 (admissions (events (step sha256) Db.migrated calls))
      (event (step sha256) (run (step sha256) Db.migrated calls) c) := by
  intro j hj
  obtain rfl : i = j := Option.some.inj (hi.symm.trans hj)
  simp only [event]
  have heff := step_effect sha256 (run (step sha256) Db.migrated calls) c
  constructor
  · intro id hreply
    -- an answer `existing` comes from the row under the key of the intake
    obtain ⟨m, hm, hkey, rfl⟩ : ∃ m ∈ (run (step sha256) Db.migrated calls).messages.rows,
        m.idempotencyKey = i.key ∧ m.messageId = id := by
      generalize step sha256 (run (step sha256) Db.migrated calls) c = q at heff hreply
      obtain ⟨a, db'⟩ := q
      simp only at hreply
      subst hreply
      cases heff with
      | m2Existing _ hrow hkey =>
        cases hi
        exact ⟨_, hrow, hkey, rfl⟩
      | m3Existing hrow hkey =>
        cases hi
        exact ⟨_, hrow, hkey, rfl⟩
      | moved _ hmove => cases hmove
    obtain ⟨p, hp, hid⟩ := admitted_of_row hm
    refine ⟨m, hm, hkey, rfl, p, hp, hid, ?_⟩
    rw [← p.1.row_intent sha256 p.2, intent_of_identity hid]
    exact hexisting m hm hkey hreply
  · intro p hp hkey hne
    obtain ⟨m, hm, hid⟩ := row_of_admitted hp
    have hmkey : m.idempotencyKey = i.key := by
      rw [key_of_identity hid, p.1.row_key, hkey]
    have hmne : m.intent ≠ i.intent := by
      rwa [intent_of_identity hid, p.1.row_intent]
    have hnot := mt (hexisting m hm hmkey) hmne
    generalize step sha256 (run (step sha256) Db.migrated calls) c = q at heff hnot ⊢
    obtain ⟨a, db'⟩ := q
    -- an intake whose key is taken by another intent can only fail
    cases heff with
    | failure _ e => exact ⟨⟨e, rfl⟩, rfl⟩
    | m2Existing _ hrow hkey' =>
      cases hi
      exact absurd (by rw [Table.eq_of_key idempotencyKey_mem_keys hm hrow
        (hmkey.trans hkey'.symm)]) hnot
    | m3Existing hrow hkey' =>
      cases hi
      exact absurd (by rw [Table.eq_of_key idempotencyKey_mem_keys hm hrow
        (hmkey.trans hkey'.symm)]) hnot
    | m2New hrows =>
      cases hi
      exact absurd hmkey (key_taken_of_new hrows hm)
    | m3New _ hrows =>
      cases hi
      exact absurd hmkey (key_taken_of_new hrows hm)
    | inboundIdle | inboundAccepted | switched | nothingDue | recovered | notRequeued => cases hi
    | moved _ hmove => cases hmove <;> cases hi

/-- The row that `m3_submit` answers with has the submitted intent. -/
theorem m3_existing_intent {calls : List Call} {s : M3Submission} {now : Int64} {m : Message}
    (hm : m ∈ (run (step sha256) Db.migrated calls).messages.rows)
    (hreply : (step sha256 (run (step sha256) Db.migrated calls) (.m3Submit s now)).1 =
      .ok (.submitted (.existing m.messageId))) : m.intent = (Intake.m3 s).intent := by
  have heff := step_effect sha256 (run (step sha256) Db.migrated calls) (.m3Submit s now)
  generalize step sha256 (run (step sha256) Db.migrated calls) (.m3Submit s now) = q
    at heff hreply
  obtain ⟨a, db'⟩ := q
  simp only at hreply
  subst hreply
  generalize hid : m.messageId = id at heff
  cases heff with
  | m3Existing hrow hkey hpayload hdriver hdestination hsame =>
    obtain rfl := Table.eq_of_key messageId_mem_keys hm hrow hid
    obtain ⟨p, -, hp⟩ := admitted_of_row hm
    have hcols := p.1.row_payload sha256 p.2
    simp only [Message.identity, Message.content, Prod.mk.injEq] at hp
    obtain ⟨-, -, -, -, hpp, -, hpt, hpb⟩ := hp
    rw [hpp, hpt, hpb] at hcols
    rcases hcols with hempty | ⟨hbody, htitle⟩
    · exact absurd (hsame.symm.trans hempty) hpayload
    · simp only [Message.intent, Intake.intent, hdriver, hdestination, htitle, ← hbody, hsame]
  | moved _ hmove => cases hmove

/-- The row that `m2_submit` answers with agrees with it in the legacy columns. -/
theorem m2_existing_columns {db : Db} {s : M2Submission} {now : Int64} {m : Message}
    (hm : m ∈ db.messages.rows)
    (hreply : (step sha256 db (.m2Submit s now)).1 = .ok (.submitted (.existing m.messageId))) :
    validateM2Submission s = .ok () ∧ m.topic = s.topic ∧ m.title = s.title ∧ m.body = s.body := by
  have heff := step_effect sha256 db (.m2Submit s now)
  generalize step sha256 db (.m2Submit s now) = q at heff hreply
  obtain ⟨a, db'⟩ := q
  simp only at hreply
  subst hreply
  generalize hid : m.messageId = id at heff
  cases heff with
  | m2Existing hvalid hrow hkey htopic htitle hbody =>
    obtain rfl := Table.eq_of_key messageId_mem_keys hm hrow hid
    exact ⟨hvalid, htopic, htitle, hbody⟩
  | moved _ hmove => cases hmove

/-- `m2_submit` respects the intents on record exactly when the legacy columns decide. -/
theorem m2_respectsIntent_iff (calls : List Call) (s : M2Submission) (now : Int64) :
    RespectsIntent sha256 (admissions (events (step sha256) Db.migrated calls))
        (event (step sha256) (run (step sha256) Db.migrated calls) (.m2Submit s now)) ↔
      LegacyColumnsDecide
        (event (step sha256) (run (step sha256) Db.migrated calls) (.m2Submit s now)) := by
  constructor
  · rintro h s' now' hcall hvalid m hm hkey htopic htitle hbody
    cases hcall
    have hreply := m2Submit_of_key sha256 now hvalid hm hkey htopic htitle hbody
    obtain ⟨m', hm', hkey', -, p, -, hid, hintent⟩ := (h (.m2 s) rfl).1 m.messageId hreply
    obtain rfl := Table.eq_of_key idempotencyKey_mem_keys hm hm' (hkey.trans hkey'.symm)
    rw [← p.1.row_intent sha256 p.2, intent_of_identity hid] at hintent
    simp only [Message.intent, Intake.intent, Intent.mk.injEq] at hintent
    exact ⟨hintent.1, hintent.2.1⟩
  · intro h
    refine respectsIntent_of_row rfl fun m hm hkey hreply => ?_
    obtain ⟨hvalid, htopic, htitle, hbody⟩ := m2_existing_columns hm hreply
    obtain ⟨hdriver, hdestination⟩ := h s now rfl hvalid m hm hkey htopic htitle hbody
    simp only [Message.intent, Intake.intent, hdriver, hdestination, htitle, hbody]

end Runs

/-- **The meaning of `Existing`.**  In every reachable state and for every call: the answer to a
submission respects the intents on record exactly when the legacy columns decide (for `m3_submit`
always), and no key has two rows. -/
theorem existing_intent_iff (sha256 : List UInt8 → List.Vector UInt8 32) (calls : List Call)
    (c : Call) :
    let db := run (step sha256) Db.migrated calls
    (RespectsIntent sha256 (admissions (events (step sha256) Db.migrated calls))
        (event (step sha256) db c) ↔ LegacyColumnsDecide (event (step sha256) db c)) ∧
    ∀ key, db.messages.rows.countP (fun m => decide (m.idempotencyKey = key)) ≤ 1 := by
  intro db
  refine ⟨?_, fun key => ?_⟩
  · -- only `m2_submit` and `m3_submit` can answer `Existing`
    by_cases hm2 : ∃ s now, c = .m2Submit s now
    · obtain ⟨s, now, rfl⟩ := hm2
      exact m2_respectsIntent_iff calls s now
    · have htrue : LegacyColumnsDecide (event (step sha256) db c) :=
        fun s now hcall => absurd ⟨s, now, hcall⟩ hm2
      refine iff_of_true ?_ htrue
      cases hi : c.submitted with
      | none =>
        intro i hi'
        simp only [event, hi] at hi'
        cases hi'
      | some i =>
        refine respectsIntent_of_row hi fun m hm _ hreply => ?_
        cases c with
        | m3Submit s now =>
          cases hi
          exact m3_existing_intent hm hreply
        | m2Submit s now => exact absurd ⟨s, now, rfl⟩ hm2
        | m4SubmitInbound | m4SetInboundEnabled | m2ClaimDue | m2MarkAccepted | m2MarkRetry
        | m2MarkFailed | m2MarkAmbiguous | m2RecoverInterrupted | m6RequeueFailed => cases hi
  · have h := Table.countP_key_le_one (t := db.messages) idempotencyKey_mem_keys key (fun _ => true)
    simpa using h

/-! ### A WhatsApp command taken for an ntfy notice -/

/-- A WhatsApp command whose topic column is the driver name. -/
def queuedTemplate : M3Submission := ⟨"job-1", "whatsapp", "+15550001111", "hello"⟩

/-- An ntfy notice to the topic `whatsapp`, under the same key and with the same text. -/
def topicNotice : M2Submission := ⟨"job-1", "whatsapp", none, "hello"⟩

/-- The notice is answered `Existing` with the id of the WhatsApp command. -/
theorem existing_for_other_intent :
    ¬ ∀ (calls : List Call) (c : Call),
      RespectsIntent Sha256.sha256 (admissions (events (step Sha256.sha256) Db.migrated calls))
        (event (step Sha256.sha256) (run (step Sha256.sha256) Db.migrated calls) c) := by
  intro h
  have h := h [.m3Submit queuedTemplate 0] (.m2Submit topicNotice 1) (.m2 topicNotice) rfl
  have hreply : ∃ p ∈ admissions (events (step Sha256.sha256) Db.migrated
      [.m3Submit queuedTemplate 0]), p.1.key = (Intake.m2 topicNotice).key ∧
        p.1.intent ≠ (Intake.m2 topicNotice).intent ∧
        (step Sha256.sha256 (run (step Sha256.sha256) Db.migrated [.m3Submit queuedTemplate 0])
          (.m2Submit topicNotice 1)).1.isOk = true := by
    decide +kernel
  obtain ⟨p, hp, hkey, hne, hok⟩ := hreply
  obtain ⟨⟨err, herr⟩, -⟩ := h.2 p hp hkey hne
  simp only [event] at herr
  rw [herr] at hok
  cases hok

end MsgRiver.Store
