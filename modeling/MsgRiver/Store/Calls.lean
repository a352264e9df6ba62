import MsgRiver.Lib.Run
import MsgRiver.Store.Queue

/-!
# The store as a machine

`step sha256 db c` answers the call `c`; its runs (`StepRun.run`, `StepRun.events`) are the finite
call sequences of the service, a process restart being a `m2RecoverInterrupted` call.

`Moves c r m m'` is the lifecycle of a message on its own: the transitions a row can make, with
the call and the answer that go with each.  `Effect` lists everything a call can do to the whole
store, and `step_effect` is the inversion lemma: every property of runs below is proved from it,
and no proof unfolds an operation again.
-/

namespace MsgRiver.Store

open RelTable Checked Result

/-- A call of the product store. -/
inductive Call
  | m2Submit (submission : M2Submission) (now : Int64)
  | m3Submit (submission : M3Submission) (now : Int64)
  | m4SubmitInbound (submission : M4InboundSubmission) (now : Int64)
  | m4SetInboundEnabled (enabled : Bool)
  | m2ClaimDue (now : Int64)
  | m2MarkAccepted (messageId providerAck : String) (now : Int64)
  | m2MarkRetry (messageId reason : String) (delayMs : UInt32) (now : Int64)
  | m2MarkFailed (messageId reason : String) (now : Int64)
  | m2MarkAmbiguous (messageId reason : String) (now : Int64)
  | m2RecoverInterrupted (now : Int64)
  | m6RequeueFailed (messageId : String) (now : Int64)
  deriving DecidableEq

/-- The `Ok` values of the calls. -/
inductive Reply
  | submitted (accepted : M2Accepted)
  | inbound (disposition : M4InboundDisposition)
  | claimed (delivery : Option M2Delivery)
  | recovered (changed : ℕ)
  | requeued (result : Option Bool)
  | done
  deriving DecidableEq

/-- An answer of the store. -/
abbrev Answer := Except StoreError Reply

/-- Wrap the `Ok` value of an operation. -/
def answer {α : Type} (f : α → Reply) (r : Except StoreError α × Db) : Answer × Db :=
  (r.1.map f, r.2)

/-- Answer one call. -/
def step (sha256 : List UInt8 → List.Vector UInt8 32) (db : Db) : Call → Answer × Db
  | .m2Submit submission now => answer .submitted (m2Submit sha256 submission now db)
  | .m3Submit submission now => answer .submitted (m3Submit sha256 submission now db)
  | .m4SubmitInbound submission now => answer .inbound (m4SubmitInbound sha256 submission now db)
  | .m4SetInboundEnabled enabled => answer (fun _ => .done) (m4SetInboundEnabled enabled db)
  | .m2ClaimDue now => answer .claimed (m2ClaimDue now db)
  | .m2MarkAccepted messageId ack now => answer (fun _ => .done) (m2MarkAccepted messageId ack now db)
  | .m2MarkRetry messageId reason delayMs now =>
    answer (fun _ => .done) (m2MarkRetry messageId reason delayMs now db)
  | .m2MarkFailed messageId reason now =>
    answer (fun _ => .done) (m2MarkFailed messageId reason now db)
  | .m2MarkAmbiguous messageId reason now =>
    answer (fun _ => .done) (m2MarkAmbiguous messageId reason now db)
  | .m2RecoverInterrupted now => answer .recovered (m2RecoverInterrupted now db)
  | .m6RequeueFailed messageId now => answer .requeued (m6RequeueFailed messageId now db)

/-- One answered call of a run. -/
abbrev StoreEvent := StepRun.Event Db Call Answer

/-! ### The lifecycle of a message -/

/-- The transitions of one row `m`, each with its call and its answer. -/
inductive Moves : Call → Reply → Message → Message → Prop
  | claim {m : Message} {now : Int64} {attempt : UInt8} (hdue : m.due now = true) :
      Moves (.m2ClaimDue now) (.claimed (some (m.delivery attempt))) m (m.claim now)
  | accept {m : Message} {ack : String} {now : Int64} (hs : m.state = .sending) :
      Moves (.m2MarkAccepted m.messageId ack now) .done m (m.accept ack now)
  | schedule {m : Message} {reason : String} {delayMs : UInt32} {next now : Int64}
      (hs : m.state = .sending) (hbudget : m.attempts < 5)
      (hnext : next.toInt = now.toInt + delayMs.toNat) :
      Moves (.m2MarkRetry m.messageId reason delayMs now) .done m (m.schedule next now)
  | exhaust {m : Message} {reason : String} {delayMs : UInt32} {now : Int64}
      (hs : m.state = .sending) (hbudget : 5 ≤ m.attempts) :
      Moves (.m2MarkRetry m.messageId reason delayMs now) .done m (m.giveUp .failed reason now)
  | fail {m : Message} {reason : String} {now : Int64} (hs : m.state = .sending) :
      Moves (.m2MarkFailed m.messageId reason now) .done m (m.giveUp .failed reason now)
  | doubt {m : Message} {reason : String} {now : Int64} (hs : m.state = .sending) :
      Moves (.m2MarkAmbiguous m.messageId reason now) .done m (m.giveUp .ambiguous reason now)
  | requeue {m : Message} {now : Int64} (hs : m.state = .failed) :
      Moves (.m6RequeueFailed m.messageId now) (.requeued (some true)) m (m.requeue now)

/-- Rewrite the row with the id of `m` to `m'`. -/
def replaceRow (m m' : Message) (x : Message) : Message :=
  if x.messageId = m.messageId then m' else x

/-- A restart makes every row that was being sent ambiguous. -/
def recoverRow (now : Int64) (x : Message) : Message :=
  if x.state = .sending then x.giveUp .ambiguous interruptedError now else x

/-! ### What a call can do -/

/-- Everything a call can do to the store `db`: its answer and the next store. -/
inductive Effect (sha256 : List UInt8 → List.Vector UInt8 32) (db : Db) : Call → Answer → Db → Prop
  | failure (c : Call) (e : StoreError) : Effect sha256 db c (.error e) db
  | m2Existing {s : M2Submission} {now : Int64} {row : Message}
      (hvalid : validateM2Submission s = .ok ()) (hrow : row ∈ db.messages.rows)
      (hkey : row.idempotencyKey = s.idempotencyKey) (htopic : row.topic = s.topic)
      (htitle : row.title = s.title) (hbody : row.body = s.body) :
      Effect sha256 db (.m2Submit s now) (.ok (.submitted (.existing row.messageId))) db
  | m2New {s : M2Submission} {now : Int64} {messages : Table messageSchema}
      (hrows : messages.rows = db.messages.rows ++ [m2Message sha256 s now]) :
      Effect sha256 db (.m2Submit s now)
        (.ok (.submitted (.new (m2Message sha256 s now).messageId)))
        { db with messages := messages }
  | m3Existing {s : M3Submission} {now : Int64} {row : Message} (hrow : row ∈ db.messages.rows)
      (hkey : row.idempotencyKey = s.idempotencyKey) (hpayload : s.payload ≠ "")
      (hdriver : row.driver = s.driver) (hdestination : row.destination = s.destination)
      (hsame : row.payload = s.payload) :
      Effect sha256 db (.m3Submit s now) (.ok (.submitted (.existing row.messageId))) db
  | m3New {s : M3Submission} {now : Int64} {messages : Table messageSchema}
      (hdriver : validDriver s.driver = true)
      (hrows : messages.rows = db.messages.rows ++ [m3Message sha256 s now]) :
      Effect sha256 db (.m3Submit s now)
        (.ok (.submitted (.new (m3Message sha256 s now).messageId)))
        { db with messages := messages }
  | inboundIdle {s : M4InboundSubmission} {now : Int64} {d : M4InboundDisposition}
      (hd : d ≠ .accepted) :
      Effect sha256 db (.m4SubmitInbound s now) (.ok (.inbound d)) db
  | inboundAccepted {s : M4InboundSubmission} {now : Int64} {messages : Table messageSchema}
      {receipts : Table receiptSchema} {rateEvents : Table rateEventSchema}
      (hvalid : s.valid = true) (hrate : rateLimited s now db = .ok false)
      (hmessages : messages.rows = db.messages.rows ++ [m4Message sha256 s now])
      (hreceipts : receipts.rows = db.receipts.rows ++ [m4Receipt s now])
      (hevents : rateEvents.rows = db.rateEvents.rows ++
        if s.verb = "notify" then [m4RateEvent s now] else []) :
      Effect sha256 db (.m4SubmitInbound s now) (.ok (.inbound .accepted))
        { db with messages := messages, receipts := receipts, rateEvents := rateEvents }
  | switched {enabled : Bool} :
      Effect sha256 db (.m4SetInboundEnabled enabled) (.ok .done)
        { db with inboundControl := some enabled }
  | nothingDue {now : Int64} : Effect sha256 db (.m2ClaimDue now) (.ok (.claimed none)) db
  | moved {c : Call} {r : Reply} {m m' : Message} {messages : Table messageSchema}
      (hm : m ∈ db.messages.rows) (hmove : Moves c r m m')
      (hrows : messages.rows = db.messages.rows.map (replaceRow m m')) :
      Effect sha256 db c (.ok r) { db with messages := messages }
  | recovered {now : Int64} {n : ℕ} {messages : Table messageSchema}
      (hrows : messages.rows = db.messages.rows.map (recoverRow now)) :
      Effect sha256 db (.m2RecoverInterrupted now) (.ok (.recovered n))
        { db with messages := messages }
  | notRequeued {messageId : String} {now : Int64} {r : Option Bool} (hr : r ≠ some true) :
      Effect sha256 db (.m6RequeueFailed messageId now) (.ok (.requeued r)) db

/-- The result `r` of an operation is one that the call `c` can have. -/
abbrev Performs (sha256 : List UInt8 → List.Vector UInt8 32) (db : Db) (c : Call)
    (r : Answer × Db) : Prop :=
  Effect sha256 db c r.1 r.2

/-! ### The inversion lemma -/

section Inversion

variable {sha256 : List UInt8 → List.Vector UInt8 32} {db : Db}

/-- A transaction is described by what its body does when it answers `Ok`. -/
theorem transaction_effect {α : Type} {c : Call} {f : α → Reply}
    {body : Db → Except StoreError (α × Db)}
    (h : ∀ a db', body db = .ok (a, db') → Effect sha256 db c (.ok (f a)) db') :
    Performs sha256 db c (answer f (transaction body db)) := by
  unfold transaction answer
  cases hb : body db with
  | error e => exact .failure c e
  | ok p => exact h p.1 p.2 hb

theorem m2Submit_effect (s : M2Submission) (now : Int64) :
    Performs sha256 db (.m2Submit s now) (answer .submitted (m2Submit sha256 s now db)) := by
  apply transaction_effect
  intro a db' h
  obtain ⟨⟨⟩, hvalid, h⟩ := bind_eq_ok.1 h
  split at h
  · rename_i row hsel
    obtain ⟨hrow, hkey⟩ := (Table.select_key_eq_some idempotencyKey_mem_keys).1 hsel
    split_ifs at h with hsame
    · simp only [Bool.and_eq_true, beq_iff_eq] at hsame
      cases h
      exact .m2Existing hvalid hrow hkey hsame.1.1 hsame.1.2 hsame.2
  · obtain ⟨messages, hins, h⟩ := orError_bind_eq_ok.1 h
    cases h
    exact .m2New (Table.insert_eq_some.1 hins).2.2

theorem m3Submit_effect (s : M3Submission) (now : Int64) :
    Performs sha256 db (.m3Submit s now) (answer .submitted (m3Submit sha256 s now db)) := by
  apply transaction_effect
  intro a db' h
  obtain ⟨hvalid, h⟩ := reject_bind_eq_ok.1 h
  simp only [Bool.or_eq_false_iff, Bool.not_eq_false'] at hvalid
  split at h
  · rename_i row hsel
    obtain ⟨hrow, hkey⟩ := (Table.select_key_eq_some idempotencyKey_mem_keys).1 hsel
    split_ifs at h with hsame
    · simp only [Bool.and_eq_true, beq_iff_eq] at hsame
      cases h
      refine .m3Existing hrow hkey ?_ hsame.1.1 hsame.1.2 hsame.2
      intro hempty
      have := hvalid.2
      simp [hempty, validText] at this
  · obtain ⟨messages, hins, h⟩ := orError_bind_eq_ok.1 h
    cases h
    exact .m3New hvalid.1.1.2 (Table.insert_eq_some.1 hins).2.2

/-- The success path of an inbound callback inserts one row in each of the tables. -/
theorem admitInbound_eq_ok {s : M4InboundSubmission} {now : Int64} {d : M4InboundDisposition}
    {db' : Db} (h : admitInbound sha256 s now db = .ok (d, db')) :
    d = .accepted ∧ ∃ messages receipts rateEvents,
      db' = { db with messages := messages, receipts := receipts, rateEvents := rateEvents } ∧
      messages.rows = db.messages.rows ++ [m4Message sha256 s now] ∧
      receipts.rows = db.receipts.rows ++ [m4Receipt s now] ∧
      rateEvents.rows = db.rateEvents.rows ++
        if s.verb = "notify" then [m4RateEvent s now] else [] := by
  obtain ⟨-, h⟩ := reject_bind_eq_ok.1 h
  obtain ⟨messages, hmessages, h⟩ := orError_bind_eq_ok.1 h
  obtain ⟨receipts, hreceipts, h⟩ := orError_bind_eq_ok.1 h
  obtain ⟨rateEvents, hevents, h⟩ := bind_eq_ok.1 h
  cases h
  refine ⟨rfl, messages, receipts, rateEvents, rfl, (Table.insert_eq_some.1 hmessages).2.2,
    (Table.insert_eq_some.1 hreceipts).2.2, ?_⟩
  unfold recordRateEvent at hevents
  by_cases hverb : s.verb = "notify"
  · rw [if_pos (by simpa using hverb), orError_eq_ok] at hevents
    rw [if_pos hverb]
    exact (Table.insert_eq_some.1 hevents).2.2
  · rw [if_neg (by simpa using hverb)] at hevents
    cases hevents
    rw [if_neg hverb, List.append_nil]

theorem m4SubmitInbound_effect (s : M4InboundSubmission) (now : Int64) :
    Performs sha256 db (.m4SubmitInbound s now)
      (answer .inbound (m4SubmitInbound sha256 s now db)) := by
  apply transaction_effect
  intro d db' h
  obtain ⟨hvalid, h⟩ := reject_bind_eq_ok.1 h
  obtain ⟨enabled, -, h⟩ := orError_bind_eq_ok.1 h
  split_ifs at h with hdisabled hreplayed
  · cases h
    exact .inboundIdle (by decide)
  · cases h
    exact .inboundIdle (by decide)
  · obtain ⟨limited, hrate, h⟩ := bind_eq_ok.1 h
    split_ifs at h with hlimited
    · cases h
      exact .inboundIdle (by decide)
    · obtain ⟨rfl, messages, receipts, rateEvents, rfl, hmessages, hreceipts, hevents⟩ :=
        admitInbound_eq_ok h
      rw [Bool.not_eq_true] at hlimited
      subst hlimited
      exact .inboundAccepted (by simpa using hvalid) hrate hmessages hreceipts hevents

theorem m4SetInboundEnabled_effect (enabled : Bool) :
    Performs sha256 db (.m4SetInboundEnabled enabled)
      (answer (fun _ => .done) (m4SetInboundEnabled enabled db)) := by
  unfold m4SetInboundEnabled answer
  cases db.inboundControl with
  | none => exact .failure _ _
  | some b => exact .switched

/-- An update of the one row with a given id in a given state. -/
theorem update_atState {messageId : String} {set : Message → Message}
    {messages : Table messageSchema} {m : Message} (sel : Message → Bool)
    (hm : m ∈ db.messages.rows)
    (hid : m.messageId = messageId) (hsel : sel m = true)
    (h : db.messages.update (fun x => decide (x.messageId = messageId) && sel x) set
      = some (messages, 1)) :
    messages.rows = db.messages.rows.map (replaceRow m (set m)) := by
  rw [(Table.update_eq_some h).1]
  apply List.map_congr_left
  intro x hx
  by_cases hxid : x.messageId = messageId
  · have hxm : x = m := Table.eq_of_key messageId_mem_keys hx hm (hxid.trans hid.symm)
    subst hxm
    simp [replaceRow, hid, hsel]
  · rw [if_neg (by simp [hxid]), replaceRow, if_neg (by rwa [hid])]

theorem m2ClaimDue_effect (now : Int64) :
    Performs sha256 db (.m2ClaimDue now) (answer .claimed (m2ClaimDue now db)) := by
  apply transaction_effect
  intro d db' h
  cases hcand : dueCandidate db now with
  | none =>
    simp only [hcand] at h
    cases h
    exact .nothingDue
  | some row =>
    simp only [hcand] at h
    obtain ⟨⟨messages, changed⟩, hupd, h⟩ := orError_bind_eq_ok.1 h
    obtain ⟨hone, h⟩ := reject_bind_eq_ok.1 h
    obtain ⟨attempt, -, h⟩ := orError_bind_eq_ok.1 h
    cases h
    obtain ⟨hrow, hdue⟩ := List.mem_filter.1 (firstBy_mem hcand)
    have hwait : row.state.waiting = true := by
      simp only [Message.due, Bool.and_eq_true] at hdue
      exact hdue.1
    simp only [bne_eq_false_iff_eq] at hone
    subst hone
    exact .moved hrow (.claim hdue) (update_atState _ hrow rfl hwait hupd)

/-- A single-statement mark moves the sending row with the given id, or nothing. -/
theorem markSending_effect {c : Call} {messageId text : String} {set : Message → Message}
    (hmove : ∀ m, m.messageId = messageId → m.state = .sending → Moves c .done m (set m)) :
    Performs sha256 db c (answer (fun _ => .done) (markSending messageId text set db)) := by
  unfold markSending
  split_ifs
  · exact .failure _ _
  unfold m2TransitionSending answer
  cases hupd : db.messages.update (atState messageId .sending) set with
  | none => exact .failure _ _
  | some p =>
    obtain ⟨messages, changed⟩ := p
    have hcount : changed = db.messages.rows.countP (atState messageId .sending) :=
      (Table.update_eq_some hupd).2
    have hle : changed ≤ 1 := by
      rw [hcount]
      exact Table.countP_key_le_one messageId_mem_keys messageId _
    by_cases hone : changed = 1
    · subst hone
      obtain ⟨m, hm, hat⟩ := List.countP_pos_iff.1 (by omega :
        0 < db.messages.rows.countP (atState messageId .sending))
      simp only [atState, Bool.and_eq_true, decide_eq_true_eq, beq_iff_eq] at hat
      exact .moved hm (hmove m hat.1 hat.2)
        (update_atState (fun x => x.state == .sending) hm hat.1 (by simp [hat.2]) hupd)
    · have h0 : changed = 0 := by omega
      have hsame : messages = db.messages := Table.update_of_countP_eq_zero hupd h0
      subst h0 hsame
      exact .failure _ _

theorem m2MarkRetry_effect (messageId reason : String) (delayMs : UInt32) (now : Int64) :
    Performs sha256 db (.m2MarkRetry messageId reason delayMs now)
      (answer (fun _ => .done) (m2MarkRetry messageId reason delayMs now db)) := by
  apply transaction_effect
  intro u db' h
  obtain ⟨-, h⟩ := reject_bind_eq_ok.1 h
  obtain ⟨row, hsel, h⟩ := orError_bind_eq_ok.1 h
  obtain ⟨set, hset, h⟩ := bind_eq_ok.1 h
  obtain ⟨⟨messages, changed⟩, hupd, h⟩ := orError_bind_eq_ok.1 h
  obtain ⟨hone, h⟩ := reject_bind_eq_ok.1 h
  cases h
  have hrow : row ∈ db.messages.rows := List.mem_of_find?_eq_some hsel
  have hat := List.find?_some hsel
  simp only [atState, Bool.and_eq_true, decide_eq_true_eq, beq_iff_eq] at hat
  obtain ⟨rfl, hs⟩ := hat
  simp only [bne_eq_false_iff_eq] at hone
  subst hone
  have hrows := update_atState (fun x => x.state == .sending) hrow rfl (by simp [hs]) hupd
  unfold retryAssignment at hset
  split_ifs at hset with hbudget
  · cases hset
    exact .moved hrow (.exhaust hs hbudget) hrows
  · obtain ⟨next, hnext, hset⟩ := orError_bind_eq_ok.1 hset
    cases hset
    exact .moved hrow (.schedule hs (by omega) (ofInt?_eq_some.1 hnext)) hrows

theorem m2RecoverInterrupted_effect (now : Int64) :
    Performs sha256 db (.m2RecoverInterrupted now)
      (answer .recovered (m2RecoverInterrupted now db)) := by
  unfold m2RecoverInterrupted answer
  cases hupd : db.messages.update (fun m => m.state == .sending)
      (Message.giveUp .ambiguous interruptedError now) with
  | none => exact .failure _ _
  | some p =>
    obtain ⟨messages, changed⟩ := p
    refine .recovered ?_
    rw [(Table.update_eq_some hupd).1]
    apply List.map_congr_left
    intro x _
    simp only [recoverRow, beq_iff_eq]

theorem m6RequeueFailed_effect (messageId : String) (now : Int64) :
    Performs sha256 db (.m6RequeueFailed messageId now)
      (answer .requeued (m6RequeueFailed messageId now db)) := by
  apply transaction_effect
  intro r db' h
  obtain ⟨-, h⟩ := reject_bind_eq_ok.1 h
  split at h
  · cases h
    exact .notRequeued (by simp)
  · rename_i row hsel
    obtain ⟨hrow, rfl⟩ := (Table.select_key_eq_some messageId_mem_keys).1 hsel
    split_ifs at h with hfailed
    · cases h
      exact .notRequeued (by simp)
    · obtain ⟨⟨messages, changed⟩, hupd, h⟩ := orError_bind_eq_ok.1 h
      obtain ⟨hone, h⟩ := reject_bind_eq_ok.1 h
      cases h
      simp only [bne_eq_false_iff_eq] at hone
      subst hone
      have hs : row.state = .failed := by simpa using hfailed
      exact .moved hrow (.requeue hs)
        (update_atState (fun x => x.state == .failed) hrow rfl (by simp [hs]) hupd)

/-- **Everything a call can do.** -/
theorem step_effect (sha256 : List UInt8 → List.Vector UInt8 32) (db : Db) (c : Call) :
    Performs sha256 db c (step sha256 db c) := by
  cases c with
  | m2Submit s now => exact m2Submit_effect s now
  | m3Submit s now => exact m3Submit_effect s now
  | m4SubmitInbound s now => exact m4SubmitInbound_effect s now
  | m4SetInboundEnabled enabled => exact m4SetInboundEnabled_effect enabled
  | m2ClaimDue now => exact m2ClaimDue_effect now
  | m2MarkAccepted messageId ack now =>
    exact markSending_effect fun m hid hs => hid ▸ .accept hs
  | m2MarkRetry messageId reason delayMs now => exact m2MarkRetry_effect messageId reason delayMs now
  | m2MarkFailed messageId reason now => exact markSending_effect fun m hid hs => hid ▸ .fail hs
  | m2MarkAmbiguous messageId reason now => exact markSending_effect fun m hid hs => hid ▸ .doubt hs
  | m2RecoverInterrupted now => exact m2RecoverInterrupted_effect now
  | m6RequeueFailed messageId now => exact m6RequeueFailed_effect messageId now

end Inversion

end MsgRiver.Store
