import MsgRiver.Lib.Sha256
import MsgRiver.Store.Lifecycle

/-!
# Inbound callbacks: rate limit and accounting

What `m4_submit_inbound` guarantees over runs of the whole store.

* `inbound_tables_step` and `inbound_tables_run`: the receipts and the rate events are a record of
  the accepted callbacks, in order;
* `notify_rate_limit`: no ten-minute window holds more than four notify events of a sender, and
  when a callback is told `RateLimited`;
* `inbound_accounting`: each provider message id is accepted at most once, an accepted callback
  writes its rows and nothing else, and every other answer writes nothing.
-/

namespace MsgRiver.Store

open RelTable Checked Result StepRun

/-- The callback that an event accepts, with its time. -/
def acceptedCallback (e : StoreEvent) : Option (M4InboundSubmission × Int64) :=
  match e.call, e.reply with
  | .m4SubmitInbound s now, .ok (.inbound .accepted) => some (s, now)
  | _, _ => none

/-- The callbacks accepted in a run, in order. -/
def acceptedCallbacks (es : List StoreEvent) : List (M4InboundSubmission × Int64) :=
  es.filterMap acceptedCallback

/-- The rate events of a callback: one for a notify, none for a status. -/
def rateEventsOf (p : M4InboundSubmission × Int64) : List NotifyRateEvent :=
  if p.1.verb = "notify" then [m4RateEvent p.1 p.2] else []

theorem acceptedCallback_eq_some {e : StoreEvent} {s : M4InboundSubmission} {now : Int64} :
    acceptedCallback e = some (s, now) ↔
      e.call = .m4SubmitInbound s now ∧ e.reply = .ok (.inbound .accepted) := by
  unfold acceptedCallback
  split
  · rename_i s' now' hcall hreply
    rw [hcall, hreply]
    simp
  · rename_i hno
    constructor
    · intro h; cases h
    · rintro ⟨hcall, hreply⟩
      exact absurd hreply (hno s now hcall)

section Runs

variable {sha256 : List UInt8 → List.Vector UInt8 32}

variable (sha256) in
/-- **One call and the inbound tables.**  They grow by the rows of an accepted callback. -/
theorem inbound_tables_step (db : Db) (c : Call) :
    (step sha256 db c).2.receipts.rows = db.receipts.rows ++
      (acceptedCallback (event (step sha256) db c)).toList.map (fun p => m4Receipt p.1 p.2) ∧
    (step sha256 db c).2.rateEvents.rows = db.rateEvents.rows ++
      (acceptedCallback (event (step sha256) db c)).toList.flatMap rateEventsOf := by
  have heff := step_effect sha256 db c
  unfold event
  generalize step sha256 db c = p at heff ⊢
  obtain ⟨a, db'⟩ := p
  cases heff with
  | failure c e => cases c <;> simp [acceptedCallback]
  | m2Existing | m2New | m3Existing | m3New | switched | nothingDue | recovered | notRequeued =>
    simp [acceptedCallback]
  | inboundIdle hd =>
    rename_i d
    cases d <;> first | exact absurd rfl hd | simp [acceptedCallback]
  | inboundAccepted _ _ _ hreceipts hevents =>
    exact ⟨by simpa [acceptedCallback] using hreceipts,
      by simpa [acceptedCallback, rateEventsOf] using hevents⟩
  | moved _ hmove => cases hmove <;> simp [acceptedCallback]

variable (sha256) in
/-- **A run and the inbound tables.** -/
theorem inbound_tables_run (db : Db) (calls : List Call) :
    (run (step sha256) db calls).receipts.rows = db.receipts.rows ++
      (acceptedCallbacks (events (step sha256) db calls)).map (fun p => m4Receipt p.1 p.2) ∧
    (run (step sha256) db calls).rateEvents.rows = db.rateEvents.rows ++
      (acceptedCallbacks (events (step sha256) db calls)).flatMap rateEventsOf := by
  induction calls generalizing db with
  | nil => simp [acceptedCallbacks]
  | cons c calls ih =>
    obtain ⟨hreceipts, hevents⟩ := ih (step sha256 db c).2
    obtain ⟨hreceipts₁, hevents₁⟩ := inbound_tables_step sha256 db c
    have hsplit : acceptedCallbacks (events (step sha256) db (c :: calls)) =
        (acceptedCallback (event (step sha256) db c)).toList ++
          acceptedCallbacks (events (step sha256) (step sha256 db c).2 calls) := by
      rw [events_cons, acceptedCallbacks, List.filterMap_cons]
      cases acceptedCallback (event (step sha256) db c) <;> rfl
    rw [run_cons, hsplit, hreceipts, hevents, hreceipts₁, hevents₁]
    simp only [List.map_append, List.flatMap_append, List.append_assoc, and_self]

/-! ### The rate limit -/

/-- The notify events of a sender that a condition on their time selects. -/
def eventCount (db : Db) (sender : String) (sel : ℤ → Bool) : ℕ :=
  db.rateEvents.rows.countP fun e => e.sender == sender && sel e.acceptedAtUnixMs.toInt

/-- `sel` holds of the times in `(t, t + 600000]`. -/
def inWindow (t : ℤ) (n : ℤ) : Bool := decide (t < n ∧ n ≤ t + 600000)

/-- `sel` holds of the times later than `t`. -/
def laterThan (t : ℤ) (n : ℤ) : Bool := decide (t < n)

/-- Every ten-minute window holds at most four notify events of each sender. -/
def RateBounded (db : Db) : Prop := ∀ sender t, eventCount db sender (inWindow t) ≤ 4

theorem eventCount_mono {db : Db} {sender : String} {p q : ℤ → Bool}
    (h : ∀ n, p n = true → q n = true) : eventCount db sender p ≤ eventCount db sender q := by
  apply List.countP_mono_left
  intro e _
  simp only [Bool.and_eq_true]
  exact fun he => ⟨he.1, h _ he.2⟩

theorem checkedSub_window {now start : Int64} :
    checkedSub now 600000 = some start ↔ start.toInt = now.toInt - 600000 := by
  rw [checkedSub, ofInt?_eq_some, show (600000 : Int64).toInt = 600000 by decide]

theorem checkedSub_window_eq_none {now : Int64} :
    checkedSub now 600000 = none ↔ now.toInt < -2 ^ 63 + 600000 := by
  have hb := toInt_bounds now
  rw [checkedSub, ofInt?_eq_none, show (600000 : Int64).toInt = 600000 by decide]
  omega

/-- The rate check of a notify, in terms of the recorded events. -/
theorem rateLimited_notify {s : M4InboundSubmission} {now : Int64} {db : Db}
    (hverb : s.verb = "notify") :
    rateLimited s now db =
      if now.toInt < -2 ^ 63 + 600000 then .error .delivery
      else .ok (decide (4 ≤ eventCount db s.sender (laterThan (now.toInt - 600000)))) := by
  unfold rateLimited
  rw [if_pos (by simpa using hverb)]
  cases hstart : checkedSub now 600000 with
  | none =>
    rw [if_pos (checkedSub_window_eq_none.1 hstart)]
    rfl
  | some start =>
    have hge : ¬ now.toInt < -2 ^ 63 + 600000 := by
      rw [← checkedSub_window_eq_none, hstart]
      simp
    rw [if_neg hge, ← checkedSub_window.1 hstart]
    rfl

/-- A notify that passes the rate check leaves room in every window around it. -/
theorem window_room {s : M4InboundSubmission} {now : Int64} {db : Db} (hverb : s.verb = "notify")
    (hrate : rateLimited s now db = .ok false) {t : ℤ} (ht : inWindow t now.toInt = true) :
    eventCount db s.sender (inWindow t) ≤ 3 := by
  rw [rateLimited_notify hverb] at hrate
  split_ifs at hrate
  simp only [Except.ok.injEq, decide_eq_false_iff_not] at hrate
  have hmono : eventCount db s.sender (inWindow t) ≤
      eventCount db s.sender (laterThan (now.toInt - 600000)) := by
    apply eventCount_mono
    intro n
    simp only [inWindow, laterThan, decide_eq_true_eq] at ht ⊢
    omega
  omega

/-- One call keeps the windows bounded. -/
theorem rateBounded_step (db : Db) (c : Call) (hb : RateBounded db) :
    RateBounded (step sha256 db c).2 := by
  intro sender t
  have heff := step_effect sha256 db c
  generalize step sha256 db c = p at heff ⊢
  obtain ⟨a, db'⟩ := p
  cases heff with
  | failure | m2Existing | m2New | m3Existing | m3New | inboundIdle | switched | nothingDue
  | moved | recovered | notRequeued => exact hb sender t
  | @inboundAccepted s now _ _ _ _ hrate _ _ hevents =>
    have hb := hb sender t
    by_cases hverb : s.verb = "notify"
    · rw [if_pos hverb] at hevents
      simp only [eventCount, hevents, List.countP_append, List.countP_singleton]
      by_cases hin : (s.sender == sender && inWindow t now.toInt) = true
      · simp only [Bool.and_eq_true, beq_iff_eq] at hin
        obtain ⟨rfl, hin⟩ := hin
        have hroom := window_room hverb hrate hin
        unfold eventCount at hroom
        split_ifs <;> omega
      · unfold eventCount at hb
        rw [if_neg (by simpa [m4RateEvent] using hin)]
        omega
    · rw [if_neg hverb, List.append_nil] at hevents
      simpa only [eventCount, hevents] using hb

theorem rateBounded_migrated : RateBounded Db.migrated := by
  intro sender t
  exact Nat.zero_le 4

/-- The answer to a valid callback that is enabled and not a replay. -/
theorem m4SubmitInbound_fresh {db : Db} {s : M4InboundSubmission} {now : Int64}
    (hvalid : s.valid = true) (henabled : db.inboundControl = some true)
    (hfresh : ∀ r ∈ db.receipts.rows, r.providerMessageId ≠ s.providerMessageId) :
    m4SubmitInbound sha256 s now db = transaction (fun db => do
      let limited ← rateLimited s now db
      if limited then return (.rateLimited, db)
      else admitInbound sha256 s now db) db := by
  have hsel : db.receipts.select (fun r =>
      decide (r.providerMessageId = s.providerMessageId)) = none := by
    rw [Table.select_eq_none]
    intro r hr
    simpa using hfresh r hr
  unfold m4SubmitInbound transaction
  simp only [hvalid, henabled, hsel]
  rfl

variable (sha256) in
/-- **When a callback is told `RateLimited`.** -/
theorem rateLimited_answer_iff {db : Db} {s : M4InboundSubmission} {now : Int64}
    (hvalid : s.valid = true) (hverb : s.verb = "notify") (henabled : db.inboundControl = some true)
    (hfresh : ∀ r ∈ db.receipts.rows, r.providerMessageId ≠ s.providerMessageId) :
    ((m4SubmitInbound sha256 s now db).1 = .ok .rateLimited ↔
      -2 ^ 63 + 600000 ≤ now.toInt ∧
        4 ≤ eventCount db s.sender (laterThan (now.toInt - 600000))) ∧
    (now.toInt < -2 ^ 63 + 600000 →
      (m4SubmitInbound sha256 s now db).1 = .error .delivery) := by
  rw [m4SubmitInbound_fresh hvalid henabled hfresh]
  unfold transaction
  simp only [rateLimited_notify hverb]
  by_cases hlow : now.toInt < -2 ^ 63 + 600000
  · rw [if_pos hlow]
    refine ⟨⟨fun h => ?_, fun h => ?_⟩, fun _ => rfl⟩
    · cases h
    · omega
  · rw [if_neg hlow]
    refine ⟨?_, fun h => absurd h hlow⟩
    by_cases hfour : 4 ≤ eventCount db s.sender (laterThan (now.toInt - 600000))
    · simp [hfour, bind, Except.bind, pure, Except.pure]
      omega
    · simp only [hfour, decide_false, and_false, iff_false]
      -- below the limit the answer is that of the inserts, which is never `RateLimited`
      cases hadmitted : admitInbound sha256 s now db with
      | error e => simp [bind, Except.bind]
      | ok p =>
        obtain ⟨d, db'⟩ := p
        simp [bind, Except.bind, (admitInbound_eq_ok hadmitted).1]

/-! ### The accounting -/

/-- What an accepted callback writes: a queued message, a receipt and, for a notify, a rate event.
-/
structure Admits (sha256 : List UInt8 → List.Vector UInt8 32) (s : M4InboundSubmission)
    (now : Int64) (db db' : Db) : Prop where
  messages : db'.messages.rows = db.messages.rows ++ [m4Message sha256 s now]
  receipts : db'.receipts.rows = db.receipts.rows ++ [m4Receipt s now]
  rateEvents : db'.rateEvents.rows = db.rateEvents.rows ++
    if s.verb = "notify" then [m4RateEvent s now] else []
  inboundControl : db'.inboundControl = db.inboundControl

/-- **One callback**: it is accepted and writes its rows, or it writes nothing. -/
theorem callback_step (db : Db) (s : M4InboundSubmission) (now : Int64) :
    ((step sha256 db (.m4SubmitInbound s now)).1 = .ok (.inbound .accepted) →
      Admits sha256 s now db (step sha256 db (.m4SubmitInbound s now)).2) ∧
    ((step sha256 db (.m4SubmitInbound s now)).1 ≠ .ok (.inbound .accepted) →
      (step sha256 db (.m4SubmitInbound s now)).2 = db) := by
  have heff := step_effect sha256 db (.m4SubmitInbound s now)
  generalize step sha256 db (.m4SubmitInbound s now) = p at heff ⊢
  obtain ⟨a, db'⟩ := p
  cases heff with
  | failure =>
    refine ⟨fun h => ?_, fun _ => rfl⟩
    cases h
  | inboundIdle hd =>
    refine ⟨fun h => ?_, fun _ => rfl⟩
    simp only [Except.ok.injEq, Reply.inbound.injEq] at h
    exact absurd h hd
  | inboundAccepted _ _ hmessages hreceipts hevents =>
    exact ⟨fun _ => ⟨hmessages, hreceipts, hevents, rfl⟩, fun h => absurd rfl h⟩
  | moved _ hmove => cases hmove

/-- The message of an accepted callback stays in the queue with its content. -/
theorem callback_message {calls : List Call} {s : M4InboundSubmission} {now : Int64}
    (h : (s, now) ∈ acceptedCallbacks (events (step sha256) Db.migrated calls)) :
    ∃ m ∈ (run (step sha256) Db.migrated calls).messages.rows,
      m.messageId = (m4Message sha256 s now).messageId ∧
      m.content = (m4Message sha256 s now).content := by
  obtain ⟨e, he, hacc⟩ := List.mem_filterMap.1 h
  obtain ⟨pre, c, post, rfl, rfl⟩ := mem_events_iff.1 he
  obtain ⟨hcall, hreply⟩ := acceptedCallback_eq_some.1 hacc
  simp only [event] at hcall hreply
  subst hcall
  have hadm := (callback_step _ s now).1 hreply
  have hmem : m4Message sha256 s now ∈
      (step sha256 (run (step sha256) Db.migrated pre) (.m4SubmitInbound s now)).2.messages.rows := by
    rw [hadm.messages]
    exact List.mem_append_right _ (List.mem_singleton.2 rfl)
  obtain ⟨m, hm, hlater⟩ := row_run sha256 _ post hmem
  rw [run_append, run_cons]
  exact ⟨m, hm, hlater.id, hlater.content⟩

end Runs

/-- **The notify rate limit.**  After every run, no window of ten minutes holds more than four
notify events of one sender; and a valid notify that is enabled and not a replay is told
`RateLimited` exactly when `now - 600000` is a 64-bit time and four events of its sender are later
than that.  When it is not, the callback answers `Err`. -/
theorem notify_rate_limit (sha256 : List UInt8 → List.Vector UInt8 32) (calls : List Call) :
    let db := run (step sha256) Db.migrated calls
    (∀ sender t, eventCount db sender (inWindow t) ≤ 4) ∧
    ∀ s now, s.valid = true → s.verb = "notify" → db.inboundControl = some true →
      (∀ r ∈ db.receipts.rows, r.providerMessageId ≠ s.providerMessageId) →
      ((m4SubmitInbound sha256 s now db).1 = .ok .rateLimited ↔
        -2 ^ 63 + 600000 ≤ now.toInt ∧
          4 ≤ eventCount db s.sender (laterThan (now.toInt - 600000))) ∧
      (now.toInt < -2 ^ 63 + 600000 →
        (m4SubmitInbound sha256 s now db).1 = .error .delivery) := by
  intro db
  refine ⟨run_induct rateBounded_step rateBounded_migrated calls, ?_⟩
  intro s now hvalid hverb henabled hfresh
  exact rateLimited_answer_iff sha256 hvalid hverb henabled hfresh

/-- A callback of one sender, by its provider message id. -/
def pageOnCall (providerMessageId : String) : M4InboundSubmission :=
  ⟨providerMessageId, "15550001111", "notify", "ntfy", "alerts", "page"⟩

/-- Four callbacks of one sender within a second. -/
def fourPages : List Call :=
  [.m4SetInboundEnabled true, .m4SubmitInbound (pageOnCall "w1") 0,
   .m4SubmitInbound (pageOnCall "w2") 250, .m4SubmitInbound (pageOnCall "w3") 500,
   .m4SubmitInbound (pageOnCall "w4") 750]

/-- The store after the four callbacks: open to a fifth one, with four events on record. -/
theorem fourPages_state :
    let db := run (step Sha256.sha256) Db.migrated fourPages
    (pageOnCall "w5").valid = true ∧ db.inboundControl = some true ∧
      (∀ r ∈ db.receipts.rows, r.providerMessageId ≠ (pageOnCall "w5").providerMessageId) ∧
      4 ≤ eventCount db (pageOnCall "w5").sender (laterThan (1000 - 600000)) := by
  decide +kernel

/-- The fifth callback within the window is turned away. -/
theorem fifth_page_rateLimited :
    (m4SubmitInbound Sha256.sha256 (pageOnCall "w5") 1000
      (run (step Sha256.sha256) Db.migrated fourPages)).1 = .ok .rateLimited := by
  obtain ⟨hvalid, henabled, hfresh, hfour⟩ := fourPages_state
  exact (((notify_rate_limit Sha256.sha256 fourPages).2 (pageOnCall "w5") 1000 hvalid rfl henabled
    hfresh).1).2 ⟨by decide, hfour⟩

/-- At the first representable time the window start underflows, and the callback answers `Err`
although four later events are recorded. -/
theorem fifth_page_not_rateLimited_at_minimum :
    ¬ ∀ (calls : List Call) (s : M4InboundSubmission) (now : Int64),
      let db := run (step Sha256.sha256) Db.migrated calls
      s.valid = true → s.verb = "notify" → db.inboundControl = some true →
      (∀ r ∈ db.receipts.rows, r.providerMessageId ≠ s.providerMessageId) →
      ((m4SubmitInbound Sha256.sha256 s now db).1 = .ok .rateLimited ↔
        4 ≤ eventCount db s.sender (laterThan (now.toInt - 600000))) := by
  intro h
  obtain ⟨hvalid, henabled, hfresh, hfour⟩ := fourPages_state
  have hmin : Int64.minValue.toInt = -2 ^ 63 := by decide
  have hlater : 4 ≤ eventCount (run (step Sha256.sha256) Db.migrated fourPages)
      (pageOnCall "w5").sender (laterThan (Int64.minValue.toInt - 600000)) := by
    refine hfour.trans (eventCount_mono fun n hn => ?_)
    simp only [laterThan, decide_eq_true_eq] at hn ⊢
    omega
  have hlimited := (h fourPages (pageOnCall "w5") Int64.minValue hvalid rfl henabled hfresh).2 hlater
  have herr := (rateLimited_answer_iff Sha256.sha256 hvalid rfl henabled hfresh).2
    (show Int64.minValue.toInt < -2 ^ 63 + 600000 by decide)
  rw [hlimited] at herr
  cases herr

/-- **The inbound accounting.**  Over every run: no provider message id is accepted twice; an
accepted callback writes its queued message, its receipt and, for a notify, its rate event, and
nothing else; any other answer writes nothing; the receipts are those of the accepted callbacks, in
order; and the message of every accepted callback is in the queue with its content. -/
theorem inbound_accounting (sha256 : List UInt8 → List.Vector UInt8 32) (calls : List Call) :
    let accepted := acceptedCallbacks (events (step sha256) Db.migrated calls)
    let db := run (step sha256) Db.migrated calls
    (accepted.map fun p => p.1.providerMessageId).Nodup ∧
    (∀ s now, (m4Message sha256 s now).state = .queued ∧
      (m4Message sha256 s now).idempotencyKey = "m4-" ++ s.providerMessageId) ∧
    (∀ e ∈ events (step sha256) Db.migrated calls, ∀ s now, e.call = .m4SubmitInbound s now →
      (e.reply = .ok (.inbound .accepted) → Admits sha256 s now e.before e.after) ∧
      (e.reply ≠ .ok (.inbound .accepted) → e.after = e.before)) ∧
    db.receipts.rows = accepted.map (fun p => m4Receipt p.1 p.2) ∧
    (∀ p ∈ accepted, ∃ m ∈ db.messages.rows,
      m.messageId = (m4Message sha256 p.1 p.2).messageId ∧
      m.content = (m4Message sha256 p.1 p.2).content) := by
  intro accepted db
  have hreceipts : db.receipts.rows = accepted.map (fun p => m4Receipt p.1 p.2) := by
    exact (inbound_tables_run sha256 Db.migrated calls).1
  refine ⟨?_, fun s now => ⟨rfl, rfl⟩, ?_, hreceipts, ?_⟩
  · have hunique := db.receipts.unique _ providerMessageId_mem_keys
    rw [hreceipts, List.map_map] at hunique
    exact hunique
  · rintro e he s now hcall
    obtain ⟨pre, c, post, rfl, rfl⟩ := mem_events_iff.1 he
    simp only [event] at hcall
    subst hcall
    exact callback_step _ s now
  · rintro ⟨s, now⟩ hp
    exact callback_message hp

end MsgRiver.Store
