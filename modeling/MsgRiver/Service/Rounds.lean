import MsgRiver.Service.Sessions

/-!
# Rounds of several processes

The processes that share a state directory end at any point and start again.  To their store they
do what one machine does that makes a client call or a whole round of dispatch at a time
(`serialized`): while a round is open its process owns the directory, so no other process comes
between the claim and the mark.

What is known of the machine then holds of the processes.  A message whose effect may have happened
is not sent again by any of them (`sent_once`), and none is left in `sending` once its store is
served again (`nothing_left_sending`).
-/

namespace MsgRiver.Service.Processes

open History Store Connector StepRun RelTable OwnerLock

/-! ### The machine -/

/-- A call of a client, the claim of a round that ended before its attempt, or a round.  A round
without a second time ended before its mark. -/
inductive SerialCall
  | client (c : Call) (h : isClientCall c = true)
  | claim (now : Int64)
  | round (config : Config) (claimNow : Int64) (peer : Peer) (markNow : Option Int64)

/-- What a process asked of a provider. -/
abbrev Send := Config × M2Delivery × Peer

section Machine

variable (sha256 : List UInt8 → List.Vector UInt8 32)

/-- One step of a machine that does one thing after the other. -/
def serialStep (db : Db) : SerialCall → Option (M2Delivery × Attempt) × Db
  | .client c _ => (none, (step sha256 db c).2)
  | .claim now => (none, (step sha256 db (.m2ClaimDue now)).2)
  | .round config claimNow peer markNow =>
    let round := dispatchDue sha256 config (some claimNow) peer markNow db
    (round.1.attempt, round.2)

end Machine

/-- An event of that machine. -/
abbrev SerialEvent := StepRun.Event Db SerialCall (Option (M2Delivery × Attempt))

/-- The attempt of an event. -/
def sendOf (e : SerialEvent) : Option Send :=
  match e.call, e.reply with
  | .round config _ peer _, some (delivery, _) => some (config, delivery, peer)
  | _, _ => none

/-- The client call of a step. -/
def clientOf : SerialCall → Option Call
  | .client c _ => some c
  | .claim _ | .round .. => none

/-! ### What the log shows of a store -/

/-- An attempt for a row of the store. -/
def sendIn (store : ℕ) : Record → Option Send
  | .attempted store' config delivery peer =>
    if store' = store then some (config, delivery, peer) else none
  | _ => none

/-- A client call on the store. -/
def clientIn (store : ℕ) : Record → Option Call
  | .stored store' e => if store' = store ∧ isClientCall e.call = true then some e.call else none
  | _ => none

/-- The attempts of the processes that serve the store. -/
def sends (store : ℕ) (log : Log) : List Send := log.filterMap fun e => sendIn store e.2

/-- The calls that clients led to. -/
def clients (store : ℕ) (log : Log) : List Call := log.filterMap fun e => clientIn store e.2

section Rounds

variable {sha256 : List UInt8 → List.Vector UInt8 32} {log : Log} {w store : ℕ}

theorem sends_concat (store : ℕ) (log : Log) (w : ℕ) (record : Record) :
    sends store (log ++ [(w, record)]) = sends store log ++ (sendIn store record).toList := by
  rw [sends, List.filterMap_append]
  rfl

theorem clients_concat (store : ℕ) (log : Log) (w : ℕ) (record : Record) :
    clients store (log ++ [(w, record)]) =
      clients store log ++ (clientIn store record).toList := by
  rw [clients, List.filterMap_append]
  rfl

/-! ### Who serves a store -/

variable (sha256) in
/-- What the log may note while the path keeps its file. -/
def Orderly (front : Log) (e : ℕ × Record) : Prop := Legal sha256 front e ∧ Settled front e

theorem orderly_legal (h : Everywhere (Orderly sha256) log) : Everywhere (Legal sha256) log :=
  h.mono fun _ _ _ he => he.1

/-- The store of a session is in the directory that its process owns. -/
theorem serving_settled (h : Everywhere (Orderly sha256) log) {d n : ℕ} {round : Round}
    (hphase : phaseOf w log = .serving d n store round) : d = store := by
  revert d n round
  refine h.induct (I := fun log => ∀ {d n round}, phaseOf w log = .serving d n store round →
    d = store) (fun h => nomatch h) ?_
  rintro log ⟨v, record⟩ - ⟨hlegal, hsettled⟩ ih d n round hphase
  by_cases hv : v = w
  · subst hv
    rw [phaseOf_same] at hphase
    cases record with
    | locked d' n' => cases hphase
    | ended => cases hphase
    | opened store' =>
      obtain ⟨n', hbefore⟩ := hsettled
      rw [hbefore] at hphase
      cases hphase
      rfl
    | stored store' e =>
      obtain ⟨d', n', round', hbefore, -⟩ := hlegal
      rw [hbefore] at hphase
      cases hphase
      exact ih hbefore
    | attempted store' config delivery peer =>
      obtain ⟨d', n', hbefore⟩ := hlegal
      rw [hbefore] at hphase
      cases hphase
      exact ih hbefore
  · rw [phaseOf_other hv] at hphase
    exact ih hphase

/-- A store is served by one process. -/
theorem serving_unique (h : Everywhere (Orderly sha256) log) {v d n d' n' : ℕ}
    {round round' : Round} (hv : phaseOf v log = .serving d n store round)
    (hw : phaseOf w log = .serving d' n' store round') : v = w := by
  obtain rfl := serving_settled h hv
  obtain rfl := serving_settled h hw
  have howns : (phaseOf v log).owns = some (d', n) := by
    rw [hv]
    rfl
  have howns' : (phaseOf w log).owns = some (d', n') := by
    rw [hw]
    rfl
  exact (owns_unique (orderly_legal h) howns howns').1

/-! ### One entry of the log -/

section Dispatch

variable {config : Config} {now : Int64} {peer : Peer} {db : Db} {delivery : M2Delivery}
  {outcome : Except DriverError DeliveryOutcome}

/-- A round that ended before its mark. -/
theorem serialStep_open
    (hclaim : (step sha256 db (.m2ClaimDue now)).1 = .ok (.claimed (some delivery))) :
    serialStep sha256 db (.round config now peer none) =
      (some (delivery, attempt config delivery peer), (step sha256 db (.m2ClaimDue now)).2) := by
  generalize hstep : step sha256 db (.m2ClaimDue now) = claimed at hclaim ⊢
  obtain ⟨answer, db'⟩ := claimed
  obtain rfl : answer = .ok (.claimed (some delivery)) := hclaim
  simp only [serialStep, dispatchDue, hstep]
  cases (attempt config delivery peer).result <;> rfl

/-- A round up to its mark. -/
theorem serialStep_closed
    (hclaim : (step sha256 db (.m2ClaimDue now)).1 = .ok (.claimed (some delivery)))
    (houtcome : (attempt config delivery peer).result = .ok outcome) (now' : Int64) :
    serialStep sha256 db (.round config now peer (some now')) =
      (some (delivery, attempt config delivery peer),
        (step sha256 (step sha256 db (.m2ClaimDue now)).2
          (outcomeCall delivery.messageId now' outcome)).2) := by
  generalize hstep : step sha256 db (.m2ClaimDue now) = claimed at hclaim ⊢
  obtain ⟨answer, db'⟩ := claimed
  obtain rfl : answer = .ok (.claimed (some delivery)) := hclaim
  simp only [serialStep, dispatchDue, hstep, houtcome]
  split <;> rename_i hmark <;> rw [hmark]

theorem sendOf_round {markNow : Option Int64} {a : Attempt}
    (h : (serialStep sha256 db (.round config now peer markNow)).1 = some (delivery, a)) :
    sendOf (event (serialStep sha256) db (.round config now peer markNow)) =
      some (config, delivery, peer) := by
  simp only [sendOf, event, h]

end Dispatch

variable (sha256) in
/-- The round that is open is the last one that the machine began. -/
def Unfinished : Round → List SerialCall → Prop
  | .claimed delivery, calls => ∃ before now, calls = before ++ [.claim now] ∧
      (step sha256 (run (serialStep sha256) Db.migrated before) (.m2ClaimDue now)).1 =
        .ok (.claimed (some delivery))
  | .attempted config delivery peer, calls =>
    ∃ before now, calls = before ++ [.round config now peer none] ∧
      (step sha256 (run (serialStep sha256) Db.migrated before) (.m2ClaimDue now)).1 =
        .ok (.claimed (some delivery))
  | .fresh, _ | .idle, _ => True

variable (sha256) in
/-- The machine has done to the store what the log shows. -/
structure Serial (store : ℕ) (log : Log) (calls : List SerialCall) : Prop where
  db : dbOf store log = run (serialStep sha256) Db.migrated calls
  sends : sends store log = (events (serialStep sha256) Db.migrated calls).filterMap sendOf
  clients : clients store log = calls.filterMap clientOf
  rounds : ∀ w d n round, phaseOf w log = .serving d n store round → Unfinished sha256 round calls

variable {calls : List SerialCall}

/-- An entry that does not concern the store. -/
theorem Serial.skip (hs : Serial sha256 store log calls) {record : Record}
    (hdb : dbOf store (log ++ [(w, record)]) = dbOf store log) (hsend : sendIn store record = none)
    (hclient : clientIn store record = none)
    (hround : ∀ d n round, advance (phaseOf w log) record = .serving d n store round →
      Unfinished sha256 round calls) :
    Serial sha256 store (log ++ [(w, record)]) calls where
  db := hdb.trans hs.db
  sends := by rw [sends_concat, hsend, Option.toList_none, List.append_nil, hs.sends]
  clients := by rw [clients_concat, hclient, Option.toList_none, List.append_nil, hs.clients]
  rounds v d n round hphase := by
    by_cases hv : w = v
    · subst hv
      rw [phaseOf_same] at hphase
      exact hround d n round hphase
    · rw [phaseOf_other hv] at hphase
      exact hs.rounds v d n round hphase

/-- After an entry of the process that serves the store, its round is the one that counts. -/
theorem rounds_concat (h : Everywhere (Orderly sha256) log) {d n : ℕ} {round next : Round}
    (hphase : phaseOf w log = .serving d n store round) {record : Record}
    (hadvance : advance (.serving d n store round) record = .serving d n store next)
    (hnext : Unfinished sha256 next calls) :
    ∀ v d' n' round', phaseOf v (log ++ [(w, record)]) = .serving d' n' store round' →
      Unfinished sha256 round' calls := by
  intro v d' n' round' hv
  by_cases hne : w = v
  · subst hne
    rw [phaseOf_same, hphase, hadvance] at hv
    cases hv
    exact hnext
  · rw [phaseOf_other hne] at hv
    exact absurd (serving_unique h hphase hv) hne

theorem Round.after_cases (round : Round) (e : StoreEvent) :
    (∃ error, e.reply = .error error ∧ round.after e = round) ∨
      ∃ reply, e.reply = .ok reply ∧ round.after e = roundOf e.call reply := by
  unfold Round.after
  cases e.reply with
  | error error => exact .inl ⟨error, rfl, rfl⟩
  | ok reply => exact .inr ⟨reply, rfl, rfl⟩

/-- No round is open after the call of a client. -/
theorem unfinished_client {round : Round} {e : StoreEvent} (hclient : isClientCall e.call = true)
    (hround : round = .fresh ∨ round = .idle) : Unfinished sha256 (round.after e) calls := by
  rcases round.after_cases e with ⟨_, -, hsame⟩ | ⟨reply, -, hnext⟩
  · rw [hsame]
    rcases hround with rfl | rfl <;> trivial
  · rw [hnext, roundOf_client hclient]
    trivial

/-- A transaction that the machine makes as one call. -/
theorem Serial.push (hs : Serial sha256 store log calls) (h : Everywhere (Orderly sha256) log)
    {d n : ℕ} {round : Round} (hphase : phaseOf w log = .serving d n store round) {c : Call}
    (call : SerialCall) (hcall : ∀ db, serialStep sha256 db call = (none, (step sha256 db c).2))
    (hclient : clientOf call = if isClientCall c = true then some c else none)
    (hnext : Unfinished sha256 (round.after (event (step sha256) (dbOf store log) c))
      (calls ++ [call])) :
    Serial sha256 store (log ++ [(w, .stored store (event (step sha256) (dbOf store log) c))])
      (calls ++ [call]) where
  db := by
    rw [dbOf_stored, run_snoc, hcall, ← hs.db]
    rfl
  sends := by
    rw [sends_concat, hs.sends, events_snoc, List.filterMap_append]
    refine congrArg (List.append _) ?_
    have hreply : (event (serialStep sha256) (run (serialStep sha256) Db.migrated calls) call).reply
        = none := congrArg Prod.fst (hcall _)
    simp only [List.filterMap_cons, List.filterMap_nil, sendOf, hreply]
    cases call <;> rfl
  clients := by
    rw [clients_concat, hs.clients, List.filterMap_append]
    refine congrArg (List.append _) ?_
    simp only [List.filterMap_cons, List.filterMap_nil, hclient, clientIn, event, true_and]
    split_ifs <;> rfl
  rounds := rounds_concat h hphase rfl hnext

theorem isClientCall_outcomeCall (id : String) (now : Int64)
    (outcome : Except DriverError DeliveryOutcome) :
    isClientCall (outcomeCall id now outcome) = false := by
  rcases outcome with _ | _ | _ | _ | _ | _ | _ <;> rfl

/-- A mark ends the round, unless the store refuses it. -/
theorem Serial.mark (hs : Serial sha256 store log calls) (h : Everywhere (Orderly sha256) log)
    {d n : ℕ} {config : Config} {delivery : M2Delivery} {peer : Peer} {now : Int64}
    {outcome : Except DriverError DeliveryOutcome}
    (hphase : phaseOf w log = .serving d n store (.attempted config delivery peer))
    (houtcome : (attempt config delivery peer).result = .ok outcome) :
    ∃ calls', Serial sha256 store (log ++ [(w, .stored store
      (event (step sha256) (dbOf store log) (outcomeCall delivery.messageId now outcome)))])
      calls' := by
  have hopen := hs.rounds w d n _ hphase
  have hclient : clientIn store (.stored store
      (event (step sha256) (dbOf store log) (outcomeCall delivery.messageId now outcome))) =
        none := by
    rw [clientIn, if_neg]
    simp [event, isClientCall_outcomeCall]
  cases hanswer : (step sha256 (dbOf store log) (outcomeCall delivery.messageId now outcome)).1 with
  | error e =>
    refine ⟨calls, hs.skip ?_ rfl hclient fun d' n' round hround => ?_⟩
    · rw [dbOf_stored]
      exact unchanged_of_error hanswer
    · have hafter : (Round.attempted config delivery peer).after (event (step sha256)
          (dbOf store log) (outcomeCall delivery.messageId now outcome)) =
          .attempted config delivery peer := by
        unfold Round.after
        simp only [event, hanswer]
      rw [hphase] at hround
      obtain rfl : Round.attempted config delivery peer = round := by
        rw [← hafter]
        cases hround
        rfl
      exact hopen
  | ok reply =>
    obtain ⟨before, start, rfl, hclaim⟩ := hopen
    have hclosed : serialStep sha256 (run (serialStep sha256) Db.migrated before)
        (.round config start peer (some now)) = (some (delivery, attempt config delivery peer), _) :=
      serialStep_closed hclaim houtcome now
    refine ⟨before ++ [.round config start peer (some now)], ?_, ?_, ?_, ?_⟩
    · rw [dbOf_stored, run_snoc, hclosed, hs.db, run_snoc, serialStep_open hclaim]
      rfl
    · rw [sends_concat, hs.sends, events_snoc, events_snoc, List.filterMap_append,
        List.filterMap_append]
      simp only [List.filterMap_cons, List.filterMap_nil,
        sendOf_round (congrArg Prod.fst (serialStep_open hclaim)),
        sendOf_round (congrArg Prod.fst hclosed)]
      exact List.append_nil _
    · rw [clients_concat, hclient, hs.clients, List.filterMap_append, List.filterMap_append,
        Option.toList_none, List.append_nil]
      rfl
    · refine rounds_concat h hphase rfl ?_
      have hafter : (Round.attempted config delivery peer).after (event (step sha256)
          (dbOf store log) (outcomeCall delivery.messageId now outcome)) = .idle := by
        unfold Round.after
        simp only [event, hanswer, roundOf_outcomeCall]
      rw [hafter]
      trivial

/-- An attempt turns the claim into a round. -/
theorem Serial.attempted (hs : Serial sha256 store log calls)
    (h : Everywhere (Orderly sha256) log) {d n : ℕ} {delivery : M2Delivery} (config : Config)
    (peer : Peer) (hphase : phaseOf w log = .serving d n store (.claimed delivery)) :
    ∃ calls', Serial sha256 store (log ++ [(w, .attempted store config delivery peer)]) calls' := by
  obtain ⟨before, now, rfl, hclaim⟩ := hs.rounds w d n _ hphase
  have hopen : serialStep sha256 (run (serialStep sha256) Db.migrated before)
      (.round config now peer none) = (some (delivery, attempt config delivery peer), _) :=
    serialStep_open hclaim
  refine ⟨before ++ [.round config now peer none], ?_, ?_, ?_, ?_⟩
  · rw [dbOf_concat (.attempted ..) (fun _ h => (nomatch h)), hs.db, run_snoc, run_snoc, hopen]
    rfl
  · rw [sends_concat, hs.sends, events_snoc, events_snoc, List.filterMap_append,
      List.filterMap_append, sendIn, if_pos rfl]
    simp only [List.filterMap_cons, List.filterMap_nil,
      sendOf_round (congrArg Prod.fst hopen)]
    exact congrArg (List.append · [(config, delivery, peer)]) (List.append_nil _)
  · rw [clients_concat, hs.clients, List.filterMap_append, List.filterMap_append]
    exact List.append_nil _
  · exact rounds_concat h hphase rfl ⟨before, now, rfl, hclaim⟩

/-- **One entry of the log.**  The machine keeps up. -/
theorem serial_concat (h : Everywhere (Orderly sha256) log) {e : ℕ × Record}
    (he : Orderly sha256 log e) (hs : Serial sha256 store log calls) :
    ∃ calls', Serial sha256 store (log ++ [e]) calls' := by
  obtain ⟨w, record⟩ := e
  obtain ⟨hlegal, -⟩ := he
  cases record with
  | locked d n =>
    exact ⟨calls, hs.skip (dbOf_concat (.locked d n) (fun _ h => (nomatch h)) ..) rfl rfl
      fun _ _ _ hround => (nomatch hround)⟩
  | ended =>
    exact ⟨calls, hs.skip (dbOf_concat .ended (fun _ h => (nomatch h)) ..) rfl rfl
      fun _ _ _ hround => (nomatch hround)⟩
  | opened store' =>
    obtain ⟨d, n, hphase⟩ := hlegal
    refine ⟨calls, hs.skip (dbOf_concat (.opened store') (fun _ h => (nomatch h)) ..) rfl rfl ?_⟩
    rintro d' n' round hround
    rw [hphase] at hround
    cases hround
    trivial
  | attempted store' config delivery peer =>
    obtain ⟨d, n, hphase⟩ := hlegal
    by_cases hstore : store' = store
    · subst hstore
      exact hs.attempted h config peer hphase
    · refine ⟨calls, hs.skip (dbOf_concat (.attempted ..) (fun _ h => (nomatch h)) ..)
        (if_neg hstore) rfl ?_⟩
      intro d' n' round hround
      rw [hphase] at hround
      cases hround
      exact absurd rfl hstore
  | stored store' e =>
    obtain ⟨d, n, round, hphase, hfits, he⟩ := hlegal
    by_cases hstore : store' = store
    · subst hstore
      generalize e.call = c at hfits he
      subst he
      cases hfits with
      | mark houtcome => exact hs.mark h hphase houtcome
      | recover =>
        exact ⟨_, hs.push h hphase (.client _ rfl) (fun _ => rfl) rfl
          (unfinished_client rfl (.inl rfl))⟩
      | client hclient =>
        exact ⟨_, hs.push h hphase (.client c hclient) (fun _ => rfl) (if_pos hclient).symm
          (unfinished_client hclient (.inr rfl))⟩
      | claim =>
        rename_i now
        refine ⟨_, hs.push h hphase (.claim now) (fun _ => rfl) rfl ?_⟩
        rcases Round.after_cases .idle (event (step sha256) (dbOf store' log) (.m2ClaimDue now))
          with ⟨_, -, hsame⟩ | ⟨reply, hreply, hnext⟩
        · rw [hsame]
          trivial
        · rw [hnext]
          unfold roundOf
          split
          · refine ⟨calls, now, rfl, ?_⟩
            rw [← hs.db]
            exact hreply
          · trivial
    · refine ⟨calls, hs.skip (dbOf_stored_ne hstore ..) rfl (if_neg fun h => hstore h.1) ?_⟩
      intro d' n' round' hround
      rw [hphase] at hround
      cases hround
      exact absurd rfl hstore

/-- The machine explains every orderly log. -/
theorem exists_serial (h : Everywhere (Orderly sha256) log) (store : ℕ) :
    ∃ calls, Serial sha256 store log calls := by
  refine h.induct (I := fun log => ∃ calls, Serial sha256 store log calls) ?_ ?_
  · exact ⟨[], rfl, rfl, rfl, fun _ _ _ _ h => (nomatch h)⟩
  · rintro log e hall he ⟨calls, hs⟩
    exact serial_concat hall he hs

/-! ### What a round keeps -/

/-- What the store and its round keep together holds of every served store. -/
theorem session_induct {I : Round → Db → Prop} (hfresh : ∀ db, I .fresh db)
    (hstored : ∀ round db c, Fits round c → I round db →
      I (round.after (event (step sha256) db c)) (step sha256 db c).2)
    (hattempted : ∀ config delivery peer db, I (.claimed delivery) db →
      I (.attempted config delivery peer) db)
    (h : Everywhere (Orderly sha256) log) {d n : ℕ} {round : Round}
    (hphase : phaseOf w log = .serving d n store round) : I round (dbOf store log) := by
  revert w d n round
  refine h.induct (I := fun log => ∀ {w d n round}, phaseOf w log = .serving d n store round →
    I round (dbOf store log)) (fun h => nomatch h) ?_
  rintro log ⟨v, record⟩ hall ⟨hlegal, -⟩ ih w d n round hphase
  by_cases hv : v = w
  · subst hv
    rw [phaseOf_same] at hphase
    cases record with
    | locked | ended => cases hphase
    | opened store' =>
      obtain ⟨d', n', hbefore⟩ := hlegal
      rw [hbefore] at hphase
      cases hphase
      exact hfresh _
    | stored store' e =>
      obtain ⟨d', n', round', hbefore, hfits, he⟩ := hlegal
      rw [hbefore] at hphase
      cases hphase
      generalize e.call = c at hfits he
      subst he
      rw [dbOf_stored]
      exact hstored round' _ c hfits (ih hbefore)
    | attempted store' config delivery peer =>
      obtain ⟨d', n', hbefore⟩ := hlegal
      rw [hbefore] at hphase
      cases hphase
      rw [dbOf_concat (.attempted ..) fun _ h => (nomatch h)]
      exact hattempted config delivery peer _ (ih hbefore)
  · rw [phaseOf_other hv] at hphase
    have hother : ∀ e, record ≠ .stored store e := by
      rintro e rfl
      obtain ⟨d', n', round', hbefore, -⟩ := hlegal
      exact hv (serving_unique hall hbefore hphase)
    rw [dbOf_concat record hother]
    exact ih hphase

/-! ### Messages that are being sent -/

section Sending

variable {db : Db} {c : Call}

/-- A row was there before the call, or it is new. -/
theorem row_of_step {m' : Message} (hm' : m' ∈ (step sha256 db c).2.messages.rows) :
    (∃ m ∈ db.messages.rows, RowStep c (step sha256 db c).1 m m') ∨ m'.state = .queued := by
  have heff := step_effect sha256 db c
  generalize step sha256 db c = p at heff hm' ⊢
  obtain ⟨a, db'⟩ := p
  cases heff with
  | failure | m2Existing | m3Existing | inboundIdle | switched | nothingDue | notRequeued =>
    exact .inl ⟨m', hm', .same⟩
  | m2New hrows | m3New _ hrows | inboundAccepted _ _ hrows =>
    simp only [hrows, List.mem_append, List.mem_singleton] at hm'
    rcases hm' with hm' | rfl
    · exact .inl ⟨m', hm', .same⟩
    · exact .inr rfl
  | @moved _ r x x' messages hx hmove hrows =>
    simp only [hrows, List.mem_map] at hm'
    obtain ⟨m, hm, rfl⟩ := hm'
    refine .inl ⟨m, hm, ?_⟩
    unfold replaceRow
    split_ifs with hid
    · obtain rfl := Table.eq_of_key messageId_mem_keys hm hx hid
      exact .moved rfl hmove
    · exact .same
  | @recovered now _ messages hrows =>
    simp only [hrows, List.mem_map] at hm'
    obtain ⟨m, hm, rfl⟩ := hm'
    refine .inl ⟨m, hm, ?_⟩
    unfold recoverRow
    split_ifs with hs
    · exact .recovered rfl hs
    · exact .same

/-- Only a claim begins to send a message. -/
theorem sending_of_step {m' : Message} (hm' : m' ∈ (step sha256 db c).2.messages.rows)
    (hs : m'.state = .sending) :
    (∃ m ∈ db.messages.rows, m.messageId = m'.messageId ∧ m.state = .sending) ∨
      ∃ now delivery, c = .m2ClaimDue now ∧
        (step sha256 db c).1 = .ok (.claimed (some delivery)) ∧
        delivery.messageId = m'.messageId := by
  rcases row_of_step hm' with ⟨m, hm, hstep⟩ | hqueued
  · cases hstep with
    | same => exact .inl ⟨_, hm, rfl, hs⟩
    | recovered => cases hs
    | moved ha hmove =>
      cases hmove with
      | claim hdue => exact .inr ⟨_, _, rfl, ha, rfl⟩
      | accept | schedule | exhaust | fail | doubt | requeue => cases hs
  · rw [hqueued] at hs
    cases hs

/-- A recovery leaves no message in `sending`. -/
theorem not_sending_recovered {now : Int64} {reply : Reply}
    (h : (step sha256 db (.m2RecoverInterrupted now)).1 = .ok reply) {m : Message}
    (hm : m ∈ (step sha256 db (.m2RecoverInterrupted now)).2.messages.rows) :
    m.state ≠ .sending := by
  have heff := step_effect sha256 db (.m2RecoverInterrupted now)
  generalize step sha256 db (.m2RecoverInterrupted now) = p at heff h hm
  obtain ⟨a, db'⟩ := p
  obtain rfl : a = .ok reply := h
  cases heff with
  | moved _ hmove => cases hmove
  | recovered hrows =>
    simp only [hrows, List.mem_map] at hm
    obtain ⟨x, -, rfl⟩ := hm
    unfold recoverRow
    split_ifs with hs
    · exact nofun
    · exact hs

/-- A mark ends the sending of its message. -/
theorem not_sending_marked {id : String} {reply : Reply} (hmark : markedId c = some id)
    (h : (step sha256 db c).1 = .ok reply) {m : Message}
    (hm : m ∈ (step sha256 db c).2.messages.rows) (hid : m.messageId = id) :
    m.state ≠ .sending := by
  have heff := step_effect sha256 db c
  generalize step sha256 db c = p at heff h hm
  obtain ⟨a, db'⟩ := p
  obtain rfl : a = .ok reply := h
  cases heff with
  | m2Existing | m3Existing | inboundIdle | switched | nothingDue | notRequeued | m2New | m3New
  | inboundAccepted | recovered => cases hmark
  | @moved _ r x x' messages hx hmove hrows =>
    simp only [hrows, List.mem_map] at hm
    obtain ⟨y, hy, rfl⟩ := hm
    have hmoved : x.messageId = id ∧ x'.state ≠ .sending := by
      cases hmove with
      | claim | requeue => cases hmark
      | accept | schedule | exhaust | fail | doubt =>
        cases hmark
        exact ⟨rfl, nofun⟩
    unfold replaceRow at hid ⊢
    split_ifs at hid ⊢ with hsame
    · exact hmoved.2
    · exact absurd (hid.trans hmoved.1.symm) hsame

end Sending

/-- What a served store may hold in `sending`. -/
def Swept : Round → Db → Prop
  | .fresh, _ => True
  | .idle, db => ∀ m ∈ db.messages.rows, m.state ≠ .sending
  | .claimed delivery, db | .attempted _ delivery _, db =>
    ∀ m ∈ db.messages.rows, m.state = .sending → m.messageId = delivery.messageId

theorem swept_stored (round : Round) (db : Db) (c : Call) (hfits : Fits round c)
    (h : Swept round db) :
    Swept (round.after (event (step sha256) db c)) (step sha256 db c).2 := by
  rcases round.after_cases (event (step sha256) db c) with
    ⟨error, herror, hsame⟩ | ⟨reply, hreply, hnext⟩
  · rw [hsame, unchanged_of_error herror]
    exact h
  have hanswer : (step sha256 db c).1 = .ok reply := hreply
  have hcall : (event (step sha256) db c).call = c := rfl
  rw [hnext, hcall]
  cases hfits with
  | recover => exact fun m hm => not_sending_recovered hanswer hm
  | client hclient =>
    rw [roundOf_client hclient]
    intro m' hm' hs
    rcases sending_of_step hm' hs with ⟨m, hm, -, hms⟩ | ⟨now, delivery, rfl, -⟩
    · exact h m hm hms
    · cases hclient
  | claim =>
    rename_i now
    have hnew : ∀ m' ∈ (step sha256 db (.m2ClaimDue now)).2.messages.rows, m'.state = .sending →
        ∃ delivery, reply = .claimed (some delivery) ∧ delivery.messageId = m'.messageId := by
      intro m' hm' hs
      rcases sending_of_step hm' hs with ⟨m, hm, -, hms⟩ | ⟨_, delivery, -, hclaimed, hid⟩
      · exact absurd hms (h m hm)
      · cases hanswer.symm.trans hclaimed
        exact ⟨delivery, rfl, hid⟩
    unfold roundOf
    split
    · intro m' hm' hs
      obtain ⟨delivery, hdelivery, hid⟩ := hnew m' hm' hs
      cases hdelivery
      exact hid.symm
    · rename_i hother
      intro m' hm' hs
      obtain ⟨delivery, hdelivery, -⟩ := hnew m' hm' hs
      exact hother now delivery rfl hdelivery
  | mark houtcome =>
    rename_i config delivery peer now outcome
    rw [roundOf_outcomeCall]
    intro m' hm' hs
    have hmark : markedId (outcomeCall delivery.messageId now outcome) = some delivery.messageId :=
      markedId_outcomeCall _ _ _
    rcases sending_of_step hm' hs with ⟨m, hm, hid, hms⟩ | ⟨_, _, hclaim, -⟩
    · exact not_sending_marked hmark hanswer hm' (hid.symm.trans (h m hm hms)) hs
    · rw [hclaim] at hmark
      cases hmark

/-- A served store holds no message in `sending` but that of the open round. -/
theorem swept (h : Everywhere (Orderly sha256) log) {d n : ℕ} {round : Round}
    (hphase : phaseOf w log = .serving d n store round) : Swept round (dbOf store log) :=
  session_induct (I := Swept) (fun _ => trivial) swept_stored (fun _ _ _ _ h => h) h hphase

/-! ### Guarded messages -/

/-- The attempt of an event was made for the message that its round claimed. -/
theorem sendOf_eq_some {db : Db} {call : SerialCall} {config : Config} {delivery : M2Delivery}
    {peer : Peer}
    (h : sendOf (event (serialStep sha256) db call) = some (config, delivery, peer)) :
    ∃ claimNow markNow, call = .round config claimNow peer markNow ∧
      (dispatchDue sha256 config (some claimNow) peer markNow db).1.attempt =
        some (delivery, attempt config delivery peer) ∧
      (step sha256 db (.m2ClaimDue claimNow)).1 = .ok (.claimed (some delivery)) := by
  cases call with
  | client | claim => cases h
  | round config' claimNow peer' markNow =>
    cases hattempt : (dispatchDue sha256 config' (some claimNow) peer' markNow db).1.attempt with
    | none =>
      simp only [sendOf, event, serialStep, hattempt] at h
      cases h
    | some made =>
      obtain ⟨delivery', a⟩ := made
      simp only [sendOf, event, serialStep, hattempt] at h
      cases h
      refine ⟨claimNow, markNow, rfl, ?_⟩
      have heffect := dispatchDue_effect sha256 config (some claimNow) peer markNow db
      rw [hattempt] at heffect ⊢
      generalize (dispatchDue sha256 config (some claimNow) peer markNow db).2 = db' at heffect
      cases heffect with
      | unmarked hclaim => exact ⟨rfl, hclaim⟩
      | marked hclaim => exact ⟨rfl, hclaim⟩

/-- **One step of the machine keeps a guarded message guarded.** -/
theorem guarded_serialStep (id : String) (db : Db) (call : SerialCall) (h : Guarded id db) :
    Guarded id (serialStep sha256 db call).2 := by
  cases call with
  | client c hc => exact guarded_call (by rw [markedId_client hc]; exact nofun) h
  | claim now => exact guarded_call nofun h
  | round config claimNow peer markNow =>
    have hstep : Guarded id
        (serviceStep sha256 config db (.dispatch (some claimNow) peer markNow)).2 :=
      guarded_step id db _ h
    exact hstep

/-- What an attempt can have done to the provider. -/
def Harmless (config : Config) (delivery : M2Delivery) (peer : Peer) : Prop :=
  (attempt config delivery peer).handed = [] ∨
    ∃ driver item, handover config delivery = some (driver, item) ∧
      (Rejection (driver.replyStatus peer) ∨ UnacknowledgedSuccess config.json driver item peer)

/-- An attempt that may have had an effect guards its message. -/
theorem guarded_of_send {db : Db} {call : SerialCall} {config : Config} {delivery : M2Delivery}
    {peer : Peer}
    (h : sendOf (event (serialStep sha256) db call) = some (config, delivery, peer))
    (heffect : ¬ Harmless config delivery peer) :
    Guarded delivery.messageId (serialStep sha256 db call).2 := by
  obtain ⟨claimNow, markNow, rfl, hattempt, hclaim⟩ := sendOf_eq_some h
  have hhanded : (attempt config delivery peer).handed ≠ [] := fun hnil => heffect (.inl hnil)
  cases hhand : handover config delivery with
  | none =>
    refine absurd ?_ hhanded
    simp only [attempt, hhand]
    rfl
  | some call =>
    obtain ⟨driver, item⟩ := call
    have hguarded : Guarded delivery.messageId
        (serviceStep sha256 config db (.dispatch (some claimNow) peer markNow)).2 := by
      refine guarded_after_attempt ?_ ?_
      · rintro now peer' markNow' delivery' driver' item' hcall hclaim' hhand'
        cases hcall
        cases hclaim.symm.trans hclaim'
        exact fun hack => heffect (.inr ⟨driver', item', hhand', .inr hack⟩)
      · exact ⟨some claimNow, peer, markNow,
          (dispatchDue sha256 config (some claimNow) peer markNow db).1, delivery, _, driver, item,
          rfl, rfl, hattempt, rfl, hhand, hhanded,
          fun hrejection => heffect (.inr ⟨driver, item, hhand, .inl hrejection⟩)⟩
    exact hguarded

/-! ### Messages that are not sent any more -/

/-- The message of an open round. -/
def Round.delivery : Round → Option M2Delivery
  | .claimed delivery | .attempted _ delivery _ => some delivery
  | .fresh | .idle => none

/-- The message is guarded in the store, and no open round is one for it. -/
structure Closed (id : String) (store : ℕ) (log : Log) : Prop where
  guarded : Guarded id (dbOf store log)
  rounds : ∀ w d n round delivery, phaseOf w log = .serving d n store round →
    round.delivery = some delivery → delivery.messageId ≠ id

theorem guarded_fitting {id : String} {db : Db} {round : Round} {c : Call} (hfits : Fits round c)
    (hround : ∀ delivery, round.delivery = some delivery → delivery.messageId ≠ id)
    (h : Guarded id db) : Guarded id (step sha256 db c).2 := by
  refine guarded_call ?_ h
  cases hfits with
  | recover | claim => exact fun heq => by cases heq
  | client hclient =>
    rw [markedId_client hclient]
    exact fun heq => by cases heq
  | mark houtcome =>
    rw [markedId_outcomeCall]
    exact fun heq => hround _ rfl (Option.some.inj heq)

/-- No round is opened for a guarded message. -/
theorem delivery_fitting {id : String} {db : Db} {round : Round} {c : Call} {delivery : M2Delivery}
    (hround : ∀ delivery, round.delivery = some delivery → delivery.messageId ≠ id)
    (h : Guarded id db)
    (hnext : (round.after (event (step sha256) db c)).delivery = some delivery) :
    delivery.messageId ≠ id := by
  rcases round.after_cases (event (step sha256) db c) with
    ⟨error, -, hsame⟩ | ⟨reply, hreply, hafter⟩
  · rw [hsame] at hnext
    exact hround delivery hnext
  · rw [hafter] at hnext
    unfold roundOf at hnext
    split at hnext
    · rename_i now delivery' hcall
      obtain rfl := Option.some.inj hnext
      have hclaim : (step sha256 db (.m2ClaimDue now)).1 = .ok (.claimed (some delivery')) := by
        rw [← hcall]
        exact hreply
      rintro rfl
      exact (claim_guards hclaim).1 h
    · cases hnext

theorem closed_concat {id : String} {e : ℕ × Record} (he : Legal sha256 log e)
    (h : Closed id store log) : Closed id store (log ++ [e]) ∧
      ∀ send ∈ sendIn store e.2, send.2.1.messageId ≠ id := by
  obtain ⟨v, record⟩ := e
  -- a worker that does nothing to the store
  have hkept : (∀ e, record ≠ .stored store e) → (∀ d n round, advance (phaseOf v log) record =
      .serving d n store round → ∀ delivery, round.delivery = some delivery →
        delivery.messageId ≠ id) → Closed id store (log ++ [(v, record)]) := by
    intro hother hround
    refine ⟨by rw [dbOf_concat record hother]; exact h.guarded,
      fun w d n round delivery hphase hdelivery => ?_⟩
    by_cases hv : v = w
    · subst hv
      rw [phaseOf_same] at hphase
      exact hround d n round hphase delivery hdelivery
    · rw [phaseOf_other hv] at hphase
      exact h.rounds w d n round delivery hphase hdelivery
  cases record with
  | locked d n =>
    exact ⟨hkept (fun e heq => by cases heq) (fun _ _ _ hphase => by cases hphase),
      fun send hsend => by cases hsend⟩
  | ended =>
    exact ⟨hkept (fun e heq => by cases heq) (fun _ _ _ hphase => by cases hphase),
      fun send hsend => by cases hsend⟩
  | opened store' =>
    obtain ⟨d', n', hbefore⟩ := he
    refine ⟨hkept (fun e heq => by cases heq) (fun _ _ _ hphase delivery hdelivery => ?_),
      fun send hsend => by cases hsend⟩
    rw [hbefore] at hphase
    cases hphase
    cases hdelivery
  | attempted store' config delivery peer =>
    obtain ⟨d', n', hbefore⟩ := he
    refine ⟨hkept (fun e heq => by cases heq) (fun _ _ _ hphase delivery' hdelivery => ?_),
      fun send hsend => ?_⟩
    · rw [hbefore] at hphase
      cases hphase
      obtain rfl := Option.some.inj hdelivery
      exact h.rounds v d' n' _ delivery hbefore rfl
    · rw [sendIn] at hsend
      split_ifs at hsend with hstore
      · subst hstore
        obtain rfl := Option.some.inj hsend
        exact h.rounds v d' n' _ delivery hbefore rfl
      · cases hsend
  | stored store' e =>
    obtain ⟨d', n', round', hbefore, hfits, he⟩ := he
    refine ⟨?_, fun send hsend => by cases hsend⟩
    by_cases hstore : store' = store
    · subst hstore
      generalize e.call = c at hfits he
      subst he
      have hround := fun delivery => h.rounds v d' n' round' delivery hbefore
      refine ⟨?_, fun w d n round delivery hphase hdelivery => ?_⟩
      · rw [dbOf_stored]
        exact guarded_fitting hfits hround h.guarded
      · by_cases hv : v = w
        · subst hv
          rw [phaseOf_same, hbefore] at hphase
          cases hphase
          exact delivery_fitting hround h.guarded hdelivery
        · rw [phaseOf_other hv] at hphase
          exact h.rounds w d n round delivery hphase hdelivery
    · refine hkept (fun e' heq => hstore (by cases heq; rfl)) (fun _ _ _ hphase => ?_)
      rw [hbefore] at hphase
      cases hphase
      exact absurd rfl hstore

/-- A closed message is not sent again. -/
theorem closed_append {id : String} {front back : Log}
    (h : Everywhere (Legal sha256) (front ++ back)) (hclosed : Closed id store front) :
    Closed id store (front ++ back) ∧ ∀ send ∈ sends store back, send.2.1.messageId ≠ id := by
  induction back using List.reverseRecOn with
  | nil => exact ⟨by rwa [List.append_nil], List.forall_mem_nil _⟩
  | append_singleton back e ih =>
    rw [← List.append_assoc] at h ⊢
    obtain ⟨hbefore, hsends⟩ := ih h.front
    obtain ⟨hafter, hsend⟩ := closed_concat h.last hbefore
    obtain ⟨v, record⟩ := e
    refine ⟨hafter, fun send hmem => ?_⟩
    rw [sends_concat] at hmem
    rcases List.mem_append.1 hmem with hmem | hmem
    · exact hsends send hmem
    · exact hsend send (Option.mem_toList.1 hmem)

/-- The message of a round that ends after the attempt and before its mark is closed. -/
theorem closed_ended (h : Everywhere (Orderly sha256) log) {d n : ℕ} {config : Config}
    {delivery : M2Delivery} {peer : Peer}
    (hphase : phaseOf w log = .serving d n store (.attempted config delivery peer)) :
    Closed delivery.messageId store (log ++ [(w, .ended)]) := by
  obtain ⟨calls, hs⟩ := exists_serial h store
  obtain ⟨before, now, hcalls, hclaim⟩ := hs.rounds w d n _ hphase
  refine ⟨?_, fun v d' n' round delivery' hv _ => ?_⟩
  · obtain ⟨-, m, hm, hid, hsending⟩ := claim_guards hclaim
    have hopen : (serialStep sha256 (run (serialStep sha256) Db.migrated before)
        (.round config now peer none)).2 =
          (step sha256 (run (serialStep sha256) Db.migrated before) (.m2ClaimDue now)).2 :=
      congrArg Prod.snd (serialStep_open hclaim)
    rw [dbOf_concat .ended (fun e heq => by cases heq), hs.db, hcalls, run_snoc, hopen]
    exact ⟨m, hm, hid, .inl hsending⟩
  · by_cases hne : w = v
    · subst hne
      rw [phaseOf_same] at hv
      cases hv
    · rw [phaseOf_other hne] at hv
      exact absurd (serving_unique h hphase hv) hne

end Rounds

/-! ### Two processes -/

/-- The configuration of both processes. -/
def noticeService : Startup.ServiceConfig :=
  ⟨"/state", "/socket", "http://127.0.0.1:8080", "alerts",
    some ⟨.whatsapp noticeDriver, "notice", "en_US", 1⟩, none⟩

/-- So many turns of a process. -/
def turns (w n : ℕ) (fate : Fate) : List (Move Op Fate) := List.replicate n (.turn w fate)

/-- A process starts and serves.  What it creates gets the two numbers. -/
def serving (w directory file : ℕ) : List (Move Op Fate) :=
  .boot w :: turns w 2 calm ++
    .begin w (.serve noticeService) :: turns w 3 { calm with file := ⟨none, 0, directory⟩ } ++
      turns w 18 { calm with file := ⟨none, 0, file⟩ }

/-- One turn of the loop; no provider accepts a connection. -/
def polling (w : ℕ) (now : Int64) (arrival : Arrival) : List (Move Op Fate) :=
  .begin w .poll ::
    turns w 8 { calm with now := some now, arrival, unixPeer := noticePeer, peer := refusingPeer }

/-- A process admits a notice, attempts it and stops.  Another one attempts it again. -/
def takeover : List (Move Op Fate) :=
  serving 0 1 2 ++ polling 0 5 .connection ++ .stop 0 :: serving 1 3 4 ++
    polling 1 10000 .wouldBlock

/-- A process stops between an attempt and its mark, and another one takes over. -/
def interrupted : List (Move Op Fate) :=
  serving 0 1 2 ++ .begin 0 .poll ::
    turns 0 6 { calm with
      now := some 5, arrival := .connection, unixPeer := noticePeer, peer := refusingPeer } ++
    .stop 0 :: serving 1 3 4 ++ polling 1 10000 .wouldBlock

/-- The state directory is not there yet. -/
def noFiles : Files := ⟨fun _ => none, none, fun _ => none, false⟩

/-- The row of the notice. -/
def noticeRow : Message := m3Message Sha256.sha256 (whatsappSubmission notice noticePayload) 5

theorem takeover_facts :
    let p := ran Sha256.sha256 noticeCodec 1000 noFiles takeover
    p.shared.files.rebound = false ∧
    ((sends 1 p.shared.log).map fun send => send.2.1.messageId) =
      [noticeRow.messageId, noticeRow.messageId] ∧
    (p.shared.log.any fun e =>
      match e.2 with
      | .stored store e => store == 1 && e.after.messages.rows == [noticeRow]
      | _ => false) = true := by
  decide +kernel

/-- The store of the first process when it stops holds its message in `sending`. -/
theorem interrupted_facts :
    let p := ran Sha256.sha256 noticeCodec 1000 noFiles interrupted
    p.shared.files.rebound = false ∧
    (match p.shared.log[7]? with
      | some (0, .ended) => true
      | _ => false) = true ∧
    (match phaseOf 0 (p.shared.log.take 7) with
      | .serving _ _ 1 (.attempted ..) => true
      | _ => false) = true ∧
    (dbOf 1 (p.shared.log.take 7)).messages.rows.map (·.state) = [.sending] ∧
    (match p.workers 1 with
      | .ready (some session) => session.store
      | _ => 0) = 1 := by
  decide +kernel

/-- The entry of the stop. -/
theorem interrupted_log :
    (ran Sha256.sha256 noticeCodec 1000 noFiles interrupted).shared.log =
      (ran Sha256.sha256 noticeCodec 1000 noFiles interrupted).shared.log.take 7 ++
        (0, .ended) :: (ran Sha256.sha256 noticeCodec 1000 noFiles interrupted).shared.log.drop 8 := by
  obtain ⟨-, hentry, -⟩ := interrupted_facts
  generalize (ran Sha256.sha256 noticeCodec 1000 noFiles interrupted).shared.log = log at hentry ⊢
  split at hentry
  · rename_i hget
    obtain ⟨hlength, hget⟩ := List.getElem?_eq_some_iff.1 hget
    rw [← hget, ← List.drop_eq_getElem_cons hlength, List.take_append_drop]
  · cases hentry

/-! ### Results -/

section Results

variable {sha256 : List UInt8 → List.Vector UInt8 32} {json : Json.Codec} {euid : ℕ}
  {files : Files} {moves : List (Move Op Fate)}

theorem ran_inv : Inv sha256 euid (ran sha256 json euid files moves).shared :=
  (ran_holds files moves).inv

theorem ran_orderly (h : (ran sha256 json euid files moves).shared.files.rebound = false) :
    Everywhere (Orderly sha256) (ran sha256 json euid files moves).shared.log :=
  fun front e back heq => ⟨ran_inv.legal front e back heq, ran_inv.settled h front e back heq⟩

/-- **One owner.**  However the processes take turns and wherever they stop, the owner of a
directory is its only one and holds the lock of the file that the directory names.  As long as the
path keeps its file, each transaction of a store was made by the only owner of the directory of that
store. -/
theorem one_owner (sha256 : List UInt8 → List.Vector UInt8 32) (json : Json.Codec) (euid : ℕ)
    (files : Files) (moves : List (Move Op Fate)) :
    let s := (ran sha256 json euid files moves).shared
    (∀ w d n, (phaseOf w s.log).owns = some (d, n) →
      s.files.held n = some w ∧ s.files.isPrivate euid d = true ∧ s.files.entry d = some n ∧
        ∀ v n', (phaseOf v s.log).owns = some (d, n') → v = w) ∧
    (s.files.rebound = false → ∀ front w store e back,
      s.log = front ++ (w, .stored store e) :: back →
        ∃ n, (phaseOf w front).owns = some (store, n) ∧
          ∀ v n', (phaseOf v front).owns = some (store, n') → v = w) := by
  intro s
  have hinv : Inv sha256 euid s := ran_inv
  constructor
  · intro w d n howns
    obtain ⟨hlock, hprivate, hentry⟩ := hinv.lock w d n howns
    exact ⟨hlock, hprivate, hentry, fun v n' hv => (owns_unique hinv.legal hv howns).1⟩
  · intro hpath front w store e back hlog
    have horderly : Everywhere (Orderly sha256) s.log := ran_orderly hpath
    have hfront : Everywhere (Orderly sha256) front := by
      rw [hlog] at horderly
      exact horderly.front
    obtain ⟨⟨d, n, round, hphase, -⟩, -⟩ := horderly front _ back hlog
    obtain rfl := serving_settled hfront hphase
    have howns : (phaseOf w front).owns = some (d, n) := by
      rw [hphase]
      rfl
    exact ⟨n, howns, fun v n' hv => (owns_unique (orderly_legal hfront) hv howns).1⟩

/-- **Rounds are atomic.**  As long as the path keeps its file, the store is as one machine leaves
it that makes client calls and whole rounds of dispatch one after the other.  The machine makes the
client calls of the processes, each once and in their order, and their attempts as well. -/
theorem serialized (h : (ran sha256 json euid files moves).shared.files.rebound = false)
    (store : ℕ) :
    ∃ calls, (ran sha256 json euid files moves).shared.db store =
        run (serialStep sha256) Db.migrated calls ∧
      sends store (ran sha256 json euid files moves).shared.log =
        (events (serialStep sha256) Db.migrated calls).filterMap sendOf ∧
      clients store (ran sha256 json euid files moves).shared.log = calls.filterMap clientOf := by
  obtain ⟨calls, hs⟩ := exists_serial (ran_orderly h) store
  exact ⟨calls, (ran_inv.db store).trans hs.db, hs.sends, hs.clients⟩

theorem serialized_takeover :
    ∃ calls, (ran Sha256.sha256 noticeCodec 1000 noFiles takeover).shared.db 1 =
        run (serialStep Sha256.sha256) Db.migrated calls ∧
      sends 1 (ran Sha256.sha256 noticeCodec 1000 noFiles takeover).shared.log =
        (events (serialStep Sha256.sha256) Db.migrated calls).filterMap sendOf ∧
      clients 1 (ran Sha256.sha256 noticeCodec 1000 noFiles takeover).shared.log =
        calls.filterMap clientOf :=
  serialized takeover_facts.1 1

/-- **Nothing is sent twice.**  When a message is attempted again, by this process or by another
one, the earlier attempt had no effect at the provider that is known of: it handed over nothing, was
rejected, or was answered by an unacknowledged success.  After a stop between an attempt and its
mark the message is not attempted again at all, whatever the provider answered. -/
theorem sent_once (h : (ran sha256 json euid files moves).shared.files.rebound = false) (store : ℕ) :
    (∀ {front back : List Send} {config config' : Config} {delivery delivery' : M2Delivery}
      {peer peer' : Peer}, sends store (ran sha256 json euid files moves).shared.log =
        front ++ (config, delivery, peer) :: back →
      (config', delivery', peer') ∈ back → delivery'.messageId = delivery.messageId →
        Harmless config delivery peer) ∧
    (∀ {w d n : ℕ} {front back : Log} {config : Config} {delivery : M2Delivery} {peer : Peer},
      (ran sha256 json euid files moves).shared.log = front ++ (w, .ended) :: back →
      phaseOf w front = .serving d n store (.attempted config delivery peer) →
        ∀ send ∈ sends store back, send.2.1.messageId ≠ delivery.messageId) := by
  constructor
  · intro front back config config' delivery delivery' peer peer' hsent hagain hid
    by_contra heffect
    obtain ⟨calls, -, hsends, -⟩ := serialized h store
    rw [hsent] at hsends
    obtain ⟨_, _, hevents, -, hrest⟩ := List.filterMap_eq_append_iff.1 hsends.symm
    obtain ⟨_, e, later, rfl, -, he, rfl⟩ := List.filterMap_eq_cons_iff.1 hrest
    rw [← List.append_assoc] at hevents
    obtain ⟨pre, call, post, -, -, rfl, rfl⟩ := events_eq_append_cons hevents
    obtain ⟨e', he', hsend'⟩ := List.mem_filterMap.1 hagain
    obtain ⟨pre', call', post', -, rfl⟩ := mem_events_iff.1 he'
    -- the message is guarded after its first attempt, and stays so up to the second one
    have hguarded : Guarded delivery.messageId (run (serialStep sha256)
        (serialStep sha256 (run (serialStep sha256) Db.migrated pre) call).2 pre') :=
      run_induct (guarded_serialStep delivery.messageId) (guarded_of_send he heffect) pre'
    obtain ⟨claimNow, -, -, -, hclaim⟩ := sendOf_eq_some hsend'
    refine (claim_guards hclaim).1 ?_
    rw [hid]
    exact hguarded
  · intro w d n front back config delivery peer hlog hphase
    have horderly : Everywhere (Orderly sha256) (ran sha256 json euid files moves).shared.log :=
      ran_orderly h
    rw [hlog, List.append_cons] at horderly
    exact (closed_append (orderly_legal horderly) (closed_ended horderly.front.front hphase)).2

/-- The first of two attempts, and an attempt that a stop cuts off. -/
theorem sent_once_takeover :
    (∃ config delivery peer, (config, delivery, peer) ∈
      sends 1 (ran Sha256.sha256 noticeCodec 1000 noFiles takeover).shared.log ∧
        Harmless config delivery peer) ∧
    ∃ d n config delivery peer,
      phaseOf 0 ((ran Sha256.sha256 noticeCodec 1000 noFiles interrupted).shared.log.take 7) =
        .serving d n 1 (.attempted config delivery peer) ∧
      ∀ send ∈ sends 1
        ((ran Sha256.sha256 noticeCodec 1000 noFiles interrupted).shared.log.drop 8),
          send.2.1.messageId ≠ delivery.messageId := by
  constructor
  · obtain ⟨hpath, hids, -⟩ := takeover_facts
    obtain ⟨⟨config, delivery, peer⟩, rest, hsends, hid, hrest⟩ := List.map_eq_cons_iff.1 hids
    obtain ⟨⟨config', delivery', peer'⟩, rest, rfl, hid', -⟩ := List.map_eq_cons_iff.1 hrest
    refine ⟨config, delivery, peer, ?_, ?_⟩
    · rw [hsends]
      exact List.mem_cons_self
    · exact (sent_once hpath 1).1 (hsends.trans (List.nil_append _).symm) List.mem_cons_self
        (hid'.trans hid.symm)
  · obtain ⟨hpath, -, hround, -⟩ := interrupted_facts
    split at hround
    · rename_i d n config delivery peer hphase
      exact ⟨d, n, config, delivery, peer, hphase,
        (sent_once hpath 1).2 interrupted_log hphase⟩
    · cases hround

/-- **Nothing stays in `sending`.**  While a process serves a store, the message of its open round
is the only one of the store that may be in `sending`, whatever the processes before it left
behind.  Between two operations of the process no round is open. -/
theorem nothing_left_sending (h : (ran sha256 json euid files moves).shared.files.rebound = false) :
    (∀ {w : ℕ} {session : Session},
      (ran sha256 json euid files moves).workers w = .ready (some session) →
        ∀ m ∈ ((ran sha256 json euid files moves).shared.db session.store).messages.rows,
          m.state ≠ .sending) ∧
    (∀ {w d n store : ℕ} {round : Round},
      phaseOf w (ran sha256 json euid files moves).shared.log = .serving d n store round →
        Swept round ((ran sha256 json euid files moves).shared.db store)) := by
  have hswept : ∀ {w d n store : ℕ} {round : Round},
      phaseOf w (ran sha256 json euid files moves).shared.log = .serving d n store round →
        Swept round ((ran sha256 json euid files moves).shared.db store) := by
    intro w d n store round hphase
    rw [ran_inv.db]
    exact swept (ran_orderly h) hphase
  refine ⟨fun {w session} hready => ?_, hswept⟩
  have hsound : Pool.Sound (World.system sha256 json euid) (contract sha256 json euid) good w
      (ran sha256 json euid files moves).shared ((ran sha256 json euid files moves).workers w) :=
    (ran_holds files moves).sound w
  rw [hready] at hsound
  obtain ⟨d, n, hphase⟩ : At w (Serves session.store .idle)
    (ran sha256 json euid files moves).shared := hsound
  exact hswept hphase

/-- The message is in `sending` when the first process stops. -/
theorem nothing_left_sending_interrupted :
    (∃ m ∈ (dbOf 1 ((ran Sha256.sha256 noticeCodec 1000 noFiles
      interrupted).shared.log.take 7)).messages.rows, m.state = .sending) ∧
    ∃ session,
      (ran Sha256.sha256 noticeCodec 1000 noFiles interrupted).workers 1 = .ready (some session) ∧
        ∀ m ∈ ((ran Sha256.sha256 noticeCodec 1000 noFiles interrupted).shared.db
          session.store).messages.rows, m.state ≠ .sending := by
  obtain ⟨hpath, -, -, hsending, hserved⟩ := interrupted_facts
  constructor
  · obtain ⟨m, rest, hrows, hstate, -⟩ := List.map_eq_cons_iff.1 hsending
    refine ⟨m, ?_, hstate⟩
    rw [hrows]
    exact List.mem_cons_self
  · cases hworker : (ran Sha256.sha256 noticeCodec 1000 noFiles interrupted).workers 1 with
    | ready kernel =>
      cases kernel with
      | some session => exact ⟨session, rfl, (nothing_left_sending hpath).1 hworker⟩
      | none =>
        rw [hworker] at hserved
        cases hserved
    | stopped | running =>
      rw [hworker] at hserved
      cases hserved

/-- A store keeps its rows. -/
theorem kept_concat {log : Log} {e : ℕ × Record} (he : Legal sha256 log e) (store : ℕ)
    {m : Message} (hm : m ∈ (dbOf store log).messages.rows) :
    ∃ m' ∈ (dbOf store (log ++ [e])).messages.rows, Later m m' := by
  obtain ⟨w, record⟩ := e
  by_cases hstored : ∃ e, record = .stored store e
  · obtain ⟨e, rfl⟩ := hstored
    obtain ⟨d, n, round, -, -, he⟩ := he
    rw [dbOf_stored, he]
    obtain ⟨m', hm', hstep⟩ := row_step sha256 (dbOf store log) e.call hm
    exact ⟨m', hm', hstep.later⟩
  · rw [dbOf_concat record fun e h => hstored ⟨e, h⟩]
    exact ⟨m, hm, .refl m⟩

/-- **No message is lost.**  A row that a transaction left in a store is there after every run, with
its content, and has only moved forward. -/
theorem message_kept {store w : ℕ} {front back : Log} {e : StoreEvent}
    (hlog : (ran sha256 json euid files moves).shared.log = front ++ (w, .stored store e) :: back)
    {m : Message} (hm : m ∈ e.after.messages.rows) :
    ∃ m' ∈ ((ran sha256 json euid files moves).shared.db store).messages.rows, Later m m' := by
  have hlegal : Everywhere (Legal sha256) (ran sha256 json euid files moves).shared.log :=
    ran_inv.legal
  rw [ran_inv.db, hlog]
  rw [hlog] at hlegal
  clear hlog
  induction back using List.reverseRecOn with
  | nil =>
    rw [dbOf_stored]
    exact ⟨m, hm, .refl m⟩
  | append_singleton back e' ih =>
    rw [← List.cons_append, ← List.append_assoc] at hlegal ⊢
    obtain ⟨m', hm', hlater⟩ := ih hlegal.front
    obtain ⟨m'', hm'', hlater'⟩ := kept_concat hlegal.last store hm'
    exact ⟨m'', hm'', hlater.trans hlater'⟩

theorem message_kept_takeover : ∃ m ∈ ((ran Sha256.sha256 noticeCodec 1000 noFiles
    takeover).shared.db 1).messages.rows, Later noticeRow m := by
  obtain ⟨-, -, hstored⟩ := takeover_facts
  obtain ⟨⟨w, record⟩, hmem, hstored⟩ := List.any_eq_true.1 hstored
  cases record with
  | stored store e =>
    simp only [Bool.and_eq_true, beq_iff_eq] at hstored
    obtain ⟨rfl, hrows⟩ := hstored
    obtain ⟨front, back, hlog⟩ := List.append_of_mem hmem
    refine message_kept hlog ?_
    rw [hrows]
    exact List.mem_singleton_self _
  | locked | opened | attempted | ended => cases hstored

end Results

end MsgRiver.Service.Processes
