import MsgRiver.Lib.Sha256
import MsgRiver.PhaseZero.Callback

/-!
# Deduplication of callbacks

A provider reports a message or a status in as many callbacks as it likes.  `Subject` is what such
reports have in common, and an `Entry` is what one report of it added to the durable state.

* `wac1_injective`, `Subject.fields_injective`: what is hashed names the subject;
* `handleCallback_grown`: the durable state grows by the evidence of the entries, or not at all;
* `isDuplicate_iff`: what the code takes for a duplicate has an entry;
* `run_deduplicates`: runs whose callbacks report no new subject twice enter each subject once;
* `twice_not_atMostOnce`: a callback that does enters it twice.

The duplicates are looked up in the state before the callback, so that a callback does not see what
it accepts itself.
-/

namespace MsgRiver.PhaseZero.Callback

open Ascii Result
open Bytes (ByteVec)
open Netstring (netstring)

/-- What a candidate is about, for one account and phone. -/
inductive Subject
  | message (wabaId phoneNumberId : List UInt8) (id : String)
  | status (wabaId phoneNumberId : List UInt8) (id kind recipient : String) (occurredAt : ℤ)
  deriving DecidableEq

/-- The candidate is a message. -/
def Subject.isMessage : Subject → Bool
  | .message _ _ _ => true
  | .status _ _ _ _ _ _ => false

/-- The fields of a key. -/
def Subject.fields : Subject → List (List UInt8)
  | .message wabaId phoneNumberId id =>
    [utf8Bytes "message", utf8Bytes "7", wabaId, phoneNumberId, utf8Bytes id]
  | .status wabaId phoneNumberId id kind recipient occurredAt =>
    [utf8Bytes "status", utf8Bytes "7", wabaId, phoneNumberId, utf8Bytes id, utf8Bytes kind,
      utf8Bytes (Int.repr occurredAt), utf8Bytes recipient]

/-- What a candidate is about. -/
def subjectOf (configuration : ReferenceLoopConfiguration) : CallbackCandidate → Subject
  | .message id _ _ => .message configuration.wabaId configuration.phoneNumberId id
  | .status id kind recipient occurredAt =>
    .status configuration.wabaId configuration.phoneNumberId id kind recipient occurredAt

theorem fields_subjectOf (configuration : ReferenceLoopConfiguration) (c : CallbackCandidate) :
    (subjectOf configuration c).fields = c.fields configuration := by
  cases c <;> rfl

theorem wac1_injective : Function.Injective wac1 := by
  intro fields fields' h
  exact Netstring.flatMap_netstring_injective (List.append_cancel_left h)

theorem Subject.fields_injective : Function.Injective Subject.fields := by
  intro s s' h
  cases s <;> cases s' <;> simp only [Subject.fields, List.cons.injEq, reduceCtorEq, and_false,
    and_true, true_and] at h
  · obtain ⟨rfl, rfl, hid⟩ := h
    rw [Text.utf8Bytes_injective hid]
  · obtain ⟨rfl, rfl, hid, hkind, htime, hrecipient⟩ := h
    rw [Text.utf8Bytes_injective hid, Text.utf8Bytes_injective hkind,
      Text.utf8Bytes_injective hrecipient,
      Netstring.int_repr_injective (Text.utf8Bytes_injective htime)]

/-! ### What a callback adds -/

/-- The durable state grew by this evidence. -/
structure Grown (before after : DurableState) (added : List Evidence) : Prop where
  receipts : after.receipts = before.receipts ++ added.map Evidence.receipt
  tombstones : after.tombstones = before.tombstones ++ added.map Evidence.tombstone
  events : after.events = before.events ++ added.map Evidence.event
  outbox : after.outbox = before.outbox ++ added.filterMap Evidence.alert

theorem grown_nil (state : DurableState) : Grown state state [] := by
  constructor <;> simp

theorem Grown.append {before mid after : DurableState} {added more : List Evidence}
    (h : Grown before mid added) (h' : Grown mid after more) :
    Grown before after (added ++ more) := by
  constructor
  · rw [h'.receipts, h.receipts, List.map_append, List.append_assoc]
  · rw [h'.tombstones, h.tombstones, List.map_append, List.append_assoc]
  · rw [h'.events, h.events, List.map_append, List.append_assoc]
  · rw [h'.outbox, h.outbox, List.filterMap_append, List.append_assoc]

theorem grown_addEvidence (state : DurableState) (evidence : Evidence) :
    Grown state (addEvidence state evidence) [evidence] := by
  constructor
  · rfl
  · rfl
  · rfl
  · cases h : evidence.alert <;> simp [addEvidence, h]

theorem grown_foldl (state : DurableState) (added : List Evidence) :
    Grown state (added.foldl addEvidence state) added := by
  induction added generalizing state with
  | nil => exact grown_nil state
  | cons evidence added ih => exact (grown_addEvidence state evidence).append (ih _)

/-- The evidence that the second loop makes of a candidate. -/
structure MadeOf (request : ReferenceLoopRequest) (p : CallbackCandidate × ByteVec 32)
    (evidence : Evidence) : Prop where
  receipt : evidence.receipt = receiptOf request p
  tombstone : evidence.tombstone = tombstoneOf request p.2
  alert : evidence.alert.isSome = (subjectOf request.configuration p.1).isMessage

theorem evidenceOf_made {request : ReferenceLoopRequest} {after : DurableState}
    {p : CallbackCandidate × ByteVec 32} {evidence : Evidence}
    (h : evidenceOf request after p = .ok evidence) : MadeOf request p evidence := by
  obtain ⟨pushed, hpushed, hmade⟩ := bind_eq_ok.1 h
  cases hmade
  refine ⟨rfl, rfl, ?_⟩
  obtain ⟨c, key⟩ := p
  cases c with
  | message id context occurredAt =>
    obtain ⟨reference, -, hpair⟩ := bind_eq_ok.1 hpushed
    cases hpair
    rfl
  | status id kind recipient occurredAt =>
    obtain ⟨kind', -, hrest⟩ := bind_eq_ok.1 hpushed
    obtain ⟨reference, -, hpair⟩ := bind_eq_ok.1 hrest
    cases hpair
    rfl

theorem evidences_made {request : ReferenceLoopRequest} {after : DurableState}
    {accepted : List (CallbackCandidate × ByteVec 32)} {added : List Evidence}
    (h : evidences request after accepted = .ok added) :
    List.Forall₂ (MadeOf request) accepted added := by
  induction accepted generalizing after added with
  | nil =>
    cases h
    exact .nil
  | cons p accepted ih =>
    obtain ⟨evidence, hmade, hrest⟩ := bind_eq_ok.1 h
    obtain ⟨more, hmore, hadded⟩ := bind_eq_ok.1 hrest
    cases hadded
    exact .cons (evidenceOf_made hmade) (ih hmore)

section Digest

variable (hmac : List UInt8 → List UInt8 → ByteVec 32)

/-! ### What the first loop accepts -/

/-- The candidate is not taken for a duplicate. -/
def isNew (before : DurableState) (configuration : ReferenceLoopConfiguration)
    (candidate : CallbackCandidate) : Bool :=
  match candidateKeys hmac candidate configuration with
  | .error _ => false
  | .ok keys => !isDuplicate before configuration.senderGeneration keys

/-- The key of a candidate under the active generation. -/
def ActiveKey (configuration : ReferenceLoopConfiguration) (p : CallbackCandidate × ByteVec 32) :
    Prop :=
  ∃ key ∈ configuration.retainedDedupKeys,
    key.generation = configuration.activeDedupKeyGeneration ∧
      p.2 = hmac key.material.toList (wac1 (p.1.fields configuration))

variable {hmac} {before : DurableState} {configuration : ReferenceLoopConfiguration}

theorem candidateKeys_eq_ok {candidate : CallbackCandidate} {keys : List (UInt64 × ByteVec 32)}
    (h : candidateKeys hmac candidate configuration = .ok keys) :
    keys = configuration.retainedDedupKeys.map fun key =>
      (key.generation, hmac key.material.toList (wac1 (candidate.fields configuration))) := by
  obtain ⟨-, hkeys⟩ := reject_bind_eq_ok.1 h
  cases hkeys
  rfl

theorem acceptOne_eq_ok {accepted out : List (CallbackCandidate × ByteVec 32)}
    {candidate : CallbackCandidate}
    (h : acceptOne hmac before configuration accepted candidate = .ok out) :
    ∃ more, out = accepted ++ more ∧
      more.map Prod.fst = [candidate].filter (isNew hmac before configuration) ∧
      ∀ p ∈ more, ActiveKey hmac configuration p := by
  obtain ⟨keys, hkeys, hkeyed⟩ := bind_eq_ok.1 h
  have hkeys' : candidateKeys hmac candidate configuration = .ok keys := by
    cases hc : candidateKeys hmac candidate configuration with
    | error e =>
      rw [hc] at hkeys
      cases hkeys
    | ok keys' =>
      rw [hc] at hkeys
      cases hkeys
      rfl
  have hnew : isNew hmac before configuration candidate =
      !isDuplicate before configuration.senderGeneration keys := by
    rw [isNew, hkeys']
  unfold acceptKeyed at hkeyed
  -- a duplicate is skipped, an unbound candidate fails, the others get their active key
  by_cases hduplicate : isDuplicate before configuration.senderGeneration keys = true
  · rw [if_pos hduplicate] at hkeyed
    cases hkeyed
    exact ⟨[], by simp, by simp [hnew, hduplicate], by simp⟩
  · rw [if_neg hduplicate] at hkeyed
    by_cases hunbound : isUnbound before configuration candidate = true
    · rw [if_pos hunbound] at hkeyed
      cases hkeyed
    · rw [if_neg hunbound] at hkeyed
      obtain ⟨active, hactive, hout⟩ := orError_bind_eq_ok.1 hkeyed
      cases hout
      refine ⟨[(candidate, active.2)], rfl, by simp [hnew, hduplicate], ?_⟩
      intro p hp
      rw [List.mem_singleton] at hp
      subst hp
      have hmem := List.mem_of_find?_eq_some hactive
      rw [candidateKeys_eq_ok hkeys', List.mem_map] at hmem
      obtain ⟨key, hkey, rfl⟩ := hmem
      refine ⟨key, hkey, ?_, rfl⟩
      simpa using List.find?_some hactive

theorem foldlM_acceptOne {accepted out : List (CallbackCandidate × ByteVec 32)}
    {candidates : List CallbackCandidate}
    (h : candidates.foldlM (acceptOne hmac before configuration) accepted = .ok out) :
    ∃ more, out = accepted ++ more ∧
      more.map Prod.fst = candidates.filter (isNew hmac before configuration) ∧
      ∀ p ∈ more, ActiveKey hmac configuration p := by
  induction candidates generalizing accepted with
  | nil =>
    cases h
    exact ⟨[], by simp, by simp, by simp⟩
  | cons candidate candidates ih =>
    rw [List.foldlM_cons] at h
    obtain ⟨mid, hone, hrest⟩ := bind_eq_ok.1 h
    obtain ⟨first, rfl, hfirst, hkeys⟩ := acceptOne_eq_ok hone
    obtain ⟨more, rfl, hmore, hkeys'⟩ := ih hrest
    refine ⟨first ++ more, by rw [List.append_assoc], ?_, ?_⟩
    · rw [List.map_append, hfirst, hmore, ← List.filter_append]
      rfl
    · intro p hp
      rcases List.mem_append.1 hp with hp | hp
      · exact hkeys p hp
      · exact hkeys' p hp

/-- The candidates that are accepted are those that are not taken for duplicates. -/
theorem acceptAll_eq_ok {candidates : List CallbackCandidate}
    {accepted : List (CallbackCandidate × ByteVec 32)}
    (h : acceptAll hmac before configuration candidates = .ok accepted) :
    accepted.map Prod.fst = candidates.filter (isNew hmac before configuration) ∧
      ∀ p ∈ accepted, ActiveKey hmac configuration p := by
  obtain ⟨more, hout, hmore, hkeys⟩ := foldlM_acceptOne h
  rw [List.nil_append] at hout
  subst hout
  exact ⟨hmore, hkeys⟩

end Digest

/-! ### Runs -/

/-- One callback and what the runtime does during it. -/
structure Step where
  request : ReferenceLoopRequest
  ingress : CallbackIngress
  runtime : Runtime

/-- What an accepted candidate of a sender generation yields. -/
structure Entry where
  senderGeneration : UInt64
  subject : Subject
  evidence : Evidence
  deriving DecidableEq

/-- The subject, under the generation of the sender. -/
def Entry.key (entry : Entry) : UInt64 × Subject := (entry.senderGeneration, entry.subject)

/-- The runtime replaces the state by the proposal. -/
def Runtime.applies (runtime : Runtime) : Bool :=
  match runtime.staged, runtime.replaced with
  | .ok (), .committed => true
  | .ok (), .stoppedAfter _ => true
  | _, _ => false

/-- The entry of an accepted candidate. -/
def entryOf (request : ReferenceLoopRequest) (p : CallbackCandidate × ByteVec 32)
    (evidence : Evidence) : Entry where
  senderGeneration := request.configuration.senderGeneration
  subject := subjectOf request.configuration p.1
  evidence := evidence

section Run

variable (hmac : List UInt8 → List UInt8 → ByteVec 32)

/-- The candidates of an admitted callback. -/
def Step.batch (step : Step) : List CallbackCandidate :=
  match admittedCandidates hmac step.request step.ingress with
  | .error _ => []
  | .ok candidates => candidates

/-- What the two loops make of the batch, before it is committed. -/
def Step.proposed (step : Step) (before : DurableState) : Except Reply (List Entry) := do
  let accepted ← acceptAll hmac before step.request.configuration (step.batch hmac)
  let added ← evidences step.request before accepted
  return accepted.zipWith (entryOf step.request) added

/-- The entries that a callback makes. -/
def Step.entries (step : Step) (before : DurableState) : List Entry :=
  match step.proposed hmac before with
  | .error _ => []
  | .ok entries => if step.runtime.applies then entries else []

/-- The durable state, and what was entered in the run so far. -/
structure State where
  durable : DurableState
  entries : List Entry

/-- One callback. -/
def next (s : State) (step : Step) : State where
  durable := (handleCallback hmac step.request step.ingress step.runtime s.durable).1
  entries := s.entries ++ step.entries hmac s.durable

/-- One callback after another. -/
def run (initial : DurableState) (steps : List Step) : State :=
  steps.foldl (next hmac) ⟨initial, []⟩

variable {hmac} {before : DurableState} {step : Step}

theorem run_snoc (initial : DurableState) (front : List Step) (step : Step) :
    run hmac initial (front ++ [step]) = next hmac (run hmac initial front) step := by
  rw [run, List.foldl_append]
  rfl

theorem commit_applies {runtime : Runtime} (hstaged : runtime.staged = .ok ())
    (replacement : DurableState) :
    (commit runtime before replacement).1 = if runtime.applies then replacement else before := by
  unfold commit Runtime.applies
  rw [hstaged]
  cases runtime.replaced with
  | committed => rfl
  | stoppedAfter stop => rfl
  | failed error => cases error <;> rfl

/-- An entry was made from a candidate of the callback, under the active key. -/
structure Made (hmac : List UInt8 → List UInt8 → ByteVec 32) (step : Step) (entry : Entry) :
    Prop where
  candidate : ∃ c ∈ step.batch hmac, entry.subject = subjectOf step.request.configuration c
  generation : entry.senderGeneration = step.request.configuration.senderGeneration
  receipt : entry.evidence.receipt.senderGeneration = entry.senderGeneration
  tombstone : entry.evidence.tombstone.senderGeneration = entry.senderGeneration ∧
    entry.evidence.tombstone.callbackKey = entry.evidence.receipt.callbackKey
  key : ∃ key ∈ step.request.configuration.retainedDedupKeys,
    key.generation = step.request.configuration.activeDedupKeyGeneration ∧
      entry.evidence.receipt.callbackKey = hmac key.material.toList (wac1 entry.subject.fields)
  alert : entry.evidence.alert.isSome = entry.subject.isMessage

theorem made_of {p : CallbackCandidate × ByteVec 32} {evidence : Evidence}
    (hmem : p.1 ∈ step.batch hmac) (hkey : ActiveKey hmac step.request.configuration p)
    (hmade : MadeOf step.request p evidence) :
    Made hmac step (entryOf step.request p evidence) := by
  obtain ⟨key, hretained, hactive, heq⟩ := hkey
  refine ⟨⟨p.1, hmem, rfl⟩, rfl, ?_, ?_, ⟨key, hretained, hactive, ?_⟩, hmade.alert⟩
  · show evidence.receipt.senderGeneration = _
    rw [hmade.receipt]
    rfl
  · show evidence.tombstone.senderGeneration = _ ∧
      evidence.tombstone.callbackKey = evidence.receipt.callbackKey
    rw [hmade.receipt, hmade.tombstone]
    exact ⟨rfl, rfl⟩
  · show evidence.receipt.callbackKey = _
    rw [hmade.receipt, entryOf, fields_subjectOf]
    exact heq

/-- What is proposed. -/
theorem proposed_eq_ok {entries : List Entry} (h : step.proposed hmac before = .ok entries) :
    entries.map Entry.key = ((step.batch hmac).filter
        (isNew hmac before step.request.configuration)).map (fun c =>
          (step.request.configuration.senderGeneration, subjectOf step.request.configuration c)) ∧
      ∀ entry ∈ entries, Made hmac step entry := by
  obtain ⟨accepted, haccepted, hrest⟩ := bind_eq_ok.1 h
  obtain ⟨added, hadded, hentries⟩ := bind_eq_ok.1 hrest
  cases hentries
  obtain ⟨hnew, hkeys⟩ := acceptAll_eq_ok haccepted
  have hmade := evidences_made hadded
  have hmem : ∀ p ∈ accepted, p.1 ∈ step.batch hmac := by
    intro p hp
    have hfst : p.1 ∈ accepted.map Prod.fst := List.mem_map_of_mem hp
    rw [hnew] at hfst
    exact (List.mem_filter.1 hfst).1
  constructor
  · rw [← hnew, List.map_map]
    clear hrest haccepted hadded hnew hkeys hmem h
    induction hmade with
    | nil => rfl
    | cons _ _ ih =>
      rw [List.zipWith_cons_cons, List.map_cons, List.map_cons, ih]
      rfl
  · clear hrest haccepted hadded hnew h
    induction hmade with
    | nil => simp
    | cons hp _ ih =>
      rw [List.zipWith_cons_cons]
      intro entry hentry
      rcases List.mem_cons.1 hentry with rfl | hentry
      · exact made_of (hmem _ List.mem_cons_self) (hkeys _ List.mem_cons_self) hp
      · exact ih (fun q hq => hkeys q (List.mem_cons_of_mem _ hq))
          (fun q hq => hmem q (List.mem_cons_of_mem _ hq)) entry hentry

theorem entries_cases (hmac : List UInt8 → List UInt8 → ByteVec 32) (step : Step)
    (before : DurableState) :
    step.entries hmac before = [] ∨ step.proposed hmac before = .ok (step.entries hmac before) := by
  unfold Step.entries
  cases h : step.proposed hmac before with
  | error reply => exact Or.inl rfl
  | ok entries =>
    dsimp only
    by_cases happlies : step.runtime.applies = true
    · rw [if_pos happlies]
      exact Or.inr rfl
    · rw [if_neg happlies]
      exact Or.inl rfl

theorem made_of_mem_entries {entry : Entry} (h : entry ∈ step.entries hmac before) :
    Made hmac step entry := by
  rcases entries_cases hmac step before with hnil | hproposed
  · rw [hnil] at h
    cases h
  · exact (proposed_eq_ok hproposed).2 entry h

/-! ### The state grows by the entries -/

theorem map_evidence_zipWith {request : ReferenceLoopRequest}
    {accepted : List (CallbackCandidate × ByteVec 32)} {added : List Evidence}
    (h : List.Forall₂ (MadeOf request) accepted added) :
    (accepted.zipWith (entryOf request) added).map Entry.evidence = added := by
  induction h with
  | nil => rfl
  | cons _ _ ih =>
    rw [List.zipWith_cons_cons, List.map_cons, ih]
    rfl

theorem entries_of_accepted {accepted : List (CallbackCandidate × ByteVec 32)}
    (haccepted : acceptAll hmac before step.request.configuration (step.batch hmac) = .ok accepted)
    {added : List Evidence} (hadded : evidences step.request before accepted = .ok added) :
    (step.entries hmac before).map Entry.evidence = if step.runtime.applies then added else [] := by
  have hproposed : step.proposed hmac before =
      .ok (accepted.zipWith (entryOf step.request) added) :=
    bind_eq_ok.2 ⟨accepted, haccepted, bind_eq_ok.2 ⟨added, hadded, rfl⟩⟩
  rw [Step.entries, hproposed]
  by_cases happlies : step.runtime.applies = true
  · simp only [happlies, if_true]
    exact map_evidence_zipWith (evidences_made hadded)
  · simp [happlies]

theorem entries_of_error {reply : Reply} (h : step.proposed hmac before = .error reply) :
    step.entries hmac before = [] := by
  rw [Step.entries, h]

/-- The state after a call is the one before, with the evidence of the entries. -/
theorem handleCandidates_grown (hmac : List UInt8 → List UInt8 → ByteVec 32) (step : Step)
    (before : DurableState) : Grown before
    (handleCandidates hmac step.request (step.batch hmac) step.runtime before).1
    ((step.entries hmac before).map Entry.evidence) := by
  unfold handleCandidates
  cases haccepted : acceptAll hmac before step.request.configuration (step.batch hmac) with
  | error reply =>
    have hproposed : step.proposed hmac before = .error reply := by
      rw [Step.proposed, haccepted]
      rfl
    rw [entries_of_error hproposed]
    exact grown_nil before
  | ok accepted =>
    dsimp only
    by_cases hnil : accepted = []
    · subst hnil
      rw [if_pos rfl, entries_of_accepted haccepted rfl, ite_self]
      exact grown_nil before
    rw [if_neg hnil]
    cases hstaged : step.runtime.staged with
    | error e =>
      have happlies : step.runtime.applies = false := by rw [Runtime.applies, hstaged]
      have hentries : step.entries hmac before = [] := by
        unfold Step.entries
        cases step.proposed hmac before <;> simp [happlies]
      rw [hentries]
      exact grown_nil before
    | ok u =>
      dsimp only
      unfold commitAll
      cases hadded : evidences step.request before accepted with
      | error reply =>
        have hproposed : step.proposed hmac before = .error reply := by
          simp only [Step.proposed, haccepted, hadded, bind, Except.bind]
        rw [entries_of_error hproposed]
        exact grown_nil before
      | ok added =>
        rw [entries_of_accepted haccepted hadded]
        dsimp only
        rw [commit_applies hstaged]
        -- the runtime applies the whole batch or nothing
        by_cases happlies : step.runtime.applies = true
        · rw [if_pos happlies, if_pos happlies]
          have hgrown := grown_foldl before added
          exact ⟨hgrown.receipts, hgrown.tombstones, hgrown.events, hgrown.outbox⟩
        · rw [if_neg happlies, if_neg happlies]
          exact grown_nil before

theorem handleCallback_grown : Grown before
    (handleCallback hmac step.request step.ingress step.runtime before).1
    ((step.entries hmac before).map Entry.evidence) := by
  have hgrown := handleCandidates_grown hmac step before
  unfold handleCallback
  unfold Step.batch at hgrown
  cases hadmitted : admittedCandidates hmac step.request step.ingress with
  | ok candidates =>
    rw [hadmitted] at hgrown
    exact hgrown
  | error response =>
    have hbatch : step.batch hmac = [] := by rw [Step.batch, hadmitted]
    have hnil : acceptAll hmac before step.request.configuration (step.batch hmac) = .ok [] := by
      rw [hbatch]
      rfl
    rw [entries_of_accepted hnil rfl, ite_self]
    exact grown_nil before

/-! ### Duplicates -/

/-- Every later callback retains the key that was active, as the rotation of keys has it. -/
def Retains (earlier later : Step) : Prop :=
  ∀ key ∈ earlier.request.configuration.retainedDedupKeys,
    key.generation = earlier.request.configuration.activeDedupKeyGeneration →
      key ∈ later.request.configuration.retainedDedupKeys

/-- No two of the texts that are hashed in two steps collide. -/
def CollisionFree (hmac : List UInt8 → List UInt8 → ByteVec 32) (step step' : Step) : Prop :=
  ∀ key ∈ step.request.configuration.retainedDedupKeys,
    ∀ key' ∈ step'.request.configuration.retainedDedupKeys,
      ∀ c ∈ step.batch hmac, ∀ c' ∈ step'.batch hmac,
        hmac key.material.toList (wac1 (c.fields step.request.configuration)) =
            hmac key'.material.toList (wac1 (c'.fields step'.request.configuration)) →
          wac1 (c.fields step.request.configuration) = wac1 (c'.fields step'.request.configuration)

/-- What a run keeps: the durable state is the evidence of the entries, and each was made from a
candidate of an earlier step. -/
structure Invariant (hmac : List UInt8 → List UInt8 → ByteVec 32) (initial : DurableState)
    (front : List Step) (s : State) : Prop where
  grown : Grown initial s.durable (s.entries.map Entry.evidence)
  made : ∀ entry ∈ s.entries, ∃ step ∈ front, Made hmac step entry

theorem run_invariant (initial : DurableState) (steps : List Step) :
    Invariant hmac initial steps (run hmac initial steps) := by
  induction steps using List.reverseRecOn with
  | nil => exact ⟨grown_nil initial, by simp [run]⟩
  | append_singleton front step ih =>
    rw [run_snoc]
    constructor
    · show Grown initial _ (((run hmac initial front).entries ++ step.entries hmac _).map _)
      rw [List.map_append]
      exact ih.grown.append handleCallback_grown
    · intro entry hentry
      rcases List.mem_append.1 hentry with hentry | hentry
      · obtain ⟨earlier, hearlier, hmade⟩ := ih.made entry hentry
        exact ⟨earlier, List.mem_append_left _ hearlier, hmade⟩
      · exact ⟨step, List.mem_append_right _ List.mem_cons_self, made_of_mem_entries hentry⟩

/-- What has an entry is taken for a duplicate, and nothing else is. -/
theorem isDuplicate_iff {initial : DurableState} {front : List Step} {s : State}
    (h : Invariant hmac initial front s) (hreceipts : initial.receipts = [])
    (htombstones : initial.tombstones = []) (hretains : ∀ earlier ∈ front, Retains earlier step)
    (hcollision : ∀ earlier ∈ front, CollisionFree hmac earlier step) {c : CallbackCandidate}
    (hc : c ∈ step.batch hmac) {keys : List (UInt64 × ByteVec 32)}
    (hkeys : candidateKeys hmac c step.request.configuration = .ok keys) :
    isDuplicate s.durable step.request.configuration.senderGeneration keys = true ↔
      (step.request.configuration.senderGeneration, subjectOf step.request.configuration c) ∈
        s.entries.map Entry.key := by
  have hreceipts' := h.grown.receipts
  have htombstones' := h.grown.tombstones
  rw [hreceipts, List.nil_append, List.map_map] at hreceipts'
  rw [htombstones, List.nil_append, List.map_map] at htombstones'
  rw [candidateKeys_eq_ok hkeys]
  constructor
  · intro hduplicate
    -- A receipt or tombstone of the generation carries one of the keys.
    obtain ⟨entry, hentry, hgeneration, key, hkey, heq⟩ : ∃ entry ∈ s.entries,
        entry.senderGeneration = step.request.configuration.senderGeneration ∧
        ∃ key ∈ step.request.configuration.retainedDedupKeys,
          entry.evidence.receipt.callbackKey =
            hmac key.material.toList (wac1 (c.fields step.request.configuration)) := by
      rw [isDuplicate, hreceipts', htombstones', List.any_map, List.any_eq_true] at hduplicate
      obtain ⟨key, hkey, hfound⟩ := hduplicate
      simp only [Function.comp_apply, List.any_map, Bool.or_eq_true, List.any_eq_true,
        Bool.and_eq_true, beq_iff_eq] at hfound
      rcases hfound with ⟨entry, hentry, ⟨hgeneration, -⟩, heq⟩ | ⟨entry, hentry, hgeneration, heq⟩
      · obtain ⟨earlier, -, hmade⟩ := h.made entry hentry
        refine ⟨entry, hentry, ?_, key, hkey, ?_⟩
        · rw [← hmade.tombstone.1]
          exact hgeneration
        · rw [← hmade.tombstone.2]
          exact heq
      · obtain ⟨earlier, -, hmade⟩ := h.made entry hentry
        refine ⟨entry, hentry, ?_, key, hkey, heq⟩
        rw [← hmade.receipt]
        exact hgeneration
    obtain ⟨earlier, hearlier, hmade⟩ := h.made entry hentry
    obtain ⟨c', hc', hsubject⟩ := hmade.candidate
    obtain ⟨key', hkey', -, heq'⟩ := hmade.key
    rw [hsubject, fields_subjectOf] at heq'
    have hwac := hcollision earlier hearlier key' hkey' key hkey c' hc' c hc (heq'.symm.trans heq)
    have hfields := wac1_injective hwac
    rw [← fields_subjectOf, ← fields_subjectOf] at hfields
    rw [List.mem_map]
    refine ⟨entry, hentry, ?_⟩
    rw [Entry.key, hgeneration, hsubject, Subject.fields_injective hfields]
  · intro hmem
    obtain ⟨entry, hentry, hkey⟩ := List.mem_map.1 hmem
    obtain ⟨hgeneration, hsubject⟩ := Prod.mk.inj hkey
    obtain ⟨earlier, hearlier, hmade⟩ := h.made entry hentry
    obtain ⟨key, hretained, hactive, heq⟩ := hmade.key
    rw [hsubject, fields_subjectOf] at heq
    rw [isDuplicate, hreceipts', List.any_map, List.any_eq_true]
    refine ⟨key, hretains earlier hearlier key hretained hactive, ?_⟩
    simp only [Function.comp_apply, List.any_map, Bool.or_eq_true, List.any_eq_true,
      Bool.and_eq_true, beq_iff_eq]
    exact Or.inr ⟨entry, hentry, hmade.receipt.trans hgeneration, heq⟩

/-! ### At most once -/

/-- Each subject of a sender generation yielded at most one receipt, tombstone and event, and a
message at most one alert. -/
structure AtMostOnce (initial : DurableState) (s : State) : Prop where
  grown : Grown initial s.durable (s.entries.map Entry.evidence)
  once : (s.entries.map Entry.key).Nodup
  alert : ∀ entry ∈ s.entries, entry.evidence.alert.isSome = entry.subject.isMessage

/-- No two new candidates of the callback are of one subject. -/
def Distinct (hmac : List UInt8 → List UInt8 → ByteVec 32) (before : DurableState) (step : Step) :
    Prop :=
  (((step.batch hmac).filter (isNew hmac before step.request.configuration)).map
    (subjectOf step.request.configuration)).Nodup

theorem entries_nodup_of_distinct (h : Distinct hmac before step) :
    ((step.entries hmac before).map Entry.key).Nodup := by
  rcases entries_cases hmac step before with hnil | hproposed
  · rw [hnil]
    exact List.nodup_nil
  · rw [(proposed_eq_ok hproposed).1]
    have hkeys := h.map (Prod.mk_right_injective step.request.configuration.senderGeneration)
    rwa [List.map_map] at hkeys

/-- A subject that is entered anew had no entry. -/
theorem entries_disjoint {initial : DurableState} {front : List Step} {s : State}
    (h : Invariant hmac initial front s) (hreceipts : initial.receipts = [])
    (htombstones : initial.tombstones = []) (hretains : ∀ earlier ∈ front, Retains earlier step)
    (hcollision : ∀ earlier ∈ front, CollisionFree hmac earlier step) :
    List.Disjoint (s.entries.map Entry.key) ((step.entries hmac s.durable).map Entry.key) := by
  intro k hold hnew
  rcases entries_cases hmac step s.durable with hnil | hproposed
  · rw [hnil] at hnew
    cases hnew
  · rw [(proposed_eq_ok hproposed).1] at hnew
    obtain ⟨c, hc, rfl⟩ := List.mem_map.1 hnew
    obtain ⟨hbatch, hisNew⟩ := List.mem_filter.1 hc
    unfold isNew at hisNew
    cases hkeys : candidateKeys hmac c step.request.configuration with
    | error e =>
      rw [hkeys] at hisNew
      cases hisNew
    | ok keys =>
      rw [hkeys] at hisNew
      have hduplicate :=
        (isDuplicate_iff h hreceipts htombstones hretains hcollision hbatch hkeys).2 hold
      simp [hduplicate] at hisNew

/-- Conversely, a step whose proposal is committed enters each subject once only when no two of its
new candidates are of one subject. -/
theorem distinct_of_atMostOnce {initial : DurableState} {s : State} {entries : List Entry}
    (h : AtMostOnce initial (next hmac s step))
    (hproposed : step.proposed hmac s.durable = .ok entries)
    (happlies : step.runtime.applies = true) : Distinct hmac s.durable step := by
  have honce := h.once
  have hentries : step.entries hmac s.durable = entries := by
    rw [Step.entries, hproposed]
    exact if_pos happlies
  rw [next, hentries, List.map_append, (proposed_eq_ok hproposed).1] at honce
  have hnew := (List.nodup_append.1 honce).2.1
  refine List.Nodup.of_map (Prod.mk step.request.configuration.senderGeneration) ?_
  rw [List.map_map]
  exact hnew

end Run

/-- In a run from a state without receipts and tombstones, in which every later callback retains the
keys that were active, no callback reports one new subject twice: every state reached holds at most
one receipt, tombstone, event and, for a message, one alert for each subject of a sender generation,
and what is taken for a duplicate is a subject that was entered. -/
theorem run_deduplicates (hmac : List UInt8 → List UInt8 → ByteVec 32) (initial : DurableState)
    (hreceipts : initial.receipts = []) (htombstones : initial.tombstones = []) (steps : List Step)
    (hretains : steps.Pairwise Retains)
    (hcollision : ∀ step ∈ steps, ∀ step' ∈ steps, CollisionFree hmac step step')
    (hdistinct : ∀ front step, front ++ [step] <+: steps →
      Distinct hmac (run hmac initial front).durable step) :
    Function.Injective wac1 ∧ ∀ front, front <+: steps →
      AtMostOnce initial (run hmac initial front) ∧
      ∀ step, front ++ [step] <+: steps → ∀ c ∈ step.batch hmac, ∀ keys,
        candidateKeys hmac c step.request.configuration = .ok keys →
        (isDuplicate (run hmac initial front).durable step.request.configuration.senderGeneration
            keys = true ↔
          (step.request.configuration.senderGeneration, subjectOf step.request.configuration c) ∈
            (run hmac initial front).entries.map Entry.key) := by
  -- What the hypotheses say of a prefix and the step behind it.
  have hprefix : ∀ front step, front ++ [step] <+: steps →
      (∀ earlier ∈ front, Retains earlier step) ∧
        ∀ earlier ∈ front, CollisionFree hmac earlier step := by
    intro front step hfront
    have hpairwise := hretains.sublist hfront.sublist
    constructor
    · intro earlier hearlier
      exact (List.pairwise_append.1 hpairwise).2.2 earlier hearlier step List.mem_cons_self
    · intro earlier hearlier
      exact hcollision earlier (hfront.subset (List.mem_append_left _ hearlier)) step
        (hfront.subset (List.mem_append_right _ List.mem_cons_self))
  refine ⟨wac1_injective, fun front hfront => ⟨?_, ?_⟩⟩
  · have hinvariant : Invariant hmac initial front (run hmac initial front) :=
      run_invariant initial front
    refine ⟨hinvariant.grown, ?_, ?_⟩
    · clear hinvariant
      induction front using List.reverseRecOn with
      | nil => exact List.nodup_nil
      | append_singleton front step ih =>
        have hfront' : front <+: steps := (List.prefix_append front [step]).trans hfront
        obtain ⟨hretained, hfree⟩ := hprefix front step hfront
        rw [run_snoc]
        show (((run hmac initial front).entries ++ step.entries hmac _).map Entry.key).Nodup
        rw [List.map_append, List.nodup_append']
        exact ⟨ih hfront', entries_nodup_of_distinct (hdistinct front step hfront),
          entries_disjoint (run_invariant initial front) hreceipts htombstones hretained hfree⟩
    · intro entry hentry
      obtain ⟨step, -, hmade⟩ := hinvariant.made entry hentry
      exact hmade.alert
  · intro step hstep c hc keys hkeys
    obtain ⟨hretained, hfree⟩ := hprefix front step hstep
    exact isDuplicate_iff (run_invariant initial front) hreceipts htombstones hretained hfree hc
      hkeys

/-! ### Signed callbacks -/

/-- The digits of bytes in lower case. -/
def hexDigits (bytes : List UInt8) : List Char :=
  bytes.flatMap fun b => [Text.lowerHexDigit (b.toNat / 16), Text.lowerHexDigit (b.toNat % 16)]

theorem isLowerHex_lowerHexDigit {n : ℕ} (h : n < 16) :
    isLowerHex (Text.lowerHexDigit n) = true ∧ (Text.lowerHexDigit n).toNat < 128 := by
  revert n
  decide

theorem of_mem_hexDigits {bytes : List UInt8} {c : Char} (h : c ∈ hexDigits bytes) :
    isLowerHex c = true ∧ c.toNat < 128 := by
  obtain ⟨b, -, hc⟩ := List.mem_flatMap.1 h
  have hlt := b.toNat_lt
  simp only [List.mem_cons, List.not_mem_nil, or_false] at hc
  rcases hc with rfl | rfl
  · exact isLowerHex_lowerHexDigit (by omega)
  · exact isLowerHex_lowerHexDigit (Nat.mod_lt _ (by decide))

theorem length_hexDigits (bytes : List UInt8) : (hexDigits bytes).length = 2 * bytes.length := by
  induction bytes with
  | nil => rfl
  | cons b bytes ih =>
    have hcons : hexDigits (b :: bytes) = [Text.lowerHexDigit (b.toNat / 16),
      Text.lowerHexDigit (b.toNat % 16)] ++ hexDigits bytes := rfl
    rw [hcons, List.length_append, ih, List.length_cons]
    simp
    omega

theorem decodePairs_hexDigits (bytes : List UInt8) :
    decodePairs (hexDigits bytes) = some bytes := by
  induction bytes with
  | nil => rfl
  | cons b bytes ih =>
    have hlt := b.toNat_lt
    have hhigh : b.toNat / 16 < 16 := by omega
    have hlow : b.toNat % 16 < 16 := Nat.mod_lt _ (by decide)
    have hcons : hexDigits (b :: bytes) = Text.lowerHexDigit (b.toNat / 16) ::
      Text.lowerHexDigit (b.toNat % 16) :: hexDigits bytes := rfl
    rw [hcons, decodePairs, Text.hexValue_lowerHexDigit hhigh, Text.hexValue_lowerHexDigit hlow, ih]
    show some (UInt8.ofNat (b.toNat / 16 * 16 + b.toNat % 16) :: bytes) = some (b :: bytes)
    rw [Nat.div_add_mod', UInt8.ofNat_toNat]

/-- The value of the signature header. -/
def signature (digest : ByteVec 32) : String := "sha256=" ++ String.ofList (hexDigits digest.toList)

theorem decodeDigest_hexDigits (digest : ByteVec 32) :
    decodeDigest (hexDigits digest.toList) = some digest := by
  have hlength : (bytesOf (hexDigits digest.toList)).length = 64 := by
    rw [bytesOf, utf8Bytes_of_ascii fun c hc => (of_mem_hexDigits hc).2, length_codes,
      length_hexDigits, List.Vector.toList_length]
  have hlower : (hexDigits digest.toList).all isLowerHex = true :=
    List.all_eq_true.2 fun c hc => (of_mem_hexDigits hc).1
  rw [decodeDigest, if_pos ⟨hlength, hlower⟩, decodePairs_hexDigits, Option.bind_some,
    Bytes.toVec?_toList]

theorem decodeSignature_signature (digest : ByteVec 32) :
    decodeSignature (utf8Bytes (signature digest)) = some digest := by
  have hstrip : stripSha256 (signature digest).toList = some (hexDigits digest.toList) := by
    rw [signature, String.toList_append, String.toList_ofList]
    simp [stripSha256]
  rw [decodeSignature, Text.decodeUtf8_utf8Bytes, Option.bind_eq_bind, Option.bind_some, hstrip]
  exact decodeDigest_hexDigits digest

theorem constantTimeEqual_self (bytes : List UInt8) : constantTimeEqual bytes bytes = true := by
  have hzip : (bytes.zip bytes).foldl (fun difference p => difference ||| (p.1 ^^^ p.2)) 0 =
      (0 : UInt8) := by
    induction bytes with
    | nil => rfl
    | cons b bytes ih => simpa using ih
  simp [constantTimeEqual, hzip]

/-- A signed callback. -/
def signed (hmac : List UInt8 → List UInt8 → ByteVec 32) (request : ReferenceLoopRequest)
    (body : List UInt8) : CallbackIngress where
  method := utf8Bytes "POST"
  query := []
  headers := [⟨utf8Bytes "Content-Type", utf8Bytes "application/json"⟩,
    ⟨utf8Bytes "X-Hub-Signature-256",
      utf8Bytes (signature (hmac request.configuration.appSecret.toList body))⟩]
  rawBody := body
  elapsedMillis := 0

theorem isAscii_utf8Bytes {text : String} (h : ∀ c ∈ text.toList, c.toNat < 128) :
    isAscii (utf8Bytes text) = true := by
  rw [← String.ofList_toList (s := text), utf8Bytes_of_ascii h]
  apply List.all_eq_true.2
  intro b hb
  obtain ⟨c, hc, rfl⟩ := List.mem_map.1 hb
  have hlt := h c hc
  rw [decide_eq_true_eq, UInt8.lt_iff_toNat_lt, UInt8.toNat_ofNat']
  simp
  omega

theorem isAscii_signature (digest : ByteVec 32) :
    isAscii (utf8Bytes (signature digest)) = true := by
  apply isAscii_utf8Bytes
  intro c hc
  simp only [signature, String.toList_append, String.toList_ofList, List.mem_append] at hc
  rcases hc with hc | hc
  · exact forall_mem_of_all (p := fun c => c.toNat < 128) (by decide) c hc
  · exact (of_mem_hexDigits hc).2

/-- It is admitted with the candidates of its body. -/
theorem admittedCandidates_signed {hmac : List UInt8 → List UInt8 → ByteVec 32}
    {request : ReferenceLoopRequest}
    {body : List UInt8} (hlength : body.length ≤ 262144) :
    admittedCandidates hmac request (signed hmac request body) =
      readBody request.configuration body := by
  have hmedia : readHeader (none, none) ⟨utf8Bytes "Content-Type", utf8Bytes "application/json"⟩ =
      .ok (some (utf8Bytes "application/json"), none) := by
    have hascii : isAscii (utf8Bytes "Content-Type") = true ∧
        isAscii (utf8Bytes "application/json") = true := by decide +kernel
    have hname : eqIgnoreAsciiCase (utf8Bytes "Content-Type") (utf8Bytes "content-type") = true := by
      decide +kernel
    simp [readHeader, hascii, hname]
  have hsignature : ∀ digest, readHeader (some (utf8Bytes "application/json"), none)
      ⟨utf8Bytes "X-Hub-Signature-256", utf8Bytes (signature digest)⟩ =
      .ok (some (utf8Bytes "application/json"), some (utf8Bytes (signature digest))) := by
    intro digest
    have hascii : isAscii (utf8Bytes "X-Hub-Signature-256") = true := by decide +kernel
    have hother : eqIgnoreAsciiCase (utf8Bytes "X-Hub-Signature-256") (utf8Bytes "content-type") =
        false := by decide +kernel
    have hname : eqIgnoreAsciiCase (utf8Bytes "X-Hub-Signature-256")
        (utf8Bytes "x-hub-signature-256") = true := by decide +kernel
    simp [readHeader, hascii, isAscii_signature, hother, hname]
  have hcontent : validContentType (utf8Bytes "application/json") = true := by decide +kernel
  have hlong : ¬ 262144 < body.length := by omega
  simp only [admittedCandidates, signed, List.foldlM_cons, List.foldlM_nil, hmedia, hsignature,
    bind, Except.bind, pure, Except.pure]
  simp [reject, orError, hcontent, hlong, decodeSignature_signature, constantTimeEqual_self]

/-! ### A callback that reports one message twice -/

theorem parse_utf8Bytes (text : String) : JsonParser.parse (utf8Bytes text) =
    (JsonParser.value (utf8Bytes text) (2 * (utf8Bytes text).length + 1) 1 0 >>= fun p =>
      reject (JsonParser.whitespace (utf8Bytes text) p.2 != (utf8Bytes text).length) .refused >>=
        fun _ => pure p.1) := by
  rw [JsonParser.parse, Text.decodeUtf8_utf8Bytes]
  rfl

/-- A configuration with one key. -/
def sampleConfiguration : ReferenceLoopConfiguration where
  appSecret := Bytes.ByteVec.zero 32
  activeDedupKeyGeneration := 1
  retainedDedupKeys := [⟨1, Bytes.ByteVec.zero 32⟩]
  senderGeneration := 1
  wabaId := utf8Bytes "w"
  phoneNumberId := utf8Bytes "p"

/-- A message with the identity `m`. -/
def sampleMessage : String :=
  "\x7b\"id\":\"m\",\"from\":\"1\",\"timestamp\":\"1700000000\",\"type\":\"text\"," ++
    "\"text\":\x7b\"body\":\"hi\"\x7d\x7d"

/-- A callback with these messages. -/
def sampleBody (messages : String) : String :=
  "\x7b\"object\":\"whatsapp_business_account\",\"entry\":[\x7b\"id\":\"w\"," ++
    "\"changes\":[\x7b\"field\":\"messages\",\"value\":\x7b\"messaging_product\":\"whatsapp\"," ++
    "\"metadata\":\x7b\"phone_number_id\":\"p\"\x7d,\"messages\":[" ++ messages ++
    "]\x7d\x7d]\x7d]\x7d"

/-- A signed callback with these messages, whose proposal is committed. -/
def sampleStep (messages : String) : Step where
  request := ⟨sampleConfiguration, 1700000001⟩
  ingress := signed Sha256.hmacSha256 ⟨sampleConfiguration, 1700000001⟩
    (utf8Bytes (sampleBody messages))
  runtime := ⟨.ok (), .committed⟩

/-- The message once, and twice. -/
def once : Step := sampleStep sampleMessage

/-- The same message in one callback twice. -/
def twice : Step := sampleStep (sampleMessage ++ "," ++ sampleMessage)

/-- What the parser makes of the message. -/
def sampleCandidate : CallbackCandidate := .message "m" none 1700000000

theorem batch_sampleStep {messages : String} {candidates : List CallbackCandidate}
    (hlength : (utf8Bytes (sampleBody messages)).length ≤ 262144)
    (hread : (readBody sampleConfiguration (utf8Bytes (sampleBody messages))).toOption =
      some candidates) : (sampleStep messages).batch Sha256.hmacSha256 = candidates := by
  have hadmitted : admittedCandidates Sha256.hmacSha256 (sampleStep messages).request
      (sampleStep messages).ingress =
      readBody sampleConfiguration (utf8Bytes (sampleBody messages)) :=
    admittedCandidates_signed hlength
  rw [Step.batch, hadmitted]
  cases h : readBody sampleConfiguration (utf8Bytes (sampleBody messages)) with
  | error response =>
    rw [h] at hread
    cases hread
  | ok candidates' =>
    rw [h] at hread
    exact Option.some.inj hread

theorem batch_once : once.batch Sha256.hmacSha256 = [sampleCandidate] := by
  refine batch_sampleStep (by decide +kernel) ?_
  rw [readBody, parse_utf8Bytes]
  decide +kernel

theorem batch_twice : twice.batch Sha256.hmacSha256 = [sampleCandidate, sampleCandidate] := by
  refine batch_sampleStep (by decide +kernel) ?_
  rw [readBody, parse_utf8Bytes]
  decide +kernel

/-- No texts collide where only one is hashed. -/
theorem collisionFree_of_batch {step step' : Step}
    (h : ∀ c ∈ step.batch Sha256.hmacSha256, c = sampleCandidate)
    (h' : ∀ c ∈ step'.batch Sha256.hmacSha256, c = sampleCandidate)
    (hrequest : step.request = step'.request) :
    CollisionFree Sha256.hmacSha256 step step' := by
  intro key _ key' _ c hc c' hc' _
  rw [h c hc, h' c' hc', hrequest]

theorem proposed_twice : ∃ entries, twice.proposed Sha256.hmacSha256 {} = .ok entries ∧
    entries.map (fun entry => (entry.key, entry.evidence.alert.isSome)) =
      [((1, subjectOf sampleConfiguration sampleCandidate), true),
        ((1, subjectOf sampleConfiguration sampleCandidate), true)] := by
  have hkeys : (twice.proposed Sha256.hmacSha256 {}).toOption.map (List.map fun entry =>
      (entry.key, entry.evidence.alert.isSome)) =
      some [((1, subjectOf sampleConfiguration sampleCandidate), true),
        ((1, subjectOf sampleConfiguration sampleCandidate), true)] := by
    rw [Step.proposed, batch_twice]
    decide +kernel
  cases h : twice.proposed Sha256.hmacSha256 {} with
  | error reply =>
    rw [h] at hkeys
    cases hkeys
  | ok entries =>
    rw [h] at hkeys
    exact ⟨entries, rfl, Option.some.inj hkeys⟩

/-- The callback that reports the message twice enters it twice. -/
theorem twice_not_atMostOnce :
    CollisionFree Sha256.hmacSha256 twice twice ∧
      (run Sha256.hmacSha256 {} [twice]).entries.map Entry.key =
        [(1, subjectOf sampleConfiguration sampleCandidate),
          (1, subjectOf sampleConfiguration sampleCandidate)] ∧
      (run Sha256.hmacSha256 {} [twice]).durable.receipts.length = 2 ∧
      (run Sha256.hmacSha256 {} [twice]).durable.outbox.length = 2 ∧
      ¬ AtMostOnce {} (run Sha256.hmacSha256 {} [twice]) := by
  have hbatch : ∀ c ∈ twice.batch Sha256.hmacSha256, c = sampleCandidate := by
    rw [batch_twice]
    simp
  -- both reports are entered, since the receipts are looked up before the batch
  obtain ⟨entries, hproposed, hentered⟩ := proposed_twice
  have hentries : (run Sha256.hmacSha256 {} [twice]).entries = entries := by
    show [] ++ twice.entries Sha256.hmacSha256 {} = entries
    rw [List.nil_append, Step.entries, hproposed]
    rfl
  have hinvariant : Invariant Sha256.hmacSha256 {} [twice] (run Sha256.hmacSha256 {} [twice]) :=
    run_invariant {} [twice]
  have hgrown := hinvariant.grown
  rw [hentries] at hgrown
  have hkeys : entries.map Entry.key = [(1, subjectOf sampleConfiguration sampleCandidate),
      (1, subjectOf sampleConfiguration sampleCandidate)] := by
    have hfst := congrArg (List.map Prod.fst) hentered
    rwa [List.map_map] at hfst
  have halerts : entries.map (fun entry => entry.evidence.alert.isSome) = [true, true] := by
    have hsnd := congrArg (List.map Prod.snd) hentered
    rwa [List.map_map] at hsnd
  have hlength : entries.length = 2 := by simpa using congrArg List.length hkeys
  refine ⟨collisionFree_of_batch hbatch hbatch rfl, by rw [hentries, hkeys], ?_, ?_, ?_⟩
  · rw [hgrown.receipts, List.map_map, List.length_append, List.length_map, hlength]
    rfl
  · rw [hgrown.outbox, List.filterMap_map, List.length_append, List.length_filterMap_eq_countP,
      List.countP_eq_length.2, hlength]
    · rfl
    · intro entry hentry
      have hmem := List.mem_map_of_mem (f := fun entry => entry.evidence.alert.isSome) hentry
      rw [halerts] at hmem
      simpa using hmem
  · rintro ⟨-, honce, -⟩
    rw [hentries, hkeys] at honce
    simp at honce

theorem distinct_of_batch {hmac : List UInt8 → List UInt8 → ByteVec 32} {before : DurableState}
    {step : Step} {c : CallbackCandidate} (h : step.batch hmac = [c]) :
    Distinct hmac before step := by
  rw [Distinct, h]
  cases hnew : isNew hmac before step.request.configuration c <;> simp [hnew]

/-- The message once, and delivered again. -/
theorem run_deduplicates_once :
    AtMostOnce {} (run Sha256.hmacSha256 {} [once, once]) := by
  have hbatch : ∀ c ∈ once.batch Sha256.hmacSha256, c = sampleCandidate := by
    rw [batch_once]
    simp
  have hsteps : ∀ step ∈ [once, once], step = once := by simp
  refine ((run_deduplicates Sha256.hmacSha256 {} rfl rfl [once, once] ?_ ?_ ?_).2 _
    List.prefix_rfl).1
  · exact List.pairwise_pair.2 fun key hkey _ => hkey
  · intro step hstep step' hstep'
    rw [hsteps step hstep, hsteps step' hstep']
    exact collisionFree_of_batch hbatch hbatch rfl
  · intro front step hfront
    rw [hsteps step (hfront.subset (List.mem_append_right _ List.mem_cons_self))]
    exact distinct_of_batch batch_once

end MsgRiver.PhaseZero.Callback
