import MsgRiver.Journal.Authority

/-!
# Pending obligations and holds

What a step of the journal can do to the cells and to the clock.  `Acted` says it once for the
actions of the addressed operations; from it and from the clock checkpoints follow that a pending
obligation is kept or completed, that a hold is cleared by its own settlement only
(`obligations_kept`), and that the safe time does not go back (`ClockChange.safeTime_le`).
-/

namespace MsgRiver.Journal

open Bytes Result

/-! ### Actions -/

/-- A mirror is committed in the second phase of an acknowledgement, or in a last one of a shutdown.
-/
def CommitPhase : AddressedOperation → UInt8 → Prop
  | .clockAcknowledge, phase => phase = 2
  | .systemShutdown, phase => phase = 3 ∨ phase = 4

/-- What an action does at `head`: the checkpoint it works on, and the value it leaves. -/
inductive Acted (checkpoint : CompleteCheckpoint) (operation : AddressedOperation)
    (head : JournalHead) :
    AddressedAction → CompleteCheckpoint → AddressedStateValue → Prop
  | request {request : AddressedStateValue}
      (hnone : (checkpoint.addressed operation.slot).state = none) (hphase : request.phase = 1)
      (happlication : request.applicationHead = head) (hpublication : request.publicationHead = head)
      (hmirror : requestMirrorFits checkpoint.activePointer request.mirror = true)
      (hevidence : requestEvidenceFits checkpoint.clockAuthority request = true)
      (hlast : ∀ last, (checkpoint.addressed (operation.slot + 1)).state = some last →
        last.address ≠ request.address) :
      Acted checkpoint operation head (.publishRequest request)
        (if operation = .systemShutdown then checkpoint.setState (operation.slot + 1) none
          else checkpoint) request
  | phase {value : AddressedStateValue} {phase : UInt8} {result : AddressedResult}
      {applied : CompleteCheckpoint}
      (hpending : (checkpoint.addressed operation.slot).state = some value)
      (hlegal : legalPhase operation value phase = true)
      (huncommitted : value.mirror.isCommitted = false)
      (happlied : checkpointAtPhase checkpoint operation value phase = .ok applied) :
      Acted checkpoint operation head (.publishPhase phase result) applied
        { value with
          phase := phase, safeResult := result, applicationHead := head, publicationHead := head }
  | commit {value committed : AddressedStateValue} {origin : ByteVec 32} {pre post : JournalHead}
      {policy : UInt8} (hpending : (checkpoint.addressed operation.slot).state = some value)
      (hmirror : value.mirror = .pending origin pre policy)
      (hphase : CommitPhase operation value.phase)
      (hpost : pre.sequence < post.sequence) (hdigest : post.digest ≠ ByteVec.zero 32)
      (hfinish : finishCommit operation { value with
          mirror := .committed origin pre policy post, publicationHead := head } head =
        .ok committed) :
      Acted checkpoint operation head (.commitMirror post) checkpoint committed

section Acted

variable {checkpoint stored : CompleteCheckpoint} {operation : AddressedOperation}
  {head : JournalHead} {action : AddressedAction} {value : AddressedStateValue}

theorem replayRequest_eq_ok {request : AddressedStateValue} :
    replayRequest checkpoint operation request head = .ok (stored, value) ↔
      Acted checkpoint operation head (.publishRequest request) stored value := by
  simp only [replayRequest, reject_bind_eq_ok, pure_eq_ok, Bool.or_eq_false_iff,
    bne_eq_false_iff_eq,
    Bool.not_eq_false', Option.isSome_eq_false_iff, Option.isNone_iff_eq_none, Prod.mk.injEq]
  constructor
  · rintro ⟨⟨⟨⟨hnone, hphase⟩, happlication⟩, hpublication⟩, hmirror, hevidence, hlast, rfl, rfl⟩
    refine .request hnone hphase happlication hpublication hmirror hevidence fun last hstate => ?_
    rw [hstate, Option.any_some, beq_eq_false_iff_ne] at hlast
    exact hlast
  · rintro (⟨hnone, hphase, happlication, hpublication, hmirror, hevidence, hlast⟩)
    refine ⟨⟨⟨⟨hnone, hphase⟩, happlication⟩, hpublication⟩, hmirror, hevidence, ?_, rfl, rfl⟩
    cases hstate : (checkpoint.addressed (operation.slot + 1)).state with
    | none => rfl
    | some last =>
      rw [Option.any_some, beq_eq_false_iff_ne]
      exact hlast last hstate

theorem replayCommit_eq_ok {pending committed : AddressedStateValue} {post : JournalHead} :
    replayCommit operation pending post head = .ok committed ↔ ∃ origin pre policy,
      pending.mirror = .pending origin pre policy ∧
      CommitPhase operation pending.phase ∧
      pre.sequence < post.sequence ∧ post.digest ≠ ByteVec.zero 32 ∧
      finishCommit operation { pending with
        mirror := .committed origin pre policy post, publicationHead := head } head =
          .ok committed := by
  unfold replayCommit
  cases hmirror : pending.mirror with
  | notApplicable => simp
  | committed => simp
  | pending origin pre policy =>
    simp only [reject_bind_eq_ok, Bool.or_eq_false_iff, decide_eq_false_iff_not, UInt64.not_le,
      beq_eq_false_iff_ne, AddressedMirror.pending.injEq]
    cases operation with
    | clockAcknowledge =>
      simp only [Bool.and_eq_false_iff, beq_eq_false_iff_ne, bne_eq_false_iff_eq]
      constructor
      · rintro ⟨⟨⟨⟨hphase, -⟩, hpost⟩, hdigest⟩, hfinish⟩
        exact ⟨origin, pre, policy, ⟨rfl, rfl, rfl⟩, hphase.resolve_left (fun h => h rfl), hpost,
          hdigest, hfinish⟩
      · rintro ⟨_, _, _, ⟨rfl, rfl, rfl⟩, hphase, hpost, hdigest, hfinish⟩
        exact ⟨⟨⟨⟨.inr hphase, .inl nofun⟩, hpost⟩, hdigest⟩, hfinish⟩
    | systemShutdown =>
      simp only [Bool.and_eq_false_iff, beq_eq_false_iff_ne, Bool.not_eq_false', Bool.or_eq_true,
        beq_iff_eq]
      constructor
      · rintro ⟨⟨⟨⟨-, hphase⟩, hpost⟩, hdigest⟩, hfinish⟩
        exact ⟨origin, pre, policy, ⟨rfl, rfl, rfl⟩, hphase.resolve_left (fun h => h rfl), hpost,
          hdigest, hfinish⟩
      · rintro ⟨_, _, _, ⟨rfl, rfl, rfl⟩, hphase, hpost, hdigest, hfinish⟩
        exact ⟨⟨⟨⟨.inl nofun, .inr hphase⟩, hpost⟩, hdigest⟩, hfinish⟩

/-- The actions do exactly this. -/
theorem replayAction_eq_ok :
    replayAction checkpoint operation action head = .ok (stored, value) ↔
      Acted checkpoint operation head action stored value := by
  cases action with
  | publishRequest request => exact replayRequest_eq_ok
  | publishPhase phase result =>
    simp only [replayAction, replayPhase, orError_eq_ok, reject_eq_ok, bind_eq_ok, exists_const,
      pure_eq_ok, Bool.or_eq_false_iff, Bool.not_eq_false', Prod.mk.injEq]
    constructor
    · rintro ⟨pending, hpending, ⟨hlegal, huncommitted⟩, _, happlied, rfl, rfl⟩
      exact .phase hpending hlegal huncommitted happlied
    · rintro (_ | ⟨hpending, hlegal, huncommitted, happlied⟩)
      exact ⟨_, hpending, ⟨hlegal, huncommitted⟩, _, happlied, rfl, rfl⟩
  | commitMirror post =>
    simp only [replayAction, orError_eq_ok, bind_eq_ok, pure_eq_ok, Prod.mk.injEq,
      replayCommit_eq_ok]
    constructor
    · rintro ⟨pending, hpending, _, ⟨origin, pre, policy, hmirror, hphase, hpost, hdigest, hfinish⟩,
        rfl, rfl⟩
      exact .commit hpending hmirror hphase hpost hdigest hfinish
    · rintro (_ | _ | ⟨hpending, hmirror, hphase, hpost, hdigest, hfinish⟩)
      exact ⟨_, hpending, _, ⟨_, _, _, hmirror, hphase, hpost, hdigest, hfinish⟩, rfl, rfl⟩

end Acted

/-! ### Clock checkpoints -/

/-- A clock checkpoint fits the projection. -/
structure BodyFits (checkpoint : CompleteCheckpoint) (body : ClockCheckpointBody) : Prop where
  encoded : ∃ bytes, encodeClockCheckpointBody body = .ok bytes
  prior : body.priorSafeTime = checkpoint.clockAuthority.safeTime
  hold : clockHoldFits body.reason checkpoint.clockAuthority.hold body.hold = true
  mirror : preMirrorFits checkpoint.activePointer body.preMirror = true

/-- The acknowledgement that an automatic settlement finishes. -/
def settledValue (value : AddressedStateValue) (targetSafeTime : Int64) (head : JournalHead) :
    AddressedStateValue :=
  { value with
    phase := 3
    safeResult := .acknowledge targetSafeTime true
    applicationHead := head
    publicationHead := head }

/-- What a clock checkpoint does at `head`: it moves the clock, and an automatic settlement finishes
the pending acknowledgement of the hold it names. -/
inductive Clocked (checkpoint : CompleteCheckpoint) (body : ClockCheckpointBody) (head : JournalHead) :
    CompleteCheckpoint → Prop
  | plain
      (hnone : settledBy checkpoint.clockAuthority body (checkpoint.addressed 0).state = none) :
      Clocked checkpoint body head (checkpoint.setClock (clockAfter checkpoint.clockAuthority body))
  | settled {value : AddressedStateValue} {wall tick prior target : Int64} {selected : Option Int64}
      (hpending : (checkpoint.addressed 0).state = some value)
      (hreason : body.reason = .automaticSettlement)
      (hmatches : addressedHoldMatches checkpoint.clockAuthority value.address = true)
      (hevidence : value.evidence = .acknowledge wall tick prior selected target)
      (hmirror : value.mirror = .notApplicable) (hphase : value.phase = 2)
      (htarget : target ≤ body.newSafeTime) :
      Clocked checkpoint body head
        (((checkpoint.setClock (clockAfter checkpoint.clockAuthority body)).setState 0 none).setState 1
          (some (settledValue value target head)))

theorem replayClock_eq_ok {checkpoint next : CompleteCheckpoint} {body : ClockCheckpointBody} :
    replayClock checkpoint body = .ok next ↔ BodyFits checkpoint body ∧
      next = checkpoint.setClock (clockAfter checkpoint.clockAuthority body) := by
  simp only [replayClock, bind_eq_ok, reject_eq_ok, orInvalid_eq_ok, exists_const, pure_eq_ok,
    bne_eq_false_iff_eq, Bool.not_eq_false']
  constructor
  · rintro ⟨bytes, hencoded, hprior, hhold, hmirror, rfl⟩
    exact ⟨⟨⟨bytes, hencoded⟩, hprior, hhold, hmirror⟩, rfl⟩
  · rintro ⟨⟨⟨bytes, hencoded⟩, hprior, hhold, hmirror⟩, rfl⟩
    exact ⟨bytes, hencoded, hprior, hhold, hmirror, rfl⟩

theorem settledBy_eq_some {clock : ClockAuthorityProjection} {body : ClockCheckpointBody}
    {state : Option AddressedStateValue} {value : AddressedStateValue} :
    settledBy clock body state = some value ↔ state = some value ∧
      body.reason = .automaticSettlement ∧ addressedHoldMatches clock value.address = true := by
  rw [settledBy, Option.filter_eq_some_iff, Bool.and_eq_true, beq_iff_eq]

theorem settleAcknowledge_eq_ok {checkpoint next : CompleteCheckpoint} {value : AddressedStateValue}
    {head : JournalHead} :
    settleAcknowledge checkpoint value head = .ok next ↔ ∃ wall tick prior selected target,
      value.evidence = .acknowledge wall tick prior selected target ∧
      value.mirror = .notApplicable ∧ value.phase = 2 ∧
      target ≤ checkpoint.clockAuthority.safeTime ∧
      next = (checkpoint.setState 0 none).setState 1 (some (settledValue value target head)) := by
  obtain ⟨actor, address, transition, evidence, phase, result, application, publication, mirror⟩ :=
    value
  unfold settleAcknowledge
  cases evidence with
  | shutdown => simp
  | acknowledge wall tick prior selected target =>
    simp only [bind_eq_ok, reject_eq_ok, exists_const, pure_eq_ok, Bool.or_eq_false_iff,
      bne_eq_false_iff_eq, decide_eq_false_iff_not, Int64.not_lt]
    constructor
    · rintro ⟨⟨⟨hmirror, hphase⟩, htarget⟩, rfl⟩
      exact ⟨wall, tick, prior, selected, target, rfl, hmirror, hphase, htarget, rfl⟩
    · rintro ⟨_, _, _, _, _, heq, hmirror, hphase, htarget, rfl⟩
      obtain ⟨rfl, rfl, rfl, rfl, rfl⟩ := AddressedEvidence.acknowledge.inj heq
      exact ⟨⟨⟨hmirror, hphase⟩, htarget⟩, rfl⟩

theorem replayClockAt_eq_ok {checkpoint next : CompleteCheckpoint} {body : ClockCheckpointBody}
    {head : JournalHead} :
    replayClockAt checkpoint body head = .ok next ↔ BodyFits checkpoint body ∧
      Clocked checkpoint body head next := by
  rw [replayClockAt, bind_eq_ok]
  constructor
  · rintro ⟨clocked, hclocked, h⟩
    obtain ⟨hfits, rfl⟩ := replayClock_eq_ok.1 hclocked
    refine ⟨hfits, ?_⟩
    split at h
    · rename_i hnone
      obtain rfl := Except.ok.inj h
      exact .plain hnone
    · rename_i value hsome
      obtain ⟨hpending, hreason, hmatches⟩ := settledBy_eq_some.1 hsome
      obtain ⟨_, _, _, _, _, hevidence, hmirror, hphase, htarget, rfl⟩ :=
        settleAcknowledge_eq_ok.1 h
      exact .settled hpending hreason hmatches hevidence hmirror hphase htarget
  · rintro ⟨hfits, hclocked⟩
    refine ⟨_, replayClock_eq_ok.2 ⟨hfits, rfl⟩, ?_⟩
    cases hclocked with
    | plain hnone =>
      simp only [CompleteCheckpoint.setClock_addressed, hnone]
      rfl
    | settled hpending hreason hmatches hevidence hmirror hphase htarget =>
      have hsettled := settledBy_eq_some.2 ⟨hpending, hreason, hmatches⟩
      simp only [CompleteCheckpoint.setClock_addressed, hsettled]
      exact settleAcknowledge_eq_ok.2 ⟨_, _, _, _, _, hevidence, hmirror, hphase, htarget, rfl⟩

theorem length_bodyFields_le (body : ClockCheckpointBody) :
    (bodyFields body).flatten.length ≤ maxBodyBytes := by
  rw [length_bodyFields, bodyLength, maxBodyBytes, maxFrameBytes, minFrameBytes]
  split_ifs <;> omega

/-- A clock checkpoint that fits takes a turn of the loop, if the projection behind it is valid. -/
theorem frameStep_clock {checkpoint clocked : CompleteCheckpoint} {body : ClockCheckpointBody}
    {head : JournalHead}
    (hhead : sealedHead checkpoint.coveredHead .clockCheckpoint (bodyFields body).flatten = head)
    (hsequence : checkpoint.coveredHead.sequence.toNat + 1 < 2 ^ 64)
    (hfits : BodyFits checkpoint body) (hclocked : Clocked checkpoint body head clocked)
    (hvalid : ValidCheckpoint (clocked.setHead head)) :
    FrameStep checkpoint checkpoint.coveredHead
      ⟨checkpoint.coveredHead, head, .clockCheckpointEvent body⟩
      ((bodyFields body).flatten.length + 110) (clocked.setHead head) := by
  subst hhead
  obtain ⟨bytes, hbytes⟩ := hfits.encoded
  obtain rfl : (bodyFields body).flatten = bytes := by
    obtain ⟨-, -, hbytes⟩ := bind_eq_ok.1 hbytes
    exact Except.ok.inj hbytes
  have hencoded : encodeTailRecord (.clockCheckpointEvent body) =
      .ok (.clockCheckpoint, (bodyFields body).flatten) :=
    bind_eq_ok.2 ⟨_, orInvalid_eq_ok.2 hbytes, rfl⟩
  exact ⟨recordStep_sealed hencoded (length_bodyFields_le body) hsequence
    (replayClockAt_eq_ok.2 ⟨hfits, hclocked⟩), hvalid⟩

/-! ### A periodic checkpoint -/

/-- A periodic checkpoint that moves the safe time to the wall time. -/
def periodicBody (prior wall : Int64) : ClockCheckpointBody where
  runtimeMode := .normal
  processInstance := processOf 1
  acceptedWallTime := wall
  acceptedMonotonicTick := 0
  priorSafeTime := prior
  newSafeTime := wall
  reason := .periodic
  hold := none
  preMirror := none

/-- The record of a periodic checkpoint. -/
def periodicFrame (head : JournalHead) (prior wall : Int64) : AuthenticatedTailFrame :=
  sealedFrame head .clockCheckpoint (bodyFields (periodicBody prior wall)).flatten
    (.clockCheckpointEvent (periodicBody prior wall))

/-- The checkpoint behind a periodic one. -/
def periodicCheckpoint (checkpoint : CompleteCheckpoint) (prior wall : Int64) :
    CompleteCheckpoint :=
  (checkpoint.setClock (clockAfter checkpoint.clockAuthority (periodicBody prior wall))).setHead
    (periodicFrame checkpoint.coveredHead prior wall).resultingHead

/-- A periodic checkpoint behind an empty tail. -/
theorem stands_periodic {key : JournalIntegrityKey} {header : ControlJournalHeader}
    {checkpoint : CompleteCheckpoint} (h : Stands key ⟨header, checkpoint, []⟩ checkpoint)
    {prior wall : Int64} {bytes : List UInt8}
    (hbody : encodeClockCheckpointBody (periodicBody prior wall) = .ok bytes)
    (hsequence : checkpoint.coveredHead.sequence.toNat + 1 < 2 ^ 64)
    (hprior : prior = checkpoint.clockAuthority.safeTime)
    (hhold : checkpoint.clockAuthority.hold = none)
    (hvalid : validateCheckpoint (periodicCheckpoint checkpoint prior wall) = .ok ()) :
    Stands key ⟨header, checkpoint, [periodicFrame checkpoint.coveredHead prior wall]⟩
      (periodicCheckpoint checkpoint prior wall) := by
  have hfits : BodyFits checkpoint (periodicBody prior wall) := by
    refine ⟨⟨bytes, hbody⟩, hprior, ?_, ?_⟩
    · rw [hhold]
      rfl
    · cases checkpoint.activePointer <;> rfl
  have hsettled : settledBy checkpoint.clockAuthority (periodicBody prior wall)
      (checkpoint.addressed 0).state = none := by
    cases (checkpoint.addressed 0).state <;> rfl
  have hstep := frameStep_clock rfl hsequence hfits (.plain hsettled)
    (validateCheckpoint_eq_ok.1 hvalid)
  refine (stands_push h rfl).2 ⟨show 0 < tailCountLimit by decide, _, hstep, ?_⟩
  rw [length_bodyFields]
  show 104 + (bodyLength false false + 110) ≤ tailLimit
  decide

/-- The first image, behind one checkpoint. -/
def movedCheckpoint (wall : Int64) : CompleteCheckpoint :=
  periodicCheckpoint (bareCheckpoint 1 ⟨0, ByteVec.zero 32⟩ none) 0 wall

/-- The first image with one periodic checkpoint behind it. -/
def movedImage (key : JournalIntegrityKey) (wall : Int64) : CompleteControlJournalImage :=
  { completeGenesis key with tail := [periodicFrame ⟨0, ByteVec.zero 32⟩ 0 wall] }

theorem stands_moved (key : JournalIntegrityKey) {wall : Int64} {bytes : List UInt8}
    (hbody : encodeClockCheckpointBody (periodicBody 0 wall) = .ok bytes)
    (hvalid : validateCheckpoint (movedCheckpoint wall) = .ok ()) :
    Stands key (movedImage key wall) (movedCheckpoint wall) :=
  stands_periodic (stands_completeGenesis key) hbody (by decide) rfl rfl hvalid

/-! ### Obligations -/

/-- The origin, the predecessor and the policy of a mirror, which its commit keeps. -/
def AddressedMirror.base : AddressedMirror → Option (ByteVec 32 × JournalHead × UInt8)
  | .notApplicable => none
  | .pending origin pre policy => some (origin, pre, policy)
  | .committed origin pre policy _ => some (origin, pre, policy)

/-- The same obligation, perhaps in a later phase. -/
structure SameObligation (value next : AddressedStateValue) : Prop where
  actor : next.actor = value.actor
  address : next.address = value.address
  desiredTransition : next.desiredTransition = value.desiredTransition
  evidence : next.evidence = value.evidence
  mirror : next.mirror.base = value.mirror.base
  phase : value.phase ≤ next.phase

theorem SameObligation.refl (value : AddressedStateValue) : SameObligation value value :=
  ⟨rfl, rfl, rfl, rfl, rfl, UInt8.le_refl _⟩

section Acted

variable {checkpoint stored : CompleteCheckpoint} {operation : AddressedOperation}
  {head : JournalHead} {action : AddressedAction} {value next : AddressedStateValue}

theorem le_of_legalPhase {phase : UInt8} (h : legalPhase operation value phase = true) :
    value.phase ≤ phase := by
  unfold legalPhase at h
  cases operation with
  | clockAcknowledge =>
    simp only [Bool.or_eq_true, Bool.and_eq_true, beq_iff_eq] at h
    rcases h with ⟨h1, h2⟩ | ⟨⟨h1, h2⟩, -⟩ <;> rw [h1, h2] <;> decide
  | systemShutdown =>
    simp only [Bool.or_eq_true, Bool.and_eq_true, beq_iff_eq] at h
    rcases h with ⟨h1, h2 | h2⟩ | ⟨h1, h2 | h2⟩ <;> rw [h1, h2] <;> decide

/-- An action on a pending value goes on with the same obligation. -/
theorem Acted.sameObligation (h : Acted checkpoint operation head action stored next)
    (hpending : (checkpoint.addressed operation.slot).state = some value) :
    SameObligation value next := by
  cases h with
  | request hnone =>
    rw [hnone] at hpending
    cases hpending
  | phase hpending' hlegal =>
    obtain rfl := Option.some.inj (hpending'.symm.trans hpending)
    exact ⟨rfl, rfl, rfl, rfl, rfl, le_of_legalPhase hlegal⟩
  | commit hpending' hmirror hphase _ _ hfinish =>
    obtain rfl := Option.some.inj (hpending'.symm.trans hpending)
    unfold finishCommit at hfinish
    split at hfinish
    · obtain rfl := Except.ok.inj hfinish
      exact ⟨rfl, rfl, rfl, rfl, by rw [hmirror]; rfl, UInt8.le_refl _⟩
    · cases hfinish
    · obtain rfl := Except.ok.inj hfinish
      refine ⟨rfl, rfl, rfl, rfl, by rw [hmirror]; rfl, ?_⟩
      rw [show _ = (2 : UInt8) from hphase]
      show (2 : UInt8) ≤ 3
      decide

/-- An action leaves the cells alone, but a shutdown request clears the last completion. -/
theorem Acted.addressed_of_ne (h : Acted checkpoint operation head action stored next)
    {index : Fin 4}
    (hne : index ≠ operation.slot + 1) : stored.addressed index = checkpoint.addressed index := by
  cases h with
  | request =>
    split_ifs
    · exact CompleteCheckpoint.setState_addressed_of_ne _ hne _
    · rfl
  | phase _ _ _ happlied =>
    unfold checkpointAtPhase at happlied
    split_ifs at happlied
    · unfold applyAcknowledge at happlied
      split at happlied
      · cases happlied
      · obtain ⟨-, happlied⟩ := reject_bind_eq_ok.1 happlied
        obtain rfl := Except.ok.inj happlied
        rfl
    · obtain rfl := Except.ok.inj happlied
      rfl
  | commit => rfl

/-- An action changes the clock only in the second phase of an acknowledgement, which raises the
safe time to its target and keeps the hold. -/
theorem Acted.clockAuthority (h : Acted checkpoint operation head action stored next) :
    stored.clockAuthority = checkpoint.clockAuthority ∨
    operation = .clockAcknowledge ∧ next.phase = 2 ∧
      addressedHoldMatches checkpoint.clockAuthority next.address = true ∧
      ∃ target, checkpoint.clockAuthority.safeTime ≤ target ∧
        stored.clockAuthority = { checkpoint.clockAuthority with safeTime := target } := by
  cases h with
  | request =>
    left
    split_ifs <;> rfl
  | phase _ _ _ happlied =>
    unfold checkpointAtPhase at happlied
    split_ifs at happlied with hsecond
    · unfold applyAcknowledge at happlied
      split at happlied
      · cases happlied
      · obtain ⟨hfits, happlied⟩ := reject_bind_eq_ok.1 happlied
        obtain rfl := Except.ok.inj happlied
        rw [Bool.or_eq_false_iff, Bool.not_eq_false', decide_eq_false_iff_not,
          Int64.not_lt] at hfits
        exact .inr ⟨hsecond.1, hsecond.2, hfits.1, _, hfits.2, rfl⟩
    · obtain rfl := Except.ok.inj happlied
      exact .inl rfl
  | commit => exact .inl rfl

theorem storeValue_state (checkpoint : CompleteCheckpoint) (operation : AddressedOperation)
    (value : AddressedStateValue) :
    ((storeValue checkpoint operation value).addressed operation.slot).state =
      if addressedComplete value then none else some value := by
  unfold storeValue
  split_ifs with hcomplete
  · cases operation with
    | clockAcknowledge =>
      show ((completeAcknowledge checkpoint value).addressed 0).state = none
      unfold completeAcknowledge
      split_ifs
      · rw [CompleteCheckpoint.setState_addressed_of_ne _ (by decide),
          CompleteCheckpoint.setClock_addressed, CompleteCheckpoint.setState_state_self]
      · rw [CompleteCheckpoint.setState_state_self]
    | systemShutdown =>
      show (((checkpoint.setState 2 none).setState 3 (some value)).addressed 2).state = none
      rw [CompleteCheckpoint.setState_addressed_of_ne _ (by decide),
        CompleteCheckpoint.setState_state_self]
  · rw [CompleteCheckpoint.setState_state_self]

theorem storeValue_addressed_of_ne (checkpoint : CompleteCheckpoint) (value : AddressedStateValue)
    {index : Fin 4} (hslot : index ≠ operation.slot) (hlast : index ≠ operation.slot + 1) :
    (storeValue checkpoint operation value).addressed index = checkpoint.addressed index := by
  unfold storeValue
  split_ifs
  · cases operation with
    | clockAcknowledge =>
      show (completeAcknowledge checkpoint value).addressed index = _
      unfold completeAcknowledge
      split_ifs
      · exact (CompleteCheckpoint.setState_addressed_of_ne _ hlast _).trans
          (CompleteCheckpoint.setState_addressed_of_ne _ hslot _)
      · exact CompleteCheckpoint.setState_addressed_of_ne _ hslot _
    | systemShutdown =>
      exact (CompleteCheckpoint.setState_addressed_of_ne _ hlast _).trans
        (CompleteCheckpoint.setState_addressed_of_ne _ hslot _)
  · exact CompleteCheckpoint.setState_addressed_of_ne _ hslot _

/-- Storing a value clears the hold only when it is the acknowledgement of that hold, complete. -/
theorem storeValue_clockAuthority (checkpoint : CompleteCheckpoint) (operation : AddressedOperation)
    (value : AddressedStateValue) :
    (storeValue checkpoint operation value).clockAuthority = checkpoint.clockAuthority ∨
    operation = .clockAcknowledge ∧ addressedComplete value = true ∧
      addressedHoldMatches checkpoint.clockAuthority value.address = true ∧
      (storeValue checkpoint operation value).clockAuthority =
        { checkpoint.clockAuthority with hold := none } := by
  unfold storeValue
  split_ifs with hcomplete
  · cases operation with
    | clockAcknowledge =>
      show (completeAcknowledge checkpoint value).clockAuthority = _ ∨ _ ∧ _ ∧ _ ∧
        (completeAcknowledge checkpoint value).clockAuthority = _
      unfold completeAcknowledge
      split_ifs with hmatches
      · exact .inr ⟨rfl, hcomplete, hmatches, rfl⟩
      · exact .inl rfl
    | systemShutdown => exact .inl rfl
  · exact .inl rfl

end Acted

/-! ### Steps -/

theorem withoutSuperseded_addressed_of_ne (checkpoint : CompleteCheckpoint)
    (operation : AddressedOperation) (currentProcess : ByteVec 16) {index : Fin 4} (h : index ≠ 3) :
    (withoutSuperseded checkpoint operation currentProcess).addressed index =
      checkpoint.addressed index := by
  unfold withoutSuperseded
  split_ifs
  · exact CompleteCheckpoint.setState_addressed_of_ne _ h _
  · rfl

theorem withoutSuperseded_clockAuthority (checkpoint : CompleteCheckpoint)
    (operation : AddressedOperation) (currentProcess : ByteVec 16) :
    (withoutSuperseded checkpoint operation currentProcess).clockAuthority =
      checkpoint.clockAuthority := by
  unfold withoutSuperseded
  split_ifs <;> rfl

section Steps

variable {projection stepped : CompleteCheckpoint}

/-- An addressed step acts, and stores the value it leaves. -/
theorem AddressedStep.acted {operation : AddressedOperation} {action : AddressedAction}
    {currentProcess : ByteVec 16} {recovery : Bool}
    (h : AddressedStep projection operation action currentProcess recovery stepped) :
    ∃ normal head stored value,
      encodeAddressedAction operation normal = encodeAddressedAction operation action ∧
      Acted projection operation head normal stored value ∧
      validAddressedValue operation value = true ∧
      stepped = withoutSuperseded ((storeValue stored operation value).setHead head) operation
        currentProcess := by
  obtain ⟨body, normal, frame, size, extended, hbody, hnormal, hrecord, hstep, rfl⟩ := h.extended
  obtain ⟨replayed, hreplayed, rfl⟩ := hstep.replay
  rw [hrecord, replayRecord_record] at hreplayed
  obtain ⟨⟨stored, value⟩, haction, hreplayed⟩ := bind_eq_ok.1 hreplayed
  obtain ⟨⟨⟩, hvalid, hreplayed⟩ := bind_eq_ok.1 hreplayed
  obtain rfl := Except.ok.inj hreplayed
  exact ⟨normal, frame.resultingHead, stored, value,
    by rw [hbody, encode_of_decodeAddressedAction hnormal], replayAction_eq_ok.1 haction,
    validateAddressedValue_eq_ok.1 hvalid, rfl⟩

theorem ClockStep.clocked {body : ClockCheckpointBody} (h : ClockStep projection body stepped) :
    ∃ head clocked, BodyFits projection body ∧ Clocked projection body head clocked ∧
      stepped = clocked.setHead head := by
  obtain ⟨frame, size, hrecord, hstep⟩ := h
  obtain ⟨replayed, hreplayed, rfl⟩ := hstep.replay
  rw [hrecord] at hreplayed
  obtain ⟨hfits, hclocked⟩ := replayClockAt_eq_ok.1 hreplayed
  exact ⟨frame.resultingHead, replayed, hfits, hclocked, rfl⟩

/-- The projection behind a step is valid. -/
theorem JournalStep.Stepped.valid {step : JournalStep} (h : step.Stepped projection stepped)
    (hvalid : ValidCheckpoint projection) : ValidCheckpoint stepped := by
  cases step with
  | clock body =>
    obtain ⟨_, _, -, hstep⟩ := h
    exact hstep.valid
  | addressed => exact AddressedStep.valid h
  | authority => exact AuthorityStep.valid h
  | fold =>
    obtain rfl : stepped = projection := h
    exact hvalid

/-- The value that a step completes. -/
inductive Completes (projection : CompleteCheckpoint) :
    JournalStep → AddressedOperation → AddressedStateValue → Prop
  | settled {body : ClockCheckpointBody} {value : AddressedStateValue}
      {wall tick prior target : Int64} {selected : Option Int64} {head : JournalHead}
      (hpending : (projection.addressed 0).state = some value)
      (hreason : body.reason = .automaticSettlement)
      (hmatches : addressedHoldMatches projection.clockAuthority value.address = true)
      (hevidence : value.evidence = .acknowledge wall tick prior selected target) :
      Completes projection (.clock body) .clockAcknowledge (settledValue value target head)
  | acted {operation : AddressedOperation} {action normal : AddressedAction}
      {currentProcess : ByteVec 16} {recovery : Bool} {head : JournalHead}
      {stored : CompleteCheckpoint} {value : AddressedStateValue}
      (hsame : encodeAddressedAction operation normal = encodeAddressedAction operation action)
      (hacted : Acted projection operation head normal stored value)
      (hcomplete : addressedComplete value = true) :
      Completes projection (.addressed operation action currentProcess recovery) operation value

/-- The last phases of an operation. -/
def FinalPhase (operation : AddressedOperation) (phase : UInt8) : Prop :=
  phase = 3 ∨ operation = .systemShutdown ∧ phase = 4

theorem finalPhase_of_complete {operation : AddressedOperation} {value : AddressedStateValue}
    (hvalid : validAddressedValue operation value = true)
    (hcomplete : addressedComplete value = true) :
    FinalPhase operation value.phase ∧ value.mirror.isPending = false := by
  rw [addressedComplete, Bool.and_eq_true, decide_eq_true_eq, Bool.not_eq_true'] at hcomplete
  obtain ⟨hle, hmirror⟩ := hcomplete
  refine ⟨?_, hmirror⟩
  have hbound : value.phase.toNat ≤ operation.lastPhase :=
    phase_le_of_validSubject (validAddressedValue_iff.1 hvalid).2.1
  have hge : 3 ≤ value.phase.toNat := UInt8.le_iff_toNat_le.1 hle
  cases operation with
  | clockAcknowledge =>
    change value.phase.toNat ≤ 3 at hbound
    exact .inl (UInt8.toNat_inj.1 (show value.phase.toNat = 3 by omega))
  | systemShutdown =>
    change value.phase.toNat ≤ 4 at hbound
    by_cases hthree : value.phase.toNat = 3
    · exact .inl (UInt8.toNat_inj.1 hthree)
    · exact .inr ⟨rfl, UInt8.toNat_inj.1 (show value.phase.toNat = 4 by omega)⟩

/-- An addressed step leaves the other operation alone. -/
theorem AddressedStep.addressed_of_ne {operation : AddressedOperation} {action : AddressedAction}
    {currentProcess : ByteVec 16} {recovery : Bool}
    (h : AddressedStep projection operation action currentProcess recovery stepped) {index : Fin 4}
    (hslot : index ≠ operation.slot) (hlast : index ≠ operation.slot + 1)
    (hshutdown : index ≠ 3) : stepped.addressed index = projection.addressed index := by
  obtain ⟨normal, head, stored, value, -, hacted, -, rfl⟩ := h.acted
  rw [withoutSuperseded_addressed_of_ne _ _ _ hshutdown, CompleteCheckpoint.setHead_addressed,
    storeValue_addressed_of_ne _ _ hslot hlast, hacted.addressed_of_ne hlast]

/-- The obligation behind a step is the same, or the step has completed it. -/
def KeptOrCompleted (projection stepped : CompleteCheckpoint) (step : JournalStep)
    (operation : AddressedOperation) (value : AddressedStateValue) : Prop :=
  (∃ next, (stepped.addressed operation.slot).state = some next ∧ SameObligation value next) ∨
  (stepped.addressed operation.slot).state = none ∧
    ∃ next, Completes projection step operation next ∧ SameObligation value next ∧
      FinalPhase operation next.phase ∧ next.mirror.isPending = false

theorem keptOrCompleted_of_addressed_eq {step : JournalStep} {operation : AddressedOperation}
    {value : AddressedStateValue}
    (hpending : (projection.addressed operation.slot).state = some value)
    (h : stepped.addressed operation.slot = projection.addressed operation.slot) :
    KeptOrCompleted projection stepped step operation value :=
  .inl ⟨value, by rw [h, hpending], SameObligation.refl value⟩

theorem ClockStep.obligation {body : ClockCheckpointBody} (h : ClockStep projection body stepped)
    {operation : AddressedOperation} {value : AddressedStateValue}
    (hpending : (projection.addressed operation.slot).state = some value) :
    KeptOrCompleted projection stepped (.clock body) operation value := by
  obtain ⟨head, clocked, -, hclocked, rfl⟩ := h.clocked
  cases hclocked with
  | plain => exact keptOrCompleted_of_addressed_eq hpending rfl
  | @settled settling wall tick prior target selected hpending' hreason hmatches hevidence hmirror
      hphase htarget =>
    cases operation with
    | systemShutdown =>
      refine keptOrCompleted_of_addressed_eq hpending ?_
      rw [CompleteCheckpoint.setHead_addressed,
        CompleteCheckpoint.setState_addressed_of_ne _ (by decide),
        CompleteCheckpoint.setState_addressed_of_ne _ (by decide),
        CompleteCheckpoint.setClock_addressed]
    | clockAcknowledge =>
      obtain rfl := Option.some.inj (hpending'.symm.trans hpending)
      refine .inr ⟨?_, settledValue settling target head,
        .settled hpending' hreason hmatches hevidence,
        ⟨rfl, rfl, rfl, rfl, rfl, ?_⟩, .inl rfl, ?_⟩
      · rw [CompleteCheckpoint.setHead_addressed,
          CompleteCheckpoint.setState_addressed_of_ne _ (by decide)]
        exact CompleteCheckpoint.setState_state_self _ _ _
      · rw [hphase]
        show (2 : UInt8) ≤ 3
        decide
      · show settling.mirror.isPending = false
        rw [hmirror]
        rfl

theorem AddressedStep.obligation {acting : AddressedOperation} {action : AddressedAction}
    {currentProcess : ByteVec 16} {recovery : Bool}
    (h : AddressedStep projection acting action currentProcess recovery stepped)
    {operation : AddressedOperation} {value : AddressedStateValue}
    (hpending : (projection.addressed operation.slot).state = some value) :
    KeptOrCompleted projection stepped (.addressed acting action currentProcess recovery) operation
      value := by
  by_cases hsame : operation = acting
  · subst hsame
    obtain ⟨normal, head, stored, next, hencode, hacted, hvalid, rfl⟩ := h.acted
    have hnext := hacted.sameObligation hpending
    unfold KeptOrCompleted
    rw [withoutSuperseded_addressed_of_ne _ _ _ (by cases operation <;> decide),
      CompleteCheckpoint.setHead_addressed, storeValue_state]
    by_cases hcomplete : addressedComplete next = true
    · have hfinal := finalPhase_of_complete hvalid hcomplete
      exact .inr ⟨if_pos hcomplete, next, .acted hencode hacted hcomplete, hnext, hfinal⟩
    · exact .inl ⟨next, if_neg hcomplete, hnext⟩
  · refine keptOrCompleted_of_addressed_eq hpending (h.addressed_of_ne ?_ ?_ ?_)
    all_goals
      cases operation <;> cases acting
      all_goals first
        | exact absurd rfl hsame
        | decide

/-- **A pending obligation is kept or completed by every step.** -/
theorem JournalStep.Stepped.obligation {step : JournalStep} (h : step.Stepped projection stepped)
    {operation : AddressedOperation} {value : AddressedStateValue}
    (hpending : (projection.addressed operation.slot).state = some value) :
    KeptOrCompleted projection stepped step operation value := by
  cases step with
  | clock body => exact ClockStep.obligation h hpending
  | addressed acting action currentProcess recovery => exact AddressedStep.obligation h hpending
  | authority next currentProcess =>
    refine keptOrCompleted_of_addressed_eq hpending ?_
    obtain ⟨evicted, hevicted, rfl⟩ := AuthorityStep.evicted h
    rw [CompleteCheckpoint.setClock_addressed,
      withoutSuperseded_addressed_of_ne _ _ _ (by cases operation <;> decide)]
    rcases evictAcknowledge_cases hevicted with ⟨rfl, -⟩ | ⟨_, _, _, _, -, -, -, -, rfl⟩
    · rfl
    · exact CompleteCheckpoint.setState_addressed_of_ne _ (by cases operation <;> decide) _
  | fold trigger =>
    obtain rfl : stepped = projection := h
    exact keptOrCompleted_of_addressed_eq hpending rfl

/-! ### The clock -/

/-- What a step can do to the clock authority. -/
inductive ClockChange (projection : CompleteCheckpoint) :
    JournalStep → ClockAuthorityProjection → Prop
  | kept (step : JournalStep) : ClockChange projection step projection.clockAuthority
  | body {body : ClockCheckpointBody} (hfits : BodyFits projection body) :
      ClockChange projection (.clock body) (clockAfter projection.clockAuthority body)
  | applied {action : AddressedAction} {currentProcess : ByteVec 16} {recovery : Bool}
      {target : Int64} (htarget : projection.clockAuthority.safeTime ≤ target) :
      ClockChange projection (.addressed .clockAcknowledge action currentProcess recovery)
        { projection.clockAuthority with safeTime := target }
  | completed {action : AddressedAction} {currentProcess : ByteVec 16} {recovery : Bool}
      {value : AddressedStateValue}
      (hcompletes : Completes projection
        (.addressed .clockAcknowledge action currentProcess recovery) .clockAcknowledge value)
      (hmatches : addressedHoldMatches projection.clockAuthority value.address = true) :
      ClockChange projection (.addressed .clockAcknowledge action currentProcess recovery)
        { projection.clockAuthority with hold := none }
  | authority {next : ClockAuthorityProjection} {currentProcess : ByteVec 16}
      (hsafe : projection.clockAuthority.safeTime ≤ next.safeTime)
      (hhold : holdAdvances projection.clockAuthority.hold next.hold = true) :
      ClockChange projection (.authority next currentProcess) next

theorem AddressedStep.clockChange {operation : AddressedOperation} {action : AddressedAction}
    {currentProcess : ByteVec 16} {recovery : Bool}
    (h : AddressedStep projection operation action currentProcess recovery stepped) :
    ClockChange projection (.addressed operation action currentProcess recovery)
      stepped.clockAuthority := by
  obtain ⟨normal, head, stored, value, hencode, hacted, -, rfl⟩ := h.acted
  rw [withoutSuperseded_clockAuthority, CompleteCheckpoint.setHead_clockAuthority]
  rcases hacted.clockAuthority with hclock | ⟨rfl, hphase, -, target, htarget, hclock⟩
  · rcases storeValue_clockAuthority stored operation value with
      hstored | ⟨rfl, hcomplete, hmatches, hstored⟩
    · rw [hstored, hclock]
      exact .kept _
    · rw [hstored, hclock]
      rw [hclock] at hmatches
      exact .completed (.acted hencode hacted hcomplete) hmatches
  · have hpending : addressedComplete value = false := by
      rw [addressedComplete, hphase]
      rfl
    rw [storeValue, if_neg (by rw [hpending]; exact Bool.false_ne_true),
      CompleteCheckpoint.setState_clockAuthority, hclock]
    exact .applied htarget

theorem JournalStep.Stepped.clockChange {step : JournalStep} (h : step.Stepped projection stepped) :
    ClockChange projection step stepped.clockAuthority := by
  cases step with
  | clock body =>
    obtain ⟨head, clocked, hfits, hclocked, rfl⟩ := ClockStep.clocked h
    cases hclocked with
    | plain => exact .body hfits
    | settled => exact .body hfits
  | addressed => exact AddressedStep.clockChange h
  | authority next currentProcess =>
    obtain ⟨-, hsafe, hhold, ⟨evicted, -, rfl⟩, -⟩ := h
    exact .authority hsafe hhold
  | fold trigger =>
    obtain rfl : stepped = projection := h
    exact .kept _

/-- The hold that a step clears. -/
inductive Clears (projection : CompleteCheckpoint) : JournalStep → ClockAuthorityHold → Prop
  | settlement {body : ClockCheckpointBody} {named : NamedHold} {hold : ClockAuthorityHold}
      (hreason : body.reason = .automaticSettlement) (hnamed : body.hold = some named)
      (hgeneration : named.generation = hold.generation)
      (hdigest : named.observationDigest = hold.observationDigest) :
      Clears projection (.clock body) hold
  | acknowledgement {step : JournalStep} {value : AddressedStateValue} {hold : ClockAuthorityHold}
      (hcompletes : Completes projection step .clockAcknowledge value)
      (haddress : value.address = .clockHold hold.generation hold.observationDigest) :
      Clears projection step hold

theorem addressedHoldMatches_iff {clock : ClockAuthorityProjection} {hold : ClockAuthorityHold}
    (hhold : clock.hold = some hold) {address : AddressedOperationAddress} :
    addressedHoldMatches clock address = true ↔
      address = .clockHold hold.generation hold.observationDigest := by
  rw [addressedHoldMatches, hhold, Option.any_some, beq_iff_eq]

/-- **A hold is cleared by its own settlement only**, and replaced by a newer one only. -/
theorem ClockChange.hold {step : JournalStep} {clock : ClockAuthorityProjection}
    (h : ClockChange projection step clock) {hold : ClockAuthorityHold}
    (hhold : projection.clockAuthority.hold = some hold) :
    clock.hold = some hold ∨ (clock.hold = none ∧ Clears projection step hold) ∨
    ∃ next currentProcess newer, step = .authority next currentProcess ∧ clock.hold = some newer ∧
      hold.generation < newer.generation := by
  -- a settlement names the hold it clears, and a publication only moves forward
  cases h with
  | kept => exact .inl hhold
  | body hfits =>
    rename_i body
    by_cases hreason : body.reason = .automaticSettlement
    · have hfit := hfits.hold
      rw [hhold, hreason] at hfit
      cases hnamed : body.hold with
      | none =>
        rw [hnamed] at hfit
        cases hfit
      | some named =>
        simp only [hnamed, clockHoldFits, Bool.and_eq_true, beq_iff_eq] at hfit
        refine .inr (.inl ⟨if_pos hreason, .settlement hreason hnamed hfit.1.symm hfit.2.symm⟩)
    · exact .inl ((if_neg hreason).trans hhold)
  | applied => exact .inl hhold
  | completed hcompletes hmatches =>
    exact .inr (.inl ⟨rfl, .acknowledgement hcompletes ((addressedHoldMatches_iff hhold).1 hmatches)⟩)
  | @authority _ currentProcess _ hadvances =>
    rw [hhold] at hadvances
    cases hnext : clock.hold with
    | none =>
      rw [hnext] at hadvances
      cases hadvances
    | some newer =>
      simp only [hnext, holdAdvances, Bool.not_eq_true', Bool.or_eq_false_iff,
        decide_eq_false_iff_not, UInt64.not_lt, Bool.and_eq_false_iff, beq_eq_false_iff_ne,
        bne_eq_false_iff_eq] at hadvances
      by_cases hsame : newer = hold
      · exact .inl (congrArg some hsame)
      · have hne := hadvances.2.resolve_right hsame
        refine .inr (.inr ⟨clock, currentProcess, newer, rfl, rfl, ?_⟩)
        exact UInt64.lt_of_le_of_ne hadvances.1 (Ne.symm hne)

/-- A shutdown has nothing to do with the clock. -/
theorem ClockChange.of_shutdown {action : AddressedAction} {currentProcess : ByteVec 16}
    {recovery : Bool} {clock : ClockAuthorityProjection}
    (h : ClockChange projection (.addressed .systemShutdown action currentProcess recovery) clock) :
    clock = projection.clockAuthority := by
  cases h
  rfl

theorem le_newSafeTime {body : ClockCheckpointBody} {bytes : List UInt8}
    (h : encodeClockCheckpointBody body = .ok bytes) : body.priorSafeTime ≤ body.newSafeTime := by
  obtain ⟨⟨⟩, hvalid, -⟩ := bind_eq_ok.1 h
  obtain ⟨hfields, -⟩ := reject_bind_eq_ok.1 hvalid
  rw [Bool.or_eq_false_iff, bne_eq_false_iff_eq] at hfields
  rw [hfields.2]
  show body.priorSafeTime ≤ if body.priorSafeTime ≤ body.acceptedWallTime then _ else _
  split_ifs with hle
  · exact hle
  · exact Int64.le_refl _

/-- **The safe time does not go back.** -/
theorem ClockChange.safeTime_le {step : JournalStep} {clock : ClockAuthorityProjection}
    (h : ClockChange projection step clock) :
    projection.clockAuthority.safeTime ≤ clock.safeTime := by
  cases h with
  | kept => exact Int64.le_refl _
  | body hfits =>
    obtain ⟨bytes, hencoded⟩ := hfits.encoded
    rw [← hfits.prior]
    exact le_newSafeTime hencoded
  | applied htarget => exact htarget
  | completed => exact Int64.le_refl _
  | authority hsafe => exact hsafe

/-- At most one of the two cells of each operation is present. -/
def OneCellEach (checkpoint : CompleteCheckpoint) : Prop :=
  ∀ operation : AddressedOperation, (checkpoint.addressed operation.slot).state = none ∨
    (checkpoint.addressed (operation.slot + 1)).state = none

theorem ValidCheckpoint.oneCellEach (h : ValidCheckpoint projection) : OneCellEach projection := by
  obtain ⟨-, hcells⟩ := reject_bind_eq_ok.1 h.cells
  simp only [reject_eq_ok, Bool.or_eq_false_iff, Bool.and_eq_false_iff, Option.isSome_eq_false_iff,
    Option.isNone_iff_eq_none] at hcells
  intro operation
  cases operation with
  | clockAcknowledge => exact hcells.1
  | systemShutdown => exact hcells.2

/-- **Pending obligations are never lost or rewritten, and holds are cleared only by their own
settlement.** -/
theorem obligations_kept (key : JournalIntegrityKey) (image next : CompleteControlJournalImage)
    (step : JournalStep) (hencodable : ∃ bytes, encodeControlJournalImage key image = .ok bytes)
    (hnext : step.apply key image = .ok next) :
    ∃ before after, replayTail image = .ok before ∧ replayTail next = .ok after ∧
      (∀ (operation : AddressedOperation) value,
        (before.addressed operation.slot).state = some value →
        KeptOrCompleted before after step operation value) ∧
      (∀ hold, before.clockAuthority.hold = some hold → after.clockAuthority.hold = none →
        Clears before step hold) ∧
      (∀ hold newer, before.clockAuthority.hold = some hold →
        after.clockAuthority.hold = some newer → newer ≠ hold →
        (∃ clock currentProcess, step = .authority clock currentProcess) ∧
          hold.generation < newer.generation) ∧
      (∀ action currentProcess recovery,
        step = .addressed .systemShutdown action currentProcess recovery →
        after.clockAuthority = before.clockAuthority) ∧
      OneCellEach before ∧ OneCellEach after := by
  obtain ⟨before, h⟩ := exists_encode_iff_stands.1 hencodable
  obtain ⟨stepped, generation, hstep, hstands⟩ := (apply_appends h step).sound next hnext
  have hclock := hstep.clockChange
  refine ⟨before, stepped.setGeneration generation, h.replayed, hstands.replayed, ?_, ?_, ?_, ?_,
    h.valid.oneCellEach, hstands.valid.oneCellEach⟩
  · intro operation value hpending
    exact hstep.obligation hpending
  · intro hold hhold hnone
    rcases hclock.hold hhold with hkept | ⟨-, hclears⟩ | ⟨_, _, _, -, hnewer, -⟩
    · cases hkept.symm.trans hnone
    · exact hclears
    · cases hnewer.symm.trans hnone
  · intro hold newer hhold hnewer hne
    rcases hclock.hold hhold with hkept | ⟨hcleared, -⟩ | ⟨clock, process, newer', rfl, hnewer',
      hlt⟩
    · exact absurd (Option.some.inj (hnewer.symm.trans hkept)) hne
    · cases hnewer.symm.trans hcleared
    · obtain rfl := Option.some.inj (hnewer.symm.trans hnewer')
      exact ⟨⟨clock, process, rfl⟩, hlt⟩
  · rintro action currentProcess recovery rfl
    exact hclock.of_shutdown

/-- The end of a shutdown completes it. -/
theorem obligations_kept_end :
    let key : JournalIntegrityKey := ⟨ByteVec.zero 32⟩
    let step : JournalStep := .addressed .systemShutdown endStopping (processOf 2) true
    ∃ next before after, step.apply key (bareImage key stoppingCheckpoint) = .ok next ∧
      replayTail (bareImage key stoppingCheckpoint) = .ok before ∧ replayTail next = .ok after ∧
      KeptOrCompleted before after step .systemShutdown stoppingValue := by
  intro key step
  have h := stands_stopping key
  obtain ⟨next, hnext⟩ := (apply_appends h step).complete (show 2 + 1 < 2 ^ 64 by decide) _
    addressedStep_end
  obtain ⟨before, after, hbefore, hafter, hkept, -⟩ :=
    obligations_kept key _ next step h.encode hnext
  refine ⟨next, before, after, hnext, hbefore, hafter, hkept .systemShutdown stoppingValue ?_⟩
  rw [h.replayed] at hbefore
  obtain rfl := Except.ok.inj hbefore
  rfl

end Steps

end MsgRiver.Journal
