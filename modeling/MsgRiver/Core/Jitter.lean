import MsgRiver.Core.Mac

/-!
# Retry jitter

`derive_retry_jitter` asks the provider for one tag after another until the first four bytes of one
are below the rejection limit.

The last part is about all three operations that call the provider: no two inputs that say different
things are alike, and a result rests on a tag of the requested key.
-/

namespace MsgRiver.Core

open Bytes Ascii Framing

/-- The domain of the jitter inputs. -/
def retryJitterDomain : List UInt8 := codes ("msgriver/retry-jitter/v1".toList ++ ['\x00'])

/-- Candidates from here on are drawn again. -/
def rejectionLimit : ℕ := 0xfffffd94

/-- What a jitter is derived from. -/
structure JitterSourceRequest where
  derivationVersion : UInt8
  keyReference : MacKeyRef
  messageId : ByteVec 16
  completedAttemptOrdinal : UInt16

/-- What the jitter source answers. -/
inductive JitterSourceOutcome
  | multiplierMilli (multiplier : UInt16)
  | invalidDerivation
  | unavailable
  deriving DecidableEq

/-- The version and variant bits of a UUID of version 7. -/
def isUuidV7 (messageId : ByteVec 16) : Bool :=
  byteAt messageId.toList 6 >>> 4 == 7 && byteAt messageId.toList 8 >>> 6 == 2

/-- The input of the MAC at a counter. -/
def framedInput (request : JitterSourceRequest) (counter : UInt8) : List UInt8 :=
  retryJitterDomain ++ request.keyReference.keyId.toList ++ request.messageId.toList ++
    wire request.completedAttemptOrdinal ++ [counter]

/-- The first four bytes of a tag. -/
def candidateOf (tag : VersionedTag) : ℕ := value (tag.tag.toList.take 4)

/-- The loop over the counters. -/
def deriveFrom (provider : MacProvider) (request : JitterSourceRequest) :
    List UInt8 → List MacCall → JitterSourceOutcome × List MacCall
  | [], calls => (.unavailable, calls)
  | counter :: counters, calls =>
    let made := call provider calls request.keyReference (framedInput request counter)
    match made.answer with
    | .error _ => (.unavailable, calls ++ [made])
    | .ok tag =>
      if tag.key ≠ request.keyReference then (.unavailable, calls ++ [made])
      else if candidateOf tag < rejectionLimit then
        (.multiplierMilli (UInt16.ofNat (500 + candidateOf tag % 1001)), calls ++ [made])
      else deriveFrom provider request counters (calls ++ [made])

/-- The counters from 0 to 255. -/
def counters : List UInt8 := (List.range 256).map UInt8.ofNat

/-- The error of the source is never used. -/
def deriveRetryJitter (provider : MacProvider) (request : JitterSourceRequest)
    (calls : List MacCall) : JitterSourceOutcome × List MacCall :=
  if request.derivationVersion ≠ 1
      ∨ ¬ (1 ≤ request.completedAttemptOrdinal ∧ request.completedAttemptOrdinal ≤ 1023)
      ∨ request.keyReference.purpose ≠ .retryJitterV1
      ∨ isUuidV7 request.messageId = false then (.invalidDerivation, calls)
  else deriveFrom provider request counters calls

/-! ### The calls of the loop -/

/-- The answer is a tag for the requested key, at or above the limit: the loop goes on. -/
def Undecided (request : JitterSourceRequest) (made : MacCall) : Prop :=
  ∃ tag, made.answer = .ok tag ∧ tag.key = request.keyReference ∧ rejectionLimit ≤ candidateOf tag

/-- The answer is a tag for the requested key, below the limit. -/
def Decides (request : JitterSourceRequest) (multiplier : UInt16) (made : MacCall) : Prop :=
  ∃ tag, made.answer = .ok tag ∧ tag.key = request.keyReference ∧
    candidateOf tag < rejectionLimit ∧ multiplier = UInt16.ofNat (500 + candidateOf tag % 1001)

/-- The provider failed, or answered for another key. -/
def Fails (request : JitterSourceRequest) (made : MacCall) : Prop :=
  ∀ tag, made.answer = .ok tag → tag.key ≠ request.keyReference

/-- The calls made for the first counters, each answered after all calls before it. -/
structure Asked (provider : MacProvider) (request : JitterSourceRequest) (counters : List UInt8)
    (calls new : List MacCall) : Prop where
  inputs : new.map MacCall.input = (counters.take new.length).map (framedInput request)
  answers : ∀ before made after, new = before ++ made :: after →
    made = call provider (calls ++ before) request.keyReference made.input

/-- How a loop with so many counters ends. -/
def Ends (request : JitterSourceRequest) (n : ℕ) (new : List MacCall) : JitterSourceOutcome → Prop
  | .multiplierMilli multiplier => ∃ before made, new = before ++ [made] ∧
      (∀ m ∈ before, Undecided request m) ∧ Decides request multiplier made
  | .unavailable => (∃ before made, new = before ++ [made] ∧
      (∀ m ∈ before, Undecided request m) ∧ Fails request made) ∨
      new.length = n ∧ ∀ m ∈ new, Undecided request m
  | .invalidDerivation => False

theorem Asked.nil {provider : MacProvider} {request : JitterSourceRequest} {counters : List UInt8}
    {calls : List MacCall} : Asked provider request counters calls [] := by
  refine ⟨by simp, ?_⟩
  intro before made after h
  simp at h

theorem Asked.cons {provider : MacProvider} {request : JitterSourceRequest} {counter : UInt8}
    {counters : List UInt8} {calls new : List MacCall}
    (h : Asked provider request counters
      (calls ++ [call provider calls request.keyReference (framedInput request counter)]) new) :
    Asked provider request (counter :: counters) calls
      (call provider calls request.keyReference (framedInput request counter) :: new) := by
  constructor
  · rw [List.map_cons, List.length_cons, List.take_succ_cons, List.map_cons, h.inputs]
    rfl
  · intro before made after hnew
    cases before with
    | nil =>
      obtain ⟨rfl, -⟩ := List.cons.inj hnew
      rw [List.append_nil]
      rfl
    | cons first before =>
      obtain ⟨rfl, htail⟩ := List.cons.inj hnew
      have hmade := h.answers before made after htail
      rwa [List.append_assoc] at hmade

/-- A call before the others of a loop that is not decided by it. -/
theorem Ends.cons {request : JitterSourceRequest} {made : MacCall} (hmade : Undecided request made)
    {n : ℕ} {new : List MacCall} {outcome : JitterSourceOutcome} (h : Ends request n new outcome) :
    Ends request (n + 1) (made :: new) outcome := by
  have hbefore : ∀ {before : List MacCall}, (∀ m ∈ before, Undecided request m) →
      ∀ m ∈ made :: before, Undecided request m :=
    fun hall => List.forall_mem_cons.2 ⟨hmade, hall⟩
  cases outcome with
  | multiplierMilli multiplier =>
    obtain ⟨before, last, rfl, hall, hlast⟩ := h
    exact ⟨made :: before, last, rfl, hbefore hall, hlast⟩
  | unavailable =>
    rcases h with ⟨before, last, rfl, hall, hlast⟩ | ⟨hlength, hall⟩
    · exact Or.inl ⟨made :: before, last, rfl, hbefore hall, hlast⟩
    · exact Or.inr ⟨by rw [List.length_cons, hlength], hbefore hall⟩
  | invalidDerivation => exact h

/-- The loop asks for one counter after another and ends at the first answer that is not undecided,
or when it has no counter left. -/
theorem deriveFrom_run (provider : MacProvider) (request : JitterSourceRequest)
    (counters : List UInt8) (calls : List MacCall) :
    ∃ new, (deriveFrom provider request counters calls).2 = calls ++ new ∧
      Asked provider request counters calls new ∧ new.length ≤ counters.length ∧
      Ends request counters.length new (deriveFrom provider request counters calls).1 := by
  induction counters generalizing calls with
  | nil => exact ⟨[], (List.append_nil _).symm, .nil, le_rfl, Or.inr ⟨rfl, by simp⟩⟩
  | cons counter counters ih =>
    -- one call for the first counter, whatever it answers
    have hasked : Asked provider request (counter :: counters) calls
        [call provider calls request.keyReference (framedInput request counter)] := Asked.nil.cons
    have hone : [call provider calls request.keyReference (framedInput request counter)].length ≤
        (counter :: counters).length := by simp
    rw [deriveFrom]
    cases hanswer :
        (call provider calls request.keyReference (framedInput request counter)).answer with
    | error e =>
      refine ⟨_, rfl, hasked, hone, Or.inl ⟨[], _, rfl, by simp, ?_⟩⟩
      intro tag htag
      rw [hanswer] at htag
      cases htag
    | ok tag =>
      simp only
      by_cases hkey : tag.key = request.keyReference
      swap
      · rw [if_pos hkey]
        refine ⟨_, rfl, hasked, hone, Or.inl ⟨[], _, rfl, by simp, ?_⟩⟩
        intro tag' htag
        rw [hanswer] at htag
        cases htag
        exact hkey
      rw [if_neg (not_not.2 hkey)]
      by_cases hbelow : candidateOf tag < rejectionLimit
      · rw [if_pos hbelow]
        exact ⟨_, rfl, hasked, hone, [], _, rfl, by simp, tag, hanswer, hkey, hbelow, rfl⟩
      · rw [if_neg hbelow]
        have hundecided : Undecided request
            (call provider calls request.keyReference (framedInput request counter)) :=
          ⟨tag, hanswer, hkey, Nat.le_of_not_lt hbelow⟩
        obtain ⟨new, hnew, hasked, hlength, hends⟩ := ih (calls ++ [call provider calls _ _])
        exact ⟨_ :: new, by rw [hnew, List.append_assoc]; rfl, hasked.cons,
          Nat.succ_le_succ hlength, hends.cons hundecided⟩

/-- The calls of the loop are those of its counters, and a multiplier is that of a tag which one of
them brought for the requested key. -/
theorem deriveFrom_spec (provider : MacProvider) (request : JitterSourceRequest)
    (counters : List UInt8) (calls : List MacCall) :
    ∃ new, (deriveFrom provider request counters calls).2 = calls ++ new ∧
      (∀ made ∈ new, made.key = request.keyReference ∧
        ∃ counter, made.input = framedInput request counter) ∧
      ∀ multiplier, (deriveFrom provider request counters calls).1 = .multiplierMilli multiplier →
        ∃ made ∈ new, ∃ tag, made.answer = .ok tag ∧ tag.key = request.keyReference ∧
          multiplier = UInt16.ofNat (500 + candidateOf tag % 1001) := by
  obtain ⟨new, hnew, hasked, -, hends⟩ := deriveFrom_run provider request counters calls
  refine ⟨new, hnew, ?_, ?_⟩
  · intro made hmade
    constructor
    · obtain ⟨before, after, hsplit⟩ := List.append_of_mem hmade
      rw [hasked.answers before made after hsplit]
      rfl
    · have hinput := List.mem_map_of_mem (f := MacCall.input) hmade
      rw [hasked.inputs] at hinput
      obtain ⟨counter, -, hcounter⟩ := List.mem_map.1 hinput
      exact ⟨counter, hcounter.symm⟩
  · intro multiplier hmultiplier
    rw [hmultiplier] at hends
    obtain ⟨before, made, rfl, -, tag, hanswer, hkey, -, hvalue⟩ := hends
    exact ⟨made, by simp, tag, hanswer, hkey, hvalue⟩

/-! ### The three operations -/

/-- A call of one of the operations that ask a provider. -/
inductive MacOperation
  | semanticFingerprint (key : MacKeyRef) (canonical : List UInt8)
  | lookupDigest (key : MacKeyRef) (principal idempotencyKey : List UInt8)
  | retryJitter (request : JitterSourceRequest)

/-- What an operation yields when it succeeds. -/
inductive MacYield
  | tag (tag : VersionedTag)
  | multiplier (multiplier : UInt16)
  deriving DecidableEq

/-- The key that an operation is asked to use. -/
def MacOperation.key : MacOperation → MacKeyRef
  | .semanticFingerprint key _ => key
  | .lookupDigest key _ _ => key
  | .retryJitter request => request.keyReference

/-- The purpose that its key must have. -/
def MacOperation.purpose : MacOperation → MacPurpose
  | .semanticFingerprint _ _ => .idempotencyFingerprintV1
  | .lookupDigest _ _ _ => .idempotencyLookupV1
  | .retryJitter _ => .retryJitterV1

/-- What the answer of a MAC function yields. -/
def tagYield : Except MacProviderError VersionedTag → Option MacYield
  | .ok tag => some (.tag tag)
  | .error _ => none

/-- What the answer of the jitter source yields. -/
def jitterYield : JitterSourceOutcome → Option MacYield
  | .multiplierMilli multiplier => some (.multiplier multiplier)
  | .invalidDerivation => none
  | .unavailable => none

/-- Run an operation: what it yields, and the calls made so far. -/
def MacOperation.perform (provider : MacProvider) (calls : List MacCall) :
    MacOperation → Option MacYield × List MacCall
  | .semanticFingerprint key canonical =>
    let (result, calls) := semanticFingerprintV1WithProvider provider key canonical calls
    (tagYield result, calls)
  | .lookupDigest key principal idempotencyKey =>
    let (result, calls) := lookupDigestV1WithProvider provider key principal idempotencyKey calls
    (tagYield result, calls)
  | .retryJitter request =>
    let (outcome, calls) := deriveRetryJitter provider request calls
    (jitterYield outcome, calls)

/-- What a MAC input says: the operation, the key id and the arguments. -/
inductive MacArgument
  | fingerprint (keyId : MacKeyId) (canonical : List UInt8)
  | lookup (keyId : MacKeyId) (principal idempotencyKey : List UInt8)
  | jitter (keyId : MacKeyId) (messageId : ByteVec 16) (ordinal : UInt16) (counter : UInt8)

/-- The domain that stands in front. -/
def MacArgument.domain : MacArgument → List UInt8
  | .fingerprint _ _ => fingerprintDomain
  | .lookup _ _ _ => lookupDomain
  | .jitter _ _ _ _ => retryJitterDomain

/-- The id of its key. -/
def MacArgument.keyId : MacArgument → MacKeyId
  | .fingerprint keyId _ => keyId
  | .lookup keyId _ _ => keyId
  | .jitter keyId _ _ _ => keyId

/-- Its parts of any length. -/
def MacArgument.parts : MacArgument → List (List UInt8)
  | .fingerprint _ canonical => [canonical]
  | .lookup _ principal idempotencyKey => [principal, idempotencyKey]
  | .jitter _ _ _ _ => []

/-- They are shorter than 2^32 bytes. -/
def MacArgument.Short (argument : MacArgument) : Prop :=
  ∀ part ∈ argument.parts, part.length < 2 ^ 32

/-- The part of an input behind the key id. -/
def MacArgument.body : MacArgument → List UInt8
  | .jitter _ messageId ordinal counter => messageId.toList ++ (wire ordinal ++ [counter])
  | argument => framed 4 argument.parts

/-- The input that says it. -/
def MacArgument.bytes (argument : MacArgument) : List UInt8 :=
  argument.domain ++ argument.keyId.toList ++ argument.body

/-- What an operation may say to its provider; only retry jitter has a counter. -/
def MacOperation.argument (counter : UInt8) : MacOperation → MacArgument
  | .semanticFingerprint key canonical => .fingerprint key.keyId canonical
  | .lookupDigest key principal idempotencyKey => .lookup key.keyId principal idempotencyKey
  | .retryJitter request =>
    .jitter request.keyReference.keyId request.messageId request.completedAttemptOrdinal counter

/-- What is yielded for a tag. -/
def MacOperation.yieldOf (tag : VersionedTag) : MacOperation → MacYield
  | .semanticFingerprint _ _ => .tag tag
  | .lookupDigest _ _ _ => .tag tag
  | .retryJitter _ => .multiplier (UInt16.ofNat (500 + candidateOf tag % 1001))

theorem domains_separated :
    [fingerprintDomain, lookupDomain, retryJitterDomain].Pairwise
      fun domain domain' => ¬ domain <+: domain' ∧ ¬ domain' <+: domain := by
  decide +kernel

/-- Arguments of two operations are told apart by their domains. -/
theorem MacArgument.bytes_ne {a b : MacArgument}
    (h : ¬ a.domain <+: b.domain ∧ ¬ b.domain <+: a.domain) : a.bytes ≠ b.bytes := by
  unfold MacArgument.bytes
  rw [List.append_assoc, List.append_assoc]
  exact append_ne_append h.1 h.2 _ _

/-- Behind one domain, the key id and the body are read off. -/
theorem MacArgument.bytes_inj {a b : MacArgument} (h : a.bytes = b.bytes)
    (hdomain : a.domain = b.domain) : a.keyId = b.keyId ∧ a.body = b.body := by
  unfold MacArgument.bytes at h
  obtain ⟨hkey, hbody⟩ := List.append_inj h (by simp [hdomain])
  rw [hdomain] at hkey
  exact ⟨List.Vector.toList_injective (List.append_cancel_left hkey), hbody⟩

theorem MacArgument.Short.parts {argument : MacArgument} (h : argument.Short) :
    Framing.Short 4 argument.parts := fun part hpart => h part hpart

/-- Inputs that say different things are different. -/
theorem MacArgument.bytes_injective {a b : MacArgument} (ha : a.Short) (hb : b.Short)
    (h : a.bytes = b.bytes) : a = b := by
  have hdomains := domains_separated
  simp only [List.pairwise_cons, List.mem_cons, List.not_mem_nil, or_false, forall_eq_or_imp,
    forall_eq, IsEmpty.forall_iff, implies_true, List.Pairwise.nil, and_true] at hdomains
  obtain ⟨⟨hfl, hfj⟩, hlj⟩ := hdomains
  -- the domain separates the kinds; within a kind the framing separates the parts
  cases a with
  | fingerprint keyId canonical =>
    cases b with
    | fingerprint keyId' canonical' =>
      obtain ⟨hkey, hbody⟩ := MacArgument.bytes_inj h rfl
      have hparts := framed_injective (by decide) ha.parts hb.parts hbody
      simp only [MacArgument.keyId] at hkey
      simp only [MacArgument.parts, List.cons.injEq, and_true] at hparts
      rw [hkey, hparts]
    | lookup _ _ _ => exact absurd h (MacArgument.bytes_ne hfl)
    | jitter _ _ _ _ => exact absurd h (MacArgument.bytes_ne hfj)
  | lookup keyId principal idempotencyKey =>
    cases b with
    | fingerprint _ _ => exact absurd h (MacArgument.bytes_ne hfl.symm)
    | lookup keyId' principal' idempotencyKey' =>
      obtain ⟨hkey, hbody⟩ := MacArgument.bytes_inj h rfl
      have hparts := framed_injective (by decide) ha.parts hb.parts hbody
      simp only [MacArgument.keyId] at hkey
      simp only [MacArgument.parts, List.cons.injEq, and_true] at hparts
      rw [hkey, hparts.1, hparts.2]
    | jitter _ _ _ _ => exact absurd h (MacArgument.bytes_ne hlj)
  | jitter keyId messageId ordinal counter =>
    cases b with
    | fingerprint _ _ => exact absurd h (MacArgument.bytes_ne hfj.symm)
    | lookup _ _ _ => exact absurd h (MacArgument.bytes_ne hlj.symm)
    | jitter keyId' messageId' ordinal' counter' =>
      obtain ⟨hkey, hbody⟩ := MacArgument.bytes_inj h rfl
      simp only [MacArgument.keyId] at hkey
      obtain ⟨hmessage, hrest⟩ := List.append_inj hbody (by simp)
      obtain ⟨hordinal, hcounter⟩ := List.append_inj hrest (by simp)
      simp only [List.cons.injEq, and_true] at hcounter
      rw [hkey, List.Vector.toList_injective hmessage, wire_injective hordinal, hcounter]

/-- What an operation does with its provider: the calls say what the operation is asked to
authenticate, and a result rests on one of their tags. -/
def MacOperation.Sound (operation : MacOperation) (calls : List MacCall)
    (outcome : Option MacYield × List MacCall) : Prop :=
  ∃ new, outcome.2 = calls ++ new ∧
    (∀ made ∈ new, made.key = operation.key ∧ operation.key.purpose = operation.purpose ∧
      ∃ counter, (operation.argument counter).Short ∧
        made.input = (operation.argument counter).bytes) ∧
    ∀ result, outcome.1 = some result → operation.key.purpose = operation.purpose ∧
      ∃ made ∈ new, ∃ tag, made.answer = .ok tag ∧ tag.key = operation.key ∧
        result = operation.yieldOf tag

/-- The two idempotency operations. -/
theorem authenticateIdempotency_sound {provider : MacProvider} {calls : List MacCall}
    {operation : MacOperation} {domain : List UInt8} {parts : List (List UInt8)}
    (hyield : ∀ tag, operation.yieldOf tag = .tag tag)
    (hargument : ∀ counter, Framing.Short 4 parts → (operation.argument counter).Short ∧
      (operation.argument counter).bytes = domain ++ operation.key.keyId.toList ++ framed 4 parts) :
    operation.Sound calls
      (tagYield (authenticateIdempotency provider operation.key operation.purpose domain parts
          calls).1,
        (authenticateIdempotency provider operation.key operation.purpose domain parts calls).2) := by
  rcases authenticateIdempotency_cases provider operation.key operation.purpose domain parts calls
    with ⟨e, h⟩ | ⟨hpurpose, hshort, made, hkey, hinput, hcase⟩
  · rw [h]
    exact ⟨[], (List.append_nil _).symm, by simp, nofun⟩
  · have hmade : ∀ m ∈ [made], m.key = operation.key ∧ operation.key.purpose = operation.purpose ∧
        ∃ counter, (operation.argument counter).Short ∧
          m.input = (operation.argument counter).bytes := by
      intro m hm
      obtain rfl := List.mem_singleton.1 hm
      obtain ⟨hfits, hbytes⟩ := hargument 0 hshort
      exact ⟨hkey, hpurpose, 0, hfits, hinput.trans hbytes.symm⟩
    rcases hcase with ⟨e, h⟩ | ⟨tag, hanswer, htag, h⟩
    · rw [h]
      exact ⟨[made], rfl, hmade, nofun⟩
    · rw [h]
      refine ⟨[made], rfl, hmade, ?_⟩
      intro result hresult
      refine ⟨hpurpose, made, List.mem_singleton.2 rfl, tag, hanswer, htag, ?_⟩
      rw [hyield, ← Option.some.inj hresult]

theorem MacOperation.perform_sound (provider : MacProvider) (calls : List MacCall)
    (operation : MacOperation) : operation.Sound calls (operation.perform provider calls) := by
  cases operation with
  | semanticFingerprint key canonical =>
    refine @authenticateIdempotency_sound provider calls (.semanticFingerprint key canonical) _ _
      (fun _ => rfl) ?_
    exact fun counter hshort => ⟨fun part hpart => hshort part hpart, rfl⟩
  | lookupDigest key principal idempotencyKey =>
    refine @authenticateIdempotency_sound provider calls
      (.lookupDigest key principal idempotencyKey) _ _ (fun _ => rfl) ?_
    exact fun counter hshort => ⟨fun part hpart => hshort part hpart, rfl⟩
  | retryJitter request =>
    unfold MacOperation.perform deriveRetryJitter
    simp only
    split_ifs with hinvalid
    · exact ⟨[], (List.append_nil _).symm, by simp, nofun⟩
    simp only [not_or, ne_eq, not_not] at hinvalid
    obtain ⟨-, -, hpurpose, -⟩ := hinvalid
    obtain ⟨new, hnew, hinputs, hyield⟩ := deriveFrom_spec provider request counters calls
    refine ⟨new, hnew, ?_, ?_⟩
    · intro made hmade
      obtain ⟨hkey, counter, hinput⟩ := hinputs made hmade
      refine ⟨hkey, hpurpose, counter, nofun, hinput.trans ?_⟩
      simp [framedInput, MacOperation.argument, MacArgument.bytes, MacArgument.domain,
        MacArgument.keyId, MacArgument.body]
    · intro result hresult
      cases houtcome : (deriveFrom provider request counters calls).1 with
      | multiplierMilli multiplier =>
        simp only [houtcome, jitterYield, Option.some.injEq] at hresult
        obtain ⟨made, hmade, tag, hanswer, hkey, hmultiplier⟩ := hyield multiplier houtcome
        refine ⟨hpurpose, made, hmade, tag, hanswer, hkey, ?_⟩
        rw [← hresult, hmultiplier]
        rfl
      | invalidDerivation => simp [houtcome, jitterYield] at hresult
      | unavailable => simp [houtcome, jitterYield] at hresult

/-- MAC inputs are domain-separated and injective, and a result needs a key of the right purpose and
a tag of exactly that key, whatever the provider does. -/
theorem mac_inputs_separated :
    (∀ a b : MacArgument, a.Short → b.Short → a.bytes = b.bytes → a = b) ∧
      ∀ (provider : MacProvider) (calls : List MacCall) (operation : MacOperation),
        operation.Sound calls (operation.perform provider calls) :=
  ⟨fun _ _ => MacArgument.bytes_injective, MacOperation.perform_sound⟩

end MsgRiver.Core
