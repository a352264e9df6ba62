import MsgRiver.Lib.Ascii
import MsgRiver.Lib.Framing

/-!
# MAC inputs

The core never sees key material: it hands a key reference and a framed input to a provider, which
answers with a tag and the key that it is attributed to.

A provider is a function of the calls made so far, so that it may answer as it likes; an operation
returns its result and the calls.
-/

namespace MsgRiver.Core

open Bytes Ascii Framing

/-- What a MAC key is for. -/
inductive MacPurpose
  | apiKeyVerifyV1
  | idempotencyLookupV1
  | idempotencyFingerprintV1
  | replayLookupV1
  | replayFingerprintV1
  | commandLookupV1
  | commandSemanticFingerprintV1
  | commandPhaseFingerprintV1
  | retryJitterV1
  | artifactInternalAuthV1
  | portableReservationV1
  deriving DecidableEq

namespace MacPurpose

/-- The byte of a purpose in encodings. -/
def code : MacPurpose → UInt8
  | .apiKeyVerifyV1 => 1
  | .idempotencyLookupV1 => 2
  | .idempotencyFingerprintV1 => 3
  | .replayLookupV1 => 4
  | .replayFingerprintV1 => 5
  | .commandLookupV1 => 6
  | .commandSemanticFingerprintV1 => 7
  | .commandPhaseFingerprintV1 => 8
  | .retryJitterV1 => 9
  | .artifactInternalAuthV1 => 10
  | .portableReservationV1 => 11

/-- The purposes, in the order of their codes. -/
def all : List MacPurpose :=
  [.apiKeyVerifyV1, .idempotencyLookupV1, .idempotencyFingerprintV1, .replayLookupV1,
    .replayFingerprintV1, .commandLookupV1, .commandSemanticFingerprintV1,
    .commandPhaseFingerprintV1, .retryJitterV1, .artifactInternalAuthV1, .portableReservationV1]

end MacPurpose

/-- The public identity of a MAC key. -/
abbrev MacKeyId := ByteVec 40

/-- A key identity with its purpose. -/
structure MacKeyRef where
  purpose : MacPurpose
  keyId : MacKeyId
  deriving DecidableEq

/-- A tag with the key reference that it is attributed to. -/
structure VersionedTag where
  key : MacKeyRef
  tag : ByteVec 32
  deriving DecidableEq

/-- Why a MAC is refused. -/
inductive MacProviderError
  | purposeMismatch
  | inputTooLong
  | returnedMismatchedKey
  | unavailable
  deriving DecidableEq

/-- One call of `MacProvider::authenticate`, and its answer. -/
structure MacCall where
  key : MacKeyRef
  input : List UInt8
  answer : Except MacProviderError VersionedTag

/-- What a provider answers after the calls in the list. -/
abbrev MacProvider := List MacCall → MacKeyRef → List UInt8 → Except MacProviderError VersionedTag

/-- The next call. -/
def call (provider : MacProvider) (calls : List MacCall) (key : MacKeyRef) (input : List UInt8) :
    MacCall := ⟨key, input, provider calls key input⟩

/-- The domain of the fingerprint inputs. -/
def fingerprintDomain : List UInt8 := codes ("msgriver-idempotency-fingerprint-v1".toList ++ ['\x00'])

/-- The domain of the lookup inputs. -/
def lookupDomain : List UInt8 := codes ("msgriver-idempotency-lookup-v1".toList ++ ['\x00'])

/-- The shared path of both functions: the purpose is checked first, then the provider is called on
the domain and the parts. -/
def authenticateIdempotency (provider : MacProvider) (key : MacKeyRef)
    (expectedPurpose : MacPurpose) (domain : List UInt8) (parts : List (List UInt8))
    (calls : List MacCall) : Except MacProviderError VersionedTag × List MacCall :=
  if key.purpose ≠ expectedPurpose then (.error .purposeMismatch, calls)
  else
    match parts.foldlM (appendPart UInt32) (domain ++ key.keyId.toList) with
    | none => (.error .inputTooLong, calls)
    | some input =>
      let made := call provider calls key input
      match made.answer with
      | .error e => (.error e, calls ++ [made])
      | .ok result =>
        if result.key ≠ key then (.error .returnedMismatchedKey, calls ++ [made])
        else (.ok result, calls ++ [made])

/-- The fingerprint of a canonical request. -/
def semanticFingerprintV1WithProvider (provider : MacProvider) (key : MacKeyRef)
    (canonical : List UInt8) (calls : List MacCall) :
    Except MacProviderError VersionedTag × List MacCall :=
  authenticateIdempotency provider key .idempotencyFingerprintV1 fingerprintDomain [canonical] calls

/-- The lookup digest of an idempotency key of a principal. -/
def lookupDigestV1WithProvider (provider : MacProvider) (key : MacKeyRef)
    (principal idempotencyKey : List UInt8) (calls : List MacCall) :
    Except MacProviderError VersionedTag × List MacCall :=
  authenticateIdempotency provider key .idempotencyLookupV1 lookupDomain
    [principal, idempotencyKey] calls

/-- A key with another purpose is not used, nor is one part too long; otherwise there is one call,
and its tag is returned when the provider attributes it to the key. -/
theorem authenticateIdempotency_cases (provider : MacProvider) (key : MacKeyRef)
    (expectedPurpose : MacPurpose) (domain : List UInt8) (parts : List (List UInt8))
    (calls : List MacCall) :
    (∃ e, authenticateIdempotency provider key expectedPurpose domain parts calls =
      (.error e, calls)) ∨
    key.purpose = expectedPurpose ∧ Short 4 parts ∧
      ∃ made : MacCall, made.key = key ∧
        made.input = domain ++ key.keyId.toList ++ framed 4 parts ∧
        ((∃ e, authenticateIdempotency provider key expectedPurpose domain parts calls =
            (.error e, calls ++ [made])) ∨
          ∃ tag, made.answer = .ok tag ∧ tag.key = key ∧
            authenticateIdempotency provider key expectedPurpose domain parts calls =
              (.ok tag, calls ++ [made])) := by
  unfold authenticateIdempotency
  by_cases hpurpose : key.purpose = expectedPurpose
  swap
  · exact Or.inl ⟨_, if_pos hpurpose⟩
  rw [if_neg (not_not.2 hpurpose)]
  cases hinput : parts.foldlM (appendPart UInt32) (domain ++ key.keyId.toList) with
  | none => exact Or.inl ⟨_, rfl⟩
  | some input =>
    obtain ⟨hshort, rfl⟩ := foldlM_appendPart.1 hinput
    refine Or.inr ⟨hpurpose, hshort, call provider calls key _, rfl, rfl, ?_⟩
    simp only
    cases hanswer : (call provider calls key _).answer with
    | error e => exact Or.inl ⟨e, rfl⟩
    | ok tag =>
      by_cases hkey : tag.key = key
      · exact Or.inr ⟨tag, rfl, hkey, if_neg (not_not.2 hkey)⟩
      · exact Or.inl ⟨_, if_pos hkey⟩

end MsgRiver.Core
