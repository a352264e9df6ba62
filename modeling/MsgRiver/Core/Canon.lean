import MsgRiver.Core.Bounded
import MsgRiver.Lib.Framing
import MsgRiver.Lib.SortDedup

/-!
# The canonical request

`canonical_request_v1` turns a semantic request into the bytes that idempotency fingerprints are
computed over.  Two layouts exist: the legacy form of the frozen vectors, which is tried first, and
the form of three schema segments, for two admitted profiles.

* `canonicalRequestV1_congr`: the option fields behind the first count as a set;
* `legacy_injective`, `segments_injective`: what equal bytes say about the requests;
* `legacy_ne_segments`: the two forms have no bytes in common.
-/

namespace MsgRiver.Core.Canon

open Bytes Framing SortDedup Text Bounded

/-- What a submission means, as the fingerprint takes it: the destination, the content, the options,
the expiry and the correlation. -/
structure CanonicalInput where
  provider : List UInt8
  destinationKind : List UInt8
  destinationSchemaVersion : UInt32
  destinationFields : List (List UInt8)
  contentKind : List UInt8
  contentSchemaVersion : UInt32
  contentFields : List (List UInt8)
  optionsKind : Option (List UInt8)
  optionsSchemaVersion : Option UInt32
  optionsFields : List (List UInt8)
  optionsSetLike : Bool
  expiresAtMillis : Option Int64
  correlationId : Option (List UInt8)
  deriving DecidableEq

/-! ### Texts -/

/-- `msgriver-request` and a zero byte. -/
def requestTag : List UInt8 :=
  [0x6d, 0x73, 0x67, 0x72, 0x69, 0x76, 0x65, 0x72, 0x2d, 0x72, 0x65, 0x71, 0x75, 0x65, 0x73, 0x74,
    0x00]

/-- `ntfy`. -/
def ntfy : List UInt8 := [0x6e, 0x74, 0x66, 0x79]

/-- `ntfy_topic`. -/
def ntfyTopic : List UInt8 := [0x6e, 0x74, 0x66, 0x79, 0x5f, 0x74, 0x6f, 0x70, 0x69, 0x63]

/-- `text`. -/
def text : List UInt8 := [0x74, 0x65, 0x78, 0x74]

/-- `default`. -/
def defaultPriority : List UInt8 := [0x64, 0x65, 0x66, 0x61, 0x75, 0x6c, 0x74]

/-- `alerts`. -/
def alerts : List UInt8 := [0x61, 0x6c, 0x65, 0x72, 0x74, 0x73]

/-- `hello`. -/
def hello : List UInt8 := [0x68, 0x65, 0x6c, 0x6c, 0x6f]

/-- `apple`, `mango` and `zebra`. -/
def transitionTags : List (List UInt8) :=
  [[0x61, 0x70, 0x70, 0x6c, 0x65], [0x6d, 0x61, 0x6e, 0x67, 0x6f], [0x7a, 0x65, 0x62, 0x72, 0x61]]

/-- `msgriver://schema/ntfy-topic/1`. -/
def topicSchema : List UInt8 :=
  [0x6d, 0x73, 0x67, 0x72, 0x69, 0x76, 0x65, 0x72, 0x3a, 0x2f, 0x2f, 0x73, 0x63, 0x68, 0x65, 0x6d,
    0x61, 0x2f, 0x6e, 0x74, 0x66, 0x79, 0x2d, 0x74, 0x6f, 0x70, 0x69, 0x63, 0x2f, 0x31]

/-- `msgriver://schema/text/1`. -/
def textSchema : List UInt8 :=
  [0x6d, 0x73, 0x67, 0x72, 0x69, 0x76, 0x65, 0x72, 0x3a, 0x2f, 0x2f, 0x73, 0x63, 0x68, 0x65, 0x6d,
    0x61, 0x2f, 0x74, 0x65, 0x78, 0x74, 0x2f, 0x31]

/-- `msgriver://schema/ntfy-options/1`. -/
def optionsSchema : List UInt8 :=
  [0x6d, 0x73, 0x67, 0x72, 0x69, 0x76, 0x65, 0x72, 0x3a, 0x2f, 0x2f, 0x73, 0x63, 0x68, 0x65, 0x6d,
    0x61, 0x2f, 0x6e, 0x74, 0x66, 0x79, 0x2d, 0x6f, 0x70, 0x74, 0x69, 0x6f, 0x6e, 0x73, 0x2f, 0x31]

/-! ### Layout -/

/-- A nonempty run of bytes below 128. -/
def validAscii (value : List UInt8) : Bool := !value.isEmpty && value.all (· < 128)

/-- `len() as u32`, which keeps the low 32 bits. -/
def length32 {α : Type} (values : List α) : UInt32 := UInt32.ofNat values.length

/-- Bytes behind their length, in four bytes. -/
def lp32 (value : List UInt8) : List UInt8 := wire (length32 value) ++ value

/-- One segment of the encoding: its role, the identity of its schema and its payload. -/
def segment (role : UInt8) (schemaId kind : List UInt8) (schemaVersion : UInt32)
    (payload : List UInt8) : List UInt8 :=
  role :: (lp32 schemaId ++ lp32 kind ++ wire schemaVersion ++ lp32 payload)

/-! ### The legacy form -/

/-- The tags of the legacy form; the outer option is the `return None` of the source. -/
def legacyTags (input : CanonicalInput) : Option (Option (List (List UInt8))) :=
  if input.optionsKind = none ∧ input.optionsSchemaVersion = none ∧ input.optionsSetLike = false ∧
      input.optionsFields.isEmpty then
    some none
  else if input.optionsKind = some ntfy ∧ input.optionsSchemaVersion = some 1 ∧
      input.optionsSetLike = true ∧ !input.optionsFields.isEmpty ∧
      input.optionsFields.all validAscii then
    some (some (sortDedup input.optionsFields))
  else none

/-- The options of the legacy form, behind a byte that says whether there are any. -/
def legacyOptions : Option (List (List UInt8)) → List UInt8
  | none => [0]
  | some tags =>
    1 :: (lp32 ntfy ++ wire (4 : UInt32) ++ wire (1 : UInt32) ++ wire (length32 tags) ++
      tags.flatMap lp32)

/-- The encoding of the inputs that the first form covers. -/
def legacyCanonicalRequestV1 (input : CanonicalInput) : Option (List UInt8) :=
  if input.expiresAtMillis.isSome ∨ input.correlationId.isSome ∨ input.provider ≠ ntfy ∨
      input.destinationKind ≠ ntfyTopic ∨ input.destinationSchemaVersion ≠ 1 ∨
      input.contentKind ≠ text ∨ input.contentSchemaVersion ≠ 1 ∨
      input.destinationFields.length ≠ 1 ∨ input.contentFields.length ≠ 2 ∨
      ¬ input.destinationFields.all validAscii ∨ ¬ input.contentFields.all validAscii then
    none
  else
    (legacyTags input).map fun tags =>
      requestTag ++ [1] ++ lp32 input.provider ++ lp32 input.destinationKind ++
        wire (4 : UInt32) ++ wire input.destinationSchemaVersion ++ wire (1 : UInt32) ++
        lp32 (input.destinationFields.getD 0 []) ++ lp32 input.contentKind ++ wire (4 : UInt32) ++
        wire input.contentSchemaVersion ++ wire (2 : UInt32) ++ input.contentFields.flatMap lp32 ++
        legacyOptions tags ++ [0, 0]

/-! ### The form of schema segments -/

/-- The options are the default priority and the transition tags, in any order. -/
def normalizedTransitionTags (input : CanonicalInput) : Bool :=
  if input.optionsKind ≠ some ntfy ∨ input.optionsSchemaVersion ≠ some 1 ∨
      input.optionsSetLike = false ∨ input.optionsFields.head? ≠ some defaultPriority then
    false
  else sortDedup (input.optionsFields.drop 1) == transitionTags

/-- The inputs that the second form covers. -/
def admittedFirstSliceProfile (input : CanonicalInput) : Bool :=
  let richS11 := input.expiresAtMillis.isSome && input.correlationId.isSome &&
    input.optionsKind == some ntfy && input.optionsSchemaVersion == some 1 && input.optionsSetLike
  let transitionOptions := (input.optionsKind.isNone && input.optionsSchemaVersion.isNone &&
    !input.optionsSetLike && input.optionsFields.isEmpty) || normalizedTransitionTags input
  let transition := input.destinationFields == [alerts] && input.contentFields == [hello] &&
    input.expiresAtMillis.isNone && input.correlationId.isNone && transitionOptions
  richS11 || transition

/-- The payload of an ntfy topic. -/
def destinationPayload (input : CanonicalInput) : Option (List UInt8) :=
  match input.destinationFields with
  | [field] =>
    if input.provider ≠ ntfy ∨ input.destinationKind ≠ ntfyTopic ∨
        input.destinationSchemaVersion ≠ 1 ∨ ¬ validAscii field then
      none
    else some (lp32 field)
  | _ => none

/-- The title, behind a byte that says whether there is one. -/
def titlePayload : Option (List UInt8) → List UInt8
  | none => [0]
  | some title => 1 :: lp32 title

/-- The payload of a title and a text that are valid. -/
def textPayload (title : Option (List UInt8)) (body : List UInt8) : Option (List UInt8) :=
  if body.isEmpty ∨ decodeUtf8 body = none ∨ title.any (fun value => (decodeUtf8 value).isNone) then
    none
  else some (titlePayload title ++ lp32 body)

/-- The payload of a text, with or without a title. -/
def contentPayload (input : CanonicalInput) : Option (List UInt8) :=
  if input.contentKind ≠ text ∨ input.contentSchemaVersion ≠ 1 then none
  else
    match input.contentFields with
    | [body] => textPayload none body
    | [title, body] => textPayload (some title) body
    | _ => none

/-- The priority and the tags that the options name. -/
def optionFields (input : CanonicalInput) : Option (List UInt8 × List (List UInt8)) :=
  if input.optionsKind = none ∧ input.optionsSchemaVersion = none ∧ input.optionsSetLike = false ∧
      input.optionsFields.isEmpty then
    some (defaultPriority, [])
  else if input.optionsKind = some ntfy ∧ input.optionsSchemaVersion = some 1 ∧
      input.optionsSetLike = true then
    match input.optionsFields with
    | [] => none
    | priority :: tags => some (priority, tags)
  else none

/-- The priority and the counted tags. -/
def tagsPayload (priority : List UInt8) (tags : List (List UInt8)) : List UInt8 :=
  lp32 priority ++ wire (length32 tags) ++ tags.flatMap lp32

/-- The options with the tags sorted and without duplicates. -/
def optionsPayload (input : CanonicalInput) : Option (List UInt8) :=
  (optionFields input).bind fun (priority, tags) =>
    if ¬ validAscii priority ∨ tags.any (fun tag => !validAscii tag) then none
    else some (tagsPayload priority (sortDedup tags))

/-- The expiry, behind a byte that says whether there is one. -/
def expiryBytes : Option Int64 → List UInt8
  | none => [0]
  | some value => 1 :: wire value

/-- The correlation id, behind a byte that says whether there is one. -/
def correlationBytes : Option (List UInt8) → List UInt8
  | none => [0]
  | some value => 1 :: lp32 value

/-- The end of the encoding. -/
def trailer (input : CanonicalInput) : List UInt8 :=
  expiryBytes input.expiresAtMillis ++ correlationBytes input.correlationId

/-- The answer for an input that neither form covers. -/
def encodeFrontier : Except CoreError (List UInt8) := .error (.scaffold .canonicalEncode)

/-- The three segments, with what stands before and behind them. -/
def segments (destination content options : List UInt8) (input : CanonicalInput) : List UInt8 :=
  requestTag ++ wire (1 : UInt32) ++ lp32 ntfy ++
    segment 1 topicSchema ntfyTopic 1 destination ++ segment 2 textSchema text 1 content ++
    [1] ++ segment 3 optionsSchema ntfy 1 options ++ trailer input

/-- The bytes that the fingerprint of a request is made of. -/
def canonicalRequestV1 (input : CanonicalInput) : Except CoreError (List UInt8) :=
  match legacyCanonicalRequestV1 input with
  | some encoded => .ok encoded
  | none =>
    if !admittedFirstSliceProfile input then encodeFrontier
    else
      match destinationPayload input, contentPayload input, optionsPayload input with
      | some destination, some content, some options =>
        if input.correlationId.any fun value => !validAscii value then encodeFrontier
        else .ok (segments destination content options input)
      | _, _, _ => encodeFrontier

/-! ### Parts behind their lengths -/

theorem wire_length32 {α : Type} (values : List α) :
    wire (length32 values) = digits 4 values.length := by
  show digits 4 (UInt32.ofNat values.length).toNat = _
  rw [UInt32.toNat_ofNat']
  exact digits_mod 4 values.length

theorem lp32_eq_framed (value : List UInt8) : lp32 value = framed 4 [value] := by
  rw [lp32, wire_length32]
  simp

theorem flatMap_lp32 (values : List (List UInt8)) : values.flatMap lp32 = framed 4 values := by
  unfold framed
  congr 1
  funext value
  rw [lp32, wire_length32]

/-- A value shorter than 2^32 bytes ends where its prefix says. -/
theorem lp32_append_inj {value value' rest rest' : List UInt8} (h : value.length < 2 ^ 32)
    (h' : value'.length < 2 ^ 32) (heq : lp32 value ++ rest = lp32 value' ++ rest') :
    value = value' ∧ rest = rest' := by
  rw [lp32_eq_framed, lp32_eq_framed] at heq
  exact framed_singleton_append_inj h h' heq

/-- Without the bound the prefix may be cut, but it has four bytes. -/
theorem append_of_lp32 {payload payload' rest rest' : List UInt8}
    (heq : lp32 payload ++ rest = lp32 payload' ++ rest') :
    payload ++ rest = payload' ++ rest' := by
  rw [lp32, lp32, List.append_assoc, List.append_assoc] at heq
  exact (List.append_inj heq (by simp)).2

theorem sortDedup_nil : sortDedup ([] : List (List UInt8)) = [] := by
  rw [sortDedup, List.mergeSort_nil]
  rfl

/-! ### The option fields are a set -/

theorem all_congr {α : Type} {p : α → Bool} {xs ys : List α} (h : ∀ x, x ∈ xs ↔ x ∈ ys) :
    xs.all p = ys.all p := by
  rw [Bool.eq_iff_iff, List.all_eq_true, List.all_eq_true]
  exact forall_congr' fun x => by rw [h x]

theorem any_congr {α : Type} {p : α → Bool} {xs ys : List α} (h : ∀ x, x ∈ xs ↔ x ∈ ys) :
    xs.any p = ys.any p := by
  rw [Bool.eq_iff_iff, List.any_eq_true, List.any_eq_true]
  exact exists_congr fun x => by rw [h x]

section SetLike

variable (input : CanonicalInput) (first : List UInt8) {rest rest' : List (List UInt8)}

theorem legacyTags_congr (h : ∀ field, field ∈ rest ↔ field ∈ rest') :
    legacyTags { input with optionsFields := first :: rest } =
      legacyTags { input with optionsFields := first :: rest' } := by
  have hall : ∀ field, field ∈ first :: rest ↔ field ∈ first :: rest' := by
    intro field
    rw [List.mem_cons, List.mem_cons, h field]
  have hsort : sortDedup (first :: rest) = sortDedup (first :: rest') := sortDedup_eq_iff.2 hall
  have hvalid : (first :: rest).all validAscii = (first :: rest').all validAscii := all_congr hall
  simp only [legacyTags, hsort, hvalid, List.isEmpty_cons]

theorem optionsPayload_congr (h : ∀ field, field ∈ rest ↔ field ∈ rest') :
    optionsPayload { input with optionsFields := first :: rest } =
      optionsPayload { input with optionsFields := first :: rest' } := by
  have hsort : sortDedup rest = sortDedup rest' := sortDedup_eq_iff.2 h
  have hinvalid : rest.any (fun tag => !validAscii tag) = rest'.any fun tag => !validAscii tag :=
    any_congr h
  simp only [optionsPayload, optionFields, List.isEmpty_cons, Bool.false_eq_true, and_false,
    if_false]
  by_cases hnamed : input.optionsKind = some ntfy ∧ input.optionsSchemaVersion = some 1 ∧
      input.optionsSetLike = true
  · rw [if_pos hnamed, if_pos hnamed]
    simp only [Option.bind_some, hsort, hinvalid]
  · rw [if_neg hnamed, if_neg hnamed]

theorem admittedFirstSliceProfile_congr (h : ∀ field, field ∈ rest ↔ field ∈ rest') :
    admittedFirstSliceProfile { input with optionsFields := first :: rest } =
      admittedFirstSliceProfile { input with optionsFields := first :: rest' } := by
  have hsort : sortDedup rest = sortDedup rest' := sortDedup_eq_iff.2 h
  simp only [admittedFirstSliceProfile, normalizedTransitionTags, List.isEmpty_cons,
    List.head?_cons, List.drop_succ_cons, List.drop_zero, hsort]

/-- The result depends on the option fields behind the first only as a set. -/
theorem canonicalRequestV1_congr (h : ∀ field, field ∈ rest ↔ field ∈ rest') :
    canonicalRequestV1 { input with optionsFields := first :: rest } =
      canonicalRequestV1 { input with optionsFields := first :: rest' } := by
  have hlegacy : legacyCanonicalRequestV1 { input with optionsFields := first :: rest } =
      legacyCanonicalRequestV1 { input with optionsFields := first :: rest' } := by
    unfold legacyCanonicalRequestV1
    rw [legacyTags_congr input first h]
  unfold canonicalRequestV1
  rw [hlegacy, admittedFirstSliceProfile_congr input first h, optionsPayload_congr input first h]
  rfl

end SetLike

/-! ### The legacy form -/

/-- What the legacy form makes of the fields. -/
def legacyBytes (topic title body : List UInt8) (tags : Option (List (List UInt8))) : List UInt8 :=
  (requestTag ++ [1] ++ lp32 ntfy ++ lp32 ntfyTopic ++ wire (4 : UInt32) ++ wire (1 : UInt32) ++
    wire (1 : UInt32)) ++ (lp32 topic ++ ((lp32 text ++ wire (4 : UInt32) ++ wire (1 : UInt32) ++
    wire (2 : UInt32)) ++ (lp32 title ++ (lp32 body ++ (legacyOptions tags ++ [0, 0])))))

/-- A request of the legacy form, and its fields. -/
structure LegacyForm (input : CanonicalInput) (topic title body : List UInt8)
    (tags : Option (List (List UInt8))) : Prop where
  provider : input.provider = ntfy
  destinationKind : input.destinationKind = ntfyTopic
  destinationSchemaVersion : input.destinationSchemaVersion = 1
  destinationFields : input.destinationFields = [topic]
  contentKind : input.contentKind = text
  contentSchemaVersion : input.contentSchemaVersion = 1
  contentFields : input.contentFields = [title, body]
  tags_eq : legacyTags input = some tags
  expiresAtMillis : input.expiresAtMillis = none
  correlationId : input.correlationId = none

theorem legacyForm_of_some {input : CanonicalInput} {bytes : List UInt8}
    (h : legacyCanonicalRequestV1 input = some bytes) :
    ∃ topic title body tags, LegacyForm input topic title body tags ∧
      bytes = legacyBytes topic title body tags := by
  unfold legacyCanonicalRequestV1 at h
  split at h
  · cases h
  · rename_i hshape
    push Not at hshape
    obtain ⟨hexpires, hcorrelation, hprovider, hkind, hversion, hcontent, hcontentVersion, hfields,
      hcontentFields, -, -⟩ := hshape
    obtain ⟨topic, htopic⟩ := List.length_eq_one_iff.1 hfields
    obtain ⟨title, body, hbody⟩ := List.length_eq_two.1 hcontentFields
    obtain ⟨tags, htags, rfl⟩ := Option.map_eq_some_iff.1 h
    refine ⟨topic, title, body, tags, ⟨hprovider, hkind, hversion, htopic, hcontent,
      hcontentVersion, hbody, htags, by simpa using hexpires, by simpa using hcorrelation⟩, ?_⟩
    rw [hprovider, hkind, hversion, htopic, hcontent, hcontentVersion, hbody, legacyBytes]
    simp

/-- Every byte field is shorter than 2^32 bytes. -/
structure CanonicalInput.Short (input : CanonicalInput) : Prop where
  provider : input.provider.length < 2 ^ 32
  destinationKind : input.destinationKind.length < 2 ^ 32
  destinationFields : ∀ field ∈ input.destinationFields, field.length < 2 ^ 32
  contentKind : input.contentKind.length < 2 ^ 32
  contentFields : ∀ field ∈ input.contentFields, field.length < 2 ^ 32
  optionsKind : ∀ kind ∈ input.optionsKind, kind.length < 2 ^ 32
  optionsFields : ∀ field ∈ input.optionsFields, field.length < 2 ^ 32
  correlationId : ∀ value ∈ input.correlationId, value.length < 2 ^ 32

/-- Two requests with everything in common but the option fields. -/
structure CanonicalInput.Agree (a b : CanonicalInput) : Prop where
  provider : a.provider = b.provider
  destinationKind : a.destinationKind = b.destinationKind
  destinationSchemaVersion : a.destinationSchemaVersion = b.destinationSchemaVersion
  destinationFields : a.destinationFields = b.destinationFields
  contentKind : a.contentKind = b.contentKind
  contentSchemaVersion : a.contentSchemaVersion = b.contentSchemaVersion
  contentFields : a.contentFields = b.contentFields
  optionsKind : a.optionsKind = b.optionsKind
  optionsSchemaVersion : a.optionsSchemaVersion = b.optionsSchemaVersion
  optionsSetLike : a.optionsSetLike = b.optionsSetLike
  expiresAtMillis : a.expiresAtMillis = b.expiresAtMillis
  correlationId : a.correlationId = b.correlationId

theorem legacyTags_eq_none {input : CanonicalInput} (h : legacyTags input = some none) :
    input.optionsKind = none ∧ input.optionsSchemaVersion = none ∧ input.optionsSetLike = false ∧
      input.optionsFields = [] := by
  unfold legacyTags at h
  split at h
  · rename_i habsent
    simpa using habsent
  · split at h <;> cases h

theorem legacyTags_eq_some {input : CanonicalInput} {tags : List (List UInt8)}
    (h : legacyTags input = some (some tags)) :
    input.optionsKind = some ntfy ∧ input.optionsSchemaVersion = some 1 ∧
      input.optionsSetLike = true ∧ tags = sortDedup input.optionsFields := by
  unfold legacyTags at h
  split at h
  · cases h
  · split at h
    · rename_i hpresent
      cases h
      exact ⟨hpresent.1, hpresent.2.1, hpresent.2.2.1, rfl⟩
    · cases h

theorem short_sortDedup {fields : List (List UInt8)} (h : ∀ field ∈ fields, field.length < 2 ^ 32) :
    Framing.Short 4 (sortDedup fields) := by
  intro field hfield
  exact h field (mem_sortDedup.1 hfield)

/-- The tags can be read back from what they are written as. -/
theorem legacyOptions_injective {tags tags' : Option (List (List UInt8))}
    (h : ∀ values ∈ tags, Framing.Short 4 values) (h' : ∀ values ∈ tags', Framing.Short 4 values)
    (heq : legacyOptions tags = legacyOptions tags') : tags = tags' := by
  cases tags with
  | none =>
    cases tags' with
    | none => rfl
    | some values' => simp [legacyOptions] at heq
  | some values =>
    cases tags' with
    | none => simp [legacyOptions] at heq
    | some values' =>
      have hbytes := (List.cons.inj heq).2
      simp only [List.append_assoc, List.append_cancel_left_eq] at hbytes
      have htags := (List.append_inj hbytes (by simp)).2
      rw [flatMap_lp32, flatMap_lp32] at htags
      rw [framed_injective (by omega) (h values rfl) (h' values' rfl) htags]

/-- Equal bytes of the legacy form come from requests that differ in the order and the repetition of
their option fields at most. -/
theorem legacy_injective {a b : CanonicalInput} {bytes : List UInt8} (ha : a.Short) (hb : b.Short)
    (hlegacy : legacyCanonicalRequestV1 a = some bytes)
    (hlegacy' : legacyCanonicalRequestV1 b = some bytes) :
    a.Agree b ∧ ∀ field, field ∈ a.optionsFields ↔ field ∈ b.optionsFields := by
  obtain ⟨topic, title, body, tags, hform, rfl⟩ := legacyForm_of_some hlegacy
  obtain ⟨topic', title', body', tags', hform', heq⟩ := legacyForm_of_some hlegacy'
  have htopic : ∀ field ∈ [topic], field.length < 2 ^ 32 := hform.destinationFields ▸
    ha.destinationFields
  have htopic' : ∀ field ∈ [topic'], field.length < 2 ^ 32 := hform'.destinationFields ▸
    hb.destinationFields
  have hcontent : ∀ field ∈ [title, body], field.length < 2 ^ 32 := hform.contentFields ▸
    ha.contentFields
  have hcontent' : ∀ field ∈ [title', body'], field.length < 2 ^ 32 := hform'.contentFields ▸
    hb.contentFields
  have hshort : ∀ {input : CanonicalInput} {tags : Option (List (List UInt8))}, input.Short →
      legacyTags input = some tags → ∀ values ∈ tags, Framing.Short 4 values := by
    intro input tags hinput htags values hvalues
    rw [Option.mem_def] at hvalues
    subst hvalues
    rw [(legacyTags_eq_some htags).2.2.2]
    exact short_sortDedup hinput.optionsFields
  -- The fields come off the encoding one by one.
  obtain ⟨rfl, htitles⟩ := lp32_append_inj (htopic topic (by simp)) (htopic' topic' (by simp))
    (List.append_cancel_left heq)
  obtain ⟨rfl, hbodies⟩ := lp32_append_inj (hcontent title (by simp)) (hcontent' title' (by simp))
    (List.append_cancel_left htitles)
  obtain ⟨rfl, htags⟩ := lp32_append_inj (hcontent body (by simp)) (hcontent' body' (by simp))
    hbodies
  obtain rfl := legacyOptions_injective (hshort ha hform.tags_eq) (hshort hb hform'.tags_eq)
    (List.append_cancel_right htags)
  have hoptions : a.optionsKind = b.optionsKind ∧ a.optionsSchemaVersion = b.optionsSchemaVersion ∧
      a.optionsSetLike = b.optionsSetLike ∧
      ∀ field, field ∈ a.optionsFields ↔ field ∈ b.optionsFields := by
    cases tags with
    | none =>
      obtain ⟨hkind, hversion, hset, hfields⟩ := legacyTags_eq_none hform.tags_eq
      obtain ⟨hkind', hversion', hset', hfields'⟩ := legacyTags_eq_none hform'.tags_eq
      rw [hkind, hkind', hversion, hversion', hset, hset', hfields, hfields']
      exact ⟨rfl, rfl, rfl, fun _ => Iff.rfl⟩
    | some tags =>
      obtain ⟨hkind, hversion, hset, hfields⟩ := legacyTags_eq_some hform.tags_eq
      obtain ⟨hkind', hversion', hset', hfields'⟩ := legacyTags_eq_some hform'.tags_eq
      rw [hkind, hkind', hversion, hversion', hset, hset']
      exact ⟨rfl, rfl, rfl, sortDedup_eq_iff.1 (hfields.symm.trans hfields')⟩
  obtain ⟨hkind, hversion, hset, hfields⟩ := hoptions
  refine ⟨⟨?_, ?_, ?_, ?_, ?_, ?_, ?_, hkind, hversion, hset, ?_, ?_⟩, hfields⟩
  · rw [hform.provider, hform'.provider]
  · rw [hform.destinationKind, hform'.destinationKind]
  · rw [hform.destinationSchemaVersion, hform'.destinationSchemaVersion]
  · rw [hform.destinationFields, hform'.destinationFields]
  · rw [hform.contentKind, hform'.contentKind]
  · rw [hform.contentSchemaVersion, hform'.contentSchemaVersion]
  · rw [hform.contentFields, hform'.contentFields]
  · rw [hform.expiresAtMillis, hform'.expiresAtMillis]
  · rw [hform.correlationId, hform'.correlationId]

/-! ### The form of schema segments -/

/-- What stands before the payload of a segment. -/
def segmentHead (role : UInt8) (schemaId kind : List UInt8) : List UInt8 :=
  role :: (lp32 schemaId ++ lp32 kind ++ wire (1 : UInt32))

theorem segments_eq (destination content options : List UInt8) (input : CanonicalInput) :
    segments destination content options input =
      (requestTag ++ wire (1 : UInt32) ++ lp32 ntfy ++ segmentHead 1 topicSchema ntfyTopic) ++
        (lp32 destination ++ (segmentHead 2 textSchema text ++ (lp32 content ++
          ((1 :: segmentHead 3 optionsSchema ntfy) ++ (lp32 options ++ trailer input))))) := by
  simp [segments, segment, segmentHead]

/-- A request of the form of schema segments, and its fields. -/
structure SegmentForm (input : CanonicalInput) (topic : List UInt8) (title : Option (List UInt8))
    (body priority : List UInt8) (tags : List (List UInt8)) : Prop where
  provider : input.provider = ntfy
  destinationKind : input.destinationKind = ntfyTopic
  destinationSchemaVersion : input.destinationSchemaVersion = 1
  destinationFields : input.destinationFields = [topic]
  contentKind : input.contentKind = text
  contentSchemaVersion : input.contentSchemaVersion = 1
  contentFields : input.contentFields = title.toList ++ [body]
  fields_eq : optionFields input = some (priority, tags)
  admitted : admittedFirstSliceProfile input = true

theorem destinationPayload_eq_some {input : CanonicalInput} {payload : List UInt8}
    (h : destinationPayload input = some payload) :
    ∃ topic, input.provider = ntfy ∧ input.destinationKind = ntfyTopic ∧
      input.destinationSchemaVersion = 1 ∧ input.destinationFields = [topic] ∧
      payload = lp32 topic := by
  unfold destinationPayload at h
  split at h
  · rename_i topic hfields
    split at h
    · cases h
    · rename_i hshape
      push Not at hshape
      cases h
      exact ⟨topic, hshape.1, hshape.2.1, hshape.2.2.1, hfields, rfl⟩
  · cases h

theorem textPayload_eq_some {title : Option (List UInt8)} {body payload : List UInt8}
    (h : textPayload title body = some payload) : payload = titlePayload title ++ lp32 body := by
  unfold textPayload at h
  split at h
  · cases h
  · exact (Option.some.inj h).symm

theorem contentPayload_eq_some {input : CanonicalInput} {payload : List UInt8}
    (h : contentPayload input = some payload) :
    ∃ title body, input.contentKind = text ∧ input.contentSchemaVersion = 1 ∧
      input.contentFields = title.toList ++ [body] ∧ payload = titlePayload title ++ lp32 body := by
  unfold contentPayload at h
  split at h
  · cases h
  · rename_i hshape
    push Not at hshape
    split at h
    · rename_i body hfields
      exact ⟨none, body, hshape.1, hshape.2, hfields, textPayload_eq_some h⟩
    · rename_i title body hfields
      exact ⟨some title, body, hshape.1, hshape.2, hfields, textPayload_eq_some h⟩
    · cases h

theorem optionsPayload_eq_some {input : CanonicalInput} {payload : List UInt8}
    (h : optionsPayload input = some payload) :
    ∃ priority tags, optionFields input = some (priority, tags) ∧
      payload = tagsPayload priority (sortDedup tags) := by
  obtain ⟨⟨priority, tags⟩, hfields, h⟩ := Option.bind_eq_some_iff.1 h
  simp only at h
  split at h
  · cases h
  · exact ⟨priority, tags, hfields, (Option.some.inj h).symm⟩

theorem segmentForm_of_ok {input : CanonicalInput} {bytes : List UInt8}
    (hlegacy : legacyCanonicalRequestV1 input = none)
    (h : canonicalRequestV1 input = .ok bytes) :
    ∃ topic title body priority tags, SegmentForm input topic title body priority tags ∧
      bytes = segments (lp32 topic) (titlePayload title ++ lp32 body)
        (tagsPayload priority (sortDedup tags)) input := by
  unfold canonicalRequestV1 at h
  rw [hlegacy] at h
  simp only at h
  split at h
  · cases h
  · rename_i hadmitted
    split at h
    · rename_i destination content options hdestination hcontent hoptions
      obtain ⟨topic, hprovider, hkind, hversion, hfields, rfl⟩ :=
        destinationPayload_eq_some hdestination
      obtain ⟨title, body, hcontentKind, hcontentVersion, hcontentFields, rfl⟩ :=
        contentPayload_eq_some hcontent
      obtain ⟨priority, tags, hoptionFields, rfl⟩ := optionsPayload_eq_some hoptions
      split at h
      · cases h
      · cases h
        exact ⟨topic, title, body, priority, tags, ⟨hprovider, hkind, hversion, hfields,
          hcontentKind, hcontentVersion, hcontentFields, hoptionFields, by simpa using hadmitted⟩,
          rfl⟩
    · cases h

/-! ### Reading the segments back -/

theorem titlePayload_append_inj {title title' : Option (List UInt8)} {rest rest' : List UInt8}
    (h : ∀ value ∈ title, value.length < 2 ^ 32) (h' : ∀ value ∈ title', value.length < 2 ^ 32)
    (heq : titlePayload title ++ rest = titlePayload title' ++ rest') :
    title = title' ∧ rest = rest' := by
  cases title with
  | none =>
    cases title' with
    | none => exact ⟨rfl, (List.cons.inj heq).2⟩
    | some value' => simp [titlePayload] at heq
  | some value =>
    cases title' with
    | none => simp [titlePayload] at heq
    | some value' =>
      obtain ⟨rfl, hrest⟩ := lp32_append_inj (h value rfl) (h' value' rfl) (List.cons.inj heq).2
      exact ⟨rfl, hrest⟩

theorem expiryBytes_append_inj {expiry expiry' : Option Int64} {rest rest' : List UInt8}
    (heq : expiryBytes expiry ++ rest = expiryBytes expiry' ++ rest') :
    expiry = expiry' ∧ rest = rest' := by
  cases expiry with
  | none =>
    cases expiry' with
    | none => exact ⟨rfl, (List.cons.inj heq).2⟩
    | some value' => simp [expiryBytes] at heq
  | some value =>
    cases expiry' with
    | none => simp [expiryBytes] at heq
    | some value' =>
      obtain ⟨hwire, hrest⟩ := List.append_inj (List.cons.inj heq).2 (by simp)
      exact ⟨congrArg some (wire_injective hwire), hrest⟩

theorem correlationBytes_injective {value value' : Option (List UInt8)}
    (h : ∀ bytes ∈ value, bytes.length < 2 ^ 32) (h' : ∀ bytes ∈ value', bytes.length < 2 ^ 32)
    (heq : correlationBytes value = correlationBytes value') : value = value' := by
  have htitle : titlePayload value ++ [] = titlePayload value' ++ [] := by
    have hsame : ∀ bytes, correlationBytes bytes = titlePayload bytes := by
      intro bytes
      cases bytes <;> rfl
    rw [List.append_nil, List.append_nil, ← hsame, ← hsame, heq]
  exact (titlePayload_append_inj h h' htitle).1

theorem length_trailer {input : CanonicalInput} (h : input.Short) :
    (trailer input).length < 4 * 2 ^ 32 := by
  have hexpiry : (expiryBytes input.expiresAtMillis).length ≤ 9 := by
    cases input.expiresAtMillis <;> simp [expiryBytes]
  have hcorrelation : (correlationBytes input.correlationId).length < 5 + 2 ^ 32 := by
    cases hvalue : input.correlationId with
    | none => simp [correlationBytes]
    | some value =>
      have hshort := h.correlationId value hvalue
      simp only [correlationBytes, lp32, List.length_cons, List.length_append, length_wire_u32]
      omega
  rw [trailer, List.length_append]
  omega

/-- More tags than the count admits would not fit into what is left. -/
theorem more_eq_nil {count : ℕ} {more : List (List UInt8)} {rest rest' : List UInt8}
    (hcount : UInt32.ofNat (count + more.length) = UInt32.ofNat count)
    (hrest : rest = framed 4 more ++ rest') (hlength : rest.length < 4 * 2 ^ 32) : more = [] := by
  have hmod := congrArg UInt32.toNat hcount
  rw [UInt32.toNat_ofNat', UInt32.toNat_ofNat'] at hmod
  have hmore := length_framed_ge 4 more
  have htotal := congrArg List.length hrest
  rw [List.length_append] at htotal
  apply List.length_eq_zero_iff.1
  omega

theorem tagsPayload_append_inj {priority priority' : List UInt8} {tags tags' : List (List UInt8)}
    {rest rest' : List UInt8} (hpriority : priority.length < 2 ^ 32)
    (hpriority' : priority'.length < 2 ^ 32) (htags : Framing.Short 4 tags)
    (htags' : Framing.Short 4 tags') (hrest : rest.length < 4 * 2 ^ 32)
    (hrest' : rest'.length < 4 * 2 ^ 32)
    (heq : tagsPayload priority tags ++ rest = tagsPayload priority' tags' ++ rest') :
    priority = priority' ∧ tags = tags' ∧ rest = rest' := by
  simp only [tagsPayload, List.append_assoc] at heq
  obtain ⟨rfl, hcounts⟩ := lp32_append_inj hpriority hpriority' heq
  obtain ⟨hcount, hlists⟩ := List.append_inj hcounts (by simp)
  have hcount' : UInt32.ofNat tags.length = UInt32.ofNat tags'.length := wire_injective hcount
  rw [flatMap_lp32, flatMap_lp32] at hlists
  rcases framed_append_cases htags htags' hlists with ⟨more, rfl, hmore⟩ | ⟨more, rfl, hmore⟩
  · rw [List.length_append] at hcount'
    obtain rfl := more_eq_nil hcount'.symm hmore hrest
    exact ⟨rfl, (List.append_nil tags).symm, hmore⟩
  · rw [List.length_append] at hcount'
    obtain rfl := more_eq_nil hcount' hmore hrest'
    exact ⟨rfl, List.append_nil tags', hmore.symm⟩

/-- Where the priority and the tags come from. -/
theorem optionFields_eq_some {input : CanonicalInput} {priority : List UInt8}
    {tags : List (List UInt8)} (h : optionFields input = some (priority, tags)) :
    (input.optionsKind = none ∧ input.optionsSchemaVersion = none ∧ input.optionsSetLike = false ∧
        input.optionsFields = [] ∧ priority = defaultPriority ∧ tags = []) ∨
      (input.optionsKind = some ntfy ∧ input.optionsSchemaVersion = some 1 ∧
        input.optionsSetLike = true ∧ input.optionsFields = priority :: tags) := by
  unfold optionFields at h
  split at h
  · rename_i habsent
    cases h
    exact Or.inl ⟨habsent.1, habsent.2.1, habsent.2.2.1, by simpa using habsent.2.2.2, rfl, rfl⟩
  · split at h
    · rename_i hpresent
      split at h
      · cases h
      · rename_i hfields
        cases h
        exact Or.inr ⟨hpresent.1, hpresent.2.1, hpresent.2.2, hfields⟩
    · cases h

/-- Options that are left out are not written as the options of another admitted request with the
same expiry: such a request has the three transition tags. -/
theorem absent_ne_present {a b : CanonicalInput} {tags : List (List UInt8)}
    (ha : admittedFirstSliceProfile a = true) (hb : admittedFirstSliceProfile b = true)
    (hexpires : a.expiresAtMillis = b.expiresAtMillis) (habsent : a.optionsKind = none)
    (hpresent : b.optionsKind = some ntfy) (htags : b.optionsFields.drop 1 = tags) :
    sortDedup tags ≠ [] := by
  have hnone : a.expiresAtMillis = none := by
    simp only [admittedFirstSliceProfile, habsent, Bool.or_eq_true, Bool.and_eq_true] at ha
    rcases ha with hrich | htransition
    · simp at hrich
    · simpa using htransition.1.1.2
  have htransition : normalizedTransitionTags b = true := by
    simp only [admittedFirstSliceProfile, hpresent, ← hexpires, hnone, Bool.or_eq_true,
      Bool.and_eq_true] at hb
    rcases hb with hrich | htransition
    · simp at hrich
    · simpa using htransition.2
  unfold normalizedTransitionTags at htransition
  split at htransition
  · cases htransition
  · rw [beq_iff_eq, htags] at htransition
    rw [htransition]
    decide

theorem shortOptions {input : CanonicalInput} {priority : List UInt8} {tags : List (List UInt8)}
    (h : input.Short) (hfields : optionFields input = some (priority, tags)) :
    priority.length < 2 ^ 32 ∧ ∀ tag ∈ tags, tag.length < 2 ^ 32 := by
  rcases optionFields_eq_some hfields with ⟨-, -, -, -, rfl, rfl⟩ | ⟨-, -, -, hcons⟩
  · exact ⟨by decide, by simp⟩
  · have hshort := h.optionsFields
    rw [hcons] at hshort
    exact ⟨hshort _ List.mem_cons_self, fun tag htag => hshort _ (List.mem_cons_of_mem _ htag)⟩

/-- The options that two admitted requests name alike. -/
theorem options_agree {a b : CanonicalInput} {priority : List UInt8}
    {tags tags' : List (List UInt8)} (ha : admittedFirstSliceProfile a = true)
    (hb : admittedFirstSliceProfile b = true) (hexpires : a.expiresAtMillis = b.expiresAtMillis)
    (hfields : optionFields a = some (priority, tags))
    (hfields' : optionFields b = some (priority, tags'))
    (hsame : sortDedup tags = sortDedup tags') :
    a.optionsKind = b.optionsKind ∧ a.optionsSchemaVersion = b.optionsSchemaVersion ∧
      a.optionsSetLike = b.optionsSetLike ∧ a.optionsFields.head? = b.optionsFields.head? ∧
      ∀ field, field ∈ a.optionsFields.tail ↔ field ∈ b.optionsFields.tail := by
  rcases optionFields_eq_some hfields with ⟨hkind, hversion, hset, hnil, -, htags⟩ |
    ⟨hkind, hversion, hset, hcons⟩
  · rcases optionFields_eq_some hfields' with ⟨hkind', hversion', hset', hnil', -, -⟩ |
      ⟨hkind', -, -, hcons'⟩
    · rw [hkind, hkind', hversion, hversion', hset, hset', hnil, hnil']
      exact ⟨rfl, rfl, rfl, rfl, fun _ => Iff.rfl⟩
    · rw [htags, sortDedup_nil] at hsame
      exact absurd hsame.symm (absent_ne_present ha hb hexpires hkind hkind' (by rw [hcons']; rfl))
  · rcases optionFields_eq_some hfields' with ⟨hkind', -, -, -, -, htags'⟩ |
      ⟨hkind', hversion', hset', hcons'⟩
    · rw [htags', sortDedup_nil] at hsame
      exact absurd hsame (absent_ne_present hb ha hexpires.symm hkind' hkind (by rw [hcons]; rfl))
    · rw [hkind, hkind', hversion, hversion', hset, hset', hcons, hcons']
      exact ⟨rfl, rfl, rfl, rfl, sortDedup_eq_iff.1 hsame⟩

/-- Equal bytes of schema segments come from requests that differ in the order and the repetition of
their option fields behind the first at most. -/
theorem segments_injective {a b : CanonicalInput} {bytes : List UInt8} (ha : a.Short) (hb : b.Short)
    (hlegacy : legacyCanonicalRequestV1 a = none) (hlegacy' : legacyCanonicalRequestV1 b = none)
    (hok : canonicalRequestV1 a = .ok bytes) (hok' : canonicalRequestV1 b = .ok bytes) :
    a.Agree b ∧ a.optionsFields.head? = b.optionsFields.head? ∧
      ∀ field, field ∈ a.optionsFields.tail ↔ field ∈ b.optionsFields.tail := by
  obtain ⟨topic, title, body, priority, tags, hform, rfl⟩ := segmentForm_of_ok hlegacy hok
  obtain ⟨topic', title', body', priority', tags', hform', heq⟩ := segmentForm_of_ok hlegacy' hok'
  rw [segments_eq, segments_eq] at heq
  have htopic : ∀ field ∈ [topic], field.length < 2 ^ 32 := hform.destinationFields ▸
    ha.destinationFields
  have htopic' : ∀ field ∈ [topic'], field.length < 2 ^ 32 := hform'.destinationFields ▸
    hb.destinationFields
  have hcontent : ∀ field ∈ title.toList ++ [body], field.length < 2 ^ 32 := hform.contentFields ▸
    ha.contentFields
  have hcontent' : ∀ field ∈ title'.toList ++ [body'], field.length < 2 ^ 32 :=
    hform'.contentFields ▸ hb.contentFields
  have hoption := shortOptions ha hform.fields_eq
  have hoption' := shortOptions hb hform'.fields_eq
  -- Each payload ends by itself, so its own length prefix is not needed.
  have hdestination := append_of_lp32 (List.append_cancel_left heq)
  obtain ⟨rfl, hcontents⟩ := lp32_append_inj (htopic topic (by simp)) (htopic' topic' (by simp))
    hdestination
  have htitles := append_of_lp32 (List.append_cancel_left hcontents)
  rw [List.append_assoc, List.append_assoc] at htitles
  obtain ⟨rfl, hbodies⟩ := titlePayload_append_inj
    (fun value hvalue => hcontent value (by simp [Option.mem_def.1 hvalue]))
    (fun value hvalue => hcontent' value (by simp [Option.mem_def.1 hvalue])) htitles
  obtain ⟨rfl, hoptions⟩ := lp32_append_inj (hcontent body (by simp)) (hcontent' body' (by simp))
    hbodies
  obtain ⟨rfl, htags, htrailers⟩ := tagsPayload_append_inj hoption.1 hoption'.1
    (short_sortDedup hoption.2) (short_sortDedup hoption'.2) (length_trailer ha) (length_trailer hb)
    (append_of_lp32 (List.append_cancel_left hoptions))
  obtain ⟨hexpires, hcorrelations⟩ := expiryBytes_append_inj htrailers
  have hcorrelation := correlationBytes_injective ha.correlationId hb.correlationId hcorrelations
  obtain ⟨hkind, hversion, hset, hfirst, hrest⟩ := options_agree hform.admitted hform'.admitted
    hexpires hform.fields_eq hform'.fields_eq htags
  refine ⟨⟨?_, ?_, ?_, ?_, ?_, ?_, ?_, hkind, hversion, hset, hexpires, hcorrelation⟩, hfirst,
    hrest⟩
  · rw [hform.provider, hform'.provider]
  · rw [hform.destinationKind, hform'.destinationKind]
  · rw [hform.destinationSchemaVersion, hform'.destinationSchemaVersion]
  · rw [hform.destinationFields, hform'.destinationFields]
  · rw [hform.contentKind, hform'.contentKind]
  · rw [hform.contentSchemaVersion, hform'.contentSchemaVersion]
  · rw [hform.contentFields, hform'.contentFields]

/-- The byte behind the tag tells the forms apart. -/
theorem legacy_ne_segments {a b : CanonicalInput} {bytes : List UInt8}
    (hlegacy : legacyCanonicalRequestV1 a = some bytes)
    (hlegacy' : legacyCanonicalRequestV1 b = none) : canonicalRequestV1 b ≠ .ok bytes := by
  intro hok
  obtain ⟨topic, title, body, tags, -, rfl⟩ := legacyForm_of_some hlegacy
  obtain ⟨topic', title', body', priority, tags', -, heq⟩ := segmentForm_of_ok hlegacy' hok
  rw [segments_eq, legacyBytes] at heq
  have hbytes := List.append_cancel_left (by simpa only [List.append_assoc] using heq)
  have hwire : wire (1 : UInt32) = [0, 0, 0, 1] := by decide
  rw [hwire] at hbytes
  cases hbytes

theorem canonicalRequestV1_of_legacy {input : CanonicalInput} {bytes : List UInt8}
    (h : legacyCanonicalRequestV1 input = some bytes) : canonicalRequestV1 input = .ok bytes := by
  rw [canonicalRequestV1, h]

/-- `canonical_request_v1` is a faithful canonical form. -/
theorem canonicalRequestV1_faithful :
    (∀ (input : CanonicalInput) (first : List UInt8) (rest rest' : List (List UInt8)),
      (∀ field, field ∈ rest ↔ field ∈ rest') →
      canonicalRequestV1 { input with optionsFields := first :: rest } =
        canonicalRequestV1 { input with optionsFields := first :: rest' }) ∧
    (∀ (a b : CanonicalInput) (bytes : List UInt8), a.Short → b.Short →
      canonicalRequestV1 a = .ok bytes → canonicalRequestV1 b = .ok bytes →
      a.Agree b ∧
        (((legacyCanonicalRequestV1 a).isSome ∧ (legacyCanonicalRequestV1 b).isSome ∧
            ∀ field, field ∈ a.optionsFields ↔ field ∈ b.optionsFields) ∨
          (legacyCanonicalRequestV1 a = none ∧ legacyCanonicalRequestV1 b = none ∧
            a.optionsFields.head? = b.optionsFields.head? ∧
            ∀ field, field ∈ a.optionsFields.tail ↔ field ∈ b.optionsFields.tail))) ∧
    ∀ (a b : CanonicalInput) (bytes : List UInt8), legacyCanonicalRequestV1 a = some bytes →
      legacyCanonicalRequestV1 b = none → canonicalRequestV1 b ≠ .ok bytes := by
  refine ⟨fun input first rest rest' => canonicalRequestV1_congr input first, ?_,
    fun a b bytes => legacy_ne_segments⟩
  intro a b bytes ha hb hok hok'
  -- the two encodings never meet, so both requests take the same one
  cases hlegacy : legacyCanonicalRequestV1 a with
  | none =>
    cases hlegacy' : legacyCanonicalRequestV1 b with
    | none =>
      obtain ⟨hagree, hfirst, hrest⟩ := segments_injective ha hb hlegacy hlegacy' hok hok'
      exact ⟨hagree, Or.inr ⟨rfl, rfl, hfirst, hrest⟩⟩
    | some encoded =>
      rw [canonicalRequestV1_of_legacy hlegacy'] at hok'
      exact absurd (hok.trans hok'.symm) (legacy_ne_segments hlegacy' hlegacy)
  | some encoded =>
    rw [canonicalRequestV1_of_legacy hlegacy] at hok
    cases hok
    cases hlegacy' : legacyCanonicalRequestV1 b with
    | none => exact absurd hok' (legacy_ne_segments hlegacy hlegacy')
    | some encoded' =>
      rw [canonicalRequestV1_of_legacy hlegacy'] at hok'
      cases hok'
      obtain ⟨hagree, hfields⟩ := legacy_injective ha hb hlegacy hlegacy'
      exact ⟨hagree, Or.inl ⟨rfl, rfl, hfields⟩⟩

end MsgRiver.Core.Canon
