import MsgRiver.Lib.JsonNesting
import MsgRiver.Lib.Result

/-!
# Strict JSON

The check of a body before it is decoded as a command.  A scanner counts the brackets; then a
deserializer hands the text to visitors that keep nothing, and refuse an object with two members of
one name, and at the root a member that is unknown or null.

The deserializer stands outside the program.  `SerdeJson` is what it hands out, and `Reads` what it
documents about one text.

* `lexicalDepthIsInvalid_iff`: on a JSON text the scanner counts what the grammar nests, whatever
  stands in its strings;
* `strictJsonValue_accepts`: exactly the texts that meet every rule are accepted.
-/

namespace MsgRiver.Protocol

open Json JsonGrammar JsonNesting Result Text Ascii

/-- The deepest nesting that is accepted. -/
def maxStructuralDepth : ℕ := 64

/-- Why an input is not accepted. -/
inductive StrictJsonReject
  | malformed
  | duplicateField
  | unknownField
  | explicitNull
  deriving DecidableEq

/-- What has become of an input. -/
inductive StrictJsonResult
  | accepted
  | rejected (reason : StrictJsonReject)
  deriving DecidableEq

/-- The part of the program that has given up. -/
inductive JsonFrontier
  | strictDecode
  deriving DecidableEq

/-- The error of the check, which a rejection is not. -/
structure JsonError where
  frontier : JsonFrontier
  deriving DecidableEq

/-! ### The scanner -/

/-- The loop over the bytes; the last bracket is the first of `nesting`. -/
def lexicalDepthFrom (nesting : List UInt8) (inString escaped : Bool) : List UInt8 → Bool
  | [] => inString || escaped || !nesting.isEmpty
  | byte :: rest =>
    if inString then
      if escaped then lexicalDepthFrom nesting true false rest
      else if byte = 0x5c then lexicalDepthFrom nesting true true rest
      else if byte = 0x22 then lexicalDepthFrom nesting false false rest
      else if byte < 0x20 then true
      else lexicalDepthFrom nesting true false rest
    else if byte = 0x22 then lexicalDepthFrom nesting true escaped rest
    else if byte = 0x7b ∨ byte = 0x5b then
      if maxStructuralDepth < (byte :: nesting).length then true
      else lexicalDepthFrom (byte :: nesting) false escaped rest
    else if byte = 0x7d then
      if nesting.head? = some 0x7b then lexicalDepthFrom nesting.tail false escaped rest else true
    else if byte = 0x5d then
      if nesting.head? = some 0x5b then lexicalDepthFrom nesting.tail false escaped rest else true
    else lexicalDepthFrom nesting false escaped rest

/-- The brackets or the strings do not close, or the brackets nest too deeply. -/
def lexicalDepthIsInvalid (input : List UInt8) : Bool := lexicalDepthFrom [] false false input

/-! ### The visitors -/

mutual

/-- What the deserializer hands to a visitor, and where it fails instead. -/
inductive Offer
  | error
  /-- `visit_unit`. -/
  | null
  /-- `visit_bool`, `visit_i64`, `visit_u64`, `visit_f64` and `visit_str`. -/
  | scalar
  /-- `visit_seq`. -/
  | seq (elements : Elements)
  /-- `visit_map`. -/
  | map (entries : Entries)

/-- What `next_element` answers. -/
inductive Elements
  | error
  | stop
  | next (element : Offer) (rest : Elements)

/-- What `next_key` and `next_value` answer. -/
inductive Entries
  | error
  | stop
  | next (key : String) (value : Offer) (rest : Entries)

end

/-- What a visit returns: `null`, or anything else. -/
inductive StrictJson
  | null
  | other
  deriving DecidableEq

/-- The value is `null`. -/
def StrictJson.isNull : StrictJson → Bool
  | .null => true
  | .other => false

/-- A visit.  It fails with the rejection that is stored by then: where a rejection is stored the
visitor fails, and a deserializer that fails visits nothing more. -/
abbrev Visit (α : Type) := Except (Option StrictJsonReject) α

mutual

/-- `StrictJsonVisitor`. -/
def visit : Offer → Visit StrictJson
  | .error => .error none
  | .null => .ok .null
  | .scalar => .ok .other
  | .seq elements => visitSeq elements
  | .map entries => visitMap [] entries

/-- Visits every element. -/
def visitSeq : Elements → Visit StrictJson
  | .error => .error none
  | .stop => .ok .other
  | .next element rest => do
    let _ ← visit element
    visitSeq rest

/-- Visits every entry; a field that was seen before ends the visit. -/
def visitMap (seen : List String) : Entries → Visit StrictJson
  | .error => .error none
  | .stop => .ok .other
  | .next field value rest => do
    reject (seen.any fun previous => previous == field) (some .duplicateField)
    let _ ← visit value
    visitMap (seen ++ [field]) rest

end

/-- `ClosedObject`. -/
def closedVisitMap (allowedFields seen : List String) : Entries → Visit StrictJsonResult
  | .error => .error none
  | .stop => .ok .accepted
  | .next field value rest => do
    reject (seen.any fun previous => previous == field) (some .duplicateField)
    reject (!allowedFields.contains field) (some .unknownField)
    let value ← visit value
    reject value.isNull (some .explicitNull)
    closedVisitMap allowedFields (seen ++ [field]) rest

/-! ### The check -/

/-- The deserializer: what it hands out for a text, whether nothing is left behind that, and which
numbers it can represent. -/
structure SerdeJson where
  fromStr : List Char → Offer
  ends : List Char → Bool
  finite : String → Prop

/-- `deserialize_map` fails on anything but an object. -/
def deserializeMap (allowedFields : List String) : Offer → Visit StrictJsonResult
  | .map entries => closedVisitMap allowedFields [] entries
  | _ => .error none

/-- One value and nothing behind it; with a list of fields, an object of these. -/
def decode (serde : SerdeJson) (text : List Char) (allowedFields : List String) :
    Visit StrictJsonResult :=
  if allowedFields.isEmpty then do
    let _ ← visit (serde.fromStr text)
    reject (!serde.ends text) none
    return .accepted
  else do
    let result ← deserializeMap allowedFields (serde.fromStr text)
    reject (!serde.ends text) none
    return result

/-- `strict_json_value`. -/
def strictJsonValue (serde : SerdeJson) (input : List UInt8) (allowedFields : List String) :
    Except JsonError StrictJsonResult :=
  match decodeUtf8 input with
  | none => .ok (.rejected .malformed)
  | some text =>
    if lexicalDepthIsInvalid input then .ok (.rejected .malformed)
    else
      match decode serde text allowedFields with
      | .ok result => .ok result
      | .error (some rejection) => .ok (.rejected rejection)
      | .error none => .ok (.rejected .malformed)

/-! ### The scanner on nested texts -/

section Scanner

variable {nesting : List UInt8}

/-- The scanner leaves a string where it began. -/
theorem lexicalDepthFrom_quoted {text : List UInt8} (h : Quoted text) (rest : List UInt8) :
    lexicalDepthFrom nesting true false (text ++ rest) =
      lexicalDepthFrom nesting true false rest := by
  induction h with
  | nil => rfl
  | @plain b text hquote hslash hcontrol _ ih =>
    have hlow : ¬ b < 0x20 := by
      intro hlt
      have hlt' := UInt8.lt_iff_toNat_lt.1 hlt
      simp at hlt'
      omega
    simp [lexicalDepthFrom, hquote, hslash, hlow, ih]
  | escape _ ih => simp [lexicalDepthFrom, ih]

/-- It passes a bracketed text as the text between the brackets, one level deeper. -/
theorem lexicalDepthFrom_bracket {n : ℕ} {opening closing : UInt8} {text : List UInt8}
    (hpair : opening = 0x5b ∧ closing = 0x5d ∨ opening = 0x7b ∧ closing = 0x7d)
    (hnesting : nesting.length ≤ maxStructuralDepth)
    (ih : ∀ {nesting : List UInt8}, nesting.length ≤ maxStructuralDepth → ∀ rest : List UInt8,
      lexicalDepthFrom nesting false false (text ++ rest) =
        (decide (maxStructuralDepth < nesting.length + n) ||
          lexicalDepthFrom nesting false false rest)) (rest : List UInt8) :
    lexicalDepthFrom nesting false false (opening :: (text ++ [closing]) ++ rest) =
      (decide (maxStructuralDepth < nesting.length + (n + 1)) ||
        lexicalDepthFrom nesting false false rest) := by
  have hclose : lexicalDepthFrom (opening :: nesting) false false (closing :: rest) =
      lexicalDepthFrom nesting false false rest := by
    rcases hpair with ⟨rfl, rfl⟩ | ⟨rfl, rfl⟩ <;> simp [lexicalDepthFrom]
  have hopen : lexicalDepthFrom nesting false false (opening :: (text ++ closing :: rest)) =
      if maxStructuralDepth < nesting.length + 1 then true
      else lexicalDepthFrom (opening :: nesting) false false (text ++ closing :: rest) := by
    rcases hpair with ⟨rfl, rfl⟩ | ⟨rfl, rfl⟩ <;> simp [lexicalDepthFrom]
  rw [List.cons_append, List.append_assoc, List.singleton_append, hopen]
  by_cases hdeep : maxStructuralDepth < nesting.length + 1
  · have hdeeper : maxStructuralDepth < nesting.length + (n + 1) := by omega
    simp [hdeep, hdeeper]
  · have hinner : (opening :: nesting).length ≤ maxStructuralDepth := by
      rw [List.length_cons]
      omega
    have hlevel : (opening :: nesting).length + n = nesting.length + (n + 1) := by
      rw [List.length_cons]
      omega
    rw [if_neg hdeep, ih hinner, hclose, hlevel]

/-- It passes a nested text unless that is too deep for where it stands. -/
theorem lexicalDepthFrom_nested {n : ℕ} {text : List UInt8} (h : Nested n text)
    (hnesting : nesting.length ≤ maxStructuralDepth) (rest : List UInt8) :
    lexicalDepthFrom nesting false false (text ++ rest) =
      (decide (maxStructuralDepth < nesting.length + n) ||
        lexicalDepthFrom nesting false false rest) := by
  induction h generalizing nesting rest with
  | nil => simp [Nat.not_lt.2 hnesting]
  | @plain b h =>
    simp only [structural, List.mem_cons, List.not_mem_nil, or_false, not_or] at h
    simp [lexicalDepthFrom, h, Nat.not_lt.2 hnesting]
  | @string text h =>
    have hstring : lexicalDepthFrom nesting true false (text ++ 0x22 :: rest) =
        lexicalDepthFrom nesting true false (0x22 :: rest) := lexicalDepthFrom_quoted h _
    simp [lexicalDepthFrom, Nat.not_lt.2 hnesting, hstring]
  | array _ ih => exact lexicalDepthFrom_bracket (Or.inl ⟨rfl, rfl⟩) hnesting ih rest
  | object _ ih => exact lexicalDepthFrom_bracket (Or.inr ⟨rfl, rfl⟩) hnesting ih rest
  | @append m n front text _ _ ih ih' =>
    rw [List.append_assoc, ih hnesting, ih' hnesting, ← Bool.or_assoc, ← Bool.decide_or]
    congr 2
    rw [eq_iff_iff]
    omega

/-- The scanner refuses a nested text if and only if it is too deep. -/
theorem lexicalDepthIsInvalid_nested {n : ℕ} {text : List UInt8} (h : Nested n text) :
    lexicalDepthIsInvalid text = decide (maxStructuralDepth < n) := by
  have hempty : ([] : List UInt8).length ≤ maxStructuralDepth := Nat.zero_le _
  have hscan := lexicalDepthFrom_nested h hempty []
  rw [List.append_nil] at hscan
  rw [lexicalDepthIsInvalid, hscan]
  simp [lexicalDepthFrom]

end Scanner

/-! ### The visitors on values -/

mutual

/-- What a deserializer hands out for a value. -/
def offerOf : Value → Offer
  | .null => .null
  | .bool _ => .scalar
  | .number _ => .scalar
  | .string _ => .scalar
  | .array items => .seq (elementsOf items)
  | .object entries => .map (entriesOf entries)

/-- The elements of an array, as the parser offers them. -/
def elementsOf : List Value → Elements
  | [] => .stop
  | item :: items => .next (offerOf item) (elementsOf items)

/-- The entries of an object, as the parser offers them. -/
def entriesOf : List (String × Value) → Entries
  | [] => .stop
  | (key, value) :: entries => .next key (offerOf value) (entriesOf entries)

end

/-- What a visit finds a value to be. -/
def kindOf : Value → StrictJson
  | .null => .null
  | _ => .other

/-- The names are distinct, and none has been seen. -/
def Fresh (seen keys : List String) : Prop := keys.Nodup ∧ ∀ key ∈ keys, key ∉ seen

theorem fresh_cons {seen keys : List String} {key : String} :
    Fresh seen (key :: keys) ↔ key ∉ seen ∧ Fresh (seen ++ [key]) keys := by
  simp only [Fresh, List.nodup_cons, List.forall_mem_cons, List.mem_append, List.mem_singleton,
    not_or]
  constructor
  · rintro ⟨⟨hkey, hnodup⟩, hseen, hkeys⟩
    refine ⟨hseen, hnodup, ?_⟩
    intro other hother
    refine ⟨hkeys other hother, ?_⟩
    rintro rfl
    exact hkey hother
  · rintro ⟨hseen, hnodup, hkeys⟩
    exact ⟨⟨fun hmem => (hkeys key hmem).2 rfl, hnodup⟩, hseen, fun other hother =>
      (hkeys other hother).1⟩

theorem any_previous {seen : List String} {field : String} :
    (seen.any fun previous => previous == field) = false ↔ field ∉ seen := by
  simp only [List.any_eq_false, beq_iff_eq]
  constructor
  · intro h hmem
    exact h field hmem rfl
  · rintro h previous hmem rfl
    exact h hmem

mutual

theorem visit_offerOf (value : Value) {result : StrictJson} :
    visit (offerOf value) = .ok result ↔ Everywhere DistinctKeys value ∧ kindOf value = result := by
  cases value with
  | null => simp [offerOf, visit, Everywhere, DistinctKeys, kindOf]
  | bool b => simp [offerOf, visit, Everywhere, DistinctKeys, kindOf]
  | number literal => simp [offerOf, visit, Everywhere, DistinctKeys, kindOf]
  | string s => simp [offerOf, visit, Everywhere, DistinctKeys, kindOf]
  | array items =>
    rw [offerOf, visit, visitSeq_elementsOf items, Everywhere]
    simp [DistinctKeys, kindOf]
  | object entries =>
    rw [offerOf, visit, visitMap_entriesOf entries, Everywhere]
    simp [Fresh, DistinctKeys, kindOf]

theorem visitSeq_elementsOf (items : List Value) {result : StrictJson} :
    visitSeq (elementsOf items) = .ok result ↔
      itemsEverywhere DistinctKeys items ∧ .other = result := by
  cases items with
  | nil => simp [elementsOf, visitSeq, itemsEverywhere]
  | cons item items =>
    rw [elementsOf, visitSeq, bind_eq_ok, itemsEverywhere, and_assoc]
    constructor
    · rintro ⟨kind, hitem, hitems⟩
      exact ⟨((visit_offerOf item).1 hitem).1, (visitSeq_elementsOf items).1 hitems⟩
    · rintro ⟨hitem, hitems⟩
      exact ⟨kindOf item, (visit_offerOf item).2 ⟨hitem, rfl⟩, (visitSeq_elementsOf items).2 hitems⟩

theorem visitMap_entriesOf (entries : List (String × Value)) {seen : List String}
    {result : StrictJson} :
    visitMap seen (entriesOf entries) = .ok result ↔
      (Fresh seen (entries.map Prod.fst) ∧ entriesEverywhere DistinctKeys entries) ∧
        .other = result := by
  cases entries with
  | nil => simp [entriesOf, visitMap, entriesEverywhere, Fresh]
  | cons entry entries =>
    obtain ⟨key, value⟩ := entry
    rw [entriesOf, visitMap, reject_bind_eq_ok, any_previous, bind_eq_ok, entriesEverywhere,
      List.map_cons, fresh_cons]
    constructor
    · rintro ⟨hkey, kind, hvalue, hentries⟩
      obtain ⟨⟨hfresh, hrest⟩, hresult⟩ := (visitMap_entriesOf entries).1 hentries
      exact ⟨⟨⟨hkey, hfresh⟩, ((visit_offerOf value).1 hvalue).1, hrest⟩, hresult⟩
    · rintro ⟨⟨⟨hkey, hfresh⟩, hvalue, hrest⟩, hresult⟩
      exact ⟨hkey, kindOf value, (visit_offerOf value).2 ⟨hvalue, rfl⟩,
        (visitMap_entriesOf entries).2 ⟨⟨hfresh, hrest⟩, hresult⟩⟩

end

mutual

/-- A visit that succeeds has been handed a value. -/
theorem exists_of_visit (offer : Offer) {result : StrictJson} (h : visit offer = .ok result) :
    ∃ value, offer = offerOf value := by
  cases offer with
  | error => cases h
  | null => exact ⟨.null, rfl⟩
  | scalar => exact ⟨.bool true, rfl⟩
  | seq elements =>
    rw [visit] at h
    obtain ⟨items, rfl⟩ := exists_of_visitSeq elements h
    exact ⟨.array items, rfl⟩
  | map entries =>
    rw [visit] at h
    obtain ⟨members, rfl⟩ := exists_of_visitMap entries h
    exact ⟨.object members, rfl⟩

theorem exists_of_visitSeq (elements : Elements) {result : StrictJson}
    (h : visitSeq elements = .ok result) : ∃ items, elements = elementsOf items := by
  cases elements with
  | error => cases h
  | stop => exact ⟨[], rfl⟩
  | next element rest =>
    rw [visitSeq] at h
    obtain ⟨kind, helement, hrest⟩ := bind_eq_ok.1 h
    obtain ⟨item, rfl⟩ := exists_of_visit element helement
    obtain ⟨items, rfl⟩ := exists_of_visitSeq rest hrest
    exact ⟨item :: items, rfl⟩

theorem exists_of_visitMap (entries : Entries) {seen : List String} {result : StrictJson}
    (h : visitMap seen entries = .ok result) : ∃ members, entries = entriesOf members := by
  cases entries with
  | error => cases h
  | stop => exact ⟨[], rfl⟩
  | next key value rest =>
    rw [visitMap] at h
    obtain ⟨-, hvisits⟩ := reject_bind_eq_ok.1 h
    obtain ⟨kind, hvalue, hrest⟩ := bind_eq_ok.1 hvisits
    obtain ⟨member, rfl⟩ := exists_of_visit value hvalue
    obtain ⟨members, rfl⟩ := exists_of_visitMap rest hrest
    exact ⟨(key, member) :: members, rfl⟩

end

/-- A member that a closed object admits. -/
def AllowedMember (allowedFields : List String) (entry : String × Value) : Prop :=
  entry.1 ∈ allowedFields ∧ entry.2 ≠ .null

theorem isNull_kindOf {value : Value} : (kindOf value).isNull = false ↔ value ≠ .null := by
  cases value <;> simp [kindOf, StrictJson.isNull]

section Closed

variable {allowedFields seen : List String} {result : StrictJsonResult}

theorem closedVisitMap_entriesOf {entries : List (String × Value)} :
    closedVisitMap allowedFields seen (entriesOf entries) = .ok result ↔
      (Fresh seen (entries.map Prod.fst) ∧ entriesEverywhere DistinctKeys entries ∧
        ∀ entry ∈ entries, AllowedMember allowedFields entry) ∧ .accepted = result := by
  induction entries generalizing seen with
  | nil => simp [entriesOf, closedVisitMap, entriesEverywhere, Fresh]
  | cons entry entries ih =>
    obtain ⟨key, value⟩ := entry
    rw [entriesOf, closedVisitMap, reject_bind_eq_ok, any_previous, reject_bind_eq_ok, bind_eq_ok,
      entriesEverywhere, List.map_cons, fresh_cons, List.forall_mem_cons, Bool.not_eq_false',
      List.contains_iff_mem]
    constructor
    · rintro ⟨hkey, hallowed, kind, hvalue, hentries⟩
      obtain ⟨hdistinct, rfl⟩ := (visit_offerOf value).1 hvalue
      obtain ⟨hnull, hentries⟩ := reject_bind_eq_ok.1 hentries
      obtain ⟨⟨hfresh, hrest, hmembers⟩, hresult⟩ := ih.1 hentries
      exact ⟨⟨⟨hkey, hfresh⟩, ⟨hdistinct, hrest⟩, ⟨hallowed, isNull_kindOf.1 hnull⟩, hmembers⟩,
        hresult⟩
    · rintro ⟨⟨⟨hkey, hfresh⟩, ⟨hdistinct, hrest⟩, ⟨hallowed, hnull⟩, hmembers⟩, hresult⟩
      refine ⟨hkey, hallowed, kindOf value, (visit_offerOf value).2 ⟨hdistinct, rfl⟩, ?_⟩
      exact reject_bind_eq_ok.2 ⟨isNull_kindOf.2 hnull,
        ih.2 ⟨⟨hfresh, hrest, hmembers⟩, hresult⟩⟩

end Closed

theorem exists_of_closedVisitMap (entries : Entries) {allowedFields seen : List String}
    {result : StrictJsonResult} (h : closedVisitMap allowedFields seen entries = .ok result) :
    ∃ members, entries = entriesOf members := by
  cases entries with
  | error => cases h
  | stop => exact ⟨[], rfl⟩
  | next key value rest =>
    rw [closedVisitMap] at h
    obtain ⟨-, hfield⟩ := reject_bind_eq_ok.1 h
    obtain ⟨-, hvisits⟩ := reject_bind_eq_ok.1 hfield
    obtain ⟨kind, hvalue, hnull⟩ := bind_eq_ok.1 hvisits
    obtain ⟨-, hrest⟩ := reject_bind_eq_ok.1 hnull
    obtain ⟨member, rfl⟩ := exists_of_visit value hvalue
    obtain ⟨members, rfl⟩ := exists_of_closedVisitMap rest hrest
    exact ⟨(key, member) :: members, rfl⟩

/-! ### What is accepted -/

/-- What a nonempty list of fields asks of a value. -/
def Closed (allowedFields : List String) (value : Value) : Prop :=
  allowedFields ≠ [] →
    ∃ entries, value = .object entries ∧ ∀ entry ∈ entries, AllowedMember allowedFields entry

section Decode

variable {serde : SerdeJson} {text : List Char} {allowedFields : List String}

theorem deserializeMap_offerOf {value : Value} {result : StrictJsonResult} :
    deserializeMap allowedFields (offerOf value) = .ok result ↔
      (Everywhere DistinctKeys value ∧
        ∃ entries, value = .object entries ∧
          ∀ entry ∈ entries, AllowedMember allowedFields entry) ∧ .accepted = result := by
  cases value with
  | object entries =>
    rw [offerOf, deserializeMap, closedVisitMap_entriesOf, Everywhere]
    simp [Fresh, DistinctKeys, and_assoc]
  | null | bool | number | string | array => simp [offerOf, deserializeMap]

/-- Decoding accepts a value that meets the rules, if it has then read the whole text. -/
theorem decode_value {value : Value} (hoffer : serde.fromStr text = offerOf value) :
    decode serde text allowedFields = .ok .accepted ↔
      Everywhere DistinctKeys value ∧ Closed allowedFields value ∧ serde.ends text = true := by
  rw [decode, hoffer]
  by_cases hfields : allowedFields = []
  · subst hfields
    have hclosed : Closed [] value := fun hne => absurd rfl hne
    rw [List.isEmpty_nil, if_pos rfl, bind_eq_ok]
    constructor
    · rintro ⟨kind, hvisit, hrest⟩
      obtain ⟨hdistinct, -⟩ := (visit_offerOf value).1 hvisit
      obtain ⟨hends, -⟩ := reject_bind_eq_ok.1 hrest
      exact ⟨hdistinct, hclosed, by simpa using hends⟩
    · rintro ⟨hdistinct, -, hends⟩
      exact ⟨kindOf value, (visit_offerOf value).2 ⟨hdistinct, rfl⟩,
        reject_bind_eq_ok.2 ⟨by simpa using hends, rfl⟩⟩
  · have hclosed : Closed allowedFields value ↔ ∃ entries, value = .object entries ∧
        ∀ entry ∈ entries, AllowedMember allowedFields entry := by
      simp [Closed, hfields]
    rw [List.isEmpty_eq_false_iff.2 hfields, if_neg Bool.false_ne_true, bind_eq_ok, hclosed]
    constructor
    · rintro ⟨result, hvisit, hrest⟩
      obtain ⟨⟨hdistinct, hobject⟩, -⟩ := deserializeMap_offerOf.1 hvisit
      obtain ⟨hends, -⟩ := reject_bind_eq_ok.1 hrest
      exact ⟨hdistinct, hobject, by simpa using hends⟩
    · rintro ⟨hdistinct, hobject, hends⟩
      exact ⟨.accepted, deserializeMap_offerOf.2 ⟨⟨hdistinct, hobject⟩, rfl⟩,
        reject_bind_eq_ok.2 ⟨by simpa using hends, rfl⟩⟩

/-- What is accepted has been handed out as a value. -/
theorem exists_of_decode (h : decode serde text allowedFields = .ok .accepted) :
    ∃ value, serde.fromStr text = offerOf value := by
  unfold decode at h
  split at h
  · obtain ⟨_, hvisit, -⟩ := bind_eq_ok.1 h
    exact exists_of_visit _ hvisit
  · obtain ⟨_, hvisit, -⟩ := bind_eq_ok.1 h
    cases hoffer : serde.fromStr text with
    | map entries =>
      rw [hoffer, deserializeMap] at hvisit
      obtain ⟨members, rfl⟩ := exists_of_closedVisitMap entries hvisit
      exact ⟨.object members, rfl⟩
    | error | null | scalar | seq =>
      rw [hoffer] at hvisit
      cases hvisit

theorem strictJsonValue_eq_accepted {input : List UInt8} :
    strictJsonValue serde input allowedFields = .ok .accepted ↔
      ∃ text, decodeUtf8 input = some text ∧ lexicalDepthIsInvalid input = false ∧
        decode serde text allowedFields = .ok .accepted := by
  unfold strictJsonValue
  cases decodeUtf8 input with
  | none => simp
  | some text =>
    by_cases hdepth : lexicalDepthIsInvalid input = true
    · simp [hdepth]
    · rcases hdecode : decode serde text allowedFields with (_ | rejection) | result <;>
        simp [hdepth, hdecode]

end Decode

/-- What the deserializer documents about a text: it reads RFC 8259 with the numbers that it can
represent, if the nesting stays below its own limit, and nothing else. -/
structure Reads (serde : SerdeJson) (text : List Char) : Prop where
  complete : ∀ value, IsText text value → Everywhere (FiniteNumber serde.finite) value →
    nesting value < 128 → serde.fromStr text = offerOf value ∧ serde.ends text = true
  sound : ∀ value, serde.fromStr text = offerOf value → serde.ends text = true →
    ∃ value', IsText text value' ∧ Everywhere (FiniteNumber serde.finite) value' ∧
      offerOf value' = offerOf value

/-- The rules: a JSON text with finite numbers and distinct keys, not nested too deep, and a closed
object if there are fields. -/
structure Strict (finite : String → Prop) (allowedFields : List String) (text : List Char)
    (value : Value) : Prop where
  denotes : IsText text value
  finite : Everywhere (FiniteNumber finite) value
  depth : nesting value ≤ 64
  distinct : Everywhere DistinctKeys value
  closed : Closed allowedFields value

theorem bytesOf_of_decodeUtf8 {input : List UInt8} {text : List Char}
    (h : decodeUtf8 input = some text) : bytesOf text = input := by
  rw [← decodeUtf8_eq_some.1 h, utf8Bytes_eq_flatMap, String.toList_ofList]
  rfl

theorem strictJsonValue_accepted_iff {serde : SerdeJson} {input : List UInt8}
    {allowedFields : List String}
    (hserde : ∀ text, decodeUtf8 input = some text → Reads serde text) :
    strictJsonValue serde input allowedFields = .ok .accepted ↔
      ∃ text value, decodeUtf8 input = some text ∧
        Strict serde.finite allowedFields text value := by
  rw [strictJsonValue_eq_accepted]
  constructor
  · rintro ⟨text, htext, hdepth, hdecode⟩
    -- The visitors have been handed a value, which is the one that the text stands for.
    obtain ⟨offered, hoffer⟩ := exists_of_decode hdecode
    obtain ⟨-, -, hends⟩ := (decode_value hoffer).1 hdecode
    obtain ⟨value, hdenotes, hfinite, hsame⟩ := (hserde text htext).sound offered hoffer hends
    rw [← hsame] at hoffer
    obtain ⟨hdistinct, hclosed, -⟩ := (decode_value hoffer).1 hdecode
    have hnested := IsText.nested hdenotes
    rw [bytesOf_of_decodeUtf8 htext] at hnested
    rw [lexicalDepthIsInvalid_nested hnested, decide_eq_false_iff_not, Nat.not_lt] at hdepth
    exact ⟨text, value, htext, hdenotes, hfinite, hdepth, hdistinct, hclosed⟩
  · rintro ⟨text, value, htext, hstrict⟩
    have hnested := IsText.nested hstrict.denotes
    rw [bytesOf_of_decodeUtf8 htext] at hnested
    have hdepth := hstrict.depth
    obtain ⟨hoffer, hends⟩ := (hserde text htext).complete value hstrict.denotes hstrict.finite
      (by omega)
    refine ⟨text, htext, ?_, (decode_value hoffer).2 ⟨hstrict.distinct, hstrict.closed, hends⟩⟩
    rw [lexicalDepthIsInvalid_nested hnested, decide_eq_false_iff_not, Nat.not_lt]
    exact hdepth

/-- The scanner refuses a JSON text if and only if it is nested too deep. -/
theorem lexicalDepthIsInvalid_iff {text : List UInt8} {tree : JsonDialect.Tree}
    (h : JsonDialect.Text JsonDialect.rfc8259 text tree) :
    lexicalDepthIsInvalid text = true ↔ 64 < tree.nesting := by
  rw [lexicalDepthIsInvalid_nested (Text.nested h), decide_eq_true_eq]
  rfl

/-- **What is accepted**: exactly the UTF-8 texts that meet every rule.  The scanner in front
refuses no JSON text but those that are nested too deep, and all of these. -/
theorem strictJsonValue_accepts {serde : SerdeJson} {input : List UInt8}
    {allowedFields : List String}
    (hserde : ∀ text, decodeUtf8 input = some text → Reads serde text) :
    (strictJsonValue serde input allowedFields = .ok .accepted ↔
      ∃ text value, decodeUtf8 input = some text ∧
        Strict serde.finite allowedFields text value) ∧
    ∀ text tree, JsonDialect.Text JsonDialect.rfc8259 text tree →
      (lexicalDepthIsInvalid text = true ↔ 64 < tree.nesting) :=
  ⟨strictJsonValue_accepted_iff hserde, fun _ _ h => lexicalDepthIsInvalid_iff h⟩

/-! ### A closed object -/

/-- A string without escapes. -/
def quotedPlain (s : String) : List Char := '"' :: (s.toList ++ ['"'])

theorem contents_plain {cs : List Char}
    (h : ∀ c ∈ cs, c ≠ '"' ∧ c ≠ '\\' ∧ 0x20 ≤ c.toNat) : Contents cs cs := by
  induction cs with
  | nil => exact .nil
  | cons c cs ih =>
    obtain ⟨hquote, hslash, hplain⟩ := h c List.mem_cons_self
    have hrest := ih fun d hd => h d (List.mem_cons_of_mem c hd)
    exact .cons (.unescaped hquote hslash hplain) hrest

theorem stringToken_plain {s : String}
    (h : ∀ c ∈ s.toList, c ≠ '"' ∧ c ≠ '\\' ∧ 0x20 ≤ c.toNat) :
    StringToken (quotedPlain s) s.toList := ⟨s.toList, rfl, contents_plain h⟩

/-- An object with one member, and the value that it stands for. -/
def sampleText : List Char :=
  '{' :: (plainMembers [quotedPlain "title" ++ ':' :: quotedPlain "backup"] ++ ['}'])

/-- An object of one field. -/
def sampleValue : Value := .object [("title", .string "backup")]

/-- A deserializer that reads this object. -/
def sampleSerde : SerdeJson where
  fromStr text := if text = sampleText then offerOf sampleValue else .error
  ends _ := true
  finite _ := True

theorem fromStr_sample : sampleSerde.fromStr sampleText = offerOf sampleValue := by
  simp [sampleSerde]

theorem isText_sample (value : Value) : IsText sampleText value ↔ value = sampleValue := by
  have hname : StringToken (quotedPlain "title") "title".toList := stringToken_plain (by simp)
  have hstring : StringToken (quotedPlain "backup") "backup".toList :=
    stringToken_plain (by simp)
  have hbackup := delimited_string hstring
  rw [String.ofList_toList] at hbackup
  have hmember : PlainMember (quotedPlain "title" ++ ':' :: quotedPlain "backup")
      ("title", .string "backup") :=
    ⟨_, "title".toList, _, rfl, hname, String.ofList_toList.symm, hbackup⟩
  exact isText_plain_iff (.cons hmember .nil) (by simp) value

theorem everywhere_sample {p : Value → Prop} (hobject : p sampleValue)
    (hstring : p (.string "backup")) : Everywhere p sampleValue :=
  ⟨hobject, hstring, trivial⟩

theorem reads_sample : Reads sampleSerde sampleText where
  complete := by
    intro value hdenotes _ _
    rw [(isText_sample value).1 hdenotes]
    exact ⟨fromStr_sample, rfl⟩
  sound := by
    intro value hoffer _
    refine ⟨sampleValue, (isText_sample _).2 rfl, everywhere_sample trivial trivial, ?_⟩
    rw [← hoffer, fromStr_sample]

/-- The object is accepted when its member is allowed. -/
theorem strictJsonValue_accepts_sample :
    strictJsonValue sampleSerde (utf8Bytes (String.ofList sampleText)) ["title"] =
      .ok .accepted := by
  have htext : decodeUtf8 (utf8Bytes (String.ofList sampleText)) = some sampleText :=
    decodeUtf8_eq_some.2 rfl
  have hserde : ∀ text, decodeUtf8 (utf8Bytes (String.ofList sampleText)) = some text →
      Reads sampleSerde text := by
    intro text h
    rw [htext] at h
    rw [← Option.some.inj h]
    exact reads_sample
  have hclosed : Closed ["title"] sampleValue := by
    intro _
    refine ⟨_, rfl, ?_⟩
    simp [AllowedMember]
  have hdepth : nesting sampleValue ≤ 64 := by decide
  have hdistinct : Everywhere DistinctKeys sampleValue :=
    everywhere_sample (by simp [sampleValue, DistinctKeys]) trivial
  exact (strictJsonValue_accepts hserde).1.2 ⟨sampleText, sampleValue, htext,
    (isText_sample _).2 rfl, everywhere_sample trivial trivial, hdepth, hdistinct, hclosed⟩

end MsgRiver.Protocol
