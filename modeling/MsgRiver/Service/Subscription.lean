import Mathlib.Data.List.Permutation
import MsgRiver.Service.Webhook

/-!
# The subscription check

`handle_subscription` cuts the query at `&` and at the first `=` of each part, without decoding.
The verify token comes from `read_owner_only_token`, which admits every graphic ASCII byte.

The parts of the query become fields, and no part contains a `&`, so a token with one is never read
back from a query (`subscriptionAnswers_iff`).
-/

namespace MsgRiver.Service

open Ascii Text

/-! ### The token file -/

/-- `strip_suffix` on bytes. -/
def stripSuffix (ending bytes : List UInt8) : Option (List UInt8) :=
  if ending.isSuffixOf bytes then some (bytes.take (bytes.length - ending.length)) else none

/-- `contents` is what the checks on the file and the reads leave, none when one of them fails. -/
def readOwnerOnlyFile (contents : Option (List UInt8)) (maximumSize : ℕ) :
    Except String (List UInt8) :=
  match contents with
  | none => .error "WhatsApp token file is unsafe"
  | some bytes =>
    if 0 < bytes.length ∧ bytes.length ≤ maximumSize then .ok bytes
    else .error "WhatsApp token file is unsafe"

/-- `is_ascii_graphic`. -/
def isAsciiGraphic (c : Char) : Bool := '!' ≤ c && c ≤ '~'

/-- The token in a private file, without the line break at its end. -/
def readOwnerOnlyToken (contents : Option (List UInt8)) : Except String String :=
  match readOwnerOnlyFile contents 4097 with
  | .error message => .error message
  | .ok bytes =>
    let bytes := match stripSuffix [10] bytes with
      | some withNewline => (stripSuffix [13] withNewline).getD withNewline
      | none => bytes
    match decodeUtf8 bytes with
    | none => .error "WhatsApp token file is unsafe"
    | some token =>
      if token.isEmpty ∨ 4096 < (String.ofList token).utf8ByteSize
          ∨ ¬ token.all isAsciiGraphic = true then .error "WhatsApp token file is unsafe"
      else .ok (String.ofList token)

/-! ### One part of the query -/

/-- The fields read so far. -/
def Subscription.fields (subscription : Subscription) : List (List Char × List Char) :=
  (subscription.mode.map fun value => ("hub.mode".toList, value)).toList ++
    (subscription.token.map fun value => ("hub.verify_token".toList, value)).toList ++
    (subscription.challenge.map fun value => ("hub.challenge".toList, value)).toList

/-- A part that is read adds its field. -/
theorem fields_read {subscription next : Subscription} {part : List Char}
    (h : subscription.read part = some next) :
    ∃ field, splitOnce '=' part = some field ∧ next.fields.Perm (field :: subscription.fields) := by
  unfold Subscription.read at h
  cases hfield : splitOnce '=' part with
  | none =>
    rw [hfield] at h
    cases h
  | some field =>
    obtain ⟨key, value⟩ := field
    rw [hfield] at h
    dsimp only at h
    refine ⟨_, rfl, ?_⟩
    obtain ⟨mode, token, challenge⟩ := subscription
    split_ifs at h with hmode hseen htoken hseen hchallenge hseen
    · obtain rfl := Option.some.inj h
      obtain rfl := Option.not_isSome_iff_eq_none.1 hseen
      rw [hmode]
      exact .refl _
    · obtain rfl := Option.some.inj h
      obtain rfl := Option.not_isSome_iff_eq_none.1 hseen
      rw [htoken]
      simp only [Subscription.fields, Option.map_some, Option.map_none, Option.toList_some,
        Option.toList_none, List.append_nil, List.append_assoc]
      exact List.perm_middle
    · obtain rfl := Option.some.inj h
      obtain rfl := Option.not_isSome_iff_eq_none.1 hseen
      rw [hchallenge]
      simp only [Subscription.fields, Option.map_some, Option.map_none, Option.toList_some,
        Option.toList_none, List.append_nil]
      exact List.perm_append_comm

/-! ### The query -/

/-- A field of a query. -/
def writeField (field : List Char × List Char) : List Char := field.1 ++ '=' :: field.2

/-- The fields of a query, joined. -/
def writeQuery (fields : List (List Char × List Char)) : List Char :=
  ['&'].intercalate (fields.map writeField)

/-- The parts that are read are fields, and all of them are kept. -/
theorem fields_foldlM {parts : List (List Char)} {subscription final : Subscription}
    (h : parts.foldlM Subscription.read subscription = some final) :
    ∃ fields, parts = fields.map writeField ∧
      final.fields.Perm (fields ++ subscription.fields) := by
  induction parts generalizing subscription with
  | nil =>
    obtain rfl := Option.some.inj h
    exact ⟨[], rfl, .refl _⟩
  | cons part parts ih =>
    rw [List.foldlM_cons] at h
    obtain ⟨next, hnext, hrest⟩ := Option.bind_eq_some_iff.1 h
    obtain ⟨field, hfield, hread⟩ := fields_read hnext
    obtain ⟨fields, rfl, hfields⟩ := ih hrest
    refine ⟨field :: fields, ?_, ?_⟩
    · rw [List.map_cons, writeField, ← (splitOnce_eq_some hfield).2]
    · exact hfields.trans ((hread.append_left fields).trans List.perm_middle)

theorem read_writeField {subscription : Subscription} {key : List Char} (hkey : '=' ∉ key)
    (value : List Char) :
    subscription.read (writeField (key, value)) =
      if key = "hub.mode".toList then
        if subscription.mode.isSome then none else some { subscription with mode := some value }
      else if key = "hub.verify_token".toList then
        if subscription.token.isSome then none else some { subscription with token := some value }
      else if key = "hub.challenge".toList then
        if subscription.challenge.isSome then none
        else some { subscription with challenge := some value }
      else none := by
  unfold Subscription.read
  rw [writeField, splitOnce_append hkey]

theorem read_mode {subscription : Subscription} (h : subscription.mode = none) (value : List Char) :
    subscription.read (writeField ("hub.mode".toList, value)) =
      some { subscription with mode := some value } := by
  rw [read_writeField (by decide), h]
  rfl

theorem read_token {subscription : Subscription} (h : subscription.token = none)
    (value : List Char) :
    subscription.read (writeField ("hub.verify_token".toList, value)) =
      some { subscription with token := some value } := by
  rw [read_writeField (by decide), h]
  rfl

theorem read_challenge {subscription : Subscription} (h : subscription.challenge = none)
    (value : List Char) :
    subscription.read (writeField ("hub.challenge".toList, value)) =
      some { subscription with challenge := some value } := by
  rw [read_writeField (by decide), h]
  rfl

/-- The three parameters of a subscription check. -/
def genuineFields (token challenge : List Char) : List (List Char × List Char) :=
  [("hub.mode".toList, "subscribe".toList), ("hub.verify_token".toList, token),
    ("hub.challenge".toList, challenge)]

/-- The query has exactly these parameters, each once, in any order. -/
def GenuineQuery (token challenge query : List Char) : Prop :=
  ∃ fields, fields.Perm (genuineFields token challenge) ∧ query = writeQuery fields

/-- In every order the three fields are read. -/
theorem foldlM_read_genuine {token challenge : List Char} {fields : List (List Char × List Char)}
    (h : fields.Perm (genuineFields token challenge)) :
    (fields.map writeField).foldlM Subscription.read {} =
      some ⟨some "subscribe".toList, some token, some challenge⟩ := by
  have horder := List.mem_permutations'.2 h
  simp only [genuineFields, List.permutations', List.permutations'Aux, List.flatMap_cons,
    List.flatMap_nil, List.append_nil, List.map_cons, List.map_nil, List.mem_cons,
    List.cons_append, List.nil_append, List.not_mem_nil, or_false] at horder
  rcases horder with rfl | rfl | rfl | rfl | rfl | rfl
  all_goals
    simp only [List.map_cons, List.map_nil, List.foldlM_cons, List.foldlM_nil, read_mode,
      read_token, read_challenge, Option.bind_eq_bind, Option.bind_some]
    rfl

/-- The query is accepted. -/
theorem handleSubscription_eq_ok_iff {query challenge : List Char} {config : InboundConfig} :
    handleSubscription query config = (200, challenge) ↔
      validChallenge challenge = true ∧ ∃ subscription : Subscription,
        (splitOn (· == '&') query).foldlM Subscription.read {} = some subscription ∧
          subscription.mode = some "subscribe".toList ∧
          subscription.token = decodeUtf8 config.verifyToken ∧
          subscription.challenge = some challenge := by
  unfold handleSubscription
  constructor
  · intro h
    split at h
    · cases h
    · next subscription hfold =>
      split at h
      · cases h
      · next found hfound =>
        obtain ⟨hsome, hvalid⟩ := Option.filter_eq_some_iff.1 hfound
        by_cases hmode : subscription.mode = some "subscribe".toList
        · by_cases htoken : subscription.token = decodeUtf8 config.verifyToken
          · rw [if_neg (not_not.2 hmode), if_neg (not_not.2 htoken)] at h
            obtain ⟨-, rfl⟩ := Prod.mk.inj h
            exact ⟨hvalid, subscription, hfold, hmode, htoken, hsome⟩
          · rw [if_neg (not_not.2 hmode), if_pos htoken] at h
            cases h
        · rw [if_pos hmode] at h
          cases h
  · rintro ⟨hvalid, subscription, hfold, hmode, htoken, hchallenge⟩
    simp only [hfold, hchallenge, Option.filter_some_pos hvalid, hmode, htoken, ne_eq,
      not_true_eq_false, if_false]

/-- There are no other answers. -/
theorem handleSubscription_cases (query : List Char) (config : InboundConfig) :
    handleSubscription query config = (400, []) ∨ handleSubscription query config = (401, []) ∨
      ∃ challenge, handleSubscription query config = (200, challenge) := by
  unfold handleSubscription
  split
  · exact Or.inl rfl
  · split
    · exact Or.inl rfl
    · next found _ =>
      split_ifs
      · exact Or.inl rfl
      · exact Or.inr (Or.inl rfl)
      · exact Or.inr (Or.inr ⟨found, rfl⟩)

/-- What an accepted query is, whatever the token. -/
theorem genuine_of_handleSubscription {query challenge token : List Char} {config : InboundConfig}
    (htoken : decodeUtf8 config.verifyToken = some token)
    (h : handleSubscription query config = (200, challenge)) :
    GenuineQuery token challenge query ∧ validChallenge challenge = true ∧ '&' ∉ challenge ∧
      '&' ∉ token := by
  obtain ⟨hvalid, subscription, hfold, hmode, hsame, hchallenge⟩ := handleSubscription_eq_ok_iff.1 h
  obtain ⟨fields, hparts, hfields⟩ := fields_foldlM hfold
  obtain ⟨-, hclear, hquery⟩ := splitOn_eq_iff.1 hparts
  rw [htoken] at hsame
  have hgenuine : fields.Perm (genuineFields token challenge) := by
    have hread : subscription.fields = genuineFields token challenge := by
      unfold Subscription.fields
      rw [hmode, hsame, hchallenge]
      rfl
    rw [← hread]
    exact (hfields.trans (.of_eq (List.append_nil fields))).symm
  have hpart : ∀ field ∈ genuineFields token challenge, '&' ∉ field.2 := by
    intro field hfield hmem
    refine hclear _ (List.mem_map_of_mem (hgenuine.mem_iff.2 hfield)) ?_
    exact List.mem_append_right _ (List.mem_cons_of_mem _ hmem)
  exact ⟨⟨fields, hgenuine, hquery.symm⟩, hvalid,
    hpart ("hub.challenge".toList, challenge) (by simp [genuineFields]),
    hpart ("hub.verify_token".toList, token) (by simp [genuineFields])⟩

/-- A genuine query is accepted, unless the token contains the separator. -/
theorem handleSubscription_of_genuine {query challenge token : List Char} {config : InboundConfig}
    (htoken : decodeUtf8 config.verifyToken = some token) (hclear : '&' ∉ token)
    (hgenuine : GenuineQuery token challenge query) (hvalid : validChallenge challenge = true)
    (hchallenge : '&' ∉ challenge) : handleSubscription query config = (200, challenge) := by
  obtain ⟨fields, hfields, rfl⟩ := hgenuine
  have hparts : splitOn (· == '&') (writeQuery fields) = fields.map writeField := by
    refine splitOn_eq_iff.2 ⟨?_, ?_, rfl⟩
    · intro hnil
      have hlength := hfields.length_eq
      rw [List.map_eq_nil_iff.1 hnil] at hlength
      cases hlength
    · have hall : ∀ field ∈ genuineFields token challenge, '&' ∉ writeField field := by
        simp [genuineFields, writeField, hclear, hchallenge]
      rintro part hpart
      obtain ⟨field, hfield, rfl⟩ := List.mem_map.1 hpart
      exact hall field (hfields.mem_iff.1 hfield)
  refine handleSubscription_eq_ok_iff.2
    ⟨hvalid, ⟨some "subscribe".toList, some token, some challenge⟩, ?_, rfl, htoken.symm, rfl⟩
  rw [hparts]
  exact foldlM_read_genuine hfields

/-! ### The check as a whole -/

/-- The genuine queries, and no others, are answered with their challenge; the others with 400 or
401. -/
def AnswersGenuine (token : List Char) (config : InboundConfig) : Prop :=
  (∀ query challenge, handleSubscription query config = (200, challenge) ↔
    GenuineQuery token challenge query ∧ validChallenge challenge = true ∧ '&' ∉ challenge) ∧
  ∀ query, (∀ challenge, ¬ (GenuineQuery token challenge query ∧ validChallenge challenge = true ∧
      '&' ∉ challenge)) →
    handleSubscription query config = (400, []) ∨ handleSubscription query config = (401, [])

theorem answersGenuine_iff_of_decodes {token : List Char} {config : InboundConfig}
    (htoken : decodeUtf8 config.verifyToken = some token) :
    AnswersGenuine token config ↔ '&' ∉ token := by
  constructor
  · rintro ⟨hanswers, -⟩
    have haccepted := (hanswers (writeQuery (genuineFields token ['x'])) ['x']).2
      ⟨⟨_, .refl _, rfl⟩, by decide +kernel, by decide⟩
    exact (genuine_of_handleSubscription htoken haccepted).2.2.2
  · intro hclear
    have hanswers : ∀ query challenge, handleSubscription query config = (200, challenge) ↔
        GenuineQuery token challenge query ∧ validChallenge challenge = true ∧
          '&' ∉ challenge := by
      intro query challenge
      constructor
      · intro haccepted
        obtain ⟨hgenuine, hvalid, hchallenge, -⟩ :=
          genuine_of_handleSubscription htoken haccepted
        exact ⟨hgenuine, hvalid, hchallenge⟩
      · rintro ⟨hgenuine, hvalid, hchallenge⟩
        exact handleSubscription_of_genuine htoken hclear hgenuine hvalid hchallenge
    refine ⟨hanswers, fun query hother => ?_⟩
    rcases handleSubscription_cases query config with hbad | hdenied | ⟨challenge, haccepted⟩
    · exact Or.inl hbad
    · exact Or.inr hdenied
    · exact absurd ((hanswers query challenge).1 haccepted) (hother challenge)

/-- **The genuine queries are answered** exactly when the token does not contain `&`. -/
theorem answersGenuine_iff {contents : Option (List UInt8)} {config : InboundConfig}
    (hfile : (readOwnerOnlyToken contents).map utf8Bytes = .ok config.verifyToken) :
    ∃ token : String, readOwnerOnlyToken contents = .ok token ∧
      (AnswersGenuine token.toList config ↔ '&' ∉ token.toList) := by
  cases hread : readOwnerOnlyToken contents with
  | error message =>
    rw [hread] at hfile
    cases hfile
  | ok token =>
    rw [hread] at hfile
    refine ⟨token, rfl, answersGenuine_iff_of_decodes ?_⟩
    rw [← Except.ok.inj hfile, decodeUtf8_utf8Bytes]

/-- An inbound configuration with the given verify token. -/
def configWithToken (token : String) : InboundConfig where
  appSecret := codes "secret".toList
  verifyToken := codes token.toList
  policy := [("15550001111", "notify")]
  ntfyTopic := "alerts"
  wabaId := "waba"
  phoneId := "123"

/-- The token of the end-to-end test. -/
theorem answersGenuine_plainToken :
    AnswersGenuine "m4-verify-token".toList (configWithToken "m4-verify-token") := by
  obtain ⟨token, hread, hanswers⟩ :=
    @answersGenuine_iff (some (codes "m4-verify-token\n".toList))
      (configWithToken "m4-verify-token") (by decide +kernel)
  have hplain : readOwnerOnlyToken (some (codes "m4-verify-token\n".toList)) =
      .ok "m4-verify-token" := by decide +kernel
  rw [hread] at hplain
  obtain rfl := Except.ok.inj hplain
  exact hanswers.2 (by decide)

theorem not_answersGenuine_separator :
    ¬ ∀ (contents : Option (List UInt8)) (token : String) (config : InboundConfig),
      readOwnerOnlyToken contents = .ok token → config.verifyToken = utf8Bytes token →
        AnswersGenuine token.toList config := by
  intro hall
  have hgenuine := hall (some (codes "a&b\n".toList)) "a&b" (configWithToken "a&b")
    (by decide +kernel) (by decide +kernel)
  have haccepted := (hgenuine.1 (writeQuery (genuineFields "a&b".toList ['x'])) ['x']).2
    ⟨⟨_, .refl _, rfl⟩, by decide +kernel, by decide⟩
  have hrefused : handleSubscription (writeQuery (genuineFields "a&b".toList ['x']))
      (configWithToken "a&b") = (400, []) := by decide +kernel
  rw [haccepted] at hrefused
  cases hrefused

end MsgRiver.Service
