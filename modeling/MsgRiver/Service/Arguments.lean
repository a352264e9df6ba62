import Mathlib.Data.List.TakeWhile
import MsgRiver.Lib.Result
import MsgRiver.Lib.Text

/-!
# The arguments of the service

`validate_service_arguments` reads the vector as pairs of a name and a value.  `flag` and
`optional_flag` search it position by position, and may find a name where a value stands.

`flag_agrees_iff` says when they find the value of the pair.
-/

namespace MsgRiver.Service

open Result Ascii Text

/-- An operating system string: any bytes. -/
abbrev OsString := List UInt8

/-- `to_str`. -/
def toStr (s : OsString) : Option String := (decodeUtf8 s).map String.ofList

/-- The flags of `serve`. -/
def serviceFlags : List String :=
  ["--state-dir", "--socket", "--ntfy-url", "--ntfy-topic", "--whatsapp-url", "--whatsapp-phone-id",
    "--whatsapp-token-file", "--whatsapp-ca-file", "--whatsapp-template", "--whatsapp-locale",
    "--whatsapp-parameter-count", "--whatsapp-inbound-listen", "--whatsapp-inbound-app-secret-file",
    "--whatsapp-inbound-verify-token-file", "--whatsapp-inbound-policy-file",
    "--whatsapp-inbound-ntfy-topic", "--whatsapp-inbound-waba-id", "--whatsapp-inbound-phone-id"]

/-- `chunks_exact(2)`. -/
def pairsOf {α : Type} : List α → List (α × α)
  | a :: b :: rest => (a, b) :: pairsOf rest
  | _ => []

/-- The names seen after one more pair. -/
def checkPair (seen : List String) (pair : OsString × OsString) : Except String (List String) := do
  let name ← orError "invalid service arguments" (toStr pair.1)
  reject (!serviceFlags.contains name || seen.contains name) "invalid service arguments"
  return name :: seen

/-- Flags and values in turn, no flag unknown or twice, and the required ones there. -/
def validateServiceArguments (arguments : List OsString) : Except String Unit := do
  reject (arguments.length % 2 != 0) "invalid service arguments"
  let seen ← (pairsOf arguments).foldlM checkPair []
  ["--state-dir", "--socket", "--ntfy-url", "--ntfy-topic"].forM fun required =>
    reject (!seen.contains required) "missing required argument"

/-- The text of an argument that is not empty. -/
def textOf (argument : Option OsString) : Except String String :=
  orError "invalid argument" ((argument.bind toStr).filter fun value => !value.isEmpty)

/-- The value of a flag that must be there. -/
def flag (arguments : List OsString) (name : String) : Except String String := do
  let index ← orError "missing required argument"
    (arguments.findIdx? fun argument => argument == utf8Bytes name)
  textOf arguments[index + 1]?

/-- The value of a flag that may be missing. -/
def optionalFlag (arguments : List OsString) (name : String) : Except String (Option String) :=
  match arguments.findIdx? fun argument => argument == utf8Bytes name with
  | some index => some <$> textOf arguments[index + 1]?
  | none => .ok none

/-! ### Names -/

theorem toStr_utf8Bytes (s : String) : toStr (utf8Bytes s) = some s := by
  rw [toStr, decodeUtf8_utf8Bytes, Option.map_some, String.ofList_toList]

theorem utf8Bytes_of_toStr {bytes : OsString} {s : String} (h : toStr bytes = some s) :
    utf8Bytes s = bytes := by
  obtain ⟨cs, hdecode, rfl⟩ := Option.map_eq_some_iff.1 h
  exact decodeUtf8_eq_some.1 hdecode

/-- The names that a loop over pairs has seen. -/
theorem foldlM_checkPair {pairs : List (OsString × OsString)} {seen names : List String}
    (h : pairs.foldlM checkPair seen = .ok names) :
    (∀ p ∈ pairs, ∃ name ∈ serviceFlags, p.1 = utf8Bytes name ∧ name ∉ seen) ∧
      (pairs.map Prod.fst).Nodup := by
  induction pairs generalizing seen with
  | nil => simp
  | cons p pairs ih =>
    rw [List.foldlM_cons] at h
    obtain ⟨seen', hcheck, h⟩ := bind_eq_ok.1 h
    obtain ⟨name, hname, hcheck⟩ := orError_bind_eq_ok.1 hcheck
    obtain ⟨hguard, hseen⟩ := reject_bind_eq_ok.1 hcheck
    cases hseen
    have hguard : name ∈ serviceFlags ∧ name ∉ seen := by simpa using hguard
    have hbytes := utf8Bytes_of_toStr hname
    obtain ⟨hall, hnodup⟩ := ih h
    constructor
    · rintro q hq
      rcases List.mem_cons.1 hq with rfl | hq
      · exact ⟨name, hguard.1, hbytes.symm, hguard.2⟩
      · obtain ⟨other, hflag, hother, hfresh⟩ := hall q hq
        exact ⟨other, hflag, hother, fun hmem => hfresh (List.mem_cons_of_mem _ hmem)⟩
    · rw [List.map_cons, List.nodup_cons]
      refine ⟨?_, hnodup⟩
      intro hmem
      obtain ⟨q, hq, heq⟩ := List.mem_map.1 hmem
      obtain ⟨other, -, hother, hfresh⟩ := hall q hq
      refine hfresh ?_
      rw [← utf8Bytes_injective (hbytes.trans (heq.symm.trans hother))]
      exact List.mem_cons_self

/-- The vector that the pairs make up. -/
def flatten {α : Type} (pairs : List (α × α)) : List α := pairs.flatMap fun p => [p.1, p.2]

theorem flatten_pairsOf {α : Type} : ∀ {arguments : List α}, arguments.length % 2 = 0 →
    flatten (pairsOf arguments) = arguments
  | [], _ => rfl
  | [_], h => by simp at h
  | a :: b :: rest, h => by
    have hrest : rest.length % 2 = 0 := by
      simp only [List.length_cons] at h
      omega
    rw [pairsOf, flatten, List.flatMap_cons, ← flatten, flatten_pairsOf hrest]
    rfl

/-- What an accepted vector is. -/
theorem accepted {arguments : List OsString} (h : validateServiceArguments arguments = .ok ()) :
    flatten (pairsOf arguments) = arguments ∧
      (∀ p ∈ pairsOf arguments, ∃ name ∈ serviceFlags, p.1 = utf8Bytes name) ∧
      ((pairsOf arguments).map Prod.fst).Nodup := by
  obtain ⟨hlength, h⟩ := reject_bind_eq_ok.1 h
  obtain ⟨names, hnames, -⟩ := bind_eq_ok.1 h
  obtain ⟨hall, hnodup⟩ := foldlM_checkPair hnames
  refine ⟨flatten_pairsOf (by simpa using hlength), ?_, hnodup⟩
  intro p hp
  obtain ⟨name, hflag, hname, -⟩ := hall p hp
  exact ⟨name, hflag, hname⟩

/-! ### The search -/

/-- The argument behind the first one that equals `name`. -/
def behind (name : OsString) : List OsString → Option (Option OsString)
  | [] => none
  | a :: rest => if a = name then some rest.head? else behind name rest

theorem behind_eq (name : OsString) (arguments : List OsString) :
    (arguments.findIdx? fun argument => argument == name).map (fun i => arguments[i + 1]?) =
      behind name arguments := by
  induction arguments with
  | nil => rfl
  | cons a rest ih =>
    rw [List.findIdx?_cons, behind]
    by_cases h : a = name
    · simp [h, List.head?_eq_getElem?]
    · simp [h, ← ih, Function.comp_def]

theorem flag_eq (arguments : List OsString) (name : String) :
    flag arguments name =
      (orError "missing required argument" (behind (utf8Bytes name) arguments) >>= textOf) := by
  rw [← behind_eq, flag]
  cases arguments.findIdx? fun argument => argument == utf8Bytes name <;> rfl

theorem optionalFlag_eq (arguments : List OsString) (name : String) :
    optionalFlag arguments name = match behind (utf8Bytes name) arguments with
      | some value => some <$> textOf value
      | none => .ok none := by
  rw [← behind_eq, optionalFlag]
  cases arguments.findIdx? fun argument => argument == utf8Bytes name <;> rfl

/-- Pairs in which the name does not stand are passed over. -/
theorem behind_flatten_append {name : OsString} {before : List (OsString × OsString)}
    (h : ∀ p ∈ before, p.1 ≠ name ∧ p.2 ≠ name) (rest : List (OsString × OsString)) :
    behind name (flatten (before ++ rest)) = behind name (flatten rest) := by
  induction before with
  | nil => rfl
  | cons p before ih =>
    obtain ⟨hp, hbefore⟩ := List.forall_mem_cons.1 h
    have hflat : flatten (p :: before ++ rest) = p.1 :: p.2 :: flatten (before ++ rest) := rfl
    rw [hflat, behind, behind, if_neg hp.1, if_neg hp.2, ih hbefore]

theorem behind_eq_none {name : OsString} {pairs : List (OsString × OsString)} :
    behind name (flatten pairs) = none ↔ ∀ p ∈ pairs, p.1 ≠ name ∧ p.2 ≠ name := by
  induction pairs with
  | nil => simp [flatten, behind]
  | cons p pairs ih =>
    have hflat : flatten (p :: pairs) = p.1 :: p.2 :: flatten pairs := rfl
    rw [hflat, behind, behind, List.forall_mem_cons, ← ih]
    by_cases hname : p.1 = name
    · simp [hname]
    rw [if_neg hname]
    by_cases hvalue : p.2 = name
    · simp [hvalue]
    · simp [hname, hvalue]

/-- The value of the pair is what stands behind the first argument that equals its name: no earlier
value equals the name, or the name behind the first such value happens to be the value. -/
def Undisturbed (name value : OsString) (before : List (OsString × OsString)) : Prop :=
  (∀ p ∈ before, p.2 ≠ name) ∨
    ∃ earlier p later, before = earlier ++ p :: later ∧ (∀ q ∈ earlier, q.2 ≠ name) ∧
      p.2 = name ∧ ((later ++ [(name, value)]).map Prod.fst).head? = some value

theorem head?_flatten (pairs : List (OsString × OsString)) :
    (flatten pairs).head? = (pairs.map Prod.fst).head? := by
  cases pairs <;> rfl

theorem behind_pair (name value : OsString) (after : List (OsString × OsString)) :
    behind name (flatten ((name, value) :: after)) = some (some value) := by
  have hflat : flatten ((name, value) :: after) = name :: value :: flatten after := rfl
  rw [hflat, behind, if_pos rfl]
  rfl

/-- A value that equals the name hides the pair. -/
theorem behind_value {name : OsString} {p : OsString × OsString} (hname : p.1 ≠ name)
    (hvalue : p.2 = name) (rest : List (OsString × OsString)) :
    behind name (flatten (p :: rest)) = some (rest.map Prod.fst).head? := by
  have hflat : flatten (p :: rest) = p.1 :: p.2 :: flatten rest := rfl
  rw [hflat, behind, behind, if_neg hname, if_pos hvalue, head?_flatten]

theorem head?_append_pair (later after : List (OsString × OsString)) (name value : OsString) :
    ((later ++ (name, value) :: after).map Prod.fst).head? =
      ((later ++ [(name, value)]).map Prod.fst).head? := by
  cases later <;> rfl

/-- The search finds the value of a pair exactly when nothing before it disturbs the search. -/
theorem behind_eq_value_iff {name value : OsString} {before after : List (OsString × OsString)}
    (hnames : ∀ p ∈ before, p.1 ≠ name) :
    behind name (flatten (before ++ (name, value) :: after)) = some (some value) ↔
      Undisturbed name value before := by
  have hfound : ∀ {earlier later : List (OsString × OsString)} {p : OsString × OsString},
      before = earlier ++ p :: later → (∀ q ∈ earlier, q.2 ≠ name) → p.2 = name →
      behind name (flatten (before ++ (name, value) :: after)) =
        some ((later ++ [(name, value)]).map Prod.fst).head? := by
    rintro earlier later p rfl hearlier hp
    have hclear : ∀ q ∈ earlier, q.1 ≠ name ∧ q.2 ≠ name := fun q hq =>
      ⟨hnames q (List.mem_append_left _ hq), hearlier q hq⟩
    rw [List.append_assoc, behind_flatten_append hclear, List.cons_append,
      behind_value (hnames p (by simp)) hp, head?_append_pair]
  constructor
  · intro h
    by_cases hclear : ∀ p ∈ before, p.2 ≠ name
    · exact Or.inl hclear
    -- The first value that equals the name.
    have hsplit := List.takeWhile_append_dropWhile (p := fun p => p.2 != name) (l := before)
    cases hdrop : before.dropWhile fun p => p.2 != name with
    | nil =>
      refine absurd ?_ hclear
      intro p hp
      have hall := List.dropWhile_eq_nil_iff.1 hdrop p hp
      simpa using hall
    | cons p later =>
      have hp : p.2 = name := by
        have hhead := List.head?_dropWhile_not (fun p : OsString × OsString => p.2 != name) before
        rw [hdrop] at hhead
        simpa using hhead
      have hearlier : ∀ q ∈ before.takeWhile fun p => p.2 != name, q.2 ≠ name := by
        intro q hq
        simpa using List.mem_takeWhile_imp hq
      rw [hdrop] at hsplit
      refine Or.inr ⟨_, p, later, hsplit.symm, hearlier, hp, ?_⟩
      rw [hfound hsplit.symm hearlier hp] at h
      exact Option.some.inj h
  · rintro (hclear | ⟨earlier, p, later, hbefore, hearlier, hp, hhead⟩)
    · rw [behind_flatten_append fun p hp => ⟨hnames p hp, hclear p hp⟩, behind_pair]
    · rw [hfound hbefore hearlier hp, hhead]

/-! ### What the lookups return -/

theorem textOf_eq_ok_iff {argument : Option OsString} {value : String} :
    textOf argument = .ok value ↔ argument = some (utf8Bytes value) ∧ value.isEmpty = false := by
  rw [textOf, orError_eq_ok, Option.filter_eq_some_iff, Option.bind_eq_some_iff]
  constructor
  · rintro ⟨⟨bytes, rfl, htext⟩, hne⟩
    rw [utf8Bytes_of_toStr htext]
    exact ⟨rfl, by simpa using hne⟩
  · rintro ⟨rfl, hne⟩
    exact ⟨⟨_, rfl, toStr_utf8Bytes value⟩, by simpa using hne⟩

theorem flag_eq_ok_iff {arguments : List OsString} {name value : String} :
    flag arguments name = .ok value ↔
      behind (utf8Bytes name) arguments = some (some (utf8Bytes value)) ∧
        value.isEmpty = false := by
  rw [flag_eq, bind_eq_ok]
  constructor
  · rintro ⟨argument, hargument, htext⟩
    obtain ⟨rfl, hne⟩ := textOf_eq_ok_iff.1 htext
    exact ⟨orError_eq_ok.1 hargument, hne⟩
  · rintro ⟨hbehind, hne⟩
    exact ⟨_, orError_eq_ok.2 hbehind, textOf_eq_ok_iff.2 ⟨rfl, hne⟩⟩

theorem optionalFlag_eq_some_iff {arguments : List OsString} {name value : String} :
    optionalFlag arguments name = .ok (some value) ↔ flag arguments name = .ok value := by
  rw [optionalFlag_eq, flag_eq]
  cases behind (utf8Bytes name) arguments with
  | none => simp [orError, bind, Except.bind]
  | some argument =>
    rw [map_eq_ok]
    simp [orError, bind, Except.bind]

theorem optionalFlag_eq_none_iff {arguments : List OsString} {name : String} :
    optionalFlag arguments name = .ok none ↔ behind (utf8Bytes name) arguments = none := by
  rw [optionalFlag_eq]
  cases behind (utf8Bytes name) arguments with
  | none => simp
  | some argument =>
    rw [map_eq_ok]
    simp

/-- **The lookups agree with the pairs** exactly when no value is taken for a name: the value of a
pair is found when nothing before it disturbs the search, and the name of no pair is not found when
no value equals it. -/
theorem flag_agrees_iff {arguments : List OsString}
    (h : validateServiceArguments arguments = .ok ()) :
    (∀ (name value : String) (before after : List (OsString × OsString)),
      pairsOf arguments = before ++ (utf8Bytes name, utf8Bytes value) :: after →
      value.isEmpty = false →
      ((flag arguments name = .ok value ∧ optionalFlag arguments name = .ok (some value)) ↔
        Undisturbed (utf8Bytes name) (utf8Bytes value) before)) ∧
    ∀ name : String, (∀ p ∈ pairsOf arguments, p.1 ≠ utf8Bytes name) →
      (optionalFlag arguments name = .ok none ↔
        ∀ p ∈ pairsOf arguments, p.2 ≠ utf8Bytes name) := by
  obtain ⟨hflatten, -, hnodup⟩ := accepted h
  constructor
  · intro name value before after hpairs hne
    have hnames : ∀ p ∈ before, p.1 ≠ utf8Bytes name := by
      intro p hp heq
      rw [hpairs, List.map_append, List.nodup_append] at hnodup
      exact hnodup.2.2 p.1 (List.mem_map_of_mem hp) (utf8Bytes name) (by simp) heq
    rw [optionalFlag_eq_some_iff, and_self, flag_eq_ok_iff, and_iff_left hne,
      ← behind_eq_value_iff hnames, ← hpairs, hflatten]
  · intro name hnames
    rw [optionalFlag_eq_none_iff, ← hflatten, behind_eq_none, hflatten]
    exact ⟨fun hall p hp => (hall p hp).2, fun hall p hp => ⟨hnames p hp, hall p hp⟩⟩

/-- A vector in which a state directory is called like a flag. -/
def disturbedArguments : List OsString :=
  ["--state-dir", "--socket", "--socket", "/x", "--ntfy-url", "u", "--ntfy-topic", "t"].map utf8Bytes

/-- The required flags only. -/
def plainArguments : List OsString :=
  ["--state-dir", "/s", "--socket", "/s/x", "--ntfy-url", "u", "--ntfy-topic", "t"].map utf8Bytes

theorem flag_plainArguments : flag plainArguments "--socket" = .ok "/s/x" := by
  have hpairs : pairsOf plainArguments = [(utf8Bytes "--state-dir", utf8Bytes "/s")] ++
      (utf8Bytes "--socket", utf8Bytes "/s/x") :: [(utf8Bytes "--ntfy-url", utf8Bytes "u"),
        (utf8Bytes "--ntfy-topic", utf8Bytes "t")] := rfl
  have hclear : ∀ p ∈ [(utf8Bytes "--state-dir", utf8Bytes "/s")], p.2 ≠ utf8Bytes "--socket" := by
    decide +kernel
  exact (((flag_agrees_iff (by decide +kernel)).1 _ _ _ _ hpairs (by decide)).2 (Or.inl hclear)).1

/-- The socket is looked up behind the value of the state directory. -/
theorem flag_disturbedArguments : ¬ ∀ arguments : List OsString,
    validateServiceArguments arguments = .ok () → ∀ name value : String,
      (utf8Bytes name, utf8Bytes value) ∈ pairsOf arguments → value.isEmpty = false →
      flag arguments name = .ok value ∧ optionalFlag arguments name = .ok (some value) := by
  intro h
  have hsocket := (h disturbedArguments (by decide +kernel) "--socket" "/x" (by decide +kernel)
    (by decide)).1
  revert hsocket
  decide +kernel

end MsgRiver.Service
