import MsgRiver.Service.Local

/-!
# The two scanners of `Content-Length`

The local interface scans the head with `content_length`, the webhook with `header_once`.  The first
records the number of a field and the second its text, so a field that is no number leaves no trace
in the first.

`contentLength_agrees_iff`: they part exactly on heads where such fields come before the last one.
-/

namespace MsgRiver.Service

open Text

/-- A header with the name of the length, in any case. -/
def namesLength (field : List Char × List Char) : Bool :=
  eqIgnoreAsciiCase field.1 "content-length".toList

/-- The trimmed values of the fields named `Content-Length`. -/
def lengthValues (fields : List (List Char × List Char)) : List (List Char) :=
  (fields.filter namesLength).map fun field => trim field.2

/-- `parse::<usize>`. -/
def parseLength (value : List Char) : Option ℕ := parseUnsigned (2 ^ 64 - 1) value

/-- The last value is a number, and none before it is. -/
def LastLength (values : List (List Char)) (n : ℕ) : Prop :=
  ∃ earlier last, values = earlier ++ [last] ∧ (∀ value ∈ earlier, parseLength value = none) ∧
    parseLength last = some n

theorem lengthValues_cons_of_name {field : List Char × List Char}
    {fields : List (List Char × List Char)} (h : namesLength field = true) :
    lengthValues (field :: fields) = trim field.2 :: lengthValues fields := by
  simp [lengthValues, h]

theorem lengthValues_cons_of_not {field : List Char × List Char}
    {fields : List (List Char × List Char)} (h : ¬ namesLength field = true) :
    lengthValues (field :: fields) = lengthValues fields := by
  simp [lengthValues, h]

/-- A value that is no number changes nothing. -/
theorem lastLength_cons_of_none {value : List Char} (h : parseLength value = none)
    {values : List (List Char)} {n : ℕ} : LastLength (value :: values) n ↔ LastLength values n := by
  constructor
  · rintro ⟨earlier, last, hvalues, hearlier, hlast⟩
    cases earlier with
    | nil =>
      obtain ⟨rfl, -⟩ := List.cons.inj hvalues
      rw [h] at hlast
      cases hlast
    | cons first earlier =>
      exact ⟨earlier, last, (List.cons.inj hvalues).2,
        fun v hv => hearlier v (List.mem_cons_of_mem _ hv), hlast⟩
  · rintro ⟨earlier, last, rfl, hearlier, hlast⟩
    exact ⟨value :: earlier, last, rfl, List.forall_mem_cons.2 ⟨h, hearlier⟩, hlast⟩

/-- A number comes last. -/
theorem lastLength_cons_of_some {value : List Char} {m : ℕ} (h : parseLength value = some m)
    {values : List (List Char)} {n : ℕ} : LastLength (value :: values) n ↔ values = [] ∧ m = n := by
  constructor
  · rintro ⟨earlier, last, hvalues, hearlier, hlast⟩
    cases earlier with
    | nil =>
      obtain ⟨rfl, rfl⟩ := List.cons.inj hvalues
      rw [h] at hlast
      exact ⟨rfl, Option.some.inj hlast⟩
    | cons first earlier =>
      obtain ⟨rfl, -⟩ := List.cons.inj hvalues
      have hnone := hearlier value List.mem_cons_self
      rw [h] at hnone
      cases hnone
  · rintro ⟨rfl, rfl⟩
    exact ⟨[], value, rfl, by simp, h⟩

/-- What the loop of `content_length` finds: `found` and nothing else, or the last length. -/
theorem lengthFrom_eq_some {found : Option ℕ} {lines : List (List Char)} {n : ℕ} :
    lengthFrom found lines = some n ↔ ∃ fields, lines.mapM (splitOnce ':') = some fields ∧
      (found = some n ∧ lengthValues fields = [] ∨
        found = none ∧ LastLength (lengthValues fields) n) := by
  -- a length is refused as the second one only if the first could be read
  induction lines generalizing found with
  | nil =>
    cases found <;> simp [lengthFrom, lengthValues, LastLength]
  | cons line lines ih =>
    rw [lengthFrom, List.mapM_cons]
    cases splitOnce ':' line with
    | none => simp
    | some field =>
      obtain ⟨name, value⟩ := field
      simp only [Option.bind_eq_bind, Option.bind_some, Option.bind_eq_some_iff, Option.pure_def,
        Option.some.injEq]
      by_cases hname : namesLength (name, value) = true
      · rw [if_pos (by exact hname)]
        cases found with
        | some m =>
          simp only [Option.isSome_some, if_true, reduceCtorEq, false_iff, false_and, or_false]
          rintro ⟨_, ⟨fields, -, rfl⟩, -, hnil⟩
          rw [lengthValues_cons_of_name hname] at hnil
          cases hnil
        | none =>
          simp only [Option.isSome_none, Bool.false_eq_true, if_false, reduceCtorEq, false_and,
            false_or, true_and]
          rw [← parseLength, ih]
          constructor
          · rintro ⟨fields, hfields, hcase⟩
            refine ⟨_, ⟨fields, hfields, rfl⟩, ?_⟩
            rw [lengthValues_cons_of_name hname]
            rcases hcase with ⟨hfirst, hnil⟩ | ⟨hfirst, hlast⟩
            · exact (lastLength_cons_of_some hfirst).2 ⟨hnil, rfl⟩
            · exact (lastLength_cons_of_none hfirst).2 hlast
          · rintro ⟨_, ⟨fields, hfields, rfl⟩, hlast⟩
            refine ⟨fields, hfields, ?_⟩
            rw [lengthValues_cons_of_name hname] at hlast
            cases hfirst : parseLength (trim value) with
            | none => exact Or.inr ⟨rfl, (lastLength_cons_of_none hfirst).1 hlast⟩
            | some m =>
              obtain ⟨hnil, rfl⟩ := (lastLength_cons_of_some hfirst).1 hlast
              exact Or.inl ⟨rfl, hnil⟩
      · rw [if_neg (by exact hname), ih]
        constructor
        · rintro ⟨fields, hfields, hcase⟩
          refine ⟨_, ⟨fields, hfields, rfl⟩, ?_⟩
          rwa [lengthValues_cons_of_not hname]
        · rintro ⟨_, ⟨fields, hfields, rfl⟩, hcase⟩
          rw [lengthValues_cons_of_not hname] at hcase
          exact ⟨fields, hfields, hcase⟩

/-- The fields of a head: every line after the first has a colon. -/
def headFields (head : List Char) : Option (List (List Char × List Char)) :=
  ((splitCrLf head).drop 1).mapM (splitOnce ':')

theorem contentLength_eq_some_iff {head : List Char} {route : LocalRoute}
    (hroute : routeOf (requestLineOf head) = some route) {n : ℕ} :
    contentLength head = some (route, n) ↔
      ∃ fields, headFields head = some fields ∧ LastLength (lengthValues fields) n := by
  have hlength : lengthFrom none ((splitCrLf head).drop 1) = some n ↔
      ∃ fields, headFields head = some fields ∧ LastLength (lengthValues fields) n := by
    rw [lengthFrom_eq_some]
    simp [headFields]
  rw [← hlength, contentLength, hroute]
  simp only [Option.bind_eq_bind, Option.bind_some, Option.bind_eq_some_iff, Option.pure_def,
    Option.some.injEq, Prod.mk.injEq, true_and, exists_eq_right]

theorem announcedLength_eq_some_iff {head : List Char} {n : ℕ} :
    announcedLength head = some n ↔ ∃ fields value, headFields head = some fields ∧
      lengthValues fields = [value] ∧ parseLength value = some n := by
  rw [announcedLength, Option.bind_eq_some_iff]
  constructor
  · rintro ⟨value, hvalue, hn⟩
    obtain ⟨fields, hfields, hone⟩ := headerOnce_eq_some.1 hvalue
    exact ⟨fields, value, hfields, hone, hn⟩
  · rintro ⟨fields, value, hfields, hone, hn⟩
    exact ⟨value, headerOnce_eq_some.2 ⟨fields, hfields, hone⟩, hn⟩

/-- Every line has a colon, and of two or more `Content-Length` fields only the last one is a
number. -/
def RepeatedLength (head : List Char) : Prop :=
  ∃ fields earlier last, headFields head = some fields ∧
    lengthValues fields = earlier ++ [last] ∧ earlier ≠ [] ∧
    (∀ value ∈ earlier, parseLength value = none) ∧ (parseLength last).isSome = true

/-- `content_length` finds the number of the only `Content-Length` field of a head, all of whose
lines have a colon, and that is the number that `header_once` leads to. -/
def FindsOnlyLength (head : List Char) (route : LocalRoute) : Prop :=
  (∀ n, contentLength head = some (route, n) ↔ ∃ fields value, headFields head = some fields ∧
    lengthValues fields = [value] ∧ parseLength value = some n) ∧
  (contentLength head).map Prod.snd = announcedLength head

/-- **The scanners agree** exactly when the head is not one of those. -/
theorem contentLength_agrees_iff {head : List Char} {route : LocalRoute}
    (hroute : routeOf (requestLineOf head) = some route) :
    FindsOnlyLength head route ↔ ¬ RepeatedLength head := by
  constructor
  · rintro ⟨hfinds, -⟩ ⟨fields, earlier, last, hfields, hvalues, hne, hearlier, hlast⟩
    obtain ⟨n, hn⟩ := Option.isSome_iff_exists.1 hlast
    have hcode := (contentLength_eq_some_iff hroute).2 ⟨fields, hfields, earlier, last, hvalues,
      hearlier, hn⟩
    obtain ⟨fields', value, hfields', hone, -⟩ := (hfinds n).1 hcode
    rw [hfields] at hfields'
    cases hfields'
    rw [hvalues] at hone
    cases earlier with
    | nil => exact hne rfl
    | cons first earlier => simp at hone
  · intro hrepeated
    have hfinds : ∀ n, contentLength head = some (route, n) ↔ announcedLength head = some n := by
      intro n
      rw [contentLength_eq_some_iff hroute, announcedLength_eq_some_iff]
      constructor
      · rintro ⟨fields, hfields, earlier, last, hvalues, hearlier, hlast⟩
        by_cases hnil : earlier = []
        · subst hnil
          exact ⟨fields, last, hfields, hvalues, hlast⟩
        · refine absurd ⟨fields, earlier, last, hfields, hvalues, hnil, hearlier, ?_⟩ hrepeated
          rw [hlast, Option.isSome_some]
      · rintro ⟨fields, value, hfields, hone, hn⟩
        exact ⟨fields, hfields, [], value, hone, by simp, hn⟩
    refine ⟨fun n => (hfinds n).trans announcedLength_eq_some_iff, ?_⟩
    cases hlength : announcedLength head with
    | some n => rw [(hfinds n).2 hlength, Option.map_some]
    | none =>
      cases hcode : contentLength head with
      | none => rfl
      | some found =>
        obtain ⟨other, n⟩ := found
        -- the route is read before the length, so it is the same
        have hsame : other = route := by
          rw [contentLength, hroute] at hcode
          simp only [Option.bind_eq_bind, Option.bind_some, Option.bind_eq_some_iff,
            Option.pure_def, Option.some.injEq, Prod.mk.injEq] at hcode
          obtain ⟨-, -, rfl, -⟩ := hcode
          rfl
        subst hsame
        rw [(hfinds n).1 hcode] at hlength
        cases hlength

/-- A request for a status with one `Content-Length`. -/
def plainHead : List Char :=
  "POST /v1/status HTTP/1.1\r\nContent-Length: 5".toList

/-- The same with a field before it that is no number. -/
def smuggledHead : List Char :=
  "POST /v1/status HTTP/1.1\r\nContent-Length: x\r\nContent-Length: 5".toList

theorem findsOnlyLength_plain : FindsOnlyLength plainHead .status := by
  refine (contentLength_agrees_iff (by decide +kernel)).2 ?_
  rintro ⟨fields, earlier, last, hfields, hvalues, hne, -, -⟩
  have hplain : (headFields plainHead).map lengthValues = some ["5".toList] := by decide +kernel
  rw [hfields, Option.map_some, hvalues] at hplain
  cases earlier with
  | nil => exact hne rfl
  | cons first earlier => simp at hplain

theorem not_findsOnlyLength_smuggled :
    ¬ ∀ (head : List Char) (route : LocalRoute), routeOf (requestLineOf head) = some route →
      FindsOnlyLength head route := by
  intro hall
  have hagree := (hall smuggledHead .status (by decide +kernel)).2
  have hcode : (contentLength smuggledHead).map Prod.snd = some 5 := by decide +kernel
  have hother : announcedLength smuggledHead = none := by decide +kernel
  rw [hcode, hother] at hagree
  cases hagree

end MsgRiver.Service
