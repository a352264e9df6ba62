import Mathlib.Data.Nat.Notation
import Mathlib.Logic.Function.Basic

/-!
# JSON values

A JSON value as a parser hands it out, with the accessors that answer nothing on a value of another
kind.  An object is a map in key order.  Reading and printing are a `Codec`, so that a development
can be stated for every reader and printer.
-/

namespace Json

/-- A JSON value. -/
inductive Value
  | null
  | bool (b : Bool)
  | number (literal : String)
  | string (s : String)
  | array (items : List Value)
  | object (entries : List (String × Value))

namespace Value

/-- The member of an object. -/
def get (key : String) : Value → Option Value
  | object entries => (entries.find? fun e => e.1 == key).map Prod.snd
  | _ => none

/-- The string that a value is. -/
def asString : Value → Option String
  | string s => some s
  | _ => none

/-- The items of an array. -/
def asArray : Value → Option (List Value)
  | array items => some items
  | _ => none

/-- The members of an object. -/
def asObject : Value → Option (List (String × Value))
  | object entries => some entries
  | _ => none

theorem asString_eq_some {value : Value} {s : String} :
    value.asString = some s ↔ value = .string s := by
  cases value <;> simp [asString]

theorem asArray_eq_some {value : Value} {items : List Value} :
    value.asArray = some items ↔ value = .array items := by
  cases value <;> simp [asArray]

/-- All the values are strings. -/
theorem mapM_asString_eq_some {values : List Value} {texts : List String} :
    values.mapM asString = some texts ↔ values = texts.map string := by
  induction values generalizing texts with
  | nil => cases texts <;> simp
  | cons value values ih =>
    cases texts with
    | nil => simp [List.mapM_cons, Option.bind_eq_some_iff]
    | cons text texts => simp [List.mapM_cons, Option.bind_eq_some_iff, asString_eq_some, ih]

end Value

/-- A reader and a printer of JSON. -/
structure Codec where
  fromSlice : List UInt8 → Option Value
  fromStr : String → Option Value
  toVec : Value → Option (List UInt8)
  toString : Value → Option String

/-- A value is printed, and its text reads back as the value. -/
def Codec.RoundTrips (codec : Codec) (value : Value) : Prop :=
  ∃ text, codec.toString value = some text ∧ codec.fromStr text = some value

end Json
