import BlockEditor.Json.Number

/-!
# JSON values

A JSON value, with the fields of an object in the order in which they are written. Objects that
come from a text have their fields by increasing key, each key once; objects that the library
builds for writing list their fields in the order of the format they belong to.
-/

namespace BlockEditor.Json

/-- A JSON value. -/
inductive Value where
  /-- The value `null`. -/
  | null
  /-- A truth value. -/
  | bool (value : Bool)
  /-- A number. -/
  | number (value : Number)
  /-- A text. -/
  | string (value : String)
  /-- A list of values. -/
  | array (items : List Value)
  /-- Values under keys. -/
  | object (fields : List (String × Value))

namespace Value

instance : Inhabited Value := ⟨.null⟩

mutual

/-- Decides whether two values are equal. -/
def decideEq : (first second : Value) → Decidable (first = second)
  | .null, .null => isTrue rfl
  | .bool first, .bool second => decidable_of_iff (first = second) (by simp)
  | .number first, .number second => decidable_of_iff (first = second) (by simp)
  | .string first, .string second => decidable_of_iff (first = second) (by simp)
  | .array first, .array second =>
    have := decideEqItems first second
    decidable_of_iff (first = second) (by simp)
  | .object first, .object second =>
    have := decideEqFields first second
    decidable_of_iff (first = second) (by simp)
  | .null, .bool _ | .null, .number _ | .null, .string _ | .null, .array _ | .null, .object _
  | .bool _, .null | .bool _, .number _ | .bool _, .string _ | .bool _, .array _
  | .bool _, .object _ | .number _, .null | .number _, .bool _ | .number _, .string _
  | .number _, .array _ | .number _, .object _ | .string _, .null | .string _, .bool _
  | .string _, .number _ | .string _, .array _ | .string _, .object _ | .array _, .null
  | .array _, .bool _ | .array _, .number _ | .array _, .string _ | .array _, .object _
  | .object _, .null | .object _, .bool _ | .object _, .number _ | .object _, .string _
  | .object _, .array _ => isFalse (by simp)
termination_by structural first => first

/-- Decides whether two lists of values are equal. -/
def decideEqItems : (first second : List Value) → Decidable (first = second)
  | [], [] => isTrue rfl
  | [], _ :: _ | _ :: _, [] => isFalse (by simp)
  | first :: firsts, second :: seconds =>
    have := decideEq first second
    have := decideEqItems firsts seconds
    decidable_of_iff (first = second ∧ firsts = seconds) (by simp)
termination_by structural first => first

/-- Decides whether two lists of fields are equal. -/
def decideEqFields : (first second : List (String × Value)) → Decidable (first = second)
  | [], [] => isTrue rfl
  | [], _ :: _ | _ :: _, [] => isFalse (by simp)
  | (firstKey, first) :: firsts, (secondKey, second) :: seconds =>
    have := decideEq first second
    have := decideEqFields firsts seconds
    decidable_of_iff ((firstKey = secondKey ∧ first = second) ∧ firsts = seconds) (by simp)
termination_by structural first => first

end

instance : DecidableEq Value := decideEq

/-- A natural number as a value. -/
def natural (size : Nat) : Value :=
  if inRange : IntegerRange size then .number (.integer size inRange)
  else .number (.real (Float.ofScientific size false 0))

/-- An integer as a value. -/
def whole (value : Int) : Value :=
  if inRange : IntegerRange value then .number (.integer value inRange)
  else .number (.real (Float.ofInt value))

/-- The value under a key of an object. -/
def field? (value : Value) (key : String) : Option Value :=
  match value with
  | .object fields => fields.lookup key
  | _ => none

end Value

end BlockEditor.Json
