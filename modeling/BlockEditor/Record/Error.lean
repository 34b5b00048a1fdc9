import BlockEditor.Json.Token

/-!
# Errors in instance records

Why a record does not describe a block of the catalog, and the wording of each error.
-/

namespace BlockEditor

/-- How a record differs from what its format requires. -/
inductive RecordMismatch where
  /-- The number of parameters is not the number of child columns. -/
  | paramCount (expected found : Nat)
  /-- The number of lists is not the number of stacks. -/
  | listCount (expected found : Nat)
  /-- A child column is left without a parameter. -/
  | tooFewParams
  /-- A stack is left without a list. -/
  | tooFewLists
  /-- A parameter is a list or an object that is no record. -/
  | notALiteral (value : Json.Value)
deriving DecidableEq

/-- The wording of a mismatch. -/
def RecordMismatch.message : RecordMismatch → String
  | .paramCount expected found =>
    "expected " ++ Nat.repr expected ++ " params, found " ++ Nat.repr found
  | .listCount expected found =>
    "expected " ++ Nat.repr expected ++ " block lists, found " ++ Nat.repr found
  | .tooFewParams => "too few params"
  | .tooFewLists => "too few block lists"
  | .notALiteral value => "param is neither a block nor a literal: " ++ value.compact

/-- Why blocks cannot be built. -/
inductive TreeError where
  /-- The catalog has no format with this identifier. -/
  | unknownFormat (id : String)
  /-- The record with this identifier does not match its format. -/
  | malformedInstance (id : String) (mismatch : RecordMismatch)
  /-- The text is no list of records. -/
  | json
deriving DecidableEq

/-- The wording of an error. -/
def TreeError.message : TreeError → String
  | .unknownFormat id => "unknown block format: " ++ id
  | .malformedInstance id mismatch => "malformed instance of '" ++ id ++ "': " ++ mismatch.message
  | .json => "json error"

end BlockEditor
