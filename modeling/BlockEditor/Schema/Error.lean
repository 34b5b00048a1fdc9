/-!
# Errors in schemas

What can be wrong with a schema batch, and the wording of each error. A batch is rejected as a
whole, and the error is the one of its first faulty record.
-/

namespace BlockEditor

/-- A field that every schema record has. -/
inductive RequiredField where
  /-- The identifier of the format. -/
  | id
  /-- The category of the format. -/
  | category
  /-- The lines of the format. -/
  | lines
deriving DecidableEq, Repr

/-- The required fields, in the order in which they are looked for. -/
def RequiredField.all : List RequiredField := [.id, .category, .lines]

/-- The name of a required field. -/
def RequiredField.name : RequiredField → String
  | .id => "id"
  | .category => "category"
  | .lines => "lines"

/-- What is wrong with the structure of a schema record. -/
inductive RecordFault where
  /-- The record is no object. -/
  | notAnObject
  /-- The batch is no list of records. -/
  | notABatch
  /-- A field holds a value of the wrong kind. -/
  | wrongFieldType
deriving DecidableEq, Repr

/-- The wording of a structural fault. -/
def RecordFault.message : RecordFault → String
  | .notAnObject => "record is not an object"
  | .notABatch => "schema batch is not an array"
  | .wrongFieldType => "a field has a value of the wrong type"

/-- Why a schema cannot be loaded. -/
inductive SchemaError where
  /-- The text is no JSON. -/
  | json
  /-- The record at an index lacks a field. -/
  | missingField (index : Nat) (field : RequiredField)
  /-- The record at an index has the wrong structure. -/
  | invalidRecord (index : Nat) (fault : RecordFault)
  /-- An element of a line declares a type that does not exist. -/
  | unknownElementType (id : String) (line column : Nat) (kind : String)
  /-- A refresh is committed that has not begun. -/
  | noRefreshInProgress
deriving DecidableEq, Repr

/-- The wording of an error. -/
def SchemaError.message : SchemaError → String
  | .json => "json error"
  | .missingField index field =>
    "schema record " ++ Nat.repr index ++ " is missing field '" ++ field.name ++ "'"
  | .invalidRecord index fault =>
    "schema record " ++ Nat.repr index ++ " is invalid: " ++ fault.message
  | .unknownElementType id line column kind =>
    "format '" ++ id ++ "' line " ++ Nat.repr line ++ " column " ++ Nat.repr column ++
      ": unknown element type '" ++ kind ++ "'"
  | .noRefreshInProgress => "no catalog refresh in progress"

end BlockEditor
