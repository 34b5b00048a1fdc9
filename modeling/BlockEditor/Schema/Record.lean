import BlockEditor.Format.Basic
import BlockEditor.Json.Reading
import BlockEditor.Schema.Error

/-!
# Schema records

A schema record is the JSON form of a block format. `SchemaRecord.ofJson` reads one record of a
batch, `SchemaRecord.format` turns it into a format, and `SchemaRecord.ofFormat` and
`SchemaRecord.json` go the other way. Unknown names of types and kinds are not an error: they mean
that there is no type. An unknown element type and a missing field are errors, and
`formatsOfBatch` rejects a batch with the error of its first faulty record.
-/

namespace BlockEditor

open Json

/-- An element of a line in a schema record. -/
structure ElementRecord where
  /-- Whether the element is a label or a child column. -/
  kind : String
  /-- The label's text or the column's kind. -/
  value : Option String
deriving DecidableEq, Repr

/-- The documentation of a parameter in a schema record. -/
structure ParameterRecord where
  /-- The kind of value that the parameter takes. -/
  kind : String
  /-- What the parameter is for. -/
  description : String
deriving DecidableEq, Repr

/-- A block format as it stands in a schema batch. -/
structure SchemaRecord where
  /-- The identifier of the format. -/
  id : String
  /-- The shown name; the identifier if it is left out. -/
  name : Option String
  /-- Whether the format is deprecated. -/
  deprecated : Bool
  /-- The position of the category. -/
  category : UInt64
  /-- The name of the type that blocks take. -/
  takes : Option String
  /-- The name of the type that blocks yield. -/
  returns : Option String
  /-- The lines; a line without elements is a stack. -/
  lines : List (List ElementRecord)
  /-- What a block does. -/
  description : Option String
  /-- What the yielded value is. -/
  returnDescription : Option String
  /-- Further remarks. -/
  notes : Option String
  /-- The documentation of the parameters. -/
  parameters : Option (List ParameterRecord)
deriving DecidableEq, Repr

/-- The text that a value stands for where a text is wanted: numbers and truth values stand for
their text, and other values for none. -/
def lenientText? : Node → Option (Option String)
  | .string value => some (some value)
  | .number value => some (some (String.ofList value.letters))
  | .bool value => some (some (if value then "true" else "false"))
  | node => node.value?.map fun _ => none

/-- Reads an element of a line. -/
def ElementRecord.ofNode? (node : Node) : Option ElementRecord := do
  let members ← node.members? ["type", "value"]
  let kind ← members.required "type" Node.text?
  let value ← members.withDefault "value" lenientText? none
  return { kind, value }

/-- Reads the documentation of a parameter. -/
def ParameterRecord.ofNode? (node : Node) : Option ParameterRecord := do
  let members ← node.members? ["type", "desc"]
  let kind ← members.withDefault "type" Node.text? ""
  let description ← members.withDefault "desc" Node.text? ""
  return { kind, description }

namespace SchemaRecord

/-- The names of the fields of a record, in the order in which they are written. -/
def fieldNames : List String :=
  ["id", "name", "isDeprecated", "category", "takes", "returns", "lines", "desc",
    "descReturnValue", "descNotes", "descParams"]

/-- Reads a record in which every field has the right type. -/
def ofNode? (node : Node) : Option SchemaRecord := do
  let members ← node.members? fieldNames
  let id ← members.required "id" Node.text?
  let name ← members.optional "name" Node.text?
  let deprecated ← members.withDefault "isDeprecated" Node.truth? false
  let category ← members.required "category" Node.word?
  let takes ← members.withDefault "takes" lenientText? none
  let returns ← members.withDefault "returns" lenientText? none
  let lines ← members.required "lines" (Node.list? (Node.list? ElementRecord.ofNode?))
  let description ← members.optional "desc" Node.text?
  let returnDescription ← members.optional "descReturnValue" Node.text?
  let notes ← members.optional "descNotes" Node.text?
  let parameters ← members.optional "descParams" (Node.list? ParameterRecord.ofNode?)
  return { id, name, deprecated, category, takes, returns, lines, description,
           returnDescription, notes, parameters }

/-- Reads the record at an index of a batch. -/
def ofJson (index : Nat) (value : Value) : Except SchemaError SchemaRecord :=
  match value with
  | .object fields =>
    match RequiredField.all.find? fun field => (fields.lookup field.name).isNone with
    | some field => .error (.missingField index field)
    | none =>
      match ofNode? value.node with
      | some record => .ok record
      | none => .error (.invalidRecord index .wrongFieldType)
  | _ => .error (.invalidRecord index .notAnObject)

/-- The slot that an element declares, given where it stands. -/
def slot (id : String) (line column : Nat) (element : ElementRecord) : Except SchemaError Slot :=
  if Text.sameLetters element.kind "text" then .ok (.label (element.value.getD ""))
  else if Text.sameLetters element.kind "code" then
    .ok (.child ((element.value.map ColumnKind.ofName).getD .untyped))
  else .error (.unknownElementType id line column element.kind)

/-- The slots that the elements of a line declare from a column on. -/
def slots (id : String) (line column : Nat) : List ElementRecord → Except SchemaError (List Slot)
  | [] => .ok []
  | element :: rest => do
    let first ← slot id line column element
    let others ← slots id line (column + 1) rest
    return first :: others

/-- The lines that lists of elements declare, from a line number on. -/
def formatLines (id : String) (line : Nat) :
    List (List ElementRecord) → Except SchemaError (List FormatLine)
  | [] => .ok []
  | elements :: rest => do
    let first ← slots id line 0 elements
    let others ← formatLines id (line + 1) rest
    return .ofSlots first :: others

/-- The format that a record describes. -/
def format (record : SchemaRecord) : Except SchemaError BlockFormat := do
  let lines ← formatLines record.id 0 record.lines
  return {
    id := record.id
    name := record.name.getD record.id
    category := record.category
    produces := record.returns.bind ValueType.ofName?
    accepts := record.takes.bind ValueType.ofName?
    lines
    description := record.description.getD ""
    returnDescription := record.returnDescription.getD ""
    notes := record.notes.getD ""
    parameterDocs := record.parameters.map fun docs =>
      docs.map fun doc => ⟨doc.kind, doc.description⟩
    deprecated := record.deprecated }

/-- The element that declares a slot. -/
def elementOfSlot : Slot → ElementRecord
  | .label text => ⟨"text", some text⟩
  | .child kind => ⟨"code", some kind.name⟩

/-- A text, or none if it is empty. -/
def unlessEmpty (text : String) : Option String := if text.isEmpty then none else some text

/-- The record that describes a format. -/
def ofFormat (format : BlockFormat) : SchemaRecord where
  id := format.id
  name := some format.name
  deprecated := format.deprecated
  category := format.category
  takes := format.accepts.map ValueType.name
  returns := format.produces.map ValueType.name
  lines := format.lines.map fun line => line.slots.map elementOfSlot
  description := unlessEmpty format.description
  returnDescription := unlessEmpty format.returnDescription
  notes := unlessEmpty format.notes
  parameters := format.parameterDocs.map fun docs =>
    docs.map fun doc => ⟨doc.kind, doc.description⟩

/-- A field with a text, unless there is none. -/
def textField (name : String) (text : Option String) : List (String × Value) :=
  text.toList.map fun text => (name, .string text)

/-- The JSON form of an element. -/
def elementJson (element : ElementRecord) : Value :=
  .object (("type", .string element.kind) :: textField "value" element.value)

/-- The JSON form of the documentation of a parameter. -/
def parameterJson (doc : ParameterRecord) : Value :=
  .object [("type", .string doc.kind), ("desc", .string doc.description)]

/-- The JSON form of a record. Fields that are left out are not written. -/
def json (record : SchemaRecord) : Value :=
  .object ([("id", .string record.id)] ++ textField "name" record.name ++
    [("isDeprecated", .bool record.deprecated), ("category", .natural record.category.toNat)] ++
    textField "takes" record.takes ++ textField "returns" record.returns ++
    [("lines", .array (record.lines.map fun line => .array (line.map elementJson)))] ++
    textField "desc" record.description ++
    textField "descReturnValue" record.returnDescription ++
    textField "descNotes" record.notes ++
    record.parameters.toList.map fun docs => ("descParams", .array (docs.map parameterJson)))

end SchemaRecord

/-- The formats of the records of a batch from an index on. -/
def formatsFrom (index : Nat) : List Value → Except SchemaError (List BlockFormat)
  | [] => .ok []
  | value :: rest => do
    let record ← SchemaRecord.ofJson index value
    let first ← record.format
    let others ← formatsFrom (index + 1) rest
    return first :: others

/-- The formats of a schema batch. -/
def formatsOfBatch (batch : Value) : Except SchemaError (List BlockFormat) :=
  match batch with
  | .array records => formatsFrom 0 records
  | _ => .error (.invalidRecord 0 .notABatch)

/-- The schema batch of a list of formats. -/
def batchOfFormats (formats : List BlockFormat) : Value :=
  .array (formats.map fun format => (SchemaRecord.ofFormat format).json)

end BlockEditor
