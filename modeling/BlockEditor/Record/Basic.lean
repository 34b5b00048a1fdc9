import BlockEditor.Json.Reading

/-!
# Instance records

An instance record is the JSON form of a block: the identifier of its format, one parameter for
every child column in the order of the lines, and one list of records for every stack. A parameter
is a record, a literal, or any other JSON value. Empty lists are left out when a record is written.

A record may be written as an object or as an array of its fields. What looks like neither, such
as an object without identifier or with a field given twice, is as a parameter still a value of
its own, in which the last of several fields with one key counts.
-/

namespace BlockEditor

open Json

/-- A parameter of a record. -/
inductive Param (Record : Type) where
  /-- A nested block. -/
  | block (record : Record)
  /-- A text that has been typed in; the empty text for an empty column. -/
  | literal (text : String)
  /-- Any other JSON value. -/
  | other (value : Value)

/-- The JSON form of a block. -/
structure InstanceRecord where
  /-- The identifier of the block's format. -/
  id : String
  /-- The contents of the child columns, line by line. -/
  params : List (Param InstanceRecord)
  /-- The blocks of the stacks, line by line. -/
  blocks : List (List InstanceRecord)

namespace InstanceRecord

mutual

/-- Decides whether two records are equal. -/
def decideEq : (first second : InstanceRecord) → Decidable (first = second)
  | ⟨id, params, blocks⟩, ⟨otherId, otherParams, otherBlocks⟩ =>
    have := decideEqParams params otherParams
    have := decideEqLists blocks otherBlocks
    decidable_of_iff (id = otherId ∧ params = otherParams ∧ blocks = otherBlocks) (by simp)
termination_by structural first => first

/-- Decides whether two lists of parameters are equal. -/
def decideEqParams : (first second : List (Param InstanceRecord)) → Decidable (first = second)
  | [], [] => isTrue rfl
  | [], _ :: _ | _ :: _, [] => isFalse (by simp)
  | .block first :: firsts, .block second :: seconds =>
    have := decideEq first second
    have := decideEqParams firsts seconds
    decidable_of_iff (first = second ∧ firsts = seconds) (by simp)
  | .literal first :: firsts, .literal second :: seconds =>
    have := decideEqParams firsts seconds
    decidable_of_iff (first = second ∧ firsts = seconds) (by simp)
  | .other first :: firsts, .other second :: seconds =>
    have := decideEqParams firsts seconds
    decidable_of_iff (first = second ∧ firsts = seconds) (by simp)
  | .block _ :: _, .literal _ :: _ | .block _ :: _, .other _ :: _
  | .literal _ :: _, .block _ :: _ | .literal _ :: _, .other _ :: _
  | .other _ :: _, .block _ :: _ | .other _ :: _, .literal _ :: _ => isFalse (by simp)
termination_by structural first => first

/-- Decides whether two lists of stacks are equal. -/
def decideEqLists : (first second : List (List InstanceRecord)) → Decidable (first = second)
  | [], [] => isTrue rfl
  | [], _ :: _ | _ :: _, [] => isFalse (by simp)
  | first :: firsts, second :: seconds =>
    have := decideEqRecords first second
    have := decideEqLists firsts seconds
    decidable_of_iff (first = second ∧ firsts = seconds) (by simp)
termination_by structural first => first

/-- Decides whether two lists of records are equal. -/
def decideEqRecords : (first second : List InstanceRecord) → Decidable (first = second)
  | [], [] => isTrue rfl
  | [], _ :: _ | _ :: _, [] => isFalse (by simp)
  | first :: firsts, second :: seconds =>
    have := decideEq first second
    have := decideEqRecords firsts seconds
    decidable_of_iff (first = second ∧ firsts = seconds) (by simp)
termination_by structural first => first

end

instance : DecidableEq InstanceRecord := decideEq

mutual

/-- The JSON form of a record. -/
def json : InstanceRecord → Value
  | ⟨id, params, blocks⟩ =>
    .object (("id", .string id) ::
      ((if params.isEmpty then [] else [("params", .array (paramsJson params))]) ++
        (if blocks.isEmpty then [] else [("blocks", .array (listsJson blocks))])))
termination_by structural record => record

/-- The JSON forms of parameters. -/
def paramsJson : List (Param InstanceRecord) → List Value
  | [] => []
  | .block record :: rest => record.json :: paramsJson rest
  | .literal text :: rest => .string text :: paramsJson rest
  | .other value :: rest => value :: paramsJson rest
termination_by structural params => params

/-- The JSON forms of the lists of records of stacks. -/
def listsJson : List (List InstanceRecord) → List Value
  | [] => []
  | records :: rest => .array (recordsJson records) :: listsJson rest
termination_by structural lists => lists

/-- The JSON forms of records. -/
def recordsJson : List InstanceRecord → List Value
  | [] => []
  | record :: rest => record.json :: recordsJson rest
termination_by structural records => records

end

/-- The JSON form of a list of records. -/
def listJson (records : List InstanceRecord) : Value := .array (recordsJson records)

/-- The fields of a record that have been read. -/
structure Parts where
  /-- The identifier. -/
  id : Option String := none
  /-- The parameters. -/
  params : Option (List (Param InstanceRecord)) := none
  /-- The lists of records. -/
  blocks : Option (List (List InstanceRecord)) := none

/-- The record with the fields that have been read; only the identifier must be among them. -/
def Parts.record? (parts : Parts) : Option InstanceRecord :=
  parts.id.map fun id => ⟨id, parts.params.getD [], parts.blocks.getD []⟩

/-- The parameter that a node is, given the record that it can be read as. -/
def paramOf? (node : Node) (record : Option InstanceRecord) : Option (Param InstanceRecord) :=
  match node.value?, record with
  | none, _ => none
  | some _, some record => some (.block record)
  | some (.string text), none => some (.literal text)
  | some value, none => some (.other value)

mutual

/-- Reads a record. -/
def ofNode? : Node → Option InstanceRecord
  | .object fields => (partsOfFields? fields).bind Parts.record?
  | .array items => partsOfItems? items
  | .null | .bool _ | .number _ | .string _ | .unreadable => none
termination_by structural node => node

/-- Reads the fields of a record; other fields are skipped. -/
def partsOfFields? : List (Option String × Node) → Option Parts
  | [] => some {}
  | (key, node) :: rest => do
    let key ← key
    let parts ← partsOfFields? rest
    if key = "id" then
      if parts.id.isSome then none
      else return { parts with id := some (← node.text?) }
    else if key = "params" then
      if parts.params.isSome then none
      else return { parts with params := some (← paramsOfNode? node) }
    else if key = "blocks" then
      if parts.blocks.isSome then none
      else return { parts with blocks := some (← listsOfNode? node) }
    else return parts
termination_by structural fields => fields

/-- Reads a record written as a list of its fields, of which the last ones may be left out. -/
def partsOfItems? : List Node → Option InstanceRecord
  | [] => none
  | [id] => do
    return ⟨← id.text?, [], []⟩
  | [id, params] => do
    return ⟨← id.text?, ← paramsOfNode? params, []⟩
  | [id, params, blocks] => do
    return ⟨← id.text?, ← paramsOfNode? params, ← listsOfNode? blocks⟩
  | _ :: _ :: _ :: _ :: _ => none
termination_by structural items => items

/-- Reads a list of parameters. -/
def paramsOfNode? : Node → Option (List (Param InstanceRecord))
  | .array items => paramsOfItems? items
  | .object _ | .null | .bool _ | .number _ | .string _ | .unreadable => none
termination_by structural node => node

/-- Reads parameters. -/
def paramsOfItems? : List Node → Option (List (Param InstanceRecord))
  | [] => some []
  | item :: rest => do
    let param ← paramOf? item (ofNode? item)
    let params ← paramsOfItems? rest
    return param :: params
termination_by structural items => items

/-- Reads a list of stacks. -/
def listsOfNode? : Node → Option (List (List InstanceRecord))
  | .array items => listsOfItems? items
  | .object _ | .null | .bool _ | .number _ | .string _ | .unreadable => none
termination_by structural node => node

/-- Reads stacks. -/
def listsOfItems? : List Node → Option (List (List InstanceRecord))
  | [] => some []
  | item :: rest => do
    let records ← recordsOfNode? item
    let lists ← listsOfItems? rest
    return records :: lists
termination_by structural items => items

/-- Reads a list of records. -/
def recordsOfNode? : Node → Option (List InstanceRecord)
  | .array items => recordsOfItems? items
  | .object _ | .null | .bool _ | .number _ | .string _ | .unreadable => none
termination_by structural node => node

/-- Reads records. -/
def recordsOfItems? : List Node → Option (List InstanceRecord)
  | [] => some []
  | item :: rest => do
    let record ← ofNode? item
    let records ← recordsOfItems? rest
    return record :: records
termination_by structural items => items

end

/-- Reads the text of a record. -/
def ofText? (text : String) : Option InstanceRecord := (Node.ofText? text).bind ofNode?

/-- Reads the text of a list of records. -/
def listOfText? (text : String) : Option (List InstanceRecord) :=
  (Node.ofText? text).bind recordsOfNode?

/-- The text of a list of records without blanks. -/
def compactText (records : List InstanceRecord) : String := (listJson records).compact

/-- The indented text of a list of records. -/
def prettyText (records : List InstanceRecord) : String := (listJson records).pretty

end InstanceRecord

end BlockEditor
