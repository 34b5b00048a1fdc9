import BlockEditor.Proofs.Except
import BlockEditor.Proofs.Json.Sorted
import BlockEditor.Schema.Record

/-!
# Faults of schema records

A record of a batch is first read, which may fail for want of a field or for a field with the wrong
type of value, and then made into a format, which fails at the first element of an unknown type.
`SchemaRecord.Fault` lists these cases, and `SchemaRecord.formatAt_eq_error` says that they are what
goes wrong. A batch is a list of records that are read one after the other, each with its position
in the list (`formatsOfBatch_eq_ok`), and its error is that of the first faulty record
(`formatsOfBatch_eq_error`).
-/

namespace BlockEditor

open Json

/-- An element of a line has a type that exists. -/
def ElementRecord.IsKnown (element : ElementRecord) : Prop :=
  Text.sameLetters element.kind "text" = true ∨ Text.sameLetters element.kind "code" = true

/-- The declared fields of a record hold what the record is made of. -/
structure SchemaRecord.Given (members : Members) (record : SchemaRecord) : Prop where
  id : members.required "id" Node.text? = some record.id
  name : members.optional "name" Node.text? = some record.name
  deprecated : members.withDefault "isDeprecated" Node.truth? false = some record.deprecated
  category : members.required "category" Node.word? = some record.category
  takes : members.withDefault "takes" lenientText? none = some record.takes
  returns : members.withDefault "returns" lenientText? none = some record.returns
  lines : members.required "lines" (Node.list? (Node.list? ElementRecord.ofNode?)) =
    some record.lines
  description : members.optional "desc" Node.text? = some record.description
  returnDescription : members.optional "descReturnValue" Node.text? =
    some record.returnDescription
  notes : members.optional "descNotes" Node.text? = some record.notes
  parameters : members.optional "descParams" (Node.list? ParameterRecord.ofNode?) =
    some record.parameters

namespace SchemaRecord

variable {id : String} {index line column : Nat} {value : Value} {error : SchemaError}
  {element : ElementRecord} {elements : List ElementRecord} {lines : List (List ElementRecord)}
  {format : BlockFormat}

/-- The format that the record at an index of a batch describes. -/
def formatAt (index : Nat) (value : Value) : Except SchemaError BlockFormat := do
  let record ← ofJson index value
  record.format

theorem ofNode?_eq_some_iff {node : Node} {record : SchemaRecord} :
    ofNode? node = some record ↔
      ∃ members, node.members? fieldNames = some members ∧ Given members record := by
  simp only [ofNode?, Option.bind_eq_bind, Option.bind_eq_some_iff, Option.pure_def,
    Option.some.injEq]
  constructor
  · rintro ⟨members, found, id, hasId, name, hasName, deprecated, hasDeprecated, category,
      hasCategory, takes, hasTakes, returns, hasReturns, lines, hasLines, description,
      hasDescription, returnDescription, hasReturnDescription, notes, hasNotes, parameters,
      hasParameters, rfl⟩
    exact ⟨members, found, hasId, hasName, hasDeprecated, hasCategory, hasTakes, hasReturns,
      hasLines, hasDescription, hasReturnDescription, hasNotes, hasParameters⟩
  · rintro ⟨members, found, given⟩
    exact ⟨members, found, _, given.id, _, given.name, _, given.deprecated, _, given.category, _,
      given.takes, _, given.returns, _, given.lines, _, given.description, _,
      given.returnDescription, _, given.notes, _, given.parameters, rfl⟩

/-- A record is read exactly if it is an object whose fields have the right types: then it has the
required fields too. -/
theorem ofJson_eq_ok {record : SchemaRecord} :
    ofJson index value = .ok record ↔
      ∃ fields, value = .object fields ∧ ofNode? value.node = some record := by
  constructor
  · intro read
    cases value with
    | null | bool | number | string | array => cases read
    | object fields =>
        refine ⟨fields, rfl, ?_⟩
        simp only [ofJson] at read
        split at read
        · cases read
        · split at read
          · rename_i found
            cases read
            exact found
          · cases read
  · rintro ⟨fields, rfl, found⟩
    rcases ofNode?_eq_some_iff.mp found with ⟨members, declared, given⟩
    have present : ∀ {Item : Type} {name : String} {read : Node → Option Item} {item : Item},
        name ∈ fieldNames → members.required name read = some item →
          (fields.lookup name).isNone = false := by
      intro Item name read item nameMem hasItem
      rcases Option.bind_eq_some_iff.mp hasItem with ⟨node, atName, _⟩
      rw [Node.lookup_of_declared? declared nameMem, Value.lookup_fieldNodes,
        Option.map_eq_some_iff] at atName
      rcases atName with ⟨stored, atName, _⟩
      rw [atName, Option.isNone_some]
    have complete : (RequiredField.all.find? fun field => (fields.lookup field.name).isNone) =
        none := by
      rw [List.find?_eq_none]
      intro field _
      cases field with
      | id => simp [RequiredField.name, present (by decide) given.id]
      | category => simp [RequiredField.name, present (by decide) given.category]
      | lines => simp [RequiredField.name, present (by decide) given.lines]
    simp only [ofJson, complete, found]

/-- A format stands in a batch under the text that is its identifier. -/
theorem field?_of_formatAt (read : formatAt index value = .ok format) :
    value.field? "id" = some (.string format.id) := by
  rcases bind_eq_ok.mp read with ⟨record, readRecord, formatted⟩
  rcases ofJson_eq_ok.mp readRecord with ⟨fields, rfl, found⟩
  rcases ofNode?_eq_some_iff.mp found with ⟨members, declared, given⟩
  rcases bind_eq_ok.mp formatted with ⟨lines, _, result⟩
  cases result
  rcases Option.bind_eq_some_iff.mp given.id with ⟨node, atId, isText⟩
  rw [Node.lookup_of_declared? declared (by decide), Value.lookup_fieldNodes,
    Option.map_eq_some_iff] at atId
  rcases atId with ⟨stored, atId, rfl⟩
  cases stored with
  | string text =>
      cases isText
      exact atId
  | _ => cases isText

theorem exists_slot : (∃ declared, slot id line column element = .ok declared) ↔
    element.IsKnown := by
  rw [slot, ElementRecord.IsKnown]
  split
  · simp [*]
  · split <;> simp [*]

theorem slot_eq_error : slot id line column element = .error error ↔
    ¬element.IsKnown ∧ error = .unknownElementType id line column element.kind := by
  rw [slot, ElementRecord.IsKnown]
  split
  · simp [*]
  · split <;> simp [*, eq_comm]

theorem slots_eq_readFrom (id : String) (line column : Nat) (elements : List ElementRecord) :
    slots id line column elements = readFrom (slot id line) column elements := by
  induction elements generalizing column with
  | nil => rfl
  | cons element elements ih => rw [slots, readFrom, ih]

theorem exists_slots : (∃ declared, slots id line column elements = .ok declared) ↔
    ∀ element ∈ elements, element.IsKnown := by
  rw [slots_eq_readFrom]
  exact exists_readFrom_iff fun _ _ => exists_slot

theorem slots_eq_error : slots id line 0 elements = .error error ↔
    ∃ before element after, elements = before ++ element :: after ∧
      (∀ other ∈ before, other.IsKnown) ∧ ¬element.IsKnown ∧
        error = .unknownElementType id line before.length element.kind := by
  simp only [slots_eq_readFrom, readFrom_eq_error, slot_eq_error, Nat.zero_add]
  simp only [← slots_eq_readFrom, exists_slots]

/-- The line of a format that the elements of one line declare. -/
def lineAt (id : String) (line : Nat) (elements : List ElementRecord) :
    Except SchemaError FormatLine :=
  (slots id line 0 elements).map FormatLine.ofSlots

theorem formatLines_eq_readFrom (id : String) (line : Nat) (lines : List (List ElementRecord)) :
    formatLines id line lines = readFrom (lineAt id) line lines := by
  induction lines generalizing line with
  | nil => rfl
  | cons elements lines ih =>
      rw [formatLines, readFrom, ih, lineAt]
      cases slots id line 0 elements <;> rfl

theorem exists_formatLines : (∃ declared, formatLines id line lines = .ok declared) ↔
    ∀ elements ∈ lines, ∀ element ∈ elements, element.IsKnown := by
  rw [formatLines_eq_readFrom]
  refine exists_readFrom_iff fun line elements => ?_
  rw [← @exists_slots id line 0, lineAt]
  simp only [map_eq_ok]
  constructor
  · rintro ⟨_, declared, read, _⟩
    exact ⟨declared, read⟩
  · rintro ⟨declared, read⟩
    exact ⟨_, declared, read, rfl⟩

/-- Lines end with the error of the first unknown element. -/
theorem formatLines_eq_error : formatLines id 0 lines = .error error ↔
    ∃ linesBefore before element after linesAfter,
      lines = linesBefore ++ (before ++ element :: after) :: linesAfter ∧
      (∀ elements ∈ linesBefore, ∀ other ∈ elements, other.IsKnown) ∧
      (∀ other ∈ before, other.IsKnown) ∧ ¬element.IsKnown ∧
        error = .unknownElementType id linesBefore.length before.length element.kind := by
  have lineFault : ∀ line elements, lineAt id line elements = .error error ↔
      slots id line 0 elements = .error error := fun _ _ => map_eq_error
  simp only [formatLines_eq_readFrom, readFrom_eq_error, lineFault, slots_eq_error, Nat.zero_add]
  simp only [← formatLines_eq_readFrom, exists_formatLines]
  constructor
  · rintro ⟨linesBefore, _, linesAfter, rfl, known, before, element, after, rfl, fault⟩
    exact ⟨linesBefore, before, element, after, linesAfter, rfl, known, fault⟩
  · rintro ⟨linesBefore, before, element, after, linesAfter, rfl, known, fault⟩
    exact ⟨linesBefore, _, linesAfter, rfl, known, before, element, after, rfl, fault⟩

/-- What the record at an index of a batch fails with. -/
inductive Fault (index : Nat) : Value → SchemaError → Prop where
  /-- The record is no object. -/
  | notAnObject {value : Value} (noObject : ∀ fields, value ≠ .object fields) :
      Fault index value (.invalidRecord index .notAnObject)
  /-- A required field is missing, and those that are looked for before it are not. -/
  | missingField {fields : List (String × Value)} {before after : List RequiredField}
      {field : RequiredField} (order : RequiredField.all = before ++ field :: after)
      (given : ∀ other ∈ before, (fields.lookup other.name).isSome = true)
      (missing : fields.lookup field.name = none) :
      Fault index (.object fields) (.missingField index field)
  /-- No required field is missing, but the fields cannot be read. -/
  | wrongFieldType {fields : List (String × Value)}
      (given : ∀ field, (fields.lookup (RequiredField.name field)).isSome = true)
      (unread : ofNode? (Value.object fields).node = none) :
      Fault index (.object fields) (.invalidRecord index .wrongFieldType)
  /-- The record is read, and one of its elements has an unknown type, but none before it. -/
  | unknownElement {value : Value} {record : SchemaRecord}
      {linesBefore linesAfter : List (List ElementRecord)}
      {before after : List ElementRecord} {element : ElementRecord}
      (read : ofJson index value = .ok record)
      (order : record.lines = linesBefore ++ (before ++ element :: after) :: linesAfter)
      (knownLines : ∀ elements ∈ linesBefore, ∀ other ∈ elements, other.IsKnown)
      (known : ∀ other ∈ before, other.IsKnown) (unknown : ¬element.IsKnown) :
      Fault index value
        (.unknownElementType record.id linesBefore.length before.length element.kind)

theorem RequiredField.mem_all (field : RequiredField) : field ∈ RequiredField.all := by
  cases field <;> decide

/-- A record that is not read has the fault that the error names. -/
theorem fault_of_ofJson (failed : ofJson index value = .error error) : Fault index value error := by
  cases value with
  | null | bool | number | string | array =>
      cases failed
      exact .notAnObject (by simp)
  | object fields =>
      simp only [ofJson] at failed
      split at failed
      · rename_i field found
        cases failed
        rcases List.find?_eq_some_iff_append.mp found with ⟨missing, before, after, order, given⟩
        refine .missingField order ?_ (by simpa using missing)
        intro other otherMem
        simpa [Option.isSome_iff_ne_none] using given other otherMem
      · rename_i complete
        split at failed
        · cases failed
        · rename_i unread
          cases failed
          refine .wrongFieldType ?_ unread
          intro field
          simpa [Option.isSome_iff_ne_none] using
            List.find?_eq_none.mp complete field (RequiredField.mem_all field)

/-- Reading a record of a batch fails exactly with its fault. -/
theorem formatAt_eq_error :
    formatAt index value = .error error ↔ Fault index value error := by
  rw [formatAt, bind_eq_error]
  constructor
  · rintro (failed | ⟨record, read, failed⟩)
    · exact fault_of_ofJson failed
    · rw [SchemaRecord.format, bind_eq_error] at failed
      rcases failed with failed | ⟨_, _, never⟩
      · rcases formatLines_eq_error.mp failed with
          ⟨linesBefore, before, element, after, linesAfter, order, knownLines, known, unknown, rfl⟩
        exact .unknownElement read order knownLines known unknown
      · cases never
  · intro fault
    cases fault with
    | notAnObject noObject =>
        cases value with
        | object fields => exact absurd rfl (noObject fields)
        | _ => exact .inl rfl
    | @missingField fields before after field order given missing =>
        have found : (RequiredField.all.find? fun field => (fields.lookup field.name).isNone) =
            some field := by
          refine List.find?_eq_some_iff_append.mpr ⟨by simp [missing], before, after, order, ?_⟩
          intro other otherMem
          simpa [Option.isSome_iff_ne_none] using given other otherMem
        exact .inl (by simp only [ofJson, found])
    | @wrongFieldType fields given unread =>
        have complete : (RequiredField.all.find? fun field => (fields.lookup field.name).isNone) =
            none := by
          rw [List.find?_eq_none]
          intro field _
          simpa [Option.isSome_iff_ne_none] using given field
        exact .inl (by simp only [ofJson, complete, unread])
    | unknownElement read order knownLines known unknown =>
        refine .inr ⟨_, read, ?_⟩
        rw [SchemaRecord.format, bind_eq_error]
        exact .inl (formatLines_eq_error.mpr
          ⟨_, _, _, _, _, order, knownLines, known, unknown, rfl⟩)

end SchemaRecord

variable {batch : Value} {values : List Value} {formats : List BlockFormat} {index : Nat}
  {error : SchemaError}

theorem formatsFrom_eq_readFrom (index : Nat) (values : List Value) :
    formatsFrom index values = readFrom SchemaRecord.formatAt index values := by
  induction values generalizing index with
  | nil => rfl
  | cons value values ih =>
      rw [formatsFrom, readFrom, SchemaRecord.formatAt, bind_assoc]
      simp only [ih]

/-- A batch is a list, and its formats are those of its records, each read at its position. -/
theorem formatsOfBatch_eq_ok :
    formatsOfBatch batch = .ok formats ↔ ∃ values, batch = .array values ∧
      formats.length = values.length ∧ ∀ index value format, values[index]? = some value →
        formats[index]? = some format → SchemaRecord.formatAt index value = .ok format := by
  cases batch with
  | array values =>
      rw [formatsOfBatch, formatsFrom_eq_readFrom, readFrom_eq_ok]
      simp
  | _ => simp [formatsOfBatch]

/-- A batch is accepted exactly if it is a list and each of its records is accepted at its
position. -/
theorem exists_formatsOfBatch :
    (∃ formats, formatsOfBatch batch = .ok formats) ↔ ∃ values, batch = .array values ∧
      ∀ index value, values[index]? = some value →
        ∃ format, SchemaRecord.formatAt index value = .ok format := by
  cases batch with
  | array values =>
      simp only [formatsOfBatch, formatsFrom_eq_readFrom, exists_readFrom]
      simp
  | _ => simp [formatsOfBatch]

/-- A batch fails if it is no list, and else with the first fault of a record in it. -/
theorem formatsOfBatch_eq_error :
    formatsOfBatch batch = .error error ↔
      ((∀ values, batch ≠ .array values) ∧ error = .invalidRecord 0 .notABatch) ∨
        ∃ before value after, batch = .array (before ++ value :: after) ∧
          (∀ index other, before[index]? = some other →
            ∃ format, SchemaRecord.formatAt index other = .ok format) ∧
          SchemaRecord.Fault before.length value error := by
  cases batch with
  | array values =>
      rw [formatsOfBatch, formatsFrom_eq_readFrom, readFrom_eq_error]
      simp [exists_readFrom, SchemaRecord.formatAt_eq_error]
  | _ => simp [formatsOfBatch, eq_comm]

end BlockEditor
