import BlockEditor.Proofs.Except
import BlockEditor.Proofs.Json.Number
import BlockEditor.Proofs.Json.Sorted
import BlockEditor.Schema.Record

/-!
# Schema batches read back

A format is described by a record, and the record is written as an object from which fields without
a text are left out. Reading goes by the names of the fields, so it gives the record again
(`SchemaRecord.ofJson_json`); the record gives the format again (`SchemaRecord.format_ofFormat`),
unless a row of the format has no slots: such a row is written like a stack. Hence a batch gives the
formats that it was written from (`formatsOfBatch_sorted`).
-/

namespace BlockEditor

open Json

theorem ValueType.ofName?_name (type : ValueType) : ofName? type.name = some type := by
  cases type <;> decide

theorem ColumnKind.ofName_name (kind : ColumnKind) : ofName kind.name = kind := by
  rcases kind with type | type | _
  · cases type <;> decide
  · cases type <;> decide
  · decide

namespace Json.Members

variable {members : Members} {name : String} {text : Option String}

theorem optional_text
    (found : members.lookup name = (text.map Value.string).map fun value => value.sorted.node) :
    members.optional name Node.text? = some text := by
  rw [optional, withDefault, found]
  cases text <;> rfl

theorem withDefault_lenientText
    (found : members.lookup name = (text.map Value.string).map fun value => value.sorted.node) :
    members.withDefault name lenientText? none = some text := by
  rw [withDefault, found]
  cases text <;> rfl

end Json.Members

theorem Json.Value.natural_toNat (word : UInt64) :
    ∃ inRange, Value.natural word.toNat = .number (.integer word.toNat inRange) := by
  have inRange : IntegerRange word.toNat := by
    have limit := word.toNat_lt
    simp only [IntegerRange, Decimal.wordLimit]
    omega
  exact ⟨inRange, dif_pos inRange⟩

theorem Json.Node.word?_natural (word : UInt64) :
    Node.word? (Value.natural word.toNat).sorted.node = some word := by
  rcases Value.natural_toNat word with ⟨inRange, isNumber⟩
  rw [isNumber]
  simp [Value.sorted, Value.node, Node.word?, Node.natural?, Number.nat?, Number.int?]

namespace SchemaRecord

theorem lookup_textField (name other : String) (text : Option String) :
    (textField name text).lookup other = if other = name then text.map Value.string else none := by
  cases text with
  | none => simp [textField]
  | some text =>
      by_cases same : other = name
      · simp [textField, same]
      · simp [textField, same, List.lookup_cons, beq_eq_false_iff_ne.mpr same]

/-- An element is read back. -/
theorem ofNode?_elementJson (element : ElementRecord) :
    ElementRecord.ofNode? (elementJson element).sorted.node = some element := by
  rcases element with ⟨kind, value⟩
  have distinct :
      ((("type", Value.string kind) :: textField "value" value).map Prod.fst).Nodup := by
    cases value <;> simp [textField]
  rcases Node.members?_sorted distinct ["type", "value"] with ⟨members, found, lookups⟩
  have hasKind : members.lookup "type" = some (Value.string kind).node := by
    rw [lookups "type" (by simp), List.lookup_cons_self]
    rfl
  have hasValue : members.lookup "value" =
      (value.map Value.string).map fun value => value.sorted.node := by
    rw [lookups "value" (by simp)]
    simp [List.lookup_cons, lookup_textField]
  simp [ElementRecord.ofNode?, elementJson, found, Members.required, hasKind,
    Members.withDefault_lenientText hasValue, Value.node, Node.text?]

/-- The documentation of a parameter is read back. -/
theorem ofNode?_parameterJson (doc : ParameterRecord) :
    ParameterRecord.ofNode? (parameterJson doc).sorted.node = some doc := by
  rcases doc with ⟨kind, description⟩
  have distinct : ([("type", Value.string kind), ("desc", .string description)].map
      Prod.fst).Nodup := by
    simp
  rcases Node.members?_sorted distinct ["type", "desc"] with ⟨members, found, lookups⟩
  have hasKind : members.lookup "type" = some (Value.string kind).node := by
    rw [lookups "type" (by simp), List.lookup_cons_self]
    rfl
  have hasDescription : members.lookup "desc" = some (Value.string description).node := by
    rw [lookups "desc" (by simp)]
    simp [List.lookup_cons, Value.sorted]
  simp [ParameterRecord.ofNode?, parameterJson, found, Members.withDefault, hasKind,
    hasDescription, Value.node, Node.text?]

/-- The elements of a line as a value. -/
def lineJson (line : List ElementRecord) : Value := .array (line.map elementJson)

/-- A field with the documentation of parameters, unless there is none. -/
def docsField (docs : Option (List ParameterRecord)) : List (String × Value) :=
  docs.toList.map fun docs => ("descParams", .array (docs.map parameterJson))

/-- The fields of a record that are written, given how its category is. -/
def fields (record : SchemaRecord) (category : Value) : List (String × Value) :=
  [("id", .string record.id)] ++ textField "name" record.name ++
    [("isDeprecated", .bool record.deprecated), ("category", category)] ++
    textField "takes" record.takes ++ textField "returns" record.returns ++
    [("lines", .array (record.lines.map lineJson))] ++
    textField "desc" record.description ++
    textField "descReturnValue" record.returnDescription ++
    textField "descNotes" record.notes ++ docsField record.parameters

variable (record : SchemaRecord) (category : Value)

theorem json_eq : record.json = .object (record.fields (.natural record.category.toNat)) := rfl

/-- A written record has no field twice. -/
theorem nodup_fields : ((record.fields category).map Prod.fst).Nodup := by
  -- Texts may be missing, so the names are some of the declared ones, in the declared order.
  have atMostText : ∀ (name : String) (text : Option String),
      ((textField name text).map Prod.fst).Sublist [name] := by
    intro name text
    cases text <;> simp [textField]
  have atMostDocs : ((docsField record.parameters).map Prod.fst).Sublist ["descParams"] := by
    cases record.parameters <;> simp [docsField]
  have inOrder : ((record.fields category).map Prod.fst).Sublist fieldNames := by
    simp only [fields, List.map_append]
    exact (((((((((List.Sublist.refl ["id"]).append (atMostText "name" _)).append
      (List.Sublist.refl ["isDeprecated", "category"])).append (atMostText "takes" _)).append
      (atMostText "returns" _)).append (List.Sublist.refl ["lines"])).append
      (atMostText "desc" _)).append (atMostText "descReturnValue" _)).append
      (atMostText "descNotes" _)).append atMostDocs
  exact inOrder.nodup (by decide)

theorem lookup_docsField (other : String) (docs : Option (List ParameterRecord)) :
    (docsField docs).lookup other =
      if other = "descParams" then docs.map fun docs => .array (docs.map parameterJson)
      else none := by
  cases docs with
  | none => simp [docsField]
  | some docs =>
      by_cases same : other = "descParams"
      · simp [docsField, same]
      · simp [docsField, same, List.lookup_cons, beq_eq_false_iff_ne.mpr same]

/-- What stands under the name of each field. -/
theorem lookup_fields :
    (record.fields category).lookup "id" = some (.string record.id) ∧
      (record.fields category).lookup "name" = record.name.map Value.string ∧
      (record.fields category).lookup "isDeprecated" = some (.bool record.deprecated) ∧
      (record.fields category).lookup "category" = some category ∧
      (record.fields category).lookup "takes" = record.takes.map Value.string ∧
      (record.fields category).lookup "returns" = record.returns.map Value.string ∧
      (record.fields category).lookup "lines" = some (.array (record.lines.map lineJson)) ∧
      (record.fields category).lookup "desc" = record.description.map Value.string ∧
      (record.fields category).lookup "descReturnValue" =
        record.returnDescription.map Value.string ∧
      (record.fields category).lookup "descNotes" = record.notes.map Value.string ∧
      (record.fields category).lookup "descParams" =
        record.parameters.map fun docs => .array (docs.map parameterJson) := by
  simp [fields, List.lookup_cons, List.lookup_append, lookup_textField, lookup_docsField]

/-- The lines of a record are read as they were written. -/
theorem readsBack_lines (lines : List (List ElementRecord)) :
    Node.list? (Node.list? ElementRecord.ofNode?) (Value.array (lines.map lineJson)).sorted.node =
      some lines := by
  rw [Value.sorted, Value.sortedItems_eq_map, List.map_map]
  apply Node.list?_array
  intro line _
  rw [Function.comp_apply, lineJson, Value.sorted, Value.sortedItems_eq_map, List.map_map]
  exact Node.list?_array fun element _ => ofNode?_elementJson element

theorem readsBack_docs (docs : List ParameterRecord) :
    Node.list? ParameterRecord.ofNode? (Value.array (docs.map parameterJson)).sorted.node =
      some docs := by
  rw [Value.sorted, Value.sortedItems_eq_map, List.map_map]
  exact Node.list?_array fun doc _ => ofNode?_parameterJson doc

/-- A record is read back. -/
theorem ofNode?_json : ofNode? record.json.sorted.node = some record := by
  rcases Node.members?_sorted (record.nodup_fields (.natural record.category.toNat)) fieldNames with
    ⟨members, found, lookups⟩
  rcases record.lookup_fields (.natural record.category.toNat) with ⟨hasId, hasName, hasDeprecated,
    hasCategory, hasTakes, hasReturns, hasLines, hasDescription, hasReturnDescription, hasNotes,
    hasParameters⟩
  have id : members.required "id" Node.text? = some record.id := by
    rw [Members.required, lookups "id" (by decide), hasId]
    rfl
  have name : members.optional "name" Node.text? = some record.name := by
    apply Members.optional_text
    rw [lookups "name" (by decide), hasName]
  have deprecated : members.withDefault "isDeprecated" Node.truth? false =
      some record.deprecated := by
    rw [Members.withDefault, lookups "isDeprecated" (by decide), hasDeprecated]
    rfl
  have category : members.required "category" Node.word? = some record.category := by
    rw [Members.required, lookups "category" (by decide), hasCategory, Option.map_some,
      Option.bind_some, Node.word?_natural]
  have takes : members.withDefault "takes" lenientText? none = some record.takes := by
    apply Members.withDefault_lenientText
    rw [lookups "takes" (by decide), hasTakes]
  have returns : members.withDefault "returns" lenientText? none = some record.returns := by
    apply Members.withDefault_lenientText
    rw [lookups "returns" (by decide), hasReturns]
  have lines : members.required "lines" (Node.list? (Node.list? ElementRecord.ofNode?)) =
      some record.lines := by
    rw [Members.required, lookups "lines" (by decide), hasLines, Option.map_some,
      Option.bind_some, readsBack_lines]
  have description : members.optional "desc" Node.text? = some record.description := by
    apply Members.optional_text
    rw [lookups "desc" (by decide), hasDescription]
  have returnDescription : members.optional "descReturnValue" Node.text? =
      some record.returnDescription := by
    apply Members.optional_text
    rw [lookups "descReturnValue" (by decide), hasReturnDescription]
  have notes : members.optional "descNotes" Node.text? = some record.notes := by
    apply Members.optional_text
    rw [lookups "descNotes" (by decide), hasNotes]
  have parameters : members.optional "descParams" (Node.list? ParameterRecord.ofNode?) =
      some record.parameters := by
    rw [Members.optional, Members.withDefault, lookups "descParams" (by decide), hasParameters]
    cases record.parameters with
    | none => rfl
    | some docs => exact congrArg (Option.map some) (readsBack_docs docs)
  rw [json_eq, ofNode?, found]
  simp [id, name, deprecated, category, takes, returns, lines, description, returnDescription,
    notes, parameters]

/-- No field that a record must have is missing, so it is read without an error. -/
theorem ofJson_json (index : Nat) : ofJson index record.json.sorted = .ok record := by
  rcases record.lookup_fields (.natural record.category.toNat) with
    ⟨hasId, _, _, hasCategory, _, _, hasLines, _⟩
  have complete : (RequiredField.all.find? fun field =>
      ((Value.sortedFields [] (record.fields (.natural record.category.toNat))).lookup
        field.name).isNone) = none := by
    rw [List.find?_eq_none]
    intro field _
    rw [Value.lookup_sortedFields (record.nodup_fields _)]
    cases field with
    | id => simp [RequiredField.name, hasId]
    | category => simp [RequiredField.name, hasCategory]
    | lines => simp [RequiredField.name, hasLines]
  have read := record.ofNode?_json
  rw [json_eq, Value.sorted] at read ⊢
  simp only [ofJson, complete, read]

theorem getD_unlessEmpty (text : String) : (unlessEmpty text).getD "" = text := by
  rw [unlessEmpty]
  split
  · rename_i isEmpty
    exact (String.isEmpty_iff.mp isEmpty).symm
  · rfl

/-- The slots of a line are read from the elements they are written as. -/
theorem slots_elements (id : String) (line column : Nat) (declared : List Slot) :
    slots id line column (declared.map elementOfSlot) = .ok declared := by
  induction declared generalizing column with
  | nil => rfl
  | cons first rest ih =>
      have read : slot id line column (elementOfSlot first) = .ok first := by
        have isText : Text.sameLetters "text" "text" = true := by decide
        have notText : Text.sameLetters "code" "text" = false := by decide
        have isCode : Text.sameLetters "code" "code" = true := by decide
        cases first with
        | label text => simp [slot, elementOfSlot, isText]
        | child kind => simp [slot, elementOfSlot, notText, isCode, ColumnKind.ofName_name]
      exact bind_eq_ok.mpr ⟨first, read, bind_eq_ok.mpr ⟨rest, ih _, rfl⟩⟩

/-- The lines of a format are read from their elements when each has slots. -/
theorem formatLines_elements (id : String) (line : Nat) {lines : List FormatLine}
    (hasSlots : FormatLine.columns [] ∉ lines) :
    formatLines id line (lines.map fun line => line.slots.map elementOfSlot) = .ok lines := by
  induction lines generalizing line with
  | nil => rfl
  | cons first rest ih =>
      rw [List.mem_cons, not_or] at hasSlots
      have declared : FormatLine.ofSlots first.slots = first := by
        rcases first with (_ | ⟨slot, slots⟩) | _
        · exact absurd rfl hasSlots.1
        · rfl
        · rfl
      refine bind_eq_ok.mpr ⟨_, slots_elements id line 0 first.slots, ?_⟩
      refine bind_eq_ok.mpr ⟨rest, ih (line + 1) hasSlots.2, ?_⟩
      rw [declared]
      rfl

/-- The record of a format describes this format, unless the format has a row without slots. -/
theorem format_ofFormat {format : BlockFormat} (hasSlots : format.HasSlots) :
    (ofFormat format).format = .ok format := by
  have typeName : ∀ type : Option ValueType,
      (type.map ValueType.name).bind ValueType.ofName? = type := by
    intro type
    cases type with
    | none => rfl
    | some type => exact type.ofName?_name
  have docs : (format.parameterDocs.map fun docs =>
      docs.map fun doc => (⟨doc.kind, doc.description⟩ : ParameterRecord)).map
        (fun docs => docs.map fun doc => (⟨doc.kind, doc.description⟩ : ParameterDoc)) =
      format.parameterDocs := by
    simp [Function.comp_def]
  refine bind_eq_ok.mpr ⟨format.lines, formatLines_elements format.id 0 hasSlots, ?_⟩
  simp [ofFormat, typeName, getD_unlessEmpty, docs, pure, Except.pure]

end SchemaRecord

/-- A batch of formats is read back when every line has slots. -/
theorem formatsFrom_sorted (index : Nat) {formats : List BlockFormat}
    (hasSlots : ∀ format ∈ formats, format.HasSlots) :
    formatsFrom index (formats.map fun format => (SchemaRecord.ofFormat format).json.sorted) =
      .ok formats := by
  induction formats generalizing index with
  | nil => rfl
  | cons format formats ih =>
      rw [List.forall_mem_cons] at hasSlots
      refine bind_eq_ok.mpr ⟨_, SchemaRecord.ofJson_json _ index, ?_⟩
      refine bind_eq_ok.mpr ⟨format, SchemaRecord.format_ofFormat hasSlots.1, ?_⟩
      exact bind_eq_ok.mpr ⟨formats, ih (index + 1) hasSlots.2, rfl⟩

/-- A batch gives the formats that it was written from. -/
theorem formatsOfBatch_sorted {formats : List BlockFormat}
    (hasSlots : ∀ format ∈ formats, format.HasSlots) :
    formatsOfBatch (batchOfFormats formats).sorted = .ok formats := by
  rw [batchOfFormats, Value.sorted, Value.sortedItems_eq_map, List.map_map]
  exact formatsFrom_sorted 0 hasSlots

namespace SchemaRecord

theorem writable_textField (name : String) (text : Option String) {limit : Nat} :
    ∀ field ∈ textField name text, field.2.Writable limit := by
  intro field fieldMem
  rcases List.mem_map.mp fieldMem with ⟨text, _, rfl⟩
  exact Value.writable_string text

theorem writable_elementJson (element : ElementRecord) : (elementJson element).Writable 1 := by
  apply Value.writable_object
  exact List.forall_mem_cons.mpr ⟨Value.writable_string _, writable_textField _ _⟩

theorem writable_linesJson (lines : List (List ElementRecord)) :
    (Value.array (lines.map lineJson)).Writable 3 := by
  apply Value.writable_array
  rw [List.forall_mem_map]
  intro line _
  apply Value.writable_array
  rw [List.forall_mem_map]
  exact fun element _ => writable_elementJson element

theorem writable_docsField (docs : Option (List ParameterRecord)) :
    ∀ field ∈ docsField docs, field.2.Writable 2 := by
  intro field fieldMem
  rcases List.mem_map.mp fieldMem with ⟨listed, _, rfl⟩
  apply Value.writable_array
  rw [List.forall_mem_map]
  intro doc _
  apply Value.writable_object
  simp [Value.writable_string]

theorem writable_json (record : SchemaRecord) : record.json.Writable 4 := by
  have category : (Value.natural record.category.toNat).Writable 3 := by
    rcases Value.natural_toNat record.category with ⟨inRange, isNumber⟩
    rw [isNumber]
    exact Value.writable_integer inRange
  have docs : ∀ field ∈ docsField record.parameters, field.2.Writable 3 :=
    fun field fieldMem => (writable_docsField _ field fieldMem).mono (by decide)
  rw [json_eq]
  apply Value.writable_object
  simp only [fields, List.forall_mem_append]
  refine ⟨⟨⟨⟨⟨⟨⟨⟨⟨?id, writable_textField _ _⟩, ?marks⟩, writable_textField _ _⟩,
    writable_textField _ _⟩, ?lines⟩, writable_textField _ _⟩, writable_textField _ _⟩,
    writable_textField _ _⟩, docs⟩
  case id => simp [Value.writable_string]
  case marks => simp [Value.writable_bool, category]
  case lines => simpa using writable_linesJson record.lines

end SchemaRecord

theorem writable_batchOfFormats (formats : List BlockFormat) :
    (batchOfFormats formats).Writable 5 := by
  apply Value.writable_array
  rw [List.forall_mem_map]
  exact fun format _ => SchemaRecord.writable_json _

end BlockEditor
