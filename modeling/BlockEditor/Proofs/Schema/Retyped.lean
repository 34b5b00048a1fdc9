import BlockEditor.Proofs.Json.Number
import BlockEditor.Proofs.Json.Put
import BlockEditor.Proofs.Schema.Faults
import BlockEditor.Proofs.Schema.RoundTrip

/-!
# Types in a batch

A record names types in its fields `takes` and `returns`, and an element of a line says in its field
`value` what its slot is. With any other value in such a place (`TypePlace`) a record is still read,
and as the same one but for the text that the value stands for (`SchemaRecord.ofNode?_put`). Numbers
and truth values stand for their letters, but no type is called so: types are named by texts alone
(`ofName?_lenientText?`, `ofName_lenientText?`). Hence a batch is not refused for a type in it, and
a change of a type changes nothing else (`formatsOfBatch_retyped`).
-/

namespace BlockEditor

open Json

/-- The type that a value names. -/
def ValueType.ofValue? : Value → Option ValueType
  | .string name => ofName? name
  | _ => none

/-- The kind of column that a value names. -/
def ColumnKind.ofValue : Value → ColumnKind
  | .string name => ofName name
  | _ => .untyped

/-- The text that a value stands for where a text is wanted. -/
def Json.Value.lenientText? : Value → Option String
  | .string text => some text
  | .number size => some (String.ofList size.letters)
  | .bool truth => some (if truth then "true" else "false")
  | _ => none

theorem lenientText?_node (value : Value) : lenientText? value.node = some value.lenientText? := by
  have hasValue := Value.value?_node value
  cases value with
  | null | bool | number | string => rfl
  | array | object =>
      rw [Value.node] at hasValue ⊢
      simp [lenientText?, hasValue, Value.lenientText?]

theorem toUpper_of_isDigit {letter : Char} (isDigit : letter.isDigit = true) :
    letter.toUpper = letter := by
  simp only [Char.isDigit, Bool.and_eq_true, decide_eq_true_eq] at isDigit
  refine dif_neg ?_
  rintro ⟨above, _⟩
  exact absurd (UInt32.le_trans above isDigit.2) (by decide)

/-- The letters of a number are in no letter case a name without digits, apart from `null`. -/
theorem sameLetters_letters {number : Number} {name : String}
    (noDigit : (Text.upper name).toList.any Char.isDigit = false)
    (notNull : Text.upper name ≠ "NULL") :
    Text.sameLetters (String.ofList number.letters) name = false := by
  rw [Text.sameLetters, beq_eq_false_iff_ne]
  intro same
  rcases number.exists_digit_letters with ⟨letter, letterMem, isDigit⟩ | isNull
  · have upperMem : letter ∈ (Text.upper name).toList := by
      rw [← same]
      simp only [Text.upper, String.toList_ofList, List.mem_map]
      exact ⟨letter, letterMem, toUpper_of_isDigit isDigit⟩
    exact List.any_eq_false.mp noDigit letter upperMem isDigit
  · rw [isNull] at same
    exact notNull (same ▸ by decide)

/-- A type is named by its name in either case. -/
theorem ValueType.ofName?_eq_some_iff {name : String} {type : ValueType} :
    ofName? name = some type ↔ Text.sameLetters name type.name = true := by
  have upperName : Text.upper type.name = type.name := by cases type <;> decide
  rw [Text.sameLetters, beq_iff_eq]
  constructor
  · intro named
    simp only [ofName?] at named
    split at named
    · rename_i isBool
      cases named
      exact isBool.trans upperName.symm
    split at named
    · rename_i isNumber
      cases named
      exact isNumber.trans upperName.symm
    split at named
    · rename_i isText
      cases named
      exact isText.trans upperName.symm
    · cases named
  · intro same
    rw [← ofName?_name type, ofName?, ofName?, same]

/-- The kind of a column with a direction is named by its name in either case. -/
theorem ColumnKind.ofName_eq_iff {name : String} {kind : ColumnKind} (directed : kind ≠ .untyped) :
    ofName name = kind ↔ Text.sameLetters name kind.name = true := by
  have upperName : Text.upper kind.name = kind.name := by
    rcases kind with type | type | _
    · cases type <;> decide
    · cases type <;> decide
    · decide
  rw [Text.sameLetters, beq_iff_eq]
  constructor
  · intro named
    rw [upperName]
    rw [ofName] at named
    cases found : ColumnKind.directed.find? fun kind => kind.name == Text.upper name with
    | none =>
        rw [found] at named
        exact absurd named.symm directed
    | some other =>
        have sameName := List.find?_some found
        rw [beq_iff_eq] at sameName
        rw [found, Option.getD_some] at named
        rw [← named, sameName]
  · intro same
    rw [← ofName_name kind, ofName, ofName, same]

/-- A type is named by a text alone, although other values are taken for a text as well. -/
theorem ofName?_lenientText? (value : Value) :
    value.lenientText?.bind ValueType.ofName? = ValueType.ofValue? value := by
  cases value with
  | null | string | array | object => rfl
  | bool value => cases value <;> decide
  | number number =>
      simp only [Value.lenientText?, Option.bind_some, ValueType.ofValue?]
      refine Option.eq_none_iff_forall_ne_some.mpr fun type named => ?_
      have same := ValueType.ofName?_eq_some_iff.mp named
      rw [sameLetters_letters] at same
      · cases same
      · cases type <;> decide
      · cases type <;> decide

/-- A kind is named by a text alone, although other values are taken for a text as well. -/
theorem ofName_lenientText? (value : Value) :
    (value.lenientText?.map ColumnKind.ofName).getD .untyped = ColumnKind.ofValue value := by
  cases value with
  | null | string | array | object => rfl
  | bool value => cases value <;> decide
  | number number =>
      simp only [Value.lenientText?, Option.map_some, Option.getD_some, ColumnKind.ofValue]
      cases named : ColumnKind.ofName (String.ofList number.letters) with
      | untyped => rfl
      | _ type =>
          have same := (ColumnKind.ofName_eq_iff (by simp)).mp named
          rw [sameLetters_letters] at same
          · cases same
          · cases type <;> decide
          · cases type <;> decide

/-- A place of a record in which a value says what something is. -/
inductive TypePlace where
  /-- The type that blocks take. -/
  | takes
  /-- The type that blocks yield. -/
  | returns
  /-- What the slot is that an element of a line declares. -/
  | element (line column : Nat)

/-- The slot that an element declares with another value in it. -/
def Slot.retyped (value : Value) : Slot → Slot
  | .label _ => .label (value.lenientText?.getD "")
  | .child _ => .child (.ofValue value)

/-- A line in which the slot of a column has been changed. -/
def FormatLine.modifySlot (column : Nat) (change : Slot → Slot) : FormatLine → FormatLine
  | .columns slots => .columns (slots.modify column change)
  | .stack => .stack

namespace TypePlace

/-- The part of a record in which a place is. -/
def holder? (record : Value) : TypePlace → Option Value
  | .takes | .returns => some record
  | .element line column =>
    ((record.field? "lines").bind (·.item? line)).bind (·.item? column)

/-- A record with a value in a place. -/
def put (value record : Value) : TypePlace → Value
  | .takes => record.put "takes" value
  | .returns => record.put "returns" value
  | .element line column => record.modifyField "lines" fun lines =>
    lines.modifyItem line fun elements =>
      elements.modifyItem column fun element => element.put "value" value

/-- What a record is read as with a text in a place, or without one. -/
def written (text : Option String) (record : SchemaRecord) : TypePlace → SchemaRecord
  | .takes => { record with takes := text }
  | .returns => { record with returns := text }
  | .element line column => { record with
      lines := record.lines.modify line fun elements =>
        elements.modify column fun element => { element with value := text } }

/-- The format of a record with a value in a place. -/
def retype (value : Value) (format : BlockFormat) : TypePlace → BlockFormat
  | .takes => { format with accepts := ValueType.ofValue? value }
  | .returns => { format with produces := ValueType.ofValue? value }
  | .element line column => { format with
      lines := format.lines.modify line fun declared =>
        declared.modifySlot column (Slot.retyped value) }

end TypePlace

namespace Json.Members

variable {Item : Type} {members again : Members} {name : String} {read : Node → Option Item}
  {item : Item}

theorem required_of_lookup_eq (same : again.lookup name = members.lookup name)
    (given : members.required name read = some item) : again.required name read = some item := by
  rw [required, same]
  exact given

theorem withDefault_of_lookup_eq {value : Item} (same : again.lookup name = members.lookup name)
    (given : members.withDefault name read value = some item) :
    again.withDefault name read value = some item := by
  rw [withDefault, same]
  exact given

theorem withDefault_node {value : Value} (found : members.lookup name = some value.node) :
    members.withDefault name lenientText? none = some value.lenientText? := by
  rw [withDefault, found, ← lenientText?_node]

end Json.Members

/-- An element keeps its type when another value is put into it. -/
theorem ElementRecord.ofNode?_put {fields : List (String × Value)} {element : ElementRecord}
    (read : ofNode? (Value.object fields).node = some element) (value : Value) :
    ofNode? ((Value.object fields).put "value" value).node =
      some { element with value := value.lenientText? } := by
  simp only [ofNode?, Option.bind_eq_bind, Option.bind_eq_some_iff, Option.pure_def,
    Option.some.injEq] at read
  rcases read with ⟨members, declared, kind, hasKind, _, _, rfl⟩
  rcases Node.members?_put declared (by decide : "value" ∈ ["type", "value"]) value with
    ⟨again, declaredAgain, here, others⟩
  have sameKind := Members.required_of_lookup_eq (others "type" (by decide) (by decide)) hasKind
  simp [ofNode?, declaredAgain, sameKind, Members.withDefault_node here]

namespace SchemaRecord

variable {members again : Members} {record : SchemaRecord} {takes returns : Option String}
  {lines : List (List ElementRecord)}

/-- A record is read as another one if its types and lines have been changed and nothing else. -/
theorem Given.changed (given : Given members record)
    (kept : ∀ name ∈ fieldNames, name ∉ ["takes", "returns", "lines"] →
      again.lookup name = members.lookup name)
    (hasTakes : again.withDefault "takes" lenientText? none = some takes)
    (hasReturns : again.withDefault "returns" lenientText? none = some returns)
    (hasLines : again.required "lines" (Node.list? (Node.list? ElementRecord.ofNode?)) =
      some lines) :
    Given again { record with takes, returns, lines } where
  id := Members.required_of_lookup_eq (kept _ (by decide) (by decide)) given.id
  name := Members.withDefault_of_lookup_eq (kept _ (by decide) (by decide)) given.name
  deprecated := Members.withDefault_of_lookup_eq (kept _ (by decide) (by decide)) given.deprecated
  category := Members.required_of_lookup_eq (kept _ (by decide) (by decide)) given.category
  takes := hasTakes
  returns := hasReturns
  lines := hasLines
  description := Members.withDefault_of_lookup_eq (kept _ (by decide) (by decide)) given.description
  returnDescription :=
    Members.withDefault_of_lookup_eq (kept _ (by decide) (by decide)) given.returnDescription
  notes := Members.withDefault_of_lookup_eq (kept _ (by decide) (by decide)) given.notes
  parameters := Members.withDefault_of_lookup_eq (kept _ (by decide) (by decide)) given.parameters

variable {fields holder : List (String × Value)} {place : TypePlace} {line column : Nat}

/-- Lines are read as before, apart from the element into which another value is put. -/
theorem list?_put_element {stored elements : Value}
    (read : Node.list? (Node.list? ElementRecord.ofNode?) stored.node = some lines)
    (atLine : stored.item? line = some elements)
    (atColumn : elements.item? column = some (.object holder)) (value : Value) :
    Node.list? (Node.list? ElementRecord.ofNode?) (stored.modifyItem line fun elements =>
        elements.modifyItem column fun element => element.put "value" value).node =
      some (lines.modify line fun elements =>
        elements.modify column fun element => { element with value := value.lenientText? }) := by
  refine Node.list?_modifyItem read atLine fun _ readElements => ?_
  refine Node.list?_modifyItem readElements atColumn fun _ readElement => ?_
  exact ElementRecord.ofNode?_put readElement value

/-- A record is read as before, apart from the text that another value in a place stands for. -/
theorem ofNode?_put (found : ofNode? (Value.object fields).node = some record)
    (inObject : place.holder? (.object fields) = some (.object holder)) (value : Value) :
    ofNode? (place.put value (.object fields)).node =
      some (place.written value.lenientText? record) := by
  rcases ofNode?_eq_some_iff.mp found with ⟨members, declared, given⟩
  -- Only one of the three fields that may change is another one.
  have kept : ∀ {again : Members} {key : String}, key ∈ ["takes", "returns", "lines"] →
      (∀ name ∈ fieldNames, name ≠ key → again.lookup name = members.lookup name) →
        ∀ name ∈ fieldNames, name ∉ ["takes", "returns", "lines"] →
          again.lookup name = members.lookup name := by
    intro again key keyMem others name nameMem untouched
    exact others name nameMem fun same => untouched (same ▸ keyMem)
  cases place with
  | takes =>
      rcases Node.members?_put declared (by decide : "takes" ∈ fieldNames) value with
        ⟨again, declaredAgain, here, others⟩
      refine ofNode?_eq_some_iff.mpr ⟨again, declaredAgain, ?_⟩
      refine given.changed (kept (by decide) others) ?_ ?_ ?_
      · exact Members.withDefault_node here
      · exact Members.withDefault_of_lookup_eq (others _ (by decide) (by decide)) given.returns
      · exact Members.required_of_lookup_eq (others _ (by decide) (by decide)) given.lines
  | returns =>
      rcases Node.members?_put declared (by decide : "returns" ∈ fieldNames) value with
        ⟨again, declaredAgain, here, others⟩
      refine ofNode?_eq_some_iff.mpr ⟨again, declaredAgain, ?_⟩
      refine given.changed (kept (by decide) others) ?_ ?_ ?_
      · exact Members.withDefault_of_lookup_eq (others _ (by decide) (by decide)) given.takes
      · exact Members.withDefault_node here
      · exact Members.required_of_lookup_eq (others _ (by decide) (by decide)) given.lines
  | element line column =>
      simp only [TypePlace.holder?, Option.bind_eq_some_iff] at inObject
      rcases inObject with ⟨elements, ⟨stored, atLines, atLine⟩, atColumn⟩
      have readLines := given.lines
      rw [Members.required, Node.lookup_of_declared? declared (by decide), Value.lookup_fieldNodes,
        show fields.lookup "lines" = some stored from atLines, Option.map_some,
        Option.bind_some] at readLines
      rw [TypePlace.put, Value.modifyField, atLines]
      rcases Node.members?_put declared (by decide : "lines" ∈ fieldNames) _ with
        ⟨again, declaredAgain, here, others⟩
      refine ofNode?_eq_some_iff.mpr ⟨again, declaredAgain, ?_⟩
      refine given.changed (kept (by decide) others) ?_ ?_ ?_
      · exact Members.withDefault_of_lookup_eq (others _ (by decide) (by decide)) given.takes
      · exact Members.withDefault_of_lookup_eq (others _ (by decide) (by decide)) given.returns
      · rw [Members.required, here]
        exact list?_put_element readLines atLine atColumn value

variable {id : String} {index : Nat} {value : Value} {format : BlockFormat}

/-- Another type of an element shows in the type of its slot only. -/
theorem slot_retyped {element : ElementRecord} {declared : Slot}
    (read : slot id line column element = .ok declared) :
    slot id line column { element with value := value.lenientText? } =
      .ok (declared.retyped value) := by
  rw [slot] at read ⊢
  split at read
  · cases read
    rw [if_pos (by assumption)]
    rfl
  · split at read
    · cases read
      rw [if_neg (by assumption), if_pos (by assumption)]
      rw [ofName_lenientText?]
      rfl
    · cases read

theorem ofSlots_modify (slots : List Slot) (column : Nat) (change : Slot → Slot) :
    FormatLine.ofSlots (slots.modify column change) =
      (FormatLine.ofSlots slots).modifySlot column change := by
  cases slots with
  | nil =>
      rw [List.modify_nil]
      rfl
  | cons slot slots => cases column <;> rfl

theorem lineAt_retyped {elements : List ElementRecord} {declared : FormatLine}
    (read : lineAt id line elements = .ok declared) (column : Nat) :
    lineAt id line (elements.modify column fun element =>
      { element with value := value.lenientText? }) =
        .ok (declared.modifySlot column (Slot.retyped value)) := by
  rcases map_eq_ok.mp read with ⟨slots, readSlots, rfl⟩
  rw [slots_eq_readFrom] at readSlots
  refine map_eq_ok.mpr ⟨slots.modify column (Slot.retyped value), ?_, ofSlots_modify _ _ _⟩
  rw [slots_eq_readFrom]
  exact readFrom_modify readSlots fun _ _ _ readSlot => slot_retyped readSlot

/-- A record with another type at a place is the format with this place retyped. -/
theorem format_written (read : record.format = .ok format) (place : TypePlace) (value : Value) :
    (place.written value.lenientText? record).format = .ok (place.retype value format) := by
  rcases bind_eq_ok.mp read with ⟨lines, readLines, result⟩
  cases result
  cases place with
  | takes =>
      refine bind_eq_ok.mpr ⟨lines, readLines, ?_⟩
      rw [TypePlace.retype, ← ofName?_lenientText?]
      rfl
  | returns =>
      refine bind_eq_ok.mpr ⟨lines, readLines, ?_⟩
      rw [TypePlace.retype, ← ofName?_lenientText?]
      rfl
  | element line column =>
      rw [formatLines_eq_readFrom] at readLines
      refine bind_eq_ok.mpr ⟨_, ?_, rfl⟩
      rw [formatLines_eq_readFrom]
      exact readFrom_modify readLines fun _ _ _ readLine => lineAt_retyped readLine column

theorem exists_object_put (place : TypePlace) (value : Value) (fields : List (String × Value)) :
    ∃ again, place.put value (.object fields) = .object again := by
  cases place with
  | takes => exact ⟨_, rfl⟩
  | returns => exact ⟨_, rfl⟩
  | element line column =>
      rw [TypePlace.put, Value.modifyField]
      split
      · exact ⟨_, rfl⟩
      · exact ⟨_, rfl⟩

/-- A batch record with another value at a place is read as the format with this place retyped. -/
theorem formatAt_put {stored : Value} (read : formatAt index stored = .ok format)
    (inObject : place.holder? stored = some (.object holder)) (value : Value) :
    formatAt index (place.put value stored) = .ok (place.retype value format) := by
  rcases bind_eq_ok.mp read with ⟨record, readRecord, formatted⟩
  rcases ofJson_eq_ok.mp readRecord with ⟨fields, rfl, found⟩
  rcases exists_object_put place value fields with ⟨again, isObject⟩
  refine bind_eq_ok.mpr ⟨place.written value.lenientText? record, ?_, ?_⟩
  · exact ofJson_eq_ok.mpr ⟨again, isObject, ofNode?_put found inObject value⟩
  · exact format_written formatted place value

end SchemaRecord

/-- If a batch is accepted, then it is still accepted with any other value as a type, and its
formats differ in nothing but what this type is for. A value other than a text that names a type, in
any letter case, gives no type. -/
theorem formatsOfBatch_retyped {values : List Value} {formats : List BlockFormat} {index : Nat}
    {record : Value} {place : TypePlace} {holder : List (String × Value)}
    (accepted : formatsOfBatch (.array values) = .ok formats)
    (atIndex : values[index]? = some record)
    (inObject : place.holder? record = some (.object holder)) (value : Value) :
    formatsOfBatch (.array (values.modify index fun record => place.put value record)) =
        .ok (formats.modify index fun format => place.retype value format) ∧
      (∀ type, ValueType.ofValue? value = some type ↔
        ∃ text, value = .string text ∧ Text.sameLetters text type.name = true) ∧
      ∀ kind, kind ≠ .untyped → (ColumnKind.ofValue value = kind ↔
        ∃ text, value = .string text ∧ Text.sameLetters text kind.name = true) := by
  refine ⟨?_, ?_, ?_⟩
  · rw [formatsOfBatch, formatsFrom_eq_readFrom] at accepted
    rw [formatsOfBatch, formatsFrom_eq_readFrom]
    refine readFrom_modify accepted fun stored format atStored read => ?_
    cases atIndex.symm.trans atStored
    exact SchemaRecord.formatAt_put read inObject value
  · intro type
    cases value with
    | string text => simp [ValueType.ofValue?, ValueType.ofName?_eq_some_iff]
    | _ => simp [ValueType.ofValue?]
  · intro kind directed
    cases value with
    | string text => simp [ColumnKind.ofValue, ColumnKind.ofName_eq_iff directed]
    | _ => simp [ColumnKind.ofValue, directed.symm]

/-- A record that takes a list gives a format that takes nothing. A text in small letters says what
a child column is, and a truth value gives a label its text. -/
theorem formatsOfBatch_retyped_nested :
    ∃ (values : List Value) (first second : BlockFormat),
      values = [.object [("category", .natural 0), ("id", .string "wait"), ("lines", .array [])],
        .object [("category", .natural 2), ("id", .string "move"),
          ("lines", .array [.array [], .array [.object [("type", .string "text")],
            .object [("type", .string "Code"), ("value", .string "NUM_IN")]]]),
          ("takes", .string "bool")]] ∧
      first = .plain "wait" 0 [] ∧
      second = { BlockFormat.plain "move" 2
          [.stack, .columns [.label "", .child (.input .num)]] with accepts := some .bool } ∧
      formatsOfBatch (.array values) = .ok [first, second] ∧
      formatsOfBatch (.array (values.modify 1 fun record =>
          TypePlace.takes.put (.array [.object [("takes", .string "NUM")]]) record)) =
        .ok [first, { second with accepts := none }] ∧
      formatsOfBatch (.array (values.modify 1 fun record =>
          (TypePlace.element 1 1).put (.string "text_out") record)) =
        .ok [first, { second with
          lines := [.stack, .columns [.label "", .child (.output .text)]] }] ∧
      formatsOfBatch (.array (values.modify 1 fun record =>
          (TypePlace.element 1 0).put (.bool true) record)) =
        .ok [first, { second with
          lines := [.stack, .columns [.label "true", .child (.input .num)]] }] := by
  let values : List Value :=
    [.object [("category", .natural 0), ("id", .string "wait"), ("lines", .array [])],
      .object [("category", .natural 2), ("id", .string "move"),
        ("lines", .array [.array [], .array [.object [("type", .string "text")],
          .object [("type", .string "Code"), ("value", .string "NUM_IN")]]]),
        ("takes", .string "bool")]]
  let first : BlockFormat := .plain "wait" 0 []
  let second : BlockFormat := { BlockFormat.plain "move" 2
    [.stack, .columns [.label "", .child (.input .num)]] with accepts := some .bool }
  have accepted : formatsOfBatch (.array values) = .ok [first, second] := by decide +kernel
  have nested := @formatsOfBatch_retyped values _ 1 _ .takes _ accepted rfl rfl
    (.array [.object [("takes", .string "NUM")]])
  have named := @formatsOfBatch_retyped values _ 1 _ (.element 1 1) _ accepted rfl rfl
    (.string "text_out")
  have shown := @formatsOfBatch_retyped values _ 1 _ (.element 1 0) _ accepted rfl rfl (.bool true)
  exact ⟨values, first, second, rfl, rfl, rfl, accepted, nested.1,
    named.1.trans (by decide +kernel), shown.1.trans (by decide +kernel)⟩

end BlockEditor
