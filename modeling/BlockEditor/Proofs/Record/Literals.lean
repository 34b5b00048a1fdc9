import BlockEditor.Proofs.Record.Filled
import BlockEditor.Proofs.Record.RoundTrip

/-!
# Literals in blocks that are built from records

Only input columns take a literal, and no literal is empty. A text in a record follows this rule: in
any other column it is dropped. A number or a truth value does not, it becomes a literal wherever it
stands. Hence a block that is built from a record always has the lines of its format and no empty
literal, and its literals are on inputs exactly if every number, truth value or other text that is
no literal of the record stands for an input (`Block.literals_of_ofRecord`).
-/

namespace BlockEditor

open Json

variable {catalog : Catalog} {style : Style} {id : String}

/-- The text that a value stands for as a parameter. -/
def Json.Value.shown? : Value → Option String
  | .bool value => some (if value then "true" else "false")
  | .number value => some (String.ofList value.letters)
  | .string text => some text
  | .null | .array _ | .object _ => none

/-- A parameter that is neither record nor literal, but stands for a text that is not empty, belongs
to an input. -/
def InstanceRecord.ScalarsFit (catalog : Catalog) (record : InstanceRecord) : Prop :=
  ∀ format, catalog.lookup record.id = some format →
    ∀ kind value text, (kind, .other value) ∈ format.kinds.zip record.params →
      value.shown? = some text → text ≠ "" → kind.isInput = true

namespace Block

variable {kind : ColumnKind} {text : String} {Related : Block → InstanceRecord → Prop}

/-- A block has the lines of its format, with nothing in the labels, and no literal is empty. -/
structure FollowsFormat (block : Block) : Prop where
  shape : block.shape = block.format.lines
  labels : ∀ line column label, (block.format.slotsOfLine line)[column]? = some (.label label) →
    (block.cell? line column).map Cell.content = some .empty
  literals : ∀ line column kind text size,
    block.cell? line column = some (.column kind (.literal text) size) → text ≠ ""

theorem content_of_slot_label {cell : Cell Block} {label : String}
    (isLabel : cell.slot = .label label) : cell.content = .empty := by
  cases cell with
  | label text size => rfl
  | column kind content size => cases isLabel

theorem ofText_eq_literal {shown : String} :
    (Content.ofText shown : Content Block) = .literal text ↔ shown = text ∧ text ≠ "" := by
  by_cases isEmpty : shown = ""
  · subst isEmpty
    have nothing : (Content.ofText "" : Content Block) = .empty := rfl
    rw [nothing]
    constructor
    · intro same
      cases same
    · rintro ⟨rfl, notEmpty⟩
      exact absurd rfl notEmpty
  · have keeps : (Content.ofText shown : Content Block) = .literal shown := by
      simp [Content.ofText, isEmpty]
    rw [keeps, Content.literal.injEq]
    constructor
    · rintro rfl
      exact ⟨rfl, isEmpty⟩
    · exact And.left

theorem contentOfLiteral_eq_literal {shown : String} :
    contentOfLiteral shown kind = .literal text ↔
      kind.isInput = true ∧ shown = text ∧ text ≠ "" := by
  by_cases isInput : kind.isInput = true
  · simp [contentOfLiteral, isInput, ofText_eq_literal]
  · simp [contentOfLiteral, isInput]

theorem contentOfValue_eq_literal (id : String) {value : Value} :
    contentOfValue id value = .ok (.literal text) ↔ value.shown? = some text ∧ text ≠ "" := by
  cases value with
  | bool value =>
      have notEmpty : (if value then "true" else "false") ≠ "" := by cases value <;> decide
      simp only [contentOfValue, Value.shown?, Except.ok.injEq, Content.literal.injEq,
        Option.some.injEq]
      constructor
      · rintro rfl
        exact ⟨rfl, notEmpty⟩
      · exact And.left
  | number value => simp [contentOfValue, Value.shown?, ofText_eq_literal]
  | string shown => simp [contentOfValue, Value.shown?, ofText_eq_literal]
  | null => simp [contentOfValue, Value.shown?]
  | array items => simp [contentOfValue, Value.shown?]
  | object fields => simp [contentOfValue, Value.shown?]

/-- A literal in a field that has been filled is not empty. -/
theorem ne_empty_of_fills {fields : List (ColumnKind × Content Block)}
    {params : List (Param InstanceRecord)} (fills : List.Forall₂ (Fills Related id) fields params)
    (fieldMem : (kind, .literal text) ∈ fields) : text ≠ "" := by
  induction fills with
  | nil => cases fieldMem
  | @cons field param fields params here others ih =>
      rcases List.mem_cons.mp fieldMem with rfl | fieldMem
      · cases param with
        | block record =>
            rcases here with ⟨child, holds, _⟩
            cases holds
        | literal shown => exact (contentOfLiteral_eq_literal.mp (Eq.symm here)).2.2
        | other value => exact ((contentOfValue_eq_literal id).mp here).2
      · exact ih fieldMem

/-- A field has a literal on an input only exactly when the scalar of its param stands on one. -/
theorem isInput_iff_of_fill {field : ColumnKind × Content Block} {param : Param InstanceRecord}
    (fill : Fills Related id field param) :
    (∀ text, field.2 = .literal text → field.1.isInput = true) ↔
      ∀ value text, param = .other value → value.shown? = some text → text ≠ "" →
        field.1.isInput = true := by
  rcases field with ⟨kind, content⟩
  cases param with
  | block record =>
      rcases fill with ⟨child, holds, _⟩
      simp only at holds
      simp [holds]
  | literal shown =>
      have same : contentOfLiteral shown kind = content := Eq.symm fill
      simp only [reduceCtorEq, false_implies, implies_true, iff_true]
      intro text holds
      exact (contentOfLiteral_eq_literal.mp (same.trans holds)).1
  | other value =>
      have read : contentOfValue id value = .ok content := fill
      constructor
      · rintro onInput other text ⟨⟩ shown notEmpty
        have holds := (contentOfValue_eq_literal id).mpr ⟨shown, notEmpty⟩
        exact onInput text (Except.ok.inj (read.symm.trans holds))
      · rintro fits text rfl
        rcases (contentOfValue_eq_literal id).mp read with ⟨shown, notEmpty⟩
        exact fits value text rfl shown notEmpty

/-- Literals in fields that have been filled are on inputs exactly if the parameters that are
neither records nor literals, but stand for a text, belong to inputs. -/
theorem isInput_iff_of_fills {fields : List (ColumnKind × Content Block)}
    {params : List (Param InstanceRecord)}
    (fills : List.Forall₂ (Fills Related id) fields params) :
    (∀ kind text, (kind, .literal text) ∈ fields → kind.isInput = true) ↔
      ∀ kind value text, (kind, .other value) ∈ (fields.map Prod.fst).zip params →
        value.shown? = some text → text ≠ "" → kind.isInput = true := by
  induction fills with
  | nil => simp
  | @cons field param fields params here others ih =>
      constructor
      · intro onInputs kind value text pairMem
        rcases List.mem_cons.mp pairMem with same | pairMem
        · cases same
          refine (isInput_iff_of_fill here).mp ?_ value text rfl
          intro text holds
          apply onInputs field.1 text
          rw [← holds]
          exact List.mem_cons_self
        · refine ih.mp ?_ kind value text pairMem
          intro kind text fieldMem
          exact onInputs kind text (List.mem_cons_of_mem _ fieldMem)
      · intro fits kind text fieldMem
        rcases List.mem_cons.mp fieldMem with rfl | fieldMem
        · refine (isInput_iff_of_fill here).mpr ?_ text rfl
          rintro value text rfl
          exact fits kind value text List.mem_cons_self
        · refine ih.mpr ?_ kind text fieldMem
          intro kind value text pairMem
          exact fits kind value text (List.mem_cons_of_mem _ pairMem)

/-- Whether the literals of a block fit is decided by its fields. -/
theorem literalsFit_iff_fields {block : Block} :
    block.LiteralsFit ↔
      ∀ kind text, (kind, .literal text) ∈ block.fields → kind.isInput = true ∧ text ≠ "" := by
  constructor
  · intro fit kind text fieldMem
    rcases cell?_of_mem_fields fieldMem with ⟨line, column, size, atCell⟩
    exact fit line column kind text size atCell
  · intro fit line column kind text size atCell
    exact fit kind text (mem_fields_of_cell? atCell)

/-- The literal rule holds of a block without what is nested in it exactly if it holds of its
record. -/
theorem literalsFit_iff_scalarsFit {record : InstanceRecord} {block : Block}
    (known : catalog.lookup record.id = some block.format)
    (shaped : block.shape = block.format.lines)
    (fills : List.Forall₂ (Fills Related record.id) block.fields record.params) :
    block.LiteralsFit ↔ record.ScalarsFit catalog := by
  have onInputs := isInput_iff_of_fills fills
  rw [map_fst_fields shaped] at onInputs
  rw [literalsFit_iff_fields]
  constructor
  · intro fit format sameFormat
    cases known.symm.trans sameFormat
    apply onInputs.mp
    intro kind text fieldMem
    exact (fit kind text fieldMem).1
  · intro fits kind text fieldMem
    exact ⟨onInputs.mpr (fits block.format known) kind text fieldMem,
      ne_empty_of_fills fills fieldMem⟩

theorem followsFormat_of_fills {record : InstanceRecord} {block : Block}
    (shaped : block.shape = block.format.lines)
    (fills : List.Forall₂ (Fills Related record.id) block.fields record.params) :
    block.FollowsFormat where
  shape := shaped
  labels line column label isLabel := by
    rw [← map_slot_cell? shaped, Option.map_eq_some_iff] at isLabel
    rcases isLabel with ⟨cell, atCell, isLabel⟩
    rw [atCell, Option.map_some, content_of_slot_label isLabel]
  literals line column kind text size atCell :=
    ne_empty_of_fills fills (mem_fields_of_cell? atCell)

/-- A block that was read follows its format at every depth. -/
theorem everywhere_followsFormat_ofRecord {record : InstanceRecord} {block : Block}
    (built : ofRecord catalog style record = .ok block) : block.Everywhere FollowsFormat := by
  refine ofRecord_induction (motive := fun block _ => block.Everywhere FollowsFormat) ?_ built
  intro record block _ shaped fills inStacks
  have nested := forall₂_nested fills inStacks
  have inside : ∀ child ∈ block.nested, child.Everywhere FollowsFormat :=
    (forall_mem_iff_of_forall₂ (nested.imp fun _ _ => iff_true_intro)).mpr fun _ _ => trivial
  exact everywhere_iff_nested.mpr ⟨followsFormat_of_fills shaped fills, inside⟩

/-- The literals of the block fit exactly when the scalars of the record do. -/
theorem everywhere_literalsFit_iff {record : InstanceRecord} {block : Block}
    (built : ofRecord catalog style record = .ok block) :
    block.Everywhere LiteralsFit ↔
      record.Everywhere (InstanceRecord.ScalarsFit catalog) := by
  refine ofRecord_induction (motive := fun block record =>
    block.Everywhere LiteralsFit ↔ record.Everywhere (InstanceRecord.ScalarsFit catalog)) ?_ built
  intro record block known shaped fills inStacks
  have inside := forall_mem_iff_of_forall₂ (forall₂_nested fills inStacks)
  rw [everywhere_iff_nested, InstanceRecord.everywhere_iff, inside,
    literalsFit_iff_scalarsFit known shaped fills]

/-- A block that is built from a record has, at any depth, the lines of its format, bare labels and
no empty literal. Its literals are all on inputs exactly if no number, truth value or other text
that is no literal of the record stands for another column. -/
theorem literals_of_ofRecord {record : InstanceRecord} {block : Block}
    (built : ofRecord catalog style record = .ok block) :
    block.Everywhere FollowsFormat ∧
      (block.Everywhere LiteralsFit ↔
        record.Everywhere (InstanceRecord.ScalarsFit catalog)) :=
  ⟨everywhere_followsFormat_ofRecord built, everywhere_literalsFit_iff built⟩

/-- A number in the input of a nested block is a literal there, and no literal is in the wrong
place. -/
theorem literals_of_nested_number :
    ∃ (catalog : Catalog) (style : Style) (block : Block),
      ofRecord catalog style ⟨"set", [.block ⟨"set", [.literal "x", .other (.whole 7)], []⟩,
          .literal "4"], []⟩ = .ok block ∧
        block.count = 2 ∧ block.Everywhere FollowsFormat ∧ block.Everywhere LiteralsFit := by
  let format : BlockFormat :=
    .plain "set" 0 [.columns [.child (.output .num), .child (.input .num)]]
  let catalog := Catalog.empty.registerFormats [format]
  let style := catalog.style .standard
  let innerRecord : InstanceRecord := ⟨"set", [.literal "x", .other (.whole 7)], []⟩
  let record : InstanceRecord := ⟨"set", [.block innerRecord, .literal "4"], []⟩
  have known : catalog.lookup "set" = some format := by decide +kernel
  have innerBuilt : ofRecord catalog style innerRecord =
      .ok ((⟨format, [.columns [.column (.output .num) .empty .zero,
        .column (.input .num) (.literal "7") .zero] .zero], .zero⟩ : Block).measured style) := by
    rw [ofRecord, known]
    rfl
  have built : ∃ block, ofRecord catalog style record = .ok block ∧ block.count = 2 := by
    rw [ofRecord, known]
    simp only [paramContents, innerBuilt]
    exact ⟨_, rfl, rfl⟩
  have innerFits : innerRecord.Everywhere (InstanceRecord.ScalarsFit catalog) := by
    refine .intro ?_ (by simp [innerRecord, InstanceRecord.nested, Param.record?])
    intro other sameFormat kind value text pairMem _ _
    cases known.symm.trans sameFormat
    have pairs : (kind, Param.other value) ∈
        [(ColumnKind.output .num, Param.literal "x"), (.input .num, .other (.whole 7))] := pairMem
    simp only [List.mem_cons, Prod.mk.injEq, reduceCtorEq, and_false, false_or,
      List.not_mem_nil, or_false] at pairs
    rw [pairs.1]
    rfl
  have fits : record.Everywhere (InstanceRecord.ScalarsFit catalog) := by
    refine .intro ?_ (by simpa [record, InstanceRecord.nested, Param.record?] using innerFits)
    intro other sameFormat kind value text pairMem _ _
    cases known.symm.trans sameFormat
    have pairs : (kind, Param.other value) ∈
        [(ColumnKind.output .num, Param.block innerRecord), (.input .num, .literal "4")] := pairMem
    simp at pairs
  rcases built with ⟨block, built, count⟩
  have literals := literals_of_ofRecord built
  exact ⟨catalog, style, block, built, count, literals.1, literals.2.mpr fits⟩

/-- A number in the place of an output is a literal there. -/
theorem literal_of_stray_number :
    ∃ (catalog : Catalog) (style : Style) (block : Block) (size : Size),
      ofRecord catalog style ⟨"set", [.other (.whole 7), .literal "4"], []⟩ = .ok block ∧
        block.cell? 0 0 = some (.column (.output .num) (.literal "7") size) ∧
          ¬block.Everywhere LiteralsFit := by
  let format : BlockFormat :=
    .plain "set" 0 [.columns [.child (.output .num), .child (.input .num)]]
  let catalog := Catalog.empty.registerFormats [format]
  let style := catalog.style .standard
  have known : catalog.lookup "set" = some format := by decide +kernel
  refine ⟨catalog, style, (⟨format, [.columns [.column (.output .num) (.literal "7") .zero,
    .column (.input .num) (.literal "4") .zero] .zero], .zero⟩ : Block).measured style, _, ?_, rfl,
    ?_⟩
  · rw [ofRecord, known]
    rfl
  · intro fit
    have onInput := (fit.here 0 0 (.output .num) "7" _ rfl).1
    cases onInput

end Block

end BlockEditor
