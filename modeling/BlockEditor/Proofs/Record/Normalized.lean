import BlockEditor.Proofs.Catalog.Keyed
import BlockEditor.Proofs.Record.Conforming
import BlockEditor.Proofs.Record.Literals
import BlockEditor.Proofs.Record.Written

/-!
# The normal form of a record

A block keeps less than its record says: an input keeps a text, any other column only a block, and a
number or a truth value is no different from its text. `InstanceRecord.normalized` is a record
without what is not kept. It is what the block that is built from the record is written as
(`Block.record_of_ofRecord`), it conforms whenever the record does
(`InstanceRecord.everywhere_conforms_normalized`), and it is its own normal form
(`InstanceRecord.normalized_normalized`).
-/

namespace BlockEditor

open Json

namespace InstanceRecord

/-- The kinds of the columns that the parameters of records with an identifier are for. -/
def columnKinds (catalog : Catalog) (id : String) : List ColumnKind :=
  ((catalog.lookup id).map BlockFormat.kinds).getD []

mutual

/-- The normal form of a record. -/
def normalized (catalog : Catalog) : InstanceRecord → InstanceRecord
  | ⟨id, params, blocks⟩ =>
    ⟨id, normalizedParams catalog params (columnKinds catalog id), normalizedLists catalog blocks⟩
termination_by structural record => record

/-- The normal forms of the parameters for columns of some kinds. -/
def normalizedParams (catalog : Catalog) :
    List (Param InstanceRecord) → List ColumnKind → List (Param InstanceRecord)
  | [], _ => []
  | _ :: _, [] => []
  | param :: params, kind :: kinds =>
    normalizedParam catalog param kind :: normalizedParams catalog params kinds
termination_by structural params => params

/-- The normal form of the parameter for a column of a kind. Only an input keeps a text, and a value
is kept as its text. -/
def normalizedParam (catalog : Catalog) :
    Param InstanceRecord → ColumnKind → Param InstanceRecord
  | .block record, _ => .block (normalized catalog record)
  | .literal text, kind => .literal (if kind.isInput then text else "")
  | .other value, kind => .literal (if kind.isInput then value.shown?.getD "" else "")
termination_by structural param => param

/-- The normal forms of the records of stacks. -/
def normalizedLists (catalog : Catalog) : List (List InstanceRecord) → List (List InstanceRecord)
  | [] => []
  | records :: lists => normalizedRecords catalog records :: normalizedLists catalog lists
termination_by structural lists => lists

/-- The normal forms of records. -/
def normalizedRecords (catalog : Catalog) : List InstanceRecord → List InstanceRecord
  | [] => []
  | record :: records => normalized catalog record :: normalizedRecords catalog records
termination_by structural records => records

end

variable {catalog : Catalog} {record : InstanceRecord}

theorem normalizedParams_eq_map (catalog : Catalog) (params : List (Param InstanceRecord))
    (kinds : List ColumnKind) :
    normalizedParams catalog params kinds =
      (params.zip kinds).map fun column => normalizedParam catalog column.1 column.2 := by
  induction params generalizing kinds with
  | nil => rfl
  | cons param params ih =>
      cases kinds with
      | nil => rfl
      | cons kind kinds => rw [normalizedParams, ih, List.zip_cons_cons, List.map_cons]

theorem normalizedRecords_eq_map (catalog : Catalog) (records : List InstanceRecord) :
    normalizedRecords catalog records = records.map (normalized catalog) := by
  induction records with
  | nil => rfl
  | cons record records ih => rw [normalizedRecords, ih, List.map_cons]

theorem normalizedLists_eq_map (catalog : Catalog) (lists : List (List InstanceRecord)) :
    normalizedLists catalog lists = lists.map (List.map (normalized catalog)) := by
  induction lists with
  | nil => rfl
  | cons records lists ih =>
      rw [normalizedLists, ih, normalizedRecords_eq_map, List.map_cons]

@[simp]
theorem id_normalized (catalog : Catalog) (record : InstanceRecord) :
    (record.normalized catalog).id = record.id := by
  cases record
  rfl

@[simp]
theorem params_normalized (catalog : Catalog) (record : InstanceRecord) :
    (record.normalized catalog).params =
      normalizedParams catalog record.params (columnKinds catalog record.id) := by
  cases record
  rfl

@[simp]
theorem blocks_normalized (catalog : Catalog) (record : InstanceRecord) :
    (record.normalized catalog).blocks = record.blocks.map (List.map (normalized catalog)) := by
  cases record
  exact normalizedLists_eq_map catalog _

theorem record?_normalizedParam (param : Param InstanceRecord) (kind : ColumnKind) :
    (normalizedParam catalog param kind).record? = param.record?.map (normalized catalog) := by
  cases param <;> rfl

theorem isPlain_normalizedParam (param : Param InstanceRecord) (kind : ColumnKind) :
    (normalizedParam catalog param kind).IsPlain := by
  cases param <;> trivial

/-- A record of the right counts has one column kind for each param. -/
theorem CountsFit.length_columnKinds {format : BlockFormat}
    (counts : record.CountsFit catalog format) :
    (columnKinds catalog record.id).length = record.params.length := by
  have isSome_kind? : ∀ slot : Slot, slot.kind?.isSome = slot.isChild := by
    intro slot
    cases slot <;> rfl
  rw [columnKinds, counts.known, counts.params, BlockFormat.paramCount, Option.map_some,
    Option.getD_some, BlockFormat.kinds, List.length_filterMap_eq_countP]
  simp [isSome_kind?]

theorem Conforms.nested_normalized (conforms : record.Conforms catalog) :
    (record.normalized catalog).nested = record.nested.map (normalized catalog) := by
  rcases conforms with ⟨⟨format, counts⟩, _⟩
  have inParams : (normalizedParams catalog record.params (columnKinds catalog record.id)).filterMap
      Param.record? = (record.params.filterMap Param.record?).map (normalized catalog) := by
    have firsts := List.map_fst_zip (Nat.le_of_eq counts.length_columnKinds.symm)
    conv_rhs => rw [← firsts]
    simp [normalizedParams_eq_map, List.filterMap_map, List.map_filterMap,
      record?_normalizedParam]
  rw [nested, nested, params_normalized, blocks_normalized, inParams, List.map_append,
    List.map_flatten]

/-- The normal form of a conforming record conforms. -/
theorem Conforms.normalized (conforms : record.Conforms catalog) :
    (record.normalized catalog).Conforms catalog := by
  rcases conforms with ⟨⟨format, counts⟩, _⟩
  refine ⟨⟨format, ?_, ?_, ?_⟩, ?_⟩
  · rw [id_normalized, counts.known]
  · rw [params_normalized, normalizedParams_eq_map, List.length_map, List.length_zip,
      counts.length_columnKinds, Nat.min_self, counts.params]
  · rw [blocks_normalized, List.length_map, counts.lists]
  · intro value valueMem
    rw [params_normalized, normalizedParams_eq_map] at valueMem
    rcases List.mem_map.mp valueMem with ⟨column, _, isValue⟩
    have isPlain : (Param.other value : Param InstanceRecord).IsPlain :=
      isValue ▸ isPlain_normalizedParam column.1 column.2
    cases isPlain

/-- Conformance at every depth is kept by the normal form. -/
theorem everywhere_conforms_normalized (conforms : record.Everywhere (Conforms catalog)) :
    (record.normalized catalog).Everywhere (Conforms catalog) := by
  induction record using InstanceRecord.induction with
  | inside record ih =>
      rcases everywhere_iff.mp conforms with ⟨here, inside⟩
      refine .intro here.normalized ?_
      rw [here.nested_normalized, List.forall_mem_map]
      intro inner innerMem
      exact ih inner innerMem (inside inner innerMem)

/-- Params whose records are stable are stable themselves. -/
theorem normalizedParams_normalizedParams {params : List (Param InstanceRecord)}
    (again : ∀ param ∈ params, ∀ kind,
      normalizedParam catalog (normalizedParam catalog param kind) kind =
        normalizedParam catalog param kind) (kinds : List ColumnKind) :
    normalizedParams catalog (normalizedParams catalog params kinds) kinds =
      normalizedParams catalog params kinds := by
  induction params generalizing kinds with
  | nil => rfl
  | cons param params ih =>
      rw [List.forall_mem_cons] at again
      cases kinds with
      | nil => rfl
      | cons kind kinds => rw [normalizedParams, normalizedParams, again.1 kind, ih again.2 kinds]

/-- A normal form is its own normal form. -/
theorem normalized_normalized (catalog : Catalog) (record : InstanceRecord) :
    (record.normalized catalog).normalized catalog = record.normalized catalog := by
  induction record using InstanceRecord.induction with
  | inside record ih =>
      rcases record with ⟨id, params, lists⟩
      rw [normalized, normalized, normalizedParams_normalizedParams, normalizedLists_eq_map,
        normalizedLists_eq_map, List.map_map]
      · have inLists : lists.map (List.map (normalized catalog) ∘ List.map (normalized catalog)) =
            lists.map (List.map (normalized catalog)) := by
          apply List.map_congr_left
          intro records recordsMem
          rw [Function.comp_apply, List.map_map]
          apply List.map_congr_left
          intro inner innerMem
          exact ih inner (mem_nested_of_list recordsMem innerMem)
        rw [inLists]
      · intro param paramMem kind
        cases param with
        | block inner => exact congrArg Param.block (ih inner (mem_nested_of_param paramMem))
        | literal text => cases isInput : kind.isInput <;> simp [normalizedParam, isInput]
        | other value => cases isInput : kind.isInput <;> simp [normalizedParam, isInput]

end InstanceRecord

namespace Block

variable {catalog : Catalog} {style : Style} {id : String} {record : InstanceRecord} {block : Block}

open InstanceRecord

/-- A text in an input is written as it is, and in any other column as nothing. -/
theorem fieldParam_ofText (kind : ColumnKind) (text : String) :
    fieldParam (kind, Content.ofText text) = .literal (if kind.isInput then text else "") := by
  by_cases isEmpty : text = ""
  · subst isEmpty
    exact congrArg Param.literal (ite_self "").symm
  · simp [Content.ofText, isEmpty, fieldParam, literalParam]

theorem fieldParam_contentOfLiteral (kind : ColumnKind) (text : String) :
    fieldParam (kind, contentOfLiteral text kind) =
      .literal (if kind.isInput then text else "") := by
  rw [contentOfLiteral]
  by_cases isInput : kind.isInput = true
  · rw [if_pos isInput, fieldParam_ofText]
  · rw [if_neg isInput, if_neg isInput]
    rfl

theorem fieldParam_of_contentOfValue {kind : ColumnKind} {value : Value} {content : Content Block}
    (read : contentOfValue id value = .ok content) :
    fieldParam (kind, content) =
      .literal (if kind.isInput then value.shown?.getD "" else "") := by
  cases value with
  | null =>
      cases read
      exact congrArg Param.literal (ite_self "").symm
  | bool value =>
      cases read
      rfl
  | number value =>
      cases read
      exact fieldParam_ofText kind _
  | string text =>
      cases read
      exact fieldParam_ofText kind text
  | array items => cases read
  | object fields => cases read

/-- The param that a field writes is the normal form of the one that filled it. -/
theorem fieldParam_of_fills {field : ColumnKind × Content Block} {param : Param InstanceRecord}
    (fills : Fills (fun child inner => child.record = inner.normalized catalog) id field param) :
    fieldParam field = normalizedParam catalog param field.1 := by
  rcases field with ⟨kind, content⟩
  cases param with
  | block inner =>
      rcases fills with ⟨child, holds, written⟩
      have holds : content = .block child := holds
      rw [holds]
      exact congrArg Param.block written
  | literal text =>
      have holds : content = contentOfLiteral text kind := fills
      rw [holds]
      exact fieldParam_contentOfLiteral kind text
  | other value => exact fieldParam_of_contentOfValue fills

theorem map_fieldParam_of_fills {fields : List (ColumnKind × Content Block)}
    {params : List (Param InstanceRecord)}
    (fills : List.Forall₂
      (Fills (fun child inner => child.record = inner.normalized catalog) id) fields params) :
    fields.map fieldParam = normalizedParams catalog params (fields.map Prod.fst) := by
  induction fills with
  | nil => rfl
  | cons here others ih =>
      rw [List.map_cons, List.map_cons, normalizedParams, fieldParam_of_fills here, ih]

/-- The lists that the stacks write are the normal forms of the lists read. -/
theorem map_stackRecords_of_forall₂ {stackLists : List (List Block)}
    {lists : List (List InstanceRecord)}
    (written : List.Forall₂
      (List.Forall₂ fun child inner => child.record = inner.normalized catalog) stackLists lists) :
    stackLists.map stackRecords = normalizedLists catalog lists := by
  induction written with
  | nil => rfl
  | @cons stack records stackLists lists here others ih =>
      have inStack : stack.map record = records.map (normalized catalog) := by
        induction here with
        | nil => rfl
        | cons here others inRest => rw [List.map_cons, List.map_cons, here, inRest]
      rw [List.map_cons, normalizedLists, stackRecords_eq_map, normalizedRecords_eq_map, inStack,
        ih]

/-- A block that is built from a record is written as the normal form of the record, if the catalog
has each format under its identifier. -/
theorem record_of_ofRecord (keyed : catalog.Keyed)
    (built : ofRecord catalog style record = .ok block) :
    block.record = record.normalized catalog := by
  refine ofRecord_induction (motive := fun block record =>
    block.record = record.normalized catalog) ?_ built
  intro record block known shaped fills inStacks
  rcases record with ⟨id, params, lists⟩
  have known : catalog.lookup id = some block.format := known
  have sameId : block.record.id = id := by
    cases block
    exact keyed id _ known
  have sameParams : block.record.params =
      normalizedParams catalog params (columnKinds catalog id) := by
    rw [params_record, map_fieldParam_of_fills fills, map_fst_fields shaped, columnKinds, known]
    rfl
  have sameLists : block.record.blocks = normalizedLists catalog lists := by
    rw [blocks_record, map_stackRecords_of_forall₂ inStacks]
  rw [normalized, ← sameParams, ← sameLists, ← sameId]
  cases block.record
  rfl

end Block

end BlockEditor
