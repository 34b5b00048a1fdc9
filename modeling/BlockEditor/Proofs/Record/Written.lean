import BlockEditor.Proofs.Block.Fields
import BlockEditor.Proofs.Record.Nested
import BlockEditor.Record.Load

/-!
# What a block is written as

The record of a block has one parameter for every field and one list for every stack
(`Block.params_record`, `Block.blocks_record`), and the records nested in it are those of the nested
blocks (`Block.nested_record`). A parameter is a nested block or a text and never another value, in
the record itself and at any depth (`Block.everywhere_isPlain_record`).
-/

namespace BlockEditor

/-- A parameter is a nested block or a text. -/
def Param.IsPlain {Record : Type} : Param Record → Prop
  | .block _ => True
  | .literal _ => True
  | .other _ => False

/-- Every parameter of a record is a nested block or a text. -/
def InstanceRecord.IsPlain (record : InstanceRecord) : Prop :=
  ∀ param ∈ record.params, param.IsPlain

namespace Block

/-- The parameter that a field is written as. -/
def fieldParam (field : ColumnKind × Content Block) : Param InstanceRecord :=
  match field.2 with
  | .empty => .literal ""
  | .literal text => literalParam field.1 text
  | .block child => .block child.record

theorem isPlain_fieldParam (field : ColumnKind × Content Block) : (fieldParam field).IsPlain := by
  rcases field with ⟨kind, content⟩
  cases content <;> trivial

theorem record?_fieldParam (field : ColumnKind × Content Block) :
    (fieldParam field).record? = field.2.block?.map record := by
  rcases field with ⟨kind, content⟩
  cases content <;> rfl

theorem stackRecords_eq_map (children : List Block) :
    stackRecords children = children.map record := by
  induction children with
  | nil => rfl
  | cons child children ih => rw [stackRecords, ih, List.map_cons]

theorem cellParams_eq_map (cells : List (Cell Block)) :
    cellParams cells = (cells.filterMap Cell.field?).map fieldParam := by
  induction cells with
  | nil => rfl
  | cons cell cells ih =>
      rw [cellParams, ih]
      cases cell with
      | label text size => rfl
      | column kind content size => cases content <;> rfl

theorem lineParams_eq_map (lines : List (Line Block)) :
    lineParams lines = (lines.flatMap Line.fields).map fieldParam := by
  induction lines with
  | nil => rfl
  | cons line lines ih =>
      rw [lineParams, ih, List.flatMap_cons, List.map_append]
      cases line with
      | columns cells size => rw [paramsOfLine, cellParams_eq_map, Line.fields]
      | stack children size => rfl

theorem lineLists_eq_map (lines : List (Line Block)) :
    lineLists lines = (lines.filterMap Line.children?).map stackRecords := by
  induction lines with
  | nil => rfl
  | cons line lines ih =>
      rw [lineLists, ih]
      cases line <;> rfl

/-- The params of a record are the fields of the block, in their order. -/
theorem params_record (block : Block) : block.record.params = block.fields.map fieldParam := by
  rcases block with ⟨format, lines, size⟩
  exact lineParams_eq_map lines

/-- The lists of a record are the stacks of the block, in their order. -/
theorem blocks_record (block : Block) :
    block.record.blocks = block.stackLists.map stackRecords := by
  rcases block with ⟨format, lines, size⟩
  exact lineLists_eq_map lines

/-- What is nested in the record are the records of the nested blocks. -/
theorem nested_record (block : Block) : block.record.nested = block.nested.map record := by
  have inStacks : (block.stackLists.map stackRecords).flatten =
      block.stackLists.flatten.map record := by
    simp [List.map_flatten, List.map_congr_left fun children _ => stackRecords_eq_map children]
  rw [InstanceRecord.nested, params_record, blocks_record, inStacks, nested, List.map_append,
    List.filterMap_map, List.map_filterMap]
  simp only [Function.comp_def, record?_fieldParam]

/-- A block writes texts and records only. -/
theorem everywhere_isPlain_record (block : Block) :
    block.record.Everywhere InstanceRecord.IsPlain := by
  induction block using Block.induction with
  | inside block ih =>
      refine .intro ?_ ?_
      · intro param paramMem
        rw [params_record] at paramMem
        rcases List.mem_map.mp paramMem with ⟨field, _, rfl⟩
        exact isPlain_fieldParam field
      · intro inner innerMem
        rw [nested_record] at innerMem
        rcases List.mem_map.mp innerMem with ⟨child, childMem, rfl⟩
        rcases mem_nested_iff.mp childMem with ⟨step, found⟩
        exact ih step child found

end Block

end BlockEditor
