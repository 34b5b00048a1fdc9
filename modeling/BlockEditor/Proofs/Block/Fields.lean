import BlockEditor.Proofs.Block.Change

/-!
# Fields and stacks

The contents of a block can be listed in two lists without their positions: `Block.fields` are the
child columns of all lines one after the other, each with its kind, and `Block.stackLists` are the
stacks. The kinds of the fields are those that the format lists (`Block.map_fst_fields`), and the
blocks in these lists are those directly inside the block (`Block.mem_nested_iff`), so a property of
all nested blocks can be shown along the lists (`Block.everywhere_iff_nested`).
-/

namespace BlockEditor

variable {style : Style}

/-- The kind of the child column that a slot is. -/
def Slot.kind? : Slot → Option ColumnKind
  | .child kind => some kind
  | .label _ => none

/-- The kinds of the child columns of a format, line by line. -/
def BlockFormat.kinds (format : BlockFormat) : List ColumnKind :=
  (format.lines.flatMap FormatLine.slots).filterMap Slot.kind?

/-- The kind and the content of a child column. -/
def Cell.field? : Cell Block → Option (ColumnKind × Content Block)
  | .column kind content _ => some (kind, content)
  | .label _ _ => none

/-- The kinds and contents of the child columns of a line. -/
def Line.fields : Line Block → List (ColumnKind × Content Block)
  | .columns cells _ => cells.filterMap Cell.field?
  | .stack _ _ => []

@[simp]
theorem Cell.field?_measured (cell : Cell Block) : (cell.measured style).field? = cell.field? := by
  cases cell <;> rfl

theorem Cell.map_fst_field? (cell : Cell Block) :
    cell.field?.map Prod.fst = cell.slot.kind? := by
  cases cell <;> rfl

@[simp]
theorem Line.fields_measured (line : Line Block) : (line.measured style).fields = line.fields := by
  cases line with
  | columns cells size => simp [measured, fields, List.filterMap_map, Function.comp_def]
  | stack children size => rfl

/-- The fields of a line have the kinds of its child columns. -/
theorem Line.map_fst_fields (line : Line Block) :
    line.fields.map Prod.fst = line.shape.slots.filterMap Slot.kind? := by
  cases line with
  | columns cells size =>
      simp only [fields, shape, FormatLine.slots, List.map_filterMap, List.filterMap_map,
        Cell.map_fst_field?, Function.comp_def]
  | stack children size => rfl

@[simp]
theorem Line.children?_measured (line : Line Block) :
    (line.measured style).children? = line.children? := by
  cases line <;> rfl

namespace Block

variable {block child : Block} {kind : ColumnKind} {content : Content Block} {Holds : Block → Prop}

/-- The kinds and contents of the child columns of a block, line by line. -/
def fields (block : Block) : List (ColumnKind × Content Block) := block.lines.flatMap Line.fields

/-- The blocks of each stack of a block, line by line. -/
def stackLists (block : Block) : List (List Block) := block.lines.filterMap Line.children?

@[simp]
theorem fields_measured (block : Block) : (block.measured style).fields = block.fields := by
  simp [fields, List.flatMap_map]

@[simp]
theorem stackLists_measured (block : Block) :
    (block.measured style).stackLists = block.stackLists := by
  simp only [stackLists, lines_measured, List.filterMap_map, Function.comp_def,
    Line.children?_measured]

theorem map_fst_fields (shaped : block.shape = block.format.lines) :
    block.fields.map Prod.fst = block.format.kinds := by
  rw [BlockFormat.kinds, ← shaped, Block.shape, fields]
  induction block.lines with
  | nil => rfl
  | cons line rest ih => simp [Line.map_fst_fields, ih]

theorem mem_fields_of_cell? {line column : Nat} {size : Size}
    (atCell : block.cell? line column = some (.column kind content size)) :
    (kind, content) ∈ block.fields := by
  rcases cell?_eq_some atCell with ⟨cells, lineSize, atLine, atColumn⟩
  refine List.mem_flatMap.mpr ⟨_, List.mem_of_getElem? atLine, ?_⟩
  exact List.mem_filterMap.mpr ⟨_, List.mem_of_getElem? atColumn, rfl⟩

/-- Every field stands in a cell. -/
theorem cell?_of_mem_fields (fieldMem : (kind, content) ∈ block.fields) :
    ∃ line column size, block.cell? line column = some (.column kind content size) := by
  rcases List.mem_flatMap.mp fieldMem with ⟨line, lineMem, inLine⟩
  rcases List.getElem?_of_mem lineMem with ⟨index, atLine⟩
  cases line with
  | stack children size => cases inLine
  | columns cells lineSize =>
      rcases List.mem_filterMap.mp inLine with ⟨cell, cellMem, isField⟩
      rcases List.getElem?_of_mem cellMem with ⟨column, atColumn⟩
      cases cell with
      | label text size => cases isField
      | column otherKind otherContent size =>
          cases isField
          exact ⟨index, column, size, by simp [cell?, atLine, Line.cell?, atColumn]⟩

/-- The blocks directly inside a block: those of its fields and those of its stacks. -/
def nested (block : Block) : List Block :=
  block.fields.filterMap (fun field => field.2.block?) ++ block.stackLists.flatten

/-- The blocks directly inside a block are those that are one step away. -/
theorem mem_nested_iff : child ∈ block.nested ↔ ∃ step, block.child? step = some child := by
  constructor
  · intro childMem
    rcases List.mem_append.mp childMem with inFields | inStacks
    · rcases List.mem_filterMap.mp inFields with ⟨⟨kind, content⟩, fieldMem, holds⟩
      cases Content.block?_eq_some_iff.mp holds
      rcases cell?_of_mem_fields fieldMem with ⟨line, column, size, atCell⟩
      exact ⟨⟨line, column⟩, child?_of_cell? atCell⟩
    · rcases List.mem_flatten.mp inStacks with ⟨stack, stackMem, childMem⟩
      rcases List.mem_filterMap.mp stackMem with ⟨line, lineMem, isStack⟩
      rcases List.getElem?_of_mem lineMem with ⟨index, atLine⟩
      rcases List.getElem?_of_mem childMem with ⟨position, atPosition⟩
      cases line with
      | columns cells size => cases isStack
      | stack children size =>
          cases isStack
          exact ⟨⟨index, position⟩, by simp [child?, atLine, atPosition]⟩
  · rintro ⟨step, found⟩
    rcases Option.bind_eq_some_iff.mp found with ⟨line, atLine, inLine⟩
    have lineMem := List.mem_of_getElem? atLine
    cases line with
    | columns cells size =>
        rcases Option.bind_eq_some_iff.mp inLine with ⟨cell, atColumn, holds⟩
        cases cell with
        | label text cellSize => cases holds
        | column kind content cellSize =>
            have fieldMem : (kind, content) ∈ block.fields :=
              List.mem_flatMap.mpr ⟨_, lineMem,
                List.mem_filterMap.mpr ⟨_, List.mem_of_getElem? atColumn, rfl⟩⟩
            exact List.mem_append_left _ (List.mem_filterMap.mpr ⟨_, fieldMem, holds⟩)
    | stack children size =>
        have stackMem : children ∈ block.stackLists := List.mem_filterMap.mpr ⟨_, lineMem, rfl⟩
        have childMem := List.mem_of_getElem? inLine
        exact List.mem_append_right _ (List.mem_flatten.mpr ⟨children, stackMem, childMem⟩)

/-- A property holds everywhere in a block exactly when it holds of the block itself and everywhere
in the blocks directly inside. -/
theorem everywhere_iff_nested :
    block.Everywhere Holds ↔ Holds block ∧ ∀ child ∈ block.nested, child.Everywhere Holds := by
  rw [everywhere_iff]
  apply and_congr_right
  intro _
  constructor
  · intro inside child childMem
    rcases mem_nested_iff.mp childMem with ⟨step, found⟩
    exact inside step child found
  · intro inside step child found
    exact inside child (mem_nested_iff.mpr ⟨step, found⟩)

end Block

end BlockEditor
