import BlockEditor.Proofs.Block.Change

/-!
# Well-formed blocks

The lines of a block are built from its format once and changed in place ever after. A block is
consistent if its lines still have the shape of the format and every column holds something that its
kind admits; it is well formed if it and all blocks nested in it are consistent. Consistency is an
invariant of single blocks (`Block.invariant_consistent`).
-/

namespace BlockEditor

variable {style : Style}

/-- A label admits what it is; a column admits its content. -/
def Cell.Admits : Cell Block → Prop
  | .label _ _ => True
  | .column kind content _ => content.Admitted kind

/-- All columns of a line admit their contents. -/
def Line.Admits : Line Block → Prop
  | .columns cells _ => ∀ cell ∈ cells, cell.Admits
  | .stack _ _ => True

namespace Cell

@[simp]
theorem slot_ofSlot (slot : Slot) : (ofSlot slot : Cell Block).slot = slot := by
  cases slot <;> rfl

@[simp]
theorem slot_withContent (cell : Cell Block) (content : Content Block) :
    (cell.withContent content).slot = cell.slot := by
  cases cell <;> rfl

theorem admits_ofSlot (slot : Slot) : (ofSlot slot : Cell Block).Admits := by
  cases slot <;> trivial

theorem admits_measured {cell : Cell Block} (admits : cell.Admits) :
    (cell.measured style).Admits := by
  cases cell <;> exact admits

theorem admits_map {change : Block → Block} {cell : Cell Block}
    (keeps : ∀ child : Block, (change child).format = child.format) (admits : cell.Admits) :
    (cell.map change).Admits := by
  cases cell with
  | label text size => trivial
  | column kind content size =>
      cases content with
      | empty => trivial
      | literal text => exact admits
      | block child =>
          simp only [map, Content.map, Admits, Content.Admitted, keeps]
          exact admits

/-- A cell that admits a block admits any other one of the same format. -/
theorem admits_withContent_block {cell : Cell Block} {old new : Block}
    (holds : cell.content.block? = some old) (sameFormat : new.format = old.format)
    (admits : cell.Admits) : (cell.withContent (.block new)).Admits := by
  cases cell with
  | label text size => trivial
  | column kind content size =>
      cases Content.block?_eq_some_iff.mp holds
      simp only [withContent, Admits, Content.Admitted, sameFormat]
      exact admits

end Cell

namespace Line

theorem shape_ofFormatLine (line : FormatLine) : (ofFormatLine line : Line Block).shape = line := by
  cases line with
  | columns slots => simp [ofFormatLine, shape, Function.comp_def]
  | stack => rfl

theorem admits_ofFormatLine (line : FormatLine) : (ofFormatLine line : Line Block).Admits := by
  cases line with
  | columns slots =>
      intro cell cellMem
      rcases List.mem_map.mp cellMem with ⟨slot, _, rfl⟩
      exact Cell.admits_ofSlot slot
  | stack => trivial

theorem admits_measured {line : Line Block} (admits : line.Admits) :
    (line.measured style).Admits := by
  cases line with
  | columns cells size =>
      intro cell cellMem
      rcases List.mem_map.mp cellMem with ⟨old, oldMem, rfl⟩
      exact Cell.admits_measured (admits old oldMem)
  | stack children size => trivial

/-- A line admits its blocks after a change that keeps their formats. -/
theorem admits_map {change : Block → Block} {line : Line Block}
    (keeps : ∀ child : Block, (change child).format = child.format) (admits : line.Admits) :
    (line.map change).Admits := by
  cases line with
  | columns cells size =>
      intro cell cellMem
      rcases List.mem_map.mp cellMem with ⟨old, oldMem, rfl⟩
      exact Cell.admits_map keeps (admits old oldMem)
  | stack children size => trivial

/-- Another content in one column of a row that keeps the slot of this column keeps the shape. -/
theorem shape_set {cells : List (Cell Block)} {column : Nat} {old new : Cell Block}
    (atColumn : cells[column]? = some old) (sameSlot : new.slot = old.slot) (size : Size) :
    (columns (cells.set column new) size).shape = (columns cells size).shape := by
  simp only [shape, map_set_eq_map atColumn sameSlot]

/-- Columns admit their contents if one is replaced by a cell that admits its own. -/
theorem admits_set {cells : List (Cell Block)} {size : Size} (admits : (columns cells size).Admits)
    {new : Cell Block} (newAdmits : new.Admits) (column : Nat) :
    (columns (cells.set column new) size).Admits := by
  intro cell cellMem
  rcases List.mem_or_eq_of_mem_set cellMem with cellMem | rfl
  · exact admits cell cellMem
  · exact newAdmits

end Line

namespace Block

variable {block : Block}

/-- A block has the lines of its format, and its columns admit their contents. -/
structure Consistent (block : Block) : Prop where
  /-- The lines, with their slots, are those of the format. -/
  shape : block.shape = block.format.lines
  /-- Literals are on inputs and not empty, and nested blocks fit. -/
  admits : ∀ line ∈ block.lines, line.Admits

/-- A block and everything in it is consistent. -/
def WellFormed (block : Block) : Prop := block.Everywhere Consistent

theorem Consistent.measured (consistent : block.Consistent) :
    (block.measured style).Consistent where
  shape := by simp [consistent.shape]
  admits line lineMem := by
    rcases List.mem_map.mp lineMem with ⟨old, oldMem, rfl⟩
    exact Line.admits_measured (consistent.admits old oldMem)

theorem consistent_blank (format : BlockFormat) : (blank format).Consistent where
  shape := by simp [Block.shape, blank, Function.comp_def, Line.shape_ofFormatLine]
  admits line lineMem := by
    rcases List.mem_map.mp lineMem with ⟨formatLine, _, rfl⟩
    exact Line.admits_ofFormatLine formatLine

/-- A line of the same shape that admits its contents keeps a block consistent. -/
theorem Consistent.setLine (consistent : block.Consistent) {index : Nat} {old new : Line Block}
    (atLine : block.lines[index]? = some old) (sameShape : new.shape = old.shape)
    (newAdmits : new.Admits) : (block.setLine index new).Consistent where
  shape := by
    rw [format_setLine, ← consistent.shape]
    exact map_set_eq_map atLine sameShape
  admits line lineMem := by
    rcases List.mem_or_eq_of_mem_set lineMem with lineMem | rfl
    · exact consistent.admits line lineMem
    · exact newAdmits

/-- Consistency is kept by every change of a block. -/
theorem invariant_consistent : Invariant fun _ block => block.Consistent where
  fresh style format := (consistent_blank format).measured
  measured consistent := consistent.measured
  fill := by
    intro style block line column kind old size content consistent atCell admitted
    rcases cell?_eq_some atCell with ⟨cells, lineSize, atLine, atColumn⟩
    rw [setContent_eq_setLine atLine, modify_eq_set atColumn]
    apply Consistent.measured
    apply consistent.setLine atLine
    · exact Line.shape_set atColumn (Cell.slot_withContent _ content) lineSize
    · have newAdmits : (Cell.column kind content size).Admits := admitted
      exact Line.admits_set (consistent.admits _ (List.mem_of_getElem? atLine)) newAdmits column
  restack := by
    intro style block line children size others consistent atLine
    apply Consistent.measured
    apply consistent.setLine atLine
    · rfl
    · trivial
  replace := by
    intro style block step old new consistent found sameFormat
    rcases Option.bind_eq_some_iff.mp found with ⟨line, atLine, inLine⟩
    have admits := consistent.admits line (List.mem_of_getElem? atLine)
    rw [setChild_eq_setLine atLine]
    apply Consistent.measured
    cases line with
    | columns cells size =>
        rcases Option.bind_eq_some_iff.mp inLine with ⟨cell, atColumn, holds⟩
        rw [Line.setChild, modify_eq_set atColumn]
        apply consistent.setLine atLine
        · exact Line.shape_set atColumn (Cell.slot_withContent cell _) size
        · apply Line.admits_set admits
          have cellAdmits := admits cell (List.mem_of_getElem? atColumn)
          exact Cell.admits_withContent_block holds sameFormat cellAdmits
    | stack children size =>
        apply consistent.setLine atLine
        · rfl
        · trivial
  relay := by
    intro style block other change consistent keeps
    apply Consistent.measured
    constructor
    · rw [shape_mapChildren, format_mapChildren, consistent.shape]
    · intro line lineMem
      rcases List.mem_map.mp lineMem with ⟨old, oldMem, rfl⟩
      exact Line.admits_map keeps (consistent.admits old oldMem)

end Block

end BlockEditor
