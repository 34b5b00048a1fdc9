import BlockEditor.Proofs.Block.Edit

/-!
# Outlines

The outline of a block is what the block is apart from all sizes and from the blocks nested in it:
its format, the slots and contents of its rows, and how many blocks each of its stacks has. Two
trees of blocks differ in nothing but sizes if at every path both have a block with the same
outline, or neither has one. An edit at the end of a path that leaves the blocks directly inside
where they are changes no outline but the one at the end of the path
(`Block.map_outline_updateAt`).
-/

namespace BlockEditor

variable {style : Style}

/-- The slot of a cell and what the cell holds, without what a nested block is. -/
def Cell.outline (cell : Cell Block) : Slot × Content Unit :=
  (cell.slot, cell.content.map fun _ => ())

/-- A line without sizes and without what the blocks on it are. -/
inductive LineOutline where
  /-- The cells of a row. -/
  | columns (cells : List (Slot × Content Unit))
  /-- The number of blocks in a stack. -/
  | stack (count : Nat)

/-- The line without sizes and without what the blocks on it are. -/
def Line.outline : Line Block → LineOutline
  | .columns cells _ => .columns (cells.map Cell.outline)
  | .stack children _ => .stack children.length

/-- A block without sizes and without what the blocks in it are. -/
structure BlockOutline where
  /-- The format of the block. -/
  format : BlockFormat
  /-- The lines, from top to bottom. -/
  lines : List LineOutline

/-- The block without sizes and without what the blocks in it are. -/
def Block.outline (block : Block) : BlockOutline := ⟨block.format, block.lines.map Line.outline⟩

@[simp]
theorem Cell.outline_measured (cell : Cell Block) :
    (cell.measured style).outline = cell.outline := by
  simp [outline]

@[simp]
theorem Line.outline_measured (line : Line Block) :
    (line.measured style).outline = line.outline := by
  cases line <;> simp [measured, outline, Function.comp_def]

theorem Cell.outline_withContent {cell : Cell Block} {old : Block}
    (holds : cell.content.block? = some old) (new : Block) :
    (cell.withContent (.block new)).outline = cell.outline := by
  cases cell with
  | label text size => cases holds
  | column kind content size =>
      cases Content.block?_eq_some_iff.mp holds
      rfl

/-- Replacing a child of a line leaves its outline as it is. -/
theorem Line.outline_setChild {line : Line Block} {position : Nat} {old : Block}
    (found : line.child? position = some old) (new : Block) :
    (line.setChild position new).outline = line.outline := by
  cases line with
  | columns cells size =>
      rcases Option.bind_eq_some_iff.mp found with ⟨cell, atCell, holds⟩
      rw [setChild, modify_eq_set atCell, outline, outline,
        map_set_eq_map atCell (Cell.outline_withContent holds new)]
  | stack children size => simp [setChild, outline]

namespace Block

variable {Answer : Type} {edit : Block → Block × Answer} {block after : Block}
  {steps other : List Step} {answer : Answer}

@[simp]
theorem outline_measured (block : Block) : (block.measured style).outline = block.outline := by
  simp [outline, Function.comp_def]

theorem outline_setLine_congr (block : Block) (index : Nat) {line otherLine : Line Block}
    (same : line.outline = otherLine.outline) :
    (block.setLine index line).outline = (block.setLine index otherLine).outline := by
  simp [outline, setLine, List.map_set, same]

theorem outline_setChild {step : Step} {old : Block} (found : block.child? step = some old)
    (new : Block) : (block.setChild step new).outline = block.outline := by
  rcases Option.bind_eq_some_iff.mp found with ⟨line, atLine, inLine⟩
  rw [setChild_eq_setLine atLine, outline, outline, setLine,
    map_set_eq_map atLine (Line.outline_setChild inLine new)]

/-- Another content in a column leaves the contents of all other columns. -/
theorem cell?_setContent {line column : Nat} {kind : ColumnKind} {old : Content Block}
    {size : Size} (atCell : block.cell? line column = some (.column kind old size))
    (content : Content Block) (otherLine otherColumn : Nat) :
    (block.setContent line column content).cell? otherLine otherColumn =
      if otherLine = line ∧ otherColumn = column then some (.column kind content size)
      else block.cell? otherLine otherColumn := by
  rcases cell?_eq_some atCell with ⟨cells, lineSize, atLine, atColumn⟩
  rcases List.getElem?_eq_some_iff.mp atLine with ⟨inRange, isRow⟩
  rw [setContent_eq_setLine atLine]
  by_cases sameLine : otherLine = line
  · subst otherLine
    by_cases sameColumn : otherColumn = column
    · subst otherColumn
      simp [cell?, setLine, inRange, Line.cell?, atColumn, Cell.withContent]
    · simp [cell?, setLine, inRange, Line.cell?, isRow, sameColumn, Ne.symm sameColumn]
  · simp [cell?, setLine, sameLine, Ne.symm sameLine]

@[simp]
theorem cell?_measured (block : Block) (line column : Nat) :
    (block.measured style).cell? line column =
      (block.cell? line column).map (Cell.measured style) := by
  rcases atLine : block.lines[line]? with _ | ⟨cells, size⟩ | ⟨children, size⟩ <;>
    simp [cell?, atLine, Line.measured, Line.cell?]

/-- An edit at the end of a path that leaves the blocks directly inside where they are changes no
other outline. -/
theorem map_outline_updateAt (updated : updateAt style edit steps block = some (after, answer))
    (keeps : ∀ target step, block.descendant? steps = some target →
      (edit target).1.child? step = target.child? step)
    (different : other ≠ steps) :
    (after.descendant? other).map outline = (block.descendant? other).map outline := by
  induction steps generalizing block after other with
  | nil =>
      cases updated
      cases other with
      | nil => exact absurd rfl different
      | cons step rest =>
          rw [descendant?_cons, descendant?_cons, child?_measured, keeps block step rfl]
  | cons step rest ih =>
      rcases updateAt_cons_eq_some.mp updated with ⟨child, changed, found, inside, rfl⟩
      cases other with
      | nil => simp [outline_setChild found]
      | cons otherStep otherRest =>
          rw [descendant?_cons, descendant?_cons, child?_measured, child?_setChild found]
          by_cases same : otherStep = step
          · subst otherStep
            have keepsInside : ∀ target inner, child.descendant? rest = some target →
                (edit target).1.child? inner = target.child? inner := by
              intro target inner reached
              exact keeps target inner (by simp [found, reached])
            have restDifferent : otherRest ≠ rest := by
              rintro rfl
              exact different rfl
            simpa [found] using ih inside keepsInside restDifferent
          · simp [same]

end Block

end BlockEditor
