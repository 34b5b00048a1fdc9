import BlockEditor.Block.Layout
import BlockEditor.Proofs.Block.Nested

/-!
# Measured blocks

Measuring a block replaces sizes only: contents, kinds and nested blocks stay, and a second
measurement changes nothing. The full layout of a block is the measurement of the block with the
blocks directly inside laid out (`Block.relaid_eq`). Hence a block is its own full layout exactly
when it and every block nested in it are measured (`Block.relaid_eq_self_iff`), which is what edits
have to keep true block by block.
-/

namespace BlockEditor

variable (style : Style)

namespace Cell

@[simp]
theorem content_measured (cell : Cell Block) : (cell.measured style).content = cell.content := by
  cases cell <;> rfl

@[simp]
theorem slot_measured (cell : Cell Block) : (cell.measured style).slot = cell.slot := by
  cases cell <;> rfl

@[simp]
theorem measured_measured (cell : Cell Block) :
    (cell.measured style).measured style = cell.measured style := by
  rcases cell with _ | ⟨kind, content, size⟩
  · rfl
  · cases content <;> rfl

end Cell

namespace Line

@[simp]
theorem shape_measured (line : Line Block) : (line.measured style).shape = line.shape := by
  cases line <;> simp [measured, shape, Function.comp_def]

@[simp]
theorem child?_measured (line : Line Block) (position : Nat) :
    (line.measured style).child? position = line.child? position := by
  cases line with
  | columns cells size =>
      cases found : cells[position]? <;> simp [measured, found]
  | stack children size => rfl

@[simp]
theorem measured_measured (line : Line Block) :
    (line.measured style).measured style = line.measured style := by
  cases line <;> simp [measured, Function.comp_def]

end Line

namespace Block

@[simp]
theorem format_measured (block : Block) : (block.measured style).format = block.format := rfl

@[simp]
theorem lines_measured (block : Block) :
    (block.measured style).lines = block.lines.map (Line.measured style) := rfl

@[simp]
theorem shape_measured (block : Block) : (block.measured style).shape = block.shape := by
  simp [shape, Function.comp_def]

@[simp]
theorem child?_measured (block : Block) (step : Step) :
    (block.measured style).child? step = block.child? step := by
  cases found : block.lines[step.line]? <;> simp [child?, found]

@[simp]
theorem measured_measured (block : Block) :
    (block.measured style).measured style = block.measured style := by
  simp [measured, Function.comp_def]

variable {style} {Holds : Block → Prop} {block : Block}

theorem everywhere_measured_iff :
    (block.measured style).Everywhere Holds ↔
      Holds (block.measured style) ∧
        ∀ step child, block.child? step = some child → child.Everywhere Holds := by
  rw [everywhere_iff]
  simp

theorem relaidStack_eq_map (style : Style) (children : List Block) :
    relaidStack style children = children.map (relaid style) := by
  induction children with
  | nil => rfl
  | cons child rest ih => simp [relaidStack, ih]

theorem relaidCell_eq_map (style : Style) (cell : Cell Block) :
    relaidCell style cell = cell.map (relaid style) := by
  rcases cell with _ | ⟨kind, content, size⟩
  · rfl
  · cases content <;> rfl

theorem relaidCells_eq_map (style : Style) (cells : List (Cell Block)) :
    relaidCells style cells = cells.map (Cell.map (relaid style)) := by
  induction cells with
  | nil => rfl
  | cons cell rest ih => simp [relaidCells, relaidCell_eq_map, ih]

theorem relaidLine_eq_map (style : Style) (line : Line Block) :
    relaidLine style line = line.map (relaid style) := by
  cases line with
  | columns cells size => simp [relaidLine, Line.map, relaidCells_eq_map]
  | stack children size => simp [relaidLine, Line.map, relaidStack_eq_map]

theorem relaidLines_eq_map (style : Style) (lines : List (Line Block)) :
    relaidLines style lines = lines.map (Line.map (relaid style)) := by
  induction lines with
  | nil => rfl
  | cons line rest ih => simp [relaidLines, relaidLine_eq_map, ih]

/-- The full layout lays out the blocks directly inside and then measures the block. -/
theorem relaid_eq (style : Style) (block : Block) :
    block.relaid style = (block.mapChildren (relaid style)).measured style := by
  rcases block with ⟨format, lines, size⟩
  rw [relaid, relaidLines_eq_map, mapChildren]

@[simp]
theorem format_relaid (style : Style) (block : Block) :
    (block.relaid style).format = block.format := by
  simp [relaid_eq]

/-- A block has the sizes that the blocks directly inside it give. -/
def IsMeasured (style : Style) (block : Block) : Prop := block.measured style = block

/-- A measured block has the sizes that measuring it gives. -/
theorem isMeasured_measured (style : Style) (block : Block) :
    (block.measured style).IsMeasured style :=
  measured_measured style block

/-- After a layout every block in the tree has the sizes that measuring it gives. -/
theorem everywhere_isMeasured_relaid (style : Style) (block : Block) :
    (block.relaid style).Everywhere (IsMeasured style) := by
  induction block using Block.induction with
  | inside block ih =>
      rw [relaid_eq, everywhere_measured_iff]
      refine ⟨isMeasured_measured style _, ?_⟩
      intro step child found
      rw [child?_mapChildren, Option.map_eq_some_iff] at found
      rcases found with ⟨old, atStep, rfl⟩
      exact ih step old atStep

/-- A layout changes nothing where every block has the sizes that measuring it gives. -/
theorem relaid_eq_self_of_everywhere (everywhere : block.Everywhere (IsMeasured style)) :
    block.relaid style = block := by
  induction block using Block.induction with
  | inside block ih =>
      have fixed : block.mapChildren (relaid style) = block := by
        apply mapChildren_eq_self
        intro step child found
        exact ih step child found (everywhere.child found)
      rw [relaid_eq, fixed]
      exact everywhere.here

/-- A block is its own full layout exactly when it and all blocks nested in it are measured. -/
theorem relaid_eq_self_iff :
    block.relaid style = block ↔ block.Everywhere (IsMeasured style) := by
  constructor
  · intro fixed
    rw [← fixed]
    exact everywhere_isMeasured_relaid style block
  · exact relaid_eq_self_of_everywhere

end Block

end BlockEditor
