import BlockEditor.Block.Basic

/-!
# Layout of blocks

`Block.measured` computes the sizes of a block and of its own lines and cells from the sizes of
the blocks directly inside it; an edit measures the blocks on the way to the place of the edit and
no others. `Block.relaid` computes all sizes of a block from the innermost blocks outwards, so it
is what every other computation of sizes has to agree with.
-/

namespace BlockEditor

namespace Cell

/-- The size of a cell: the shown text, the nested block with padding around it, or a field. -/
def measure (style : Style) : Cell Block → Size
  | .label text _ => ⟨style.geometry.textWidth (style.label text), style.geometry.textHeight⟩
  | .column _ (.block child) _ =>
    ⟨child.size.width + 2 * style.config.elementPaddingHorizontal,
      child.size.height + 2 * style.config.elementPaddingVertical⟩
  | .column _ (.literal text) _ =>
    ⟨style.geometry.textWidth text + 2 * style.config.innerPaddingHorizontal,
      style.geometry.textHeight + 2 * style.config.innerPaddingVertical⟩
  | .column _ .empty _ => ⟨style.config.emptyFieldWidth, style.config.emptyFieldHeight⟩

/-- The cell with its size computed. -/
def measured (style : Style) : Cell Block → Cell Block
  | .label text size => .label text ((label text size).measure style)
  | .column kind content size => .column kind content ((column kind content size).measure style)

end Cell

namespace Line

/-- The size of a row with cells of the given sizes. -/
def rowSize (config : LayoutConfig) (sizes : List Size) : Size :=
  sizes.foldl (fun row cell =>
    ⟨row.width + (cell.width + config.innerPaddingHorizontal),
      greater row.height (cell.height + 2 * config.innerPaddingVertical)⟩)
    ⟨config.innerPaddingHorizontal, 0⟩

/-- The size of a stack line with blocks of the given sizes. -/
def stackSize (config : LayoutConfig) (sizes : List Size) : Size :=
  let extent := stackExtent config.elementPaddingVertical sizes
  ⟨extent.width + config.elementPaddingHorizontal + config.emptyLineWidth,
    extent.height + 2 * config.elementPaddingVertical⟩

/-- The line with its own size and those of its cells computed. -/
def measured (style : Style) : Line Block → Line Block
  | .columns cells _ =>
    let cells := cells.map (Cell.measured style)
    .columns cells (rowSize style.config (cells.map Cell.size))
  | .stack children _ => .stack children (stackSize style.config (children.map Block.size))

end Line

namespace Block

/-- The size of a block with lines of the given sizes. -/
def measure (style : Style) (format : BlockFormat) (sizes : List Size) : Size :=
  let body := sizes.foldl (fun body line =>
    ⟨greater body.width line.width, body.height + line.height⟩) Size.zero
  if format.endsWithStack then ⟨body.width, body.height + style.geometry.closingLineHeight⟩
  else body

/-- The block with the sizes of its own lines and cells and then its own size computed. -/
def measured (style : Style) (block : Block) : Block :=
  let lines := block.lines.map (Line.measured style)
  { block with lines, size := measure style block.format (lines.map Line.size) }

/-- The measured block, and whether its own size has changed. -/
def remeasured (style : Style) (block : Block) : Block × Bool :=
  let measured := block.measured style
  (measured, block.size.differs measured.size)

/-- A block of a format with every column and stack empty. -/
def fresh (style : Style) (format : BlockFormat) : Block := (blank format).measured style

mutual

/-- The block with all sizes in it computed from the innermost blocks outwards. -/
def relaid (style : Style) : Block → Block
  | ⟨format, lines, size⟩ => (⟨format, relaidLines style lines, size⟩ : Block).measured style
termination_by structural block => block

/-- The lines with the blocks in them laid out. -/
def relaidLines (style : Style) : List (Line Block) → List (Line Block)
  | [] => []
  | line :: rest => relaidLine style line :: relaidLines style rest
termination_by structural lines => lines

/-- The line with the blocks in it laid out. -/
def relaidLine (style : Style) : Line Block → Line Block
  | .columns cells size => .columns (relaidCells style cells) size
  | .stack children size => .stack (relaidStack style children) size
termination_by structural line => line

/-- The cells with the blocks in them laid out. -/
def relaidCells (style : Style) : List (Cell Block) → List (Cell Block)
  | [] => []
  | cell :: rest => relaidCell style cell :: relaidCells style rest
termination_by structural cells => cells

/-- The cell with the block in it laid out. -/
def relaidCell (style : Style) : Cell Block → Cell Block
  | .label text size => .label text size
  | .column kind .empty size => .column kind .empty size
  | .column kind (.literal text) size => .column kind (.literal text) size
  | .column kind (.block child) size => .column kind (.block (child.relaid style)) size
termination_by structural cell => cell

/-- The blocks of a stack, each laid out. -/
def relaidStack (style : Style) : List Block → List Block
  | [] => []
  | child :: rest => child.relaid style :: relaidStack style rest
termination_by structural children => children

end

end Block

end BlockEditor
