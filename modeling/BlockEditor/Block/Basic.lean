import BlockEditor.Format.Basic
import BlockEditor.Geometry
import BlockEditor.Path

/-!
# Blocks

A block is a format that has been filled in: its lines are rows of cells and stacks of blocks, a
cell is a label or a column for a child, and a column holds nothing, a literal or a block. Block,
lines and cells carry the sizes that layout has computed for them. `Block.shape` forgets the
contents; it gives back the lines of the format.
-/

namespace BlockEditor

/-- What a child column holds. -/
inductive Content (Child : Type) where
  /-- Nothing. -/
  | empty
  /-- A text that has been typed in. -/
  | literal (text : String)
  /-- A nested block. -/
  | block (child : Child)

namespace Content

variable {Child : Type}

/-- The content for a text that has been typed in: an empty text is nothing. -/
def ofText (text : String) : Content Child := if text.isEmpty then .empty else .literal text

/-- The literal that a content is. -/
def literal? : Content Child → Option String
  | .literal text => some text
  | _ => none

/-- The block that a content is. -/
def block? : Content Child → Option Child
  | .block child => some child
  | _ => none

/-- Whether a column with this content is free. -/
def isEmpty : Content Child → Bool
  | .empty => true
  | _ => false

end Content

/-- A position in a row of a block, with its size. -/
inductive Cell (Child : Type) where
  /-- A label. -/
  | label (text : String) (size : Size)
  /-- A column for a child. -/
  | column (kind : ColumnKind) (content : Content Child) (size : Size)

namespace Cell

variable {Child : Type}

/-- The size of a cell. -/
def size : Cell Child → Size
  | .label _ size => size
  | .column _ _ size => size

/-- What a cell holds; a label holds nothing. -/
def content : Cell Child → Content Child
  | .label _ _ => .empty
  | .column _ content _ => content

/-- The slot that a cell fills. -/
def slot : Cell Child → Slot
  | .label text _ => .label text
  | .column kind _ _ => .child kind

/-- The cell with another content; a label stays as it is. -/
def withContent (cell : Cell Child) (content : Content Child) : Cell Child :=
  match cell with
  | .label text size => .label text size
  | .column kind _ size => .column kind content size

/-- A cell that has not been filled or laid out. -/
def ofSlot : Slot → Cell Child
  | .label text => .label text .zero
  | .child kind => .column kind .empty .zero

end Cell

/-- A line of a block, with its size. -/
inductive Line (Child : Type) where
  /-- A row of cells. -/
  | columns (cells : List (Cell Child)) (size : Size)
  /-- A stack of blocks. -/
  | stack (children : List Child) (size : Size)

namespace Line

variable {Child : Type}

/-- The size of a line. -/
def size : Line Child → Size
  | .columns _ size => size
  | .stack _ size => size

/-- Whether a line is a stack. -/
def isStack : Line Child → Bool
  | .stack _ _ => true
  | .columns _ _ => false

/-- The line of a format that a line fills. -/
def shape : Line Child → FormatLine
  | .columns cells _ => .columns (cells.map Cell.slot)
  | .stack _ _ => .stack

/-- The cell at a position of a row. -/
def cell? (line : Line Child) (column : Nat) : Option (Cell Child) :=
  match line with
  | .columns cells _ => cells[column]?
  | .stack _ _ => none

/-- The blocks of a stack. -/
def children? : Line Child → Option (List Child)
  | .stack children _ => some children
  | .columns _ _ => none

/-- The block at a position: in a column of a row, or in a stack. -/
def child? (line : Line Child) (position : Nat) : Option Child :=
  match line with
  | .columns cells _ => cells[position]?.bind fun cell => cell.content.block?
  | .stack children _ => children[position]?

/-- The line with another block at a position that holds one. -/
def setChild (line : Line Child) (position : Nat) (child : Child) : Line Child :=
  match line with
  | .columns cells size => .columns (cells.modify position (·.withContent (.block child))) size
  | .stack children size => .stack (children.set position child) size

/-- Whether a line holds anything. -/
def hasContent : Line Child → Bool
  | .columns cells _ => cells.any fun cell => !cell.content.isEmpty
  | .stack children _ => !children.isEmpty

/-- A line that has not been filled or laid out. -/
def ofFormatLine : FormatLine → Line Child
  | .columns slots => .columns (slots.map Cell.ofSlot) .zero
  | .stack => .stack [] .zero

end Line

/-- A block with everything nested in it. -/
structure Block where
  /-- The format that the block fills. -/
  format : BlockFormat
  /-- The lines, from top to bottom. -/
  lines : List (Line Block)
  /-- The size of the block. -/
  size : Size

namespace Block

/-- The identifier of a block's format. -/
def id (block : Block) : String := block.format.id

/-- The lines of a format that the lines of a block fill. -/
def shape (block : Block) : List FormatLine := block.lines.map Line.shape

/-- A block without contents that has not been laid out. -/
def blank (format : BlockFormat) : Block := ⟨format, format.lines.map Line.ofFormatLine, .zero⟩

/-- The cell at a position of a row. -/
def cell? (block : Block) (line column : Nat) : Option (Cell Block) :=
  block.lines[line]?.bind fun line => line.cell? column

/-- The block that is one step away. -/
def child? (block : Block) (step : Step) : Option Block :=
  block.lines[step.line]?.bind fun line => line.child? step.position

/-- The block that is some steps away. -/
def descendant? (block : Block) : List Step → Option Block
  | [] => some block
  | step :: rest =>
    match block.child? step with
    | some child => child.descendant? rest
    | none => none

/-- The block at the end of a path. -/
def get? (block : Block) (path : BlockPath) : Option Block := block.descendant? path.steps

/-- Whether a block holds anything. -/
def hasContent (block : Block) : Bool := block.lines.any Line.hasContent

/-- The upper edge of each line. -/
def lineOffsets (block : Block) : List Float32 :=
  go 0 (block.lines.map fun line => line.size.height)
where
  /-- The upper edges of lines of the given heights, from an edge on. -/
  go (top : Float32) : List Float32 → List Float32
    | [] => []
    | height :: rest => top :: go (top + height) rest

mutual

/-- The number of blocks in a block, itself included. -/
def count : Block → Nat
  | ⟨_, lines, _⟩ => 1 + countLines lines
termination_by structural block => block

/-- The number of blocks in lines. -/
def countLines : List (Line Block) → Nat
  | [] => 0
  | line :: rest => countLine line + countLines rest
termination_by structural lines => lines

/-- The number of blocks in a line. -/
def countLine : Line Block → Nat
  | .columns cells _ => countCells cells
  | .stack children _ => countStack children
termination_by structural line => line

/-- The number of blocks in cells. -/
def countCells : List (Cell Block) → Nat
  | [] => 0
  | cell :: rest => countCell cell + countCells rest
termination_by structural cells => cells

/-- The number of blocks in a cell. -/
def countCell : Cell Block → Nat
  | .label _ _ => 0
  | .column _ .empty _ => 0
  | .column _ (.literal _) _ => 0
  | .column _ (.block child) _ => child.count
termination_by structural cell => cell

/-- The number of blocks in a stack. -/
def countStack : List Block → Nat
  | [] => 0
  | child :: rest => child.count + countStack rest
termination_by structural children => children

end

end Block

end BlockEditor
