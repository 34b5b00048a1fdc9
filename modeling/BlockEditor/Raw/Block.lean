import BlockEditor.Block.Layout
import BlockEditor.Raw.Checked

/-!
# Blocks with their sizes in lists of their own

A raw block keeps its contents, the sizes of its lines and the sizes of its columns in three lists,
each of which is changed on its own. Nothing in a raw block says that the three go together or that
they go with the format: that is a property of raw blocks, which every operation has to keep. Where
an operation uses a position of one list for another one, the position is checked.

The operations on raw blocks are written here step by step and end with an error at the first
position that is not there. The blocks of `BlockEditor.Block` have the size of each line and cell
beside its content.
-/

namespace BlockEditor

open Checked

/-- The contents of a line, without its size. -/
inductive RawLine (Child : Type) where
  /-- What the columns of a row hold; a label holds nothing. -/
  | columns (contents : List (Content Child))
  /-- A stack of blocks. -/
  | stack (children : List Child)

namespace RawLine

variable {Child : Type}

/-- Whether a line is a stack. -/
def isStack : RawLine Child → Bool
  | .stack _ => true
  | .columns _ => false

/-- What the column at a position of a row holds. -/
def content? (line : RawLine Child) (column : Nat) : Option (Content Child) :=
  match line with
  | .columns contents => contents[column]?
  | .stack _ => none

/-- The block at a position: in a column of a row, or in a stack. -/
def child? (line : RawLine Child) (position : Nat) : Option Child :=
  match line with
  | .columns contents => contents[position]?.bind Content.block?
  | .stack children => children[position]?

/-- The line with another block at a position that holds one. -/
def setChild (line : RawLine Child) (position : Nat) (child : Child) : RawLine Child :=
  match line with
  | .columns contents => .columns (contents.set position (.block child))
  | .stack children => .stack (children.set position child)

/-- A line that has not been filled. -/
def ofFormatLine : FormatLine → RawLine Child
  | .columns slots => .columns (slots.map fun _ => .empty)
  | .stack => .stack []

end RawLine

/-- A block with its contents and sizes in separate lists. -/
structure RawBlock where
  /-- The format that the block fills. -/
  format : BlockFormat
  /-- The contents of the lines. -/
  lines : List (RawLine RawBlock)
  /-- The size of the block. -/
  size : Size
  /-- The sizes of the lines. -/
  lineSizes : List Size
  /-- For each line, the sizes of its columns. -/
  cellSizes : List (List Size)

namespace RawBlock

/-- A block without contents that has not been laid out. -/
def blank (format : BlockFormat) : RawBlock where
  format
  lines := format.lines.map RawLine.ofFormatLine
  size := .zero
  lineSizes := format.lines.map fun _ => .zero
  cellSizes := format.lines.map fun line => line.slots.map fun _ => .zero

/-- The slot of the format at a position. -/
def slot? (block : RawBlock) (line column : Nat) : Option Slot :=
  (block.format.slotsOfLine line)[column]?

/-- What the column at a position holds. -/
def content? (block : RawBlock) (line column : Nat) : Option (Content RawBlock) :=
  block.lines[line]?.bind fun line => line.content? column

/-- The size that is kept for a column, or no size if none is kept. -/
def cellSize (cellSizes : List (List Size)) (line column : Nat) : Size :=
  (cellSizes[line]?.bind fun row => row[column]?).getD .zero

/-- The block that is one step away. -/
def child? (block : RawBlock) (step : Step) : Option RawBlock :=
  block.lines[step.line]?.bind fun line => line.child? step.position

/-- The block that is some steps away. -/
def descendant? (block : RawBlock) : List Step → Option RawBlock
  | [] => some block
  | step :: rest =>
    match block.child? step with
    | some child => child.descendant? rest
    | none => none

/-- The block at the end of a path. -/
def get? (block : RawBlock) (path : BlockPath) : Option RawBlock := block.descendant? path.steps

/-- The size of what a slot of the format shows. -/
def measureCell (style : Style) : Slot → Content RawBlock → Size
  | .label text, _ => ⟨style.geometry.textWidth (style.label text), style.geometry.textHeight⟩
  | .child _, .block child =>
    ⟨child.size.width + 2 * style.config.elementPaddingHorizontal,
      child.size.height + 2 * style.config.elementPaddingVertical⟩
  | .child _, .literal text =>
    ⟨style.geometry.textWidth text + 2 * style.config.innerPaddingHorizontal,
      style.geometry.textHeight + 2 * style.config.innerPaddingVertical⟩
  | .child _, .empty => ⟨style.config.emptyFieldWidth, style.config.emptyFieldHeight⟩

/-- Computes the sizes of the columns of a line from a column on. Each of them is written to its
place and added to the size of the line. -/
def measureRow (style : Style) (line column : Nat) (cellSizes : List (List Size))
    (lineSize : Size) : List (Slot × Content RawBlock) → Except OutOfRange (List (List Size) × Size)
  | [] => .ok (cellSizes, lineSize)
  | (slot, content) :: rest => do
    let size := measureCell style slot content
    let row ← item cellSizes line
    let row ← write row column size
    let cellSizes ← write cellSizes line row
    measureRow style line (column + 1) cellSizes
      ⟨lineSize.width + (size.width + style.config.innerPaddingHorizontal),
        greater lineSize.height (size.height + 2 * style.config.innerPaddingVertical)⟩ rest

/-- Computes the size of a line. The sizes of its columns are computed along the slots of the format
and written to their places. -/
def measureLine (style : Style) (format : BlockFormat) (line : Nat)
    (cellSizes : List (List Size)) : RawLine RawBlock → Except OutOfRange (List (List Size) × Size)
  | .stack children => .ok (cellSizes, Line.stackSize style.config (children.map RawBlock.size))
  | .columns contents =>
    measureRow style line 0 cellSizes ⟨style.config.innerPaddingHorizontal, 0⟩
      ((format.slotsOfLine line).zip contents)

/-- Computes the sizes of the lines from a line on. Each of them is written to its place and added
to the size of the block. -/
def measureLines (style : Style) (format : BlockFormat) (line : Nat) (lineSizes : List Size)
    (cellSizes : List (List Size)) (size : Size) :
    List (RawLine RawBlock) → Except OutOfRange (List Size × List (List Size) × Size)
  | [] => .ok (lineSizes, cellSizes, size)
  | content :: rest => do
    let (cellSizes, lineSize) ← measureLine style format line cellSizes content
    let lineSizes ← write lineSizes line lineSize
    measureLines style format (line + 1) lineSizes cellSizes
      ⟨greater size.width lineSize.width, size.height + lineSize.height⟩ rest

/-- The block with the sizes of its own lines and columns and then its own size computed. -/
def measured (style : Style) (block : RawBlock) : Except OutOfRange RawBlock := do
  let (lineSizes, cellSizes, body) ←
    measureLines style block.format 0 block.lineSizes block.cellSizes .zero block.lines
  let size :=
    if block.format.endsWithStack then
      ⟨body.width, body.height + style.geometry.closingLineHeight⟩
    else body
  return { block with size, lineSizes, cellSizes }

/-- The measured block, and whether its own size has changed. -/
def remeasured (style : Style) (block : RawBlock) : Except OutOfRange (RawBlock × Bool) := do
  let measured ← block.measured style
  return (measured, block.size.differs measured.size)

/-- A block of a format with every column and stack empty. -/
def fresh (style : Style) (format : BlockFormat) : Except OutOfRange RawBlock :=
  (blank format).measured style

mutual

/-- The block with all sizes in it computed from the innermost blocks outwards. -/
def relaid (style : Style) : RawBlock → Except OutOfRange RawBlock
  | ⟨format, lines, size, lineSizes, cellSizes⟩ => do
    let lines ← relaidLines style lines
    (⟨format, lines, size, lineSizes, cellSizes⟩ : RawBlock).measured style
termination_by structural block => block

/-- The lines with the blocks in them laid out. -/
def relaidLines (style : Style) :
    List (RawLine RawBlock) → Except OutOfRange (List (RawLine RawBlock))
  | [] => .ok []
  | line :: rest => do
    let line ← relaidLine style line
    let rest ← relaidLines style rest
    return line :: rest
termination_by structural lines => lines

/-- The line with the blocks in it laid out. -/
def relaidLine (style : Style) : RawLine RawBlock → Except OutOfRange (RawLine RawBlock)
  | .columns contents => do return .columns (← relaidContents style contents)
  | .stack children => do return .stack (← relaidStack style children)
termination_by structural line => line

/-- What columns hold, laid out. -/
def relaidContents (style : Style) :
    List (Content RawBlock) → Except OutOfRange (List (Content RawBlock))
  | [] => .ok []
  | content :: rest => do
    let content ← relaidContent style content
    let rest ← relaidContents style rest
    return content :: rest
termination_by structural contents => contents

/-- What a column holds, laid out. -/
def relaidContent (style : Style) : Content RawBlock → Except OutOfRange (Content RawBlock)
  | .empty => .ok .empty
  | .literal text => .ok (.literal text)
  | .block child => do return .block (← relaid style child)
termination_by structural content => content

/-- The blocks of a stack, each laid out. -/
def relaidStack (style : Style) : List RawBlock → Except OutOfRange (List RawBlock)
  | [] => .ok []
  | child :: rest => do
    let child ← relaid style child
    let rest ← relaidStack style rest
    return child :: rest
termination_by structural children => children

end

end RawBlock

end BlockEditor
