import BlockEditor.Block.Layout

/-!
# Edits of a block

Literals are set, blocks are put into columns and stacks and taken out of them. Each edit gives the
block afterwards, also when the block refuses it, and what it hands out: a block that was taken out
or that was refused. After an edit the block is measured, and `Block.updateAt` measures also the
blocks around the place of the edit, innermost first.
-/

namespace BlockEditor

namespace Block

/-- The block with another line at a position. -/
def setLine (block : Block) (index : Nat) (line : Line Block) : Block :=
  { block with lines := block.lines.set index line }

/-- The block with another content in a column. -/
def setContent (block : Block) (line column : Nat) (content : Content Block) : Block :=
  match block.lines[line]? with
  | some (.columns cells size) =>
    block.setLine line (.columns (cells.modify column (·.withContent content)) size)
  | _ => block

/-- Puts a text into an input column that holds no block, and says whether the column has taken it;
an empty text clears the column. -/
def typeText (style : Style) (line column : Nat) (text : String) (block : Block) : Block × Bool :=
  match block.cell? line column with
  | some (.column kind content _) =>
    if kind.isInput && content.block?.isNone then
      ((block.setContent line column (.ofText text)).measured style, true)
    else (block, false)
  | _ => (block, false)

/-- Puts a block into a free column of a kind that takes it, or hands it back. -/
def placeChild (style : Style) (block : Block) (line column : Nat) (child : Block) :
    Block × Option Block :=
  match block.cell? line column with
  | some (.column kind content _) =>
    if child.format.fitsColumn kind && content.isEmpty then
      ((block.setContent line column (.block child)).measured style, none)
    else (block, some child)
  | _ => (block, some child)

/-- Puts a block into a stack, at a place or at the end if the stack is shorter; hands it back if
the line is no stack. -/
def insertChild (style : Style) (block : Block) (line index : Nat) (child : Block) :
    Block × Option Block :=
  match block.lines[line]? with
  | some (.stack children size) =>
    let place := min index children.length
    ((block.setLine line (.stack (children.insertIdx place child) size)).measured style, none)
  | _ => (block, some child)

/-- Puts a block at the end of a stack; hands it back if the line is no stack. -/
def pushChild (style : Style) (block : Block) (line : Nat) (child : Block) :
    Block × Option Block :=
  match block.lines[line]? with
  | some (.stack children size) =>
    ((block.setLine line (.stack (children ++ [child]) size)).measured style, none)
  | _ => (block, some child)

/-- Takes out the block that is one step away. What a column holds is taken out first and put back
if it is no block. -/
def takeChild (style : Style) (step : Step) (block : Block) : Block × Option Block :=
  match block.lines[step.line]? with
  | none => (block, none)
  | some (.stack children size) =>
    match children[step.position]? with
    | none => (block, none)
    | some child =>
      let left := block.setLine step.line (.stack (children.eraseIdx step.position) size)
      (left.measured style, some child)
  | some (.columns cells _) =>
    match cells[step.position]? with
    | none => (block, none)
    | some cell =>
      let left := block.setContent step.line step.position .empty
      match cell.content with
      | .block child => (left.measured style, some child)
      | other => (left.setContent step.line step.position other, none)

/-- The block afterwards, if the block that was offered to it is not handed back. -/
def accepted (result : Block × Option Block) : Option Block :=
  match result with
  | (after, none) => some after
  | (_, some _) => none

/-- Puts a block into a free column, if the column takes it. -/
def placeChild? (style : Style) (block : Block) (line column : Nat) (child : Block) :
    Option Block :=
  accepted (block.placeChild style line column child)

/-- Puts a block into a stack at a place, if the line is a stack. -/
def insertChild? (style : Style) (block : Block) (line index : Nat) (child : Block) :
    Option Block :=
  accepted (block.insertChild style line index child)

/-- Puts a block at the end of a stack, if the line is a stack. -/
def pushChild? (style : Style) (block : Block) (line : Nat) (child : Block) : Option Block :=
  accepted (block.pushChild style line child)

/-- Takes out the block that is one step away, if there is one; gives what is left and the block. -/
def takeChild? (style : Style) (block : Block) (step : Step) : Option (Block × Block) :=
  match block.takeChild style step with
  | (left, some child) => some (left, child)
  | (_, none) => none

/-- The block with another block in place of the one that is a step away. -/
def setChild (block : Block) (step : Step) (child : Block) : Block :=
  { block with lines := block.lines.modify step.line (·.setChild step.position child) }

/-- Edits the block that is some steps away and measures it and the blocks around it. There is no
result if no block is there. -/
def updateAt {Answer : Type} (style : Style) (edit : Block → Block × Answer) :
    List Step → Block → Option (Block × Answer)
  | [], block =>
    let (edited, answer) := edit block
    some (edited.measured style, answer)
  | step :: rest, block => do
    let child ← block.child? step
    let (changed, answer) ← updateAt style edit rest child
    return ((block.setChild step changed).measured style, answer)

/-- Takes out the block at the end of a path. The first result is the block afterwards; the
blocks on the way are measured whenever the enclosing block exists. -/
def detach (style : Style) (block : Block) (path : BlockPath) : Block × Option Block :=
  match path.splitLast? with
  | none => (block, none)
  | some (parent, last) =>
    (updateAt style (takeChild style last) parent.steps block).getD (block, none)

end Block

end BlockEditor
