import BlockEditor.Raw.Block

/-!
# Edits of a raw block

Every edit gives the block as it is afterwards, refused or not, and what it hands out. An edit
further inside changes the nested block in its place and then measures the blocks around it,
innermost first; if the path leads nowhere, nothing is measured.
-/

namespace BlockEditor

open Checked

namespace RawBlock

/-- The block with other contents on a line. -/
def setLine (block : RawBlock) (line : Nat) (content : RawLine RawBlock) : RawBlock :=
  { block with lines := block.lines.set line content }

/-- The block with another content in a column. -/
def setContent (block : RawBlock) (line column : Nat) (content : Content RawBlock) : RawBlock :=
  match block.lines[line]? with
  | some (.columns contents) => block.setLine line (.columns (contents.set column content))
  | _ => block

/-- The block with another block in place of the one that is a step away. -/
def setChild (block : RawBlock) (step : Step) (child : RawBlock) : RawBlock :=
  { block with lines := block.lines.modify step.line (·.setChild step.position child) }

/-- Puts a text into an input column that holds no block, and says whether the column has taken it;
an empty text clears the column. -/
def typeText (style : Style) (line column : Nat) (text : String) (block : RawBlock) :
    Except OutOfRange (RawBlock × Bool) :=
  match block.slot? line column, block.content? line column with
  | some (.child kind), some content =>
    if kind.isInput && content.block?.isNone then do
      let block ← (block.setContent line column (.ofText text)).measured style
      return (block, true)
    else return (block, false)
  | _, _ => return (block, false)

/-- Puts a block into a free column of a kind that takes it, or hands it back. -/
def placeChild (style : Style) (block : RawBlock) (line column : Nat) (child : RawBlock) :
    Except OutOfRange (RawBlock × Option RawBlock) :=
  match block.slot? line column, block.content? line column with
  | some (.child kind), some content =>
    if child.format.fitsColumn kind && content.isEmpty then do
      let block ← (block.setContent line column (.block child)).measured style
      return (block, none)
    else return (block, some child)
  | _, _ => return (block, some child)

/-- Puts a block into a stack, at a place or at the end if the stack is shorter; hands it back if
the line is no stack. -/
def insertChild (style : Style) (block : RawBlock) (line index : Nat) (child : RawBlock) :
    Except OutOfRange (RawBlock × Option RawBlock) :=
  match block.lines[line]? with
  | some (.stack children) => do
    let children ← insertItem children (min index children.length) child
    let block ← (block.setLine line (.stack children)).measured style
    return (block, none)
  | _ => return (block, some child)

/-- Puts a block at the end of a stack; hands it back if the line is no stack. -/
def pushChild (style : Style) (block : RawBlock) (line : Nat) (child : RawBlock) :
    Except OutOfRange (RawBlock × Option RawBlock) :=
  match block.lines[line]? with
  | some (.stack children) => block.insertChild style line children.length child
  | _ => return (block, some child)

/-- Takes out the block that is one step away. What a column holds is taken out first and put back
if it is no block. -/
def takeChild (style : Style) (step : Step) (block : RawBlock) :
    Except OutOfRange (RawBlock × Option RawBlock) :=
  match block.lines[step.line]? with
  | none => return (block, none)
  | some (.stack children) =>
    if children.length ≤ step.position then return (block, none)
    else do
      let (child, children) ← takeItem children step.position
      let block ← (block.setLine step.line (.stack children)).measured style
      return (block, some child)
  | some (.columns contents) =>
    match contents[step.position]? with
    | none => return (block, none)
    | some content =>
      let left := block.setContent step.line step.position .empty
      match content with
      | .block child => do return (← left.measured style, some child)
      | other => return (left.setContent step.line step.position other, none)

/-- Edits the block that is some steps away and measures it and the blocks around it. There is no
answer if no block is there. -/
def updateAt {Answer : Type} (style : Style)
    (edit : RawBlock → Except OutOfRange (RawBlock × Answer)) :
    List Step → RawBlock → Except OutOfRange (RawBlock × Option Answer)
  | [], block => do
    let (block, answer) ← edit block
    return (← block.measured style, some answer)
  | step :: rest, block =>
    match block.child? step with
    | none => return (block, none)
    | some child => do
      let (child, answer) ← updateAt style edit rest child
      let block := block.setChild step child
      match answer with
      | none => return (block, none)
      | some answer => return (← block.measured style, some answer)

/-- Takes out the block at the end of a path. -/
def detach (style : Style) (block : RawBlock) (path : BlockPath) :
    Except OutOfRange (RawBlock × Option RawBlock) :=
  match path.splitLast? with
  | none => return (block, none)
  | some (parent, last) => do
    let (block, taken) ← updateAt style (takeChild style last) parent.steps block
    return (block, taken.join)

end RawBlock

end BlockEditor
