import BlockEditor.Block.Drop
import BlockEditor.Raw.Edit

/-!
# Dropping a block on a raw block

A raw block that is offered another one gives back both: itself, with the dropped block in it or as
it was, and the dropped block if it has not taken it. The walk along a stack keeps the blocks that
it has passed, so that the position at which it inserts a block and reads a height is one of the
whole stack, and is checked.
-/

namespace BlockEditor

open Checked

/-- What has become of a dropped block. -/
inductive Placement where
  /-- It is handed back and belongs above the block that it was offered to. -/
  | above (dropped : RawBlock)
  /-- It is handed back and belongs below the block that it was offered to. -/
  | below (dropped : RawBlock)
  /-- It is inside the block that it was offered to. -/
  | inserted

namespace RawBlock

/-- What has become of a block that a stack has taken or handed back. -/
def placementOf : RawBlock × Option RawBlock → RawBlock × Placement
  | (block, none) => (block, .inserted)
  | (block, some dropped) => (block, .above dropped)

/-- Puts a dropped block at the end of the stack before a point, if there is one. -/
def appendToPrevious (style : Style) (previous : Option (Nat × Float32))
    (block dropped : RawBlock) : Except OutOfRange (RawBlock × Placement) :=
  match previous with
  | none => return (block, .above dropped)
  | some (line, _) => do return placementOf (← block.pushChild style line dropped)

/-- Looks for the stack on whose side of the midpoint a point lies, among some lines from a line and
an upper edge on. What is known of the stack before is its line and lower edge. -/
def betweenStacks (style : Style) (block dropped : RawBlock) (y : Float32) (line : Nat)
    (top : Float32) (previous : Option (Nat × Float32)) :
    Nat → Except OutOfRange (RawBlock × Placement)
  | 0 =>
    match midpointSide y ((previous.map Prod.snd).getD 0) block.size.height with
    | .previous => block.appendToPrevious style previous dropped
    | .next => return (block, .below dropped)
  | others + 1 => do
    let size ← item block.lineSizes line
    let content ← item block.lines line
    if content.isStack then
      if y ≤ top + size.height then
        match midpointSide y ((previous.map Prod.snd).getD 0) top with
        | .previous => block.appendToPrevious style previous dropped
        | .next => return placementOf (← block.insertChild style line 0 dropped)
      else
        betweenStacks style block dropped y (line + 1) (top + size.height)
          (some (line, top + size.height)) others
    else
      betweenStacks style block dropped y (line + 1) (top + size.height) previous others

mutual

/-- Offers a block to another one at a point relative to that block's upper left corner. -/
def probeInsert (style : Style) (dropped : RawBlock) (x y : Float32) :
    RawBlock → Except OutOfRange (RawBlock × Placement)
  | ⟨format, lines, size, lineSizes, cellSizes⟩ =>
    let block : RawBlock := ⟨format, lines, size, lineSizes, cellSizes⟩
    if y ≤ 0 then return (block, .above dropped)
    else if size.height ≤ y then return (block, .below dropped)
    else if x < 0 then
      if y < size.height / 2 then return (block, .above dropped)
      else return (block, .below dropped)
    else do
      let (lines, returned) ←
        insertIntoLines style format lineSizes cellSizes dropped x y 0 0 lines
      let block : RawBlock := ⟨format, lines, size, lineSizes, cellSizes⟩
      match returned with
      | none => return (← block.measured style, .inserted)
      | some dropped => betweenStacks style block dropped y 0 0 none lines.length
termination_by structural block => block

/-- Offers a block to the line under a point. Gives the lines, and the block if it is not taken. -/
def insertIntoLines (style : Style) (format : BlockFormat) (lineSizes : List Size)
    (cellSizes : List (List Size)) (dropped : RawBlock) (x y : Float32) (index : Nat)
    (top : Float32) :
    List (RawLine RawBlock) → Except OutOfRange (List (RawLine RawBlock) × Option RawBlock)
  | [] => return ([], some dropped)
  | line :: rest => do
    let size ← item lineSizes index
    if y ≤ top + size.height then
      let (line, returned) ←
        insertIntoLine style format lineSizes cellSizes dropped x (y - top) index line
      return (line :: rest, returned)
    else
      let (rest, returned) ←
        insertIntoLines style format lineSizes cellSizes dropped x y (index + 1)
          (top + size.height) rest
      return (line :: rest, returned)
termination_by structural lines => lines

/-- Offers a block to a line. -/
def insertIntoLine (style : Style) (format : BlockFormat) (lineSizes : List Size)
    (cellSizes : List (List Size)) (dropped : RawBlock) (x y : Float32) (index : Nat) :
    RawLine RawBlock → Except OutOfRange (RawLine RawBlock × Option RawBlock)
  | .columns contents => do
    let lineSize ← item lineSizes index
    let sizes := (List.range (format.columnCount index)).map (cellSize cellSizes index)
    if x < style.config.innerPaddingHorizontal then return (.columns contents, some dropped)
    else
      let (contents, returned) ← insertIntoContents style format sizes dropped x y lineSize.height
        index 0 style.config.innerPaddingHorizontal contents
      return (.columns contents, returned)
  | .stack children => do
    let _ ← item lineSizes index
    let children ← insertIntoStack style dropped
      (x - style.config.elementPaddingHorizontal - style.config.emptyLineWidth)
      (y - style.config.elementPaddingVertical) 0 0 [] children
    return (.stack children, none)
termination_by structural line => line

/-- Offers a block to the column under a point, from a column and a left edge on. -/
def insertIntoContents (style : Style) (format : BlockFormat) (sizes : List Size)
    (dropped : RawBlock) (x y lineHeight : Float32) (line column : Nat) (left : Float32) :
    List (Content RawBlock) → Except OutOfRange (List (Content RawBlock) × Option RawBlock)
  | [] => return ([], some dropped)
  | content :: rest => do
    let size := sizes[column]?.getD .zero
    let right := left + size.width
    if x ≤ right then
      match (format.slotsOfLine line)[column]? with
      | some (.child kind) =>
        let (content, returned) ← insertIntoContent style kind dropped (x - left)
          (y - (lineHeight / 2 - size.height / 2)) content
        return (content :: rest, returned)
      | _ => return (content :: rest, some dropped)
    else if x ≤ right + style.config.innerPaddingHorizontal then
      return (content :: rest, some dropped)
    else
      let (rest, returned) ← insertIntoContents style format sizes dropped x y lineHeight line
        (column + 1) (right + style.config.innerPaddingHorizontal) rest
      return (content :: rest, returned)
termination_by structural contents => contents

/-- Offers a block to a column of a kind. -/
def insertIntoContent (style : Style) (kind : ColumnKind) (dropped : RawBlock) (x y : Float32) :
    Content RawBlock → Except OutOfRange (Content RawBlock × Option RawBlock)
  | .literal text => return (.literal text, some dropped)
  | .empty =>
    if dropped.format.fitsColumn kind then return (.block dropped, none)
    else return (.empty, some dropped)
  | .block child => do
    let (child, placement) ← probeInsert style dropped (x - style.config.elementPaddingHorizontal)
      (y - style.config.elementPaddingVertical) child
    match placement with
    | .inserted => return (.block child, none)
    | .above dropped => return (.block child, some dropped)
    | .below dropped => return (.block child, some dropped)
termination_by structural content => content

/-- Offers a block to the blocks of a stack from a position and an upper edge on, after some that it
has passed. Before the first one that refuses it as lying above it goes, into the first one that
takes it, or to the end. -/
def insertIntoStack (style : Style) (dropped : RawBlock) (x y : Float32) (position : Nat)
    (top : Float32) (passed : List RawBlock) :
    List RawBlock → Except OutOfRange (List RawBlock)
  | [] => return passed ++ [dropped]
  | child :: rest => do
    let (child, placement) ← probeInsert style dropped x (y - top) child
    let children := passed ++ child :: rest
    match placement with
    | .above dropped => insertItem children position dropped
    | .inserted => return children
    | .below dropped =>
      let reached ← item children position
      insertIntoStack style dropped x y (position + 1)
        (top + (reached.size.height + style.config.elementPaddingVertical))
        (passed ++ [child]) rest
termination_by structural children => children

end

end RawBlock

end BlockEditor
