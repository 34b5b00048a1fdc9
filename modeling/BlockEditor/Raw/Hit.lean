import BlockEditor.Block.Hit
import BlockEditor.Raw.Edit

/-!
# What lies under a point of a raw block

The search goes down as in a block whose sizes are beside its contents. The size of the line that it
is at is read from the list of line sizes at the position of the line, which has to be there;
whether a column is a label is asked of the format.
-/

namespace BlockEditor

open Checked

namespace RawBlock

mutual

/-- What lies under a point given relative to the upper left corner of a block. -/
def hit? (config : LayoutConfig) (x y : Float32) : RawBlock → Except OutOfRange (Option Hit)
  | ⟨format, lines, size, lineSizes, cellSizes⟩ =>
    if size.contains x y then hitLines config format lineSizes cellSizes x y 0 0 lines
    else return none
termination_by structural block => block

/-- What lies under a point of the lines from an index and an upper edge on. Below the last line
is the closing bar. -/
def hitLines (config : LayoutConfig) (format : BlockFormat) (lineSizes : List Size)
    (cellSizes : List (List Size)) (x y : Float32) (index : Nat) (top : Float32) :
    List (RawLine RawBlock) → Except OutOfRange (Option Hit)
  | [] => return if x ≤ config.endLineWidth then some .here else none
  | line :: rest => do
    let size ← item lineSizes index
    if y ≤ top + size.height then
      if size.width < x then return none
      else hitLine config format lineSizes cellSizes x (y - top) index line
    else hitLines config format lineSizes cellSizes x y (index + 1) (top + size.height) rest
termination_by structural lines => lines

/-- What lies under a point of a line. -/
def hitLine (config : LayoutConfig) (format : BlockFormat) (lineSizes : List Size)
    (cellSizes : List (List Size)) (x y : Float32) (index : Nat) :
    RawLine RawBlock → Except OutOfRange (Option Hit)
  | .columns contents => do
    let lineSize ← item lineSizes index
    if x < config.innerPaddingHorizontal then return some .here
    else
      hitContents config format cellSizes x y lineSize.height index 0
        config.innerPaddingHorizontal contents
  | .stack children =>
    let gutter := config.elementPaddingHorizontal + config.emptyLineWidth
    if x < gutter then return some .here
    else if x - gutter < 0 || y - config.elementPaddingVertical < 0 then return none
    else hitStack config (x - gutter) (y - config.elementPaddingVertical) index 0 0 children
termination_by structural line => line

/-- What lies under a point of the columns from a column and a left edge on. -/
def hitContents (config : LayoutConfig) (format : BlockFormat) (cellSizes : List (List Size))
    (x y lineHeight : Float32) (line column : Nat) (left : Float32) :
    List (Content RawBlock) → Except OutOfRange (Option Hit)
  | [] => return some .here
  | content :: rest =>
    let size := cellSize cellSizes line column
    let right := left + size.width
    if x ≤ right then
      match (format.slotsOfLine line)[column]? with
      | some (.label _) => return some .here
      | _ =>
        hitContent config size (x - left) y (lineHeight / 2 - size.height / 2) ⟨line, column⟩
          content
    else if x ≤ right + config.innerPaddingHorizontal then return some .here
    else
      hitContents config format cellSizes x y lineHeight line (column + 1)
        (right + config.innerPaddingHorizontal) rest
termination_by structural contents => contents

/-- What lies under a point of a column of a given size with a given upper edge. -/
def hitContent (config : LayoutConfig) (size : Size) (x y top : Float32) (step : Step) :
    Content RawBlock → Except OutOfRange (Option Hit)
  | .empty =>
    return if top ≤ y && y ≤ top + size.height then some (.field .root step.line step.position)
      else some .here
  | .literal _ =>
    return if top ≤ y && y ≤ top + size.height then some (.field .root step.line step.position)
      else some .here
  | .block child =>
    let innerX := x - config.elementPaddingHorizontal
    let innerY := y - top - config.elementPaddingVertical
    if child.size.contains innerX innerY then do
      let hit ← hit? config innerX innerY child
      return hit.map (·.within step)
    else return some .here
termination_by structural content => content

/-- What lies under a point of the blocks of a stack from a place and an upper edge on. The gaps
between blocks and the space to the right of a block hold nothing. -/
def hitStack (config : LayoutConfig) (x y : Float32) (line position : Nat) (top : Float32) :
    List RawBlock → Except OutOfRange (Option Hit)
  | [] => return none
  | child :: rest =>
    let bottom := top + child.size.height
    if y ≤ bottom then
      if child.size.width < x then return none
      else do
        let hit ← hit? config x (y - top) child
        return hit.map (·.within ⟨line, position⟩)
    else if y ≤ bottom + config.elementPaddingVertical then return none
    else
      hitStack config x y line (position + 1) (bottom + config.elementPaddingVertical) rest
termination_by structural children => children

end

/-- The type of the literals that a column takes, if it is an input. -/
def literalType? (block : RawBlock) (line column : Nat) : Option ValueType :=
  match block.slot? line column with
  | some (.child kind) => kind.literalType?
  | _ => none

/-- The text in a column: its literal, or the empty text. -/
def value? (block : RawBlock) (line column : Nat) : Option String :=
  (block.content? line column).map fun content => content.literal?.getD ""

/-- The type of the literals that the field under a point takes, if an input is there. -/
def literalTypeAt? (config : LayoutConfig) (block : RawBlock) (x y : Float32) :
    Except OutOfRange (Option ValueType) := do
  match ← block.hit? config x y with
  | some (.field path line column) =>
    return (block.get? path).bind fun owner => owner.literalType? line column
  | _ => return none

/-- The text in the field under a point, if a field is there. -/
def valueAt? (config : LayoutConfig) (block : RawBlock) (x y : Float32) :
    Except OutOfRange (Option String) := do
  match ← block.hit? config x y with
  | some (.field path line column) =>
    return (block.get? path).bind fun owner => owner.value? line column
  | _ => return none

/-- Puts a text into the field under a point, and says whether the field has taken it. -/
def setValueAt (style : Style) (block : RawBlock) (text : String) (x y : Float32) :
    Except OutOfRange (RawBlock × Bool) := do
  match ← block.hit? style.config x y with
  | some (.field path line column) =>
    let (block, taken) ← updateAt style (typeText style line column text) path.steps block
    return (block, taken.getD false)
  | _ => return (block, false)

/-- Takes out the nested block under a point, or the one whose field is there. -/
def removeAt (style : Style) (block : RawBlock) (x y : Float32) :
    Except OutOfRange (RawBlock × Option RawBlock) := do
  match ← block.hit? style.config x y with
  | some hit => block.detach style hit.path
  | none => return (block, none)

end RawBlock

end BlockEditor
