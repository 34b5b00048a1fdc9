import BlockEditor.Block.Edit

/-!
# What lies under a point

A point of a block lies on the body of a block (its labels, paddings, gutters and closing bar), on
a field (a column without a block), or on nothing. `Block.hit?` finds it by going down: the line
under the point, then the cell or the block of a stack under it, then into that block. The other
point queries, `Block.literalTypeAt?` and `Block.valueAt?`, and the edits `Block.setValueAt` and
`Block.removeAt` all go by its answer.
-/

namespace BlockEditor

/-- What lies under a point. Paths lead from where the search began. -/
inductive Hit where
  /-- The body of a block. -/
  | body (path : BlockPath)
  /-- A column without a block. -/
  | field (path : BlockPath) (line column : Nat)
deriving DecidableEq, Repr

namespace Hit

/-- The path to the block that was hit, or whose field was hit. -/
def path : Hit → BlockPath
  | .body path => path
  | .field path _ _ => path

/-- The hit as seen from one step further out. -/
def within (hit : Hit) (step : Step) : Hit :=
  match hit with
  | .body path => .body (path.within step)
  | .field path line column => .field (path.within step) line column

/-- A hit on the body of the block in which the search began. -/
def here : Hit := .body .root

end Hit

namespace Block

mutual

/-- What lies under a point given relative to the upper left corner of a block. -/
def hit? (config : LayoutConfig) (x y : Float32) : Block → Option Hit
  | ⟨_, lines, size⟩ => if size.contains x y then hitLines config x y 0 0 lines else none
termination_by structural block => block

/-- What lies under a point of the lines from an index and an upper edge on. Below the last line
is the closing bar. -/
def hitLines (config : LayoutConfig) (x y : Float32) (index : Nat) (top : Float32) :
    List (Line Block) → Option Hit
  | [] => if x ≤ config.endLineWidth then some .here else none
  | line :: rest =>
    if y ≤ top + line.size.height then
      if line.size.width < x then none else hitLine config x (y - top) index line
    else hitLines config x y (index + 1) (top + line.size.height) rest
termination_by structural lines => lines

/-- What lies under a point of a line. -/
def hitLine (config : LayoutConfig) (x y : Float32) (index : Nat) : Line Block → Option Hit
  | .columns cells size =>
    if x < config.innerPaddingHorizontal then some .here
    else hitCells config x y size.height index 0 config.innerPaddingHorizontal cells
  | .stack children _ =>
    let gutter := config.elementPaddingHorizontal + config.emptyLineWidth
    if x < gutter then some .here
    else if x - gutter < 0 || y - config.elementPaddingVertical < 0 then none
    else hitStack config (x - gutter) (y - config.elementPaddingVertical) index 0 0 children
termination_by structural line => line

/-- What lies under a point of the cells from a column and a left edge on. -/
def hitCells (config : LayoutConfig) (x y lineHeight : Float32) (line column : Nat)
    (left : Float32) : List (Cell Block) → Option Hit
  | [] => some .here
  | cell :: rest =>
    let right := left + cell.size.width
    if x ≤ right then
      hitCell config (x - left) y (lineHeight / 2 - cell.size.height / 2) ⟨line, column⟩ cell
    else if x ≤ right + config.innerPaddingHorizontal then some .here
    else
      hitCells config x y lineHeight line (column + 1) (right + config.innerPaddingHorizontal) rest
termination_by structural cells => cells

/-- What lies under a point of a cell with a given upper edge. -/
def hitCell (config : LayoutConfig) (x y top : Float32) (step : Step) : Cell Block → Option Hit
  | .label _ _ => some .here
  | .column _ .empty size =>
    if top ≤ y && y ≤ top + size.height then some (.field .root step.line step.position)
    else some .here
  | .column _ (.literal _) size =>
    if top ≤ y && y ≤ top + size.height then some (.field .root step.line step.position)
    else some .here
  | .column _ (.block child) _ =>
    let innerX := x - config.elementPaddingHorizontal
    let innerY := y - top - config.elementPaddingVertical
    if child.size.contains innerX innerY then
      (hit? config innerX innerY child).map (·.within step)
    else some .here
termination_by structural cell => cell

/-- What lies under a point of the blocks of a stack from a place and an upper edge on. The gaps
between blocks and the space to the right of a block hold nothing. -/
def hitStack (config : LayoutConfig) (x y : Float32) (line position : Nat) (top : Float32) :
    List Block → Option Hit
  | [] => none
  | child :: rest =>
    let bottom := top + child.size.height
    if y ≤ bottom then
      if child.size.width < x then none
      else (hit? config x (y - top) child).map (·.within ⟨line, position⟩)
    else if y ≤ bottom + config.elementPaddingVertical then none
    else
      hitStack config x y line (position + 1) (bottom + config.elementPaddingVertical) rest
termination_by structural children => children

end

/-- The type of the literals that a column takes, if it is an input. -/
def literalType? (block : Block) (line column : Nat) : Option ValueType :=
  match block.cell? line column with
  | some (.column kind _ _) => kind.literalType?
  | _ => none

/-- The text in a column: its literal, or the empty text. -/
def value? (block : Block) (line column : Nat) : Option String :=
  (block.cell? line column).map fun cell => cell.content.literal?.getD ""

/-- The type of the literals that the field under a point takes, if an input is there. -/
def literalTypeAt? (config : LayoutConfig) (block : Block) (x y : Float32) : Option ValueType :=
  match block.hit? config x y with
  | some (.field path line column) =>
    (block.get? path).bind fun owner => owner.literalType? line column
  | _ => none

/-- The text in the field under a point, if a field is there. -/
def valueAt? (config : LayoutConfig) (block : Block) (x y : Float32) : Option String :=
  match block.hit? config x y with
  | some (.field path line column) =>
    (block.get? path).bind fun owner => owner.value? line column
  | _ => none

/-- Puts a text into the field under a point, and says whether the field has taken it. -/
def setValueAt (style : Style) (block : Block) (text : String) (x y : Float32) : Block × Bool :=
  match block.hit? style.config x y with
  | some (.field path line column) =>
    (updateAt style (typeText style line column text) path.steps block).getD (block, false)
  | _ => (block, false)

/-- Takes out the nested block under a point, or the one whose field is there. -/
def removeAt (style : Style) (block : Block) (x y : Float32) : Block × Option Block :=
  match block.hit? style.config x y with
  | some hit => block.detach style hit.path
  | none => (block, none)

end Block

end BlockEditor
