import BlockEditor.Block.Edit

/-!
# Dropping a block

A block that is dropped at a point is offered to the block under the point. Above its upper edge
or below its lower edge it is refused, and the stack around it places the dropped block. Inside,
the line under the point comes first: a stack always takes the dropped block, a free column takes
it when the types fit, and a nested block is offered it in turn. When the line refuses, the stack
on whose side of the midpoint the point lies takes it, or the block refuses after all.
-/

namespace BlockEditor

/-- The answer of a block that is offered another one. A block that refuses is as it was, and so is
the dropped one: the operation that may fail on a position hands both of them back
(`RawBlock.probeInsert`). -/
inductive Offer where
  /-- Refused: the dropped block belongs above this one. -/
  | above
  /-- Refused: the dropped block belongs below this one. -/
  | below
  /-- Taken: the block with the dropped one in it. -/
  | taken (block : Block)

/-- A stack line of a block, with its edges. -/
structure StackSpan where
  /-- The position of the line. -/
  line : Nat
  /-- The upper edge. -/
  top : Float32
  /-- The lower edge. -/
  bottom : Float32
deriving DecidableEq

/-- Where a block goes that no line has taken. -/
inductive StackChoice where
  /-- Above the whole block. -/
  | above
  /-- Below the whole block. -/
  | below
  /-- To the beginning of the stack on a line. -/
  | first (line : Nat)
  /-- To the end of the stack on a line. -/
  | last (line : Nat)
deriving DecidableEq, Repr

/-- The stack lines among lines from an index and an upper edge on. -/
def stackSpans (index : Nat) (top : Float32) : List (Line Block) → List StackSpan
  | [] => []
  | line :: rest =>
    let bottom := top + line.size.height
    let others := stackSpans (index + 1) bottom rest
    if line.isStack then ⟨index, top, bottom⟩ :: others else others

/-- Chooses between the stack before a point and the one at or after it, or the lower edge of the
block if there is none. Without a stack before the point, its upper edge stands for the end of
one. -/
def chooseStack (y height : Float32) (previous : Option StackSpan) :
    List StackSpan → StackChoice
  | [] =>
    match midpointSide y ((previous.map StackSpan.bottom).getD 0) height with
    | .previous => (previous.map fun span => StackChoice.last span.line).getD .above
    | .next => .below
  | span :: rest =>
    if y ≤ span.bottom then
      match midpointSide y ((previous.map StackSpan.bottom).getD 0) span.top with
      | .previous => (previous.map fun span => StackChoice.last span.line).getD .above
      | .next => .first span.line
    else chooseStack y height (some span) rest

namespace Block

/-- The answer of a block to one that it has taken or handed back. -/
def answerOf : Block × Option Block → Offer
  | (after, none) => .taken after
  | (_, some _) => .above

/-- Gives a dropped block to the stack that is nearest by midpoints. -/
def offerStacks (style : Style) (dropped : Block) (y : Float32) (block : Block) : Offer :=
  match chooseStack y block.size.height none (stackSpans 0 0 block.lines) with
  | .above => .above
  | .below => .below
  | .first line => answerOf (block.insertChild style line 0 dropped)
  | .last line => answerOf (block.pushChild style line dropped)

mutual

/-- Offers a block to another one at a point relative to that block's upper left corner. -/
def offer (style : Style) (dropped : Block) (x y : Float32) : Block → Offer
  | ⟨format, lines, size⟩ =>
    if y ≤ 0 then .above
    else if size.height ≤ y then .below
    else if x < 0 then (if y < size.height / 2 then .above else .below)
    else
      match offerLines style dropped x y 0 lines with
      | some lines => .taken ((⟨format, lines, size⟩ : Block).measured style)
      | none => offerStacks style dropped y ⟨format, lines, size⟩
termination_by structural block => block

/-- Offers a block to the line under a point; gives the lines if it takes the block. -/
def offerLines (style : Style) (dropped : Block) (x y top : Float32) :
    List (Line Block) → Option (List (Line Block))
  | [] => none
  | line :: rest =>
    if y ≤ top + line.size.height then
      (offerLine style dropped x (y - top) line).map (· :: rest)
    else (offerLines style dropped x y (top + line.size.height) rest).map (line :: ·)
termination_by structural lines => lines

/-- Offers a block to a line. -/
def offerLine (style : Style) (dropped : Block) (x y : Float32) :
    Line Block → Option (Line Block)
  | .columns cells size =>
    if x < style.config.innerPaddingHorizontal then none
    else
      (offerCells style dropped x y size.height style.config.innerPaddingHorizontal cells).map
        fun cells => .columns cells size
  | .stack children size =>
    some (.stack
      (offerStack style dropped
        (x - style.config.elementPaddingHorizontal - style.config.emptyLineWidth)
        (y - style.config.elementPaddingVertical) 0 children)
      size)
termination_by structural line => line

/-- Offers a block to the cell under a point. -/
def offerCells (style : Style) (dropped : Block) (x y lineHeight left : Float32) :
    List (Cell Block) → Option (List (Cell Block))
  | [] => none
  | cell :: rest =>
    let right := left + cell.size.width
    if x ≤ right then
      (offerCell style dropped (x - left) (y - (lineHeight / 2 - cell.size.height / 2)) cell).map
        (· :: rest)
    else if x ≤ right + style.config.innerPaddingHorizontal then none
    else
      (offerCells style dropped x y lineHeight (right + style.config.innerPaddingHorizontal)
        rest).map (cell :: ·)
termination_by structural cells => cells

/-- Offers a block to a cell. -/
def offerCell (style : Style) (dropped : Block) (x y : Float32) :
    Cell Block → Option (Cell Block)
  | .label _ _ => none
  | .column kind .empty size =>
    if dropped.format.fitsColumn kind then some (.column kind (.block dropped) size) else none
  | .column _ (.literal _) _ => none
  | .column kind (.block child) size =>
    match offer style dropped (x - style.config.elementPaddingHorizontal)
        (y - style.config.elementPaddingVertical) child with
    | .taken changed => some (.column kind (.block changed) size)
    | .above => none
    | .below => none
termination_by structural cell => cell

/-- Puts a block into a stack: before the first block that refuses it as lying above, into the
first block that takes it, or at the end. -/
def offerStack (style : Style) (dropped : Block) (x y top : Float32) : List Block → List Block
  | [] => [dropped]
  | child :: rest =>
    match offer style dropped x (y - top) child with
    | .above => dropped :: child :: rest
    | .taken changed => changed :: rest
    | .below =>
      child ::
        offerStack style dropped x y
          (top + (child.size.height + style.config.elementPaddingVertical)) rest
termination_by structural children => children

end

end Block

end BlockEditor
