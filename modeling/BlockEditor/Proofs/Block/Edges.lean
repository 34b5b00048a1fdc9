import BlockEditor.Block.Basic

/-!
# Edges

Lines, the cells of a row and the blocks of a stack follow one another, each from where the one
before it ends, with a gap behind it or none. `nearEdge` is where the one at a position begins, and
`FirstReaching` says which of them a point belongs to: the first one that ends at the point or
behind it. Sums are rounded, so edges need not increase, and "first" is not "only".

Every step of a path shifts the point by such an edge and by paddings. `Block.locate?` follows a
path in this way and gives the block at its end together with the point in the frame of this block.
-/

namespace BlockEditor

namespace Length

open Float.Model

theorem compare_swap (first second : UnpackedFloat) :
    (first.compare second).map Ordering.swap = second.compare first := by
  have swap_parts : ∀ (exponent otherExponent : Int) (mantissa otherMantissa : Nat),
      ((compare exponent otherExponent).then (compare mantissa otherMantissa)).swap =
        (compare otherExponent exponent).then (compare otherMantissa mantissa) := by
    intro exponent otherExponent mantissa otherMantissa
    rw [Ordering.swap_then, Int.compare_swap, Nat.compare_swap]
  rcases first with ⟨_ | _⟩ | _ | ⟨_ | _⟩ | ⟨_ | _, mantissa, exponent, _⟩ <;>
    rcases second with ⟨_ | _⟩ | _ | ⟨_ | _⟩ | ⟨_ | _, otherMantissa, otherExponent, _⟩ <;>
    try rfl
  -- Only two numbers of the same sign are compared by their parts.
  · exact congrArg (fun order => some order.swap)
      (swap_parts exponent otherExponent mantissa otherMantissa)
  · exact congrArg some (swap_parts exponent otherExponent mantissa otherMantissa)

variable {first second : Float32}

/-- If a number is at most another one, the other one is not below it. -/
theorem not_lt_of_le (le : first ≤ second) : ¬second < first := by
  intro lt
  have le : first.toModel.unpack.le second.toModel.unpack = true := of_decide_eq_true le
  have lt : second.toModel.unpack.lt first.toModel.unpack = true := of_decide_eq_true lt
  rw [UnpackedFloat.le] at le
  rw [UnpackedFloat.lt, ← compare_swap] at lt
  rcases found : first.toModel.unpack.compare second.toModel.unpack with _ | order
  · simp [found] at le
  · cases order <;> simp [found] at le lt

theorem not_le_of_lt (lt : first < second) : ¬second ≤ first :=
  fun le => not_lt_of_le le lt

end Length

section Edges

variable {Thing : Type} (extent : Thing → Float32) (skip : Float32 → Float32) (start : Float32)
  {thing : Thing} {things : List Thing} {point : Float32} {position : Nat}

/-- Where the thing at a position begins, of things with the given extents that follow one another
from an edge on. `skip` goes over the gap behind each of them. -/
def nearEdge (things : List Thing) (position : Nat) : Float32 :=
  (things.take position).foldl (fun edge thing => skip (edge + extent thing)) start

@[simp]
theorem nearEdge_zero (things : List Thing) : nearEdge extent skip start things 0 = start := rfl

@[simp]
theorem nearEdge_cons_succ (thing : Thing) (things : List Thing) (position : Nat) :
    nearEdge extent skip start (thing :: things) (position + 1) =
      nearEdge extent skip (skip (start + extent thing)) things position := rfl

/-- The thing at a position is the first one that ends at a point or behind it. -/
structure FirstReaching (things : List Thing) (point : Float32) (position : Nat)
    (thing : Thing) : Prop where
  /-- The thing is there. -/
  here : things[position]? = some thing
  /-- It does not end before the point. -/
  reaches : point ≤ nearEdge extent skip start things position + extent thing
  /-- All things before it do. -/
  first : ∀ earlier before, earlier < position → things[earlier]? = some before →
    ¬point ≤ nearEdge extent skip start things earlier + extent before

variable {extent skip start}

theorem firstReaching_head (reaches : point ≤ start + extent thing) :
    FirstReaching extent skip start (thing :: things) point 0 thing where
  here := rfl
  reaches := reaches
  first earlier _ isEarlier := absurd isEarlier (Nat.not_lt_zero earlier)

/-- If the first thing ends before the point, the first one that reaches to it is searched among the
rest. -/
theorem firstReaching_cons {other : Thing} (ends : ¬point ≤ start + extent other)
    (firstReaching : FirstReaching extent skip (skip (start + extent other)) things point position
      thing) :
    FirstReaching extent skip start (other :: things) point (position + 1) thing where
  here := firstReaching.here
  reaches := firstReaching.reaches
  first earlier before isEarlier atEarlier := by
    cases earlier with
    | zero =>
        cases atEarlier
        exact ends
    | succ earlier =>
        exact firstReaching.first earlier before (Nat.lt_of_succ_lt_succ isEarlier) atEarlier

/-- A thing behind the first one is the first of the rest that reaches to the point. -/
theorem FirstReaching.tail {other : Thing}
    (firstReaching : FirstReaching extent skip start (other :: things) point (position + 1) thing) :
    FirstReaching extent skip (skip (start + extent other)) things point position thing where
  here := firstReaching.here
  reaches := firstReaching.reaches
  first earlier before isEarlier atEarlier :=
    firstReaching.first (earlier + 1) before (Nat.succ_lt_succ isEarlier) atEarlier

end Edges

/-- Nothing is between one line and the next. -/
abbrev noGap (edge : Float32) : Float32 := edge

/-- The height of a line. -/
def Line.height (line : Line Block) : Float32 := line.size.height

/-- The width of a cell. -/
def Cell.width (cell : Cell Block) : Float32 := cell.size.width

/-- The height of a block. -/
def Block.height (block : Block) : Float32 := block.size.height

/-- The line at an index is the first one that reaches down to a point. -/
abbrev LineUnder (lines : List (Line Block)) (y : Float32) (index : Nat)
    (line : Line Block) : Prop :=
  FirstReaching Line.height noGap 0 lines y index line

/-- The upper edge of the line at an index. -/
def lineTop (lines : List (Line Block)) (index : Nat) : Float32 :=
  nearEdge Line.height noGap 0 lines index

/-- The cell at a column is the first one that reaches as far right as a point of the row. -/
abbrev CellUnder (config : LayoutConfig) (cells : List (Cell Block)) (x : Float32) (column : Nat)
    (cell : Cell Block) : Prop :=
  FirstReaching Cell.width (· + config.innerPaddingHorizontal) config.innerPaddingHorizontal cells x
    column cell

/-- The left edge of the cell at a column. -/
def cellLeft (config : LayoutConfig) (cells : List (Cell Block)) (column : Nat) : Float32 :=
  nearEdge Cell.width (· + config.innerPaddingHorizontal) config.innerPaddingHorizontal cells column

/-- The upper edge of a cell, which is centred in its row. -/
def cellTop (row : Size) (cell : Cell Block) : Float32 := row.height / 2 - cell.size.height / 2

/-- The upper edge of the block at a place of a stack. -/
def stackTop (config : LayoutConfig) (children : List Block) (place : Nat) : Float32 :=
  nearEdge Block.height (· + config.elementPaddingVertical) 0 children place

/-- A block, and a point in its frame. -/
structure Located where
  /-- The block. -/
  block : Block
  /-- The distance from the left edge of the block. -/
  x : Float32
  /-- The distance from the upper edge of the block. -/
  y : Float32

/-- The point lies in the rectangle of the block. -/
def Located.IsInside (located : Located) : Prop :=
  located.block.size.contains located.x located.y = true

/-- A point of a stack in the frame of the block at a place. -/
def stackLocate? (config : LayoutConfig) (x y : Float32) (children : List Block) (place : Nat) :
    Option Located :=
  children[place]?.map fun child => ⟨child, x, y - stackTop config children place⟩

/-- A point of a line in the frame of the block at a position. -/
def Line.locate? (config : LayoutConfig) (x y : Float32) (line : Line Block) (position : Nat) :
    Option Located :=
  match line with
  | .columns cells size => do
    let cell ← cells[position]?
    let child ← cell.content.block?
    return ⟨child, x - cellLeft config cells position - config.elementPaddingHorizontal,
      y - cellTop size cell - config.elementPaddingVertical⟩
  | .stack children _ =>
    stackLocate? config (x - (config.elementPaddingHorizontal + config.emptyLineWidth))
      (y - config.elementPaddingVertical) children position

namespace Block

variable {config : LayoutConfig} {block : Block} {x y : Float32}

/-- A point of a block in the frame of the block that is one step away. -/
def locateChild? (config : LayoutConfig) (x y : Float32) (block : Block) (step : Step) :
    Option Located :=
  block.lines[step.line]?.bind fun line =>
    line.locate? config x (y - lineTop block.lines step.line) step.position

/-- A point of a block in the frame of the block at the end of some steps. -/
def locate? (config : LayoutConfig) (x y : Float32) (block : Block) : List Step → Option Located
  | [] => some ⟨block, x, y⟩
  | step :: rest =>
    (block.locateChild? config x y step).bind fun inner =>
      inner.block.locate? config inner.x inner.y rest

end Block

end BlockEditor
