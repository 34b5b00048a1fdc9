import BlockEditor.Block.Edit
import BlockEditor.Proofs.Block.Layout

/-!
# Changes of one block

Every edit of a block comes down to one of three changes followed by a measurement: another content
in a column, another list of blocks in a stack, or another block in place of one directly inside.
This file says which blocks are directly inside after each of them. An `Invariant` is a property of
single blocks that these changes keep; what is everywhere in a block is then still everywhere after
a change, provided that it is everywhere in what the change brings in.
-/

namespace BlockEditor

variable {Child : Type} {style : Style}

theorem modify_eq_set {Item : Type} {items : List Item} {index : Nat} {item : Item}
    (found : items[index]? = some item) (change : Item → Item) :
    items.modify index change = items.set index (change item) := by
  rcases List.getElem?_eq_some_iff.mp found with ⟨inRange, rfl⟩
  apply List.ext_getElem?
  intro other
  by_cases same : index = other
  · subst other
    simp [inRange]
  · simp [same]

theorem set_eq_self {Item : Type} {items : List Item} {index : Nat} {item : Item}
    (found : items[index]? = some item) : items.set index item = items := by
  rcases List.getElem?_eq_some_iff.mp found with ⟨inRange, rfl⟩
  exact List.set_getElem_self inRange

theorem map_set_eq_map {Item Image : Type} {items : List Item} {index : Nat} {old new : Item}
    (found : items[index]? = some old) {view : Item → Image} (same : view new = view old) :
    (items.set index new).map view = items.map view := by
  rw [List.map_set, same]
  exact set_eq_self (by rw [List.getElem?_map, found, Option.map_some])

theorem Cell.content_withContent {cell : Cell Child} {old : Child}
    (holds : cell.content.block? = some old) (content : Content Child) :
    (cell.withContent content).content = content := by
  cases cell with
  | label text size => cases holds
  | column kind content size => rfl

/-- A child that is set is found at its position, and every other position keeps what it had. -/
theorem Line.child?_setChild {line : Line Child} {position : Nat} {old : Child}
    (found : line.child? position = some old) (new : Child) (other : Nat) :
    (line.setChild position new).child? other =
      if other = position then some new else line.child? other := by
  cases line with
  | columns cells size =>
      rcases Option.bind_eq_some_iff.mp found with ⟨cell, atCell, holds⟩
      by_cases same : other = position
      · subst other
        simp [setChild, atCell, Cell.content_withContent holds]
      · simp [setChild, same, Ne.symm same]
  | stack children size =>
      rcases List.getElem?_eq_some_iff.mp found with ⟨inRange, _⟩
      by_cases same : other = position
      · subst other
        simp [setChild, inRange]
      · simp [setChild, same, Ne.symm same]

/-- What a column of a kind may hold: a text that is not empty if the kind is an input, and a block
whose types fit the kind. -/
def Content.Admitted (kind : ColumnKind) : Content Block → Prop
  | .empty => True
  | .literal text => kind.isInput = true ∧ text ≠ ""
  | .block child => child.format.fitsColumn kind = true

/-- An input column takes every text. -/
theorem Content.admitted_ofText {kind : ColumnKind} (isInput : kind.isInput = true)
    (text : String) : (Content.ofText text).Admitted kind := by
  rw [ofText]
  split
  · trivial
  · rename_i notEmpty
    exact ⟨isInput, by simpa using notEmpty⟩

namespace Block

variable {block : Block} {line column : Nat} {kind : ColumnKind} {old : Content Block} {size : Size}

theorem cell?_eq_some {cell : Cell Block} (atCell : block.cell? line column = some cell) :
    ∃ cells size, block.lines[line]? = some (.columns cells size) ∧ cells[column]? = some cell := by
  rcases Option.bind_eq_some_iff.mp atCell with ⟨_ | _, atLine, found⟩
  · exact ⟨_, _, atLine, found⟩
  · cases found

theorem child?_of_cell? {cell : Cell Block} (atCell : block.cell? line column = some cell) :
    block.child? ⟨line, column⟩ = cell.content.block? := by
  rcases cell?_eq_some atCell with ⟨cells, lineSize, atLine, found⟩
  simp [child?, atLine, found]

@[simp]
theorem format_setLine (block : Block) (index : Nat) (line : Line Block) :
    (block.setLine index line).format = block.format := rfl

/-- Replacing a line changes which children are on this line, and on no other one. -/
theorem child?_setLine (block : Block) (index : Nat) (line : Line Block) (step : Step)
    (inRange : index < block.lines.length) :
    (block.setLine index line).child? step =
      if step.line = index then line.child? step.position else block.child? step := by
  by_cases same : step.line = index
  · simp [child?, setLine, same, inRange]
  · simp [child?, setLine, same, Ne.symm same]

theorem setContent_eq_setLine {cells : List (Cell Block)}
    (atLine : block.lines[line]? = some (.columns cells size)) (column : Nat)
    (content : Content Block) :
    block.setContent line column content =
      block.setLine line (.columns (cells.modify column (·.withContent content)) size) := by
  simp [setContent, atLine]

@[simp]
theorem format_setContent (block : Block) (line column : Nat) (content : Content Block) :
    (block.setContent line column content).format = block.format := by
  rw [setContent]
  split <;> rfl

/-- After a cell is filled, the block in the new content is a step away, and at all other steps
there is what was there. -/
theorem child?_setContent (atCell : block.cell? line column = some (.column kind old size))
    (content : Content Block) (step : Step) :
    (block.setContent line column content).child? step =
      if step = ⟨line, column⟩ then content.block? else block.child? step := by
  rcases cell?_eq_some atCell with ⟨cells, lineSize, atLine, found⟩
  rcases List.getElem?_eq_some_iff.mp atLine with ⟨inRange, _⟩
  rcases step with ⟨stepLine, position⟩
  rw [setContent_eq_setLine atLine, child?_setLine block line _ _ inRange]
  by_cases sameLine : stepLine = line
  · subst stepLine
    by_cases sameColumn : position = column
    · subst position
      simp [found, Cell.withContent, Cell.content]
    · simp [child?, atLine, sameColumn, Ne.symm sameColumn]
  · simp [sameLine]

theorem setChild_eq_setLine {step : Step} {inLine : Line Block}
    (atLine : block.lines[step.line]? = some inLine) (new : Block) :
    block.setChild step new =
      block.setLine step.line (inLine.setChild step.position new) := by
  rw [setChild, setLine, modify_eq_set atLine]

@[simp]
theorem format_setChild (block : Block) (step : Step) (new : Block) :
    (block.setChild step new).format = block.format := rfl

/-- A child that is set is found at its step, and every other step leads where it led. -/
theorem child?_setChild {step : Step} {child : Block} (found : block.child? step = some child)
    (new : Block) (other : Step) :
    (block.setChild step new).child? other =
      if other = step then some new else block.child? other := by
  rcases Option.bind_eq_some_iff.mp found with ⟨inLine, atLine, inPosition⟩
  rcases List.getElem?_eq_some_iff.mp atLine with ⟨inRange, _⟩
  rcases step with ⟨line, position⟩
  rcases other with ⟨otherLine, other⟩
  rw [setChild_eq_setLine atLine, child?_setLine block line _ _ inRange]
  by_cases same : otherLine = line
  · subst otherLine
    simp [Line.child?_setChild inPosition, child?, atLine]
  · simp [same]

/-- A property of single blocks, given the style of the layout, that every change of a block keeps.
It may speak of the formats of the blocks directly inside, but not of what they hold. -/
structure Invariant (Holds : Style → Block → Prop) : Prop where
  /-- It holds of a block that has just been made. -/
  fresh : ∀ style format, Holds style (Block.fresh style format)
  /-- A measurement keeps it. -/
  measured : ∀ {style block}, Holds style block → Holds style (block.measured style)
  /-- Putting into a column what its kind admits keeps it. -/
  fill : ∀ {style block line column kind old size content}, Holds style block →
    block.cell? line column = some (.column kind old size) → content.Admitted kind →
    Holds style ((block.setContent line column content).measured style)
  /-- Another list of blocks in a stack keeps it. -/
  restack : ∀ {style block line children size} others, Holds style block →
    block.lines[line]? = some (.stack children size) →
    Holds style ((block.setLine line (.stack others size)).measured style)
  /-- Another block of the same format in place of one directly inside keeps it. -/
  replace : ∀ {style block step old new}, Holds style block → block.child? step = some old →
    new.format = old.format → Holds style ((block.setChild step new).measured style)
  /-- A layout in another style establishes it for that style. -/
  relay : ∀ {style block} other change, Holds style block →
    (∀ child : Block, (change child).format = child.format) →
    Holds other ((block.mapChildren change).measured other)

variable {Holds : Style → Block → Prop} (invariant : Invariant Holds)

include invariant

theorem Invariant.everywhere_fresh (style : Style) (format : BlockFormat) :
    (Block.fresh style format).Everywhere (Holds style) := by
  rw [everywhere_iff]
  refine ⟨invariant.fresh style format, ?_⟩
  intro step child found
  rw [Block.fresh, child?_measured] at found
  rcases Option.bind_eq_some_iff.mp found with ⟨line, atLine, found⟩
  simp only [blank, List.getElem?_map, Option.map_eq_some_iff] at atLine
  rcases atLine with ⟨slots | _, _, rfl⟩
  · rcases Option.bind_eq_some_iff.mp found with ⟨cell, atCell, found⟩
    simp only [List.getElem?_map, Option.map_eq_some_iff] at atCell
    rcases atCell with ⟨_ | _, _, rfl⟩ <;> cases found
  · simp [Line.ofFormatLine] at found

theorem Invariant.everywhere_measured (everywhere : block.Everywhere (Holds style)) :
    (block.measured style).Everywhere (Holds style) := by
  rw [everywhere_measured_iff]
  exact ⟨invariant.measured everywhere.here, fun _ _ => everywhere.child⟩

/-- Filling a column with admitted content keeps an invariant that holds in the content. -/
theorem Invariant.everywhere_fill (everywhere : block.Everywhere (Holds style))
    (atCell : block.cell? line column = some (.column kind old size)) {content : Content Block}
    (admitted : content.Admitted kind)
    (brought : ∀ child, content.block? = some child → child.Everywhere (Holds style)) :
    ((block.setContent line column content).measured style).Everywhere (Holds style) := by
  rw [everywhere_measured_iff]
  refine ⟨invariant.fill everywhere.here atCell admitted, ?_⟩
  intro step child found
  rw [child?_setContent atCell] at found
  split at found
  · exact brought child found
  · exact everywhere.child found

/-- Putting other blocks on a stack keeps an invariant that holds in those that are new there. -/
theorem Invariant.everywhere_restack (everywhere : block.Everywhere (Holds style))
    {children others : List Block} (atLine : block.lines[line]? = some (.stack children size))
    (each : ∀ child ∈ others, child ∉ children → child.Everywhere (Holds style)) :
    ((block.setLine line (.stack others size)).measured style).Everywhere (Holds style) := by
  rcases List.getElem?_eq_some_iff.mp atLine with ⟨inRange, _⟩
  rw [everywhere_measured_iff]
  refine ⟨invariant.restack others everywhere.here atLine, ?_⟩
  intro step child found
  rw [child?_setLine _ _ _ _ inRange] at found
  split at found
  · by_cases old : child ∈ children
    · rcases List.getElem?_of_mem old with ⟨position, before⟩
      exact (everywhere_iff.mp everywhere).2 ⟨line, position⟩ child
        (by simp [child?, atLine, before])
    · exact each child (List.mem_of_getElem? found) old
  · exact everywhere.child found

/-- Replacing a child by one with the same format keeps an invariant that holds in the new one. -/
theorem Invariant.everywhere_setChild (everywhere : block.Everywhere (Holds style)) {step : Step}
    {child new : Block} (found : block.child? step = some child)
    (sameFormat : new.format = child.format) (newEverywhere : new.Everywhere (Holds style)) :
    ((block.setChild step new).measured style).Everywhere (Holds style) := by
  rw [everywhere_measured_iff]
  refine ⟨invariant.replace everywhere.here found sameFormat, ?_⟩
  intro other inner reached
  rw [child?_setChild found] at reached
  split at reached
  · cases reached
    exact newEverywhere
  · exact everywhere.child reached

/-- A layout keeps an invariant, in any style. -/
theorem Invariant.everywhere_relaid (other : Style) (everywhere : block.Everywhere (Holds style)) :
    (block.relaid other).Everywhere (Holds other) := by
  induction block using Block.induction with
  | inside block ih =>
      rw [relaid_eq, everywhere_measured_iff]
      refine ⟨invariant.relay other _ everywhere.here (format_relaid other), ?_⟩
      intro step child found
      rw [child?_mapChildren, Option.map_eq_some_iff] at found
      rcases found with ⟨old, atStep, rfl⟩
      exact ih step old atStep (everywhere.child atStep)

end Block

end BlockEditor
