import BlockEditor.Block.Basic

/-!
# Nested blocks

Blocks are trees whose nodes are reached by steps. This file gives the theory of that tree on
which all statements about whole blocks rest: `Block.mapChildren` changes the blocks directly inside
a block, `Block.induction` is the induction from the blocks directly inside, and `Block.Everywhere`
says of a property that it holds of a block and of every block nested in it. A property of this
kind only has to be shown of one block at a time, by `Block.everywhere_iff`.
-/

namespace BlockEditor

variable {Child Image : Type}

/-- The content with another block in place of the one that it is. -/
def Content.map (change : Child → Image) : Content Child → Content Image
  | .empty => .empty
  | .literal text => .literal text
  | .block child => .block (change child)

/-- The cell with another block in place of the one that it holds. -/
def Cell.map (change : Child → Image) : Cell Child → Cell Image
  | .label text size => .label text size
  | .column kind content size => .column kind (content.map change) size

/-- The line with another block in place of each one directly on it. -/
def Line.map (change : Child → Image) : Line Child → Line Image
  | .columns cells size => .columns (cells.map (Cell.map change)) size
  | .stack children size => .stack (children.map change) size

/-- The block with another block in place of each one directly inside it. -/
def Block.mapChildren (change : Block → Block) (block : Block) : Block :=
  { block with lines := block.lines.map (Line.map change) }

namespace Cell

@[simp]
theorem content_map (change : Child → Image) (cell : Cell Child) :
    (cell.map change).content = cell.content.map change := by
  cases cell <;> rfl

@[simp]
theorem slot_map (change : Child → Image) (cell : Cell Child) :
    (cell.map change).slot = cell.slot := by
  cases cell <;> rfl

/-- Changing the block in a cell in a way that leaves it as it is changes nothing. -/
theorem map_eq_self {change : Child → Child} {cell : Cell Child}
    (fixes : ∀ child, cell.content = .block child → change child = child) :
    cell.map change = cell := by
  rcases cell with _ | ⟨kind, content, size⟩
  · rfl
  · cases content with
    | empty => rfl
    | literal text => rfl
    | block child => simp only [map, Content.map, fixes child rfl]

end Cell

namespace Content

@[simp]
theorem block?_empty : (empty : Content Child).block? = none := rfl

@[simp]
theorem block?_literal (text : String) : (literal text : Content Child).block? = none := rfl

@[simp]
theorem block?_block (child : Child) : (block child).block? = some child := rfl

@[simp]
theorem block?_map (change : Child → Image) (content : Content Child) :
    (content.map change).block? = content.block?.map change := by
  cases content <;> rfl

@[simp]
theorem block?_ofText (text : String) : (ofText text : Content Child).block? = none := by
  rw [ofText]
  split <;> rfl

theorem block?_eq_some_iff {content : Content Child} {child : Child} :
    content.block? = some child ↔ content = .block child := by
  cases content <;> simp [block?]

end Content

namespace Line

@[simp]
theorem child?_columns (cells : List (Cell Child)) (size : Size) (position : Nat) :
    (columns cells size).child? position =
      cells[position]?.bind fun cell => cell.content.block? := rfl

@[simp]
theorem child?_stack (children : List Child) (size : Size) (position : Nat) :
    (stack children size).child? position = children[position]? := rfl

@[simp]
theorem shape_map (change : Child → Image) (line : Line Child) :
    (line.map change).shape = line.shape := by
  cases line <;> simp [map, shape, Function.comp_def]

@[simp]
theorem child?_map (change : Child → Image) (line : Line Child) (position : Nat) :
    (line.map change).child? position = (line.child? position).map change := by
  cases line with
  | columns cells size =>
      cases found : cells[position]? <;> simp [map, found]
  | stack children size => simp [map]

theorem map_eq_self {change : Child → Child} {line : Line Child}
    (fixes : ∀ position child, line.child? position = some child → change child = child) :
    line.map change = line := by
  cases line with
  | columns cells size =>
      have unchanged : ∀ cell ∈ cells, cell.map change = cell := by
        intro cell cellMem
        rcases List.getElem?_of_mem cellMem with ⟨position, found⟩
        apply Cell.map_eq_self
        intro child holds
        exact fixes position child (by simp [found, holds])
      simp only [map, List.map_congr_left unchanged, List.map_id']
  | stack children size =>
      have unchanged : ∀ child ∈ children, change child = child := by
        intro child childMem
        rcases List.getElem?_of_mem childMem with ⟨position, found⟩
        exact fixes position child found
      simp only [map, List.map_congr_left unchanged, List.map_id']

end Line

namespace Block

/-- The cells of a block with the lines of its format fill the slots of the format. -/
theorem map_slot_cell? {block : Block} (shaped : block.shape = block.format.lines)
    (line column : Nat) :
    (block.cell? line column).map Cell.slot = (block.format.slotsOfLine line)[column]? := by
  have sameLine : block.format.lines[line]? = block.lines[line]?.map Line.shape := by
    rw [← shaped, Block.shape, List.getElem?_map]
  rw [BlockFormat.slotsOfLine, sameLine, cell?]
  rcases block.lines[line]? with _ | ⟨cells, size⟩ | ⟨children, size⟩ <;>
    simp [Line.cell?, Line.shape, FormatLine.slots]

@[simp]
theorem format_mapChildren (change : Block → Block) (block : Block) :
    (block.mapChildren change).format = block.format := rfl

@[simp]
theorem shape_mapChildren (change : Block → Block) (block : Block) :
    (block.mapChildren change).shape = block.shape := by
  simp [shape, mapChildren, Function.comp_def]

@[simp]
theorem child?_mapChildren (change : Block → Block) (block : Block) (step : Step) :
    (block.mapChildren change).child? step = (block.child? step).map change := by
  cases found : block.lines[step.line]? <;> simp [child?, mapChildren, found]

/-- Changing children in a way that leaves each as it is changes nothing. -/
theorem mapChildren_eq_self {change : Block → Block} {block : Block}
    (fixes : ∀ step child, block.child? step = some child → change child = child) :
    block.mapChildren change = block := by
  rcases block with ⟨format, lines, size⟩
  have unchanged : ∀ line ∈ lines, line.map change = line := by
    intro line lineMem
    rcases List.getElem?_of_mem lineMem with ⟨index, found⟩
    apply Line.map_eq_self
    intro position child holds
    exact fixes ⟨index, position⟩ child (by simp [child?, found, holds])
  rw [mapChildren, List.map_congr_left unchanged, List.map_id']

/-- What holds of a block whenever it holds of the blocks directly inside holds of all blocks. -/
@[elab_as_elim]
theorem induction {motive : Block → Prop}
    (inside : ∀ block : Block,
      (∀ step child, block.child? step = some child → motive child) → motive block)
    (block : Block) : motive block := by
  -- One motive for each layer of the tree: it speaks of the blocks that the layer holds directly.
  apply @Block.rec motive
    (fun lines => ∀ line ∈ lines, ∀ position child,
      line.child? position = some child → motive child)
    (fun line => ∀ position child, line.child? position = some child → motive child)
    (fun cells => ∀ cell ∈ cells, ∀ child, cell.content = .block child → motive child)
    (fun children => ∀ child ∈ children, motive child)
    (fun cell => ∀ child, cell.content = .block child → motive child)
    (fun content => ∀ child, content = .block child → motive child)
  · intro format lines size holds
    apply inside
    intro step child found
    rcases Option.bind_eq_some_iff.mp found with ⟨line, atLine, found⟩
    exact holds line (List.mem_of_getElem? atLine) step.position child found
  · intro line lineMem
    cases lineMem
  · intro line lines holdsLine holdsLines other otherMem
    rcases List.mem_cons.mp otherMem with rfl | otherMem
    · exact holdsLine
    · exact holdsLines other otherMem
  · intro cells size holds position child found
    rcases Option.bind_eq_some_iff.mp found with ⟨cell, atCell, found⟩
    exact holds cell (List.mem_of_getElem? atCell) child (Content.block?_eq_some_iff.mp found)
  · intro children size holds position child found
    exact holds child (List.mem_of_getElem? found)
  · intro cell cellMem
    cases cellMem
  · intro cell cells holdsCell holdsCells other otherMem
    rcases List.mem_cons.mp otherMem with rfl | otherMem
    · exact holdsCell
    · exact holdsCells other otherMem
  · intro child childMem
    cases childMem
  · intro child children holdsChild holdsChildren other otherMem
    rcases List.mem_cons.mp otherMem with rfl | otherMem
    · exact holdsChild
    · exact holdsChildren other otherMem
  · intro text size child found
    cases found
  · intro kind content size holds
    exact holds
  · intro child found
    cases found
  · intro text child found
    cases found
  · intro child holds other found
    cases found
    exact holds

@[simp]
theorem descendant?_nil (block : Block) : block.descendant? [] = some block := rfl

@[simp]
theorem descendant?_cons (block : Block) (step : Step) (rest : List Step) :
    block.descendant? (step :: rest) = (block.child? step).bind (·.descendant? rest) := by
  simp only [descendant?]
  cases block.child? step <;> rfl

/-- The steps of two paths, one after the other, lead on from where the first one leads. -/
theorem descendant?_append (block : Block) (first second : List Step) :
    block.descendant? (first ++ second) =
      (block.descendant? first).bind (·.descendant? second) := by
  induction first generalizing block with
  | nil => rfl
  | cons step rest ih =>
      simp only [List.cons_append, descendant?_cons]
      cases block.child? step with
      | none => rfl
      | some child => exact ih child

variable {Holds Also : Block → Prop} {block nested : Block}

/-- A property holds of a block and of every block nested in it. -/
def Everywhere (Holds : Block → Prop) (block : Block) : Prop :=
  ∀ steps inner, block.descendant? steps = some inner → Holds inner

/-- What holds everywhere in a block holds of it and everywhere in its children. -/
theorem everywhere_iff :
    block.Everywhere Holds ↔
      Holds block ∧ ∀ step child, block.child? step = some child → child.Everywhere Holds := by
  constructor
  · intro everywhere
    refine ⟨everywhere [] block rfl, ?_⟩
    intro step child found steps inner reached
    exact everywhere (step :: steps) inner (by simp [found, reached])
  · rintro ⟨here, inside⟩ steps inner reached
    cases steps with
    | nil =>
        cases reached
        exact here
    | cons step rest =>
        rw [descendant?_cons, Option.bind_eq_some_iff] at reached
        rcases reached with ⟨child, found, reached⟩
        exact inside step child found rest inner reached

theorem Everywhere.here (everywhere : block.Everywhere Holds) : Holds block :=
  everywhere [] block rfl

theorem Everywhere.child (everywhere : block.Everywhere Holds) {step : Step}
    (found : block.child? step = some nested) : nested.Everywhere Holds :=
  (everywhere_iff.mp everywhere).2 step nested found

theorem Everywhere.descendant (everywhere : block.Everywhere Holds) {steps : List Step}
    (found : block.descendant? steps = some nested) : nested.Everywhere Holds := by
  intro rest inner reached
  exact everywhere (steps ++ rest) inner (by simp [descendant?_append, found, reached])

theorem Everywhere.mono (everywhere : block.Everywhere Holds)
    (implies : ∀ inner, Holds inner → Also inner) : block.Everywhere Also := by
  intro steps inner reached
  exact implies inner (everywhere steps inner reached)

end Block

end BlockEditor
