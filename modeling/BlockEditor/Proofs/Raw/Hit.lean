import BlockEditor.Proofs.Block.Hit
import BlockEditor.Proofs.Raw.Edit
import BlockEditor.Raw.Hit

/-!
# Hit tests of raw blocks

A hit test of a raw block reads the size of the line that it is at, and asks the format for the slot
of a column. The walk along the lines and columns is followed by what is still to come of each list.
In a raw block that represents a block no position is missing, and the answer is that of the block
(`RawBlock.Represents.hit?`); so are the answers of everything that goes by a hit.
-/

namespace BlockEditor

open Checked

variable {config : LayoutConfig} {style : Style}

namespace RawBlock

/-- Hit tests of a raw block and of a block have the same answers. -/
def SameHits (config : LayoutConfig) (raw : RawBlock) (block : Block) : Prop :=
  ∀ x y : Float32, raw.hit? config x y = .ok (block.hit? config x y)

/-- A raw stack is hit where the stack is. -/
theorem hitStack_eq {raws : List RawBlock} {children : List Block}
    (same : List.Forall₂ Represents raws children)
    (inside : ∀ child ∈ children, ∀ raw : RawBlock, raw.Represents child →
      SameHits config raw child) (x y : Float32) (line position : Nat) (top : Float32) :
    hitStack config x y line position top raws =
      .ok (Block.hitStack config x y line position top children) := by
  induction same generalizing position top with
  | nil => rfl
  | @cons raw child raws children represents _ ih =>
      rcases List.forall_mem_cons.mp inside with ⟨here, others⟩
      rw [hitStack, Block.hitStack, represents.size, here raw represents]
      simp only [ih others]
      split
      · split <;> rfl
      · split <;> rfl

/-- A raw content is hit where the cell is. -/
theorem hitContent_eq {content : Content RawBlock} {cell : Cell Block}
    (agrees : content.Agrees Represents cell.content)
    (inside : ∀ child, cell.content = .block child → ∀ raw : RawBlock, raw.Represents child →
      SameHits config raw child) (isChild : cell.slot.isChild = true) (x y top : Float32)
    (step : Step) :
    hitContent config cell.size x y top step content =
      .ok (Block.hitCell config x y top step cell) := by
  cases cell with
  | label text size => cases isChild
  | column kind held size =>
      generalize sameHeld : (Cell.column kind held size).content = other at agrees inside
      cases sameHeld
      cases agrees with
      | empty => rfl
      | literal text => rfl
      | block represents =>
          rw [hitContent, Block.hitCell, represents.size, inside _ rfl _ represents]
          split <;> rfl

/-- The walk along the columns of a row, from a column on. -/
theorem hitContents_eq {contents : List (Content RawBlock)} {cells : List (Cell Block)}
    (same : List.Forall₂ (fun content cell => Content.Agrees Represents content cell.content)
      contents cells)
    (inside : ∀ cell ∈ cells, ∀ child, cell.content = .block child → ∀ raw : RawBlock,
      raw.Represents child → SameHits config raw child)
    {format : BlockFormat} {cellSizes : List (List Size)} {sizes : List Size} {line column : Nat}
    (atRow : cellSizes[line]? = some sizes)
    (slots : (format.slotsOfLine line).drop column = cells.map Cell.slot)
    (sameSizes : sizes.drop column = cells.map Cell.size) (x y lineHeight left : Float32) :
    hitContents config format cellSizes x y lineHeight line column left contents =
      .ok (Block.hitCells config x y lineHeight line column left cells) := by
  induction same generalizing column left with
  | nil => rfl
  | @cons content cell contents cells agrees _ ih =>
      rcases List.forall_mem_cons.mp inside with ⟨here, others⟩
      rcases of_drop_eq_cons slots with ⟨atSlot, slotsAfter⟩
      rcases of_drop_eq_cons sameSizes with ⟨atSize, sizesAfter⟩
      have sizeHere : cellSize cellSizes line column = cell.size := by
        simp [cellSize, atRow, atSize]
      rw [hitContents, Block.hitCells, sizeHere, atSlot]
      simp only [ih others slotsAfter sizesAfter]
      split
      · cases isSlot : cell.slot with
        | label text =>
            cases cell with
            | label text size => rfl
            | column kind held size => cases isSlot
        | child kind => exact hitContent_eq agrees here (by rw [isSlot]; rfl) _ _ _ _
      · split <;> rfl

/-- A raw line is hit where the line is; no size is missing. -/
theorem hitLine_eq {content : RawLine RawBlock} {sizes : List Size} {line : Line Block}
    (agrees : content.Agrees Represents sizes line)
    (inside : ∀ position child, line.child? position = some child → ∀ raw : RawBlock,
      raw.Represents child → SameHits config raw child)
    {format : BlockFormat} {lineSizes : List Size} {cellSizes : List (List Size)} {index : Nat}
    (atFormat : format.lines[index]? = some line.shape)
    (atSize : lineSizes[index]? = some line.size) (atRow : cellSizes[index]? = some sizes)
    (x y : Float32) :
    hitLine config format lineSizes cellSizes x y index content =
      .ok (Block.hitLine config x y index line) := by
  cases agrees with
  | @columns contents _ cells size same sameSizes =>
      have slots : (format.slotsOfLine index).drop 0 = cells.map Cell.slot := by
        simp [BlockFormat.slotsOfLine, atFormat, Line.shape, FormatLine.slots]
      have insideCells : ∀ cell ∈ cells, ∀ child, cell.content = .block child →
          ∀ raw : RawBlock, raw.Represents child → SameHits config raw child := by
        intro cell cellMem child holds
        rcases List.getElem?_of_mem cellMem with ⟨column, found⟩
        exact inside column child (by simp [found, holds])
      rw [hitLine, item_eq_ok atSize, ok_bind, Block.hitLine]
      split
      · rfl
      · exact hitContents_eq same insideCells atRow slots sameSizes _ _ _ _
  | @stack raws _ children size same =>
      have insideStack : ∀ child ∈ children, ∀ raw : RawBlock, raw.Represents child →
          SameHits config raw child := by
        intro child childMem
        rcases List.getElem?_of_mem childMem with ⟨position, found⟩
        exact inside position child found
      rw [hitLine, Block.hitLine]
      simp only [hitStack_eq same insideStack]
      split
      · rfl
      · split <;> rfl

/-- The walk along the lines of a block, from a line on. -/
theorem hitLines_eq {contents : List (RawLine RawBlock)} {rows : List (List Size)}
    {lines : List (Line Block)} (agree : RawLine.AllAgree Represents contents rows lines)
    (inside : ∀ line ∈ lines, ∀ position child, line.child? position = some child →
      ∀ raw : RawBlock, raw.Represents child → SameHits config raw child)
    {format : BlockFormat} {lineSizes : List Size} {cellSizes : List (List Size)} {index : Nat}
    (shape : format.lines.drop index = lines.map Line.shape)
    (sizes : lineSizes.drop index = lines.map Line.size) (sameRows : cellSizes.drop index = rows)
    (x y top : Float32) :
    hitLines config format lineSizes cellSizes x y index top contents =
      .ok (Block.hitLines config x y index top lines) := by
  induction agree generalizing index top with
  | nil => rfl
  | cons agrees _ ih =>
      rcases List.forall_mem_cons.mp inside with ⟨here, others⟩
      rcases of_drop_eq_cons shape with ⟨atFormat, shapeAfter⟩
      rcases of_drop_eq_cons sizes with ⟨atSize, sizesAfter⟩
      rcases of_drop_eq_cons sameRows with ⟨atRow, rowsAfter⟩
      rw [hitLines, item_eq_ok atSize, ok_bind, Block.hitLines]
      split
      · split
        · rfl
        · exact hitLine_eq agrees here atFormat atSize atRow _ _
      · exact ih others shapeAfter sizesAfter rowsAfter _

variable {raw : RawBlock} {block : Block}

/-- In a raw block that represents a block a hit test finds every size that it reads, and has the
same answer. -/
theorem Represents.hit? (represents : raw.Represents block) (config : LayoutConfig) :
    SameHits config raw block := by
  induction block using Block.induction generalizing raw with
  | inside block ih =>
      intro x y
      rcases raw with ⟨format, lines, size, lineSizes, cellSizes⟩
      rw [RawBlock.hit?, Block.hit?_eq, ← represents.size]
      split
      · refine hitLines_eq represents.lines ?_ ?_ ?_ rfl x y 0
        · intro line lineMem position child found raw represents
          rcases List.getElem?_of_mem lineMem with ⟨index, atLine⟩
          exact ih ⟨index, position⟩ child (by simp [Block.child?, atLine, found]) represents
        · exact (congrArg BlockFormat.lines represents.format).trans represents.shape.symm
        · exact represents.lineSizes
      · rfl

theorem Represents.literalType? (represents : raw.Represents block) (line column : Nat) :
    raw.literalType? line column = block.literalType? line column := by
  rw [RawBlock.literalType?, Block.literalType?, represents.slot?]
  rcases block.cell? line column with _ | _ | _ <;> rfl

theorem Represents.value? (represents : raw.Represents block) (line column : Nat) :
    raw.value? line column = block.value? line column := by
  rw [RawBlock.value?, Block.value?]
  rcases rel_cases (represents.content? line column) with
    ⟨noContent, noCell⟩ | ⟨content, cell, inRaw, atCell, agrees⟩
  · rw [noContent, noCell]
    rfl
  · rw [inRaw, atCell, Option.map_some, Option.map_some, agrees.literal?]

theorem Represents.bind_get? {Answer : Type} (represents : raw.Represents block) (path : BlockPath)
    {ask : RawBlock → Option Answer} {askBlock : Block → Option Answer}
    (same : ∀ (raw : RawBlock) (block : Block), raw.Represents block → ask raw = askBlock block) :
    (raw.get? path).bind ask = (block.get? path).bind askBlock := by
  rcases rel_cases (represents.get? path) with ⟨noRaw, noBlock⟩ | ⟨_, _, inRaw, inBlock, inside⟩
  · rw [noRaw, noBlock]
    rfl
  · rw [inRaw, inBlock]
    exact same _ _ inside

/-- Asking for the type at a point does not fail and answers the same. -/
theorem Represents.literalTypeAt? (represents : raw.Represents block) (config : LayoutConfig)
    (x y : Float32) :
    raw.literalTypeAt? config x y = .ok (block.literalTypeAt? config x y) := by
  rw [RawBlock.literalTypeAt?, Block.literalTypeAt?, represents.hit? config x y, ok_bind]
  rcases block.hit? config x y with _ | _ | ⟨path, line, column⟩
  · rfl
  · rfl
  · exact congrArg Except.ok
      (represents.bind_get? path fun _ _ same => same.literalType? line column)

theorem Represents.valueAt? (represents : raw.Represents block) (config : LayoutConfig)
    (x y : Float32) : raw.valueAt? config x y = .ok (block.valueAt? config x y) := by
  rw [RawBlock.valueAt?, Block.valueAt?, represents.hit? config x y, ok_bind]
  rcases block.hit? config x y with _ | _ | ⟨path, line, column⟩
  · rfl
  · rfl
  · exact congrArg Except.ok (represents.bind_get? path fun _ _ same => same.value? line column)

/-- A text goes into the field that a hit test names, which is there. -/
theorem Represents.setValueAt (represents : raw.Represents block) (style : Style) (text : String)
    (x y : Float32) :
    Yields SameAnswer (raw.setValueAt style text x y) (block.setValueAt style text x y) := by
  rw [RawBlock.setValueAt, Block.setValueAt, represents.hit? style.config x y, ok_bind]
  cases found : block.hit? style.config x y with
  | none => exact yields_ok ⟨represents, rfl⟩
  | some hit =>
      cases hit with
      | body path => exact yields_ok ⟨represents, rfl⟩
      | field path line column =>
          rcases Block.isIn_of_hit? found with ⟨target, _, _, _, reached, _⟩
          have both : ∃ after,
              Block.updateAt style (Block.typeText style line column text) path.steps block =
                some (after, (target.typeText style line column text).2) ∧
              Yields (fun raw after => raw.1.Represents after ∧
                  ∃ answer, raw.2 = some answer ∧
                    answer = (target.typeText style line column text).2)
                (RawBlock.updateAt style (RawBlock.typeText style line column text) path.steps raw)
                after :=
            represents.updateAt reached fun rawTarget same => same.typeText style line column text
          rcases both with ⟨after, updated, yields⟩
          simp only [updated, Option.getD_some]
          apply yields.bind
          rintro ⟨rawAfter, _⟩ ⟨sameAfter, answer, rfl, sameAnswer⟩
          exact yields_ok ⟨sameAfter, sameAnswer⟩

theorem Represents.removeAt (represents : raw.Represents block) (style : Style) (x y : Float32) :
    Yields SameResult (raw.removeAt style x y) (block.removeAt style x y) := by
  rw [RawBlock.removeAt, Block.removeAt, represents.hit? style.config x y, ok_bind]
  cases block.hit? style.config x y with
  | none => exact yields_ok ⟨represents, .none⟩
  | some hit => exact represents.detach style hit.path

end RawBlock

end BlockEditor
