import BlockEditor.Proofs.Raw.Represents

/-!
# The layout of raw blocks

The layout of a raw block walks along its lines and columns and writes each size to its place in one
of the lists. The loops are followed with the lists split at the position that they have reached:
what stands before it has been written, what stands behind it is still to be. As long as the lists
go with the format every position is there, and the sizes that are written are those that the layout
of blocks puts beside the contents (`RawBlock.Represents.measured`, `RawBlock.Represents.relaid`).
-/

namespace BlockEditor

open Checked

variable {style : Style}

theorem Cell.size_measured (style : Style) (cell : Cell Block) :
    (cell.measured style).size = cell.measure style := by
  cases cell <;> rfl

theorem Cell.size_map (change : Block → Block) (cell : Cell Block) :
    (cell.map change).size = cell.size := by
  cases cell <;> rfl

namespace RawBlock

/-- A raw content has the size of the measured cell. -/
theorem measureCell_eq {content : Content RawBlock} {cell : Cell Block}
    (agrees : content.Agrees Represents cell.content) :
    measureCell style cell.slot content = (cell.measured style).size := by
  rw [Cell.size_measured]
  cases cell with
  | label text size =>
      cases agrees
      rfl
  | column kind held size =>
      cases agrees with
      | empty => rfl
      | literal text => rfl
      | block represents => simp [Cell.slot, measureCell, Cell.measure, represents.size]

/-- The sizes of the columns from one on are written to their places in the row of the line, behind
those that have been written, and added to the size of the line. -/
theorem measureRow_eq (style : Style) {contents : List (Content RawBlock)}
    {cells : List (Cell Block)}
    (same : List.Forall₂ (fun content cell => Content.Agrees Represents content cell.content)
      contents cells)
    (rows behind : List (List Size)) (written : List Size) {old : List Size}
    (count : old.length = cells.length) (lineSize : Size) :
    measureRow style rows.length written.length (rows ++ (written ++ old) :: behind) lineSize
        ((cells.map Cell.slot).zip contents) =
      .ok (rows ++ (written ++ (cells.map (Cell.measured style)).map Cell.size) :: behind,
        ((cells.map (Cell.measured style)).map Cell.size).foldl (fun row cell =>
          ⟨row.width + (cell.width + style.config.innerPaddingHorizontal),
            greater row.height (cell.height + 2 * style.config.innerPaddingVertical)⟩)
          lineSize) := by
  induction same generalizing written old lineSize with
  | nil =>
      cases List.eq_nil_of_length_eq_zero count
      rfl
  | @cons content cell contents cells agrees _ ih =>
      rcases List.exists_of_length_succ _ count with ⟨oldSize, old, rfl⟩
      have next := ih (written ++ [(cell.measured style).size]) (Nat.succ.inj count)
      simp only [List.length_append, List.length_singleton, List.append_assoc,
        List.singleton_append] at next
      simp only [List.map_cons, List.zip_cons_cons, measureRow, measureCell_eq agrees, item_passed,
        write_passed, bind, Except.bind, next, List.foldl_cons]

theorem map_size_eq {raws : List RawBlock} {children : List Block}
    (same : List.Forall₂ Represents raws children) :
    raws.map RawBlock.size = children.map Block.size := by
  induction same with
  | nil => rfl
  | cons represents _ ih => simp [represents.size, ih]

/-- The sizes of the columns of a line are written to the row of the line. -/
theorem measureLine_eq (style : Style) {content : RawLine RawBlock} {sizes : List Size}
    {line : Line Block} (agrees : content.Agrees Represents sizes line) {format : BlockFormat}
    {rows : List (List Size)} (slots : format.slotsOfLine rows.length = line.shape.slots)
    (behind : List (List Size)) :
    ∃ written, measureLine style format rows.length (rows ++ sizes :: behind) content =
        .ok (rows ++ written :: behind, (line.measured style).size) ∧
      content.Agrees Represents written (line.measured style) := by
  cases agrees with
  | @columns contents _ cells size same sameSizes =>
      refine ⟨(cells.map (Cell.measured style)).map Cell.size, ?_, .columns ?_ rfl⟩
      · rw [measureLine, slots]
        exact measureRow_eq style same rows behind [] (by simp [sameSizes])
          ⟨style.config.innerPaddingHorizontal, 0⟩
      · simpa [List.forall₂_map_right_iff] using same
  | @stack raws _ children size same =>
      exact ⟨sizes, by rw [measureLine, map_size_eq same]; rfl, .stack same⟩

/-- The sizes of the lines from one on are written to their places, behind those that have been
written, and added to the size of the block. -/
theorem measureLines_eq (style : Style) {contents : List (RawLine RawBlock)}
    {rows : List (List Size)} {lines : List (Line Block)}
    (agree : RawLine.AllAgree Represents contents rows lines) {format : BlockFormat}
    (written : List Size) (writtenRows : List (List Size)) {old : List Size}
    (count : old.length = lines.length) (sameCount : writtenRows.length = written.length)
    (slots : ∀ (index : Nat) (line : Line Block), lines[index]? = some line →
      format.slotsOfLine (written.length + index) = line.shape.slots) (size : Size) :
    ∃ newRows, measureLines style format written.length (written ++ old) (writtenRows ++ rows) size
          contents =
        .ok (written ++ (lines.map (Line.measured style)).map Line.size, writtenRows ++ newRows,
          ((lines.map (Line.measured style)).map Line.size).foldl (fun body line =>
            ⟨greater body.width line.width, body.height + line.height⟩) size) ∧
      RawLine.AllAgree Represents contents newRows (lines.map (Line.measured style)) := by
  induction agree generalizing written old writtenRows size with
  | nil =>
      cases List.eq_nil_of_length_eq_zero count
      exact ⟨[], rfl, .nil⟩
  | @cons content sizes line contents rows lines agrees _ ih =>
      rcases List.exists_of_length_succ _ count with ⟨oldSize, old, rfl⟩
      have slotsHere : format.slotsOfLine writtenRows.length = line.shape.slots := by
        rw [sameCount]
        exact slots 0 line rfl
      rcases measureLine_eq style agrees slotsHere rows with ⟨newRow, lineDone, newAgrees⟩
      rcases ih (written ++ [(line.measured style).size]) (writtenRows ++ [newRow])
          (Nat.succ.inj count) (by simp [sameCount])
          (by
            intro index other atIndex
            rw [List.length_append, List.length_singleton, Nat.add_assoc, Nat.add_comm 1]
            exact slots (index + 1) other atIndex)
          ⟨greater size.width (line.measured style).size.width,
            size.height + (line.measured style).size.height⟩ with ⟨newRows, restDone, newAgree⟩
      simp only [List.length_append, List.length_singleton, List.append_assoc,
        List.singleton_append] at restDone
      refine ⟨newRow :: newRows, ?_, .cons newAgrees newAgree⟩
      rw [sameCount] at lineDone
      simp only [measureLines, lineDone, bind, Except.bind, write_passed, restDone, List.map_cons,
        List.foldl_cons]

variable {raw : RawBlock} {block : Block}

/-- A raw block that represents a block can be measured, and represents the measured block. -/
theorem Represents.measured (represents : raw.Represents block) (style : Style) :
    Yields Represents (raw.measured style) (block.measured style) := by
  have slots : ∀ (index : Nat) (line : Line Block), block.lines[index]? = some line →
      raw.format.slotsOfLine (0 + index) = line.shape.slots := by
    intro index line atLine
    rw [Nat.zero_add, represents.format, BlockFormat.slotsOfLine, ← represents.shape, Block.shape,
      List.getElem?_map, atLine]
    rfl
  have count : raw.lineSizes.length = block.lines.length := by
    rw [represents.lineSizes, List.length_map]
  rcases measureLines_eq style represents.lines [] [] count rfl slots .zero with
    ⟨newRows, done, agree⟩
  simp only [List.nil_append, List.length_nil] at done
  rw [RawBlock.measured, done]
  refine yields_ok (.intro represents.format ?_ ?_ rfl agree)
  · rw [Block.measured, Block.measure, represents.format]
  · rw [Block.shape_measured, represents.shape, Block.format_measured]

/-- Measuring again does not fail and says alike whether the size has changed. -/
theorem Represents.remeasured (represents : raw.Represents block) (style : Style) :
    Yields (fun raw result => raw.1.Represents result.1 ∧ raw.2 = result.2)
      (raw.remeasured style) (block.remeasured style) := by
  apply (represents.measured style).bind
  intro measured same
  refine yields_ok ⟨same, ?_⟩
  simp only [Block.remeasured, represents.size, same.size]

/-- A raw block without content represents a block without content. -/
theorem represents_blank (format : BlockFormat) : (blank format).Represents (.blank format) := by
  refine .intro rfl rfl ?_ ?_ ?_
  · exact (Block.consistent_blank format).shape
  · simp only [blank, Block.blank, List.map_map]
    apply List.map_congr_left
    intro line _
    cases line <;> rfl
  · simp only [blank, Block.blank]
    induction format.lines with
    | nil => exact .nil
    | cons line rest ih =>
        refine .cons ?_ ih
        cases line with
        | columns slots =>
            refine .columns ?_ ?_
            · rw [List.forall₂_map_left_iff, List.forall₂_map_right_iff, List.forall₂_same]
              intro slot _
              cases slot <;> exact .empty
            · simp only [FormatLine.slots, List.map_map]
              apply List.map_congr_left
              intro slot _
              cases slot <;> rfl
        | stack => exact .stack .nil

/-- A new raw block is made without failing and represents a new block. -/
theorem represents_fresh (style : Style) (format : BlockFormat) :
    Yields Represents (fresh style format) (Block.fresh style format) :=
  (represents_blank format).measured style

/-- Blocks of a stack that can be laid out are laid out one after the other. -/
theorem relaidStack_yields {raws : List RawBlock} {children : List Block}
    (same : List.Forall₂ Represents raws children)
    (inside : ∀ child ∈ children, ∀ raw : RawBlock, raw.Represents child →
      Yields Represents (raw.relaid style) (child.relaid style)) :
    Yields (List.Forall₂ Represents) (relaidStack style raws)
      (children.map (Block.relaid style)) := by
  induction same with
  | nil => exact yields_ok .nil
  | @cons raw child raws children represents _ ih =>
      rcases List.forall_mem_cons.mp inside with ⟨here, others⟩
      rw [relaidStack]
      apply (here raw represents).bind
      intro relaid same
      apply (ih others).bind
      intro rest sameRest
      exact yields_ok (.cons same sameRest)

theorem relaidContents_yields {contents : List (Content RawBlock)} {cells : List (Cell Block)}
    (same : List.Forall₂ (fun content cell => Content.Agrees Represents content cell.content)
      contents cells)
    (inside : ∀ cell ∈ cells, ∀ child, cell.content = .block child → ∀ raw : RawBlock,
      raw.Represents child → Yields Represents (raw.relaid style) (child.relaid style)) :
    Yields (List.Forall₂ fun content cell => Content.Agrees Represents content cell.content)
      (relaidContents style contents) (cells.map (Cell.map (Block.relaid style))) := by
  induction same with
  | nil => exact yields_ok .nil
  | @cons content cell contents cells agrees _ ih =>
      rcases List.forall_mem_cons.mp inside with ⟨here, others⟩
      have relaidHere : Yields (fun content cell => Content.Agrees Represents content cell.content)
          (relaidContent style content) (cell.map (Block.relaid style)) := by
        rw [Yields, Cell.content_map]
        generalize cell.content = held at agrees here
        cases agrees with
        | empty => exact yields_ok .empty
        | literal text => exact yields_ok (.literal text)
        | block represents =>
            rw [relaidContent]
            apply (here _ rfl _ represents).bind
            intro relaid same
            exact yields_ok (.block same)
      rw [relaidContents]
      apply relaidHere.bind
      intro content agrees
      apply (ih others).bind
      intro rest sameRest
      exact yields_ok (.cons agrees sameRest)

/-- A raw layout of a line does not fail if that of its blocks does not. -/
theorem relaidLine_yields {content : RawLine RawBlock} {sizes : List Size} {line : Line Block}
    (agrees : content.Agrees Represents sizes line)
    (inside : ∀ position child, line.child? position = some child → ∀ raw : RawBlock,
      raw.Represents child → Yields Represents (raw.relaid style) (child.relaid style)) :
    Yields (fun content line => RawLine.Agrees Represents content sizes line)
      (relaidLine style content) (line.map (Block.relaid style)) := by
  cases agrees with
  | @columns contents _ cells size same sameSizes =>
      rw [relaidLine]
      apply (relaidContents_yields same ?_).bind
      · intro contents same
        refine yields_ok (.columns same ?_)
        simp [sameSizes, Function.comp_def, Cell.size_map]
      · intro cell cellMem child holds
        rcases List.getElem?_of_mem cellMem with ⟨column, found⟩
        exact inside column child (by simp [found, holds])
  | @stack raws _ children size same =>
      rw [relaidLine]
      apply (relaidStack_yields same ?_).bind
      · intro raws same
        exact yields_ok (.stack same)
      · intro child childMem
        rcases List.getElem?_of_mem childMem with ⟨position, found⟩
        exact inside position child found

theorem relaidLines_yields {contents : List (RawLine RawBlock)} {rows : List (List Size)}
    {lines : List (Line Block)} (agree : RawLine.AllAgree Represents contents rows lines)
    (inside : ∀ line ∈ lines, ∀ position child, line.child? position = some child →
      ∀ raw : RawBlock, raw.Represents child →
        Yields Represents (raw.relaid style) (child.relaid style)) :
    Yields (fun contents lines => RawLine.AllAgree Represents contents rows lines)
      (relaidLines style contents) (lines.map (Line.map (Block.relaid style))) := by
  induction agree with
  | nil => exact yields_ok .nil
  | cons agrees _ ih =>
      rcases List.forall_mem_cons.mp inside with ⟨here, others⟩
      rw [relaidLines]
      apply (relaidLine_yields agrees here).bind
      intro content agrees
      apply (ih others).bind
      intro contents agree
      exact yields_ok (.cons agrees agree)

/-- A raw block that represents a block can be laid out, and represents the block laid out. -/
theorem Represents.relaid (represents : raw.Represents block) (style : Style) :
    Yields Represents (raw.relaid style) (block.relaid style) := by
  induction block using Block.induction generalizing raw with
  | inside block ih =>
      rcases raw with ⟨format, lines, size, lineSizes, cellSizes⟩
      rw [Block.relaid_eq, RawBlock.relaid]
      apply (relaidLines_yields represents.lines ?_).bind
      · intro relaidLines agree
        have same : Represents ⟨format, relaidLines, size, lineSizes, cellSizes⟩
            (block.mapChildren (Block.relaid style)) := by
          refine .intro represents.format represents.size ?_ ?_ agree
          · rw [Block.shape_mapChildren, represents.shape]
            rfl
          · have sameSize : ∀ line : Line Block,
                (line.map (Block.relaid style)).size = line.size := by
              intro line
              cases line <;> rfl
            simp only [Block.mapChildren, List.map_map, Function.comp_def, sameSize]
            exact represents.lineSizes
        exact same.measured style
      · intro line lineMem position child found raw represents
        rcases List.getElem?_of_mem lineMem with ⟨index, atLine⟩
        exact ih ⟨index, position⟩ child (by simp [Block.child?, atLine, found]) represents

end RawBlock

end BlockEditor
