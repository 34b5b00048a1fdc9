import BlockEditor.Block.Drop
import BlockEditor.Proofs.Raw.Edit
import BlockEditor.Raw.Drop

/-!
# Drops on raw blocks

A raw block that represents a block answers a drop as the block does. Every size and every place of
a stack that the walk uses is there; if the dropped block is handed back, it and the raw block are
the ones that went in, at every depth, and if it is taken, the raw block represents the block with
the dropped one in it (`RawBlock.Represents.probeInsert`).
-/

namespace BlockEditor

open Checked

variable {style : Style}

namespace RawBlock

/-- An offer to a raw block has the outcome of the offer to the block. Whoever hands the dropped
block back has changed neither it nor the raw block. -/
inductive SameOffer (raw dropped : RawBlock) : RawBlock × Placement → Offer → Prop where
  | above : SameOffer raw dropped (raw, .above dropped) .above
  | below : SameOffer raw dropped (raw, .below dropped) .below
  | taken {rawAfter : RawBlock} {after : Block} (same : rawAfter.Represents after) :
      SameOffer raw dropped (rawAfter, .inserted) (.taken after)

/-- A part of a raw block that is offered a block hands it back and stays as it was, or is the same
as the part of the block that has taken it. -/
inductive SamePart {Raw Part : Type} (raw : Raw) (dropped : RawBlock) (Same : Raw → Part → Prop) :
    Raw × Option RawBlock → Option Part → Prop where
  | refused : SamePart raw dropped Same (raw, some dropped) none
  | taken {rawAfter : Raw} {part : Part} (same : Same rawAfter part) :
      SamePart raw dropped Same (rawAfter, none) (some part)

/-- A larger part that differs only in the part that is offered the block. -/
theorem SamePart.map {Raw Part Other OtherPart : Type} {raw : Raw} {dropped : RawBlock}
    {Same : Raw → Part → Prop} {SameOther : Other → OtherPart → Prop} {after : Raw}
    {returned : Option RawBlock} {part? : Option Part}
    (outcome : SamePart raw dropped Same (after, returned) part?) (around : Raw → Other)
    {aroundPart : Part → OtherPart}
    (goesOn : ∀ after part, Same after part → SameOther (around after) (aroundPart part)) :
    SamePart (around raw) dropped SameOther (around after, returned) (part?.map aroundPart) := by
  cases outcome with
  | refused => exact .refused
  | taken same => exact .taken (goesOn _ _ same)

/-- At every point, an offer to a raw block has the outcome of the offer to the block. -/
def SameOffers (style : Style) (rawDropped : RawBlock) (dropped : Block) (raw : RawBlock)
    (block : Block) : Prop :=
  ∀ x y : Float32, Yields (SameOffer raw rawDropped) (probeInsert style rawDropped x y raw)
    (Block.offer style dropped x y block)

variable {rawDropped raw : RawBlock} {dropped block : Block}

/-- Where a block puts a dropped one that no line has taken. -/
def chosenOffer (style : Style) (dropped block : Block) : StackChoice → Offer
  | .above => .above
  | .below => .below
  | .first line => Block.answerOf (block.insertChild style line 0 dropped)
  | .last line => Block.answerOf (block.pushChild style line dropped)

theorem SamePlacing.sameOffer {result : RawBlock × Option RawBlock}
    {expected : Block × Option Block}
    (placing : SamePlacing raw rawDropped block dropped result expected) :
    SameOffer raw rawDropped (placementOf result) (Block.answerOf expected) := by
  cases placing with
  | refused => exact .above
  | placed same => exact .taken same

/-- Going to the stack before the point does not fail and does what the choice says. -/
theorem Represents.appendToPrevious (represents : raw.Represents block)
    (same : rawDropped.Represents dropped) (style : Style) (previous : Option StackSpan) :
    Yields (SameOffer raw rawDropped)
      (appendToPrevious style (previous.map fun span => (span.line, span.bottom)) raw rawDropped)
      (chosenOffer style dropped block
        ((previous.map fun span => StackChoice.last span.line).getD .above)) := by
  cases previous with
  | none => exact yields_ok .above
  | some span =>
      apply (represents.pushChild same style span.line).bind
      intro result placing
      exact yields_ok placing.sameOffer

/-- The walk along the stacks of a block, from a line on. -/
theorem Represents.betweenStacks (represents : raw.Represents block)
    (same : rawDropped.Represents dropped) (style : Style) (y : Float32) {index : Nat}
    {lines : List (Line Block)} (toCome : block.lines.drop index = lines) (top : Float32)
    (previous : Option StackSpan) :
    Yields (SameOffer raw rawDropped)
      (betweenStacks style raw rawDropped y index top
        (previous.map fun span => (span.line, span.bottom)) lines.length)
      (chosenOffer style dropped block
        (chooseStack y block.size.height previous (stackSpans index top lines))) := by
  have lowerEdge : ∀ previous : Option StackSpan,
      (previous.map fun span => (span.line, span.bottom)).map Prod.snd =
        previous.map StackSpan.bottom := by
    intro previous
    cases previous <;> rfl
  induction lines generalizing index top previous with
  | nil =>
      simp only [List.length_nil, RawBlock.betweenStacks, stackSpans, chooseStack, lowerEdge,
        represents.size]
      cases midpointSide y ((previous.map StackSpan.bottom).getD 0) block.size.height with
      | previous => exact represents.appendToPrevious same style previous
      | next => exact yields_ok .below
  | cons line rest ih =>
      rcases of_drop_eq_cons toCome with ⟨atLine, after⟩
      rcases represents.lines.of_getElem? atLine with ⟨content, sizes, inRaw, _, agrees⟩
      have atSize : raw.lineSizes[index]? = some line.size := by
        simp [represents.lineSizes, atLine]
      simp only [List.length_cons, RawBlock.betweenStacks, item_eq_ok atSize, item_eq_ok inRaw,
        ok_bind, agrees.isStack, stackSpans]
      cases line.isStack with
      | false => exact ih after _ previous
      | true =>
          simp only [if_true, chooseStack, lowerEdge]
          split
          · cases midpointSide y ((previous.map StackSpan.bottom).getD 0) top with
            | previous => exact represents.appendToPrevious same style previous
            | next =>
                apply (represents.insertChild same style index 0).bind
                intro result placing
                exact yields_ok placing.sameOffer
          · exact ih after _ (some ⟨index, top, top + line.size.height⟩)

/-- A stack walks on from a position behind the blocks that it has passed. -/
theorem insertIntoStack_yields (same : rawDropped.Represents dropped) {raws : List RawBlock}
    {children : List Block} (sameStack : List.Forall₂ Represents raws children)
    (inside : ∀ child ∈ children, ∀ raw : RawBlock, raw.Represents child →
      SameOffers style rawDropped dropped raw child) (x y top : Float32) (passed : List RawBlock) :
    Yields (fun result children => ∃ rest, result = passed ++ rest ∧
        List.Forall₂ Represents rest children)
      (insertIntoStack style rawDropped x y passed.length top passed raws)
      (Block.offerStack style dropped x y top children) := by
  induction sameStack generalizing top passed with
  | nil => exact yields_ok ⟨[rawDropped], rfl, .cons same .nil⟩
  | @cons raw child raws children represents others ih =>
      rcases List.forall_mem_cons.mp inside with ⟨here, insideOthers⟩
      rcases here raw represents x (y - top) with ⟨result, done, outcome⟩
      rw [insertIntoStack, done, ok_bind, Block.offerStack]
      generalize Block.offer style dropped x (y - top) child = offer at outcome ⊢
      cases outcome with
      | above =>
          simp only [insertItem_passed]
          exact yields_ok ⟨_, rfl, .cons same (.cons represents others)⟩
      | taken sameAfter => exact yields_ok ⟨_, rfl, .cons sameAfter others⟩
      | below =>
          have next := ih insideOthers
            (top + (child.size.height + style.config.elementPaddingVertical)) (passed ++ [raw])
          rw [List.length_append, List.length_singleton] at next
          simp only [item_passed, ok_bind, represents.size]
          rcases next with ⟨_, walked, rest, rfl, sameRest⟩
          exact ⟨_, walked, raw :: rest, by simp, .cons represents sameRest⟩

/-- What a column holds and a cell hold the same, and the cell has the size and slot of another. -/
def SameCell (old : Cell Block) (content : Content RawBlock) (cell : Cell Block) : Prop :=
  content.Agrees Represents cell.content ∧ cell.size = old.size ∧ cell.slot = old.slot

/-- Offering to a content does not fail if offering to the block in it does not. -/
theorem insertIntoContent_yields (same : rawDropped.Represents dropped)
    {content : Content RawBlock} (kind : ColumnKind) (held : Content Block) (size : Size)
    (agrees : content.Agrees Represents held)
    (inside : ∀ child, held = .block child → ∀ raw : RawBlock, raw.Represents child →
      SameOffers style rawDropped dropped raw child) (x y : Float32) :
    Yields (SamePart content rawDropped (SameCell (.column kind held size)))
      (insertIntoContent style kind rawDropped x y content)
      (Block.offerCell style dropped x y (.column kind held size)) := by
  cases agrees with
  | literal text => exact yields_ok .refused
  | empty =>
      rw [insertIntoContent, Block.offerCell, same.format]
      split
      · exact yields_ok (.taken ⟨.block same, rfl, rfl⟩)
      · exact yields_ok .refused
  | @block raw child represents =>
      rw [insertIntoContent, Block.offerCell]
      rcases inside child rfl raw represents (x - style.config.elementPaddingHorizontal)
        (y - style.config.elementPaddingVertical) with ⟨result, done, outcome⟩
      rw [done, ok_bind]
      generalize Block.offer style dropped (x - style.config.elementPaddingHorizontal)
        (y - style.config.elementPaddingVertical) child = offer at outcome ⊢
      cases outcome with
      | above => exact yields_ok .refused
      | below => exact yields_ok .refused
      | taken sameAfter => exact yields_ok (.taken ⟨.block sameAfter, rfl, rfl⟩)

/-- Cells hold what columns hold, and have the sizes and slots of other cells. -/
structure SameCells (old : List (Cell Block)) (contents : List (Content RawBlock))
    (cells : List (Cell Block)) : Prop where
  same : List.Forall₂ (fun content cell => Content.Agrees Represents content cell.content) contents
    cells
  sameSizes : cells.map Cell.size = old.map Cell.size
  sameSlots : cells.map Cell.slot = old.map Cell.slot

/-- The walk along the columns of a row, from a column on. -/
theorem insertIntoContents_yields (same : rawDropped.Represents dropped)
    {contents : List (Content RawBlock)} {cells : List (Cell Block)}
    (sameCells : List.Forall₂ (fun content cell => Content.Agrees Represents content cell.content)
      contents cells)
    (inside : ∀ cell ∈ cells, ∀ child, cell.content = .block child → ∀ raw : RawBlock,
      raw.Represents child → SameOffers style rawDropped dropped raw child)
    {format : BlockFormat} {sizes : List Size} {line column : Nat}
    (slots : (format.slotsOfLine line).drop column = cells.map Cell.slot)
    (sizesToCome : sizes.drop column = cells.map Cell.size) (x y lineHeight left : Float32) :
    Yields (SamePart contents rawDropped (SameCells cells))
      (insertIntoContents style format sizes rawDropped x y lineHeight line column left contents)
      (Block.offerCells style dropped x y lineHeight left cells) := by
  induction sameCells generalizing column left with
  | nil => exact yields_ok .refused
  | @cons content cell contents cells agrees others ih =>
      rcases List.forall_mem_cons.mp inside with ⟨here, insideOthers⟩
      rcases of_drop_eq_cons slots with ⟨atSlot, slotsAfter⟩
      rcases of_drop_eq_cons sizesToCome with ⟨atSize, sizesAfter⟩
      simp only [insertIntoContents, Block.offerCells, atSlot, atSize, Option.getD_some]
      split
      · cases cell with
        | label text size => exact yields_ok .refused
        | column kind held size =>
            apply (insertIntoContent_yields same kind held size agrees here _ _).bind
            rintro ⟨after, returned⟩ outcome
            refine yields_ok (outcome.map (· :: contents) ?_)
            rintro after cell ⟨agrees, sameSize, sameSlot⟩
            exact ⟨.cons agrees others, by simp [sameSize], by simp [sameSlot]⟩
      · split
        · exact yields_ok .refused
        · apply (ih insideOthers slotsAfter sizesAfter _).bind
          rintro ⟨after, returned⟩ outcome
          refine yields_ok (outcome.map (content :: ·) ?_)
          intro after rest sameRest
          exact ⟨.cons agrees sameRest.same, by simp [sameRest.sameSizes],
            by simp [sameRest.sameSlots]⟩

/-- A line has what a raw line has, and the size and shape of another line. -/
def SameLine (sizes : List Size) (old : Line Block) (content : RawLine RawBlock)
    (line : Line Block) : Prop :=
  content.Agrees Represents sizes line ∧ line.size = old.size ∧ line.shape = old.shape

/-- Offering to a line does not fail if offering to its blocks does not. -/
theorem insertIntoLine_yields (same : rawDropped.Represents dropped)
    {content : RawLine RawBlock} {sizes : List Size} {line : Line Block}
    (agrees : content.Agrees Represents sizes line)
    (inside : ∀ position child, line.child? position = some child → ∀ raw : RawBlock,
      raw.Represents child → SameOffers style rawDropped dropped raw child)
    {format : BlockFormat} {lineSizes : List Size} {cellSizes : List (List Size)} {index : Nat}
    (atFormat : format.lines[index]? = some line.shape)
    (atSize : lineSizes[index]? = some line.size) (atRow : cellSizes[index]? = some sizes)
    (x y : Float32) :
    Yields (SamePart content rawDropped (SameLine sizes line))
      (insertIntoLine style format lineSizes cellSizes rawDropped x y index content)
      (Block.offerLine style dropped x y line) := by
  cases agrees with
  | @columns contents _ cells size sameContents sameSizes =>
      have slots : (format.slotsOfLine index).drop 0 = cells.map Cell.slot := by
        simp [BlockFormat.slotsOfLine, atFormat, Line.shape, FormatLine.slots]
      have sizesOfFormat : ((List.range (format.columnCount index)).map
          (cellSize cellSizes index)).drop 0 = cells.map Cell.size := by
        have sameCount : format.columnCount index = sizes.length := by
          rw [sameSizes, List.length_map, ← List.length_map (f := Cell.slot), ← slots]
          rfl
        rw [List.drop_zero, ← sameSizes]
        apply List.ext_getElem (by simp [sameCount])
        intro column _ inRange
        simp [cellSize, atRow, inRange]
      have insideCells : ∀ cell ∈ cells, ∀ child, cell.content = .block child →
          ∀ raw : RawBlock, raw.Represents child →
            SameOffers style rawDropped dropped raw child := by
        intro cell cellMem child holds
        rcases List.getElem?_of_mem cellMem with ⟨column, found⟩
        exact inside column child (by simp [found, holds])
      simp only [insertIntoLine, item_eq_ok atSize, ok_bind, Block.offerLine]
      split
      · exact yields_ok .refused
      · apply (insertIntoContents_yields same sameContents insideCells slots sizesOfFormat
          _ _ _ _).bind
        rintro ⟨after, returned⟩ outcome
        refine yields_ok (outcome.map RawLine.columns ?_)
        intro after cells sameCells
        exact ⟨.columns sameCells.same (by rw [sameSizes, sameCells.sameSizes]), rfl,
          by simp [Line.shape, sameCells.sameSlots]⟩
  | @stack raws _ children size sameStack =>
      have insideStack : ∀ child ∈ children, ∀ raw : RawBlock, raw.Represents child →
          SameOffers style rawDropped dropped raw child := by
        intro child childMem
        rcases List.getElem?_of_mem childMem with ⟨position, found⟩
        exact inside position child found
      simp only [insertIntoLine, item_eq_ok atSize, ok_bind, Block.offerLine]
      apply (insertIntoStack_yields same sameStack insideStack _ _ 0 []).bind
      rintro _ ⟨rest, rfl, sameRest⟩
      exact yields_ok (.taken ⟨.stack sameRest, rfl, rfl⟩)

/-- Lines have what raw lines have, and the sizes and shapes of other lines. -/
structure SameLines (rows : List (List Size)) (old : List (Line Block))
    (contents : List (RawLine RawBlock)) (lines : List (Line Block)) : Prop where
  agree : RawLine.AllAgree Represents contents rows lines
  sameSizes : lines.map Line.size = old.map Line.size
  sameShape : lines.map Line.shape = old.map Line.shape

/-- The walk along the lines of a block, from a line on. -/
theorem insertIntoLines_yields (same : rawDropped.Represents dropped)
    {contents : List (RawLine RawBlock)} {rows : List (List Size)} {lines : List (Line Block)}
    (agree : RawLine.AllAgree Represents contents rows lines)
    (inside : ∀ line ∈ lines, ∀ position child, line.child? position = some child →
      ∀ raw : RawBlock, raw.Represents child → SameOffers style rawDropped dropped raw child)
    {format : BlockFormat} {lineSizes : List Size} {cellSizes : List (List Size)} {index : Nat}
    (shape : format.lines.drop index = lines.map Line.shape)
    (sizes : lineSizes.drop index = lines.map Line.size) (sameRows : cellSizes.drop index = rows)
    (x y top : Float32) :
    Yields (SamePart contents rawDropped (SameLines rows lines))
      (insertIntoLines style format lineSizes cellSizes rawDropped x y index top contents)
      (Block.offerLines style dropped x y top lines) := by
  induction agree generalizing index top with
  | nil => exact yields_ok .refused
  | @cons content row line contents rows lines agrees others ih =>
      rcases List.forall_mem_cons.mp inside with ⟨here, insideOthers⟩
      rcases of_drop_eq_cons shape with ⟨atFormat, shapeAfter⟩
      rcases of_drop_eq_cons sizes with ⟨atSize, sizesAfter⟩
      rcases of_drop_eq_cons sameRows with ⟨atRow, rowsAfter⟩
      simp only [insertIntoLines, item_eq_ok atSize, ok_bind, Block.offerLines]
      split
      · apply (insertIntoLine_yields same agrees here atFormat atSize atRow _ _).bind
        rintro ⟨after, returned⟩ outcome
        refine yields_ok (outcome.map (· :: contents) ?_)
        rintro after line ⟨agrees, sameSize, sameShape⟩
        exact ⟨.cons agrees others, by simp [sameSize], by simp [sameShape]⟩
      · apply (ih insideOthers shapeAfter sizesAfter rowsAfter _).bind
        rintro ⟨after, returned⟩ outcome
        refine yields_ok (outcome.map (content :: ·) ?_)
        intro after rest sameRest
        exact ⟨.cons agrees sameRest.agree, by simp [sameRest.sameSizes],
          by simp [sameRest.sameShape]⟩

/-- Offering a block, with the choice between the stacks spelled out. -/
theorem offer_eq (style : Style) (dropped : Block) (x y : Float32) (block : Block) :
    Block.offer style dropped x y block =
      if y ≤ 0 then .above
      else if block.size.height ≤ y then .below
      else if x < 0 then (if y < block.size.height / 2 then .above else .below)
      else
        match Block.offerLines style dropped x y 0 block.lines with
        | some lines => .taken ({ block with lines }.measured style)
        | none =>
          chosenOffer style dropped block
            (chooseStack y block.size.height none (stackSpans 0 0 block.lines)) := by
  cases block
  rfl

/-- In a raw block that represents a block a drop finds every size and place that it uses, and has
the outcome of the drop on the block. -/
theorem Represents.probeInsert (represents : raw.Represents block)
    (same : rawDropped.Represents dropped) (style : Style) :
    SameOffers style rawDropped dropped raw block := by
  induction block using Block.induction generalizing raw with
  | inside block ih =>
      intro x y
      rcases raw with ⟨format, lines, size, lineSizes, cellSizes⟩
      have insideLines : ∀ line ∈ block.lines, ∀ position child,
          line.child? position = some child → ∀ raw : RawBlock, raw.Represents child →
            SameOffers style rawDropped dropped raw child := by
        intro line lineMem position child found raw represents
        rcases List.getElem?_of_mem lineMem with ⟨index, atLine⟩
        exact ih ⟨index, position⟩ child (by simp [Block.child?, atLine, found]) represents
      have sameShape : format.lines.drop 0 = block.lines.map Line.shape :=
        (congrArg BlockFormat.lines represents.format).trans represents.shape.symm
      have sameSize : size = block.size := represents.size
      rw [RawBlock.probeInsert, offer_eq, ← sameSize]
      split
      · exact yields_ok .above
      · split
        · exact yields_ok .below
        · split
          · split
            · exact yields_ok .above
            · exact yields_ok .below
          · apply (insertIntoLines_yields same represents.lines insideLines sameShape
              represents.lineSizes rfl x y 0).bind
            rintro ⟨after, returned⟩ outcome
            generalize Block.offerLines style dropped x y 0 block.lines = offer at outcome ⊢
            cases outcome with
            | refused =>
                have walked := represents.betweenStacks same style y (List.drop_zero ..) 0 none
                rw [← represents.lines.length_raws, ← sameSize] at walked
                exact walked
            | @taken _ linesAfter sameLines =>
                have filled : RawBlock.Represents ⟨format, after, size, lineSizes, cellSizes⟩
                    { block with lines := linesAfter } :=
                  .intro represents.format represents.size
                    (sameLines.sameShape.trans represents.shape)
                    (represents.lineSizes.trans sameLines.sameSizes.symm) sameLines.agree
                apply (filled.measured style).bind
                intro measured sameMeasured
                exact yields_ok (.taken sameMeasured)

end RawBlock

end BlockEditor
