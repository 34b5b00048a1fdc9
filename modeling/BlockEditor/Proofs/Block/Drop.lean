import BlockEditor.Proofs.Block.Place
import BlockEditor.Proofs.Block.Stacks

/-!
# Where a dropped block goes

For every point there is one spot to which blocks that fit the same columns are all sent when they
are offered there (`Block.offer_spot`): a free place of the block at the end of a path, or a side of
the block that refuses them. In particular a block that takes a dropped one has put it into a free
place of itself or of a block nested in it, and has done nothing else (`Block.offer_taken`).
-/

namespace BlockEditor

namespace Block

variable {style : Style} {dropped block after : Block} {x y top : Float32}

/-- Where a block sends one that it is offered. On the way down the dropped block is only asked for
the columns that it fits, so the blocks that fit the same columns are all sent to the same spot, and
each layer of the recursion is treated for all of them at once. -/
inductive Spot where
  /-- Above itself. -/
  | above
  /-- Below itself. -/
  | below
  /-- To a place of the block at the end of a path. -/
  | inside (owner : List Step) (place : Place)

/-- An answer sends the dropped block to a spot. -/
def SentTo (style : Style) (dropped block : Block) (answer : Offer) : Spot → Prop
  | .above => answer = .above
  | .below => answer = .below
  | .inside owner place =>
    ∃ after, answer = .taken after ∧ Put style dropped owner place block after

/-- The blocks that fit certain columns are all sent to the same spot if they are offered at the
same point. -/
def HasSpots (style : Style) (fits : ColumnKind → Bool) (block : Block) : Prop :=
  ∀ x y, ∃ spot, ∀ dropped : Block, dropped.format.fitsColumn = fits →
    SentTo style dropped block (offer style dropped x y block) spot

/-- The blocks that fit certain columns are all refused, or all put into the same place. -/
def Lands (style : Style) (fits : ColumnKind → Bool) (block : Block)
    (result : Block → Option Block) : Prop :=
  (∀ dropped, dropped.format.fitsColumn = fits → result dropped = none) ∨
    ∃ owner place, ∀ dropped, dropped.format.fitsColumn = fits →
      ∃ after, result dropped = some after ∧ Put style dropped owner place block after

variable {fits : ColumnKind → Bool}

/-- A stack gets the dropped block between two blocks, or one of its blocks takes it. -/
theorem offerStack_spot {children : List Block}
    (spots : ∀ child ∈ children, HasSpots style fits child) (x y top : Float32) :
    (∃ index, index ≤ children.length ∧ ∀ dropped, dropped.format.fitsColumn = fits →
        offerStack style dropped x y top children = children.insertIdx index dropped) ∨
      ∃ index child owner place, children[index]? = some child ∧
        ∀ dropped, dropped.format.fitsColumn = fits → ∃ changed,
          Put style dropped owner place child changed ∧
            offerStack style dropped x y top children = children.set index changed := by
  induction children generalizing top with
  | nil => exact .inl ⟨0, Nat.le_refl 0, fun _ _ => rfl⟩
  | cons child rest ih =>
      rw [List.forall_mem_cons] at spots
      rcases spots.1 x (y - top) with ⟨_ | _ | ⟨owner, place⟩, sent⟩
      · refine .inl ⟨0, Nat.zero_le _, ?_⟩
        intro dropped sameFits
        have above : offer style dropped x (y - top) child = .above := sent dropped sameFits
        simp [offerStack, above]
      · have below : ∀ dropped : Block, dropped.format.fitsColumn = fits →
            offer style dropped x (y - top) child = .below := sent
        rcases ih spots.2 (top + (child.size.height + style.config.elementPaddingVertical)) with
          ⟨index, inRange, placed⟩ | ⟨index, inner, owner, place, found, placed⟩
        · refine .inl ⟨index + 1, Nat.succ_le_succ inRange, ?_⟩
          intro dropped sameFits
          simp [offerStack, below dropped sameFits, placed dropped sameFits]
        · refine .inr ⟨index + 1, inner, owner, place, found, ?_⟩
          intro dropped sameFits
          rcases placed dropped sameFits with ⟨changed, put, placed⟩
          exact ⟨changed, put, by simp [offerStack, below dropped sameFits, placed]⟩
      · refine .inr ⟨0, child, owner, place, rfl, ?_⟩
        intro dropped sameFits
        rcases sent dropped sameFits with ⟨changed, taken, put⟩
        exact ⟨changed, put, by simp [offerStack, taken]⟩

/-- A cell takes the dropped block if it is a free column of a fitting kind, or its block does. -/
theorem offerCell_spot {cell : Cell Block}
    (spots : ∀ child, cell.content.block? = some child → HasSpots style fits child)
    (x y : Float32) :
    (∀ dropped, dropped.format.fitsColumn = fits → offerCell style dropped x y cell = none) ∨
      (∃ kind size, cell = .column kind .empty size ∧ fits kind = true ∧
        ∀ dropped, dropped.format.fitsColumn = fits →
          offerCell style dropped x y cell = some (cell.withContent (.block dropped))) ∨
      ∃ child owner place, cell.content.block? = some child ∧
        ∀ dropped, dropped.format.fitsColumn = fits → ∃ changed,
          Put style dropped owner place child changed ∧
            offerCell style dropped x y cell = some (cell.withContent (.block changed)) := by
  cases cell with
  | label text size => exact .inl fun _ _ => rfl
  | column kind content size =>
      cases content with
      | empty =>
          cases takes : fits kind with
          | false => exact .inl fun dropped sameFits => by simp [offerCell, sameFits, takes]
          | true =>
              refine .inr (.inl ⟨kind, size, rfl, takes, ?_⟩)
              intro dropped sameFits
              simp [offerCell, sameFits, takes, Cell.withContent]
      | literal text => exact .inl fun _ _ => rfl
      | block child =>
          rcases spots child rfl (x - style.config.elementPaddingHorizontal)
            (y - style.config.elementPaddingVertical) with ⟨_ | _ | ⟨owner, place⟩, sent⟩
          · refine .inl fun dropped sameFits => ?_
            have above : offer style dropped _ _ child = .above := sent dropped sameFits
            rw [offerCell, above]
          · refine .inl fun dropped sameFits => ?_
            have below : offer style dropped _ _ child = .below := sent dropped sameFits
            rw [offerCell, below]
          · refine .inr (.inr ⟨child, owner, place, rfl, ?_⟩)
            intro dropped sameFits
            rcases sent dropped sameFits with ⟨changed, taken, put⟩
            exact ⟨changed, put, by rw [offerCell, taken]; rfl⟩

/-- Which cell of a row is asked depends on the point only. -/
theorem offerCells_spot (style : Style) (x y lineHeight left : Float32)
    (cells : List (Cell Block)) :
    (∀ dropped, offerCells style dropped x y lineHeight left cells = none) ∨
      ∃ column cell innerX innerY, cells[column]? = some cell ∧
        ∀ dropped, offerCells style dropped x y lineHeight left cells =
          (offerCell style dropped innerX innerY cell).map (cells.set column ·) := by
  induction cells generalizing left with
  | nil => exact .inl fun _ => rfl
  | cons cell rest ih =>
      by_cases here : x ≤ left + cell.size.width
      · refine .inr ⟨0, cell, x - left, y - (lineHeight / 2 - cell.size.height / 2), rfl, ?_⟩
        intro dropped
        rw [offerCells, if_pos here]
        rfl
      by_cases between : x ≤ left + cell.size.width + style.config.innerPaddingHorizontal
      · exact .inl fun dropped => by rw [offerCells, if_neg here, if_pos between]
      rcases ih (left + cell.size.width + style.config.innerPaddingHorizontal) with
        refused | ⟨column, other, innerX, innerY, found, asked⟩
      · refine .inl fun dropped => ?_
        rw [offerCells, if_neg here, if_neg between, refused dropped, Option.map_none]
      · refine .inr ⟨column + 1, other, innerX, innerY, found, ?_⟩
        intro dropped
        rw [offerCells, if_neg here, if_neg between, asked dropped, Option.map_map]
        rfl

/-- Which line is asked depends on the point only. -/
theorem offerLines_spot (style : Style) (x y top : Float32) (lines : List (Line Block)) :
    (∀ dropped, offerLines style dropped x y top lines = none) ∨
      ∃ index line innerY, lines[index]? = some line ∧
        ∀ dropped, offerLines style dropped x y top lines =
          (offerLine style dropped x innerY line).map (lines.set index ·) := by
  induction lines generalizing top with
  | nil => exact .inl fun _ => rfl
  | cons line rest ih =>
      by_cases here : y ≤ top + line.size.height
      · refine .inr ⟨0, line, y - top, rfl, ?_⟩
        intro dropped
        rw [offerLines, if_pos here]
        rfl
      rcases ih (top + line.size.height) with refused | ⟨index, other, innerY, found, asked⟩
      · exact .inl fun dropped => by rw [offerLines, if_neg here, refused dropped, Option.map_none]
      · refine .inr ⟨index + 1, other, innerY, found, ?_⟩
        intro dropped
        rw [offerLines, if_neg here, asked dropped, Option.map_map]
        rfl

/-- What a line makes of an offer is a filled place or a changed block directly inside. -/
theorem offerLine_lands {index : Nat} {line : Line Block} (atLine : block.lines[index]? = some line)
    (spots : ∀ step child, block.child? step = some child → HasSpots style fits child)
    (x y : Float32) :
    Lands style fits block fun dropped =>
      (offerLine style dropped x y line).map fun lineAfter =>
        (block.setLine index lineAfter).measured style := by
  cases line with
  | columns cells size =>
      by_cases inPadding : x < style.config.innerPaddingHorizontal
      · exact .inl fun dropped _ => by simp [offerLine, inPadding]
      rcases offerCells_spot style x y size.height style.config.innerPaddingHorizontal cells with
        refused | ⟨column, cell, innerX, innerY, atColumn, asked⟩
      · exact .inl fun dropped _ => by simp [offerLine, inPadding, refused dropped]
      have spotsInside : ∀ child, cell.content.block? = some child → HasSpots style fits child := by
        intro child holds
        exact spots ⟨index, column⟩ child (by simp [child?, atLine, atColumn, holds])
      rcases offerCell_spot spotsInside innerX innerY with
        refused | ⟨kind, cellSize, rfl, takes, placed⟩ | ⟨child, owner, place, holds, placed⟩
      · exact .inl fun dropped sameFits => by
          simp [offerLine, inPadding, asked dropped, refused dropped sameFits]
      · refine .inr ⟨[], .inColumn index column, ?_⟩
        intro dropped sameFits
        have atCell : block.cell? index column = some (.column kind .empty cellSize) := by
          simp [cell?, atLine, Line.cell?, atColumn]
        have put : Put style dropped [] (.inColumn index column) block _ :=
          put_here (.column atCell (by rw [sameFits, takes]))
        rw [setContent_eq_setLine atLine, modify_eq_set atColumn] at put
        exact ⟨_, by simp [offerLine, inPadding, asked dropped, placed dropped sameFits], put⟩
      · refine .inr ⟨⟨index, column⟩ :: owner, place, ?_⟩
        intro dropped sameFits
        rcases placed dropped sameFits with ⟨changed, put, placed⟩
        have found : block.child? ⟨index, column⟩ = some child := by
          simp [child?, atLine, atColumn, holds]
        have wrapped := put.inside found
        rw [setChild_eq_setLine atLine, Line.setChild, modify_eq_set atColumn] at wrapped
        exact ⟨_, by simp [offerLine, inPadding, asked dropped, placed], wrapped⟩
  | stack children size =>
      have spotsInside : ∀ child ∈ children, HasSpots style fits child := by
        intro child childMem
        rcases List.getElem?_of_mem childMem with ⟨position, inStack⟩
        exact spots ⟨index, position⟩ child (by simp [child?, atLine, inStack])
      rcases offerStack_spot spotsInside
        (x - style.config.elementPaddingHorizontal - style.config.emptyLineWidth)
        (y - style.config.elementPaddingVertical) 0 with
        ⟨position, inRange, placed⟩ | ⟨position, child, owner, place, inStack, placed⟩
      · refine .inr ⟨[], .inStack index position, ?_⟩
        intro dropped sameFits
        exact ⟨_, by simp [offerLine, placed dropped sameFits],
          put_here (.stack atLine inRange)⟩
      · refine .inr ⟨⟨index, position⟩ :: owner, place, ?_⟩
        intro dropped sameFits
        rcases placed dropped sameFits with ⟨changed, put, placed⟩
        have found : block.child? ⟨index, position⟩ = some child := by
          simp [child?, atLine, inStack]
        have wrapped := put.inside found
        rw [setChild_eq_setLine atLine, Line.setChild] at wrapped
        exact ⟨_, by simp [offerLine, placed], wrapped⟩

/-- What no line has taken goes above or below the block or to an end of a stack. -/
theorem offerStacks_spot (style : Style) (y : Float32) (block : Block) :
    ∃ spot, ∀ dropped, SentTo style dropped block (offerStacks style dropped y block) spot := by
  cases chosen : chooseStack y block.size.height none (stackSpans 0 0 block.lines) with
  | above => exact ⟨.above, fun dropped => by simp [SentTo, offerStacks, chosen]⟩
  | below => exact ⟨.below, fun dropped => by simp [SentTo, offerStacks, chosen]⟩
  | first line =>
      rcases stack_of_chooseStack (.inl chosen) with ⟨children, size, atLine⟩
      refine ⟨.inside [] (.inStack line 0), fun dropped => ⟨_, ?_, put_here (.stack atLine ?_)⟩⟩
      · simp [offerStacks, chosen, insertChild, atLine, answerOf]
      · exact Nat.zero_le _
  | last line =>
      rcases stack_of_chooseStack (.inr chosen) with ⟨children, size, atLine⟩
      refine ⟨.inside [] (.inStack line children.length),
        fun dropped => ⟨_, ?_, put_here (.stack atLine ?_)⟩⟩
      · simp [offerStacks, chosen, pushChild, atLine, answerOf]
      · exact Nat.le_refl _

/-- Where a block sends one that is offered to it at a point depends only on the columns that the
dropped block fits. -/
theorem offer_spot (style : Style) (fits : ColumnKind → Bool) (block : Block) :
    HasSpots style fits block := by
  induction block using Block.induction with
  | inside block spots =>
      intro x y
      rcases block with ⟨format, lines, size⟩
      -- The tests of the point ask nothing of the dropped block, so each case is decided for all
      -- blocks before one is chosen.
      by_cases aboveEdge : y ≤ 0
      · exact ⟨.above, fun dropped _ => by rw [offer, if_pos aboveEdge]; rfl⟩
      by_cases belowEdge : size.height ≤ y
      · exact ⟨.below, fun dropped _ => by rw [offer, if_neg aboveEdge, if_pos belowEdge]; rfl⟩
      by_cases leftOfEdge : x < 0
      · by_cases inUpperHalf : y < size.height / 2
        · refine ⟨.above, fun dropped _ => ?_⟩
          rw [offer, if_neg aboveEdge, if_neg belowEdge, if_pos leftOfEdge, if_pos inUpperHalf]
          rfl
        · refine ⟨.below, fun dropped _ => ?_⟩
          rw [offer, if_neg aboveEdge, if_neg belowEdge, if_pos leftOfEdge, if_neg inUpperHalf]
          rfl
      have lands : Lands style fits ⟨format, lines, size⟩ fun dropped =>
          (offerLines style dropped x y 0 lines).map fun linesAfter =>
            (⟨format, linesAfter, size⟩ : Block).measured style := by
        rcases offerLines_spot style x y 0 lines with refused | ⟨index, line, innerY, atLine, asked⟩
        · exact .inl fun dropped _ => by simp [refused dropped]
        · simp only [asked, Option.map_map]
          exact offerLine_lands atLine spots x innerY
      rcases lands with refused | ⟨owner, place, landed⟩
      · rcases offerStacks_spot style y ⟨format, lines, size⟩ with ⟨spot, sent⟩
        refine ⟨spot, fun dropped sameFits => ?_⟩
        have notTaken := Option.map_eq_none_iff.mp (refused dropped sameFits)
        rw [offer, if_neg aboveEdge, if_neg belowEdge, if_neg leftOfEdge, notTaken]
        exact sent dropped
      · refine ⟨.inside owner place, fun dropped sameFits => ?_⟩
        rcases landed dropped sameFits with ⟨after, taken, put⟩
        rcases Option.map_eq_some_iff.mp taken with ⟨linesAfter, offered, rfl⟩
        refine ⟨_, ?_, put⟩
        rw [offer, if_neg aboveEdge, if_neg belowEdge, if_neg leftOfEdge, offered]

/-- A block that takes a dropped one has put it into a free place of itself or of a block nested in
it, and has done nothing else. -/
theorem offer_taken (taken : offer style dropped x y block = .taken after) :
    ∃ owner place, Put style dropped owner place block after := by
  rcases offer_spot style dropped.format.fitsColumn block x y with ⟨_ | _ | ⟨owner, place⟩, sent⟩
  · cases taken.symm.trans (sent dropped rfl)
  · cases taken.symm.trans (sent dropped rfl)
  · rcases sent dropped rfl with ⟨other, otherTaken, put⟩
    cases taken.symm.trans otherTaken
    exact ⟨owner, place, put⟩

namespace Invariant

variable {Holds : Style → Block → Prop} (invariant : Invariant Holds)

include invariant

theorem everywhere_offerStack {children : List Block} (brought : dropped.Everywhere (Holds style))
    (x y top : Float32) (everywhere : ∀ child ∈ children, child.Everywhere (Holds style)) :
    ∀ child ∈ offerStack style dropped x y top children, child.Everywhere (Holds style) := by
  have spots : ∀ child ∈ children, HasSpots style dropped.format.fitsColumn child :=
    fun child _ => offer_spot style _ child
  rcases offerStack_spot spots x y top with
    ⟨index, inRange, placed⟩ | ⟨index, old, owner, place, found, placed⟩
  · rw [placed dropped rfl]
    intro child childMem
    rcases (List.mem_insertIdx inRange).mp childMem with rfl | childMem
    · exact brought
    · exact everywhere child childMem
  · rcases placed dropped rfl with ⟨changed, put, placed⟩
    rw [placed]
    intro child childMem
    rcases List.mem_or_eq_of_mem_set childMem with childMem | rfl
    · exact everywhere child childMem
    · exact invariant.everywhere_put brought put (everywhere old (List.mem_of_getElem? found))

end Invariant

end Block

end BlockEditor
