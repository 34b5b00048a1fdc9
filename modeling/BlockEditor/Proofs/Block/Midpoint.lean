import BlockEditor.Proofs.Block.Stacks

/-!
# Drops between stacks

If the line under a point does not take a dropped block, the point lies between two stacks: the
first one that reaches down to the point, and the last one before it. The middle between them
decides (`Block.offer_midpoint`). The upper and the lower edge of the block stand for stacks that
are not there, and on the side of such an edge the dropped block is handed back.
-/

namespace BlockEditor

namespace Block

variable {style : Style} {dropped block : Block} {x y top : Float32}

/-- Lines refuse a block exactly if the first line that reaches to the point refuses it. -/
theorem offerLines_eq_none_iff {lines : List (Line Block)} :
    offerLines style dropped x y top lines = none ↔
      ∀ index line, FirstReaching Line.height noGap top lines y index line →
        offerLine style dropped x (y - nearEdge Line.height noGap top lines index) line = none := by
  induction lines generalizing top with
  | nil =>
      refine ⟨fun _ index line under => ?_, fun _ => rfl⟩
      cases under.here
  | cons line rest ih =>
      rw [offerLines]
      split
      · rename_i reaches
        rw [Option.map_eq_none_iff]
        constructor
        · intro refused index other under
          cases index with
          | zero =>
              cases under.here
              exact refused
          | succ index => exact absurd reaches (under.first 0 line (Nat.succ_pos index) rfl)
        · intro refused
          exact refused 0 line (firstReaching_head reaches)
      · rename_i ends
        rw [Option.map_eq_none_iff, ih]
        constructor
        · intro refused index other under
          cases index with
          | zero =>
              cases under.here
              exact absurd under.reaches ends
          | succ index => exact refused index other under.tail
        · intro refused index other under
          exact refused (index + 1) other (firstReaching_cons ends under)

theorem offer_eq (notLeft : 0 ≤ x) (belowTop : 0 < y) (aboveBottom : y < block.size.height)
    (refused : offerLines style dropped x y 0 block.lines = none) :
    offer style dropped x y block = offerStacks style dropped y block := by
  cases block
  rw [offer, if_neg (Length.not_le_of_lt belowTop), if_neg (Length.not_le_of_lt aboveBottom),
    if_neg (Length.not_lt_of_le notLeft), refused]

/-- Around a block that refuses a dropped one, in a stack or in a column, both blocks stay as they
were. -/
structure HandsBack (style : Style) (dropped : Block) (x y : Float32) (block : Block) : Prop where
  /-- In a stack, the dropped block is put above the block. -/
  above : offer style dropped x y block = .above → ∀ rest inStack top, inStack - top = y →
    offerStack style dropped x inStack top (block :: rest) = dropped :: block :: rest
  /-- In a stack, the dropped block goes to what is below the block. -/
  below : offer style dropped x y block = .below → ∀ rest inStack top, inStack - top = y →
    offerStack style dropped x inStack top (block :: rest) =
      block :: offerStack style dropped x inStack
        (top + (block.size.height + style.config.elementPaddingVertical)) rest
  /-- A column with the block refuses the dropped block, too. -/
  column : (offer style dropped x y block = .above ∨ offer style dropped x y block = .below) →
    ∀ kind size inRow inColumn, inRow - style.config.elementPaddingHorizontal = x →
      inColumn - style.config.elementPaddingVertical = y →
        offerCell style dropped inRow inColumn (.column kind (.block block) size) = none

theorem handsBack (style : Style) (dropped : Block) (x y : Float32) (block : Block) :
    HandsBack style dropped x y block where
  above refused rest inStack top shifted := by rw [offerStack, shifted, refused]
  below refused rest inStack top shifted := by rw [offerStack, shifted, refused]
  column refused kind size inRow inColumn shiftedRight shiftedDown := by
    rcases refused with refused | refused <;> rw [offerCell, shiftedRight, shiftedDown, refused]

/-- If the line under a point inside a block does not take a dropped block, the middle between the
stack before the point and the next one decides. Up to the middle the dropped block becomes the last
one in the stack before, or is handed back to be placed above if there is no stack before. Beyond
the middle it becomes the first one in the next stack, or is handed back to be placed below if there
is no next stack. Whoever gets the two blocks back has them as they were. -/
theorem offer_midpoint (notLeft : 0 ≤ x) (belowTop : 0 < y) (aboveBottom : y < block.size.height)
    (refused : ∀ index line, LineUnder block.lines y index line →
      offerLine style dropped x (y - lineTop block.lines index) line = none) :
    (y ≤ stackMiddle block.lines block.size.height y →
        (previousStack? block.lines y = none → offer style dropped x y block = .above) ∧
          ∀ line, previousStack? block.lines y = some line →
            ∃ children size, block.lines[line]? = some (.stack children size) ∧
              offer style dropped x y block = .taken
                ((block.setLine line (.stack (children ++ [dropped]) size)).measured style)) ∧
      (¬y ≤ stackMiddle block.lines block.size.height y →
        (nextStack? block.lines y = none → offer style dropped x y block = .below) ∧
          ∀ line, nextStack? block.lines y = some line →
            ∃ children size, block.lines[line]? = some (.stack children size) ∧
              offer style dropped x y block = .taken
                ((block.setLine line (.stack (dropped :: children) size)).measured style)) ∧
      HandsBack style dropped x y block := by
  rw [offer_eq notLeft belowTop aboveBottom (offerLines_eq_none_iff.mpr refused), offerStacks,
    chooseStack_stackSpans]
  refine ⟨?_, ?_, handsBack style dropped x y block⟩
  · intro upToMiddle
    rw [if_pos upToMiddle]
    constructor
    · intro noStack
      simp [noStack]
    · intro line isPrevious
      rcases stack_of_previousStack? isPrevious with ⟨children, size, atLine⟩
      exact ⟨children, size, atLine, by simp [isPrevious, pushChild, atLine, answerOf]⟩
  · intro beyondMiddle
    rw [if_neg beyondMiddle]
    constructor
    · intro noStack
      simp [noStack]
    · intro line isNext
      rcases stack_of_nextStack? isNext with ⟨children, size, atLine⟩
      exact ⟨children, size, atLine, by simp [isNext, insertChild, atLine, answerOf]⟩

/-- Of two stacks with a row between them, the upper one takes what is dropped on the middle of the
row, and the lower one what is dropped below the middle. -/
theorem offer_midpoint_fork :
    ∃ (style : Style) (dropped block : Block), stackMiddle block.lines block.size.height 44 = 44 ∧
      (∃ children size, block.lines[0]? = some (.stack children size) ∧
        offer style dropped 5 44 block = .taken
          ((block.setLine 0 (.stack (children ++ [dropped]) size)).measured style)) ∧
      ∃ children size, block.lines[2]? = some (.stack children size) ∧
        offer style dropped 5 45 block = .taken
          ((block.setLine 2 (.stack (dropped :: children) size)).measured style) := by
  let style : Style := ⟨.standard, fun text => text⟩
  let dropped := fresh style (.plain "pi" 0 [.columns [.label "pi"]])
  let empty := fresh style (.plain "fork" 0 [.stack, .columns [.label "and"], .stack])
  let block := (empty.pushChild style 0 dropped).1
  have refusedOn : offerLines style dropped 5 44 0 block.lines = none :=
    Option.isNone_iff_eq_none.mp (by decide +kernel)
  have refusedBelow : offerLines style dropped 5 45 0 block.lines = none :=
    Option.isNone_iff_eq_none.mp (by decide +kernel)
  rcases offer_midpoint (by decide +kernel) (by decide +kernel) (by decide +kernel)
    (offerLines_eq_none_iff.mp refusedOn) with ⟨upper, _, _⟩
  rcases offer_midpoint (by decide +kernel) (by decide +kernel) (by decide +kernel)
    (offerLines_eq_none_iff.mp refusedBelow) with ⟨_, lower, _⟩
  have upperStack := (upper (by decide +kernel)).2 0 (by decide +kernel)
  have lowerStack := (lower (by decide +kernel)).2 2 (by decide +kernel)
  exact ⟨style, dropped, block, by decide +kernel, upperStack, lowerStack⟩

end Block

end BlockEditor
