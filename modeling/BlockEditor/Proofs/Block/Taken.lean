import BlockEditor.Proofs.Block.Outline
import BlockEditor.Proofs.Block.Place

/-!
# Taking a block out of its place

`Place.Empties` says that a block becomes another one when the block in a place of it is taken out:
a stack loses this place, or a column is empty, and nothing else changes. `Block.Taken` says the
same of a place of the block at the end of a path; then the blocks on the way are measured too.
Whatever a path leads to is in exactly one such place, and detaching takes it out of there
(`Block.detach_taken`).
-/

namespace BlockEditor

namespace Place

/-- A block becomes another one when the block in a place of it is taken out: the stack loses this
place, or the column is empty. -/
inductive Empties (style : Style) (taken block : Block) : Place → Block → Prop where
  /-- A stack with one block less. -/
  | stack {line index : Nat} {children : List Block} {size : Size}
      (atLine : block.lines[line]? = some (.stack children size))
      (atIndex : children[index]? = some taken) :
      Empties style taken block (.inStack line index)
        ((block.setLine line (.stack (children.eraseIdx index) size)).measured style)
  /-- A column that is empty now. -/
  | column {line column : Nat} {kind : ColumnKind} {size : Size}
      (atCell : block.cell? line column = some (.column kind (.block taken) size)) :
      Empties style taken block (.inColumn line column)
        ((block.setContent line column .empty).measured style)

open Block

variable {style : Style} {taken block left : Block} {place : Place} {step : Step}

/-- Every block that is a step away can be taken from a place there. -/
theorem exists_empties (style : Style) (found : block.child? step = some taken) :
    ∃ (place : Place) (left : Block), place.step = step ∧ place.Empties style taken block left := by
  rcases Option.bind_eq_some_iff.mp found with
    ⟨⟨cells, size⟩ | ⟨children, size⟩, atLine, inPosition⟩
  · rcases Option.bind_eq_some_iff.mp inPosition with ⟨_ | ⟨kind, content, size⟩, atColumn, holds⟩
    · cases holds
    · cases Content.block?_eq_some_iff.mp holds
      have atCell : block.cell? step.line step.position =
          some (.column kind (.block taken) size) := by
        simp [cell?, Line.cell?, atLine, atColumn]
      exact ⟨.inColumn step.line step.position, _, rfl, .column atCell⟩
  · exact ⟨.inStack step.line step.position, _, rfl, .stack atLine inPosition⟩

namespace Empties

theorem child?_step (empties : place.Empties style taken block left) :
    block.child? place.step = some taken := by
  cases empties with
  | stack atLine atIndex => simp [step, child?, atLine, atIndex]
  | column atCell => exact child?_of_cell? atCell

/-- Taking the child of a place empties the place. -/
theorem takeChild_step (empties : place.Empties style taken block left) :
    block.takeChild style place.step = (left, some taken) := by
  have found := empties.child?_step
  cases empties with
  | stack atLine atIndex => exact takeChild_of_stack found atLine
  | column atCell =>
      rcases cell?_eq_some atCell with ⟨cells, rowSize, atLine, _⟩
      rw [setContent_eq_setLine atLine]
      exact takeChild_of_columns found atLine

theorem isMeasured (empties : place.Empties style taken block left) : left.IsMeasured style := by
  cases empties <;> exact isMeasured_measured style _

/-- The other blocks directly inside keep their order. -/
theorem child?_moved (empties : place.Empties style taken block left) {other : Step}
    (different : place.moved other ≠ place.step) :
    left.child? other = block.child? (place.moved other) := by
  rcases other with ⟨otherLine, position⟩
  cases empties with
  | @stack line index children size atLine atIndex =>
      rcases List.getElem?_eq_some_iff.mp atLine with ⟨lineInRange, _⟩
      rw [child?_measured, child?_setLine _ _ _ _ lineInRange, moved]
      by_cases sameLine : otherLine = line
      · subst otherLine
        by_cases behind : index ≤ position
        · simp [behind, child?, atLine, List.getElem?_eraseIdx_of_ge behind]
        · simp [behind, child?, atLine, List.getElem?_eraseIdx_of_lt (Nat.lt_of_not_le behind)]
      · simp [sameLine]
  | @column line column kind size atCell =>
      rw [child?_measured, child?_setContent atCell, moved]
      exact if_neg different

end Empties

end Place

namespace Block

variable {style : Style} {taken block after : Block} {place : Place} {owner : List Step}

/-- One block is another one without the block in a place of the block at the end of a path,
measured along the path. -/
def Taken (style : Style) (taken : Block) (owner : List Step) (place : Place)
    (block after : Block) : Prop :=
  ∃ target left, block.descendant? owner = some target ∧
    place.Empties style taken target left ∧
    updateAt style (takeChild style place.step) owner block = some (after, some taken)

/-- A block that a path leads to is detached from the place that it is in. -/
theorem detach_taken (style : Style) {step : Step}
    (found : block.descendant? (owner ++ [step]) = some taken) :
    ∃ place, place.step = step ∧
      Taken style taken owner place block (block.detach style ⟨owner ++ [step]⟩).1 := by
  rw [descendant?_append, Option.bind_eq_some_iff] at found
  rcases found with ⟨target, reached, atStep⟩
  rw [descendant?_cons, Option.bind_eq_some_iff] at atStep
  rcases atStep with ⟨_, atStep, here⟩
  cases here
  rcases Place.exists_empties style atStep with ⟨place, left, rfl, empties⟩
  have edited : ∃ after, updateAt style (takeChild style place.step) owner block =
      some (after, (target.takeChild style place.step).2) := updateAt_exists _ reached
  rcases edited with ⟨after, updated⟩
  rw [empties.takeChild_step] at updated
  refine ⟨place, rfl, target, left, reached, empties, ?_⟩
  rw [detach_append, updated, Option.getD_some]

/-- The owner of the place is left without the block at its path. -/
theorem Taken.target (gone : Taken style taken owner place block after) :
    ∃ target left, block.descendant? owner = some target ∧
      place.Empties style taken target left ∧ after.descendant? owner = some left := by
  rcases gone with ⟨target, left, reached, empties, updated⟩
  rcases updateAt_target updated with ⟨other, otherReached, _, afterwards⟩
  cases reached.symm.trans otherReached
  rw [empties.takeChild_step, empties.isMeasured] at afterwards
  exact ⟨target, left, reached, empties, afterwards⟩

theorem Taken.reached (gone : Taken style taken owner place block after) :
    block.descendant? (owner ++ [place.step]) = some taken := by
  rcases gone with ⟨target, left, reached, empties, _⟩
  simp [descendant?_append, reached, empties.child?_step]

/-- Blocks next to the place and everything in them stay as they are. -/
theorem Taken.beside (gone : Taken style taken owner place block after) {step : Step}
    (different : place.moved step ≠ place.step) (rest : List Step) :
    after.descendant? (owner ++ step :: rest) =
      block.descendant? (owner ++ place.moved step :: rest) := by
  rcases gone.target with ⟨target, left, reached, empties, afterwards⟩
  simp [descendant?_append, reached, afterwards, empties.child?_moved different]

/-- What is neither on the way to the owner nor inside it is left as it is. -/
theorem Taken.apart (gone : Taken style taken owner place block after) {other : List Step}
    (notAbove : ¬other <+: owner) (notBelow : ¬owner <+: other) :
    after.descendant? other = block.descendant? other := by
  rcases gone with ⟨_, _, _, _, updated⟩
  exact descendant?_updateAt_of_apart updated notAbove notBelow

/-- A block on the way to the owner has a child changed, is measured and keeps its outline. -/
theorem Taken.above {upper lower : List Step} {step : Step} {old : Block}
    (gone : Taken style taken (upper ++ step :: lower) place block after)
    (found : block.descendant? upper = some old) :
    ∃ changed, after.descendant? (upper ++ [step]) = some changed ∧
      after.descendant? upper = some ((old.setChild step changed).measured style) ∧
      ((old.setChild step changed).measured style).outline = old.outline := by
  rcases gone with ⟨_, _, _, _, updated⟩
  rcases descendant?_updateAt_of_above updated found with ⟨child, changed, atStep, afterwards⟩
  refine ⟨changed, ?_, afterwards, ?_⟩
  · simp [descendant?_append, afterwards, child?_setChild atStep]
  · rw [outline_measured, outline_setChild atStep]

end Block

end BlockEditor
