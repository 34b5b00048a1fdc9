import BlockEditor.Proofs.Block.Edit

/-!
# Putting a block into a free place

A `Place` is a new place of a stack, or a column. `Place.Fills` says that a block becomes another
one by a block that is put into a place of it: the place is free and nothing else changes.
`Block.Put` says the same of a place of the block at the end of a path; then the blocks on the way
are measured too. What a `Put` leaves alone, and how it is taken back, follows from the theory of
edits along a path.
-/

namespace BlockEditor

/-- A place for one more block directly inside a block. -/
inductive Place where
  /-- A place in the stack on a line. -/
  | inStack (line index : Nat)
  /-- A column of the row on a line. -/
  | inColumn (line column : Nat)

namespace Place

/-- The step to the block in a place. -/
def step : Place → Step
  | .inStack line index => ⟨line, index⟩
  | .inColumn line column => ⟨line, column⟩

/-- The step that leads, once the place has been filled, to where another step led before. -/
def moved (place : Place) (other : Step) : Step :=
  match place with
  | .inStack line index =>
    if other.line = line ∧ index ≤ other.position then ⟨line, other.position + 1⟩ else other
  | .inColumn _ _ => other

/-- The edit that puts a block into a place. -/
def put (dropped : Block) : Place → Block.Edit
  | .inStack line index => .insertChild line index dropped
  | .inColumn line column => .placeChild line column dropped

/-- A block becomes another one when a dropped block is put into a free place of it: a place up to
the end of a stack, or an empty column of a kind that takes the dropped block. -/
inductive Fills (style : Style) (dropped block : Block) : Place → Block → Prop where
  /-- A stack with one more block. -/
  | stack {line index : Nat} {children : List Block} {size : Size}
      (atLine : block.lines[line]? = some (.stack children size))
      (inRange : index ≤ children.length) :
      Fills style dropped block (.inStack line index)
        ((block.setLine line (.stack (children.insertIdx index dropped) size)).measured style)
  /-- A column that is no longer empty. -/
  | column {line column : Nat} {kind : ColumnKind} {size : Size}
      (atCell : block.cell? line column = some (.column kind .empty size))
      (fits : dropped.format.fitsColumn kind = true) :
      Fills style dropped block (.inColumn line column)
        ((block.setContent line column (.block dropped)).measured style)

namespace Fills

open Block

variable {style : Style} {dropped block filled : Block} {place : Place}

/-- The call for a place puts the block there, and nothing is handed back. -/
theorem apply_put (fills : place.Fills style dropped block filled) :
    (place.put dropped).apply style block = (filled, none) := by
  cases fills with
  | stack atLine inRange =>
      simp [put, Edit.apply, insertChild, atLine, Nat.min_eq_left inRange]
  | column atCell fits =>
      simp [put, Edit.apply, placeChild, atCell, fits, Content.isEmpty]

theorem isMeasured (fills : place.Fills style dropped block filled) : filled.IsMeasured style := by
  cases fills <;> exact isMeasured_measured style _

/-- The block that was put is a step away. -/
theorem child?_step (fills : place.Fills style dropped block filled) :
    filled.child? place.step = some dropped := by
  cases fills with
  | stack atLine inRange =>
      rcases List.getElem?_eq_some_iff.mp atLine with ⟨lineInRange, _⟩
      simp [step, child?_setLine, lineInRange, inRange, List.getElem?_insertIdx_self]
  | column atCell fits =>
      simp [step, child?_setContent atCell]

/-- The blocks that were directly inside keep their order. -/
theorem child?_moved (fills : place.Fills style dropped block filled) {other : Step}
    {sibling : Block} (found : block.child? other = some sibling) :
    filled.child? (place.moved other) = some sibling := by
  rcases other with ⟨otherLine, position⟩
  cases fills with
  | @stack line index children size atLine inRange =>
      rcases List.getElem?_eq_some_iff.mp atLine with ⟨lineInRange, _⟩
      rw [child?_measured, moved]
      by_cases sameLine : otherLine = line
      · subst otherLine
        have inStack : children[position]? = some sibling := by simpa [child?, atLine] using found
        by_cases behind : index ≤ position
        · simp [behind, child?_setLine, lineInRange, inStack,
            List.getElem?_insertIdx_of_gt (Nat.lt_succ_of_le behind)]
        · simp [behind, child?_setLine, lineInRange, inStack,
            List.getElem?_insertIdx_of_lt (Nat.lt_of_not_le behind)]
      · simp [sameLine, child?_setLine, lineInRange, found]
  | @column line column kind size atCell fits =>
      have notHere : (⟨otherLine, position⟩ : Step) ≠ ⟨line, column⟩ := by
        intro same
        rw [same, child?_of_cell? atCell] at found
        cases found
      simp [moved, child?_setContent atCell, notHere, found]

/-- Taking the block out of the place again gives back the block. -/
theorem takeChild_step (fills : place.Fills style dropped block filled)
    (isMeasured : block.IsMeasured style) :
    filled.takeChild style place.step = (block, some dropped) := by
  have reached := fills.child?_step
  cases fills with
  | @stack line index children size atLine inRange =>
      have afterwards :=
        getElem?_measured_setLine style atLine (.stack (children.insertIdx index dropped) size)
      refine (takeChild_of_stack reached afterwards).trans ?_
      rw [step, List.eraseIdx_insertIdx_self, measured_setLine_undo isMeasured atLine]
      rfl
  | @column line column kind size atCell fits =>
      rcases cell?_eq_some atCell with ⟨cells, rowSize, atLine, inRow⟩
      rw [setContent_eq_setLine atLine] at reached ⊢
      have afterwards := getElem?_measured_setLine style atLine
        (.columns (cells.modify column (·.withContent (.block dropped))) rowSize)
      have restored : (((cells.modify column (·.withContent (.block dropped))).map
          (Cell.measured style)).modify column (·.withContent .empty)).map (Cell.measured style) =
            cells.map (Cell.measured style) := by
        apply map_modify_map_modify (Cell.measured_measured style)
        intro cell atColumn
        cases inRow.symm.trans atColumn
        rfl
      -- The row was measured in between, which changes sizes only.
      refine (takeChild_of_columns reached afterwards).trans ?_
      rw [step, measured_setLine_undo isMeasured atLine]
      simp only [Line.measured, restored]

end Fills

end Place

namespace Block

variable {style : Style} {dropped block after changed child : Block} {place : Place}
  {owner : List Step}

/-- One block is another one with a dropped block in a free place of the block at the end of a
path, measured along the path. -/
def Put (style : Style) (dropped : Block) (owner : List Step) (place : Place)
    (block after : Block) : Prop :=
  ∃ target filled, block.descendant? owner = some target ∧
    place.Fills style dropped target filled ∧
    updateAt style ((place.put dropped).apply style) owner block = some (after, none)

theorem put_here (fills : place.Fills style dropped block after) :
    Put style dropped [] place block after := by
  refine ⟨block, after, rfl, fills, ?_⟩
  simp only [updateAt, fills.apply_put]
  rw [fills.isMeasured]

/-- Putting into a child is putting into the block around it, which is measured. -/
theorem Put.inside {step : Step} (found : block.child? step = some child)
    (put : Put style dropped owner place child changed) :
    Put style dropped (step :: owner) place block
      ((block.setChild step changed).measured style) := by
  rcases put with ⟨target, filled, reached, fills, updated⟩
  refine ⟨target, filled, by simp [found, reached], fills, ?_⟩
  exact updateAt_cons_eq_some.mpr ⟨child, changed, found, updated, rfl⟩

/-- Putting below a step is putting into the child at the step. -/
theorem put_cons_iff {step : Step} :
    Put style dropped (step :: owner) place block after ↔
      ∃ child changed, block.child? step = some child ∧
        Put style dropped owner place child changed ∧
          after = (block.setChild step changed).measured style := by
  constructor
  · rintro ⟨target, filled, reached, fills, updated⟩
    rcases updateAt_cons_eq_some.mp updated with ⟨child, changed, found, inside, rfl⟩
    rw [descendant?_cons, found, Option.bind_some] at reached
    exact ⟨child, changed, found, ⟨target, filled, reached, fills, inside⟩, rfl⟩
  · rintro ⟨child, changed, found, put, rfl⟩
    exact put.inside found

/-- The owner of a place is filled at its path. -/
theorem Put.target (put : Put style dropped owner place block after) :
    ∃ target filled, block.descendant? owner = some target ∧
      place.Fills style dropped target filled ∧ after.descendant? owner = some filled := by
  rcases put with ⟨target, filled, reached, fills, updated⟩
  rcases updateAt_target updated with ⟨other, otherReached, _, afterwards⟩
  cases reached.symm.trans otherReached
  rw [fills.apply_put, fills.isMeasured] at afterwards
  exact ⟨target, filled, reached, fills, afterwards⟩

theorem put_nil_iff :
    Put style dropped [] place block after ↔ place.Fills style dropped block after := by
  refine ⟨?_, put_here⟩
  intro put
  rcases put.target with ⟨target, filled, found, fills, afterwards⟩
  cases found
  cases afterwards
  exact fills

/-- The dropped block is in its place. -/
theorem Put.reached (put : Put style dropped owner place block after) :
    after.descendant? (owner ++ [place.step]) = some dropped := by
  rcases put.target with ⟨target, filled, _, fills, afterwards⟩
  simp [descendant?_append, afterwards, fills.child?_step]

/-- Blocks next to the place and everything in them stay as they are. -/
theorem Put.beside (put : Put style dropped owner place block after) {step : Step}
    {rest : List Step} {inner : Block}
    (found : block.descendant? (owner ++ step :: rest) = some inner) :
    after.descendant? (owner ++ place.moved step :: rest) = some inner := by
  rcases put.target with ⟨target, filled, reached, fills, afterwards⟩
  rw [descendant?_append, reached, Option.bind_some, descendant?_cons,
    Option.bind_eq_some_iff] at found
  rcases found with ⟨sibling, atStep, found⟩
  simp [descendant?_append, afterwards, fills.child?_moved atStep, found]

/-- What is neither on the way to the owner nor inside it is left as it is. -/
theorem Put.apart (put : Put style dropped owner place block after) {other : List Step}
    (notAbove : ¬other <+: owner) (notBelow : ¬owner <+: other) :
    after.descendant? other = block.descendant? other := by
  rcases put with ⟨_, _, _, _, updated⟩
  exact descendant?_updateAt_of_apart updated notAbove notBelow

/-- A block on the way to the owner has a child changed and is measured. -/
theorem Put.above {upper lower : List Step} {step : Step} {old : Block}
    (put : Put style dropped (upper ++ step :: lower) place block after)
    (found : block.descendant? upper = some old) :
    ∃ changed, after.descendant? (upper ++ [step]) = some changed ∧
      after.descendant? upper = some ((old.setChild step changed).measured style) := by
  rcases put with ⟨_, _, _, _, updated⟩
  rcases descendant?_updateAt_of_above updated found with ⟨child, changed, atStep, afterwards⟩
  refine ⟨changed, ?_, afterwards⟩
  simp [descendant?_append, afterwards, child?_setChild atStep]

/-- If the layout is current, taking the dropped block out gives back the block. -/
theorem Put.undo (put : Put style dropped owner place block after)
    (current : block.Everywhere (IsMeasured style)) :
    updateAt style (takeChild style place.step) owner after = some (block, some dropped) := by
  rcases put with ⟨target, filled, reached, fills, updated⟩
  have isMeasured : target.IsMeasured style := (current.descendant reached).here
  have restored : takeChild style place.step
      (((place.put dropped).apply style target).1.measured style) = (target, some dropped) := by
    rw [fills.apply_put, fills.isMeasured]
    exact fills.takeChild_step isMeasured
  refine (updateAt_undo current updated reached ?_).trans ?_
  · rw [restored]
    exact isMeasured
  · rw [restored]

namespace Invariant

variable {Holds : Style → Block → Prop} (invariant : Invariant Holds)

include invariant

/-- Putting a block keeps an invariant that holds in this block. -/
theorem everywhere_put (brought : dropped.Everywhere (Holds style))
    (put : Put style dropped owner place block after)
    (everywhere : block.Everywhere (Holds style)) : after.Everywhere (Holds style) := by
  rcases put with ⟨_, _, _, _, updated⟩
  refine invariant.everywhere_updateAt (Edit.format_apply style _) ?_ updated everywhere
  intro inner innerEverywhere
  refine (invariant.everywhere_apply _ ?_ innerEverywhere).1
  intro child handed
  cases place with
  | inStack line index =>
      cases handed
      exact brought
  | inColumn line column =>
      cases handed
      exact brought

end Invariant

end Block

end BlockEditor
