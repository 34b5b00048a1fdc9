import BlockEditor.Proofs.Block.Change

/-!
# Edits along a path

`Block.updateAt` edits the block at the end of a path and measures the blocks on the way. This file
says what becomes of the other blocks: those off the path stay as they are, those on the way keep
everything but the block that the path goes through and their sizes, and an invariant of single
blocks is kept.
-/

namespace BlockEditor

variable {style : Style} {Answer Other : Type}

/-- Two changes at one position of a row cancel out if together they change no measured item. -/
theorem map_modify_map_modify {Item : Type} {measure first second : Item → Item}
    {items : List Item} {position : Nat}
    (idempotent : ∀ item, measure (measure item) = measure item)
    (cancel : ∀ item, items[position]? = some item →
      measure (second (measure (first item))) = measure item) :
    (((items.modify position first).map measure).modify position second).map measure =
      items.map measure := by
  apply List.ext_getElem?
  intro index
  by_cases same : position = index
  · subst index
    cases found : items[position]? with
    | none => simp [found]
    | some item => simp [found, cancel item found]
  · simp [same, Function.comp_def, idempotent]

namespace Line

theorem setChild_self {Child : Type} {line : Line Child} {position : Nat} {child : Child}
    (found : line.child? position = some child) : line.setChild position child = line := by
  cases line with
  | columns cells size =>
      rcases Option.bind_eq_some_iff.mp found with ⟨cell, atCell, holds⟩
      have same : cell.withContent (.block child) = cell := by
        cases cell with
        | label text size => rfl
        | column kind content size =>
            cases Content.block?_eq_some_iff.mp holds
            rfl
      rw [setChild, modify_eq_set atCell, same, set_eq_self atCell]
  | stack children size => rw [setChild, set_eq_self found]

theorem measured_setChild_undo {line : Line Block} {position : Nat} {child : Block}
    (found : line.child? position = some child) (new : Block) :
    (((line.setChild position new).measured style).setChild position child).measured style =
      line.measured style := by
  cases line with
  | columns cells size =>
      have cancel : (((cells.modify position (·.withContent (.block new))).map
            (Cell.measured style)).modify position (·.withContent (.block child))).map
              (Cell.measured style) = cells.map (Cell.measured style) := by
        apply map_modify_map_modify (Cell.measured_measured style)
        intro cell atCell
        rw [child?_columns, atCell, Option.bind_some, Content.block?_eq_some_iff] at found
        cases cell with
        | label text size => cases found
        | column kind content size =>
            cases found
            rfl
      simp only [setChild, measured, cancel]
  | stack children size =>
      rcases List.getElem?_eq_some_iff.mp found with ⟨inRange, rfl⟩
      simp [setChild, measured]

end Line

namespace Block

variable {edit : Block → Block × Answer} {block after target : Block} {steps : List Step}
  {answer : Answer}

/-- An edit below a step edits the child at the step and measures the block. -/
theorem updateAt_cons_eq_some {step : Step} {rest : List Step} :
    updateAt style edit (step :: rest) block = some (after, answer) ↔
      ∃ child changed, block.child? step = some child ∧
        updateAt style edit rest child = some (changed, answer) ∧
        after = (block.setChild step changed).measured style := by
  simp only [updateAt, Option.bind_eq_bind, Option.bind_eq_some_iff, Option.pure_def,
    Option.some.injEq, Prod.mk.injEq, Prod.exists]
  constructor
  · rintro ⟨child, found, changed, _, updated, rfl, rfl⟩
    exact ⟨child, changed, found, updated, rfl⟩
  · rintro ⟨child, changed, found, updated, rfl⟩
    exact ⟨child, found, changed, answer, updated, rfl, rfl⟩

/-- An edit where a block is has a result, with the answer of the edit there. -/
theorem updateAt_exists (edit : Block → Block × Answer)
    (found : block.descendant? steps = some target) :
    ∃ after, updateAt style edit steps block = some (after, (edit target).2) := by
  induction steps generalizing block with
  | nil =>
      cases found
      exact ⟨_, rfl⟩
  | cons step rest ih =>
      rw [descendant?_cons, Option.bind_eq_some_iff] at found
      rcases found with ⟨child, atStep, found⟩
      rcases ih found with ⟨changed, updated⟩
      exact ⟨_, updateAt_cons_eq_some.mpr ⟨child, changed, atStep, updated, rfl⟩⟩

/-- A path edit reaches the block at the end of the path, gives the answer of the edit there, and
leaves the edited block in its place. -/
theorem updateAt_target (updated : updateAt style edit steps block = some (after, answer)) :
    ∃ target, block.descendant? steps = some target ∧ answer = (edit target).2 ∧
      after.descendant? steps = some ((edit target).1.measured style) := by
  induction steps generalizing block after with
  | nil =>
      cases updated
      exact ⟨block, rfl, rfl, rfl⟩
  | cons step rest ih =>
      rcases updateAt_cons_eq_some.mp updated with ⟨child, changed, found, inside, rfl⟩
      rcases ih inside with ⟨target, reached, answered, reachedAfter⟩
      refine ⟨target, by simp [found, reached], answered, ?_⟩
      simp [child?_setChild found, reachedAfter]

/-- An edit where no block is has no result. -/
theorem updateAt_eq_none (edit : Block → Block × Answer)
    (nowhere : block.descendant? steps = none) : updateAt style edit steps block = none := by
  cases updated : updateAt style edit steps block with
  | none => rfl
  | some result =>
      rcases updateAt_target updated with ⟨target, found, _⟩
      cases nowhere.symm.trans found

/-- An edit inside that keeps formats keeps the format of the block around it. -/
theorem format_updateAt (keeps : ∀ inner, (edit inner).1.format = inner.format)
    (updated : updateAt style edit steps block = some (after, answer)) :
    after.format = block.format := by
  cases steps with
  | nil =>
      cases updated
      exact keeps block
  | cons step rest =>
      rcases updateAt_cons_eq_some.mp updated with ⟨_, _, _, _, rfl⟩
      rfl

/-- Blocks that are neither on the way nor behind the end of the path stay as they are. -/
theorem descendant?_updateAt_of_apart {other : List Step}
    (updated : updateAt style edit steps block = some (after, answer))
    (notAbove : ¬other <+: steps) (notBelow : ¬steps <+: other) :
    after.descendant? other = block.descendant? other := by
  induction steps generalizing block after other with
  | nil => exact absurd List.nil_prefix notBelow
  | cons step rest ih =>
      cases other with
      | nil => exact absurd List.nil_prefix notAbove
      | cons otherStep otherRest =>
          rcases updateAt_cons_eq_some.mp updated with ⟨child, changed, found, inside, rfl⟩
          rw [descendant?_cons, descendant?_cons, child?_measured, child?_setChild found]
          by_cases same : otherStep = step
          · subst otherStep
            have unchanged := ih inside
              (fun above => notAbove (List.cons_prefix_cons.mpr ⟨rfl, above⟩))
              (fun below => notBelow (List.cons_prefix_cons.mpr ⟨rfl, below⟩))
            simpa [found] using unchanged
          · simp [same]

/-- A block on the way has another block in the place that the path goes through, and has been
measured. -/
theorem descendant?_updateAt_of_above {upper lower : List Step} {step : Step} {old : Block}
    (updated : updateAt style edit (upper ++ step :: lower) block = some (after, answer))
    (found : block.descendant? upper = some old) :
    ∃ child changed, old.child? step = some child ∧
      after.descendant? upper = some ((old.setChild step changed).measured style) := by
  induction upper generalizing block after with
  | nil =>
      cases found
      rcases updateAt_cons_eq_some.mp updated with ⟨child, changed, atStep, _, rfl⟩
      exact ⟨child, changed, atStep, rfl⟩
  | cons first rest ih =>
      rcases updateAt_cons_eq_some.mp updated with ⟨child, changed, atFirst, inside, rfl⟩
      rw [descendant?_cons, atFirst, Option.bind_some] at found
      rcases ih inside found with ⟨inner, innerChanged, atStep, reached⟩
      refine ⟨inner, innerChanged, atStep, ?_⟩
      simp [child?_setChild atFirst, reached]

/-- An edit inside that keeps an invariant and the formats keeps it in the block around it. -/
theorem Invariant.everywhere_updateAt {Holds : Style → Block → Prop}
    (invariant : Invariant Holds) (keeps : ∀ inner, (edit inner).1.format = inner.format)
    (edited : ∀ inner : Block, inner.Everywhere (Holds style) →
      (edit inner).1.Everywhere (Holds style))
    (updated : updateAt style edit steps block = some (after, answer))
    (everywhere : block.Everywhere (Holds style)) : after.Everywhere (Holds style) := by
  induction steps generalizing block after with
  | nil =>
      cases updated
      exact invariant.everywhere_measured (edited block everywhere)
  | cons step rest ih =>
      rcases updateAt_cons_eq_some.mp updated with ⟨child, changed, found, inside, rfl⟩
      exact invariant.everywhere_setChild everywhere found (format_updateAt keeps inside)
        (ih inside (everywhere.child found))

theorem setChild_self {step : Step} {child : Block} (found : block.child? step = some child) :
    block.setChild step child = block := by
  rcases block with ⟨format, lines, size⟩
  rcases Option.bind_eq_some_iff.mp found with ⟨line, atLine, inPosition⟩
  rw [setChild_eq_setLine atLine, Line.setChild_self inPosition, setLine, set_eq_self atLine]

/-- An edit that leaves the block at the end of the path as it is leaves the whole block so. The
layout has to be current, because the blocks on the way are measured all the same. -/
theorem updateAt_unchanged (current : block.Everywhere (IsMeasured style))
    (found : block.descendant? steps = some target) (unchanged : (edit target).1 = target) :
    updateAt style edit steps block = some (block, (edit target).2) := by
  induction steps generalizing block with
  | nil =>
      cases found
      have isMeasured : target.measured style = target := current.here
      simp only [updateAt, unchanged, isMeasured]
  | cons step rest ih =>
      rw [descendant?_cons, Option.bind_eq_some_iff] at found
      rcases found with ⟨child, atStep, found⟩
      refine updateAt_cons_eq_some.mpr
        ⟨child, child, atStep, ih (current.child atStep) found, ?_⟩
      rw [setChild_self atStep]
      exact current.here.symm

/-- If an edit with a certain answer leaves every block as it is, then a path edit with this answer
does so, and one whose path leads nowhere. -/
theorem updateAt_getD_unchanged (current : block.Everywhere (IsMeasured style))
    (leaves : ∀ inner, (edit inner).2 = answer → (edit inner).1 = inner)
    (answered : ((updateAt style edit steps block).getD (block, answer)).2 = answer) :
    (updateAt style edit steps block).getD (block, answer) = (block, answer) := by
  cases updated : updateAt style edit steps block with
  | none => rfl
  | some result =>
      rcases updateAt_target updated with ⟨target, found, given, _⟩
      rw [updated, Option.getD_some, given] at answered
      rw [← updated, updateAt_unchanged current found (leaves target answered), answered,
        Option.getD_some]

theorem getElem?_measured_setLine (style : Style) {index : Nat} {old : Line Block}
    (atLine : block.lines[index]? = some old) (line : Line Block) :
    ((block.setLine index line).measured style).lines[index]? = some (line.measured style) := by
  rcases List.getElem?_eq_some_iff.mp atLine with ⟨inRange, _⟩
  simp [setLine, inRange]

theorem measured_setLine_measured (block : Block) (index : Nat) (first second : Line Block) :
    (((block.setLine index first).measured style).setLine index second).measured style =
      (block.setLine index second).measured style := by
  simp [measured, setLine, List.map_set, Function.comp_def]

/-- A line that measures like the one that is there changes nothing in a measured block. -/
theorem measured_setLine_eq_self {index : Nat} {old line : Line Block}
    (isMeasured : block.IsMeasured style) (atLine : block.lines[index]? = some old)
    (sameMeasured : line.measured style = old.measured style) :
    (block.setLine index line).measured style = block := by
  have unchanged : block.setLine index old = block := by
    rcases block with ⟨format, lines, size⟩
    rcases List.getElem?_eq_some_iff.mp atLine with ⟨inRange, rfl⟩
    simp [setLine]
  calc (block.setLine index line).measured style
      = (block.setLine index old).measured style := by
        simp [measured, setLine, List.map_set, sameMeasured]
    _ = block.measured style := by rw [unchanged]
    _ = block := isMeasured

/-- A line of a measured block that was changed is restored by a line that measures the same. -/
theorem measured_setLine_undo {index : Nat} {old first second : Line Block}
    (isMeasured : block.IsMeasured style) (atLine : block.lines[index]? = some old)
    (restores : second.measured style = old.measured style) :
    (((block.setLine index first).measured style).setLine index second).measured style = block := by
  rw [measured_setLine_measured]
  exact measured_setLine_eq_self isMeasured atLine restores

theorem measured_setChild_undo {step : Step} {child : Block} (isMeasured : block.IsMeasured style)
    (found : block.child? step = some child) (new : Block) :
    (((block.setChild step new).measured style).setChild step child).measured style = block := by
  rcases Option.bind_eq_some_iff.mp found with ⟨line, atLine, inPosition⟩
  rw [setChild_eq_setLine atLine, setChild_eq_setLine (getElem?_measured_setLine style atLine _)]
  exact measured_setLine_undo isMeasured atLine (Line.measured_setChild_undo inPosition new)

/-- If undoing the edit at the end of a path gives back the block there, then an undo along the path
gives back the whole block. The layout has to be current, because the undo measures the blocks on
the way. -/
theorem updateAt_undo {undo : Block → Block × Other}
    (current : block.Everywhere (IsMeasured style))
    (updated : updateAt style edit steps block = some (after, answer))
    (found : block.descendant? steps = some target)
    (restores : (undo ((edit target).1.measured style)).1.measured style = target) :
    updateAt style undo steps after =
      some (block, (undo ((edit target).1.measured style)).2) := by
  -- Each block on the way was measured before and is measured again around the restored one.
  induction steps generalizing block after with
  | nil =>
      cases found
      cases updated
      simp only [updateAt, restores]
  | cons step rest ih =>
      rcases updateAt_cons_eq_some.mp updated with ⟨child, changed, atStep, inside, rfl⟩
      rw [descendant?_cons, atStep, Option.bind_some] at found
      refine updateAt_cons_eq_some.mpr ⟨changed, child, ?_, ?_, ?_⟩
      · simp [child?_setChild atStep]
      · exact ih (current.child atStep) inside found
      · exact (measured_setChild_undo current.here atStep changed).symm

end Block

end BlockEditor
