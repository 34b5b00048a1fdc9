import Mathlib.Data.List.InsertIdx
import BlockEditor.Proofs.Block.Taken
import BlockEditor.Proofs.Record.Written

/-!
# Records of edited blocks

A block is written line by line, and what is written of a line leaves out the sizes and all of a
nested block but its record (`Line.written`). So a layout keeps the record of a block
(`Block.record_relaid`). An edit at the end of a path keeps it if it keeps the record of the block
there (`Block.record_updateAt`), and so do two edits one after the other that together keep it
(`Block.record_updateAt_updateAt`), as when a block is taken out of its place and put back. The
layout need not be current for that.
-/

namespace BlockEditor

variable {Child : Type} {style otherStyle : Style}

theorem map_modify {Item Image : Type} {view : Item → Image} {change : Item → Item}
    {changeImage : Image → Image} (agree : ∀ item, view (change item) = changeImage (view item))
    (items : List Item) (position : Nat) :
    (items.modify position change).map view = (items.map view).modify position changeImage := by
  apply List.ext_getElem?
  intro index
  by_cases same : position = index
  · subst index
    simp [Function.comp_def, agree]
  · simp [same]

namespace Cell

/-- What is written of a cell. -/
def written : Cell Block → Cell InstanceRecord
  | .label text _ => .label text .zero
  | .column kind content _ => .column kind (content.map Block.record) .zero

/-- The parameter that a written cell is; a label is none. -/
def param? : Cell InstanceRecord → Option (Param InstanceRecord)
  | .label _ _ => none
  | .column _ .empty _ => some (.literal "")
  | .column kind (.literal text) _ => some (Block.literalParam kind text)
  | .column _ (.block record) _ => some (.block record)

@[simp]
theorem written_measured (cell : Cell Block) : (cell.measured style).written = cell.written := by
  cases cell <;> rfl

theorem written_withContent (content : Content Block) (cell : Cell Block) :
    (cell.withContent content).written = cell.written.withContent (content.map Block.record) := by
  cases cell <;> rfl

theorem param?_written (cell : Cell Block) :
    cell.written.param? = cell.field?.map Block.fieldParam := by
  cases cell with
  | label text size => rfl
  | column kind content size => cases content <;> rfl

end Cell

namespace Line

/-- What is written of a line. -/
def written : Line Block → Line InstanceRecord
  | .columns cells _ => .columns (cells.map Cell.written) .zero
  | .stack children _ => .stack (children.map Block.record) .zero

/-- The parameters that a written line gives. -/
def params : Line InstanceRecord → List (Param InstanceRecord)
  | .columns cells _ => cells.filterMap Cell.param?
  | .stack _ _ => []

@[simp]
theorem written_measured (line : Line Block) : (line.measured style).written = line.written := by
  cases line <;> simp [measured, written, Function.comp_def]

theorem params_written (line : Line Block) :
    line.written.params = line.fields.map Block.fieldParam := by
  cases line with
  | columns cells size =>
      simp only [written, params, fields, List.filterMap_map, List.map_filterMap,
        Cell.param?_written, Function.comp_def]
  | stack children size => rfl

theorem children?_written (line : Line Block) :
    line.written.children? = line.children?.map Block.stackRecords := by
  cases line with
  | columns cells size => rfl
  | stack children size => exact congrArg some (Block.stackRecords_eq_map children).symm

theorem child?_written (line : Line Block) (position : Nat) :
    line.written.child? position = (line.child? position).map Block.record := by
  cases line with
  | columns cells size =>
      rcases found : cells[position]? with _ | ⟨text, size⟩ | ⟨kind, content, size⟩
      · simp [written, found]
      · simp [written, found, Cell.written, Cell.content]
      · simp [written, found, Cell.written, Cell.content]
  | stack children size => simp [written]

/-- A child put into a line writes as its record put into the written line. -/
theorem written_setChild (line : Line Block) (position : Nat) (child : Block) :
    (line.setChild position child).written = line.written.setChild position child.record := by
  cases line with
  | columns cells size =>
      have row : (cells.modify position (·.withContent (.block child))).map Cell.written =
          (cells.map Cell.written).modify position (·.withContent (.block child.record)) :=
        map_modify (Cell.written_withContent (.block child)) cells position
      rw [setChild, written, row]
      rfl
  | stack children size => simp [setChild, written, List.map_set]

theorem setChild_setChild (line : Line Child) (position : Nat) (first second : Child) :
    (line.setChild position first).setChild position second = line.setChild position second := by
  cases line with
  | columns cells size =>
      have latter : ∀ cell : Cell Child,
          (cell.withContent (.block first)).withContent (.block second) =
            cell.withContent (.block second) := by
        intro cell
        cases cell <;> rfl
      simp [setChild, List.modify_modify_eq, Function.comp_def, latter]
  | stack children size => simp [setChild]

/-- A change of the children that keeps their records keeps what the line writes. -/
theorem written_map {change : Block → Block} {line : Line Block}
    (keeps : ∀ position child, line.child? position = some child →
      (change child).record = child.record) :
    (line.map change).written = line.written := by
  cases line with
  | columns cells size =>
      have each : ∀ cell ∈ cells, (cell.map change).written = cell.written := by
        intro cell cellMem
        rcases List.getElem?_of_mem cellMem with ⟨position, atCell⟩
        rcases cell with _ | ⟨kind, _ | text | child, cellSize⟩
        · rfl
        · rfl
        · rfl
        · have same := keeps position child (by simp [atCell, Cell.content])
          simp only [Cell.map, Cell.written, Content.map, same]
      simp [map, written, Function.comp_def, List.map_congr_left each]
  | stack children size =>
      have each : ∀ child ∈ children, (change child).record = child.record := by
        intro child childMem
        rcases List.getElem?_of_mem childMem with ⟨position, atPosition⟩
        exact keeps position child atPosition
      simp [map, written, Function.comp_def, List.map_congr_left each]

/-- Nothing else is written with a block in place of one with the same record. -/
theorem written_setChild_of_same {line : Line Block} {position : Nat} {child new : Block}
    (found : line.child? position = some child) (same : new.record = child.record) :
    (line.setChild position new).written = line.written := by
  rw [written_setChild, same]
  apply setChild_self
  rw [child?_written, found, Option.map_some]

/-- What was in a place before is not written any more. -/
theorem written_setChild_setChild {line : Line Block} {position : Nat} {child changed new : Block}
    (found : line.child? position = some child) (same : new.record = child.record) :
    (((line.setChild position changed).measured style).setChild position new).written =
      line.written := by
  rw [written_setChild, written_measured, written_setChild, setChild_setChild, ← written_setChild]
  exact written_setChild_of_same found same

end Line

namespace Block

variable {Answer OtherAnswer : Type} {edit : Block → Block × Answer}
  {block after target : Block} {steps : List Step} {answer : Answer}

/-- The record of a block is made of what is written of its lines. -/
theorem record_eq (block : Block) :
    block.record = ⟨block.format.id, (block.lines.map Line.written).flatMap Line.params,
      (block.lines.map Line.written).filterMap Line.children?⟩ := by
  rcases block with ⟨format, lines, size⟩
  have params : lineParams lines = (lines.map Line.written).flatMap Line.params := by
    simp [lineParams_eq_map, List.flatMap_map, List.map_flatMap, Line.params_written]
  have lists : lineLists lines = (lines.map Line.written).filterMap Line.children? := by
    simp only [lineLists_eq_map, List.filterMap_map, List.map_filterMap, Line.children?_written,
      Function.comp_def]
  rw [record, params, lists]

/-- The record of a block is read off its format and what its lines write. -/
theorem record_of_written {first second : Block} (sameFormat : first.format = second.format)
    (sameLines : first.lines.map Line.written = second.lines.map Line.written) :
    first.record = second.record := by
  rw [record_eq, record_eq, sameFormat, sameLines]

@[simp]
theorem record_measured (style : Style) (block : Block) :
    (block.measured style).record = block.record :=
  record_of_written rfl (by simp [Function.comp_def])

theorem record_setLine {index : Nat} {old line : Line Block}
    (atLine : block.lines[index]? = some old) (same : line.written = old.written) :
    (block.setLine index line).record = block.record :=
  record_of_written rfl (map_set_eq_map atLine same)

theorem record_setLine_setLine {index : Nat} {old first second : Line Block}
    (atLine : block.lines[index]? = some old) (same : second.written = old.written) :
    (((block.setLine index first).measured style).setLine index second).record = block.record := by
  rw [← record_measured style, measured_setLine_measured, record_measured]
  exact record_setLine atLine same

/-- With other blocks that have the same records directly inside, a block has the same record. -/
theorem record_mapChildren {change : Block → Block}
    (keeps : ∀ step child, block.child? step = some child →
      (change child).record = child.record) :
    (block.mapChildren change).record = block.record := by
  refine record_of_written rfl ?_
  have each : ∀ line ∈ block.lines, (line.map change).written = line.written := by
    intro line lineMem
    rcases List.getElem?_of_mem lineMem with ⟨index, atLine⟩
    apply Line.written_map
    intro position child inLine
    exact keeps ⟨index, position⟩ child (by simp [child?, atLine, inLine])
  simp [mapChildren, Function.comp_def, List.map_congr_left each]

/-- A layout in any style keeps the record. -/
theorem record_relaid (style : Style) (block : Block) :
    (block.relaid style).record = block.record := by
  induction block using Block.induction with
  | inside block ih =>
      rw [relaid_eq, record_measured]
      exact record_mapChildren ih

/-- An edit that keeps the record of the block at the end of the path keeps that of the whole
block. -/
theorem record_updateAt (updated : updateAt style edit steps block = some (after, answer))
    (keeps : ∀ target, block.descendant? steps = some target →
      (edit target).1.record = target.record) :
    after.record = block.record := by
  induction steps generalizing block after with
  | nil =>
      cases updated
      exact (record_measured style _).trans (keeps block rfl)
  | cons step rest ih =>
      rcases updateAt_cons_eq_some.mp updated with ⟨child, changed, found, inside, rfl⟩
      have same : changed.record = child.record := by
        apply ih inside
        intro target reached
        exact keeps target (by simp [found, reached])
      rcases Option.bind_eq_some_iff.mp found with ⟨line, atLine, inLine⟩
      rw [record_measured, setChild_eq_setLine atLine]
      exact record_setLine atLine (Line.written_setChild_of_same inLine same)

/-- Two edits that together keep the record of the block at the end of the path keep that of the
whole block. -/
theorem record_updateAt_updateAt {second : Block → Block × OtherAnswer} {last : Block}
    {otherAnswer : OtherAnswer}
    (updated : updateAt style edit steps block = some (after, answer))
    (updatedAgain : updateAt otherStyle second steps after = some (last, otherAnswer))
    (keep : ∀ target, block.descendant? steps = some target →
      (second ((edit target).1.measured style)).1.record = target.record) :
    last.record = block.record := by
  induction steps generalizing block after last with
  | nil =>
      cases updated
      cases updatedAgain
      exact (record_measured otherStyle _).trans (keep block rfl)
  | cons step rest ih =>
      rcases updateAt_cons_eq_some.mp updated with ⟨child, changed, found, inside, rfl⟩
      rcases updateAt_cons_eq_some.mp updatedAgain with
        ⟨changedChild, restored, foundAgain, insideAgain, rfl⟩
      rw [child?_measured, child?_setChild found, if_pos rfl] at foundAgain
      cases foundAgain
      have same : restored.record = child.record := by
        apply ih inside insideAgain
        intro target reached
        exact keep target (by simp [found, reached])
      rcases Option.bind_eq_some_iff.mp found with ⟨line, atLine, inLine⟩
      rw [record_measured, setChild_eq_setLine atLine,
        setChild_eq_setLine (getElem?_measured_setLine style atLine _)]
      exact record_setLine_setLine atLine (Line.written_setChild_setChild inLine same)

/-- If an edit that gives a certain answer keeps the record of every block, then an edit by path
does so that gives this answer, also for want of a block at the end of the path. -/
theorem record_updateAt_getD (keeps : ∀ inner, (edit inner).2 = answer →
      (edit inner).1.record = inner.record)
    (answered : ((updateAt style edit steps block).getD (block, answer)).2 = answer) :
    ((updateAt style edit steps block).getD (block, answer)).1.record = block.record := by
  cases updated : updateAt style edit steps block with
  | none => rfl
  | some result =>
      rcases updateAt_target updated with ⟨target, reached, given, _⟩
      rw [updated, Option.getD_some, given] at answered
      rw [Option.getD_some]
      apply record_updateAt updated
      intro other otherReached
      cases reached.symm.trans otherReached
      exact keeps target answered

end Block

namespace Place.Empties

variable {place otherPlace : Place} {taken block left filled : Block}

/-- A block that was taken out of a place and is put into it again is written as before. -/
theorem record_refilled (empties : place.Empties style taken block left)
    (fills : otherPlace.Fills otherStyle taken left filled) (same : otherPlace.step = place.step) :
    filled.record = block.record := by
  cases empties with
  | @stack line index children size atLine atIndex =>
      have afterwards :=
        Block.getElem?_measured_setLine style atLine (.stack (children.eraseIdx index) size)
      cases fills with
      | stack otherAtLine _ =>
          cases same
          cases afterwards.symm.trans otherAtLine
          rcases List.getElem?_eq_some_iff.mp atIndex with ⟨indexInRange, rfl⟩
          rw [Block.record_measured]
          refine Block.record_setLine_setLine atLine ?_
          rw [List.insertIdx_eraseIdx_getElem indexInRange]
          rfl
      | column otherAtCell _ =>
          rcases Block.cell?_eq_some otherAtCell with ⟨_, _, otherAtLine, _⟩
          cases same
          cases afterwards.symm.trans otherAtLine
  | @column line column kind size atCell =>
      rcases Block.cell?_eq_some atCell with ⟨cells, rowSize, atLine, atColumn⟩
      rw [Block.setContent_eq_setLine atLine] at fills
      have afterwards := Block.getElem?_measured_setLine style atLine
        (.columns (cells.modify column (·.withContent .empty)) rowSize)
      cases fills with
      | stack otherAtLine _ =>
          cases same
          cases afterwards.symm.trans otherAtLine
      | column otherAtCell fits =>
          cases same
          have row :
              (((cells.modify column (·.withContent .empty)).map (Cell.measured style)).modify
                column (·.withContent (.block taken))).map Cell.written =
                  cells.map Cell.written := by
            apply List.ext_getElem?
            intro index
            by_cases here : column = index
            · subst index
              simp [atColumn, Cell.withContent, Cell.measured, Cell.written]
            · simp [here, Function.comp_def]
          rw [Block.setContent_eq_setLine afterwards, Block.record_measured]
          refine Block.record_setLine_setLine atLine ?_
          rw [Line.written, row]
          rfl

end Place.Empties

/-- A block around one that was taken out and is put back into its place is written as before. -/
theorem Block.Taken.record_put_back {taken block left after : Block} {owner : List Step}
    {place otherPlace : Place} (gone : Taken style taken owner place block left)
    (put : Put otherStyle taken owner otherPlace left after)
    (same : otherPlace.step = place.step) : after.record = block.record := by
  rcases gone with ⟨target, emptied, reached, empties, updated⟩
  rcases put with ⟨hole, filled, reachedHole, fills, updatedAgain⟩
  refine record_updateAt_updateAt updated updatedAgain ?_
  intro other otherReached
  cases reached.symm.trans otherReached
  rcases updateAt_target updated with ⟨_, targetReached, _, emptiedReached⟩
  cases reached.symm.trans targetReached
  cases reachedHole.symm.trans emptiedReached
  rw [fills.apply_put]
  rw [empties.takeChild_step, empties.isMeasured] at fills
  exact empties.record_refilled fills same

end BlockEditor
