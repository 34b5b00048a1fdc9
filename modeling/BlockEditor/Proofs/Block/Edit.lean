import BlockEditor.Block.Hit
import BlockEditor.Proofs.Block.Update

/-!
# Everything that can be asked of a block

`Block.Edit` lists the edits of a block and `Block.Edit.apply` carries one out: it gives the block
afterwards and the block that is handed out, which is one that was taken out or was refused.
Each edit is first reduced to the changes of one block that it may consist of. Hence an invariant
of single blocks that is everywhere in a block, and in the block that an edit brings along, is
afterwards everywhere in both results (`Block.Invariant.everywhere_apply`).
-/

namespace BlockEditor

variable {style : Style}

namespace Block

variable {block after child : Block} {line column : Nat}

/-- A text is refused, or goes into an input column that holds no block. -/
theorem typeText_cases (style : Style) (line column : Nat) (text : String) (block : Block) :
    block.typeText style line column text = (block, false) ∨
      ∃ kind old size, block.cell? line column = some (.column kind old size) ∧
        kind.isInput = true ∧ old.block? = none ∧
        block.typeText style line column text =
          ((block.setContent line column (.ofText text)).measured style, true) := by
  rw [typeText]
  split
  · rename_i kind old size atCell
    split
    · rename_i takes
      simp only [Bool.and_eq_true, Option.isNone_iff_eq_none] at takes
      exact .inr ⟨kind, old, size, atCell, takes.1, takes.2, rfl⟩
    · exact .inl rfl
  · exact .inl rfl

/-- A block is handed back, or goes into a free column that it fits. -/
theorem placeChild_cases (style : Style) (block : Block) (line column : Nat) (child : Block) :
    block.placeChild style line column child = (block, some child) ∨
      ∃ kind size, block.cell? line column = some (.column kind .empty size) ∧
        child.format.fitsColumn kind = true ∧
        block.placeChild style line column child =
          ((block.setContent line column (.block child)).measured style, none) := by
  rw [placeChild]
  split
  · rename_i kind old size atCell
    split
    · rename_i takes
      simp only [Bool.and_eq_true] at takes
      cases old with
      | empty => exact .inr ⟨kind, size, atCell, takes.1, rfl⟩
      | literal text => simp [Content.isEmpty] at takes
      | block other => simp [Content.isEmpty] at takes
    · exact .inl rfl
  · exact .inl rfl

/-- Inserting hands the block back, or puts it into a stack at the place or at the end. -/
theorem insertChild_cases (style : Style) (block : Block) (line index : Nat) (child : Block) :
    block.insertChild style line index child = (block, some child) ∨
      ∃ children size, block.lines[line]? = some (.stack children size) ∧
        block.insertChild style line index child =
          ((block.setLine line
            (.stack (children.insertIdx (min index children.length) child) size)).measured style,
            none) := by
  rw [insertChild]
  split
  · rename_i children size atLine
    exact .inr ⟨children, size, atLine, rfl⟩
  · exact .inl rfl

/-- Pushing hands the block back, or puts it at the end of a stack. -/
theorem pushChild_cases (style : Style) (block : Block) (line : Nat) (child : Block) :
    block.pushChild style line child = (block, some child) ∨
      ∃ children size, block.lines[line]? = some (.stack children size) ∧
        block.pushChild style line child =
          ((block.setLine line
            (.stack (children.insertIdx children.length child) size)).measured style, none) := by
  rw [pushChild]
  split
  · rename_i children size atLine
    exact .inr ⟨children, size, atLine, by simp⟩
  · exact .inl rfl

theorem takeChild_of_stack {step : Step} {taken : Block} {children : List Block} {size : Size}
    (found : block.child? step = some taken)
    (atLine : block.lines[step.line]? = some (.stack children size)) :
    block.takeChild style step =
      ((block.setLine step.line (.stack (children.eraseIdx step.position) size)).measured style,
        some taken) := by
  have inStack : children[step.position]? = some taken := by simpa [child?, atLine] using found
  simp [takeChild, atLine, inStack]

theorem takeChild_of_columns {step : Step} {taken : Block} {cells : List (Cell Block)} {size : Size}
    (found : block.child? step = some taken)
    (atLine : block.lines[step.line]? = some (.columns cells size)) :
    block.takeChild style step =
      ((block.setLine step.line
        (.columns (cells.modify step.position (·.withContent .empty)) size)).measured style,
        some taken) := by
  have inRow : (cells[step.position]?.bind fun cell => cell.content.block?) = some taken := by
    simpa [child?, atLine] using found
  rcases Option.bind_eq_some_iff.mp inRow with ⟨cell, atCell, holds⟩
  simp [takeChild, atLine, atCell, Content.block?_eq_some_iff.mp holds,
    setContent_eq_setLine atLine]

/-- What was taken out of a column and is put back is where it was. -/
theorem setContent_setContent_self {cells : List (Cell Block)} {cell : Cell Block} {size : Size}
    (atLine : block.lines[line]? = some (.columns cells size)) (atCell : cells[column]? = some cell)
    (content : Content Block) :
    (block.setContent line column content).setContent line column cell.content = block := by
  rcases List.getElem?_eq_some_iff.mp atLine with ⟨inRange, _⟩
  have emptied : (block.setLine line
      (.columns (cells.modify column (·.withContent content)) size)).lines[line]? =
        some (.columns (cells.modify column (·.withContent content)) size) := by
    simp [setLine, inRange]
  have restored : (cell.withContent content).withContent cell.content = cell := by
    cases cell <;> rfl
  have putBack : (cells.modify column (·.withContent content)).modify column
      (·.withContent cell.content) = cells := by
    rcases List.getElem?_eq_some_iff.mp atCell with ⟨columnInRange, _⟩
    rw [modify_eq_set atCell, modify_eq_set (List.getElem?_set_self columnInRange), List.set_set,
      restored, set_eq_self atCell]
  rw [setContent_eq_setLine atLine, setContent_eq_setLine emptied, putBack]
  simp only [setLine, List.set_set, set_eq_self atLine]
  cases block
  rfl

/-- Where no block is, none is taken, and nothing is changed. -/
theorem takeChild_of_nothing {step : Step} (nothing : block.child? step = none) :
    block.takeChild style step = (block, none) := by
  rw [takeChild]
  split
  · rfl
  · rename_i children size atLine
    have notThere : children[step.position]? = none := by simpa [child?, atLine] using nothing
    rw [notThere]
  · rename_i cells size atLine
    split
    · rfl
    · rename_i cell atCell
      have noBlock : cell.content.block? = none := by
        simpa [child?, atLine, atCell] using nothing
      split
      · rename_i child holds
        simp [holds] at noBlock
      · simp only [setContent_setContent_self atLine atCell]

/-- Nothing is taken where there is no block; where there is one, a stack gets shorter by it or a
column is empty. -/
theorem takeChild_cases (style : Style) (step : Step) (block : Block) :
    block.takeChild style step = (block, none) ∧ block.child? step = none ∨
      ∃ taken, block.child? step = some taken ∧
        ((∃ children size, block.lines[step.line]? = some (.stack children size) ∧
            block.takeChild style step =
              ((block.setLine step.line
                (.stack (children.eraseIdx step.position) size)).measured style, some taken)) ∨
          ∃ kind size,
            block.cell? step.line step.position = some (.column kind (.block taken) size) ∧
              block.takeChild style step =
                ((block.setContent step.line step.position .empty).measured style,
                  some taken)) := by
  cases found : block.child? step with
  | none => exact .inl ⟨takeChild_of_nothing found, rfl⟩
  | some taken =>
      refine .inr ⟨taken, rfl, ?_⟩
      rcases Option.bind_eq_some_iff.mp found with
        ⟨⟨cells, size⟩ | ⟨children, size⟩, atLine, inLine⟩
      · rcases Option.bind_eq_some_iff.mp inLine with ⟨_ | ⟨kind, content, cellSize⟩, atCell, holds⟩
        · cases holds
        · cases Content.block?_eq_some_iff.mp holds
          exact .inr ⟨kind, cellSize, by simp [cell?, Line.cell?, atLine, atCell],
            by rw [takeChild_of_columns found atLine, setContent_eq_setLine atLine]⟩
      · exact .inl ⟨children, size, atLine, takeChild_of_stack found atLine⟩

/-- Something that a block can be asked for. -/
inductive Edit where
  | setLiteral (line column : Nat) (text : String)
  | placeChild (line column : Nat) (child : Block)
  | insertChild (line index : Nat) (child : Block)
  | pushChild (line : Nat) (child : Block)
  | takeChild (step : Step)
  | detach (path : BlockPath)
  | setValueAt (text : String) (x y : Float32)
  | removeAt (x y : Float32)
  | relayout

namespace Edit

/-- The block that an edit brings along. -/
def handed : Edit → Option Block
  | .placeChild _ _ child => some child
  | .insertChild _ _ child => some child
  | .pushChild _ child => some child
  | _ => none

/-- Carries out an edit. Gives the block afterwards, and the block that was taken out or refused. -/
def apply (style : Style) (edit : Edit) (block : Block) : Block × Option Block :=
  match edit with
  | .setLiteral line column text => ((block.typeText style line column text).1, none)
  | .placeChild line column child => block.placeChild style line column child
  | .insertChild line index child => block.insertChild style line index child
  | .pushChild line child => block.pushChild style line child
  | .takeChild step => block.takeChild style step
  | .detach path => block.detach style path
  | .setValueAt text x y => ((block.setValueAt style text x y).1, none)
  | .removeAt x y => block.removeAt style x y
  | .relayout => (block.relaid style, none)

end Edit

theorem detach_eq (style : Style) (block : Block) (path : BlockPath) :
    block.detach style path =
      match path.splitLast? with
      | none => (block, none)
      | some (parent, last) =>
        (updateAt style (takeChild style last) parent.steps block).getD (block, none) := rfl

/-- Detaching at the end of a path takes a child out of the block to which all but the last step
lead. -/
theorem detach_append (style : Style) (block : Block) (owner : List Step) (step : Step) :
    block.detach style ⟨owner ++ [step]⟩ =
      (updateAt style (takeChild style step) owner block).getD (block, none) := by
  simp [detach_eq, BlockPath.splitLast?]

/-- What is taken is the child at the step. -/
theorem answer_takeChild (style : Style) (block : Block) (step : Step) :
    (block.takeChild style step).2 = block.child? step := by
  rcases takeChild_cases style step block with
    ⟨same, nothing⟩ | ⟨taken, found, ⟨_, _, _, same⟩ | ⟨_, _, _, same⟩⟩
  · rw [same, nothing]
  · rw [same, found]
  · rw [same, found]

/-- What is detached is the block at the end of the path. -/
theorem answer_detach (style : Style) (block : Block) (owner : List Step) (step : Step) :
    (block.detach style ⟨owner ++ [step]⟩).2 = block.descendant? (owner ++ [step]) := by
  rw [detach_append, descendant?_append]
  cases updated : updateAt style (takeChild style step) owner block with
  | none =>
      cases reached : block.descendant? owner with
      | none => rfl
      | some target =>
          have edited : ∃ after, updateAt style (takeChild style step) owner block =
              some (after, (target.takeChild style step).2) := updateAt_exists _ reached
          rcases edited with ⟨_, edited⟩
          cases updated.symm.trans edited
  | some result =>
      rcases updateAt_target updated with ⟨target, reached, answered, _⟩
      rw [Option.getD_some, answered, answer_takeChild, reached]
      simp

theorem format_typeText (style : Style) (line column : Nat) (text : String) (block : Block) :
    (block.typeText style line column text).1.format = block.format := by
  rcases typeText_cases style line column text block with same | ⟨_, _, _, _, _, _, same⟩ <;>
    simp [same]

theorem format_placeChild (style : Style) (block : Block) (line column : Nat) (child : Block) :
    (block.placeChild style line column child).1.format = block.format := by
  rcases placeChild_cases style block line column child with same | ⟨_, _, _, _, same⟩ <;>
    simp [same]

theorem format_insertChild (style : Style) (block : Block) (line index : Nat) (child : Block) :
    (block.insertChild style line index child).1.format = block.format := by
  rcases insertChild_cases style block line index child with same | ⟨_, _, _, same⟩ <;> simp [same]

theorem format_pushChild (style : Style) (block : Block) (line : Nat) (child : Block) :
    (block.pushChild style line child).1.format = block.format := by
  rcases pushChild_cases style block line child with same | ⟨_, _, _, same⟩ <;> simp [same]

theorem format_takeChild (style : Style) (step : Step) (block : Block) :
    (block.takeChild style step).1.format = block.format := by
  rcases takeChild_cases style step block with
    ⟨same, _⟩ | ⟨_, _, ⟨_, _, _, same⟩ | ⟨_, _, _, same⟩⟩ <;> simp [same]

theorem format_updateAt_getD {Answer : Type} {edit : Block → Block × Answer}
    (keeps : ∀ inner, (edit inner).1.format = inner.format) (steps : List Step) (answer : Answer) :
    ((updateAt style edit steps block).getD (block, answer)).1.format = block.format := by
  cases updated : updateAt style edit steps block with
  | none => rfl
  | some result => exact format_updateAt keeps updated

theorem format_detach (style : Style) (block : Block) (path : BlockPath) :
    (block.detach style path).1.format = block.format := by
  rw [detach_eq]
  split
  · rfl
  · exact format_updateAt_getD (format_takeChild style _) _ _

theorem format_setValueAt (style : Style) (block : Block) (text : String) (x y : Float32) :
    (block.setValueAt style text x y).1.format = block.format := by
  rw [setValueAt]
  split
  · exact format_updateAt_getD (format_typeText style _ _ text) _ _
  · rfl

theorem format_removeAt (style : Style) (block : Block) (x y : Float32) :
    (block.removeAt style x y).1.format = block.format := by
  rw [removeAt]
  split
  · exact format_detach style block _
  · rfl

/-- No edit changes the format of a block. -/
theorem Edit.format_apply (style : Style) (edit : Edit) (block : Block) :
    (edit.apply style block).1.format = block.format := by
  cases edit with
  | setLiteral line column text => exact format_typeText style line column text block
  | placeChild line column child => exact format_placeChild style block line column child
  | insertChild line index child => exact format_insertChild style block line index child
  | pushChild line child => exact format_pushChild style block line child
  | takeChild step => exact format_takeChild style step block
  | detach path => exact format_detach style block path
  | setValueAt text x y => exact format_setValueAt style block text x y
  | removeAt x y => exact format_removeAt style block x y
  | relayout => exact format_relaid style block

namespace Invariant

variable {Holds : Style → Block → Prop} (invariant : Invariant Holds)

include invariant

theorem everywhere_typeText (line column : Nat) (text : String)
    (everywhere : block.Everywhere (Holds style)) :
    (block.typeText style line column text).1.Everywhere (Holds style) := by
  rcases typeText_cases style line column text block with
    same | ⟨kind, old, size, atCell, isInput, _, same⟩
  · rw [same]
    exact everywhere
  · rw [same]
    apply invariant.everywhere_fill everywhere atCell (Content.admitted_ofText isInput text)
    intro child holds
    simp at holds

/-- What is everywhere in a block and in the one put into a stack is everywhere afterwards. -/
theorem everywhere_insertIdx {children : List Block} {size : Size}
    (everywhere : block.Everywhere (Holds style)) (brought : child.Everywhere (Holds style))
    (atLine : block.lines[line]? = some (.stack children size)) {index : Nat}
    (inRange : index ≤ children.length) :
    ((block.setLine line (.stack (children.insertIdx index child) size)).measured
      style).Everywhere (Holds style) := by
  apply invariant.everywhere_restack everywhere atLine
  intro other otherMem notOld
  rcases (List.mem_insertIdx inRange).mp otherMem with rfl | old
  · exact brought
  · exact absurd old notOld

/-- Placing a block in a column keeps an invariant that holds in this block, also in what is handed
back. -/
theorem everywhere_placeChild (line column : Nat) (everywhere : block.Everywhere (Holds style))
    (brought : child.Everywhere (Holds style)) :
    (block.placeChild style line column child).1.Everywhere (Holds style) ∧
      ∀ out ∈ (block.placeChild style line column child).2, out.Everywhere (Holds style) := by
  rcases placeChild_cases style block line column child with
    same | ⟨kind, size, atCell, fits, same⟩
  · rw [same]
    exact ⟨everywhere, by simpa using brought⟩
  · rw [same]
    refine ⟨invariant.everywhere_fill everywhere atCell fits ?_, by simp⟩
    intro other holds
    cases holds
    exact brought

theorem everywhere_insertChild (line index : Nat) (everywhere : block.Everywhere (Holds style))
    (brought : child.Everywhere (Holds style)) :
    (block.insertChild style line index child).1.Everywhere (Holds style) ∧
      ∀ out ∈ (block.insertChild style line index child).2, out.Everywhere (Holds style) := by
  rcases insertChild_cases style block line index child with same | ⟨children, size, atLine, same⟩
  · rw [same]
    exact ⟨everywhere, by simpa using brought⟩
  · rw [same]
    exact ⟨invariant.everywhere_insertIdx everywhere brought atLine (Nat.min_le_right _ _), by simp⟩

theorem everywhere_pushChild (line : Nat) (everywhere : block.Everywhere (Holds style))
    (brought : child.Everywhere (Holds style)) :
    (block.pushChild style line child).1.Everywhere (Holds style) ∧
      ∀ out ∈ (block.pushChild style line child).2, out.Everywhere (Holds style) := by
  rcases pushChild_cases style block line child with same | ⟨children, size, atLine, same⟩
  · rw [same]
    exact ⟨everywhere, by simpa using brought⟩
  · rw [same]
    exact ⟨invariant.everywhere_insertIdx everywhere brought atLine (Nat.le_refl _), by simp⟩

/-- Taking a child keeps an invariant, both in what is left and in what is taken. -/
theorem everywhere_takeChild (step : Step) (everywhere : block.Everywhere (Holds style)) :
    (block.takeChild style step).1.Everywhere (Holds style) ∧
      ∀ taken ∈ (block.takeChild style step).2, taken.Everywhere (Holds style) := by
  rcases takeChild_cases style step block with
    ⟨same, _⟩ | ⟨taken, found, ⟨children, size, atLine, same⟩ | ⟨kind, size, atCell, same⟩⟩
  · rw [same]
    exact ⟨everywhere, by simp⟩
  · rw [same]
    constructor
    · apply invariant.everywhere_restack everywhere atLine
      intro other otherMem notOld
      exact absurd (List.mem_of_mem_eraseIdx otherMem) notOld
    · simpa using everywhere.child found
  · rw [same]
    constructor
    · refine invariant.everywhere_fill everywhere atCell ?_ ?_
      · trivial
      · intro other holds
        cases holds
    · simpa using everywhere.child found

/-- An edit inside that keeps an invariant and the formats keeps it in the block around it. -/
theorem everywhere_updateAt_getD {Answer : Type} {edit : Block → Block × Answer}
    (keeps : ∀ inner, (edit inner).1.format = inner.format)
    (edited : ∀ inner : Block, inner.Everywhere (Holds style) →
      (edit inner).1.Everywhere (Holds style))
    (steps : List Step) (answer : Answer) (everywhere : block.Everywhere (Holds style)) :
    ((updateAt style edit steps block).getD (block, answer)).1.Everywhere (Holds style) := by
  cases updated : updateAt style edit steps block with
  | none => exact everywhere
  | some result => exact invariant.everywhere_updateAt keeps edited updated everywhere

/-- Detaching keeps an invariant, both in what is left and in what is detached. -/
theorem everywhere_detach (path : BlockPath) (everywhere : block.Everywhere (Holds style)) :
    (block.detach style path).1.Everywhere (Holds style) ∧
      ∀ taken ∈ (block.detach style path).2, taken.Everywhere (Holds style) := by
  rw [detach_eq]
  split
  · exact ⟨everywhere, by simp⟩
  · rename_i parent last _
    constructor
    · exact invariant.everywhere_updateAt_getD (format_takeChild style last)
        (fun _ inner => (invariant.everywhere_takeChild last inner).1) _ _ everywhere
    · intro taken takenMem
      cases updated : updateAt style (takeChild style last) parent.steps block with
      | none => simp [updated] at takenMem
      | some result =>
          rcases updateAt_target updated with ⟨target, found, answered, _⟩
          rw [updated, Option.getD_some, answered] at takenMem
          exact (invariant.everywhere_takeChild last (everywhere.descendant found)).2 taken takenMem

theorem everywhere_setValueAt (text : String) (x y : Float32)
    (everywhere : block.Everywhere (Holds style)) :
    (block.setValueAt style text x y).1.Everywhere (Holds style) := by
  rw [setValueAt]
  split
  · exact invariant.everywhere_updateAt_getD (format_typeText style _ _ text)
      (fun _ inner => invariant.everywhere_typeText _ _ text inner) _ _ everywhere
  · exact everywhere

theorem everywhere_removeAt (x y : Float32) (everywhere : block.Everywhere (Holds style)) :
    (block.removeAt style x y).1.Everywhere (Holds style) ∧
      ∀ taken ∈ (block.removeAt style x y).2, taken.Everywhere (Holds style) := by
  rw [removeAt]
  split
  · exact invariant.everywhere_detach _ everywhere
  · exact ⟨everywhere, by simp⟩

/-- An edit keeps an invariant everywhere, in the block and in what it hands out, if the invariant
is everywhere in what the edit brings along. -/
theorem everywhere_apply (edit : Edit)
    (brought : ∀ child ∈ edit.handed, child.Everywhere (Holds style))
    (everywhere : block.Everywhere (Holds style)) :
    (edit.apply style block).1.Everywhere (Holds style) ∧
      ∀ out ∈ (edit.apply style block).2, out.Everywhere (Holds style) := by
  cases edit with
  | setLiteral line column text =>
      exact ⟨invariant.everywhere_typeText line column text everywhere, by simp [Edit.apply]⟩
  | placeChild line column child =>
      exact invariant.everywhere_placeChild line column everywhere (brought child rfl)
  | insertChild line index child =>
      exact invariant.everywhere_insertChild line index everywhere (brought child rfl)
  | pushChild line child => exact invariant.everywhere_pushChild line everywhere (brought child rfl)
  | takeChild step => exact invariant.everywhere_takeChild step everywhere
  | detach path => exact invariant.everywhere_detach path everywhere
  | setValueAt text x y =>
      exact ⟨invariant.everywhere_setValueAt text x y everywhere, by simp [Edit.apply]⟩
  | removeAt x y => exact invariant.everywhere_removeAt x y everywhere
  | relayout => exact ⟨invariant.everywhere_relaid style everywhere, by simp [Edit.apply]⟩

end Invariant

end Block

end BlockEditor
