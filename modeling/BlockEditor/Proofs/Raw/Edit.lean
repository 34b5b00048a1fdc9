import BlockEditor.Proofs.Block.Edit
import BlockEditor.Proofs.Raw.Layout
import BlockEditor.Raw.Edit

/-!
# Edits of raw blocks

An edit of a raw block that represents a block finds every position that it uses, and gives a raw
block that represents the block after the same edit; what it hands out represents what is handed out
there. Where the edit is refused the raw block is the same as before, because an edit by path that
leads nowhere puts each block on the way back into its place.
-/

namespace BlockEditor

open Checked

variable {style : Style}

namespace RawBlock

variable {raw rawChild : RawBlock} {block child : Block} {line column : Nat}

/-- What a raw edit gives is what the edit gives: the block afterwards, and the block handed out. -/
def SameResult (raw : RawBlock × Option RawBlock) (result : Block × Option Block) : Prop :=
  raw.1.Represents result.1 ∧ Option.Rel Represents raw.2 result.2

/-- A block is handed back and nothing has changed, here and there, or it has been put into both. -/
inductive SamePlacing (raw rawChild : RawBlock) (block child : Block) :
    RawBlock × Option RawBlock → Block × Option Block → Prop where
  | refused : SamePlacing raw rawChild block child (raw, some rawChild) (block, some child)
  | placed {rawAfter : RawBlock} {after : Block} (same : rawAfter.Represents after) :
      SamePlacing raw rawChild block child (rawAfter, none) (after, none)

/-- What is placed or handed back alike gives results that are alike. -/
theorem SamePlacing.sameResult {result : RawBlock × Option RawBlock}
    {expected : Block × Option Block}
    (placing : SamePlacing raw rawChild block child result expected)
    (represents : raw.Represents block) (same : rawChild.Represents child) :
    SameResult result expected := by
  cases placing with
  | refused => exact ⟨represents, .some same⟩
  | placed sameAfter => exact ⟨sameAfter, .none⟩

/-- What a raw edit gives is what the edit gives: the block afterwards, and whether it took it. -/
def SameAnswer (raw : RawBlock × Bool) (result : Block × Bool) : Prop :=
  raw.1.Represents result.1 ∧ raw.2 = result.2

/-- The contents of a line change together with the line, if its sizes and slots stay. -/
theorem Represents.setLine (represents : raw.Represents block) {content : RawLine RawBlock}
    {sizes : List Size} {old new : Line Block} (atLine : block.lines[line]? = some old)
    (atRow : raw.cellSizes[line]? = some sizes) (agrees : content.Agrees Represents sizes new)
    (sameShape : new.shape = old.shape) (sameSize : new.size = old.size) :
    (raw.setLine line content).Represents (block.setLine line new) := by
  refine .intro represents.format represents.size ?_ ?_ (represents.lines.set atRow agrees)
  · rw [Block.format_setLine, ← represents.shape]
    exact map_set_eq_map atLine sameShape
  · exact represents.lineSizes.trans (map_set_eq_map atLine sameSize).symm

/-- Rows that are alike stay so when contents that are alike are put into one column. -/
theorem cells_withContent {contents : List (Content RawBlock)} {cells : List (Cell Block)}
    (same : List.Forall₂ (fun content cell => Content.Agrees Represents content cell.content)
      contents cells) {content : Content RawBlock} {new : Content Block}
    (agrees : content.Agrees Represents new) {cell : Cell Block}
    (inRow : cells[column]? = some cell)
    (holds : (cell.withContent new).content = new) :
    List.Forall₂ (fun content cell => Content.Agrees Represents content cell.content)
      (contents.set column content) (cells.modify column (·.withContent new)) := by
  rw [modify_eq_set inRow]
  apply forall₂_set same
  rw [holds]
  exact agrees

theorem size_withContent (cell : Cell Block) (content : Content Block) :
    (cell.withContent content).size = cell.size := by
  cases cell <;> rfl

/-- Another content in a column of a raw block goes together with that content in the block. -/
theorem Represents.setContent (represents : raw.Represents block) {kind : ColumnKind}
    {old new : Content Block} {size : Size} {content : Content RawBlock}
    (atCell : block.cell? line column = some (.column kind old size))
    (agrees : content.Agrees Represents new) :
    (raw.setContent line column content).Represents (block.setContent line column new) := by
  rcases Block.cell?_eq_some atCell with ⟨cells, lineSize, atLine, inRow⟩
  rcases represents.lines.of_getElem? atLine with ⟨rawLine, sizes, inLines, atRow, lineAgrees⟩
  cases lineAgrees with
  | @columns contents _ _ _ same sameSizes =>
      rw [Block.setContent_eq_setLine atLine, RawBlock.setContent, inLines]
      refine represents.setLine atLine atRow ?_ ?_ rfl
      · refine .columns (cells_withContent same agrees inRow rfl) ?_
        rw [modify_eq_set inRow, map_set_eq_map inRow (size_withContent _ new)]
        exact sameSizes
      · rw [modify_eq_set inRow]
        exact Line.shape_set inRow (Cell.slot_withContent _ new) lineSize

/-- A raw block that stands for one directly inside is put into its place. -/
theorem Represents.setChild (represents : raw.Represents block) {step : Step} {old : Block}
    (found : block.child? step = some old) (same : rawChild.Represents child) :
    (raw.setChild step rawChild).Represents (block.setChild step child) := by
  rcases Option.bind_eq_some_iff.mp found with ⟨inLine, atLine, inPosition⟩
  rcases represents.lines.of_getElem? atLine with ⟨rawLine, sizes, inLines, atRow, agrees⟩
  have rawSet : raw.setChild step rawChild =
      raw.setLine step.line (rawLine.setChild step.position rawChild) := by
    rw [RawBlock.setChild, RawBlock.setLine, modify_eq_set inLines]
  rw [rawSet, Block.setChild_eq_setLine atLine]
  cases agrees with
  | @columns contents _ cells size sameContents sameSizes =>
      rcases Option.bind_eq_some_iff.mp inPosition with ⟨cell, inRow, holds⟩
      refine represents.setLine atLine atRow ?_ ?_ rfl
      · refine .columns (cells_withContent sameContents (.block same) inRow
          (Cell.content_withContent holds _)) ?_
        rw [modify_eq_set inRow, map_set_eq_map inRow (size_withContent _ _)]
        exact sameSizes
      · rw [Line.setChild, modify_eq_set inRow]
        exact Line.shape_set inRow (Cell.slot_withContent _ _) size
  | stack sameStack =>
      exact represents.setLine atLine atRow (.stack (forall₂_set sameStack step.position same)) rfl
        rfl

/-- Setting the child that is there changes nothing. -/
theorem setChild_self {step : Step} (found : raw.child? step = some rawChild) :
    raw.setChild step rawChild = raw := by
  rcases Option.bind_eq_some_iff.mp found with ⟨inLine, atLine, inPosition⟩
  have same : inLine.setChild step.position rawChild = inLine := by
    cases inLine with
    | columns contents =>
        rcases Option.bind_eq_some_iff.mp inPosition with ⟨content, inRow, holds⟩
        cases Content.block?_eq_some_iff.mp holds
        rw [RawLine.setChild, set_eq_self inRow]
    | stack children => rw [RawLine.setChild, set_eq_self inPosition]
  rw [RawBlock.setChild, modify_eq_set atLine, same, set_eq_self atLine]
  cases raw
  rfl

/-- What was taken out of a column and is put back is where it was. -/
theorem setContent_setContent_self {contents : List (Content RawBlock)}
    {content : Content RawBlock} (atLine : raw.lines[line]? = some (.columns contents))
    (inRow : contents[column]? = some content) (other : Content RawBlock) :
    (raw.setContent line column other).setContent line column content = raw := by
  rcases List.getElem?_eq_some_iff.mp atLine with ⟨inRange, _⟩
  have emptied : (raw.setContent line column other).lines[line]? =
      some (.columns (contents.set column other)) := by
    rw [setContent, atLine]
    simp [setLine, inRange]
  rw [setContent, emptied]
  simp only [setContent, atLine, setLine, List.set_set, set_eq_self inRow, set_eq_self atLine]
  cases raw
  rfl

theorem Represents.typeText (represents : raw.Represents block) (style : Style) (line column : Nat)
    (text : String) :
    Yields SameAnswer (raw.typeText style line column text)
      (block.typeText style line column text) := by
  rw [RawBlock.typeText, Block.typeText, represents.slot?]
  rcases rel_cases (represents.content? line column) with
    ⟨noContent, noCell⟩ | ⟨content, cell, inRaw, atCell, agrees⟩
  · rw [noContent, noCell]
    exact yields_ok ⟨represents, rfl⟩
  · rw [inRaw, atCell]
    cases cell with
    | label label size => exact yields_ok ⟨represents, rfl⟩
    | column kind held size =>
        have sameTest : content.block?.isNone = held.block?.isNone := agrees.isNone_block?
        simp only [Option.map_some, Cell.slot, sameTest]
        split
        · apply ((represents.setContent atCell (.ofText text)).measured style).bind
          intro after same
          exact yields_ok ⟨same, rfl⟩
        · exact yields_ok ⟨represents, rfl⟩

/-- Placing a block in a column does not fail and does what placing does. -/
theorem Represents.placeChild (represents : raw.Represents block) (same : rawChild.Represents child)
    (style : Style) (line column : Nat) :
    Yields (SamePlacing raw rawChild block child) (raw.placeChild style line column rawChild)
      (block.placeChild style line column child) := by
  rw [RawBlock.placeChild, Block.placeChild, represents.slot?]
  rcases rel_cases (represents.content? line column) with
    ⟨noContent, noCell⟩ | ⟨content, cell, inRaw, atCell, agrees⟩
  · rw [noContent, noCell]
    exact yields_ok .refused
  · rw [inRaw, atCell]
    cases cell with
    | label label size => exact yields_ok .refused
    | column kind held size =>
        have sameTest : content.isEmpty = held.isEmpty := agrees.isEmpty
        simp only [Option.map_some, Cell.slot, sameTest, same.format]
        split
        · apply ((represents.setContent atCell (.block same)).measured style).bind
          intro after sameAfter
          exact yields_ok (.placed sameAfter)
        · exact yields_ok .refused

/-- Inserting a block into a stack does not fail and does what inserting does. -/
theorem Represents.insertChild (represents : raw.Represents block)
    (same : rawChild.Represents child) (style : Style) (line index : Nat) :
    Yields (SamePlacing raw rawChild block child) (raw.insertChild style line index rawChild)
      (block.insertChild style line index child) := by
  rw [RawBlock.insertChild, Block.insertChild]
  rcases rel_cases (represents.lines.rel_getElem? line) with
    ⟨noContent, noLine⟩ | ⟨content, inBlock, inRaw, atLine, sizes, atRow, agrees⟩
  · rw [noContent, noLine]
    exact yields_ok .refused
  · rw [inRaw, atLine]
    cases agrees with
    | columns _ _ => exact yields_ok .refused
    | @stack raws _ children size sameStack =>
        simp only [insertItem_eq_ok (Nat.min_le_right index raws.length), ok_bind]
        rw [sameStack.length_eq]
        have filled := represents.setLine atLine atRow
          (.stack (forall₂_insertIdx sameStack (min index children.length) same) :
            RawLine.Agrees Represents _ sizes (.stack _ size)) rfl rfl
        apply (filled.measured style).bind
        intro after sameAfter
        exact yields_ok (.placed sameAfter)

theorem Represents.pushChild (represents : raw.Represents block) (same : rawChild.Represents child)
    (style : Style) (line : Nat) :
    Yields (SamePlacing raw rawChild block child) (raw.pushChild style line rawChild)
      (block.pushChild style line child) := by
  rw [RawBlock.pushChild]
  rcases rel_cases (represents.lines.rel_getElem? line) with
    ⟨noContent, noLine⟩ | ⟨content, inBlock, inRaw, atLine, sizes, atRow, agrees⟩
  · rw [noContent, Block.pushChild, noLine]
    exact yields_ok .refused
  · rw [inRaw]
    cases agrees with
    | columns _ _ =>
        rw [Block.pushChild, atLine]
        exact yields_ok .refused
    | @stack raws _ children size sameStack =>
        have atEnd : block.pushChild style line child =
            block.insertChild style line raws.length child := by
          simp [Block.pushChild, Block.insertChild, atLine, sameStack.length_eq]
        rw [atEnd]
        exact represents.insertChild same style line raws.length

/-- Taking a child does not fail and takes the same. -/
theorem Represents.takeChild (represents : raw.Represents block) (style : Style) (step : Step) :
    Yields SameResult (raw.takeChild style step) (block.takeChild style step) := by
  rw [RawBlock.takeChild]
  rcases rel_cases (represents.lines.rel_getElem? step.line) with
    ⟨noContent, noLine⟩ | ⟨content, inBlock, inRaw, atLine, sizes, atRow, agrees⟩
  · rw [noContent, Block.takeChild, noLine]
    exact yields_ok ⟨represents, .none⟩
  · rw [inRaw]
    cases agrees with
    | @columns contents _ cells size sameContents _ =>
        rcases rel_cases (rel_getElem? sameContents step.position) with
          ⟨noColumn, noCell⟩ | ⟨content, cell, inContents, inCells, agrees⟩
        · simp only [noColumn]
          rw [Block.takeChild_of_nothing (by simp [Block.child?, atLine, noCell])]
          exact yields_ok ⟨represents, .none⟩
        · simp only [inContents]
          generalize held : cell.content = cellContent at agrees
          cases agrees with
          | empty =>
              simp only [setContent_setContent_self inRaw inContents]
              rw [Block.takeChild_of_nothing (by simp [Block.child?, atLine, inCells, held])]
              exact yields_ok ⟨represents, .none⟩
          | literal text =>
              simp only [setContent_setContent_self inRaw inContents]
              rw [Block.takeChild_of_nothing (by simp [Block.child?, atLine, inCells, held])]
              exact yields_ok ⟨represents, .none⟩
          | @block rawTaken taken same =>
              have found : block.child? step = some taken := by
                simp [Block.child?, atLine, inCells, held]
              rcases cell with _ | ⟨kind, _, cellSize⟩
              · cases held
              · cases held
                have atCell : block.cell? step.line step.position =
                    some (.column kind (.block taken) cellSize) := by
                  simp [Block.cell?, atLine, Line.cell?, inCells]
                rw [Block.takeChild_of_columns found atLine, ← Block.setContent_eq_setLine atLine]
                apply ((represents.setContent atCell .empty).measured style).bind
                intro after sameAfter
                exact yields_ok ⟨sameAfter, .some same⟩
    | @stack raws _ children size sameStack =>
        rcases rel_cases (rel_getElem? sameStack step.position) with
          ⟨noRaw, noChild⟩ | ⟨rawTaken, taken, inRaws, inChildren, same⟩
        · rw [Block.takeChild_of_nothing (by simp [Block.child?, atLine, noChild])]
          simp only [List.getElem?_eq_none_iff.mp noRaw, if_true]
          exact yields_ok ⟨represents, .none⟩
        · rcases List.getElem?_eq_some_iff.mp inRaws with ⟨inRange, _⟩
          have left := represents.setLine atLine atRow
            (.stack (forall₂_eraseIdx sameStack step.position) :
              RawLine.Agrees Represents _ sizes (.stack _ size)) rfl rfl
          have found : block.child? step = some taken := by
            simp [Block.child?, atLine, inChildren]
          rw [Block.takeChild_of_stack found atLine]
          simp only [Nat.not_le_of_lt inRange, if_false, takeItem_eq_ok inRaws, ok_bind]
          apply (left.measured style).bind
          intro after sameAfter
          exact yields_ok ⟨sameAfter, .some same⟩

variable {RawAnswer Answer : Type} {SameAnswers : RawAnswer → Answer → Prop}
  {rawEdit : RawBlock → Except OutOfRange (RawBlock × RawAnswer)} {edit : Block → Block × Answer}

/-- Where a path leads nowhere, the blocks on the way are put back as they were. -/
theorem Represents.updateAt_nowhere (represents : raw.Represents block) {steps : List Step}
    (nowhere : block.descendant? steps = none) :
    updateAt style rawEdit steps raw = .ok (raw, none) := by
  induction steps generalizing raw block with
  | nil => cases nowhere
  | cons step rest ih =>
      rw [Block.descendant?_cons] at nowhere
      rcases rel_cases (represents.child? step) with
        ⟨noRaw, _⟩ | ⟨rawChild, child, inRaw, inBlock, same⟩
      · simp only [updateAt, noRaw]
        rfl
      · rw [inBlock, Option.bind_some] at nowhere
        simp only [updateAt, inRaw, ih same nowhere, ok_bind, setChild_self inRaw]
        rfl

/-- An edit at the end of a path changes and measures the raw block as it does the block, if it does
so with the block at the end of the path. -/
theorem Represents.updateAt (represents : raw.Represents block) {steps : List Step} {target : Block}
    (reached : block.descendant? steps = some target)
    (edited : ∀ rawTarget : RawBlock, rawTarget.Represents target →
      Yields (fun raw result => raw.1.Represents result.1 ∧ SameAnswers raw.2 result.2)
        (rawEdit rawTarget) (edit target)) :
    ∃ after, Block.updateAt style edit steps block = some (after, (edit target).2) ∧
      Yields (fun raw after => raw.1.Represents after ∧
          ∃ answer, raw.2 = some answer ∧ SameAnswers answer (edit target).2)
        (RawBlock.updateAt style rawEdit steps raw) after := by
  induction steps generalizing raw block with
  | nil =>
      cases reached
      refine ⟨_, rfl, ?_⟩
      apply (edited raw represents).bind
      rintro ⟨changed, answer⟩ ⟨sameChanged, sameAnswer⟩
      apply (sameChanged.measured style).bind
      intro measured same
      exact yields_ok ⟨same, answer, rfl, sameAnswer⟩
  | cons step rest ih =>
      rw [Block.descendant?_cons, Option.bind_eq_some_iff] at reached
      rcases reached with ⟨child, found, reached⟩
      rcases rel_cases (represents.child? step) with
        ⟨_, nothing⟩ | ⟨rawChild, other, inRaw, inBlock, same⟩
      · cases found.symm.trans nothing
      · cases found.symm.trans inBlock
        rcases ih same reached with ⟨changed, updated, yields⟩
        refine ⟨(block.setChild step changed).measured style,
          by simp [Block.updateAt, found, updated], ?_⟩
        simp only [RawBlock.updateAt, inRaw]
        apply yields.bind
        rintro ⟨rawChanged, _⟩ ⟨sameChanged, answer, rfl, sameAnswer⟩
        apply ((represents.setChild found sameChanged).measured style).bind
        intro measured same
        exact yields_ok ⟨same, answer, rfl, sameAnswer⟩

/-- Detaching does not fail and detaches the same. -/
theorem Represents.detach (represents : raw.Represents block) (style : Style) (path : BlockPath) :
    Yields SameResult (raw.detach style path) (block.detach style path) := by
  rw [RawBlock.detach, Block.detach_eq]
  cases path.splitLast? with
  | none => exact yields_ok ⟨represents, .none⟩
  | some split =>
      rcases split with ⟨parent, last⟩
      cases reached : block.descendant? parent.steps with
      | none =>
          simp only [represents.updateAt_nowhere reached, Block.updateAt_eq_none _ reached, ok_bind]
          exact yields_ok ⟨represents, .none⟩
      | some target =>
          have both : ∃ after,
              Block.updateAt style (Block.takeChild style last) parent.steps block =
                some (after, (target.takeChild style last).2) ∧
              Yields (fun raw after => raw.1.Represents after ∧
                  ∃ answer, raw.2 = some answer ∧
                    Option.Rel Represents answer (target.takeChild style last).2)
                (RawBlock.updateAt style (RawBlock.takeChild style last) parent.steps raw) after :=
            represents.updateAt reached fun rawTarget same => same.takeChild style last
          rcases both with ⟨after, updated, yields⟩
          simp only [updated, Option.getD_some]
          apply yields.bind
          rintro ⟨rawAfter, _⟩ ⟨sameAfter, answer, rfl, sameAnswer⟩
          exact yields_ok ⟨sameAfter, sameAnswer⟩

end RawBlock

end BlockEditor
