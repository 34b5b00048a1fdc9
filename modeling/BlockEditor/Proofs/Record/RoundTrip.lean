import BlockEditor.Proofs.Block.Layout
import BlockEditor.Proofs.Except
import BlockEditor.Record.Load

/-!
# Reading back a block that was written

A record holds the contents of a block in two lists, one for the columns and one for the stacks, and
the format alone says where they belong. Reading fills the lines of the format from the fronts of
these lists: what a line was written as is taken from the front, and what is left is what the
following lines were written as (`Block.fillSlots_cellParams`, `Block.fillLines_record`). Sizes are
not written. They are computed after reading, so they come back if they were current.
-/

namespace BlockEditor

variable {style : Style} {catalog : Catalog} {id : String}

/-- The cell before it is laid out. -/
def Cell.unsized : Cell Block → Cell Block
  | .label text _ => .label text .zero
  | .column kind content _ => .column kind content .zero

/-- The line before it is laid out. -/
def Line.unsized : Line Block → Line Block
  | .columns cells _ => .columns (cells.map Cell.unsized) .zero
  | .stack children _ => .stack children .zero

@[simp]
theorem Cell.measured_unsized (style : Style) (cell : Cell Block) :
    cell.unsized.measured style = cell.measured style := by
  rcases cell with _ | ⟨kind, content, size⟩
  · rfl
  · cases content <;> rfl

@[simp]
theorem Line.measured_unsized (style : Style) (line : Line Block) :
    line.unsized.measured style = line.measured style := by
  cases line with
  | columns cells size => simp [unsized, measured, Function.comp_def]
  | stack children size => rfl

namespace Block

/-- A column of a kind may hold a literal only if the kind is an input, and none that is empty. -/
def LiteralsFit (block : Block) : Prop :=
  ∀ line column kind text size, block.cell? line column = some (.column kind (.literal text) size) →
    kind.isInput = true ∧ text ≠ ""

/-- A block is the one that is built from its record. -/
def ReadsBack (catalog : Catalog) (style : Style) (block : Block) : Prop :=
  ofRecord catalog style block.record = .ok block

theorem paramContents_append (first second : List (Param InstanceRecord)) :
    paramContents catalog style id (first ++ second) =
      paramContents catalog style id first ++ paramContents catalog style id second := by
  induction first with
  | nil => rfl
  | cons param rest ih => cases param <;> simp [paramContents, ih]

@[simp]
theorem length_paramContents (params : List (Param InstanceRecord)) :
    (paramContents catalog style id params).length = params.length := by
  induction params with
  | nil => rfl
  | cons param rest ih => cases param <;> simp [paramContents, ih]

@[simp]
theorem length_stackContents (lists : List (List InstanceRecord)) :
    (stackContents catalog style lists).length = lists.length := by
  induction lists with
  | nil => rfl
  | cons records rest ih => simp [stackContents, ih]

/-- The cells write one param for each column among their slots. -/
theorem length_cellParams (cells : List (Cell Block)) :
    (cellParams cells).length = (cells.map Cell.slot).countP Slot.isChild := by
  induction cells with
  | nil => rfl
  | cons cell rest ih =>
      cases cell with
      | label text size => exact ih
      | column kind content size =>
          have one : (paramsOfCell (.column kind content size)).length = 1 := by
            cases content <;> rfl
          rw [cellParams, List.length_append, one, ih, List.map_cons, List.countP_cons_of_pos rfl,
            Nat.add_comm]

/-- The lines write as many params as their format has columns. -/
theorem length_lineParams (lines : List (Line Block)) :
    (lineParams lines).length =
      ((lines.map Line.shape).flatMap FormatLine.slots).countP Slot.isChild := by
  induction lines with
  | nil => rfl
  | cons line rest ih =>
      cases line <;>
        simp [lineParams, paramsOfLine, Line.shape, FormatLine.slots, ih, length_cellParams]

/-- The lines write as many lists as their format has stacks. -/
theorem length_lineLists (lines : List (Line Block)) :
    (lineLists lines).length = (lines.map Line.shape).countP FormatLine.isStack := by
  induction lines with
  | nil => rfl
  | cons line rest ih =>
      cases line with
      | columns cells size => exact ih
      | stack children size =>
          rw [lineLists, List.length_append, ih, List.map_cons, List.countP_cons_of_pos rfl,
            Nat.add_comm]
          rfl

/-- What a column was written as is read back, if the block in it is. -/
theorem paramContents_column {kind : ColumnKind} {content : Content Block} {size : Size}
    (literals : ∀ text, content = .literal text → kind.isInput = true ∧ text ≠ "")
    (nested : ∀ child, content = .block child →
      child.ReadsBack catalog style) :
    ∃ param, paramContents catalog style id (paramsOfCell (.column kind content size)) = [param] ∧
      param kind = .ok content := by
  cases content with
  | empty =>
      refine ⟨_, rfl, ?_⟩
      simp [contentOfLiteral, Content.ofText]
  | literal text =>
      rcases literals text rfl with ⟨isInput, notEmpty⟩
      refine ⟨_, rfl, ?_⟩
      simp [contentOfLiteral, Content.ofText, isInput, notEmpty]
  | block child =>
      refine ⟨_, rfl, ?_⟩
      have read : ofRecord catalog style child.record = .ok child := nested child rfl
      simp [read, Except.map]

/-- A row of cells is filled again from the params it writes. -/
theorem fillSlots_cellParams {cells : List (Cell Block)} (rest : List ParamContent)
    (literals : ∀ kind text size, .column kind (.literal text) size ∈ cells →
      kind.isInput = true ∧ text ≠ "")
    (nested : ∀ cell ∈ cells, ∀ child, cell.content = .block child →
      child.ReadsBack catalog style) :
    fillSlots id (cells.map Cell.slot)
        (paramContents catalog style id (cellParams cells) ++ rest) =
      .ok (cells.map Cell.unsized, rest) := by
  induction cells with
  | nil => rfl
  | cons cell cells ih =>
      have filled := ih (fun kind text size cellMem =>
        literals kind text size (List.mem_cons_of_mem _ cellMem))
        (fun other otherMem => nested other (List.mem_cons_of_mem _ otherMem))
      cases cell with
      | label text size =>
          exact bind_eq_ok.mpr ⟨_, filled, rfl⟩
      | column kind content size =>
          have found : ∃ param, paramContents catalog style id
              (paramsOfCell (.column kind content size)) = [param] ∧ param kind = .ok content := by
            apply paramContents_column
            · intro text isLiteral
              subst isLiteral
              exact literals kind text size List.mem_cons_self
            · exact nested _ List.mem_cons_self
          rcases found with ⟨param, written, read⟩
          rw [cellParams, paramContents_append, written]
          exact bind_eq_ok.mpr ⟨_, read, bind_eq_ok.mpr ⟨_, filled, rfl⟩⟩

theorem ofRecords_stackRecords {children : List Block}
    (nested : ∀ child ∈ children, child.ReadsBack catalog style) :
    ofRecords catalog style (stackRecords children) = .ok children := by
  induction children with
  | nil => rfl
  | cons child rest ih =>
      have others := ih (fun other otherMem => nested other (List.mem_cons_of_mem _ otherMem))
      have read : ofRecord catalog style child.record = .ok child := nested child List.mem_cons_self
      exact bind_eq_ok.mpr ⟨_, read, bind_eq_ok.mpr ⟨_, others, rfl⟩⟩

/-- The lines are filled again from the params and the lists they write. -/
theorem fillLines_record {lines : List (Line Block)}
    (literals : ∀ line ∈ lines, ∀ column kind text size,
      line.cell? column = some (.column kind (.literal text) size) →
        kind.isInput = true ∧ text ≠ "")
    (nested : ∀ line ∈ lines, ∀ position child, line.child? position = some child →
      child.ReadsBack catalog style) :
    fillLines id (lines.map Line.shape) (paramContents catalog style id (lineParams lines))
        (stackContents catalog style (lineLists lines)) =
      .ok (lines.map Line.unsized) := by
  induction lines with
  | nil => rfl
  | cons line lines ih =>
      have filled := ih (fun other otherMem => literals other (List.mem_cons_of_mem _ otherMem))
        (fun other otherMem => nested other (List.mem_cons_of_mem _ otherMem))
      cases line with
      | columns cells size =>
          have inRow : fillSlots id (cells.map Cell.slot)
              (paramContents catalog style id (cellParams cells) ++
                paramContents catalog style id (lineParams lines)) =
                .ok (cells.map Cell.unsized,
                  paramContents catalog style id (lineParams lines)) := by
            apply fillSlots_cellParams
            · intro kind text cellSize cellMem
              rcases List.getElem?_of_mem cellMem with ⟨column, atColumn⟩
              exact literals _ List.mem_cons_self column kind text cellSize atColumn
            · intro cell cellMem child holds
              rcases List.getElem?_of_mem cellMem with ⟨column, atColumn⟩
              exact nested _ List.mem_cons_self column child (by simp [atColumn, holds])
          rw [lineParams, paramsOfLine, paramContents_append]
          exact bind_eq_ok.mpr ⟨_, inRow, bind_eq_ok.mpr ⟨_, filled, rfl⟩⟩
      | stack children size =>
          have inStack : ofRecords catalog style (stackRecords children) = .ok children := by
            apply ofRecords_stackRecords
            intro child childMem
            rcases List.getElem?_of_mem childMem with ⟨position, found⟩
            exact nested _ List.mem_cons_self position child found
          exact bind_eq_ok.mpr ⟨_, inStack, bind_eq_ok.mpr ⟨_, filled, rfl⟩⟩

/-- A block reads back if its record fills the format that the catalog has for it, its literals are
such as a record keeps, and its sizes are current. -/
theorem readsBack_of_nested {block : Block} (shaped : block.shape = block.format.lines)
    (literals : block.LiteralsFit) (isMeasured : block.IsMeasured style)
    (resolved : catalog.lookup block.format.id = some block.format)
    (nested : ∀ step child, block.child? step = some child → child.ReadsBack catalog style) :
    block.ReadsBack catalog style := by
  rcases block with ⟨format, lines, size⟩
  have sameShape : lines.map Line.shape = format.lines := shaped
  have filledLines : fillLines format.id format.lines
      (paramContents catalog style format.id (lineParams lines))
      (stackContents catalog style (lineLists lines)) = .ok (lines.map Line.unsized) := by
    rw [← sameShape]
    apply fillLines_record
    · intro line lineMem column kind text cellSize atColumn
      rcases List.getElem?_of_mem lineMem with ⟨index, atLine⟩
      exact literals index column kind text cellSize (by simp [cell?, atLine, atColumn])
    · intro line lineMem position child found
      rcases List.getElem?_of_mem lineMem with ⟨index, atLine⟩
      exact nested ⟨index, position⟩ child (by simp [child?, atLine, found])
  have enoughParams : (paramContents catalog style format.id (lineParams lines)).length =
      format.paramCount := by
    rw [length_paramContents, length_lineParams, sameShape, BlockFormat.paramCount]
  have enoughStacks : (stackContents catalog style (lineLists lines)).length =
      format.stackCount := by
    rw [length_stackContents, length_lineLists, sameShape, BlockFormat.stackCount]
  have remeasured : (⟨format, lines.map Line.unsized, .zero⟩ : Block).measured style =
      (⟨format, lines, size⟩ : Block).measured style := by
    simp [measured, Function.comp_def]
  rw [ReadsBack, record, ofRecord, resolved]
  simp only [filled, enoughParams, enoughStacks, ne_eq, not_true_eq_false, if_false, filledLines]
  refine congrArg Except.ok ?_
  exact remeasured.trans isMeasured

/-- A block is given back by its record: the formats, the contents and every size at any depth, if
the contents match the formats, literals are not empty and only on inputs, the layout is current,
and the catalog knows the formats under their identifiers. -/
theorem ofRecord_record {block : Block}
    (shaped : block.Everywhere fun inner => inner.shape = inner.format.lines)
    (literals : block.Everywhere LiteralsFit) (current : block.relaid style = block)
    (resolved : block.Everywhere fun inner =>
      catalog.lookup inner.format.id = some inner.format) :
    ofRecord catalog style block.record = .ok block := by
  -- The layout of the whole block does not descend to the blocks inside; being measured does.
  have isMeasured := relaid_eq_self_iff.mp current
  clear current
  induction block using Block.induction with
  | inside block ih =>
      apply readsBack_of_nested shaped.here literals.here isMeasured.here resolved.here
      intro step child found
      exact ih step child found (shaped.child found) (literals.child found) (resolved.child found)
        (isMeasured.child found)

/-- A block with a literal and a nested block comes back from its record. -/
theorem ofRecord_record_loop :
    ∃ (catalog : Catalog) (style : Style) (block : Block), block.count = 2 ∧
      block.record.params = [.literal "3"] ∧ block.relaid style = block ∧
        ofRecord catalog style block.record = .ok block := by
  let leaf : BlockFormat := .plain "leaf" 0 [.columns [.label "leaf"]]
  let loop : BlockFormat :=
    .plain "loop" 0 [.columns [.label "loop", .child (.input .num)], .stack]
  let catalog := Catalog.empty.registerFormats [leaf, loop]
  let style := catalog.style .standard
  let inner := Block.fresh style leaf
  let block := (⟨loop,
    [.columns [.label "loop" .zero, .column (.input .num) (.literal "3") .zero] .zero,
      .stack [inner] .zero], .zero⟩ : Block).measured style
  have innerGood : inner.Everywhere fun block => block.shape = block.format.lines ∧
      block.LiteralsFit ∧ block.IsMeasured style ∧
        catalog.lookup block.format.id = some block.format := by
    refine everywhere_measured_iff.mpr
      ⟨⟨rfl, ?_, isMeasured_measured style _, by decide +kernel⟩, ?_⟩
    · rintro (_ | line) (_ | column) kind text size found <;> cases found
    · rintro ⟨_ | line, _ | position⟩ child found <;> cases found
  have blockGood : block.Everywhere fun block => block.shape = block.format.lines ∧
      block.LiteralsFit ∧ block.IsMeasured style ∧
        catalog.lookup block.format.id = some block.format := by
    refine everywhere_measured_iff.mpr
      ⟨⟨rfl, ?_, isMeasured_measured style _, by decide +kernel⟩, ?_⟩
    · rintro (_ | _ | line) (_ | _ | column) kind text size found <;> cases found
      exact ⟨rfl, by decide⟩
    · rintro ⟨_ | _ | line, _ | _ | position⟩ child found <;> cases found
      exact innerGood
  have current : block.relaid style = block :=
    relaid_eq_self_iff.mpr (blockGood.mono fun _ good => good.2.2.1)
  exact ⟨catalog, style, block, rfl, rfl, current,
    ofRecord_record (blockGood.mono fun _ good => good.1) (blockGood.mono fun _ good => good.2.1)
      current (blockGood.mono fun _ good => good.2.2.2)⟩

end Block

end BlockEditor
