import BlockEditor.Proofs.Catalog.Marks
import BlockEditor.Proofs.Record.Nested
import BlockEditor.Proofs.Record.RoundTrip

/-!
# Blocks without marks and sizes

`Block.mapTree` changes every block of a tree, from the innermost ones outwards. With it,
`Block.unmarked` takes the deprecation marks off all formats in a block, and `Block.bare` takes off
all sizes as well. Building blocks from a record commutes with such changes (`Block.fillLines_map`),
so two catalogs that have the same formats for a record up to marks build the same block up to marks
(`Block.map_ofRecord_eq`), or answer with the same error.
-/

namespace BlockEditor

namespace Block

mutual

/-- The block with every block in it changed, from the innermost ones outwards. -/
def mapTree (change : Block → Block) : Block → Block
  | ⟨format, lines, size⟩ => change ⟨format, mapLines change lines, size⟩
termination_by structural block => block

/-- The lines with every block on them changed. -/
def mapLines (change : Block → Block) : List (Line Block) → List (Line Block)
  | [] => []
  | line :: rest => mapLine change line :: mapLines change rest
termination_by structural lines => lines

/-- The line with every block on it changed. -/
def mapLine (change : Block → Block) : Line Block → Line Block
  | .columns cells size => .columns (mapCells change cells) size
  | .stack children size => .stack (mapStack change children) size
termination_by structural line => line

/-- The cells with every block in them changed. -/
def mapCells (change : Block → Block) : List (Cell Block) → List (Cell Block)
  | [] => []
  | cell :: rest => mapCell change cell :: mapCells change rest
termination_by structural cells => cells

/-- The cell with every block in it changed. -/
def mapCell (change : Block → Block) : Cell Block → Cell Block
  | .label text size => .label text size
  | .column kind .empty size => .column kind .empty size
  | .column kind (.literal text) size => .column kind (.literal text) size
  | .column kind (.block child) size => .column kind (.block (child.mapTree change)) size
termination_by structural cell => cell

/-- The blocks of a stack, each with every block in it changed. -/
def mapStack (change : Block → Block) : List Block → List Block
  | [] => []
  | child :: rest => child.mapTree change :: mapStack change rest
termination_by structural children => children

end

/-- The block with no format in it marked deprecated. -/
def unmarked : Block → Block :=
  mapTree fun block => { block with format := block.format.unmarked }

/-- The block without sizes and with no format in it marked deprecated. -/
def bare : Block → Block :=
  mapTree fun block => ⟨block.format.unmarked, block.lines.map Line.unsized, .zero⟩

variable {change : Block → Block}

theorem mapStack_eq_map (children : List Block) :
    mapStack change children = children.map (mapTree change) := by
  induction children with
  | nil => rfl
  | cons child rest ih => simp [mapStack, ih]

theorem mapCell_eq_map (cell : Cell Block) : mapCell change cell = cell.map (mapTree change) := by
  rcases cell with _ | ⟨kind, content, size⟩
  · rfl
  · cases content <;> rfl

theorem mapCells_eq_map (cells : List (Cell Block)) :
    mapCells change cells = cells.map (Cell.map (mapTree change)) := by
  induction cells with
  | nil => rfl
  | cons cell rest ih => simp [mapCells, mapCell_eq_map, ih]

theorem mapLine_eq_map (line : Line Block) : mapLine change line = line.map (mapTree change) := by
  cases line with
  | columns cells size => simp [mapLine, Line.map, mapCells_eq_map]
  | stack children size => simp [mapLine, Line.map, mapStack_eq_map]

theorem mapLines_eq_map (lines : List (Line Block)) :
    mapLines change lines = lines.map (Line.map (mapTree change)) := by
  induction lines with
  | nil => rfl
  | cons line rest ih => simp [mapLines, mapLine_eq_map, ih]

/-- A tree is changed by changing the blocks directly inside with everything in them and then the
block itself. -/
theorem mapTree_eq (change : Block → Block) (block : Block) :
    block.mapTree change = change (block.mapChildren (mapTree change)) := by
  rcases block with ⟨format, lines, size⟩
  rw [mapTree, mapChildren, mapLines_eq_map]

theorem size_unmarked (block : Block) : block.unmarked.size = block.size := by
  rw [unmarked, mapTree_eq]
  rfl

end Block

section Measuring

variable {change : Block → Block} {style : Style}

/-- A change of the nested blocks that keeps their sizes keeps the size of a cell. -/
theorem Cell.measured_map (keeps : ∀ child, (change child).size = child.size) (cell : Cell Block) :
    (cell.map change).measured style = (cell.measured style).map change := by
  rcases cell with _ | ⟨kind, _ | text | child, size⟩
  · rfl
  · rfl
  · rfl
  · simp [map, Content.map, measured, measure, keeps]

theorem Line.measured_map (keeps : ∀ child, (change child).size = child.size) (line : Line Block) :
    (line.map change).measured style = (line.measured style).map change := by
  cases line with
  | columns cells size =>
      have sameSize : ∀ cell : Cell Block, (cell.map change).size = cell.size := by
        intro cell
        cases cell <;> rfl
      simp [map, measured, Function.comp_def, Cell.measured_map keeps, sameSize]
  | stack children size => simp [map, measured, Function.comp_def, keeps]

/-- Measuring a line shows in its sizes only, also after a change of its children. -/
theorem Line.unsized_map_measured (line : Line Block) :
    ((line.measured style).map change).unsized = (line.map change).unsized := by
  cases line with
  | columns cells size =>
      have sameCell : ∀ cell : Cell Block,
          ((cell.measured style).map change).unsized = (cell.map change).unsized := by
        intro cell
        cases cell <;> rfl
      simp [map, measured, unsized, Function.comp_def, sameCell]
  | stack children size => rfl

end Measuring

namespace Block

variable {change : Block → Block} {style otherStyle : Style}

/-- A change forgets the marks of formats, and what else a measurement may have brought. -/
def Forgets (change : Block → Block) (style otherStyle : Style) : Prop :=
  ∀ (first second : BlockFormat) (lines others : List (Line Block)),
    first.unmarked = second.unmarked → lines.map (Line.map change) = others.map (Line.map change) →
      change ((⟨first, lines, .zero⟩ : Block).measured style) =
        change ((⟨second, others, .zero⟩ : Block).measured otherStyle)

theorem measure_unmarked (style : Style) (format : BlockFormat) (sizes : List Size) :
    measure style format.unmarked sizes = measure style format sizes := rfl

/-- Whether a format is deprecated does not show in what a block measures. -/
theorem forgets_unmarked (style : Style) : Forgets unmarked style style := by
  have commutes : ∀ (format : BlockFormat) (lines : List (Line Block)),
      unmarked ((⟨format, lines, .zero⟩ : Block).measured style) =
        (⟨format.unmarked, lines.map (Line.map unmarked), .zero⟩ : Block).measured style := by
    intro format lines
    have sameLine : ∀ line : Line Block,
        (line.map unmarked).measured style = (line.measured style).map unmarked :=
      Line.measured_map size_unmarked
    have sameSize : ∀ line : Line Block, (line.map unmarked).size = line.size := by
      intro line
      cases line <;> rfl
    rw [unmarked, mapTree_eq, ← unmarked]
    simp [measured, mapChildren, Function.comp_def, sameLine, sameSize, measure_unmarked]
  intro first second lines others sameFormat sameLines
  rw [commutes, commutes, sameFormat, sameLines]

/-- The style of a block shows in its sizes only. -/
theorem forgets_bare (style otherStyle : Style) : Forgets bare style otherStyle := by
  have commutes : ∀ (style : Style) (format : BlockFormat) (lines : List (Line Block)),
      bare ((⟨format, lines, .zero⟩ : Block).measured style) =
        ⟨format.unmarked, (lines.map (Line.map bare)).map Line.unsized, .zero⟩ := by
    intro style format lines
    have sameLine : ∀ line : Line Block,
        ((line.measured style).map bare).unsized = (line.map bare).unsized :=
      Line.unsized_map_measured
    rw [bare, mapTree_eq, ← bare]
    simp [mapChildren, Function.comp_def, sameLine]
  intro first second lines others sameFormat sameLines
  rw [commutes, commutes, sameFormat, sameLines]

/-- What a parameter puts into a column, with the block changed that it may be. -/
def mapParam (change : Block → Block) (param : ParamContent) : ParamContent :=
  fun kind => (param kind).map (Content.map change)

/-- The blocks of a stack, each changed, if there is no error. -/
def mapList (change : Block → Block) (list : Except TreeError (List Block)) :
    Except TreeError (List Block) :=
  list.map (List.map change)

/-- Filling slots with changed contents gives the changed cells. -/
theorem fillSlots_map (change : Block → Block) (id : String) (slots : List Slot)
    (params : List ParamContent) :
    fillSlots id slots (params.map (mapParam change)) =
      (fillSlots id slots params).map fun row =>
        (row.1.map (Cell.map change), row.2.map (mapParam change)) := by
  induction slots generalizing params with
  | nil => rfl
  | cons slot slots ih =>
      cases slot with
      | label text =>
          rw [fillSlots, fillSlots, ih]
          cases fillSlots id slots params <;> rfl
      | child kind =>
          cases params with
          | nil => rfl
          | cons param params =>
              rw [List.map_cons, fillSlots, fillSlots, ih, mapParam]
              cases param kind <;> cases fillSlots id slots params <;> rfl

/-- Filling lines with changed contents gives the changed lines. -/
theorem fillLines_map (change : Block → Block) (id : String) (formatLines : List FormatLine)
    (params : List ParamContent) (lists : List (Except TreeError (List Block))) :
    fillLines id formatLines (params.map (mapParam change)) (lists.map (mapList change)) =
      (fillLines id formatLines params lists).map (List.map (Line.map change)) := by
  induction formatLines generalizing params lists with
  | nil => rfl
  | cons formatLine formatLines ih =>
      cases formatLine with
      | columns slots =>
          rw [fillLines, fillLines, fillSlots_map]
          cases fillSlots id slots params with
          | error error => rfl
          | ok row =>
              have rest := ih row.2 lists
              simp only [Except.map, bind, Except.bind, rest]
              cases fillLines id formatLines row.2 lists <;> rfl
      | stack =>
          cases lists with
          | nil => rfl
          | cons list lists =>
              rw [List.map_cons, fillLines, fillLines, ih, mapList]
              cases list <;> cases fillLines id formatLines params lists <;> rfl

/-- Two formats that are the same up to marks, filled with the same up to a change, give the same
block up to the change, or the same error. -/
theorem map_filled_eq (forgets : Forgets (mapTree change) style otherStyle)
    {first second : BlockFormat} (sameFormat : first.unmarked = second.unmarked) (id : String)
    {params otherParams : List ParamContent}
    (sameParams : params.map (mapParam (mapTree change)) =
      otherParams.map (mapParam (mapTree change)))
    {lists otherLists : List (Except TreeError (List Block))}
    (sameLists : lists.map (mapList (mapTree change)) =
      otherLists.map (mapList (mapTree change))) :
    (filled style first id params lists).map (mapTree change) =
      (filled otherStyle second id otherParams otherLists).map (mapTree change) := by
  have sameLines : first.lines = second.lines := by
    rw [← first.lines_unmarked, sameFormat, second.lines_unmarked]
  have sameParamCount : first.paramCount = second.paramCount := by
    rw [BlockFormat.paramCount, sameLines, ← BlockFormat.paramCount]
  have sameStackCount : first.stackCount = second.stackCount := by
    rw [BlockFormat.stackCount, sameLines, ← BlockFormat.stackCount]
  have sameParamLength : params.length = otherParams.length := by
    simpa using congrArg List.length sameParams
  have sameListLength : lists.length = otherLists.length := by
    simpa using congrArg List.length sameLists
  have sameFilled : (fillLines id first.lines params lists).map
        (List.map (Line.map (mapTree change))) =
      (fillLines id second.lines otherParams otherLists).map
        (List.map (Line.map (mapTree change))) := by
    rw [← fillLines_map, ← fillLines_map, sameLines, sameParams, sameLists]
  rw [filled, filled, sameParamCount, sameStackCount, sameParamLength, sameListLength]
  split
  · rfl
  · split
    · rfl
    · apply map_bind_congr sameFilled
      intro lines others agree
      exact congrArg Except.ok (forgets first second lines others sameFormat agree)

variable {before after : Catalog}

/-- Params whose records read alike bring the same contents. -/
theorem map_paramContents_eq {params : List (Param InstanceRecord)}
    (same : ∀ record, .block record ∈ params →
      (ofRecord before style record).map (mapTree change) =
        (ofRecord after otherStyle record).map (mapTree change)) (id : String) :
    (paramContents before style id params).map (mapParam (mapTree change)) =
      (paramContents after otherStyle id params).map (mapParam (mapTree change)) := by
  induction params with
  | nil => rfl
  | cons param params ih =>
      have others := ih fun record recordMem => same record (List.mem_cons_of_mem _ recordMem)
      cases param with
      | block record =>
          have inColumn : ∀ built : Except TreeError Block,
              (built.map Content.block).map (Content.map (mapTree change)) =
                (built.map (mapTree change)).map Content.block := by
            intro built
            cases built <;> rfl
          have here : mapParam (mapTree change)
              (fun _ => (ofRecord before style record).map .block) =
                mapParam (mapTree change)
                  (fun _ => (ofRecord after otherStyle record).map .block) := by
            funext kind
            rw [mapParam, mapParam, inColumn, inColumn, same record List.mem_cons_self]
          rw [paramContents, paramContents, List.map_cons, List.map_cons, others, here]
      | literal text => rw [paramContents, paramContents, List.map_cons, List.map_cons, others]
      | other value => rw [paramContents, paramContents, List.map_cons, List.map_cons, others]

theorem map_ofRecords_eq {records : List InstanceRecord}
    (same : ∀ record ∈ records, (ofRecord before style record).map (mapTree change) =
      (ofRecord after otherStyle record).map (mapTree change)) :
    mapList (mapTree change) (ofRecords before style records) =
      mapList (mapTree change) (ofRecords after otherStyle records) := by
  induction records with
  | nil => rfl
  | cons record records ih =>
      have others := ih fun other otherMem => same other (List.mem_cons_of_mem _ otherMem)
      rw [ofRecords, ofRecords]
      apply map_bind_congr (same record List.mem_cons_self)
      intro block otherBlock sameBlock
      apply map_bind_congr others
      intro blocks otherBlocks sameBlocks
      refine congrArg Except.ok ?_
      rw [List.map_cons, List.map_cons, sameBlock, sameBlocks]

theorem map_stackContents_eq {lists : List (List InstanceRecord)}
    (same : ∀ records ∈ lists, ∀ record ∈ records,
      (ofRecord before style record).map (mapTree change) =
        (ofRecord after otherStyle record).map (mapTree change)) :
    (stackContents before style lists).map (mapList (mapTree change)) =
      (stackContents after otherStyle lists).map (mapList (mapTree change)) := by
  induction lists with
  | nil => rfl
  | cons records lists ih =>
      have others := ih fun other otherMem => same other (List.mem_cons_of_mem _ otherMem)
      rw [stackContents, stackContents, List.map_cons, List.map_cons, others,
        map_ofRecords_eq (same records List.mem_cons_self)]

/-- Two catalogs that have the same formats for a record and the records in it, up to marks, build
the same block up to a change that forgets marks, or answer with the same error. -/
theorem map_ofRecord_eq (forgets : Forgets (mapTree change) style otherStyle)
    {record : InstanceRecord}
    (same : record.Everywhere fun inner =>
      (before.lookup inner.id).map BlockFormat.unmarked =
        (after.lookup inner.id).map BlockFormat.unmarked) :
    (ofRecord before style record).map (mapTree change) =
      (ofRecord after otherStyle record).map (mapTree change) := by
  induction record using InstanceRecord.induction with
  | inside record ih =>
      rcases InstanceRecord.everywhere_iff.mp same with ⟨here, inside⟩
      rcases record with ⟨id, params, lists⟩
      have sameParams := map_paramContents_eq (fun record recordMem =>
        ih record (InstanceRecord.mem_nested_of_param recordMem)
          (inside record (InstanceRecord.mem_nested_of_param recordMem))) id
      have sameLists := map_stackContents_eq fun records recordsMem record recordMem =>
        ih record (InstanceRecord.mem_nested_of_list recordsMem recordMem)
          (inside record (InstanceRecord.mem_nested_of_list recordsMem recordMem))
      have here : (before.lookup id).map BlockFormat.unmarked =
        (after.lookup id).map BlockFormat.unmarked := here
      -- Both catalogs fill the columns alike by induction. What is left is the format itself, which
      -- both know or neither.
      rw [ofRecord, ofRecord]
      cases known : before.lookup id with
      | none =>
          rw [known] at here
          rw [Option.map_eq_none_iff.mp here.symm]
      | some first =>
          rw [known] at here
          rcases Option.map_eq_some_iff.mp here.symm with ⟨second, knownAfter, sameFormat⟩
          rw [knownAfter]
          exact map_filled_eq forgets sameFormat.symm id sameParams sameLists

end Block

end BlockEditor
