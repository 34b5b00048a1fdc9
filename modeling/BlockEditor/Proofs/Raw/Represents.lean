import BlockEditor.Proofs.Block.WellFormed
import BlockEditor.Proofs.Raw.Checked
import BlockEditor.Raw.Block

/-!
# Well-formed raw blocks

A raw block is well formed if, in it and in everything nested in it, the three lists have an entry
for each line of the format, stacks are on stack lines, rows have a content and a size for each
slot, labels hold nothing and columns what their kind admits (`RawBlock.WellFormed`). Nothing in the
type of raw blocks says so.

A raw block represents a block if it has the same format and size, and the sizes in its lists are
those beside the contents of the block (`RawBlock.Represents`). The raw blocks that represent a
block are those whose lists go with their formats, so a raw block is well formed exactly when it
represents a block that is (`RawBlock.wellFormed_iff`). This carries what is proved of blocks over
to raw blocks.
-/

namespace BlockEditor

variable {Raw Child : Type}

/-- What a slot of a format admits: nothing in a label, and in a column what its kind admits. -/
def Slot.Admits : Slot → Content RawBlock → Prop
  | .label _, content => content = .empty
  | .child _, .empty => True
  | .child kind, .literal text => kind.isInput = true ∧ text ≠ ""
  | .child kind, .block nested => nested.format.fitsColumn kind = true

/-- The contents of a line and the sizes kept for its columns fit a line of a format. -/
inductive FormatLine.Fits : FormatLine → RawLine RawBlock → List Size → Prop where
  /-- A stack is on a stack line. -/
  | stack (children : List RawBlock) (sizes : List Size) : Fits .stack (.stack children) sizes
  /-- A row has a content and a size for each slot, and the slots admit the contents. -/
  | columns {slots : List Slot} {contents : List (Content RawBlock)} {sizes : List Size}
      (contentCount : contents.length = slots.length) (sizeCount : sizes.length = slots.length)
      (admits : ∀ (column : Nat) (slot : Slot) (content : Content RawBlock),
        slots[column]? = some slot → contents[column]? = some content → slot.Admits content) :
      Fits (.columns slots) (.columns contents) sizes

namespace RawBlock

/-- The lists of a raw block go with its format. -/
structure Consistent (block : RawBlock) : Prop where
  lineCount : block.lines.length = block.format.lines.length
  lineSizeCount : block.lineSizes.length = block.format.lines.length
  rowCount : block.cellSizes.length = block.format.lines.length
  fits : ∀ (line : Nat) (formatLine : FormatLine) (content : RawLine RawBlock) (sizes : List Size),
    block.format.lines[line]? = some formatLine → block.lines[line]? = some content →
      block.cellSizes[line]? = some sizes → formatLine.Fits content sizes

/-- A raw block and everything nested in it is consistent. -/
def WellFormed (block : RawBlock) : Prop :=
  ∀ steps inner, block.descendant? steps = some inner → inner.Consistent

end RawBlock

/-- Two columns hold the same, where nested blocks are the same in the sense of a relation. -/
inductive Content.Agrees (Same : Raw → Child → Prop) : Content Raw → Content Child → Prop where
  | empty : Agrees Same .empty .empty
  | literal (text : String) : Agrees Same (.literal text) (.literal text)
  | block {raw : Raw} {child : Child} (same : Same raw child) :
      Agrees Same (.block raw) (.block child)

/-- Contents of a line and sizes of its columns are those of a line with its sizes. -/
inductive RawLine.Agrees (Same : Raw → Child → Prop) :
    RawLine Raw → List Size → Line Child → Prop where
  | columns {contents : List (Content Raw)} {sizes : List Size} {cells : List (Cell Child)}
      {size : Size}
      (same : List.Forall₂ (fun content cell => Content.Agrees Same content cell.content)
        contents cells)
      (sameSizes : sizes = cells.map Cell.size) :
      Agrees Same (.columns contents) sizes (.columns cells size)
  | stack {raws : List Raw} {sizes : List Size} {children : List Child} {size : Size}
      (same : List.Forall₂ Same raws children) :
      Agrees Same (.stack raws) sizes (.stack children size)

/-- Contents of lines and sizes of their columns are those of lines with their sizes. -/
inductive RawLine.AllAgree (Same : Raw → Child → Prop) :
    List (RawLine Raw) → List (List Size) → List (Line Child) → Prop where
  | nil : AllAgree Same [] [] []
  | cons {content : RawLine Raw} {sizes : List Size} {line : Line Child}
      {contents : List (RawLine Raw)} {rows : List (List Size)} {lines : List (Line Child)}
      (here : content.Agrees Same sizes line) (rest : AllAgree Same contents rows lines) :
      AllAgree Same (content :: contents) (sizes :: rows) (line :: lines)

/-- A raw block has the format, contents and sizes of a block with the lines of its format. -/
inductive RawBlock.Represents : RawBlock → Block → Prop where
  | intro {raw : RawBlock} {block : Block} (format : raw.format = block.format)
      (size : raw.size = block.size) (shape : block.shape = block.format.lines)
      (lineSizes : raw.lineSizes = block.lines.map Line.size)
      (lines : RawLine.AllAgree Represents raw.lines raw.cellSizes block.lines) :
      Represents raw block

namespace Content.Agrees

variable {Same : Raw → Child → Prop} {raw : Content Raw} {content : Content Child}

theorem block? (agrees : raw.Agrees Same content) : Option.Rel Same raw.block? content.block? := by
  cases agrees with
  | empty => exact .none
  | literal text => exact .none
  | block same => exact .some same

theorem isEmpty (agrees : raw.Agrees Same content) : raw.isEmpty = content.isEmpty := by
  cases agrees <;> rfl

theorem literal? (agrees : raw.Agrees Same content) : raw.literal? = content.literal? := by
  cases agrees <;> rfl

theorem isNone_block? (agrees : raw.Agrees Same content) :
    raw.block?.isNone = content.block?.isNone := by
  cases agrees <;> rfl

theorem ofText (text : String) :
    Content.Agrees Same (.ofText text : Content Raw) (.ofText text : Content Child) := by
  rw [Content.ofText, Content.ofText]
  split
  · exact .empty
  · exact .literal text

end Content.Agrees

namespace RawLine

variable {Same : Raw → Child → Prop} {raw : RawLine Raw} {sizes : List Size} {line : Line Child}
  {raws : List (RawLine Raw)} {rows : List (List Size)} {lines : List (Line Child)}

theorem Agrees.isStack (agrees : raw.Agrees Same sizes line) : raw.isStack = line.isStack := by
  cases agrees <;> rfl

theorem Agrees.content? (agrees : raw.Agrees Same sizes line) (column : Nat) :
    Option.Rel (fun content cell => Content.Agrees Same content cell.content)
      (raw.content? column) (line.cell? column) := by
  cases agrees with
  | columns same => exact BlockEditor.rel_getElem? same column
  | stack same => exact .none

theorem Agrees.child? (agrees : raw.Agrees Same sizes line) (position : Nat) :
    Option.Rel Same (raw.child? position) (line.child? position) := by
  cases agrees with
  | columns same =>
      exact rel_bind (BlockEditor.rel_getElem? same position) fun _ _ agrees => agrees.block?
  | stack same => exact BlockEditor.rel_getElem? same position

theorem AllAgree.length_raws (agree : AllAgree Same raws rows lines) :
    raws.length = lines.length := by
  induction agree with
  | nil => rfl
  | cons here rest ih => simp [ih]

theorem AllAgree.length_rows (agree : AllAgree Same raws rows lines) :
    rows.length = lines.length := by
  induction agree with
  | nil => rfl
  | cons here rest ih => simp [ih]

/-- Where there is a line, there are raw contents and a row of sizes that agree with it. -/
theorem AllAgree.of_getElem? (agree : AllAgree Same raws rows lines) {index : Nat}
    (atLine : lines[index]? = some line) :
    ∃ raw sizes, raws[index]? = some raw ∧ rows[index]? = some sizes ∧
      raw.Agrees Same sizes line := by
  induction agree generalizing index with
  | nil => simp at atLine
  | cons here rest ih =>
      cases index with
      | zero =>
          cases atLine
          exact ⟨_, _, rfl, rfl, here⟩
      | succ index => exact ih atLine

/-- Where there is no line there are no contents. -/
theorem AllAgree.rel_getElem? (agree : AllAgree Same raws rows lines) (index : Nat) :
    Option.Rel (fun raw line => ∃ sizes, rows[index]? = some sizes ∧ raw.Agrees Same sizes line)
      raws[index]? lines[index]? := by
  cases atLine : lines[index]? with
  | none =>
      have beyond : raws[index]? = none := by
        rw [List.getElem?_eq_none_iff, agree.length_raws]
        exact List.getElem?_eq_none_iff.mp atLine
      rw [beyond]
      exact .none
  | some line =>
      rcases agree.of_getElem? atLine with ⟨raw, sizes, inRaws, inRows, agrees⟩
      rw [inRaws]
      exact .some ⟨sizes, inRows, agrees⟩

/-- Other contents on a line go together with another line if the sizes of the columns stay. -/
theorem AllAgree.set (agree : AllAgree Same raws rows lines) {index : Nat}
    (atRow : rows[index]? = some sizes) (new : raw.Agrees Same sizes line) :
    AllAgree Same (raws.set index raw) rows (lines.set index line) := by
  induction agree generalizing index with
  | nil => simp at atRow
  | cons here rest ih =>
      cases index with
      | zero =>
          cases atRow
          exact .cons new rest
      | succ index => exact .cons here (ih atRow)

end RawLine

namespace RawBlock

variable {raw : RawBlock} {block : Block}

namespace Represents

theorem format (represents : raw.Represents block) : raw.format = block.format := by
  cases represents
  assumption

theorem size (represents : raw.Represents block) : raw.size = block.size := by
  cases represents
  assumption

theorem shape (represents : raw.Represents block) : block.shape = block.format.lines := by
  cases represents
  assumption

/-- The separate list of line sizes has the size of each line. -/
theorem lineSizes (represents : raw.Represents block) :
    raw.lineSizes = block.lines.map Line.size := by
  cases represents
  assumption

/-- The raw lines and the rows of cell sizes agree with the lines. -/
theorem lines (represents : raw.Represents block) :
    RawLine.AllAgree Represents raw.lines raw.cellSizes block.lines := by
  cases represents
  assumption

theorem slot? (represents : raw.Represents block) (line column : Nat) :
    raw.slot? line column = (block.cell? line column).map Cell.slot := by
  rw [RawBlock.slot?, represents.format, Block.map_slot_cell? represents.shape]

theorem content? (represents : raw.Represents block) (line column : Nat) :
    Option.Rel (fun content cell => Content.Agrees Represents content cell.content)
      (raw.content? line column) (block.cell? line column) := by
  apply rel_bind (represents.lines.rel_getElem? line)
  rintro content line ⟨sizes, _, agrees⟩
  exact agrees.content? column

theorem child? (represents : raw.Represents block) (step : Step) :
    Option.Rel Represents (raw.child? step) (block.child? step) := by
  apply rel_bind (represents.lines.rel_getElem? step.line)
  rintro content line ⟨sizes, _, agrees⟩
  exact agrees.child? step.position

theorem descendant? (represents : raw.Represents block) (steps : List Step) :
    Option.Rel Represents (raw.descendant? steps) (block.descendant? steps) := by
  induction steps generalizing raw block with
  | nil => exact .some represents
  | cons step rest ih =>
      rcases rel_cases (represents.child? step) with
        ⟨noRaw, noChild⟩ | ⟨rawChild, child, inRaw, inBlock, inside⟩
      · simp only [RawBlock.descendant?, Block.descendant?, noRaw, noChild]
        exact .none
      · simp only [RawBlock.descendant?, Block.descendant?, inRaw, inBlock]
        exact ih inside

theorem get? (represents : raw.Represents block) (path : BlockPath) :
    Option.Rel Represents (raw.get? path) (block.get? path) :=
  represents.descendant? path.steps

end Represents

end RawBlock

/-- A slot admits the content of a raw block just if the cell with this content admits it. -/
theorem Slot.admits_iff {content : Content RawBlock} {cell : Cell Block}
    (agrees : content.Agrees RawBlock.Represents cell.content) :
    cell.slot.Admits content ↔ cell.Admits := by
  cases cell with
  | label text size =>
      cases agrees
      simp [Cell.slot, Slot.Admits, Cell.Admits]
  | column kind held size =>
      cases agrees with
      | empty => exact Iff.rfl
      | literal text => exact Iff.rfl
      | block same => simp [Cell.slot, Slot.Admits, Cell.Admits, Content.Admitted, same.format]

/-- A raw line fits its format exactly if the line that it stands for admits its contents. -/
theorem FormatLine.fits_iff {content : RawLine RawBlock} {sizes : List Size} {line : Line Block}
    (agrees : content.Agrees RawBlock.Represents sizes line) :
    line.shape.Fits content sizes ↔ line.Admits := by
  cases agrees with
  | @columns contents _ cells size same sameSizes =>
      constructor
      · rintro (_ | ⟨_, _, admits⟩)
        intro cell cellMem
        rcases List.getElem?_of_mem cellMem with ⟨column, inRow⟩
        rcases rel_cases (rel_getElem? same column) with
          ⟨_, nothing⟩ | ⟨content, other, inContents, inCells, agrees⟩
        · cases inRow.symm.trans nothing
        · cases inRow.symm.trans inCells
          exact (Slot.admits_iff agrees).mp
            (admits column cell.slot content (by simp [inRow]) inContents)
      · intro admits
        refine .columns (by simp [same.length_eq]) (by simp [sameSizes]) ?_
        intro column slot content inSlots inContents
        rcases rel_cases (rel_getElem? same column) with
          ⟨nothing, _⟩ | ⟨other, cell, otherInContents, inCells, agrees⟩
        · cases inContents.symm.trans nothing
        · cases inContents.symm.trans otherInContents
          simp only [List.getElem?_map, inCells, Option.map_some, Option.some.injEq] at inSlots
          rw [← inSlots]
          exact (Slot.admits_iff agrees).mpr (admits cell (List.mem_of_getElem? inCells))
  | stack same => exact ⟨fun _ => trivial, fun _ => .stack _ _⟩

namespace RawBlock

theorem exists_stack {raws : List RawBlock}
    (inside : ∀ raw ∈ raws, ∃ block, raw.Represents block) :
    ∃ blocks, List.Forall₂ Represents raws blocks := by
  induction raws with
  | nil => exact ⟨[], .nil⟩
  | cons raw rest ih =>
      rcases List.forall_mem_cons.mp inside with ⟨⟨block, represents⟩, others⟩
      rcases ih others with ⟨blocks, same⟩
      exact ⟨block :: blocks, .cons represents same⟩

/-- An admitted raw content and a size stand for a cell. -/
theorem exists_cell {slot : Slot} {content : Content RawBlock} (admits : slot.Admits content)
    (inside : ∀ raw, content = .block raw → ∃ block, raw.Represents block) (size : Size) :
    ∃ cell : Cell Block, content.Agrees Represents cell.content ∧ cell.slot = slot ∧
      cell.size = size := by
  cases slot with
  | label text =>
      cases admits
      exact ⟨.label text size, .empty, rfl, rfl⟩
  | child kind =>
      cases content with
      | empty => exact ⟨.column kind .empty size, .empty, rfl, rfl⟩
      | literal text => exact ⟨.column kind (.literal text) size, .literal text, rfl, rfl⟩
      | block raw =>
          rcases inside raw rfl with ⟨block, represents⟩
          exact ⟨.column kind (.block block) size, .block represents, rfl, rfl⟩

/-- The contents and sizes of a row that has one of each for every slot are those of cells. -/
theorem exists_cells {slots : List Slot} {contents : List (Content RawBlock)} {sizes : List Size}
    (contentCount : contents.length = slots.length) (sizeCount : sizes.length = slots.length)
    (admits : ∀ (column : Nat) (slot : Slot) (content : Content RawBlock),
      slots[column]? = some slot → contents[column]? = some content → slot.Admits content)
    (inside : ∀ raw, .block raw ∈ contents → ∃ block, raw.Represents block) :
    ∃ cells : List (Cell Block),
      List.Forall₂ (fun content cell => Content.Agrees Represents content cell.content) contents
        cells ∧ cells.map Cell.slot = slots ∧ cells.map Cell.size = sizes := by
  induction slots generalizing contents sizes with
  | nil =>
      cases List.eq_nil_of_length_eq_zero contentCount
      cases List.eq_nil_of_length_eq_zero sizeCount
      exact ⟨[], .nil, rfl, rfl⟩
  | cons slot slots ih =>
      rcases List.exists_of_length_succ _ contentCount with ⟨content, contents, rfl⟩
      rcases List.exists_of_length_succ _ sizeCount with ⟨size, sizes, rfl⟩
      rcases exists_cell (admits 0 slot content rfl rfl)
          (fun raw holds => inside raw (by simp [holds]))
        size with ⟨cell, agrees, rfl, rfl⟩
      rcases ih (Nat.succ.inj contentCount) (Nat.succ.inj sizeCount)
        (fun column => admits (column + 1)) (fun raw rawMem => inside raw (.tail _ rawMem)) with
        ⟨cells, same, rfl, rfl⟩
      exact ⟨cell :: cells, .cons agrees same, rfl, rfl⟩

/-- A raw line that fits its format, with its sizes, stands for a line. -/
theorem exists_line {formatLine : FormatLine} {content : RawLine RawBlock} {sizes : List Size}
    (fits : formatLine.Fits content sizes)
    (inside : ∀ position raw, content.child? position = some raw → ∃ block, raw.Represents block)
    (size : Size) :
    ∃ line : Line Block, content.Agrees Represents sizes line ∧ line.shape = formatLine ∧
      line.size = size := by
  cases fits with
  | stack children sizes =>
      have represented : ∃ blocks, List.Forall₂ Represents children blocks := by
        apply exists_stack
        intro raw rawMem
        rcases List.getElem?_of_mem rawMem with ⟨position, found⟩
        exact inside position raw found
      rcases represented with ⟨blocks, same⟩
      exact ⟨.stack blocks size, .stack same, rfl, rfl⟩
  | columns contentCount sizeCount admits =>
      rcases exists_cells contentCount sizeCount admits (by
        intro raw rawMem
        rcases List.getElem?_of_mem rawMem with ⟨column, found⟩
        exact inside column raw (by simp [RawLine.child?, found])) with ⟨cells, same, rfl, rfl⟩
      exact ⟨.columns cells size, .columns same rfl, rfl, rfl⟩

/-- Contents and sizes that fit the lines of a format are those of lines. -/
theorem exists_lines {formatLines : List FormatLine} {contents : List (RawLine RawBlock)}
    {lineSizes : List Size} {rows : List (List Size)}
    (lineCount : contents.length = formatLines.length)
    (lineSizeCount : lineSizes.length = formatLines.length)
    (rowCount : rows.length = formatLines.length)
    (fits : ∀ (line : Nat) (formatLine : FormatLine) (content : RawLine RawBlock)
      (sizes : List Size), formatLines[line]? = some formatLine → contents[line]? = some content →
        rows[line]? = some sizes → formatLine.Fits content sizes)
    (inside : ∀ (line : Nat) (content : RawLine RawBlock), contents[line]? = some content →
      ∀ position raw, content.child? position = some raw → ∃ block, raw.Represents block) :
    ∃ lines : List (Line Block), RawLine.AllAgree Represents contents rows lines ∧
      lines.map Line.shape = formatLines ∧ lines.map Line.size = lineSizes := by
  induction formatLines generalizing contents lineSizes rows with
  | nil =>
      cases List.eq_nil_of_length_eq_zero lineCount
      cases List.eq_nil_of_length_eq_zero lineSizeCount
      cases List.eq_nil_of_length_eq_zero rowCount
      exact ⟨[], .nil, rfl, rfl⟩
  | cons formatLine others ih =>
      rcases List.exists_of_length_succ _ lineCount with ⟨content, contents, rfl⟩
      rcases List.exists_of_length_succ _ lineSizeCount with ⟨lineSize, lineSizes, rfl⟩
      rcases List.exists_of_length_succ _ rowCount with ⟨sizes, rows, rfl⟩
      rcases exists_line (fits 0 formatLine content sizes rfl rfl rfl) (inside 0 content rfl)
        lineSize with ⟨line, agrees, rfl, rfl⟩
      rcases ih (Nat.succ.inj lineCount) (Nat.succ.inj lineSizeCount) (Nat.succ.inj rowCount)
        (fun line => fits (line + 1)) (fun line => inside (line + 1)) with ⟨lines, agree, rfl, rfl⟩
      exact ⟨line :: lines, .cons agrees agree, rfl, rfl⟩

end RawBlock

namespace RawBlock

variable {raw : RawBlock} {block : Block}

/-- A raw block that represents a block is consistent just if the block is. -/
theorem Represents.consistent_iff (represents : raw.Represents block) :
    raw.Consistent ↔ block.Consistent := by
  have sameLine : ∀ index : Nat,
      raw.format.lines[index]? = block.lines[index]?.map Line.shape := by
    intro index
    rw [represents.format, ← represents.shape, Block.shape, List.getElem?_map]
  have sameLength : raw.format.lines.length = block.lines.length := by
    rw [represents.format, ← represents.shape, Block.shape, List.length_map]
  constructor
  · intro consistent
    refine ⟨represents.shape, ?_⟩
    intro line lineMem
    rcases List.getElem?_of_mem lineMem with ⟨index, atLine⟩
    rcases represents.lines.of_getElem? atLine with ⟨content, sizes, inLines, inRows, agrees⟩
    exact (FormatLine.fits_iff agrees).mp
      (consistent.fits index line.shape content sizes (by simp [sameLine, atLine]) inLines inRows)
  · intro consistent
    constructor
    case lineCount => rw [represents.lines.length_raws, sameLength]
    case lineSizeCount => rw [represents.lineSizes, List.length_map, sameLength]
    case rowCount => rw [represents.lines.length_rows, sameLength]
    case fits =>
      intro index formatLine content sizes atFormat inLines inRows
      rw [sameLine, Option.map_eq_some_iff] at atFormat
      rcases atFormat with ⟨line, atLine, rfl⟩
      rcases represents.lines.of_getElem? atLine with ⟨other, row, otherInLines, rowInRows, agrees⟩
      cases inLines.symm.trans otherInLines
      cases inRows.symm.trans rowInRows
      exact (FormatLine.fits_iff agrees).mpr (consistent.admits line (List.mem_of_getElem? atLine))

/-- A raw block is well-formed exactly if the block that it stands for is. -/
theorem Represents.wellFormed_iff (represents : raw.Represents block) :
    raw.WellFormed ↔ block.WellFormed := by
  constructor
  · intro wellFormed steps inner reached
    rcases rel_cases (represents.descendant? steps) with
      ⟨_, nothing⟩ | ⟨rawInner, other, inRaw, inBlock, inside⟩
    · cases reached.symm.trans nothing
    · cases reached.symm.trans inBlock
      exact inside.consistent_iff.mp (wellFormed steps rawInner inRaw)
  · intro wellFormed steps inner reached
    rcases rel_cases (represents.descendant? steps) with
      ⟨nothing, _⟩ | ⟨other, blockInner, inRaw, inBlock, inside⟩
    · cases reached.symm.trans nothing
    · cases reached.symm.trans inRaw
      exact inside.consistent_iff.mpr (wellFormed steps blockInner inBlock)

/-- A child is smaller than its block. -/
theorem sizeOf_child? {step : Step} {child : RawBlock} (found : raw.child? step = some child) :
    sizeOf child < sizeOf raw := by
  rcases raw with ⟨format, lines, size, lineSizes, cellSizes⟩
  rcases Option.bind_eq_some_iff.mp found with ⟨line, atLine, inLine⟩
  have lineSmaller := List.sizeOf_lt_of_mem (List.mem_of_getElem? atLine)
  cases line with
  | columns contents =>
      rcases Option.bind_eq_some_iff.mp inLine with ⟨content, atColumn, holds⟩
      have contentSmaller := List.sizeOf_lt_of_mem (List.mem_of_getElem? atColumn)
      cases Content.block?_eq_some_iff.mp holds
      simp at lineSmaller contentSmaller ⊢
      omega
  | stack children =>
      have childSmaller := List.sizeOf_lt_of_mem (List.mem_of_getElem? inLine)
      simp at lineSmaller ⊢
      omega

theorem WellFormed.child (wellFormed : raw.WellFormed) {step : Step} {child : RawBlock}
    (found : raw.child? step = some child) : child.WellFormed := by
  intro steps inner reached
  exact wellFormed (step :: steps) inner (by simp [descendant?, found, reached])

/-- A well-formed raw block represents a block. -/
theorem exists_represents (raw : RawBlock) (wellFormed : raw.WellFormed) :
    ∃ block, raw.Represents block := by
  have inside : ∀ step child, raw.child? step = some child → ∃ block, child.Represents block :=
    fun step child found => exists_represents child (wellFormed.child found)
  have consistent : raw.Consistent := wellFormed [] raw rfl
  have onLine : ∀ (line : Nat) (content : RawLine RawBlock), raw.lines[line]? = some content →
      ∀ position child, content.child? position = some child → ∃ block, child.Represents block :=
    fun line content atLine position child found =>
      inside ⟨line, position⟩ child (by simp [child?, atLine, found])
  rcases exists_lines consistent.lineCount consistent.lineSizeCount consistent.rowCount
    consistent.fits onLine with ⟨lines, agree, sameShape, sameSizes⟩
  exact ⟨⟨raw.format, lines, raw.size⟩, .intro rfl rfl sameShape sameSizes.symm agree⟩
termination_by sizeOf raw
decreasing_by exact sizeOf_child? found

/-- The well-formed raw blocks are those that represent well-formed blocks. -/
theorem wellFormed_iff (raw : RawBlock) :
    raw.WellFormed ↔ ∃ block, raw.Represents block ∧ block.WellFormed := by
  constructor
  · intro wellFormed
    rcases exists_represents raw wellFormed with ⟨block, represents⟩
    exact ⟨block, represents, represents.wellFormed_iff.mp wellFormed⟩
  · rintro ⟨block, represents, wellFormed⟩
    exact represents.wellFormed_iff.mpr wellFormed

end RawBlock

end BlockEditor
