import BlockEditor.Block.Layout
import BlockEditor.Catalog.Basic
import BlockEditor.Record.Basic
import BlockEditor.Record.Error

/-!
# Blocks from records and back

`Block.record` writes a block as a record. `Block.ofRecord` builds the block that a record
describes, with the formats of a catalog: the record must give as many parameters as its format
has child columns and as many lists as it has stacks. A literal counts only in an input column;
numbers and truth values stand for their text, and `null` for nothing. The error is the one of the
first fault in the order of the lines.
-/

namespace BlockEditor

open Json

/-- What a parameter puts into a column of each kind. -/
abbrev ParamContent : Type := ColumnKind → Except TreeError (Content Block)

namespace Block

/-- The parameter for a column without a block. -/
def literalParam (kind : ColumnKind) (text : String) : Param InstanceRecord :=
  .literal (if kind.isInput then text else "")

mutual

/-- The record of a block and everything in it. -/
def record : Block → InstanceRecord
  | ⟨format, lines, _⟩ => ⟨format.id, lineParams lines, lineLists lines⟩
termination_by structural block => block

/-- The parameters of lines. -/
def lineParams : List (Line Block) → List (Param InstanceRecord)
  | [] => []
  | line :: rest => paramsOfLine line ++ lineParams rest
termination_by structural lines => lines

/-- The parameters of a line. -/
def paramsOfLine : Line Block → List (Param InstanceRecord)
  | .columns cells _ => cellParams cells
  | .stack _ _ => []
termination_by structural line => line

/-- The parameters of cells. -/
def cellParams : List (Cell Block) → List (Param InstanceRecord)
  | [] => []
  | cell :: rest => paramsOfCell cell ++ cellParams rest
termination_by structural cells => cells

/-- The parameter of a cell; a label has none. -/
def paramsOfCell : Cell Block → List (Param InstanceRecord)
  | .label _ _ => []
  | .column _ .empty _ => [.literal ""]
  | .column kind (.literal text) _ => [literalParam kind text]
  | .column _ (.block child) _ => [.block child.record]
termination_by structural cell => cell

/-- The lists of records of lines, one for every stack. -/
def lineLists : List (Line Block) → List (List InstanceRecord)
  | [] => []
  | line :: rest => listsOfLine line ++ lineLists rest
termination_by structural lines => lines

/-- The list of records of a line, if it is a stack. -/
def listsOfLine : Line Block → List (List InstanceRecord)
  | .columns _ _ => []
  | .stack children _ => [stackRecords children]
termination_by structural line => line

/-- The records of the blocks of a stack. -/
def stackRecords : List Block → List InstanceRecord
  | [] => []
  | child :: rest => child.record :: stackRecords rest
termination_by structural children => children

end

/-- What a value that is neither record nor text puts into a column. -/
def contentOfValue (id : String) : Value → Except TreeError (Content Block)
  | .null => .ok .empty
  | .bool value => .ok (.literal (if value then "true" else "false"))
  | .number value => .ok (.ofText (String.ofList value.letters))
  | .string text => .ok (.ofText text)
  | .array items => .error (.malformedInstance id (.notALiteral (.array items)))
  | .object fields => .error (.malformedInstance id (.notALiteral (.object fields)))

/-- What a text puts into a column: only input columns take it. -/
def contentOfLiteral (text : String) (kind : ColumnKind) : Content Block :=
  if kind.isInput then .ofText text else .empty

/-- Fills the slots of a row with parameters of the record with an identifier; gives the cells and
the parameters left over. -/
def fillSlots (id : String) : List Slot → List ParamContent →
    Except TreeError (List (Cell Block) × List ParamContent)
  | [], params => .ok ([], params)
  | .label text :: slots, params => do
    let (cells, params) ← fillSlots id slots params
    return (.label text .zero :: cells, params)
  | .child _ :: _, [] => .error (.malformedInstance id .tooFewParams)
  | .child kind :: slots, param :: params => do
    let content ← param kind
    let (cells, params) ← fillSlots id slots params
    return (.column kind content .zero :: cells, params)

/-- Fills the lines of a format with parameters and the blocks of stacks of the record with an
identifier. -/
def fillLines (id : String) : List FormatLine → List ParamContent →
    List (Except TreeError (List Block)) → Except TreeError (List (Line Block))
  | [], _, _ => .ok []
  | .columns slots :: lines, params, lists => do
    let (cells, params) ← fillSlots id slots params
    let rest ← fillLines id lines params lists
    return .columns cells .zero :: rest
  | .stack :: _, _, [] => .error (.malformedInstance id .tooFewLists)
  | .stack :: lines, params, stack :: lists => do
    let children ← stack
    let rest ← fillLines id lines params lists
    return .stack children .zero :: rest

/-- The block of a format that is filled with parameters and the blocks of stacks, if their
numbers match. -/
def filled (style : Style) (format : BlockFormat) (id : String) (params : List ParamContent)
    (lists : List (Except TreeError (List Block))) : Except TreeError Block :=
  if params.length ≠ format.paramCount then
    .error (.malformedInstance id (.paramCount format.paramCount params.length))
  else if lists.length ≠ format.stackCount then
    .error (.malformedInstance id (.listCount format.stackCount lists.length))
  else do
    let lines ← fillLines id format.lines params lists
    return (⟨format, lines, .zero⟩ : Block).measured style

mutual

/-- The block that a record describes. -/
def ofRecord (catalog : Catalog) (style : Style) : InstanceRecord → Except TreeError Block
  | ⟨id, params, blocks⟩ =>
    match catalog.lookup id with
    | none => .error (.unknownFormat id)
    | some format =>
      filled style format id (paramContents catalog style id params)
        (stackContents catalog style blocks)
termination_by structural record => record

/-- What each parameter of a record puts into its column. -/
def paramContents (catalog : Catalog) (style : Style) (id : String) :
    List (Param InstanceRecord) → List ParamContent
  | [] => []
  | .block record :: rest =>
    (fun _ => (ofRecord catalog style record).map .block) :: paramContents catalog style id rest
  | .literal text :: rest =>
    (fun kind => .ok (contentOfLiteral text kind)) :: paramContents catalog style id rest
  | .other value :: rest =>
    (fun _ => contentOfValue id value) :: paramContents catalog style id rest
termination_by structural params => params

/-- The blocks of each stack. -/
def stackContents (catalog : Catalog) (style : Style) :
    List (List InstanceRecord) → List (Except TreeError (List Block))
  | [] => []
  | records :: rest => ofRecords catalog style records :: stackContents catalog style rest
termination_by structural lists => lists

/-- The blocks that records describe. -/
def ofRecords (catalog : Catalog) (style : Style) :
    List InstanceRecord → Except TreeError (List Block)
  | [] => .ok []
  | record :: rest => do
    let block ← ofRecord catalog style record
    let blocks ← ofRecords catalog style rest
    return block :: blocks
termination_by structural records => records

end

/-- A block of the format with an identifier, with every column and stack empty. -/
def ofId (catalog : Catalog) (style : Style) (id : String) : Except TreeError Block :=
  match catalog.lookup id with
  | some format => .ok (fresh style format)
  | none => .error (.unknownFormat id)

/-- A short text for a block: its shown name, followed by dots if it holds anything. -/
def summary (catalog : Catalog) (block : Block) : String :=
  let name := catalog.nameOf block.format
  if block.hasContent then name ++ " ..." else name

end Block

/-- The style of a geometry with the labels that a catalog shows. -/
def Catalog.style (catalog : Catalog) (geometry : Geometry) : Style := ⟨geometry, catalog.localize⟩

end BlockEditor
