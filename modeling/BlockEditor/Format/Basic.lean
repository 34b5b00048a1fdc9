import BlockEditor.Format.Kind

/-!
# Block formats

A block format says how blocks of one kind look and what they exchange: a list of lines, each of
which is a row of labels and child columns or a stack of blocks, together with names, types and
documentation. Two formats with the same `produces` and `accepts` fit into the same columns.
-/

namespace BlockEditor

/-- A position in a row: fixed text, or a column for a child. -/
inductive Slot where
  /-- Text that is shown, or a marked key of the translation table. -/
  | label (text : String)
  /-- A column for a literal or a block. -/
  | child (kind : ColumnKind)
deriving DecidableEq, Repr

/-- Whether a slot is a child column. -/
def Slot.isChild : Slot → Bool
  | .child _ => true
  | .label _ => false

/-- A line of a format. -/
inductive FormatLine where
  /-- A row of slots. -/
  | columns (slots : List Slot)
  /-- A stack of blocks. -/
  | stack
deriving DecidableEq, Repr

namespace FormatLine

/-- The line that a list of slots declares: without slots it is a stack. -/
def ofSlots (slots : List Slot) : FormatLine := if slots.isEmpty then .stack else .columns slots

/-- Whether a line is a stack. -/
def isStack : FormatLine → Bool
  | .stack => true
  | .columns _ => false

/-- The slots of a line; a stack has none. -/
def slots : FormatLine → List Slot
  | .columns slots => slots
  | .stack => []

end FormatLine

/-- The documentation of one parameter of a block. -/
structure ParameterDoc where
  /-- The kind of value that the parameter takes. -/
  kind : String
  /-- What the parameter is for. -/
  description : String
deriving DecidableEq, Repr

/-- The definition of a kind of blocks. -/
structure BlockFormat where
  /-- The name under which records refer to the format. -/
  id : String
  /-- The shown name, or a marked key of the translation table. -/
  name : String
  /-- The position of the format's category in the category table. -/
  category : UInt64
  /-- The type of the value that a block yields, if it yields one. -/
  produces : Option ValueType := none
  /-- The type of the value that a block takes, if it takes one. -/
  accepts : Option ValueType := none
  /-- The lines, from top to bottom. -/
  lines : List FormatLine
  /-- What a block does. -/
  description : String := ""
  /-- What the yielded value is. -/
  returnDescription : String := ""
  /-- Further remarks. -/
  notes : String := ""
  /-- The documentation of the parameters, if there is any. -/
  parameterDocs : Option (List ParameterDoc) := none
  /-- Whether the format is kept out of listings for insertion. -/
  deprecated : Bool := false
deriving DecidableEq, Repr

namespace BlockFormat

/-- A format without types and documentation, shown under its identifier. -/
def plain (id : String) (category : UInt64) (lines : List FormatLine) : BlockFormat :=
  { id, name := id, category, lines }

/-- The slots of a line; none for a stack and beyond the last line. -/
def slotsOfLine (format : BlockFormat) (line : Nat) : List Slot :=
  (format.lines[line]?.map FormatLine.slots).getD []

/-- The number of columns of a line; none for a stack and beyond the last line. -/
def columnCount (format : BlockFormat) (line : Nat) : Nat := (format.slotsOfLine line).length

/-- Whether the last line is a stack, so that a closing line follows it. -/
def endsWithStack (format : BlockFormat) : Bool := format.lines.getLast?.any FormatLine.isStack

/-- The number of stack lines. -/
def stackCount (format : BlockFormat) : Nat := format.lines.countP FormatLine.isStack

/-- The number of child columns in all lines. -/
def paramCount (format : BlockFormat) : Nat :=
  (format.lines.flatMap FormatLine.slots).countP Slot.isChild

/-- Whether there is any documentation. -/
def hasInfo (format : BlockFormat) : Bool :=
  format.parameterDocs.any (!·.isEmpty) || !format.description.isEmpty ||
    !format.returnDescription.isEmpty || !format.notes.isEmpty

/-- Whether a block of the format may stand in a column of a kind. -/
def fitsColumn (format : BlockFormat) (kind : ColumnKind) : Bool :=
  kind.admits format.produces format.accepts

/-- No line is a row without slots. -/
def HasSlots (format : BlockFormat) : Prop := FormatLine.columns [] ∉ format.lines

end BlockFormat

end BlockEditor
