import BlockEditor.Text.Letters

/-!
# Value types and the kinds of child columns

Blocks produce and accept values of three types. A child column is an input that takes a value of
a type, an output that passes one on, or untyped. `ValueType.fits` is the one rule of
compatibility: a value fits where its own type is wanted, and every value fits where text is
wanted. Names of types and kinds are read without regard to letter case, and an unknown name means
that there is no type.
-/

namespace BlockEditor

/-- The type of a value that blocks exchange. -/
inductive ValueType where
  /-- A truth value. -/
  | bool
  /-- A number. -/
  | num
  /-- A text. -/
  | text
deriving DecidableEq, Repr

namespace ValueType

/-- The name of a value type in schemas. -/
def name : ValueType → String
  | .bool => "BOOL"
  | .num => "NUM"
  | .text => "TEXT"

/-- The value type with a name in any letter case. -/
def ofName? (name : String) : Option ValueType :=
  let upper := Text.upper name
  if upper = "BOOL" then some .bool
  else if upper = "NUM" then some .num
  else if upper = "TEXT" then some .text
  else none

/-- Whether a value of the given type can stand where a type is wanted. -/
def fits (given wanted : ValueType) : Bool := given = wanted || wanted = .text

end ValueType

/-- What a child column may hold. -/
inductive ColumnKind where
  /-- A literal, or a block that produces a value of the type. -/
  | input (type : ValueType)
  /-- A block that accepts a value of the type. -/
  | output (type : ValueType)
  /-- Any block. -/
  | untyped
deriving DecidableEq, Repr

namespace ColumnKind

/-- The name of a kind in schemas. -/
def name : ColumnKind → String
  | .input type => type.name ++ "_IN"
  | .output type => type.name ++ "_OUT"
  | .untyped => "NONE"

/-- All kinds that have a direction. -/
def directed : List ColumnKind :=
  [.input .num, .output .num, .input .text, .output .text, .input .bool, .output .bool]

/-- The kind with a name in any letter case; every other name means an untyped column. -/
def ofName (name : String) : ColumnKind :=
  (directed.find? fun kind => kind.name == Text.upper name).getD .untyped

/-- Whether a column of the kind may hold a literal. -/
def isInput : ColumnKind → Bool
  | .input _ => true
  | _ => false

/-- Whether a column of the kind passes a value on. -/
def isOutput : ColumnKind → Bool
  | .output _ => true
  | _ => false

/-- The type of the literals that a column of the kind holds, if it holds any. -/
def literalType? : ColumnKind → Option ValueType
  | .input type => some type
  | _ => none

/-- Whether a column of the kind takes a block that produces and accepts the given types. -/
def admits (kind : ColumnKind) (produces accepts : Option ValueType) : Bool :=
  match kind with
  | .input wanted => produces.any (·.fits wanted)
  | .output passed => accepts.any (passed.fits ·)
  | .untyped => true

end ColumnKind

end BlockEditor
