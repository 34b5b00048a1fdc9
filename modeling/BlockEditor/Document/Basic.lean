import BlockEditor.Block.Hit
import BlockEditor.Record.Load

/-!
# Documents

A document is the stack of top-level blocks with a geometry, and remembers the records that were
last made known. A path into a document begins with a step on line 0 that names a top-level block.
Every operation measures the blocks that it has changed and then the document; whatever it refuses
leaves the document as it was.
-/

namespace BlockEditor

/-- Blocks above each other with a common geometry. -/
structure Document where
  /-- The lengths of the layout. -/
  geometry : Geometry
  /-- The top-level blocks, from top to bottom. -/
  blocks : List Block
  /-- The extent of the blocks with the padding around them. -/
  size : Size
  /-- The records that were last made known. -/
  published : List InstanceRecord

namespace Document

/-- The extent of a document with the given blocks. -/
def measure (geometry : Geometry) (blocks : List Block) : Size :=
  let config := geometry.config
  let extent := stackExtent config.elementPaddingVertical (blocks.map Block.size)
  ⟨extent.width + 2 * config.elementPaddingHorizontal,
    extent.height + 2 * config.elementPaddingVertical⟩

/-- The document with other blocks. -/
def withBlocks (document : Document) (blocks : List Block) : Document :=
  { document with blocks, size := measure document.geometry blocks }

/-- A document without blocks. -/
def empty (geometry : Geometry) : Document := ⟨geometry, [], measure geometry [], []⟩

/-- The style of a document with the labels that a catalog shows. -/
def style (document : Document) (catalog : Catalog) : Style := catalog.style document.geometry

/-- The document with all sizes in it computed from the innermost blocks outwards. -/
def relayout (document : Document) (catalog : Catalog) : Document :=
  document.withBlocks (Block.relaidStack (document.style catalog) document.blocks)

/-- The document laid out with another geometry. -/
def setGeometry (document : Document) (catalog : Catalog) (geometry : Geometry) : Document :=
  { document with geometry }.relayout catalog

/-- The upper edge of each top-level block. -/
def blockOffsets (document : Document) : List Float32 :=
  let padding := document.geometry.config.elementPaddingVertical
  (stackOffsets padding 0 (document.blocks.map fun block => block.size.height)).map (· + padding)

/-- The block at the end of a path. -/
def get? (document : Document) (path : BlockPath) : Option Block :=
  match path.steps with
  | [] => none
  | step :: rest =>
    if step.line = 0 then document.blocks[step.position]?.bind (·.descendant? rest) else none

/-- The records of the top-level blocks. -/
def records (document : Document) : List InstanceRecord := Block.stackRecords document.blocks

/-- The records that have not been made known, if they differ from those that have, and the
document that remembers them. -/
def pollChange (document : Document) : Document × Option (List InstanceRecord) :=
  if document.records = document.published then (document, none)
  else ({ document with published := document.records }, some document.records)

/-- Puts a block of the format with an identifier at the end, and gives its path. -/
def attachNew (document : Document) (catalog : Catalog) (id : String) :
    Except TreeError (Document × BlockPath) := do
  let block ← Block.ofId catalog (document.style catalog) id
  return (document.withBlocks (document.blocks ++ [block]), ⟨[⟨0, document.blocks.length⟩]⟩)

/-- A document without the blocks of this one. -/
def clear (document : Document) : Document := document.withBlocks []

/-- A record that could not be loaded. -/
structure SkippedRecord where
  /-- The position in the list of records. -/
  index : Nat
  /-- The identifier in the record. -/
  id : String
  /-- Why it could not be loaded. -/
  error : TreeError
deriving DecidableEq

/-- What has become of a list of records. -/
structure LoadReport where
  /-- The number of records that were loaded. -/
  loaded : Nat
  /-- The records that were not loaded. -/
  skipped : List SkippedRecord
deriving DecidableEq

/-- Whether every record was loaded. -/
def LoadReport.isComplete (report : LoadReport) : Bool := report.skipped.isEmpty

/-- The blocks of the records that can be loaded. -/
def loadedBlocks (catalog : Catalog) (style : Style) (records : List InstanceRecord) :
    List Block :=
  records.filterMap fun record => (Block.ofRecord catalog style record).toOption

/-- The records from an index on that cannot be loaded. -/
def skippedRecords (catalog : Catalog) (style : Style) (index : Nat) :
    List InstanceRecord → List SkippedRecord
  | [] => []
  | record :: rest =>
    match Block.ofRecord catalog style record with
    | .ok _ => skippedRecords catalog style (index + 1) rest
    | .error error => ⟨index, record.id, error⟩ :: skippedRecords catalog style (index + 1) rest

/-- Replaces the blocks by those of records. Records that cannot be loaded are skipped, and what
is loaded counts as known. -/
def load (document : Document) (catalog : Catalog) (records : List InstanceRecord) :
    Document × LoadReport :=
  let blocks := loadedBlocks catalog (document.style catalog) records
  let loaded := document.withBlocks blocks
  ({ loaded with published := loaded.records },
    ⟨blocks.length, skippedRecords catalog (document.style catalog) 0 records⟩)

/-- Replaces the blocks by those of a text, if it is a list of records. -/
def loadText (document : Document) (catalog : Catalog) (text : String) :
    Except TreeError (Document × LoadReport) :=
  match InstanceRecord.listOfText? text with
  | some records => .ok (document.load catalog records)
  | none => .error .json

/-- The text of a document without blanks. -/
def compactText (document : Document) : String := InstanceRecord.compactText document.records

/-- The indented text of a document. -/
def prettyText (document : Document) : String := InstanceRecord.prettyText document.records

end Document

end BlockEditor
