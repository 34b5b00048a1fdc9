import BlockEditor.Raw.Drop
import BlockEditor.Raw.Hit
import BlockEditor.Record.Load

/-!
# Documents of raw blocks

The operations of a document, on raw blocks. A path or a hit leads to a top-level block, which is
changed in its place in the list; whatever has been done, the extent of the document is computed
from the blocks that are there afterwards.
-/

namespace BlockEditor

open Checked

/-- Raw blocks above each other with a common geometry. -/
structure RawDocument where
  /-- The lengths of the layout. -/
  geometry : Geometry
  /-- The top-level blocks, from top to bottom. -/
  blocks : List RawBlock
  /-- The extent of the blocks with the padding around them. -/
  size : Size

namespace RawDocument

/-- The extent of a document with the given blocks. -/
def measure (geometry : Geometry) (blocks : List RawBlock) : Size :=
  let config := geometry.config
  let extent := stackExtent config.elementPaddingVertical (blocks.map RawBlock.size)
  ⟨extent.width + 2 * config.elementPaddingHorizontal,
    extent.height + 2 * config.elementPaddingVertical⟩

/-- The document with other blocks. -/
def withBlocks (document : RawDocument) (blocks : List RawBlock) : RawDocument :=
  { document with blocks, size := measure document.geometry blocks }

/-- A document without blocks. -/
def empty (geometry : Geometry) : RawDocument := ⟨geometry, [], measure geometry []⟩

/-- The style of a document with the labels that a catalog shows. -/
def style (document : RawDocument) (catalog : Catalog) : Style := catalog.style document.geometry

/-- The document with all sizes in it computed from the innermost blocks outwards. -/
def relayout (document : RawDocument) (catalog : Catalog) : Except OutOfRange RawDocument := do
  return document.withBlocks (← RawBlock.relaidStack (document.style catalog) document.blocks)

/-- The document laid out with another geometry. -/
def setGeometry (document : RawDocument) (catalog : Catalog) (geometry : Geometry) :
    Except OutOfRange RawDocument :=
  { document with geometry }.relayout catalog

/-- The block at the end of a path. -/
def get? (document : RawDocument) (path : BlockPath) : Option RawBlock :=
  match path.steps with
  | [] => none
  | step :: rest =>
    if step.line = 0 then document.blocks[step.position]?.bind (·.descendant? rest) else none

/-- Puts a block of the format with an identifier at the end, and gives its path; nothing is done if
there is no such format. -/
def attachNew (document : RawDocument) (catalog : Catalog) (id : String) :
    Except OutOfRange (RawDocument × Except TreeError BlockPath) :=
  match catalog.lookup id with
  | none => return (document, .error (.unknownFormat id))
  | some format => do
    let block ← RawBlock.fresh (document.style catalog) format
    let after := document.withBlocks (document.blocks ++ [block])
    return (after, .ok ⟨[⟨0, after.blocks.length - 1⟩]⟩)

/-- A document without the blocks of this one. -/
def clear (document : RawDocument) : RawDocument := document.withBlocks []

/-- Edits the block at the end of a path and measures everything around it. There is no answer if
no block is there; the document is measured as soon as the path leads into a block of it. -/
def edit {Answer : Type} (document : RawDocument) (catalog : Catalog) (path : BlockPath)
    (change : RawBlock → Except OutOfRange (RawBlock × Answer)) :
    Except OutOfRange (RawDocument × Option Answer) :=
  match path.steps with
  | [] => return (document, none)
  | step :: rest =>
    if step.line = 0 then
      match document.blocks[step.position]? with
      | none => return (document, none)
      | some block => do
        let (block, answer) ← RawBlock.updateAt (document.style catalog) change rest block
        return (document.withBlocks (document.blocks.set step.position block), answer)
    else return (document, none)

/-- Takes out the block at the end of a path. -/
def remove (document : RawDocument) (catalog : Catalog) (path : BlockPath) :
    Except OutOfRange (RawDocument × Option RawBlock) :=
  match path.steps with
  | [] => return (document, none)
  | step :: rest =>
    if step.line ≠ 0 || document.blocks.length ≤ step.position then return (document, none)
    else if rest.isEmpty then do
      let (block, blocks) ← takeItem document.blocks step.position
      return (document.withBlocks blocks, some block)
    else do
      let block ← item document.blocks step.position
      let (block, removed) ← block.detach (document.style catalog) ⟨rest⟩
      let blocks ← write document.blocks step.position block
      return (document.withBlocks blocks, removed)

/-- What lies under a point. -/
def hit? (document : RawDocument) (x y : Float32) : Except OutOfRange (Option Hit) :=
  let config := document.geometry.config
  let innerX := x - config.elementPaddingHorizontal
  let innerY := y - config.elementPaddingVertical
  if innerX < 0 || innerY < 0 then return none
  else RawBlock.hitStack config innerX innerY 0 0 0 document.blocks

/-- The type of the literals that the field under a point takes, if an input is there. -/
def literalTypeAt? (document : RawDocument) (x y : Float32) :
    Except OutOfRange (Option ValueType) := do
  match ← document.hit? x y with
  | some (.field path line column) =>
    return (document.get? path).bind fun owner => owner.literalType? line column
  | _ => return none

/-- The text in the field under a point, if a field is there. -/
def valueAt? (document : RawDocument) (x y : Float32) : Except OutOfRange (Option String) := do
  match ← document.hit? x y with
  | some (.field path line column) =>
    return (document.get? path).bind fun owner => owner.value? line column
  | _ => return none

/-- Puts a text into the field under a point, and says whether the field has taken it. -/
def setValueAt (document : RawDocument) (catalog : Catalog) (text : String) (x y : Float32) :
    Except OutOfRange (RawDocument × Bool) := do
  match ← document.hit? x y with
  | some (.field path line column) =>
    let (document, taken) ← document.edit catalog path
      (RawBlock.typeText (document.style catalog) line column text)
    return (document, taken.getD false)
  | _ => return (document, false)

/-- Takes out the block under a point, or the one whose field is there. -/
def removeAt (document : RawDocument) (catalog : Catalog) (x y : Float32) :
    Except OutOfRange (RawDocument × Option RawBlock) := do
  match ← document.hit? x y with
  | some hit => document.remove catalog hit.path
  | none => return (document, none)

/-- Drops a block at a point. -/
def insertAt (document : RawDocument) (catalog : Catalog) (block : RawBlock) (x y : Float32) :
    Except OutOfRange RawDocument := do
  let config := document.geometry.config
  let blocks ← RawBlock.insertIntoStack (document.style catalog) block
    (x - config.elementPaddingHorizontal) (y - config.elementPaddingVertical) 0 0 [] document.blocks
  return document.withBlocks blocks

end RawDocument

end BlockEditor
