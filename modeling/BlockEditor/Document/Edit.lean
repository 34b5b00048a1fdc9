import BlockEditor.Block.Drop
import BlockEditor.Document.Basic

/-!
# Edits of a document

Blocks of a document are edited and removed by path, and found, edited, removed and dropped by
point. A dropped block always finds a place: where no block takes it, it goes to the stack of
top-level blocks.
-/

namespace BlockEditor

namespace Document

/-- Edits the block at the end of a path and measures everything around it. There is no result if
no block is there. -/
def edit {Answer : Type} (document : Document) (catalog : Catalog) (path : BlockPath)
    (change : Block → Block × Answer) : Option (Document × Answer) :=
  match path.steps with
  | [] => none
  | step :: rest =>
    if step.line = 0 then do
      let block ← document.blocks[step.position]?
      let (changed, answer) ← Block.updateAt (document.style catalog) change rest block
      return (document.withBlocks (document.blocks.set step.position changed), answer)
    else none

/-- Takes out the block at the end of a path. -/
def remove (document : Document) (catalog : Catalog) (path : BlockPath) :
    Document × Option Block :=
  match path.steps with
  | [] => (document, none)
  | step :: rest =>
    if step.line = 0 then
      match document.blocks[step.position]? with
      | none => (document, none)
      | some block =>
        if rest.isEmpty then
          (document.withBlocks (document.blocks.eraseIdx step.position), some block)
        else
          let (left, removed) := block.detach (document.style catalog) ⟨rest⟩
          (document.withBlocks (document.blocks.set step.position left), removed)
    else (document, none)

/-- What lies under a point. -/
def hit? (document : Document) (x y : Float32) : Option Hit :=
  let config := document.geometry.config
  let innerX := x - config.elementPaddingHorizontal
  let innerY := y - config.elementPaddingVertical
  if innerX < 0 || innerY < 0 then none
  else Block.hitStack config innerX innerY 0 0 0 document.blocks

/-- The type of the literals that the field under a point takes, if an input is there. -/
def literalTypeAt? (document : Document) (x y : Float32) : Option ValueType :=
  match document.hit? x y with
  | some (.field path line column) =>
    (document.get? path).bind fun owner => owner.literalType? line column
  | _ => none

/-- The text in the field under a point, if a field is there. -/
def valueAt? (document : Document) (x y : Float32) : Option String :=
  match document.hit? x y with
  | some (.field path line column) =>
    (document.get? path).bind fun owner => owner.value? line column
  | _ => none

/-- Puts a text into the field under a point, and says whether the field has taken it. -/
def setValueAt (document : Document) (catalog : Catalog) (text : String) (x y : Float32) :
    Document × Bool :=
  match document.hit? x y with
  | some (.field path line column) =>
    (document.edit catalog path
      (Block.typeText (document.style catalog) line column text)).getD (document, false)
  | _ => (document, false)

/-- Takes out the block under a point, or the one whose field is there. -/
def removeAt (document : Document) (catalog : Catalog) (x y : Float32) :
    Document × Option Block :=
  match document.hit? x y with
  | some hit => document.remove catalog hit.path
  | none => (document, none)

/-- Drops a block at a point. -/
def insertAt (document : Document) (catalog : Catalog) (block : Block) (x y : Float32) :
    Document :=
  let config := document.geometry.config
  document.withBlocks
    (Block.offerStack (document.style catalog) block (x - config.elementPaddingHorizontal)
      (y - config.elementPaddingVertical) 0 document.blocks)

end Document

end BlockEditor
