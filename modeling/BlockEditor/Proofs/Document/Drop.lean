import BlockEditor.Proofs.Document.Current

/-!
# Dropping a block into a document

A block that is dropped into a document gets one place: a new one in the stack of top-level blocks,
or a free place of a block inside one of them. `Document.Dropped` says what becomes of the document
then, block by block, and `Document.insertAt_dropped` says that every drop is of this kind and that
removing the block again gives back the document.
-/

namespace BlockEditor

namespace Document

/-- A document has become another one by a block that was put into a place of the block at the end
of a path, or of the stack of top-level blocks if the path is empty. -/
structure Dropped (catalog : Catalog) (before after : Document) (dropped : Block)
    (owner : BlockPath) (place : Place) : Prop where
  /-- The dropped block is in its place, unchanged. -/
  reached : after.get? (owner.child place.step) = some dropped
  /-- The place is a new one in the stack of top-level blocks, or was a free place of the block at
  the end of the path, which has got nothing else. -/
  filled :
    (owner = .root ∧ ∃ index, place = .inStack 0 index ∧ index ≤ before.blocks.length ∧
        after.blocks = before.blocks.insertIdx index dropped) ∨
      ∃ target changed, before.get? owner = some target ∧
        place.Fills (before.style catalog) dropped target changed ∧
        after.get? owner = some changed
  /-- The blocks next to the dropped one and everything in them are the same, in the same order. -/
  beside : ∀ step rest inner, before.get? ((owner.child step).join rest) = some inner →
    after.get? ((owner.child (place.moved step)).join rest) = some inner
  /-- Blocks that are neither on the way to the place nor behind it are the same. -/
  apart : ∀ path : BlockPath, owner.hasPrefix path = false → path.hasPrefix owner = false →
    after.get? path = before.get? path
  /-- A block on the way has got another block where the way goes on, and has been measured. -/
  above : ∀ (upper : BlockPath) (step : Step) (lower : BlockPath) (old : Block),
    owner = (upper.child step).join lower → before.get? upper = some old →
    ∃ changed, after.get? (upper.child step) = some changed ∧
      after.get? upper = some ((old.setChild step changed).measured (before.style catalog))
  /-- Removing the dropped block gives it back and restores the document. -/
  undone : after.remove catalog (owner.child place.step) = (before, some dropped)

variable {catalog : Catalog} {document : Document} {dropped : Block}

/-- A block that goes between two top-level blocks. -/
theorem dropped_top {index : Nat} (isSized : document.IsSized)
    (inRange : index ≤ document.blocks.length) :
    Dropped catalog document (document.withBlocks (document.blocks.insertIdx index dropped)) dropped
      .root (.inStack 0 index) where
  reached := by
    simp [BlockPath.child, BlockPath.root, Place.step, inRange, List.getElem?_insertIdx_self]
  filled := .inl ⟨rfl, index, rfl, inRange, rfl⟩
  beside step rest inner found := by
    rcases step with ⟨line, position⟩
    rcases get?_eq_some found with ⟨_, _, block, steps, atIndex, reached⟩
    cases steps
    have inBlock : block.descendant? rest.steps = some inner := reached
    by_cases behind : index ≤ position
    · simp [BlockPath.child, BlockPath.join, BlockPath.root, Place.moved, behind,
        List.getElem?_insertIdx_of_gt (Nat.lt_succ_of_le behind), atIndex, inBlock]
    · simp [BlockPath.child, BlockPath.join, BlockPath.root, Place.moved, behind,
        List.getElem?_insertIdx_of_lt (Nat.lt_of_not_le behind), atIndex, inBlock]
  apart path _ notBelow := by
    simp [BlockPath.hasPrefix, BlockPath.root] at notBelow
  above upper step lower old onWay _ := by
    simp [BlockPath.root, BlockPath.child, BlockPath.join] at onWay
  undone := by
    have taken : (document.blocks.insertIdx index dropped)[index]? = some dropped := by
      simp [List.getElem?_insertIdx_self, inRange]
    simp only [BlockPath.child, BlockPath.root, Place.step, remove, List.nil_append, if_true,
      blocks_withBlocks, taken, List.isEmpty_nil, List.eraseIdx_insertIdx_self]
    rw [withBlocks_withBlocks, withBlocks_blocks isSized]

/-- A block that goes into a top-level block. -/
theorem dropped_inside {index : Nat} {owner : List Step} {place : Place} {block changed : Block}
    (isSized : document.IsSized) (atIndex : document.blocks[index]? = some block)
    (current : block.Everywhere (Block.IsMeasured (document.style catalog)))
    (put : Block.Put (document.style catalog) dropped owner place block changed) :
    Dropped catalog document (document.withBlocks (document.blocks.set index changed)) dropped
      ⟨⟨0, index⟩ :: owner⟩ place := by
  rcases List.getElem?_eq_some_iff.mp atIndex with ⟨inRange, _⟩
  have afterwards : (document.blocks.set index changed)[index]? = some changed := by
    simp [inRange]
  constructor
  case reached =>
    simp [BlockPath.child, afterwards, put.reached]
  case filled =>
    rcases put.target with ⟨target, filled, reached, fills, reachedAfter⟩
    exact .inr ⟨target, filled, by simp [atIndex, reached], fills,
      by simp [afterwards, reachedAfter]⟩
  case beside =>
    intro step rest inner found
    simp only [BlockPath.child, BlockPath.join, List.cons_append, List.append_assoc, get?_top,
      atIndex, Option.bind_some, List.nil_append, blocks_withBlocks, afterwards] at found ⊢
    exact put.beside found
  case apart =>
    intro path notAbove notBelow
    refine get?_set_of_apart atIndex ?_ notAbove notBelow
    intro rest above below
    exact put.apart above below
  case above =>
    intro upper step lower old onWay found
    rcases get?_eq_some_of_above atIndex onWay found with ⟨upper, rfl, rfl, found⟩
    rcases put.above found with ⟨inner, reached, reachedAfter⟩
    exact ⟨inner, by simp [BlockPath.child, afterwards, reached],
      by simp [afterwards, reachedAfter]⟩
  case undone =>
    have restored : (document.blocks.set index changed).set index block = document.blocks := by
      rcases List.getElem?_eq_some_iff.mp atIndex with ⟨_, rfl⟩
      simp
    have notEmpty : (owner ++ [place.step]).isEmpty = false := by simp
    simp only [BlockPath.child, remove, List.cons_append, if_true, blocks_withBlocks, afterwards,
      style_withBlocks, Block.detach_append, put.undo current, notEmpty, Bool.false_eq_true,
      if_false, Option.getD_some, withBlocks_withBlocks, restored, withBlocks_blocks isSized]

/-- A document has got a dropped block, in a new place among the top-level blocks or in a free place
of the block at the end of a path inside one of them. -/
inductive Landed (catalog : Catalog) (document : Document) (dropped : Block) :
    BlockPath → Place → Document → Prop where
  | top {index : Nat} (inRange : index ≤ document.blocks.length) :
      Landed catalog document dropped .root (.inStack 0 index)
        (document.withBlocks (document.blocks.insertIdx index dropped))
  | inside {index : Nat} {owner : List Step} {place : Place} {block changed : Block}
      (atIndex : document.blocks[index]? = some block)
      (put : Block.Put (document.style catalog) dropped owner place block changed) :
      Landed catalog document dropped ⟨⟨0, index⟩ :: owner⟩ place
        (document.withBlocks (document.blocks.set index changed))

/-- Where a drop at a point lands depends only on the columns that the dropped block fits. -/
theorem insertAt_landed (catalog : Catalog) (document : Document) (fits : ColumnKind → Bool)
    (x y : Float32) :
    ∃ owner place, ∀ dropped : Block, dropped.format.fitsColumn = fits →
      Landed catalog document dropped owner place (document.insertAt catalog dropped x y) := by
  have spots : ∀ block ∈ document.blocks, Block.HasSpots (document.style catalog) fits block :=
    fun block _ => Block.offer_spot _ fits block
  rcases Block.offerStack_spot spots (x - document.geometry.config.elementPaddingHorizontal)
      (y - document.geometry.config.elementPaddingVertical) 0 with
    ⟨index, inRange, placed⟩ | ⟨index, block, owner, place, atIndex, placed⟩
  · refine ⟨.root, .inStack 0 index, ?_⟩
    intro dropped sameFits
    rw [insertAt, placed dropped sameFits]
    exact .top inRange
  · refine ⟨⟨⟨0, index⟩ :: owner⟩, place, ?_⟩
    intro dropped sameFits
    rcases placed dropped sameFits with ⟨changed, put, placed⟩
    rw [insertAt, placed]
    exact .inside atIndex put

/-- A block that has landed in a place of a current document has been dropped there, and nothing
else has changed. -/
theorem dropped_of_landed {owner : BlockPath} {place : Place} {after : Document}
    (landed : Landed catalog document dropped owner place after)
    (current : document.relayout catalog = document) :
    Dropped catalog document after dropped owner place := by
  rcases relayout_eq_self_iff.mp current with ⟨isSized, everywhere⟩
  cases landed with
  | top inRange => exact dropped_top isSized inRange
  | inside atIndex put =>
      exact dropped_inside isSized atIndex (everywhere _ (List.mem_of_getElem? atIndex)) put

/-- A drop into a document whose layout is current, at any point, puts the block into exactly one
place. Everything else stays, and removing the block restores the document. -/
theorem insertAt_dropped (current : document.relayout catalog = document) (dropped : Block)
    (x y : Float32) :
    ∃ owner place,
      Dropped catalog document (document.insertAt catalog dropped x y) dropped owner place := by
  rcases insertAt_landed catalog document dropped.format.fitsColumn x y with
    ⟨owner, place, landed⟩
  exact ⟨owner, place, dropped_of_landed (landed dropped rfl) current⟩

/-- A block that is dropped at the stack of the only block of a document goes into that block. -/
theorem dropped_into_loop :
    ∃ (catalog : Catalog) (document : Document) (dropped : Block),
      (document.insertAt catalog dropped 40 41).blocks.length = 1 ∧
        document.relayout catalog = document ∧
          ∃ owner place, Dropped catalog document (document.insertAt catalog dropped 40 41) dropped
            owner place := by
  let format : BlockFormat :=
    .plain "loop" 0 [.columns [.label "loop", .child (.input .num)], .stack]
  let catalog := Catalog.empty.registerFormats [format]
  let document := (Call.apply catalog (.empty .standard) (.attachNew "loop")).1
  have current : document.relayout catalog = document :=
    relayout_apply (.attachNew "loop") (by simp [Call.handed]) rfl
  exact ⟨catalog, document, .fresh (document.style catalog) format, by decide +kernel, current,
    insertAt_dropped current _ 40 41⟩

end Document

end BlockEditor
