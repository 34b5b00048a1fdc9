import BlockEditor.Proofs.Block.Outline
import BlockEditor.Proofs.Document.Drop

/-!
# Blocks of the same types land in the same place

Two blocks whose formats produce and accept the same types fit the same columns, so drops of the one
and of the other at the same point land in the same place. The two documents then have the same
outlines wherever the dropped block is not: on the way to the place only sizes differ, and apart
from the way nothing does (`Document.insertAt_sameTypes`).
-/

namespace BlockEditor

variable {style : Style} {first second target firstFilled secondFilled : Block} {place : Place}

theorem BlockFormat.fitsColumn_of_sameTypes {format other : BlockFormat}
    (sameProduced : format.produces = other.produces)
    (sameAccepted : format.accepts = other.accepts) : format.fitsColumn = other.fitsColumn := by
  funext kind
  rw [fitsColumn, fitsColumn, sameProduced, sameAccepted]

namespace Place.Fills

/-- A place that is filled with one block or another leaves the same outline. -/
theorem outline_eq (fills : place.Fills style first target firstFilled)
    (otherFills : place.Fills style second target secondFilled) :
    firstFilled.outline = secondFilled.outline := by
  cases fills with
  | stack atLine inRange =>
      cases otherFills with
      | stack otherAtLine _ =>
          cases atLine.symm.trans otherAtLine
          rw [Block.outline_measured, Block.outline_measured]
          apply Block.outline_setLine_congr
          simp [Line.outline, List.length_insertIdx]
  | column atCell fits =>
      cases otherFills with
      | column _ _ =>
          rcases Block.cell?_eq_some atCell with ⟨cells, size, atLine, atColumn⟩
          rw [Block.outline_measured, Block.outline_measured, Block.setContent_eq_setLine atLine,
            Block.setContent_eq_setLine atLine, modify_eq_set atColumn, modify_eq_set atColumn]
          apply Block.outline_setLine_congr
          simp only [Line.outline, List.map_set]
          rfl

theorem child?_eq (fills : place.Fills style first target firstFilled)
    (otherFills : place.Fills style second target secondFilled) {step : Step}
    (elsewhere : step ≠ place.step) : firstFilled.child? step = secondFilled.child? step := by
  rcases step with ⟨stepLine, position⟩
  cases fills with
  | @stack line index children size atLine inRange =>
      cases otherFills with
      | stack otherAtLine _ =>
          cases atLine.symm.trans otherAtLine
          rcases List.getElem?_eq_some_iff.mp atLine with ⟨lineInRange, _⟩
          by_cases sameLine : stepLine = line
          · subst stepLine
            have notIndex : position ≠ index := by
              rintro rfl
              exact elsewhere rfl
            simp [Block.child?_setLine, lineInRange, List.getElem?_insertIdx, notIndex]
          · simp [Block.child?_setLine, lineInRange, sameLine]
  | @column line column kind size atCell fits =>
      cases otherFills with
      | column _ _ =>
          have notHere : (⟨stepLine, position⟩ : Step) ≠ ⟨line, column⟩ := elsewhere
          simp [Block.child?_setContent atCell, notHere]

end Place.Fills

/-- What two blocks are put into at the same place has the same outlines wherever the two blocks are
not. -/
theorem Block.Put.map_outline_eq {owner other : List Step} {block after otherAfter : Block}
    (put : Put style first owner place block after)
    (otherPut : Put style second owner place block otherAfter)
    (outside : ¬owner ++ [place.step] <+: other) :
    (after.descendant? other).map outline = (otherAfter.descendant? other).map outline := by
  -- The way to the place is the same in both, so the two results are compared step by step on it.
  induction owner generalizing block after otherAfter other with
  | nil =>
      have fills := put_nil_iff.mp put
      have otherFills := put_nil_iff.mp otherPut
      cases other with
      | nil => exact congrArg some (fills.outline_eq otherFills)
      | cons step rest =>
          have elsewhere : step ≠ place.step := by
            rintro rfl
            exact outside (List.cons_prefix_cons.mpr ⟨rfl, List.nil_prefix⟩)
          rw [descendant?_cons, descendant?_cons, fills.child?_eq otherFills elsewhere]
  | cons step rest ih =>
      rcases put_cons_iff.mp put with ⟨child, changed, found, putInside, rfl⟩
      rcases put_cons_iff.mp otherPut with ⟨_, otherChanged, otherFound, otherPutInside, rfl⟩
      cases found.symm.trans otherFound
      cases other with
      | nil => simp [outline_setChild found]
      | cons otherStep otherRest =>
          simp only [descendant?_cons, child?_measured, child?_setChild found]
          by_cases same : otherStep = step
          · subst otherStep
            have outsideRest : ¬rest ++ [place.step] <+: otherRest :=
              fun inside => outside (List.cons_prefix_cons.mpr ⟨rfl, inside⟩)
            simpa using ih putInside otherPutInside outsideRest
          · simp [same]

namespace Document

variable {catalog : Catalog} {document after otherAfter : Document} {owner : BlockPath}

/-- A block that has landed is found at its place. -/
theorem Landed.reached (landed : Landed catalog document first owner place after) :
    after.get? (owner.child place.step) = some first := by
  cases landed with
  | top inRange =>
      simp [BlockPath.child, BlockPath.root, Place.step, inRange, List.getElem?_insertIdx_self]
  | inside atIndex put =>
      rcases List.getElem?_eq_some_iff.mp atIndex with ⟨inRange, _⟩
      simp [BlockPath.child, inRange, put.reached]

/-- Outside of what has landed in a place, the outlines do not depend on it. -/
theorem Landed.map_outline_eq (landed : Landed catalog document first owner place after)
    (otherLanded : Landed catalog document second owner place otherAfter) {path : BlockPath}
    (outside : path.hasPrefix (owner.child place.step) = false) :
    (after.get? path).map Block.outline = (otherAfter.get? path).map Block.outline := by
  rcases path with ⟨_ | ⟨⟨line, position⟩, rest⟩⟩
  · rfl
  by_cases onRoot : line = 0
  · subst line
    cases landed with
    | @top index inRange =>
        cases otherLanded with
        | top _ =>
            have notIndex : position ≠ index := by
              rintro rfl
              simp [BlockPath.hasPrefix, BlockPath.child, BlockPath.root, Place.step] at outside
            simp [List.getElem?_insertIdx, notIndex]
    | @inside index owner place block changed atIndex put =>
        cases otherLanded with
        | @inside _ _ _ _ otherChanged otherAtIndex otherPut =>
            cases atIndex.symm.trans otherAtIndex
            rcases List.getElem?_eq_some_iff.mp atIndex with ⟨inRange, _⟩
            by_cases samePosition : position = index
            · subst position
              have outsideBlock : ¬owner ++ [place.step] <+: rest := by
                intro inside
                exact not_isPrefix_of_hasPrefix outside (List.cons_prefix_cons.mpr ⟨rfl, inside⟩)
              simpa [inRange] using put.map_outline_eq otherPut outsideBlock
            · simp [Ne.symm samePosition]
  · simp [get?, onRoot]

/-- Drops of two blocks whose formats produce and accept the same types, at the same point of the
same document, land in the same place, and leave documents with the same formats, literals and
blocks in the same order wherever the dropped block is not. -/
theorem insertAt_sameTypes (catalog : Catalog) (document : Document) (first second : Block)
    (sameProduced : first.format.produces = second.format.produces)
    (sameAccepted : first.format.accepts = second.format.accepts) (x y : Float32) :
    ∃ owner place,
      Landed catalog document first owner place (document.insertAt catalog first x y) ∧
        Landed catalog document second owner place (document.insertAt catalog second x y) ∧
          (document.insertAt catalog first x y).get? (owner.child place.step) = some first ∧
          (document.insertAt catalog second x y).get? (owner.child place.step) = some second ∧
            ∀ path : BlockPath, path.hasPrefix (owner.child place.step) = false →
              ((document.insertAt catalog first x y).get? path).map Block.outline =
                ((document.insertAt catalog second x y).get? path).map Block.outline := by
  rcases insertAt_landed catalog document second.format.fitsColumn x y with ⟨owner, place, landed⟩
  have firstLanded := landed first (BlockFormat.fitsColumn_of_sameTypes sameProduced sameAccepted)
  have secondLanded := landed second rfl
  exact ⟨owner, place, firstLanded, secondLanded, firstLanded.reached, secondLanded.reached,
    fun path outside => firstLanded.map_outline_eq secondLanded outside⟩

/-- A number and a sum land in the same column of the only block of a document. -/
theorem sameTypes_into_loop :
    ∃ (catalog : Catalog) (document : Document) (first second : Block),
      first.format.id ≠ second.format.id ∧ first.lines.length ≠ second.lines.length ∧
        first.format.produces = second.format.produces ∧
          first.format.accepts = second.format.accepts ∧
            (document.insertAt catalog first 60 20).blocks.length = 1 ∧
              ∃ (owner : BlockPath) (place : Place),
                (document.insertAt catalog first 60 20).get? (owner.child place.step) = some first ∧
                  (document.insertAt catalog second 60 20).get? (owner.child place.step) =
                    some second := by
  let loop : BlockFormat :=
    .plain "loop" 0 [.columns [.label "loop", .child (.input .num)], .stack]
  let number : BlockFormat := { BlockFormat.plain "number" 0 [] with produces := some .num }
  let sum : BlockFormat :=
    { BlockFormat.plain "sum" 0 [.columns [.child (.input .num), .child (.input .num)]] with
      produces := some .num }
  let catalog := Catalog.empty.registerFormats [loop]
  let document := (Call.apply catalog (.empty .standard) (.attachNew "loop")).1
  let style := document.style catalog
  rcases insertAt_sameTypes catalog document (.fresh style number) (.fresh style sum) rfl rfl
      60 20 with
    ⟨owner, place, _, _, firstReached, secondReached, _⟩
  exact ⟨catalog, document, .fresh style number, .fresh style sum, by decide, by decide, rfl, rfl,
    by decide +kernel, owner, place, firstReached, secondReached⟩

end Document

end BlockEditor
