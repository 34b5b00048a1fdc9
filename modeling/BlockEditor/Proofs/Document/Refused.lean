import BlockEditor.Proofs.Document.Current
import BlockEditor.Store.Library

/-!
# What is refused leaves no trace

A block refuses an edit (`Block.Edit.Refused`) and a document a call (`Document.Call.Refused`) when
the answer says so. A path edit measures the blocks on the way even if the block at its end has
refused it, so a refusal leaves a document exactly as it was only because the layout is current: a
measured block is measured to itself (`Document.Call.apply_of_refused`).
-/

namespace BlockEditor

variable {style : Style}

namespace Block

variable {block : Block}

/-- A block answers an edit with a refusal: a text is not taken, a block that was offered is handed
back, or none is taken out. -/
def Edit.Refused (style : Style) (block : Block) : Edit → Prop
  | .setLiteral line column text => (block.typeText style line column text).2 = false
  | .placeChild line column child => (block.placeChild style line column child).2 ≠ none
  | .insertChild line index child => (block.insertChild style line index child).2 ≠ none
  | .pushChild line child => (block.pushChild style line child).2 ≠ none
  | .takeChild step => (block.takeChild style step).2 = none
  | .detach path => (block.detach style path).2 = none
  | .setValueAt text x y => (block.setValueAt style text x y).2 = false
  | .removeAt x y => (block.removeAt style x y).2 = none
  | .relayout => False

theorem typeText_unchanged {line column : Nat} {text : String}
    (refused : (block.typeText style line column text).2 = false) :
    (block.typeText style line column text).1 = block := by
  rcases typeText_cases style line column text block with same | ⟨_, _, _, _, _, _, same⟩
  · rw [same]
  · simp [same] at refused

theorem placeChild_unchanged {line column : Nat} {child : Block}
    (refused : (block.placeChild style line column child).2 ≠ none) :
    block.placeChild style line column child = (block, some child) := by
  rcases placeChild_cases style block line column child with same | ⟨_, _, _, _, same⟩
  · exact same
  · simp [same] at refused

theorem insertChild_unchanged {line index : Nat} {child : Block}
    (refused : (block.insertChild style line index child).2 ≠ none) :
    block.insertChild style line index child = (block, some child) := by
  rcases insertChild_cases style block line index child with same | ⟨_, _, _, same⟩
  · exact same
  · simp [same] at refused

theorem pushChild_unchanged {line : Nat} {child : Block}
    (refused : (block.pushChild style line child).2 ≠ none) :
    block.pushChild style line child = (block, some child) := by
  rcases pushChild_cases style block line child with same | ⟨_, _, _, same⟩
  · exact same
  · simp [same] at refused

/-- What was taken out of a column and is no block has been put back. -/
theorem takeChild_unchanged {step : Step} (refused : (block.takeChild style step).2 = none) :
    block.takeChild style step = (block, none) := by
  rcases takeChild_cases style step block with
    ⟨same, _⟩ | ⟨_, _, ⟨_, _, _, same⟩ | ⟨_, _, _, same⟩⟩
  · exact same
  · simp [same] at refused
  · simp [same] at refused

/-- A current block from which nothing is detached stays as it is. -/
theorem detach_unchanged (current : block.Everywhere (IsMeasured style)) {path : BlockPath}
    (refused : (block.detach style path).2 = none) : block.detach style path = (block, none) := by
  rw [detach_eq] at refused ⊢
  split at refused
  · rfl
  · apply updateAt_getD_unchanged current ?_ refused
    intro inner refusedInside
    rw [takeChild_unchanged refusedInside]

/-- A current block that refuses a text at a point stays as it is. -/
theorem setValueAt_unchanged (current : block.Everywhere (IsMeasured style)) {text : String}
    {x y : Float32} (refused : (block.setValueAt style text x y).2 = false) :
    block.setValueAt style text x y = (block, false) := by
  rw [setValueAt] at refused ⊢
  split at refused
  · apply updateAt_getD_unchanged current ?_ refused
    exact fun _ => typeText_unchanged
  · rfl

theorem removeAt_unchanged (current : block.Everywhere (IsMeasured style)) {x y : Float32}
    (refused : (block.removeAt style x y).2 = none) :
    block.removeAt style x y = (block, none) := by
  rw [removeAt] at refused ⊢
  split at refused
  · exact detach_unchanged current refused
  · rfl

/-- A block with a current layout that refuses an edit stays as it is and hands back the block that
it was offered. -/
theorem Edit.apply_of_refused {edit : Edit} (current : block.Everywhere (IsMeasured style))
    (refused : edit.Refused style block) : edit.apply style block = (block, edit.handed) := by
  cases edit with
  | setLiteral line column text => simp [apply, handed, typeText_unchanged refused]
  | placeChild line column child => exact placeChild_unchanged refused
  | insertChild line index child => exact insertChild_unchanged refused
  | pushChild line child => exact pushChild_unchanged refused
  | takeChild step => exact takeChild_unchanged refused
  | detach path => exact detach_unchanged current refused
  | setValueAt text x y => simp [apply, handed, setValueAt_unchanged current refused]
  | removeAt x y => exact removeAt_unchanged current refused
  | relayout => cases refused

end Block

namespace Document

variable {catalog : Catalog} {document : Document} {path : BlockPath}

/-- A document answers a call with a refusal. An edit by path is refused if its path leads nowhere
or if the block at its end refuses it. -/
def Call.Refused (catalog : Catalog) (document : Document) : Call → Prop
  | .attachNew id => ∃ error, document.attachNew catalog id = .error error
  | .loadText text => ∃ error, document.loadText catalog text = .error error
  | .edit path change => ∀ target, document.get? path = some target →
      change.Refused (document.style catalog) target
  | .setValueAt text x y => (document.setValueAt catalog text x y).2 = false
  | .remove path => (document.remove catalog path).2 = none
  | .removeAt x y => (document.removeAt catalog x y).2 = none
  | _ => False

/-- An edit that leaves the block at the end of the path as it is leaves the document so. -/
theorem edit_unchanged {Answer : Type} {change : Block → Block × Answer} {target : Block}
    (current : document.relayout catalog = document) (found : document.get? path = some target)
    (unchanged : (change target).1 = target) :
    document.edit catalog path change = some (document, (change target).2) := by
  rcases relayout_eq_self_iff.mp current with ⟨isSized, everywhere⟩
  rcases get?_eq_some found with ⟨index, rest, block, steps, atIndex, reached⟩
  have measured := everywhere block (List.mem_of_getElem? atIndex)
  simp [edit, steps, atIndex, Block.updateAt_unchanged measured reached unchanged,
    set_eq_self atIndex, withBlocks_blocks isSized]

/-- An edit that a block in a current document refuses leaves the document and hands back what was
handed in. -/
theorem edit_apply_of_refused {change : Block.Edit}
    (current : document.relayout catalog = document) {target : Block}
    (found : document.get? path = some target)
    (refused : change.Refused (document.style catalog) target) :
    document.edit catalog path (change.apply (document.style catalog)) =
      some (document, change.handed) := by
  have measured := (relayout_eq_self_iff.mp current).2.get? found
  have kept := Block.Edit.apply_of_refused measured refused
  rw [edit_unchanged current found (by rw [kept]), kept]

theorem setValueAt_unchanged (current : document.relayout catalog = document) {text : String}
    {x y : Float32} (refused : (document.setValueAt catalog text x y).2 = false) :
    (document.setValueAt catalog text x y).1 = document := by
  rw [setValueAt] at refused ⊢
  split at refused
  · rename_i path line column _
    cases reached : document.get? path with
    | none => rw [edit_eq_none _ reached, Option.getD_none]
    | some target =>
        rcases edit_exists catalog (Block.typeText (document.style catalog) line column text)
          reached with ⟨after, done⟩
        rw [done, Option.getD_some] at refused
        rw [edit_unchanged current reached (Block.typeText_unchanged refused), Option.getD_some]
  · rfl

/-- A current document from which nothing is removed stays as it is. -/
theorem remove_unchanged (current : document.relayout catalog = document)
    (refused : (document.remove catalog path).2 = none) :
    document.remove catalog path = (document, none) := by
  rcases relayout_eq_self_iff.mp current with ⟨isSized, everywhere⟩
  rcases remove_cases catalog document path with
    same | ⟨_, _, _, _, same⟩ | ⟨index, rest, block, _, _, atIndex, same⟩
  · exact same
  · simp [same] at refused
  · rw [same] at refused
    have measured := everywhere block (List.mem_of_getElem? atIndex)
    rw [same, Block.detach_unchanged measured refused, set_eq_self atIndex,
      withBlocks_blocks isSized]

theorem removeAt_unchanged (current : document.relayout catalog = document) {x y : Float32}
    (refused : (document.removeAt catalog x y).2 = none) :
    document.removeAt catalog x y = (document, none) := by
  rw [removeAt] at refused ⊢
  split at refused
  · exact remove_unchanged current refused
  · rfl

theorem remove_of_unresolved (nowhere : document.get? path = none) :
    (document.remove catalog path).2 = none := by
  rw [answer_remove, nowhere]

/-- A document with a current layout that refuses a call stays as it is and hands back the block
that it was offered. -/
theorem Call.apply_of_refused {call : Call} (current : document.relayout catalog = document)
    (refused : call.Refused catalog document) :
    call.apply catalog document = (document, call.handed) := by
  cases call with
  | attachNew id =>
      rcases refused with ⟨error, refused⟩
      simp [apply, handed, refused, Except.toOption]
  | loadText text =>
      rcases refused with ⟨error, refused⟩
      simp [apply, handed, refused, Except.toOption]
  | edit path change =>
      cases found : document.get? path with
      | none => simp [apply, handed, edit_eq_none _ found]
      | some target =>
          simp [apply, handed, edit_apply_of_refused current found (refused target found)]
  | setValueAt text x y => simp [apply, handed, Document.setValueAt_unchanged current refused]
  | remove path => exact remove_unchanged current refused
  | removeAt x y => exact removeAt_unchanged current refused
  | load records => cases refused
  | clear => cases refused
  | relayout => cases refused
  | setGeometry geometry => cases refused
  | insertAt block x y => cases refused
  | pollChange => cases refused

end Document

/-- The document after it was to be filled with a function of a library. -/
def FunctionLibrary.opened (library : FunctionLibrary) (name : String) (catalog : Catalog)
    (document : Document) : Document :=
  (library.openInto name document catalog).toOption.elim document Prod.fst

namespace Document

/-- Refusals leave no trace: a document with a current layout that refuses a call is the same
afterwards, with all sizes and the records that were last made known, and hands back the block that
it was offered. Refused are edits and removals by a path that leads nowhere, after which measuring
the document changes nothing either, removals where nothing is hit, new blocks with an unknown
identifier and texts that are not lists of records; nor is anything left of a function that cannot
be read. -/
theorem refusals_leave_no_trace {catalog : Catalog} {document : Document}
    (current : document.relayout catalog = document) :
    (∀ call : Call, call.Refused catalog document →
        call.apply catalog document = (document, call.handed)) ∧
      (∀ path, document.get? path = none →
        (Call.remove path).Refused catalog document ∧
          (∀ change, (Call.edit path change).Refused catalog document) ∧
            ∀ (Answer : Type) (change : Block → Block × Answer),
              document.edit catalog path change = none) ∧
      document.withBlocks document.blocks = document ∧
      (∀ x y, document.hit? x y = none → (Call.removeAt x y).Refused catalog document) ∧
      (∀ id, catalog.lookup id = none → (Call.attachNew id).Refused catalog document) ∧
      (∀ text, InstanceRecord.listOfText? text = none →
        (Call.loadText text).Refused catalog document) ∧
      ∀ (library : FunctionLibrary) (name : String) (error : StoreError),
        library.read name = .error error →
          library.openInto name document catalog = .error error ∧
            library.opened name catalog document = document := by
  have isSized : document.IsSized := (relayout_eq_self_iff.mp current).1
  refine ⟨fun call => Call.apply_of_refused current, ?_, withBlocks_blocks isSized, ?_, ?_, ?_, ?_⟩
  · intro path nowhere
    refine ⟨remove_of_unresolved nowhere, ?_, fun _ change => edit_eq_none change nowhere⟩
    intro change target found
    simp [nowhere] at found
  · intro x y nothing
    simp [Call.Refused, removeAt, nothing]
  · intro id unknown
    refine ⟨.unknownFormat id, ?_⟩
    rw [attachNew, Block.ofId, unknown]
    rfl
  · intro text unreadable
    exact ⟨.json, by simp [loadText, unreadable]⟩
  · intro library name error unread
    have failed : library.openInto name document catalog = .error error := by
      rw [FunctionLibrary.openInto, unread]
      rfl
    exact ⟨failed, by simp [FunctionLibrary.opened, failed, Except.toOption]⟩

/-- A block of the wrong type that is put into a column inside another block is handed back and
leaves the document as it is. -/
theorem unchanged_after_misfit :
    ∃ (catalog : Catalog) (document : Document) (child : Block),
      document.relayout catalog = document ∧
        (document.get? ⟨[⟨0, 0⟩, ⟨1, 0⟩]⟩).isSome = true ∧
          (Call.edit ⟨[⟨0, 0⟩, ⟨1, 0⟩]⟩ (.placeChild 0 1 child)).apply catalog document =
            (document, some child) := by
  let format : BlockFormat :=
    .plain "loop" 0 [.columns [.label "loop", .child (.input .num)], .stack]
  let catalog := Catalog.empty.registerFormats [format]
  let child := Block.fresh (catalog.style .standard) format
  have laidOut : child.relaid (catalog.style .standard) = child :=
    Block.relaid_eq_self_iff.mpr (Block.invariant_isMeasured.everywhere_fresh _ format)
  have attached := relayout_apply (.attachNew "loop") (by simp [Call.handed])
    (rfl : (Document.empty .standard).relayout catalog = .empty .standard)
  have current := relayout_apply (.edit ⟨[⟨0, 0⟩]⟩ (.pushChild 1 child)) (by
    intro block handed
    cases handed
    exact laidOut) attached
  refine ⟨catalog, _, child, current, rfl, (refusals_leave_no_trace current).1 _ ?_⟩
  intro target found
  cases found
  exact Option.some_ne_none child

end Document

end BlockEditor
