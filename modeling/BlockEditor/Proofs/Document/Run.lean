import BlockEditor.Document.Edit
import BlockEditor.Proofs.Block.Drop

/-!
# Everything that can be asked of a document

`Document.Call` lists the calls that may change a document, and `Document.Call.apply` carries one
out: it gives the document afterwards and the block that is handed out. The calls come down to the
edits of single top-level blocks, so an invariant of single blocks that is everywhere in a document
and in the blocks that a call brings along is everywhere afterwards
(`Block.Invariant.everywhere_call`).
-/

namespace BlockEditor

namespace Document

/-- A property holds of every block of a document, at any depth. -/
def Everywhere (Holds : Block → Prop) (document : Document) : Prop :=
  ∀ block ∈ document.blocks, block.Everywhere Holds

/-- A call that may change a document. -/
inductive Call where
  | attachNew (id : String)
  | load (records : List InstanceRecord)
  | loadText (text : String)
  | clear
  | relayout
  | setGeometry (geometry : Geometry)
  | edit (path : BlockPath) (change : Block.Edit)
  | setValueAt (text : String) (x y : Float32)
  | remove (path : BlockPath)
  | removeAt (x y : Float32)
  | insertAt (block : Block) (x y : Float32)
  | pollChange

namespace Call

/-- The block that a call brings along. -/
def handed : Call → Option Block
  | .edit _ change => change.handed
  | .insertAt block _ _ => some block
  | _ => none

/-- The blocks that a call builds from records. -/
def built (catalog : Catalog) (style : Style) : Call → List Block
  | .load records => loadedBlocks catalog style records
  | .loadText text => (InstanceRecord.listOfText? text).elim [] (loadedBlocks catalog style)
  | _ => []

/-- Carries out a call. Gives the document afterwards, and the block that was taken out or
refused. -/
def apply (catalog : Catalog) (document : Document) : Call → Document × Option Block
  | .attachNew id => ((document.attachNew catalog id).toOption.elim document Prod.fst, none)
  | .load records => ((document.load catalog records).1, none)
  | .loadText text => ((document.loadText catalog text).toOption.elim document Prod.fst, none)
  | .clear => (document.clear, none)
  | .relayout => (document.relayout catalog, none)
  | .setGeometry geometry => (document.setGeometry catalog geometry, none)
  | .edit path change =>
      (document.edit catalog path (change.apply (document.style catalog))).getD
        (document, change.handed)
  | .setValueAt text x y => ((document.setValueAt catalog text x y).1, none)
  | .remove path => document.remove catalog path
  | .removeAt x y => document.removeAt catalog x y
  | .insertAt block x y => (document.insertAt catalog block x y, none)
  | .pollChange => (document.pollChange.1, none)

end Call

/-- The size of a document is the extent of its blocks. -/
def IsSized (document : Document) : Prop :=
  document.size = measure document.geometry document.blocks

variable {catalog : Catalog} {document after : Document} {path : BlockPath}

@[simp]
theorem style_withBlocks (catalog : Catalog) (document : Document) (blocks : List Block) :
    (document.withBlocks blocks).style catalog = document.style catalog := rfl

@[simp]
theorem blocks_withBlocks (document : Document) (blocks : List Block) :
    (document.withBlocks blocks).blocks = blocks := rfl

/-- A path leads on from the block at its first position. -/
@[simp]
theorem get?_top (document : Document) (index : Nat) (rest : List Step) :
    document.get? ⟨⟨0, index⟩ :: rest⟩ =
      document.blocks[index]?.bind (·.descendant? rest) := by
  simp [get?]

/-- A block at a path is inside the one at the first position of the path. -/
theorem get?_eq_some {inner : Block} (found : document.get? path = some inner) :
    ∃ index rest block, path.steps = ⟨0, index⟩ :: rest ∧ document.blocks[index]? = some block ∧
      block.descendant? rest = some inner := by
  rcases path with ⟨_ | ⟨⟨line, index⟩, rest⟩⟩
  · cases found
  · simp only [get?] at found
    split at found
    · rename_i onRoot
      rcases Option.bind_eq_some_iff.mp found with ⟨block, atIndex, reached⟩
      exact ⟨index, rest, block, by simp [onRoot], atIndex, reached⟩
    · cases found

theorem Everywhere.get? {Holds : Block → Prop} (everywhere : document.Everywhere Holds)
    {inner : Block} (found : document.get? path = some inner) : inner.Everywhere Holds := by
  rcases get?_eq_some found with ⟨index, rest, block, _, atIndex, reached⟩
  exact (everywhere block (List.mem_of_getElem? atIndex)).descendant reached

@[simp]
theorem withBlocks_withBlocks (document : Document) (first second : List Block) :
    (document.withBlocks first).withBlocks second = document.withBlocks second := rfl

theorem withBlocks_blocks (isSized : document.IsSized) :
    document.withBlocks document.blocks = document := by
  rw [withBlocks, ← isSized]

/-- An edit that has a result edits the block at the first position of the path. -/
theorem edit_eq_some {Answer : Type} {change : Block → Block × Answer} {answer : Answer}
    (done : document.edit catalog path change = some (after, answer)) :
    ∃ index rest block changed, path.steps = ⟨0, index⟩ :: rest ∧
      document.blocks[index]? = some block ∧
      Block.updateAt (document.style catalog) change rest block = some (changed, answer) ∧
      after = document.withBlocks (document.blocks.set index changed) := by
  rcases path with ⟨_ | ⟨⟨line, index⟩, rest⟩⟩
  · cases done
  · simp only [edit] at done
    split at done
    · rename_i onRoot
      simp only [Option.bind_eq_bind, Option.bind_eq_some_iff, Option.pure_def,
        Option.some.injEq, Prod.mk.injEq, Prod.exists] at done
      rcases done with ⟨block, atIndex, changed, _, updated, rfl, rfl⟩
      exact ⟨index, rest, block, changed, by simp [onRoot], atIndex, updated, rfl⟩
    · cases done

/-- An edit where no block is has no result. -/
theorem edit_eq_none {Answer : Type} (change : Block → Block × Answer)
    (nowhere : document.get? path = none) : document.edit catalog path change = none := by
  cases done : document.edit catalog path change with
  | none => rfl
  | some result =>
      rcases edit_eq_some done with ⟨index, rest, block, changed, steps, atIndex, updated, _⟩
      rcases Block.updateAt_target updated with ⟨target, reached, _⟩
      rcases path with ⟨_⟩
      cases steps
      simp [atIndex, reached] at nowhere

/-- An edit where a block is has a result, with the answer of the edit there. -/
theorem edit_exists {Answer : Type} {target : Block} (catalog : Catalog)
    (change : Block → Block × Answer) (found : document.get? path = some target) :
    ∃ after, document.edit catalog path change = some (after, (change target).2) := by
  rcases get?_eq_some found with ⟨index, rest, block, steps, atIndex, reached⟩
  have reachable : ∃ changed, Block.updateAt (document.style catalog) change rest block =
      some (changed, (change target).2) := Block.updateAt_exists change reached
  rcases reachable with ⟨changed, updated⟩
  exact ⟨document.withBlocks (document.blocks.set index changed),
    by simp [edit, steps, atIndex, updated]⟩

/-- A removal takes a top-level block out of the document, or detaches a block inside one, or does
nothing. -/
theorem remove_cases (catalog : Catalog) (document : Document) (path : BlockPath) :
    document.remove catalog path = (document, none) ∨
      (∃ index block, path.steps = [⟨0, index⟩] ∧ document.blocks[index]? = some block ∧
        document.remove catalog path =
          (document.withBlocks (document.blocks.eraseIdx index), some block)) ∨
      ∃ index rest block, path.steps = ⟨0, index⟩ :: rest ∧ rest ≠ [] ∧
        document.blocks[index]? = some block ∧
        document.remove catalog path =
          (document.withBlocks
              (document.blocks.set index (block.detach (document.style catalog) ⟨rest⟩).1),
            (block.detach (document.style catalog) ⟨rest⟩).2) := by
  rcases path with ⟨_ | ⟨⟨line, index⟩, rest⟩⟩
  · exact .inl rfl
  · by_cases onRoot : line = 0
    · subst line
      cases atIndex : document.blocks[index]? with
      | none => exact .inl (by simp [remove, atIndex])
      | some block =>
          cases rest with
          | nil => exact .inr (.inl ⟨index, block, rfl, atIndex, by simp [remove, atIndex]⟩)
          | cons step rest =>
              exact .inr (.inr ⟨index, step :: rest, block, rfl, List.cons_ne_nil _ _, atIndex,
                by simp [remove, atIndex]⟩)
    · exact .inl (by simp [remove, onRoot])

/-- A removal hands out the block at the end of the path if there is one, and nothing otherwise. -/
theorem answer_remove (catalog : Catalog) (document : Document) (path : BlockPath) :
    (document.remove catalog path).2 = document.get? path := by
  rcases path with ⟨_ | ⟨⟨line, index⟩, rest⟩⟩
  · rfl
  · by_cases onRoot : line = 0
    · subst line
      cases atIndex : document.blocks[index]? with
      | none => simp [remove, atIndex]
      | some block =>
          rcases List.eq_nil_or_concat rest with rfl | ⟨owner, step, rfl⟩
          · simp [remove, atIndex]
          · have notEmpty : (owner ++ [step]).isEmpty = false := by simp
            simp only [List.concat_eq_append, remove, if_true, atIndex, notEmpty,
              Bool.false_eq_true, if_false, Block.answer_detach, get?_top, Option.bind_some]
    · simp [remove, get?, onRoot]

theorem not_isPrefix_of_hasPrefix {path other : BlockPath}
    (without : path.hasPrefix other = false) : ¬other.steps <+: path.steps := by
  intro above
  rw [BlockPath.hasPrefix, List.isPrefixOf_iff_prefix.mpr above] at without
  cases without

/-- If one top-level block is changed and in it nothing apart from a path, then nothing apart from
this path is changed in the document. -/
theorem get?_set_of_apart {index : Nat} {owner : List Step} {block changed : Block}
    (atIndex : document.blocks[index]? = some block)
    (same : ∀ rest, ¬rest <+: owner → ¬owner <+: rest →
      changed.descendant? rest = block.descendant? rest)
    (notAbove : (⟨⟨0, index⟩ :: owner⟩ : BlockPath).hasPrefix path = false)
    (notBelow : path.hasPrefix ⟨⟨0, index⟩ :: owner⟩ = false) :
    (document.withBlocks (document.blocks.set index changed)).get? path = document.get? path := by
  rcases List.getElem?_eq_some_iff.mp atIndex with ⟨inRange, _⟩
  have afterwards : (document.blocks.set index changed)[index]? = some changed := by
    simp [inRange]
  rcases path with ⟨_ | ⟨⟨line, position⟩, rest⟩⟩
  · simp [BlockPath.hasPrefix] at notAbove
  · by_cases onRoot : line = 0
    · subst line
      by_cases samePosition : position = index
      · subst position
        simp only [get?_top, atIndex, Option.bind_some, blocks_withBlocks, afterwards]
        apply same
        · intro above
          exact not_isPrefix_of_hasPrefix notAbove (List.cons_prefix_cons.mpr ⟨rfl, above⟩)
        · intro below
          exact not_isPrefix_of_hasPrefix notBelow (List.cons_prefix_cons.mpr ⟨rfl, below⟩)
      · simp [Ne.symm samePosition]
    · simp [get?, onRoot]

/-- A path on the way into a top-level block leads to that block or into it. -/
theorem get?_eq_some_of_above {index : Nat} {owner : List Step} {block old : Block}
    {upper lower : BlockPath} {step : Step} (atIndex : document.blocks[index]? = some block)
    (onWay : (⟨⟨0, index⟩ :: owner⟩ : BlockPath) = (upper.child step).join lower)
    (found : document.get? upper = some old) :
    ∃ rest, upper = ⟨⟨0, index⟩ :: rest⟩ ∧ owner = rest ++ step :: lower.steps ∧
      block.descendant? rest = some old := by
  rcases upper with ⟨_ | ⟨first, rest⟩⟩
  · cases found
  · simp only [BlockPath.child, BlockPath.join, List.cons_append, List.append_assoc,
      List.nil_append, BlockPath.mk.injEq, List.cons.injEq] at onWay
    rcases onWay with ⟨rfl, rfl⟩
    simp only [get?_top, atIndex, Option.bind_some] at found
    exact ⟨rest, rfl, rfl, found⟩

/-- A document is another one with other blocks and the extent of those, or with its own blocks;
other records may have been made known. -/
inductive Touched (document : Document) : Document → Prop where
  | blocks (blocks : List Block) (published : List InstanceRecord) :
      Touched document { document.withBlocks blocks with published }
  | same (published : List InstanceRecord) : Touched document { document with published }

theorem Touched.style (touched : Touched document after) (catalog : Catalog) :
    after.style catalog = document.style catalog := by
  cases touched <;> rfl

theorem Touched.isSized (touched : Touched document after) (isSized : document.IsSized) :
    after.IsSized := by
  cases touched with
  | blocks blocks published => exact rfl
  | same published => exact isSized

/-- An edit changes nothing of a document but its blocks and their sizes. -/
theorem touched_edit {Answer : Type} (change : Block → Block × Answer) (path : BlockPath)
    (answer : Answer) :
    Touched document ((document.edit catalog path change).getD (document, answer)).1 := by
  cases done : document.edit catalog path change with
  | none => exact .same document.published
  | some result =>
      rcases edit_eq_some done with ⟨_, _, _, _, _, _, _, same⟩
      rw [Option.getD_some, same]
      exact .blocks _ document.published

theorem touched_remove (catalog : Catalog) (document : Document) (path : BlockPath) :
    Touched document (document.remove catalog path).1 := by
  rcases remove_cases catalog document path with
    same | ⟨_, _, _, _, same⟩ | ⟨_, _, _, _, _, _, same⟩
  · rw [same]
    exact .same document.published
  · rw [same]
    exact .blocks _ document.published
  · rw [same]
    exact .blocks _ document.published

/-- Only `setGeometry` changes the geometry; every other call that changes the blocks computes the
extent of the new ones. -/
theorem Call.touched_apply (call : Call) (fixed : ∀ geometry, call ≠ .setGeometry geometry) :
    Touched document (call.apply catalog document).1 := by
  cases call with
  | attachNew id =>
      rw [apply, Document.attachNew, Block.ofId]
      cases catalog.lookup id with
      | none => exact .same document.published
      | some format => exact .blocks _ document.published
  | load records => exact .blocks _ _
  | loadText text =>
      rw [apply, Document.loadText]
      split
      · exact .blocks _ _
      · exact .same document.published
  | clear => exact .blocks [] document.published
  | relayout => exact .blocks _ document.published
  | setGeometry geometry => exact absurd rfl (fixed geometry)
  | edit path change => exact touched_edit _ path _
  | setValueAt text x y =>
      rw [apply, Document.setValueAt]
      split
      · exact touched_edit _ _ _
      · exact .same document.published
  | remove path => exact touched_remove catalog document path
  | removeAt x y =>
      rw [apply, Document.removeAt]
      split
      · exact touched_remove catalog document _
      · exact .same document.published
  | insertAt block x y => exact .blocks _ document.published
  | pollChange =>
      rw [apply, Document.pollChange]
      split
      · exact .same document.published
      · exact .same _

/-- No call but the choice of another geometry changes the style. -/
theorem Call.style_apply (call : Call) (fixed : ∀ geometry, call ≠ .setGeometry geometry) :
    (call.apply catalog document).1.style catalog = document.style catalog :=
  (call.touched_apply fixed).style catalog

theorem Call.isSized_apply (call : Call) (isSized : document.IsSized) :
    (call.apply catalog document).1.IsSized := by
  by_cases fixed : ∀ geometry, call ≠ .setGeometry geometry
  · exact (call.touched_apply fixed).isSized isSized
  · simp only [Classical.not_forall, Classical.not_not] at fixed
    rcases fixed with ⟨geometry, rfl⟩
    exact rfl

end Document

namespace Block.Invariant

open Document

variable {Holds : Style → Block → Prop} (invariant : Block.Invariant Holds)
  {catalog : Catalog} {document : Document}

include invariant

/-- An edit that keeps an invariant and the formats keeps it in the document. -/
theorem everywhere_edit {Answer : Type} {change : Block → Block × Answer}
    (keeps : ∀ inner, (change inner).1.format = inner.format)
    (edited : ∀ inner : Block, inner.Everywhere (Holds (document.style catalog)) →
      (change inner).1.Everywhere (Holds (document.style catalog)))
    (path : BlockPath) (answer : Answer)
    (everywhere : document.Everywhere (Holds (document.style catalog))) :
    ((document.edit catalog path change).getD (document, answer)).1.Everywhere
      (Holds (document.style catalog)) := by
  cases done : document.edit catalog path change with
  | none => exact everywhere
  | some result =>
      rcases edit_eq_some done with ⟨index, rest, block, changed, _, atIndex, updated, same⟩
      rw [Option.getD_some, same]
      intro other otherMem
      rcases List.mem_or_eq_of_mem_set otherMem with otherMem | rfl
      · exact everywhere other otherMem
      · exact invariant.everywhere_updateAt keeps edited updated
          (everywhere block (List.mem_of_getElem? atIndex))

/-- Removing keeps an invariant, both in the document and in what is removed. -/
theorem everywhere_remove (path : BlockPath)
    (everywhere : document.Everywhere (Holds (document.style catalog))) :
    (document.remove catalog path).1.Everywhere (Holds (document.style catalog)) ∧
      ∀ out ∈ (document.remove catalog path).2,
        out.Everywhere (Holds (document.style catalog)) := by
  rcases remove_cases catalog document path with
    same | ⟨index, block, _, atIndex, same⟩ | ⟨index, rest, block, _, _, atIndex, same⟩
  · rw [same]
    exact ⟨everywhere, by simp⟩
  · rw [same]
    constructor
    · intro other otherMem
      exact everywhere other (List.mem_of_mem_eraseIdx otherMem)
    · intro out outMem
      cases outMem
      exact everywhere block (List.mem_of_getElem? atIndex)
  · rw [same]
    have detached := invariant.everywhere_detach ⟨rest⟩
      (everywhere block (List.mem_of_getElem? atIndex))
    constructor
    · intro other otherMem
      rcases List.mem_or_eq_of_mem_set otherMem with otherMem | rfl
      · exact everywhere other otherMem
      · exact detached.1
    · exact detached.2

/-- Another geometry keeps an invariant, in the new style. -/
theorem everywhere_setGeometry (geometry : Geometry)
    (everywhere : document.Everywhere (Holds (document.style catalog))) :
    (document.setGeometry catalog geometry).Everywhere
      (Holds ((document.setGeometry catalog geometry).style catalog)) := by
  intro block blockMem
  simp only [setGeometry, relayout, blocks_withBlocks, relaidStack_eq_map, List.mem_map] at blockMem
  rcases blockMem with ⟨old, oldMem, rfl⟩
  exact invariant.everywhere_relaid _ (everywhere old oldMem)

theorem everywhere_attachNew (id : String)
    (everywhere : document.Everywhere (Holds (document.style catalog))) :
    ((document.attachNew catalog id).toOption.elim document Prod.fst).Everywhere
      (Holds (document.style catalog)) := by
  rw [attachNew, ofId]
  cases catalog.lookup id with
  | none => exact everywhere
  | some format =>
      intro block blockMem
      rcases List.mem_append.mp blockMem with blockMem | blockMem
      · exact everywhere block blockMem
      · cases List.mem_singleton.mp blockMem
        exact invariant.everywhere_fresh _ format

theorem everywhere_insertAt {dropped : Block} (x y : Float32)
    (brought : dropped.Everywhere (Holds (document.style catalog)))
    (everywhere : document.Everywhere (Holds (document.style catalog))) :
    (document.insertAt catalog dropped x y).Everywhere (Holds (document.style catalog)) :=
  invariant.everywhere_offerStack brought _ _ _ everywhere

theorem everywhere_setValueAt_document (text : String) (x y : Float32)
    (everywhere : document.Everywhere (Holds (document.style catalog))) :
    (document.setValueAt catalog text x y).1.Everywhere (Holds (document.style catalog)) := by
  rw [Document.setValueAt]
  split
  · exact invariant.everywhere_edit (format_typeText _ _ _ text)
      (fun _ inner => invariant.everywhere_typeText _ _ text inner) _ _ everywhere
  · exact everywhere

theorem everywhere_removeAt_document (x y : Float32)
    (everywhere : document.Everywhere (Holds (document.style catalog))) :
    (document.removeAt catalog x y).1.Everywhere (Holds (document.style catalog)) ∧
      ∀ out ∈ (document.removeAt catalog x y).2,
        out.Everywhere (Holds (document.style catalog)) := by
  rw [Document.removeAt]
  split
  · exact invariant.everywhere_remove _ everywhere
  · exact ⟨everywhere, by simp⟩

theorem everywhere_edit_apply (path : BlockPath) (change : Edit)
    (brought : ∀ block ∈ change.handed, block.Everywhere (Holds (document.style catalog)))
    (everywhere : document.Everywhere (Holds (document.style catalog))) :
    ∀ out ∈ ((document.edit catalog path (change.apply (document.style catalog))).getD
      (document, change.handed)).2, out.Everywhere (Holds (document.style catalog)) := by
  cases done : document.edit catalog path (change.apply (document.style catalog)) with
  | none => exact brought
  | some result =>
      rcases edit_eq_some done with ⟨index, rest, block, changed, _, atIndex, updated, _⟩
      rcases updateAt_target updated with ⟨target, reached, answered, _⟩
      have inside := (everywhere block (List.mem_of_getElem? atIndex)).descendant reached
      rw [Option.getD_some, answered]
      exact (invariant.everywhere_apply change brought inside).2

/-- A call keeps an invariant everywhere, in the document and in what it hands out, if the invariant
is everywhere in what the call brings along or builds from records. -/
theorem everywhere_call (call : Call)
    (brought : ∀ block ∈ call.handed, block.Everywhere (Holds (document.style catalog)))
    (built : ∀ block ∈ call.built catalog (document.style catalog),
      block.Everywhere (Holds (document.style catalog)))
    (everywhere : document.Everywhere (Holds (document.style catalog))) :
    (call.apply catalog document).1.Everywhere
        (Holds ((call.apply catalog document).1.style catalog)) ∧
      ∀ out ∈ (call.apply catalog document).2,
        out.Everywhere (Holds (document.style catalog)) := by
  -- Only another geometry changes the style that the invariant speaks of.
  by_cases fixed : ∀ geometry, call ≠ .setGeometry geometry
  · rw [call.style_apply fixed]
    cases call with
    | attachNew id => exact ⟨invariant.everywhere_attachNew id everywhere, by simp [Call.apply]⟩
    | load records => exact ⟨built, by simp [Call.apply]⟩
    | loadText text =>
        refine ⟨?_, by simp [Call.apply]⟩
        rw [Call.apply, Document.loadText]
        cases read : InstanceRecord.listOfText? text with
        | none => exact everywhere
        | some records =>
            rw [Call.built, read] at built
            exact built
    | clear => exact ⟨by simp [Call.apply, clear, Document.Everywhere], by simp [Call.apply]⟩
    | relayout =>
        exact ⟨invariant.everywhere_setGeometry document.geometry everywhere, by simp [Call.apply]⟩
    | setGeometry geometry => exact absurd rfl (fixed geometry)
    | edit path change =>
        constructor
        · exact invariant.everywhere_edit (Edit.format_apply _ change)
            (fun _ inner => (invariant.everywhere_apply change brought inner).1) _ _ everywhere
        · exact invariant.everywhere_edit_apply path change brought everywhere
    | setValueAt text x y =>
        exact ⟨invariant.everywhere_setValueAt_document text x y everywhere, by simp [Call.apply]⟩
    | remove path => exact invariant.everywhere_remove path everywhere
    | removeAt x y => exact invariant.everywhere_removeAt_document x y everywhere
    | insertAt block x y =>
        exact ⟨invariant.everywhere_insertAt x y (brought block rfl) everywhere,
          by simp [Call.apply]⟩
    | pollChange =>
        refine ⟨?_, by simp [Call.apply]⟩
        rw [Call.apply, Document.pollChange]
        split <;> exact everywhere
  · simp only [Classical.not_forall, Classical.not_not] at fixed
    rcases fixed with ⟨geometry, rfl⟩
    exact ⟨invariant.everywhere_setGeometry geometry everywhere, by simp [Call.apply]⟩

end Block.Invariant

end BlockEditor
