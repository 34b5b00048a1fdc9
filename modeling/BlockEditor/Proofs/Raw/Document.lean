import BlockEditor.Document.Edit
import BlockEditor.Proofs.Block.Layout
import BlockEditor.Proofs.Document.Run
import BlockEditor.Proofs.Raw.Drop
import BlockEditor.Proofs.Raw.Hit
import BlockEditor.Raw.Document

/-!
# Documents of raw blocks

`RawBlock.Edit` lists the edits of a raw block and `RawDocument.Call` the calls that may change a
document of raw blocks. Carried out on raw blocks that represent blocks they find every position
that they use, and leave and hand out raw blocks that represent what the same edit or call leaves
and hands out there (`RawBlock.Represents.apply`, `RawDocument.Represents.apply`).
-/

namespace BlockEditor

open Checked

/-- An edit of a raw block. -/
inductive RawBlock.Edit where
  | setLiteral (line column : Nat) (text : String)
  | placeChild (line column : Nat) (child : RawBlock)
  | insertChild (line index : Nat) (child : RawBlock)
  | pushChild (line : Nat) (child : RawBlock)
  | takeChild (step : Step)
  | detach (path : BlockPath)
  | setValueAt (text : String) (x y : Float32)
  | removeAt (x y : Float32)
  | relayout

namespace RawBlock.Edit

/-- The block that an edit brings along. -/
def handed : Edit → Option RawBlock
  | .placeChild _ _ child => some child
  | .insertChild _ _ child => some child
  | .pushChild _ child => some child
  | _ => none

/-- Carries out an edit. Gives the block afterwards, and the block that was taken out or refused. -/
def apply (style : Style) (edit : Edit) (block : RawBlock) :
    Except OutOfRange (RawBlock × Option RawBlock) :=
  match edit with
  | .setLiteral line column text => do
    let (after, _) ← block.typeText style line column text
    return (after, none)
  | .placeChild line column child => block.placeChild style line column child
  | .insertChild line index child => block.insertChild style line index child
  | .pushChild line child => block.pushChild style line child
  | .takeChild step => block.takeChild style step
  | .detach path => block.detach style path
  | .setValueAt text x y => do
    let (after, _) ← block.setValueAt style text x y
    return (after, none)
  | .removeAt x y => block.removeAt style x y
  | .relayout => do return (← block.relaid style, none)

/-- The same edit, which brings the block along that is represented. -/
inductive Represents : Edit → Block.Edit → Prop where
  | setLiteral (line column : Nat) (text : String) :
      Represents (.setLiteral line column text) (.setLiteral line column text)
  | placeChild (line column : Nat) {raw : RawBlock} {child : Block} (same : raw.Represents child) :
      Represents (.placeChild line column raw) (.placeChild line column child)
  | insertChild (line index : Nat) {raw : RawBlock} {child : Block} (same : raw.Represents child) :
      Represents (.insertChild line index raw) (.insertChild line index child)
  | pushChild (line : Nat) {raw : RawBlock} {child : Block} (same : raw.Represents child) :
      Represents (.pushChild line raw) (.pushChild line child)
  | takeChild (step : Step) : Represents (.takeChild step) (.takeChild step)
  | detach (path : BlockPath) : Represents (.detach path) (.detach path)
  | setValueAt (text : String) (x y : Float32) :
      Represents (.setValueAt text x y) (.setValueAt text x y)
  | removeAt (x y : Float32) : Represents (.removeAt x y) (.removeAt x y)
  | relayout : Represents .relayout .relayout

/-- Edits that are alike hand in blocks that are alike. -/
theorem Represents.handed {raw : Edit} {edit : Block.Edit} (represents : raw.Represents edit) :
    Option.Rel RawBlock.Represents raw.handed edit.handed := by
  cases represents with
  | placeChild line column same => exact .some same
  | insertChild line index same => exact .some same
  | pushChild line same => exact .some same
  | _ => exact .none

end RawBlock.Edit

/-- An edit of a raw block is the edit of the block that it represents. -/
theorem RawBlock.Represents.apply {raw : RawBlock} {block : Block} {rawEdit : RawBlock.Edit}
    {edit : Block.Edit} (represents : raw.Represents block) (same : rawEdit.Represents edit)
    (style : Style) :
    Yields RawBlock.SameResult (rawEdit.apply style raw) (edit.apply style block) := by
  cases same with
  | setLiteral line column text =>
      apply (represents.typeText style line column text).bind
      rintro ⟨after, taken⟩ ⟨sameAfter, _⟩
      exact yields_ok ⟨sameAfter, .none⟩
  | placeChild line column same =>
      exact (represents.placeChild same style line column).mono fun _ placing =>
        placing.sameResult represents same
  | insertChild line index same =>
      exact (represents.insertChild same style line index).mono fun _ placing =>
        placing.sameResult represents same
  | pushChild line same =>
      exact (represents.pushChild same style line).mono fun _ placing =>
        placing.sameResult represents same
  | takeChild step => exact represents.takeChild style step
  | detach path => exact represents.detach style path
  | setValueAt text x y =>
      apply (represents.setValueAt style text x y).bind
      rintro ⟨after, taken⟩ ⟨sameAfter, _⟩
      exact yields_ok ⟨sameAfter, .none⟩
  | removeAt x y => exact represents.removeAt style x y
  | relayout =>
      apply (represents.relaid style).bind
      intro after sameAfter
      exact yields_ok ⟨sameAfter, .none⟩

namespace RawDocument

/-- A document of raw blocks has the geometry and the blocks of a document. It has its size if that
is the extent of the blocks. -/
structure Represents (raw : RawDocument) (document : Document) : Prop where
  geometry : raw.geometry = document.geometry
  blocks : List.Forall₂ RawBlock.Represents raw.blocks document.blocks
  size : document.IsSized → raw.size = document.size

/-- What a raw call gives is what the call gives: the document afterwards, and the block handed
out. -/
def SameResult (raw : RawDocument × Option RawBlock) (result : Document × Option Block) : Prop :=
  raw.1.Represents result.1 ∧ Option.Rel RawBlock.Represents raw.2 result.2

variable {raw : RawDocument} {document : Document} {rawBlock : RawBlock} {block : Block}

namespace Represents

theorem style (represents : raw.Represents document) (catalog : Catalog) :
    raw.style catalog = document.style catalog := by
  rw [RawDocument.style, Document.style, represents.geometry]

theorem measure_eq {raws : List RawBlock} {blocks : List Block}
    (same : List.Forall₂ RawBlock.Represents raws blocks) (geometry : Geometry) :
    measure geometry raws = Document.measure geometry blocks := by
  simp only [measure, Document.measure, RawBlock.map_size_eq same]

theorem withBlocks (represents : raw.Represents document) {raws : List RawBlock}
    {blocks : List Block} (same : List.Forall₂ RawBlock.Represents raws blocks) :
    (raw.withBlocks raws).Represents (document.withBlocks blocks) where
  geometry := represents.geometry
  blocks := same
  size _ := by rw [RawDocument.withBlocks, represents.geometry, measure_eq same]; rfl

theorem withBlocks_same (represents : raw.Represents document) :
    (raw.withBlocks raw.blocks).Represents document where
  geometry := represents.geometry
  blocks := represents.blocks
  size isSized := by
    rw [isSized, RawDocument.withBlocks, represents.geometry, measure_eq represents.blocks]

theorem get? (represents : raw.Represents document) (path : BlockPath) :
    Option.Rel RawBlock.Represents (raw.get? path) (document.get? path) := by
  rcases path with ⟨_ | ⟨⟨line, position⟩, rest⟩⟩
  · exact .none
  · simp only [RawDocument.get?, Document.get?]
    split
    · apply rel_bind (rel_getElem? represents.blocks position)
      intro raw block same
      exact same.descendant? rest
    · exact .none

theorem relayout (represents : raw.Represents document) (catalog : Catalog) :
    Yields Represents (raw.relayout catalog) (document.relayout catalog) := by
  rw [RawDocument.relayout, Document.relayout, represents.style, Block.relaidStack_eq_map]
  apply (RawBlock.relaidStack_yields represents.blocks fun _ _ _ same => same.relaid _).bind
  intro raws same
  exact yields_ok (represents.withBlocks same)

theorem setGeometry (represents : raw.Represents document) (catalog : Catalog)
    (geometry : Geometry) :
    Yields Represents (raw.setGeometry catalog geometry)
      (document.setGeometry catalog geometry) := by
  -- The sizes are all computed anew, so it does not matter which ones stand there before.
  have moved : RawDocument.Represents { raw with geometry := geometry, size := document.size }
      { document with geometry } := ⟨rfl, represents.blocks, fun _ => rfl⟩
  exact moved.relayout catalog

/-- A new block is attached without failing, with the same answer. -/
theorem attachNew (represents : raw.Represents document) (catalog : Catalog) (id : String) :
    Yields (fun raw after => raw.1.Represents after ∧
        raw.2 = (document.attachNew catalog id).map Prod.snd)
      (raw.attachNew catalog id)
      ((document.attachNew catalog id).toOption.elim document Prod.fst) := by
  rw [RawDocument.attachNew, Document.attachNew, Block.ofId, represents.style]
  cases catalog.lookup id with
  | none => exact yields_ok ⟨represents, rfl⟩
  | some format =>
      apply (RawBlock.represents_fresh (document.style catalog) format).bind
      intro fresh same
      refine yields_ok
        ⟨represents.withBlocks (List.rel_append represents.blocks (.cons same .nil)), ?_⟩
      have sameCount := represents.blocks.length_eq
      simp [RawDocument.withBlocks, sameCount, Except.map]

/-- An edit that does not fail on the target does not fail on the document. -/
theorem edit {RawAnswer Answer : Type} {SameAnswers : RawAnswer → Answer → Prop}
    {rawEdit : RawBlock → Except OutOfRange (RawBlock × RawAnswer)} {edit : Block → Block × Answer}
    (represents : raw.Represents document) (catalog : Catalog) (path : BlockPath)
    (edited : ∀ (rawTarget : RawBlock) (target : Block), rawTarget.Represents target →
      Yields (fun raw result => raw.1.Represents result.1 ∧ SameAnswers raw.2 result.2)
        (rawEdit rawTarget) (edit target)) :
    Yields (fun raw result => raw.1.Represents result.1 ∧ Option.Rel SameAnswers raw.2 result.2)
      (raw.edit catalog path rawEdit)
      ((document.edit catalog path edit).elim (document, none) fun result =>
        (result.1, some result.2)) := by
  rcases path with ⟨_ | ⟨⟨line, position⟩, rest⟩⟩
  · exact yields_ok ⟨represents, .none⟩
  rw [RawDocument.edit, Document.edit, represents.style]
  by_cases onRoot : line = 0
  case neg =>
    simp only [onRoot, if_false]
    exact yields_ok ⟨represents, .none⟩
  simp only [onRoot, if_true]
  rcases rel_cases (rel_getElem? represents.blocks position) with
    ⟨noRaw, noBlock⟩ | ⟨rawBlock, block, inRaw, inDocument, same⟩
  · simp only [noRaw, noBlock]
    exact yields_ok ⟨represents, .none⟩
  · simp only [inRaw, inDocument, Option.bind_eq_bind, Option.bind_some]
    cases reached : block.descendant? rest with
    | none =>
        simp only [same.updateAt_nowhere reached, Block.updateAt_eq_none _ reached, ok_bind,
          set_eq_self inRaw]
        exact yields_ok ⟨represents.withBlocks_same, .none⟩
    | some target =>
        have both : ∃ after,
            Block.updateAt (document.style catalog) edit rest block =
              some (after, (edit target).2) ∧
            Yields (fun raw after => raw.1.Represents after ∧
                ∃ answer, raw.2 = some answer ∧ SameAnswers answer (edit target).2)
              (RawBlock.updateAt (document.style catalog) rawEdit rest rawBlock) after :=
          same.updateAt reached fun rawTarget same => edited rawTarget target same
        rcases both with ⟨changed, updated, yields⟩
        simp only [updated, Option.bind_some]
        apply yields.bind
        rintro ⟨rawChanged, _⟩ ⟨sameChanged, answer, rfl, sameAnswer⟩
        exact yields_ok ⟨represents.withBlocks (forall₂_set represents.blocks position sameChanged),
          .some sameAnswer⟩

/-- Removing does not fail, and what is removed is alike. -/
theorem remove (represents : raw.Represents document) (catalog : Catalog) (path : BlockPath) :
    Yields SameResult (raw.remove catalog path) (document.remove catalog path) := by
  rcases path with ⟨_ | ⟨⟨line, position⟩, rest⟩⟩
  · exact yields_ok ⟨represents, .none⟩
  simp only [RawDocument.remove, Document.remove, represents.style]
  by_cases onRoot : line = 0
  case neg =>
    simp only [onRoot, ne_eq, not_false_eq_true, decide_true, Bool.true_or, if_true, if_false]
    exact yields_ok ⟨represents, .none⟩
  simp only [onRoot, ne_eq, not_true_eq_false, decide_false, Bool.false_or, decide_eq_true_eq,
    if_true]
  rcases rel_cases (rel_getElem? represents.blocks position) with
    ⟨noRaw, noBlock⟩ | ⟨rawBlock, block, inRaw, inDocument, same⟩
  · simp only [noBlock, List.getElem?_eq_none_iff.mp noRaw, if_true]
    exact yields_ok ⟨represents, .none⟩
  · rcases List.getElem?_eq_some_iff.mp inRaw with ⟨inRange, _⟩
    simp only [inDocument, Nat.not_le_of_lt inRange, if_false]
    cases rest with
    | nil =>
        simp only [List.isEmpty_nil, if_true, takeItem_eq_ok inRaw, ok_bind]
        exact yields_ok ⟨represents.withBlocks (forall₂_eraseIdx represents.blocks position),
          .some same⟩
    | cons step rest =>
        simp only [List.isEmpty_cons, Bool.false_eq_true, if_false, item_eq_ok inRaw, ok_bind]
        apply (same.detach (document.style catalog) ⟨step :: rest⟩).bind
        rintro ⟨left, removed⟩ ⟨sameLeft, sameRemoved⟩
        simp only [write_eq_ok inRange, ok_bind]
        exact yields_ok ⟨represents.withBlocks (forall₂_set represents.blocks position sameLeft),
          sameRemoved⟩

theorem hit? (represents : raw.Represents document) (x y : Float32) :
    raw.hit? x y = .ok (document.hit? x y) := by
  rw [RawDocument.hit?, Document.hit?, represents.geometry]
  split
  · rfl
  · exact RawBlock.hitStack_eq represents.blocks (fun _ _ _ same => same.hit? _) _ _ 0 0 0

theorem bind_get? {Answer : Type} (represents : raw.Represents document) (path : BlockPath)
    {ask : RawBlock → Option Answer} {askBlock : Block → Option Answer}
    (same : ∀ (raw : RawBlock) (block : Block), raw.Represents block → ask raw = askBlock block) :
    (raw.get? path).bind ask = (document.get? path).bind askBlock := by
  rcases rel_cases (represents.get? path) with ⟨noRaw, noBlock⟩ | ⟨_, _, inRaw, inBlock, inside⟩
  · rw [noRaw, noBlock]
    rfl
  · rw [inRaw, inBlock]
    exact same _ _ inside

theorem literalTypeAt? (represents : raw.Represents document) (x y : Float32) :
    raw.literalTypeAt? x y = .ok (document.literalTypeAt? x y) := by
  rw [RawDocument.literalTypeAt?, Document.literalTypeAt?, represents.hit? x y, ok_bind]
  rcases document.hit? x y with _ | _ | ⟨path, line, column⟩
  · rfl
  · rfl
  · exact congrArg Except.ok
      (represents.bind_get? path fun _ _ same => same.literalType? line column)

theorem valueAt? (represents : raw.Represents document) (x y : Float32) :
    raw.valueAt? x y = .ok (document.valueAt? x y) := by
  rw [RawDocument.valueAt?, Document.valueAt?, represents.hit? x y, ok_bind]
  rcases document.hit? x y with _ | _ | ⟨path, line, column⟩
  · rfl
  · rfl
  · exact congrArg Except.ok (represents.bind_get? path fun _ _ same => same.value? line column)

/-- Putting a text at a point does not fail, with the same answer. -/
theorem setValueAt (represents : raw.Represents document) (catalog : Catalog) (text : String)
    (x y : Float32) :
    Yields (fun raw result => raw.1.Represents result.1 ∧ raw.2 = result.2)
      (raw.setValueAt catalog text x y) (document.setValueAt catalog text x y) := by
  rw [RawDocument.setValueAt, Document.setValueAt, represents.hit? x y, ok_bind, represents.style]
  rcases document.hit? x y with _ | _ | ⟨path, line, column⟩
  · exact yields_ok ⟨represents, rfl⟩
  · exact yields_ok ⟨represents, rfl⟩
  · apply (represents.edit catalog path fun _ _ same =>
      same.typeText (document.style catalog) line column text).bind
    rintro ⟨after, taken⟩ ⟨sameAfter, sameTaken⟩
    simp only
    generalize document.edit catalog path _ = result at sameAfter sameTaken ⊢
    cases result with
    | none =>
        cases sameTaken
        exact yields_ok ⟨sameAfter, rfl⟩
    | some result =>
        cases sameTaken with
        | some same => exact yields_ok ⟨sameAfter, same⟩

theorem removeAt (represents : raw.Represents document) (catalog : Catalog) (x y : Float32) :
    Yields SameResult (raw.removeAt catalog x y) (document.removeAt catalog x y) := by
  rw [RawDocument.removeAt, Document.removeAt, represents.hit? x y, ok_bind]
  cases document.hit? x y with
  | none => exact yields_ok ⟨represents, .none⟩
  | some hit => exact represents.remove catalog hit.path

/-- Dropping a block does not fail and puts it into the same place. -/
theorem insertAt (represents : raw.Represents document) (same : rawBlock.Represents block)
    (catalog : Catalog) (x y : Float32) :
    Yields Represents (raw.insertAt catalog rawBlock x y)
      (document.insertAt catalog block x y) := by
  rw [RawDocument.insertAt, Document.insertAt, represents.geometry, represents.style]
  apply (RawBlock.insertIntoStack_yields same represents.blocks
    (fun _ _ _ inside => inside.probeInsert same _) _ _ 0 []).bind
  rintro _ ⟨raws, rfl, sameBlocks⟩
  exact yields_ok (represents.withBlocks sameBlocks)

end Represents

/-- A call that may change a document of raw blocks. -/
inductive Call where
  | attachNew (id : String)
  | clear
  | relayout
  | setGeometry (geometry : Geometry)
  | edit (path : BlockPath) (change : RawBlock.Edit)
  | setValueAt (text : String) (x y : Float32)
  | remove (path : BlockPath)
  | removeAt (x y : Float32)
  | insertAt (block : RawBlock) (x y : Float32)

namespace Call

/-- The block that a call brings along. -/
def handed : Call → Option RawBlock
  | .edit _ change => change.handed
  | .insertAt block _ _ => some block
  | _ => none

/-- Carries out a call. Gives the document afterwards, and the block that was taken out or
refused. -/
def apply (catalog : Catalog) (document : RawDocument) :
    Call → Except OutOfRange (RawDocument × Option RawBlock)
  | .attachNew id => do
    let (after, _) ← document.attachNew catalog id
    return (after, none)
  | .clear => return (document.clear, none)
  | .relayout => do return (← document.relayout catalog, none)
  | .setGeometry geometry => do return (← document.setGeometry catalog geometry, none)
  | .edit path change => do
    let (after, out) ← document.edit catalog path (change.apply (document.style catalog))
    return (after, out.getD change.handed)
  | .setValueAt text x y => do
    let (after, _) ← document.setValueAt catalog text x y
    return (after, none)
  | .remove path => document.remove catalog path
  | .removeAt x y => document.removeAt catalog x y
  | .insertAt block x y => do return (← document.insertAt catalog block x y, none)

/-- The same call, which brings the block along that is represented. -/
inductive Represents : Call → Document.Call → Prop where
  | attachNew (id : String) : Represents (.attachNew id) (.attachNew id)
  | clear : Represents .clear .clear
  | relayout : Represents .relayout .relayout
  | setGeometry (geometry : Geometry) : Represents (.setGeometry geometry) (.setGeometry geometry)
  | edit (path : BlockPath) {raw : RawBlock.Edit} {change : Block.Edit}
      (same : raw.Represents change) : Represents (.edit path raw) (.edit path change)
  | setValueAt (text : String) (x y : Float32) :
      Represents (.setValueAt text x y) (.setValueAt text x y)
  | remove (path : BlockPath) : Represents (.remove path) (.remove path)
  | removeAt (x y : Float32) : Represents (.removeAt x y) (.removeAt x y)
  | insertAt {raw : RawBlock} {block : Block} (same : raw.Represents block) (x y : Float32) :
      Represents (.insertAt raw x y) (.insertAt block x y)

end Call

/-- A call to a document of raw blocks is the call to the document that it represents. -/
theorem Represents.apply {rawCall : Call} {call : Document.Call}
    (represents : raw.Represents document) (same : rawCall.Represents call) (catalog : Catalog) :
    Yields SameResult (rawCall.apply catalog raw) (call.apply catalog document) := by
  cases same with
  | attachNew id =>
      apply (represents.attachNew catalog id).bind
      rintro ⟨after, path⟩ ⟨sameAfter, _⟩
      exact yields_ok ⟨sameAfter, .none⟩
  | clear => exact yields_ok ⟨represents.withBlocks .nil, .none⟩
  | relayout =>
      apply (represents.relayout catalog).bind
      intro after sameAfter
      exact yields_ok ⟨sameAfter, .none⟩
  | setGeometry geometry =>
      apply (represents.setGeometry catalog geometry).bind
      intro after sameAfter
      exact yields_ok ⟨sameAfter, .none⟩
  | edit path sameChange =>
      rw [Call.apply, Document.Call.apply, represents.style]
      apply (represents.edit catalog path fun _ _ same => same.apply sameChange _).bind
      rintro ⟨after, out⟩ ⟨sameAfter, sameOut⟩
      generalize document.edit catalog path _ = result at sameAfter sameOut ⊢
      cases result with
      | none =>
          cases sameOut
          exact yields_ok ⟨sameAfter, sameChange.handed⟩
      | some result =>
          cases sameOut with
          | some same => exact yields_ok ⟨sameAfter, same⟩
  | setValueAt text x y =>
      apply (represents.setValueAt catalog text x y).bind
      rintro ⟨after, taken⟩ ⟨sameAfter, _⟩
      exact yields_ok ⟨sameAfter, .none⟩
  | remove path => exact represents.remove catalog path
  | removeAt x y => exact represents.removeAt catalog x y
  | insertAt sameBlock x y =>
      apply (represents.insertAt sameBlock catalog x y).bind
      intro after sameAfter
      exact yields_ok ⟨sameAfter, .none⟩

end RawDocument

end BlockEditor
