import BlockEditor.Proofs.Document.WellFormed
import BlockEditor.Proofs.Raw.Document

/-!
# Raw blocks stay well formed

Nothing in the type of raw blocks keeps their lists together, and every operation changes the lists
one by one. Still, as long as blocks are well formed no operation comes to a position that is not
there, whatever its arguments are, and it leaves and hands out well-formed blocks
(`RawDocument.wellFormed_kept`).

A well-formed raw block represents a block (`RawBlock.wellFormed_iff`), the operation on it is the
one on that block (`RawBlock.Represents.apply`, `RawDocument.Represents.apply`), and for blocks
consistency is an invariant (`Block.invariant_consistent`).
-/

namespace BlockEditor

open Checked

/-- Every block that is handed in or out, if there is one, is well formed. -/
def AllWellFormed (handed : Option RawBlock) : Prop := ∀ raw ∈ handed, raw.WellFormed

/-- The block that a well-formed one represents, if there is one, is well formed. -/
theorem AllWellFormed.blocks {handed : Option RawBlock} {blocks : Option Block}
    (wellFormed : AllWellFormed handed) (same : Option.Rel RawBlock.Represents handed blocks) :
    ∀ block ∈ blocks, block.WellFormed := by
  intro block blockMem
  cases same with
  | none => cases blockMem
  | some represents =>
      cases blockMem
      exact represents.wellFormed_iff.mp (wellFormed _ rfl)

theorem allWellFormed_of_blocks {handed : Option RawBlock} {blocks : Option Block}
    (same : Option.Rel RawBlock.Represents handed blocks)
    (wellFormed : ∀ block ∈ blocks, block.WellFormed) : AllWellFormed handed := by
  intro raw rawMem
  cases same with
  | none => cases rawMem
  | some represents =>
      cases rawMem
      exact represents.wellFormed_iff.mpr (wellFormed _ rfl)

namespace RawBlock

/-- An edit comes to no position that is not there, and leaves and hands out well-formed blocks. -/
def LeavesWellFormed (result : Except OutOfRange (RawBlock × Option RawBlock)) : Prop :=
  ∃ after out, result = .ok (after, out) ∧ after.WellFormed ∧ AllWellFormed out

/-- Every edit of a block and every question about it comes to an end, and the edits leave and hand
out well-formed blocks. -/
structure Sound (block : RawBlock) : Prop where
  edit : ∀ (style : Style) (edit : Edit), AllWellFormed edit.handed →
    LeavesWellFormed (edit.apply style block)
  /-- A dropped block is handed back, and nothing has changed, or it is inside. -/
  drop : ∀ (style : Style) (dropped : RawBlock) (x y : Float32), dropped.WellFormed →
    probeInsert style dropped x y block = .ok (block, .above dropped) ∨
      probeInsert style dropped x y block = .ok (block, .below dropped) ∨
        ∃ after, probeInsert style dropped x y block = .ok (after, .inserted) ∧ after.WellFormed
  hit : ∀ (config : LayoutConfig) (x y : Float32), ∃ hit, block.hit? config x y = .ok hit
  literalTypeAt : ∀ (config : LayoutConfig) (x y : Float32),
    ∃ type, block.literalTypeAt? config x y = .ok type
  valueAt : ∀ (config : LayoutConfig) (x y : Float32),
    ∃ value, block.valueAt? config x y = .ok value

/-- An edit that hands in a well-formed block stands for one of a block. -/
theorem Edit.exists_represents {edit : Edit} (handed : AllWellFormed edit.handed) :
    ∃ blockEdit, edit.Represents blockEdit := by
  cases edit with
  | setLiteral line column text => exact ⟨_, .setLiteral line column text⟩
  | placeChild line column child =>
      rcases child.exists_represents (handed child rfl) with ⟨_, same⟩
      exact ⟨_, .placeChild line column same⟩
  | insertChild line index child =>
      rcases child.exists_represents (handed child rfl) with ⟨_, same⟩
      exact ⟨_, .insertChild line index same⟩
  | pushChild line child =>
      rcases child.exists_represents (handed child rfl) with ⟨_, same⟩
      exact ⟨_, .pushChild line same⟩
  | takeChild step => exact ⟨_, .takeChild step⟩
  | detach path => exact ⟨_, .detach path⟩
  | setValueAt text x y => exact ⟨_, .setValueAt text x y⟩
  | removeAt x y => exact ⟨_, .removeAt x y⟩
  | relayout => exact ⟨_, .relayout⟩

/-- No edit of a well-formed block fails, and it leaves and hands back well-formed blocks. -/
theorem leavesWellFormed_apply {block : RawBlock} (wellFormed : block.WellFormed) {edit : Edit}
    (handed : AllWellFormed edit.handed) (style : Style) :
    LeavesWellFormed (edit.apply style block) := by
  rcases block.exists_represents wellFormed with ⟨represented, represents⟩
  rcases Edit.exists_represents handed with ⟨blockEdit, sameEdit⟩
  rcases represents.apply sameEdit style with ⟨⟨after, out⟩, done, sameAfter, sameOut⟩
  have kept : (blockEdit.apply style represented).1.WellFormed ∧
      ∀ out ∈ (blockEdit.apply style represented).2, out.WellFormed :=
    Block.invariant_consistent.everywhere_apply blockEdit (handed.blocks sameEdit.handed)
      (represents.wellFormed_iff.mp wellFormed)
  exact ⟨after, out, done, sameAfter.wellFormed_iff.mpr kept.1,
    allWellFormed_of_blocks sameOut kept.2⟩

/-- Of a well-formed block, no layout, hit or drop fails. -/
theorem sound_of_wellFormed {block : RawBlock} (wellFormed : block.WellFormed) : block.Sound := by
  rcases block.exists_represents wellFormed with ⟨represented, represents⟩
  constructor
  case edit => exact fun style edit handed => leavesWellFormed_apply wellFormed handed style
  case drop =>
    intro style dropped x y droppedWellFormed
    rcases dropped.exists_represents droppedWellFormed with ⟨representedDropped, same⟩
    rcases represents.probeInsert same style x y with ⟨⟨after, placement⟩, done, outcome⟩
    rw [done]
    generalize offered : Block.offer style representedDropped x y represented = offer at outcome
    cases outcome with
    | above => exact .inl rfl
    | below => exact .inr (.inl rfl)
    | taken sameAfter =>
        rcases Block.offer_taken offered with ⟨owner, place, put⟩
        have kept := Block.invariant_consistent.everywhere_put
          (same.wellFormed_iff.mp droppedWellFormed) put (represents.wellFormed_iff.mp wellFormed)
        exact .inr (.inr ⟨after, rfl, sameAfter.wellFormed_iff.mpr kept⟩)
  case hit => exact fun config x y => ⟨_, represents.hit? config x y⟩
  case literalTypeAt => exact fun config x y => ⟨_, represents.literalTypeAt? config x y⟩
  case valueAt => exact fun config x y => ⟨_, represents.valueAt? config x y⟩

/-- A new block is made without failing and is well-formed. -/
theorem wellFormed_fresh (style : Style) (format : BlockFormat) :
    ∃ block, fresh style format = .ok block ∧ block.WellFormed := by
  rcases represents_fresh style format with ⟨block, done, same⟩
  exact ⟨block, done,
    same.wellFormed_iff.mpr (Block.invariant_consistent.everywhere_fresh style format)⟩

end RawBlock

namespace RawDocument

/-- Every block of a document is well formed. -/
def WellFormed (document : RawDocument) : Prop := ∀ block ∈ document.blocks, block.WellFormed

/-- A call comes to no position that is not there, and leaves and hands out well-formed blocks. -/
def LeavesWellFormed (result : Except OutOfRange (RawDocument × Option RawBlock)) : Prop :=
  ∃ after out, result = .ok (after, out) ∧ after.WellFormed ∧ AllWellFormed out

/-- Every call to a document and every question about it comes to an end, and the calls leave and
hand out well-formed blocks. -/
structure Sound (document : RawDocument) : Prop where
  call : ∀ (catalog : Catalog) (call : Call), AllWellFormed call.handed →
    LeavesWellFormed (call.apply catalog document)
  hit : ∀ x y : Float32, ∃ hit, document.hit? x y = .ok hit
  literalTypeAt : ∀ x y : Float32, ∃ type, document.literalTypeAt? x y = .ok type
  valueAt : ∀ x y : Float32, ∃ value, document.valueAt? x y = .ok value

theorem Represents.wellFormed_iff {raw : RawDocument} {document : Document}
    (represents : raw.Represents document) : raw.WellFormed ↔ document.WellFormed := by
  constructor
  · intro wellFormed block blockMem
    rcases List.getElem?_of_mem blockMem with ⟨position, atPosition⟩
    rcases rel_cases (rel_getElem? represents.blocks position) with
      ⟨_, nothing⟩ | ⟨rawBlock, other, inRaw, inDocument, same⟩
    · cases atPosition.symm.trans nothing
    · cases atPosition.symm.trans inDocument
      exact same.wellFormed_iff.mp (wellFormed rawBlock (List.mem_of_getElem? inRaw))
  · intro wellFormed rawBlock rawMem
    rcases List.getElem?_of_mem rawMem with ⟨position, atPosition⟩
    rcases rel_cases (rel_getElem? represents.blocks position) with
      ⟨nothing, _⟩ | ⟨other, block, inRaw, inDocument, same⟩
    · cases atPosition.symm.trans nothing
    · cases atPosition.symm.trans inRaw
      exact same.wellFormed_iff.mpr (wellFormed block (List.mem_of_getElem? inDocument))

/-- A well-formed raw document stands for a document. -/
theorem exists_represents {raw : RawDocument} (wellFormed : raw.WellFormed) :
    ∃ document, raw.Represents document := by
  rcases RawBlock.exists_stack fun block blockMem =>
    block.exists_represents (wellFormed block blockMem) with ⟨blocks, same⟩
  exact ⟨⟨raw.geometry, blocks, raw.size, []⟩, rfl, same, fun _ => rfl⟩

theorem Call.exists_represents {call : Call} (handed : AllWellFormed call.handed) :
    ∃ documentCall, call.Represents documentCall := by
  cases call with
  | attachNew id => exact ⟨_, .attachNew id⟩
  | clear => exact ⟨_, .clear⟩
  | relayout => exact ⟨_, .relayout⟩
  | setGeometry geometry => exact ⟨_, .setGeometry geometry⟩
  | edit path change =>
      rcases RawBlock.Edit.exists_represents handed with ⟨_, same⟩
      exact ⟨_, .edit path same⟩
  | setValueAt text x y => exact ⟨_, .setValueAt text x y⟩
  | remove path => exact ⟨_, .remove path⟩
  | removeAt x y => exact ⟨_, .removeAt x y⟩
  | insertAt block x y =>
      rcases block.exists_represents (handed block rfl) with ⟨_, same⟩
      exact ⟨_, .insertAt same x y⟩

theorem Call.Represents.handed {raw : Call} {call : Document.Call}
    (represents : raw.Represents call) :
    Option.Rel RawBlock.Represents raw.handed call.handed := by
  cases represents with
  | edit path same => exact same.handed
  | insertAt same x y => exact .some same
  | _ => exact .none

theorem Call.Represents.built {raw : Call} {call : Document.Call}
    (represents : raw.Represents call) (catalog : Catalog) (style : Style) :
    call.built catalog style = [] := by
  cases represents <;> rfl

/-- No call to a well-formed document fails, and it leaves and hands back what is well-formed. -/
theorem leavesWellFormed_apply {document : RawDocument} (wellFormed : document.WellFormed)
    {call : Call} (handed : AllWellFormed call.handed) (catalog : Catalog) :
    LeavesWellFormed (call.apply catalog document) := by
  rcases exists_represents wellFormed with ⟨represented, represents⟩
  rcases Call.exists_represents handed with ⟨documentCall, sameCall⟩
  rcases represents.apply sameCall catalog with ⟨⟨after, out⟩, done, sameAfter, sameOut⟩
  have kept : (documentCall.apply catalog represented).1.WellFormed ∧
      ∀ out ∈ (documentCall.apply catalog represented).2, out.WellFormed :=
    Block.invariant_consistent.everywhere_call documentCall (handed.blocks sameCall.handed)
      (by simp [sameCall.built]) (represents.wellFormed_iff.mp wellFormed)
  exact ⟨after, out, done, sameAfter.wellFormed_iff.mpr kept.1,
    allWellFormed_of_blocks sameOut kept.2⟩

theorem sound_of_wellFormed {document : RawDocument} (wellFormed : document.WellFormed) :
    document.Sound := by
  rcases exists_represents wellFormed with ⟨represented, represents⟩
  constructor
  case call => exact fun catalog call handed => leavesWellFormed_apply wellFormed handed catalog
  case hit => exact fun x y => ⟨_, represents.hit? x y⟩
  case literalTypeAt => exact fun x y => ⟨_, represents.literalTypeAt? x y⟩
  case valueAt => exact fun x y => ⟨_, represents.valueAt? x y⟩

/-- Carries out calls one after the other. -/
def run (catalog : Catalog) (document : RawDocument) : List Call → Except OutOfRange RawDocument
  | [] => return document
  | call :: rest => do
    let (after, _) ← call.apply catalog document
    after.run catalog rest

/-- No run of calls to a well-formed document fails, and it leaves the document well-formed. -/
theorem wellFormed_run {document : RawDocument} (wellFormed : document.WellFormed)
    (catalog : Catalog) {calls : List Call}
    (handed : ∀ call ∈ calls, AllWellFormed call.handed) :
    ∃ after, document.run catalog calls = .ok after ∧ after.WellFormed := by
  induction calls generalizing document with
  | nil => exact ⟨document, rfl, wellFormed⟩
  | cons call rest ih =>
      rcases List.forall_mem_cons.mp handed with ⟨handedNow, handedLater⟩
      rcases leavesWellFormed_apply wellFormed handedNow catalog with
        ⟨between, _, done, betweenWellFormed, _⟩
      rcases ih betweenWellFormed handedLater with ⟨after, doneLater, afterWellFormed⟩
      exact ⟨after, by rw [run, done]; exact doneLater, afterWellFormed⟩

/-- What it means for blocks and documents of blocks to be well formed at all times. -/
structure StaysWellFormed : Prop where
  /-- A new block is well formed. -/
  fresh : ∀ (style : Style) (format : BlockFormat),
    ∃ block, RawBlock.fresh style format = .ok block ∧ block.WellFormed
  block : ∀ block : RawBlock, block.WellFormed → block.Sound
  empty : ∀ geometry : Geometry, (RawDocument.empty geometry).WellFormed
  document : ∀ document : RawDocument, document.WellFormed → document.Sound
  run : ∀ (catalog : Catalog) (document : RawDocument) (calls : List Call), document.WellFormed →
    (∀ call ∈ calls, AllWellFormed call.handed) →
      ∃ after, document.run catalog calls = .ok after ∧ after.WellFormed
  /-- The edits are those of the blocks that have their sizes beside their contents. -/
  sameEdits : ∀ (style : Style) (raw : RawBlock) (block : Block) (rawEdit : RawBlock.Edit)
    (edit : Block.Edit), raw.Represents block → rawEdit.Represents edit →
      Yields RawBlock.SameResult (rawEdit.apply style raw) (edit.apply style block)
  /-- The calls are those of the documents of such blocks. -/
  sameCalls : ∀ (catalog : Catalog) (raw : RawDocument) (document : Document) (rawCall : Call)
    (call : Document.Call), raw.Represents document → rawCall.Represents call →
      Yields SameResult (rawCall.apply catalog raw) (call.apply catalog document)

/-- As long as blocks are well formed, no edit, call, hit test or drop, with any arguments, comes to
a position that is not there, and all of them leave and hand out well-formed blocks. They do what
is done to the blocks that are represented. -/
theorem wellFormed_kept : StaysWellFormed where
  fresh := RawBlock.wellFormed_fresh
  block _ := RawBlock.sound_of_wellFormed
  empty _ _ blockMem := by cases blockMem
  document _ := sound_of_wellFormed
  run catalog _ _ wellFormed handed := wellFormed_run wellFormed catalog handed
  sameEdits style _ _ _ _ represents same := represents.apply same style
  sameCalls catalog _ _ _ _ represents same := represents.apply same catalog

/-- A block with a column and a stack is dropped into a document and taken out again. Without its
line sizes this block is not well formed, and its layout comes to a position that is not there. -/
theorem wellFormed_after_drop :
    ∃ (dropped : RawBlock) (after : RawDocument), dropped.WellFormed ∧
      (empty .standard).run .empty [.insertAt dropped 0 0, .remove ⟨[⟨0, 0⟩]⟩] = .ok after ∧
        after.WellFormed ∧ ¬({ dropped with lineSizes := [] } : RawBlock).WellFormed ∧
          ({ dropped with lineSizes := [] } : RawBlock).measured (Catalog.empty.style .standard) =
            .error ⟨0, 0⟩ := by
  let format : BlockFormat :=
    .plain "loop" 0 [.columns [.label "loop", .child (.input .num)], .stack]
  rcases wellFormed_kept.fresh (Catalog.empty.style .standard) format with
    ⟨dropped, done, wellFormed⟩
  have handed : ∀ call ∈ [Call.insertAt dropped 0 0, .remove ⟨[⟨0, 0⟩]⟩],
      AllWellFormed call.handed := by
    intro call callMem raw rawMem
    simp only [List.mem_cons, List.not_mem_nil, or_false] at callMem
    rcases callMem with rfl | rfl
    · cases rawMem
      exact wellFormed
    · cases rawMem
  rcases wellFormed_kept.run .empty (empty .standard) _ (wellFormed_kept.empty .standard)
      handed with
    ⟨after, run, afterWellFormed⟩
  refine ⟨dropped, after, wellFormed, run, afterWellFormed, ?_, ?_⟩
  · intro brokenWellFormed
    cases done
    cases (brokenWellFormed [] _ rfl).lineSizeCount
  · cases done
    rfl

end RawDocument

end BlockEditor
