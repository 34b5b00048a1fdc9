import BlockEditor.Proofs.Document.Current
import BlockEditor.Proofs.Document.WellFormed
import BlockEditor.Proofs.Record.RoundTrip
import BlockEditor.Proofs.Record.Written

/-!
# Loading what a document has written

The records of a document give its blocks back, in a document of the same geometry, if the blocks
are well formed, laid out, and of the formats that the catalog has (`Document.load_records`).
Editing leads to well-formed blocks only, whatever happens to the catalog in between
(`Document.Edited.wellFormed`).
-/

namespace BlockEditor

variable {catalog : Catalog} {style : Style}

namespace Block

variable {block : Block}

/-- The format of a block is the one that a catalog has under its identifier. -/
def IsResolved (catalog : Catalog) (block : Block) : Prop :=
  catalog.lookup block.format.id = some block.format

theorem Consistent.literalsFit (consistent : block.Consistent) : block.LiteralsFit := by
  intro line column kind text size atCell
  rcases cell?_eq_some atCell with ⟨cells, lineSize, atLine, atColumn⟩
  exact consistent.admits _ (List.mem_of_getElem? atLine) _ (List.mem_of_getElem? atColumn)

/-- A well-formed and measured block whose formats the catalog resolves is read back from its
record. -/
theorem readsBack_of_wellFormed (wellFormed : block.WellFormed)
    (isMeasured : block.Everywhere (IsMeasured style))
    (resolved : block.Everywhere (IsResolved catalog)) : block.ReadsBack catalog style := by
  induction block using Block.induction with
  | inside block ih =>
      have consistent := wellFormed.here
      apply readsBack_of_nested consistent.shape consistent.literalsFit isMeasured.here
        resolved.here
      intro step child found
      exact ih step child found (wellFormed.child found) (isMeasured.child found)
        (resolved.child found)

end Block

namespace Document

variable {document target : Document} {blocks : List Block}

/-- Blocks that are read back from their records are loaded from them. -/
theorem loadedBlocks_stackRecords
    (readsBack : ∀ block ∈ blocks, block.ReadsBack catalog style) :
    loadedBlocks catalog style (Block.stackRecords blocks) = blocks := by
  induction blocks with
  | nil => rfl
  | cons block blocks ih =>
      rw [List.forall_mem_cons] at readsBack
      have read : Block.ofRecord catalog style block.record = .ok block := readsBack.1
      have others := ih readsBack.2
      rw [loadedBlocks] at others
      rw [loadedBlocks, Block.stackRecords, List.filterMap_cons, read, others]
      rfl

theorem skippedRecords_of_built {records : List InstanceRecord}
    (built : ∀ record ∈ records, ∃ block, Block.ofRecord catalog style record = .ok block)
    (index : Nat) : skippedRecords catalog style index records = [] := by
  induction records generalizing index with
  | nil => rfl
  | cons record records ih =>
      rw [List.forall_mem_cons] at built
      rcases built.1 with ⟨block, here⟩
      rw [skippedRecords, here]
      exact ih built.2 (index + 1)

/-- No record of blocks that are read back is skipped. -/
theorem skippedRecords_stackRecords
    (readsBack : ∀ block ∈ blocks, block.ReadsBack catalog style) (index : Nat) :
    skippedRecords catalog style index (Block.stackRecords blocks) = [] := by
  apply skippedRecords_of_built
  intro record recordMem
  rw [Block.stackRecords_eq_map] at recordMem
  rcases List.mem_map.mp recordMem with ⟨block, blockMem, rfl⟩
  exact ⟨block, readsBack block blockMem⟩

/-- What a document has written is loaded without loss. -/
theorem load_records (wellFormed : document.WellFormed)
    (current : document.relayout catalog = document)
    (resolved : document.Everywhere (Block.IsResolved catalog))
    (sameGeometry : target.geometry = document.geometry) :
    ∃ opened, target.load catalog document.records = (opened, ⟨document.blocks.length, []⟩) ∧
      opened.blocks = document.blocks ∧ opened.size = document.size := by
  rcases relayout_eq_self_iff.mp current with ⟨isSized, isMeasured⟩
  have sameStyle : target.style catalog = document.style catalog :=
    congrArg catalog.style sameGeometry
  have readsBack : ∀ block ∈ document.blocks, block.ReadsBack catalog (document.style catalog) := by
    intro block blockMem
    exact Block.readsBack_of_wellFormed (wellFormed block blockMem) (isMeasured block blockMem)
      (resolved block blockMem)
  have loaded := loadedBlocks_stackRecords readsBack
  have skipped := skippedRecords_stackRecords readsBack 0
  refine ⟨{ target.withBlocks document.blocks with published := document.records }, ?_, rfl, ?_⟩
  · rw [load, sameStyle, records, loaded, skipped]
    rfl
  · rw [isSized, ← sameGeometry]
    rfl

/-- The catalogs and documents that editing leads to from a document without blocks. The blocks that
are handed in are well formed, and so are those that are loaded. Anything may be asked of the
catalog. -/
inductive Edited : Catalog → Document → Prop where
  /-- A document without blocks. -/
  | start (catalog : Catalog) (geometry : Geometry) : Edited catalog (.empty geometry)
  /-- A call to the document, whether it is refused or not. -/
  | call {catalog : Catalog} {document : Document} (call : Call) (edited : Edited catalog document)
      (handed : ∀ block ∈ call.handed, block.WellFormed)
      (built : ∀ block ∈ call.built catalog (document.style catalog), block.WellFormed) :
      Edited catalog (call.apply catalog document).1
  /-- A call to the catalog, whether it is refused or not. -/
  | catalogCall {catalog : Catalog} {document : Document} (call : Catalog.Call)
      (edited : Edited catalog document) : Edited (call.apply catalog) document

/-- A document that was edited is well-formed. -/
theorem Edited.wellFormed (edited : Edited catalog document) : document.WellFormed := by
  induction edited with
  | start catalog geometry =>
      intro block never
      cases never
  | call call edited handed built ih =>
      exact (Block.invariant_consistent.everywhere_call call handed built ih).1
  | catalogCall call edited ih => exact ih

end Document

end BlockEditor
