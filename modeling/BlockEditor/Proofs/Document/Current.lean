import BlockEditor.Proofs.Catalog.Run
import BlockEditor.Proofs.Document.Run
import BlockEditor.Proofs.Record.Built

/-!
# The layout stays current

An edit measures only the blocks on the way to the place of the edit. That a block is measured is an
invariant of single blocks, so in every document that calls lead to, all blocks are measured; by
`Block.relaid_eq_self_iff` a full layout of such a document changes nothing. This holds for any
measure of text and any lengths: no property of the arithmetic is used.
-/

namespace BlockEditor

-- Each change of a block ends with a measurement, which is idempotent, so nothing else is used.
/-- To have the sizes that measuring gives is an invariant of single blocks. -/
theorem Block.invariant_isMeasured : Block.Invariant Block.IsMeasured where
  fresh style format := isMeasured_measured style (blank format)
  measured _ := isMeasured_measured _ _
  fill _ _ _ := isMeasured_measured _ _
  restack _ _ _ := isMeasured_measured _ _
  replace _ _ _ := isMeasured_measured _ _
  relay other _ _ _ := isMeasured_measured other _

namespace Document

variable {catalog : Catalog} {document : Document}

/-- A full layout of a document changes nothing exactly when all its blocks are measured and its
size is the extent of its blocks. -/
theorem relayout_eq_self_iff :
    document.relayout catalog = document ↔
      document.IsSized ∧ document.Everywhere (Block.IsMeasured (document.style catalog)) := by
  rcases document with ⟨geometry, blocks, size, published⟩
  simp only [relayout, withBlocks, Block.relaidStack_eq_map, IsSized, Everywhere, mk.injEq,
    true_and, and_true, ← Block.relaid_eq_self_iff]
  constructor
  · rintro ⟨sameBlocks, sameSize⟩
    rw [sameBlocks] at sameSize
    refine ⟨sameSize.symm, ?_⟩
    intro block blockMem
    exact List.map_inj_left.mp (sameBlocks.trans (List.map_id' blocks).symm) block blockMem
  · rintro ⟨sameSize, sameBlocks⟩
    have fixed : blocks.map (Block.relaid (style ⟨geometry, blocks, size, published⟩ catalog)) =
        blocks := (List.map_inj_left.mpr sameBlocks).trans (List.map_id' blocks)
    rw [fixed]
    exact ⟨rfl, sameSize.symm⟩

theorem relayout_setGeometry (document : Document) (catalog : Catalog) (geometry : Geometry) :
    (document.setGeometry catalog geometry).relayout catalog =
      document.setGeometry catalog geometry := by
  rw [relayout_eq_self_iff]
  refine ⟨rfl, ?_⟩
  intro block blockMem
  simp only [setGeometry, relayout, blocks_withBlocks, Block.relaidStack_eq_map,
    List.mem_map] at blockMem
  rcases blockMem with ⟨old, _, rfl⟩
  exact Block.everywhere_isMeasured_relaid _ old

/-- Whatever a call builds has the sizes that measuring gives. -/
theorem everywhere_isMeasured_built (call : Call) :
    ∀ block ∈ call.built catalog (document.style catalog),
      block.Everywhere (Block.IsMeasured (document.style catalog)) := by
  have loaded : ∀ records, ∀ block ∈ loadedBlocks catalog (document.style catalog) records,
      block.Everywhere (Block.IsMeasured (document.style catalog)) := by
    intro records block blockMem
    rcases List.mem_filterMap.mp blockMem with ⟨record, _, built⟩
    cases read : Block.ofRecord catalog (document.style catalog) record with
    | error error => simp [read, Except.toOption] at built
    | ok other =>
        simp only [read, Except.toOption, Option.some.injEq] at built
        rw [← built]
        exact Block.everywhere_isMeasured_ofRecord record other read
  cases call with
  | load records => exact loaded records
  | loadText text =>
      rw [Call.built]
      cases InstanceRecord.listOfText? text with
      | none => simp
      | some records => exact loaded records
  | _ => simp [Call.built]

/-- A call that is handed a block that has been laid out keeps the layout current. -/
theorem relayout_apply (call : Call)
    (laidOut : ∀ block ∈ call.handed, block.relaid (document.style catalog) = block)
    (current : document.relayout catalog = document) :
    (call.apply catalog document).1.relayout catalog = (call.apply catalog document).1 := by
  rcases relayout_eq_self_iff.mp current with ⟨isSized, everywhere⟩
  refine relayout_eq_self_iff.mpr ⟨call.isSized_apply isSized, ?_⟩
  refine (Block.invariant_isMeasured.everywhere_call call ?_ ?_ everywhere).1
  · intro block handed
    exact Block.relaid_eq_self_iff.mp (laidOut block handed)
  · exact everywhere_isMeasured_built call

/-- The catalogs and documents that calls lead to from a document without blocks. A block that is
handed in has been laid out in the style of the document, and the calls to the catalog change
neither texts nor language. -/
inductive Reachable : Catalog → Document → Prop where
  /-- A document without blocks. -/
  | start (catalog : Catalog) (geometry : Geometry) : Reachable catalog (.empty geometry)
  /-- A call to the document, whether it is refused or not. -/
  | call {catalog : Catalog} {document : Document} (call : Call)
      (reachable : Reachable catalog document)
      (laidOut : ∀ block ∈ call.handed, block.relaid (document.style catalog) = block) :
      Reachable catalog (call.apply catalog document).1
  /-- A call to the catalog, whether it is refused or not. -/
  | catalogCall {catalog : Catalog} {document : Document} (call : Catalog.Call)
      (reachable : Reachable catalog document)
      (sameLabels : (call.apply catalog).SameLabels catalog) :
      Reachable (call.apply catalog) document

/-- A layout depends on a catalog through the texts that it shows only. -/
theorem relayout_of_sameLabels {other : Catalog} (sameLabels : other.SameLabels catalog)
    (document : Document) : document.relayout other = document.relayout catalog := by
  simp only [relayout, style, Catalog.style, Catalog.localize_of_sameLabels sameLabels]

/-- In every reachable document all sizes, of the document and of every block at any depth, are
those that a full layout computes. Calls to the catalog that change neither texts nor language keep
this in any document, and a full layout or another geometry establishes it in any document. -/
theorem current_of_reachable :
    (∀ catalog document, Reachable catalog document →
      document.relayout catalog = document ∧
        ∀ path block, document.get? path = some block →
          block.relaid (document.style catalog) = block) ∧
      (∀ (catalog : Catalog) (document : Document) (call : Catalog.Call),
        document.relayout catalog = document → (call.apply catalog).SameLabels catalog →
          document.relayout (call.apply catalog) = document) ∧
      (∀ (catalog : Catalog) (document : Document),
        (document.relayout catalog).relayout catalog = document.relayout catalog) ∧
      ∀ (catalog : Catalog) (document : Document) (geometry : Geometry),
        (document.setGeometry catalog geometry).relayout catalog =
          document.setGeometry catalog geometry := by
  have kept : ∀ (catalog : Catalog) (document : Document) (call : Catalog.Call),
      document.relayout catalog = document → (call.apply catalog).SameLabels catalog →
        document.relayout (call.apply catalog) = document := by
    intro catalog document call current sameLabels
    rw [relayout_of_sameLabels sameLabels, current]
  refine ⟨?_, kept, ?_, ?_⟩
  · intro catalog document reachable
    have current : document.relayout catalog = document := by
      induction reachable with
      | start catalog geometry => rfl
      | call call reachable laidOut ih => exact relayout_apply call laidOut ih
      | catalogCall call reachable sameLabels ih => exact kept _ _ call ih sameLabels
    refine ⟨current, ?_⟩
    intro path block found
    exact Block.relaid_eq_self_iff.mpr ((relayout_eq_self_iff.mp current).2.get? found)
  · intro catalog document
    exact relayout_setGeometry document catalog document.geometry
  · intro catalog document geometry
    exact relayout_setGeometry document catalog geometry

/-- A block that is put into the stack of a block inside a document leaves the layout current. -/
theorem current_after_push :
    ∃ catalog document, Reachable catalog document ∧
      (document.get? ⟨[⟨0, 0⟩, ⟨1, 0⟩]⟩).isSome = true ∧
        document.relayout catalog = document := by
  let format : BlockFormat :=
    .plain "loop" 0 [.columns [.label "loop", .child (.input .num)], .stack]
  let catalog := Catalog.empty.registerFormats [format]
  let style := catalog.style .standard
  have attached :=
    Reachable.call (.attachNew "loop") (.start catalog .standard) (by simp [Call.handed])
  have pushed := Reachable.call (.edit ⟨[⟨0, 0⟩]⟩ (.pushChild 1 (.fresh style format))) attached (by
    intro block handed
    cases handed
    exact Block.relaid_eq_self_iff.mpr
      (Block.invariant_isMeasured.everywhere_fresh style format))
  exact ⟨_, _, pushed, rfl, (current_of_reachable.1 _ _ pushed).1⟩

end Document

end BlockEditor
