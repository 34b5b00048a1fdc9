import BlockEditor.Proofs.Document.Loaded
import BlockEditor.Proofs.Record.Normalized

/-!
# Loading normalizes once

The records of a document that has been loaded are the normal forms of those records that were
accepted, in the same order. Since normal forms conform and are normal already, a second load
accepts all of them and changes nothing more (`Document.load_normalizes`).
-/

namespace BlockEditor

namespace Document

variable {catalog : Catalog} {style : Style} {records : List InstanceRecord}

/-- The records among some that a block can be built from. -/
def acceptedRecords (catalog : Catalog) (style : Style) (records : List InstanceRecord) :
    List InstanceRecord :=
  records.filter fun record => (Block.ofRecord catalog style record).isOk

/-- Accepted are the records that conform everywhere to the formats of the catalog. -/
theorem mem_acceptedRecords {record : InstanceRecord} :
    record ∈ acceptedRecords catalog style records ↔
      record ∈ records ∧ record.Everywhere (InstanceRecord.Conforms catalog) := by
  rw [acceptedRecords, List.mem_filter, ← Block.exists_ofRecord_iff style]
  cases Block.ofRecord catalog style record <;> simp [Except.isOk, Except.toBool]

theorem acceptedRecords_of_built
    (built : ∀ record ∈ records, ∃ block, Block.ofRecord catalog style record = .ok block) :
    acceptedRecords catalog style records = records := by
  refine List.filter_eq_self.mpr ?_
  intro record recordMem
  rcases built record recordMem with ⟨block, here⟩
  rw [here]
  rfl

/-- The records of loaded blocks are the accepted records in normal form. -/
theorem stackRecords_loadedBlocks (keyed : catalog.Keyed) (style : Style)
    (records : List InstanceRecord) :
    Block.stackRecords (loadedBlocks catalog style records) =
      (acceptedRecords catalog style records).map (InstanceRecord.normalized catalog) := by
  induction records with
  | nil => rfl
  | cons record records ih =>
      rw [loadedBlocks, acceptedRecords] at ih ⊢
      rw [List.filterMap_cons, List.filter_cons]
      cases built : Block.ofRecord catalog style record with
      | error error => exact ih
      | ok block => exact congrArg₂ List.cons (Block.record_of_ofRecord keyed built) ih

/-- A document into which records are loaded has the normal forms of the accepted ones as its
records, in the same order. If these are loaded in turn, into any document with the same catalog,
none is skipped, and they are the records of that document. Every catalog that calls lead to has
each format under its identifier. -/
theorem load_normalizes :
    (∀ calls, (Catalog.run calls).Keyed) ∧
      ∀ (catalog : Catalog) (document target : Document) (records : List InstanceRecord),
        catalog.Keyed →
          (document.load catalog records).1.records =
              (acceptedRecords catalog (document.style catalog) records).map
                (InstanceRecord.normalized catalog) ∧
            (target.load catalog (document.load catalog records).1.records).2.isComplete = true ∧
              (target.load catalog (document.load catalog records).1.records).1.records =
                (document.load catalog records).1.records := by
  refine ⟨Catalog.keyed_run, ?_⟩
  intro catalog document target records keyed
  have written : (document.load catalog records).1.records =
      (acceptedRecords catalog (document.style catalog) records).map
        (InstanceRecord.normalized catalog) := stackRecords_loadedBlocks keyed _ records
  have built : ∀ record ∈ (document.load catalog records).1.records,
      ∃ block, Block.ofRecord catalog (target.style catalog) record = .ok block := by
    rw [written, List.forall_mem_map]
    intro record accepted
    have conforms := (mem_acceptedRecords.mp accepted).2
    exact (Block.exists_ofRecord_iff _).mpr
      (InstanceRecord.everywhere_conforms_normalized conforms)
  refine ⟨written, ?_, ?_⟩
  · rw [load, LoadReport.isComplete, skippedRecords_of_built built]
    rfl
  · have again : (target.load catalog (document.load catalog records).1.records).1.records = _ :=
      stackRecords_loadedBlocks keyed _ _
    rw [again, acceptedRecords_of_built built, written, List.map_map]
    apply List.map_congr_left
    intro record _
    exact InstanceRecord.normalized_normalized catalog record

/-- Of two numbers in a nested block the one in the input stays, a record without a format is
skipped, and a second load keeps what the first has kept. -/
theorem load_normalizes_numbers :
    ∃ (catalog : Catalog) (document : Document) (records kept : List InstanceRecord),
      records = [⟨"set", [.block ⟨"set", [.other (.whole 7), .other (.whole 8)], []⟩,
        .other .null], []⟩, ⟨"gone", [], []⟩] ∧
      kept = [⟨"set", [.block ⟨"set", [.literal "", .literal "8"], []⟩, .literal ""], []⟩] ∧
        catalog.Keyed ∧ (document.load catalog records).1.records = kept ∧
          (document.load catalog kept).2.isComplete = true ∧
            (document.load catalog kept).1.records = kept := by
  let format : BlockFormat :=
    .plain "set" 0 [.columns [.child (.output .num), .child (.input .num)]]
  let catalog := Catalog.run [.registerFormats [format]]
  let records : List InstanceRecord :=
    [⟨"set", [.block ⟨"set", [.other (.whole 7), .other (.whole 8)], []⟩, .other .null], []⟩,
      ⟨"gone", [], []⟩]
  have keyed : catalog.Keyed := load_normalizes.1 _
  rcases load_normalizes.2 catalog (empty .standard) (empty .standard) records keyed with
    ⟨written, complete, again⟩
  have kept : ((empty .standard).load catalog records).1.records =
      [⟨"set", [.block ⟨"set", [.literal "", .literal "8"], []⟩, .literal ""], []⟩] := by
    rw [written]
    decide +kernel
  rw [kept] at complete again
  exact ⟨catalog, empty .standard, records, _, rfl, rfl, keyed, kept, complete, again⟩

end Document

end BlockEditor
