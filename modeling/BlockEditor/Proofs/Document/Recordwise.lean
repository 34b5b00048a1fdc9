import BlockEditor.Proofs.Document.Normalized

/-!
# Loading record by record

What a load makes of a list of records is said for each record alone (`Document.Filled`): a record
either becomes the block that it describes, in the place that is left to it by the records skipped
before it, or it is reported with its own position, identifier and error. So two lists one after the
other are loaded like each of them by itself, and what was in the document before does not matter
(`Document.load_recordwise`).
-/

namespace BlockEditor

/-- Which error a record is refused with does not depend on the style. -/
theorem Block.ofRecord_eq_error_of_style {catalog : Catalog} {style other : Style}
    {record : InstanceRecord} {error : TreeError}
    (refused : ofRecord catalog style record = .error error) :
    ofRecord catalog other record = .error error :=
  ofRecord_of_firstFault (firstFault_of_ofRecord refused)

namespace Document

variable {catalog : Catalog} {style : Style} {document : Document}
  {records first second : List InstanceRecord} {start : Nat}

/-- A skipped record as it is reported when other records stand before it. -/
def SkippedRecord.behind (count : Nat) (skipped : SkippedRecord) : SkippedRecord :=
  { skipped with index := count + skipped.index }

/-- A document has been filled with the blocks of records, and the report says which of the records
were left out. -/
structure Filled (catalog : Catalog) (before : Document) (records : List InstanceRecord)
    (after : Document) (report : LoadReport) : Prop where
  /-- The blocks are those that the accepted records describe, in the order of the records. -/
  built : after.blocks.map Except.ok =
    (acceptedRecords catalog (before.style catalog) records).map
      (Block.ofRecord catalog (before.style catalog))
  /-- The block of a record stands as far from the first one as there are records before the record
  that were not skipped. -/
  placed : ∀ (index : Nat) (record : InstanceRecord) (block : Block),
    records[index]? = some record →
    Block.ofRecord catalog (before.style catalog) record = .ok block →
    after.blocks[index - report.skipped.countP fun skipped => skipped.index < index]? = some block
  /-- The number of blocks is reported. -/
  loaded : report.loaded = after.blocks.length
  /-- Skipped are the records that no block can be built from, each with its own error. -/
  skipped : ∀ index id error, ⟨index, id, error⟩ ∈ report.skipped ↔
    ∃ record, records[index]? = some record ∧ record.id = id ∧
      Block.ofRecord catalog (before.style catalog) record = .error error
  /-- The skipped records are reported in their order. -/
  inOrder : report.skipped.Pairwise fun first second => first.index < second.index
  /-- Every record is loaded or skipped. -/
  total : report.loaded + report.skipped.length = records.length
  /-- What has been loaded counts as known. -/
  known : after.published = after.records ∧ after.pollChange = (after, none)
  /-- Of the document before, only the geometry is left. -/
  rest : after = { before.withBlocks after.blocks with published := after.records }

/-- Reported are the records that are refused, each with its index, identifier and error. -/
theorem mem_skippedRecords_iff {skipped : SkippedRecord} :
    skipped ∈ skippedRecords catalog style start records ↔
      ∃ offset record, skipped.index = start + offset ∧ records[offset]? = some record ∧
        record.id = skipped.id ∧ Block.ofRecord catalog style record = .error skipped.error := by
  induction records generalizing start with
  | nil => simp [skippedRecords]
  | cons record records ih =>
      have later : (∃ offset other, skipped.index = start + (offset + 1) ∧
          records[offset]? = some other ∧ other.id = skipped.id ∧
            Block.ofRecord catalog style other = .error skipped.error) ↔
          skipped ∈ skippedRecords catalog style (start + 1) records := by
        rw [ih]
        simp only [Nat.add_assoc, Nat.add_comm 1]
      rw [skippedRecords, ← Nat.or_exists_add_one]
      simp only [List.getElem?_cons_zero, List.getElem?_cons_succ, later]
      rcases skipped with ⟨index, id, error⟩
      split
      · rename_i block built
        simp [built]
      · rename_i other refused
        simp [refused, SkippedRecord.mk.injEq, eq_comm]

/-- Refused records are reported by increasing index. -/
theorem pairwise_skippedRecords :
    (skippedRecords catalog style start records).Pairwise
      fun first second => first.index < second.index := by
  induction records generalizing start with
  | nil => exact List.Pairwise.nil
  | cons record records ih =>
      rw [skippedRecords]
      split
      · exact ih
      · refine List.Pairwise.cons ?_ ih
        intro later laterMem
        rcases mem_skippedRecords_iff.mp laterMem with ⟨offset, _, atIndex, _⟩
        rw [atIndex]
        exact Nat.lt_of_lt_of_le (Nat.lt_succ_self start) (Nat.le_add_right _ _)

/-- The report of two lists is that of the first one, then that of the second one behind it. -/
theorem skippedRecords_append :
    skippedRecords catalog style start (first ++ second) =
      skippedRecords catalog style start first ++
        skippedRecords catalog style (start + first.length) second := by
  induction first generalizing start with
  | nil => rfl
  | cons record records ih =>
      rw [List.cons_append, skippedRecords, skippedRecords, ih, List.length_cons, Nat.add_assoc,
        Nat.add_comm 1]
      split <;> rfl

theorem skippedRecords_eq_map :
    skippedRecords catalog style start records =
      (skippedRecords catalog style 0 records).map (SkippedRecord.behind start) := by
  induction records generalizing start with
  | nil => rfl
  | cons record records ih =>
      rw [skippedRecords, skippedRecords, ih, @ih (0 + 1)]
      split <;> simp [SkippedRecord.behind, Nat.add_assoc]

/-- The report does not depend on the style. -/
theorem skippedRecords_of_style (other : Style) :
    skippedRecords catalog other start records = skippedRecords catalog style start records := by
  induction records generalizing start with
  | nil => rfl
  | cons record records ih =>
      rw [skippedRecords, skippedRecords, ih]
      cases read : Block.ofRecord catalog style record with
      | error error => rw [Block.ofRecord_eq_error_of_style read]
      | ok block =>
          cases readOther : Block.ofRecord catalog other record with
          | error error => cases read.symm.trans (Block.ofRecord_eq_error_of_style readOther)
          | ok block => rfl

theorem loadedBlocks_append :
    loadedBlocks catalog style (first ++ second) =
      loadedBlocks catalog style first ++ loadedBlocks catalog style second :=
  List.filterMap_append

/-- Each record is either loaded or reported. -/
theorem length_loadedBlocks :
    (loadedBlocks catalog style records).length +
      (skippedRecords catalog style start records).length = records.length := by
  induction records generalizing start with
  | nil => rfl
  | cons record records ih =>
      have others := @ih (start + 1)
      rw [loadedBlocks] at others ⊢
      rw [List.filterMap_cons, skippedRecords, List.length_cons, ← others]
      cases Block.ofRecord catalog style record with
      | error error => rfl
      | ok block => exact Nat.succ_add _ _

/-- The blocks that are loaded are those that the accepted records build, in order. -/
theorem map_ok_loadedBlocks :
    (loadedBlocks catalog style records).map Except.ok =
      (acceptedRecords catalog style records).map (Block.ofRecord catalog style) := by
  induction records with
  | nil => rfl
  | cons record records ih =>
      rw [loadedBlocks, acceptedRecords] at ih ⊢
      rw [List.filterMap_cons, List.filter_cons]
      cases built : Block.ofRecord catalog style record with
      | error error => exact ih
      | ok block => exact congrArg₂ List.cons built.symm ih

/-- The records at the head of a list are those that are skipped with a smaller position than all
records behind them. -/
theorem countP_skippedRecords :
    (skippedRecords catalog style 0 (first ++ second)).countP
        (fun skipped => skipped.index < first.length) =
      (skippedRecords catalog style 0 first).length := by
  rw [skippedRecords_append, List.countP_append]
  have before : ∀ skipped ∈ skippedRecords catalog style 0 first,
      decide (skipped.index < first.length) = true := by
    intro skipped skippedMem
    rcases mem_skippedRecords_iff.mp skippedMem with ⟨offset, _, isIndex, atOffset, _⟩
    rcases List.getElem?_eq_some_iff.mp atOffset with ⟨inRange, _⟩
    simpa [isIndex] using inRange
  have behind : ∀ skipped ∈ skippedRecords catalog style (0 + first.length) second,
      ¬decide (skipped.index < first.length) = true := by
    intro skipped skippedMem
    rcases mem_skippedRecords_iff.mp skippedMem with ⟨offset, _, isIndex, _⟩
    simp [isIndex]
  rw [List.countP_eq_length.mpr before, List.countP_eq_zero.mpr behind, Nat.add_zero]

/-- Before the block of a record stand the blocks of the records before it that were not skipped. -/
theorem getElem?_loadedBlocks {index : Nat} {record : InstanceRecord} {block : Block}
    (atIndex : records[index]? = some record)
    (built : Block.ofRecord catalog style record = .ok block) :
    (loadedBlocks catalog style records)[index - (skippedRecords catalog style 0 records).countP
      fun skipped => skipped.index < index]? = some block := by
  rcases List.getElem?_eq_some_iff.mp atIndex with ⟨inRange, isRecord⟩
  obtain ⟨before, behind, rfl, rfl⟩ :
      ∃ before behind, records = before ++ record :: behind ∧ before.length = index := by
    refine ⟨records.take index, records.drop (index + 1), ?_,
      List.length_take_of_le (Nat.le_of_lt inRange)⟩
    rw [← isRecord, ← List.drop_eq_getElem_cons inRange, List.take_append_drop]
  have counted := @length_loadedBlocks catalog style before 0
  have position : before.length - (skippedRecords catalog style 0 before).length =
      (loadedBlocks catalog style before).length := by
    omega
  have here : loadedBlocks catalog style (record :: behind) =
      block :: loadedBlocks catalog style behind := by
    rw [loadedBlocks, List.filterMap_cons, built]
    rfl
  rw [countP_skippedRecords, position, loadedBlocks_append, here]
  simp

theorem pollChange_of_published (known : document.published = document.records) :
    document.pollChange = (document, none) :=
  if_pos known.symm

/-- Loading fills a document from records, whatever was in it. -/
theorem filled_load (catalog : Catalog) (document : Document) (records : List InstanceRecord) :
    Filled catalog document records (document.load catalog records).1
      (document.load catalog records).2 where
  built := map_ok_loadedBlocks
  placed _ _ _ := getElem?_loadedBlocks
  loaded := rfl
  skipped index id error := by
    refine mem_skippedRecords_iff.trans ?_
    simp
  inOrder := pairwise_skippedRecords
  total := length_loadedBlocks
  known := ⟨rfl, pollChange_of_published rfl⟩
  rest := rfl

/-- A load fills a document with the blocks of the records that are accepted, and reports all
others. The report is the same for every document, and so is the document afterwards if the geometry
is. Of two lists one after the other each is loaded as it is alone: what becomes of a record depends
on no other record. -/
theorem load_recordwise (catalog : Catalog) (document : Document) (records : List InstanceRecord) :
    Filled catalog document records (document.load catalog records).1
        (document.load catalog records).2 ∧
      (∀ other : Document, (other.load catalog records).2 = (document.load catalog records).2 ∧
        (other.geometry = document.geometry →
          other.load catalog records = document.load catalog records)) ∧
      ∀ first second, records = first ++ second →
        (document.load catalog records).1.blocks =
            (document.load catalog first).1.blocks ++ (document.load catalog second).1.blocks ∧
          (document.load catalog records).2.loaded =
            (document.load catalog first).2.loaded + (document.load catalog second).2.loaded ∧
          (document.load catalog records).2.skipped =
            (document.load catalog first).2.skipped ++
              (document.load catalog second).2.skipped.map
                (SkippedRecord.behind first.length) := by
  refine ⟨filled_load catalog document records, ?_, ?_⟩
  · intro other
    have sameSkipped : (other.load catalog records).2.skipped =
        (document.load catalog records).2.skipped := skippedRecords_of_style _
    have sameLoaded : (other.load catalog records).2.loaded =
        (document.load catalog records).2.loaded := by
      have counted := (filled_load catalog other records).total
      rw [sameSkipped, ← (filled_load catalog document records).total] at counted
      exact Nat.add_right_cancel counted
    refine ⟨congrArg₂ LoadReport.mk sameLoaded sameSkipped, ?_⟩
    intro sameGeometry
    simp only [load, withBlocks, style, sameGeometry, Document.records]
  · rintro first second rfl
    have blocks : loadedBlocks catalog (document.style catalog) (first ++ second) = _ :=
      loadedBlocks_append
    refine ⟨blocks, ?_, ?_⟩
    · exact (congrArg List.length blocks).trans List.length_append
    · refine skippedRecords_append.trans (congrArg _ ?_)
      rw [Nat.zero_add]
      exact skippedRecords_eq_map

/-- Of four records the second has no format and the third one has a fault inside it: the last one
is the second block, in a document that held another block as in one without blocks, and a load of
the last two reports the third record as its first. -/
theorem load_recordwise_gap :
    ∃ (catalog : Catalog) (document other : Document) (first second : List InstanceRecord)
        (block : Block),
      first = [⟨"set", [.literal "4"], []⟩, ⟨"gone", [], []⟩] ∧
      second = [⟨"set", [.block ⟨"set", [], []⟩], []⟩, ⟨"set", [.literal "5"], []⟩] ∧
      document.blocks.length = 1 ∧ other.blocks.length = 0 ∧
      (document.load catalog (first ++ second)).2 = ⟨2, [⟨1, "gone", .unknownFormat "gone"⟩,
        ⟨2, "set", .malformedInstance "set" (.paramCount 1 0)⟩]⟩ ∧
      (document.load catalog second).2.skipped =
        [⟨0, "set", .malformedInstance "set" (.paramCount 1 0)⟩] ∧
      block.record = ⟨"set", [.literal "5"], []⟩ ∧
      (document.load catalog (first ++ second)).1.blocks[1]? = some block ∧
      other.load catalog (first ++ second) = document.load catalog (first ++ second) ∧
      (document.load catalog (first ++ second)).1.blocks =
        (document.load catalog first).1.blocks ++ (document.load catalog second).1.blocks := by
  let catalog := Catalog.run [.registerFormats [.plain "set" 0 [.columns [.child (.input .num)]]]]
  let other : Document := .empty .standard
  let document := (Call.apply catalog other (.attachNew "set")).1
  let first : List InstanceRecord := [⟨"set", [.literal "4"], []⟩, ⟨"gone", [], []⟩]
  let second : List InstanceRecord :=
    [⟨"set", [.block ⟨"set", [], []⟩], []⟩, ⟨"set", [.literal "5"], []⟩]
  rcases load_recordwise catalog document (first ++ second) with ⟨filled, anywhere, split⟩
  have built : ∃ block, Block.ofRecord catalog (document.style catalog)
      ⟨"set", [.literal "5"], []⟩ = .ok block := ⟨_, rfl⟩
  rcases built with ⟨block, built⟩
  have report : (document.load catalog (first ++ second)).2 =
      ⟨2, [⟨1, "gone", .unknownFormat "gone"⟩,
        ⟨2, "set", .malformedInstance "set" (.paramCount 1 0)⟩]⟩ := by
    decide +kernel
  have secondPlaced := filled.placed 3 _ block rfl built
  rw [report] at secondPlaced
  refine ⟨catalog, document, other, first, second, block, rfl, rfl, rfl, rfl, report,
    by decide +kernel, ?_, secondPlaced, (anywhere other).2 rfl, (split first second rfl).1⟩
  cases built
  rfl

end Document

end BlockEditor
