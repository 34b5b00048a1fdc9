import BlockEditor.Proofs.Document.Loaded
import BlockEditor.Proofs.Record.Text
import BlockEditor.Proofs.Store.Names

/-!
# Saving and opening

A document is saved as the text of its records, and opening reads this text and loads the records.
Saving goes through for every name of a function that the directory can take. What has been saved is
opened without loss if its text nests no more arrays and objects than a text may, and cannot be
opened if it nests more (`FunctionLibrary.openInto_saved`). Every block in a stack adds three to the
nesting, so 43 blocks inside each other are too many (`FunctionLibrary.saved_boxes_are_lost`).
-/

namespace BlockEditor

open Json

namespace FunctionLibrary

variable {library : FunctionLibrary} {name : String} {records : List InstanceRecord}

theorem blank_compactText (records : List InstanceRecord) :
    Text.blank (InstanceRecord.compactText records) = false := by
  have opens : Text.isBlank '[' = false := rfl
  simp [InstanceRecord.compactText, InstanceRecord.listJson, Value.compact, Value.tokens,
    Json.compactText, Token.letters, Text.blank, opens]

/-- A saved text is read as the records are read again, within the depth limit. -/
theorem recordsOfText_reread (legible : (InstanceRecord.listJson records).IsLegible) :
    recordsOfText (InstanceRecord.compactText records) =
      if (InstanceRecord.listJson records).depth ≤ Node.nestingLimit then
        .ok (InstanceRecord.rereadRecords records)
      else .error .json := by
  rw [recordsOfText, blank_compactText,
    InstanceRecord.listOfText?_reread legible List.mem_cons_self]
  by_cases fits : (InstanceRecord.listJson records).depth ≤ Node.nestingLimit <;> simp [fits]

theorem recordsOfText_compactText
    (plain : ∀ record ∈ records, record.Everywhere InstanceRecord.IsPlain) :
    recordsOfText (InstanceRecord.compactText records) =
      if (InstanceRecord.listJson records).depth ≤ Node.nestingLimit then .ok records
      else .error .json := by
  have legible := InstanceRecord.isLegible_listJson fun record recordMem =>
    InstanceRecord.isLegible_json (plain record recordMem)
  rw [recordsOfText_reread legible, InstanceRecord.rereadRecords_of_isPlain plain]

/-- What is written under the name of a function is what is read there afterwards. -/
theorem read_of_write (isName : isFunctionName name = true)
    (short : name.utf8ByteSize ≤ nameLimit)
    (noDirectory : library.directory.entries.get? name ≠ some .directory)
    (records : List InstanceRecord) :
    ∃ saved, library.write name records = .ok saved ∧
      saved.read name = recordsOfText (InstanceRecord.compactText records) := by
  have isEntry := isEntryName_of_isFunctionName isName short
  refine ⟨⟨⟨library.directory.entries.insert name
    (.file (.ofString (InstanceRecord.compactText records)))⟩⟩, ?_, ?_⟩
  · simp [write, isName, Directory.write?, isEntry, noDirectory]
  · simp [read, isName, Directory.file?, SortedMap.get?_insert]

variable {catalog : Catalog} {document target : Document}

/-- Opening what was saved loads the records of the document, unless its text nests too deeply. -/
theorem openInto_save (isName : isFunctionName name = true)
    (short : name.utf8ByteSize ≤ nameLimit)
    (noDirectory : library.directory.entries.get? name ≠ some .directory)
    (catalog : Catalog) (document : Document) :
    ∃ saved, library.save name document = .ok saved ∧
      ∀ target : Document, saved.openInto name target catalog =
        if (InstanceRecord.listJson document.records).depth ≤ Node.nestingLimit then
          .ok (target.load catalog document.records)
        else .error .json := by
  rcases read_of_write isName short noDirectory document.records with ⟨saved, written, read⟩
  refine ⟨saved, written, ?_⟩
  intro target
  rw [openInto, read, recordsOfText_compactText document.everywhere_isPlain_records]
  split <;> rfl

/-- A document that editing has led to can be saved under every name of a function. If its layout
is current and its formats are those of the catalog, what has been saved is opened completely and
gives the blocks and the size of the document, provided that the text nests no more than a text may.
If the text nests more, it cannot be opened. -/
theorem openInto_saved (edited : Document.Edited catalog document)
    (current : document.relayout catalog = document)
    (resolved : document.Everywhere (Block.IsResolved catalog))
    (isName : isFunctionName name = true) (short : name.utf8ByteSize ≤ nameLimit)
    (noDirectory : library.directory.entries.get? name ≠ some .directory)
    (sameGeometry : target.geometry = document.geometry) :
    ∃ saved, library.save name document = .ok saved ∧
      ((InstanceRecord.listJson document.records).depth ≤ Node.nestingLimit →
        ∃ opened report, saved.openInto name target catalog = .ok (opened, report) ∧
          report.isComplete = true ∧ report.loaded = document.blocks.length ∧
            opened.blocks = document.blocks ∧ opened.size = document.size) ∧
      (Node.nestingLimit < (InstanceRecord.listJson document.records).depth →
        saved.openInto name target catalog = .error .json) := by
  rcases openInto_save isName short noDirectory catalog document with ⟨saved, written, opens⟩
  refine ⟨saved, written, ?_, ?_⟩
  · intro fits
    rcases Document.load_records edited.wellFormed current resolved sameGeometry with
      ⟨opened, loaded, sameBlocks, sameSize⟩
    refine ⟨opened, ⟨document.blocks.length, []⟩, ?_, rfl, rfl, sameBlocks, sameSize⟩
    rw [opens, if_pos fits, loaded]
  · intro tooDeep
    rw [opens, if_neg (Nat.not_le.mpr tooDeep)]

/-- A block that has been attached is there again after the document was saved and opened. -/
theorem opened_after_attach :
    ∃ (catalog : Catalog) (document : Document) (saved : FunctionLibrary) (opened : Document)
        (report : Document.LoadReport),
      document.blocks.length = 1 ∧ save ⟨.empty⟩ "main" document = .ok saved ∧
        saved.openInto "main" (.empty .standard) catalog = .ok (opened, report) ∧
          report.isComplete = true ∧ opened.blocks = document.blocks := by
  let format : BlockFormat := .plain "beep" 0 [.columns [.label "beep", .child (.input .num)]]
  let catalog := Catalog.empty.registerFormats [format]
  let document := (Document.Call.apply catalog (.empty .standard) (.attachNew "beep")).1
  have edited : Document.Edited catalog document :=
    .call (.attachNew "beep") (.start catalog .standard) (by simp [Document.Call.handed])
      (by simp [Document.Call.built])
  have known : document.blocks = [Block.fresh (catalog.style .standard) format] := rfl
  have current : document.relayout catalog = document := by
    refine Document.relayout_eq_self_iff.mpr ⟨rfl, ?_⟩
    rw [Document.Everywhere, known, List.forall_mem_singleton]
    exact Block.invariant_isMeasured.everywhere_fresh _ format
  have resolved : document.Everywhere (Block.IsResolved catalog) := by
    have isKnown : catalog.lookup "beep" = some format := by decide +kernel
    rw [Document.Everywhere, known, List.forall_mem_singleton]
    refine Block.everywhere_measured_iff.mpr ⟨isKnown, ?_⟩
    rintro ⟨_ | line, _ | _ | position⟩ child found <;> cases found
  have free : (⟨.empty⟩ : FunctionLibrary).directory.entries.get? "main" ≠ some .directory := by
    decide
  rcases openInto_saved edited current resolved rfl (by decide) free rfl with
    ⟨saved, written, opens, _⟩
  rcases opens (by decide +kernel) with ⟨opened, report, done, complete, _, sameBlocks, _⟩
  exact ⟨catalog, document, saved, opened, report, rfl, written, done, complete, sameBlocks⟩

/-- A format with a stack and nothing else. -/
def boxFormat : BlockFormat := .plain "box" 0 [.stack]

/-- A box around blocks. -/
def boxAround (style : Style) (children : List Block) : Block :=
  (⟨boxFormat, [.stack children .zero], .zero⟩ : Block).measured style

/-- A box with a number of boxes inside each other in it. -/
def nestedBoxes (style : Style) : Nat → Block
  | 0 => boxAround style []
  | inside + 1 => boxAround style [nestedBoxes style inside]

theorem everywhere_nestedBoxes {style : Style} {Holds : Block → Prop}
    (holds : ∀ children, Holds (boxAround style children)) (inside : Nat) :
    (nestedBoxes style inside).Everywhere Holds := by
  induction inside with
  | zero =>
      refine Block.everywhere_measured_iff.mpr ⟨holds [], ?_⟩
      rintro ⟨_ | line, position⟩ child found <;> cases found
  | succ inside ih =>
      refine Block.everywhere_measured_iff.mpr ⟨holds [nestedBoxes style inside], ?_⟩
      rintro ⟨_ | line, _ | position⟩ child found <;> cases found
      exact ih

theorem consistent_boxAround (style : Style) (children : List Block) :
    (boxAround style children).Consistent := by
  apply Block.Consistent.measured
  constructor
  · rfl
  · rw [List.forall_mem_singleton]
    trivial

/-- Each box adds an object and two arrays. -/
theorem depth_nestedBoxes (style : Style) (inside : Nat) :
    (nestedBoxes style inside).record.json.depth = 3 * (inside + 1) := by
  induction inside with
  | zero => rfl
  | succ inside ih =>
      have record : (nestedBoxes style (inside + 1)).record =
        ⟨"box", [], [[(nestedBoxes style inside).record]]⟩ := rfl
      simp [record, InstanceRecord.json, InstanceRecord.listsJson, InstanceRecord.recordsJson,
        Value.depth, Value.fieldsDepth, Value.itemsDepth, ih]
      omega

/-- A document with 43 blocks inside each other is saved without an error and cannot be opened. -/
theorem saved_boxes_are_lost :
    ∃ (catalog : Catalog) (document : Document) (saved : FunctionLibrary),
      Document.Edited catalog document ∧ document.relayout catalog = document ∧
        document.Everywhere (Block.IsResolved catalog) ∧
          save ⟨.empty⟩ "main" document = .ok saved ∧
            saved.openInto "main" (.empty document.geometry) catalog = .error .json := by
  let catalog := Catalog.empty.registerFormats [boxFormat]
  let style := catalog.style .standard
  let boxes := nestedBoxes style 42
  let document := (Document.Call.apply catalog (.empty .standard) (.insertAt boxes 0 0)).1
  have known : document.blocks = [boxes] := rfl
  have wellFormed : boxes.WellFormed := everywhere_nestedBoxes (consistent_boxAround style) 42
  have edited : Document.Edited catalog document :=
    .call (.insertAt boxes 0 0) (.start catalog .standard) (by rintro block ⟨⟩; exact wellFormed)
      (by simp [Document.Call.built])
  have current : document.relayout catalog = document := by
    refine Document.relayout_eq_self_iff.mpr ⟨rfl, ?_⟩
    rw [Document.Everywhere, known, List.forall_mem_singleton]
    exact everywhere_nestedBoxes (fun children => Block.isMeasured_measured style _) 42
  have resolved : document.Everywhere (Block.IsResolved catalog) := by
    have isKnown : catalog.lookup "box" = some boxFormat := by decide +kernel
    rw [Document.Everywhere, known, List.forall_mem_singleton]
    exact everywhere_nestedBoxes (fun children => isKnown) 42
  have depth : (InstanceRecord.listJson document.records).depth = 130 := by
    rw [InstanceRecord.listJson, Document.records, known, Block.stackRecords]
    simp [InstanceRecord.recordsJson, Block.stackRecords, Value.depth, Value.itemsDepth, boxes,
      depth_nestedBoxes]
  have free : (⟨.empty⟩ : FunctionLibrary).directory.entries.get? "main" ≠ some .directory := by
    decide
  rcases openInto_save rfl (by decide) free catalog document with ⟨saved, written, opens⟩
  refine ⟨catalog, document, saved, edited, current, resolved, written, ?_⟩
  rw [opens, depth]
  rfl

end FunctionLibrary

end BlockEditor
