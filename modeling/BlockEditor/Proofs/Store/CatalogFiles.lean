import BlockEditor.Proofs.Catalog.Written
import BlockEditor.Proofs.Schema.RoundTrip
import BlockEditor.Store.CatalogFiles

/-!
# Catalogs in files

Saving a catalog puts each of its parts under the name of a file and leaves the rest of the
directory (`Directory.writeJson_ok`). Loading reads the formats as the batch of a refresh and merges
the texts and the categories. A catalog without entries takes over all of it, so what has been saved
is loaded without loss, marks included, if no format has a row without slots
(`Directory.loadCatalog_saved`).
-/

namespace BlockEditor

open Json Text

namespace Catalog

variable {catalog target : Catalog}

/-- A catalog without formats takes over those of a refresh. -/
theorem formats_refreshed (noFormats : target.formats = .empty) (keyed : catalog.Keyed) :
    (target.refreshed catalog.allFormats).formats = catalog.formats := by
  -- Marks are set before formats are registered, so the marks that are loaded are not touched.
  have stillNone : target.beginRefresh.formats = .empty := by
    rw [beginRefresh, markAllDeprecated, noFormats]
    rfl
  rw [refreshed, registerFormats, stillNone, entries_of_keyed keyed]
  exact catalog.formats.ofList_entries

/-- All formats that a catalog without formats takes over are new to it. -/
theorem summary_refreshed (noFormats : target.formats = .empty) (keyed : catalog.Keyed) :
    target.beginRefresh.summary catalog.allFormats = ⟨catalog.formats.keys, [], []⟩ := by
  have noKeys : target.beginRefresh.formats.keys = [] := by
    rw [beginRefresh, markAllDeprecated, noFormats]
    rfl
  have unknown : ∀ id, target.beginRefresh.contains id = false := by
    intro id
    rw [contains, beginRefresh, markAllDeprecated, noFormats]
    rfl
  have inOrder : catalog.formats.keys.Pairwise fun first second => decide (first ≤ second) := by
    rw [SortedMap.keys, List.pairwise_map]
    exact catalog.formats.increase.imp fun below => decide_eq_true (Std.le_of_lt below)
  simp [summary, ids_of_keyed keyed, unknown, noKeys, List.mergeSort_of_pairwise inOrder]

end Catalog

namespace Directory

variable {directory : Directory}

/-- Files are written one after the other and are in the directory then; everything else stays. -/
theorem writeJson_ok {files : List (String × Value)}
    (areNames : ∀ file ∈ files, isEntryName file.1 = true)
    (free : ∀ file ∈ files, directory.entries.get? file.1 ≠ some .directory)
    (distinct : (files.map Prod.fst).Nodup) :
    ∃ written, directory.writeJson files = (written, .ok ()) ∧
      (∀ file ∈ files, written.entries.get? file.1 = some (.file (.ofString file.2.compact))) ∧
        ∀ name ∉ files.map Prod.fst, written.entries.get? name = directory.entries.get? name := by
  induction files generalizing directory with
  | nil => exact ⟨directory, rfl, List.forall_mem_nil _, fun _ _ => rfl⟩
  | cons file files ih =>
      rcases file with ⟨name, value⟩
      rw [List.forall_mem_cons] at areNames free
      rcases List.nodup_cons.mp distinct with ⟨notMem, restDistinct⟩
      let first : Directory := ⟨directory.entries.insert name (.file (.ofString value.compact))⟩
      have inFirst : ∀ other, first.entries.get? other =
          if other = name then some (.file (.ofString value.compact))
          else directory.entries.get? other :=
        fun other => SortedMap.get?_insert directory.entries name other _
      have writes : directory.write? name (.ofString value.compact) = some first := by
        simp [write?, areNames.1, free.1, first]
      have stillFree : ∀ file ∈ files, first.entries.get? file.1 ≠ some .directory := by
        intro file fileMem
        have different : file.1 ≠ name := by
          rintro rfl
          exact notMem (List.mem_map.mpr ⟨file, fileMem, rfl⟩)
        rw [inFirst, if_neg different]
        exact free.2 file fileMem
      rcases ih areNames.2 stillFree restDistinct with ⟨written, done, inFiles, others⟩
      refine ⟨written, by simp only [writeJson, writes, done], ?_, ?_⟩
      · refine List.forall_mem_cons.mpr ⟨?_, inFiles⟩
        rw [others name notMem, inFirst, if_pos rfl]
      · intro other otherNotMem
        rw [List.map_cons, List.mem_cons, not_or] at otherNotMem
        rw [others other otherNotMem.2, inFirst, if_neg otherNotMem.1]

/-- A file that was written is read as what its value is read as. -/
theorem readJson_ok {Item : Type} {name : String} {value : Value} {read : Node → Option Item}
    {item : Item} (inFile : directory.entries.get? name = some (.file (.ofString value.compact)))
    (writable : value.Writable Node.nestingLimit) (reads : read value.node = some item) :
    directory.readJson name read = .ok (some item) := by
  simp [readJson, inFile, writable.ofSymbols?_compact, reads]

/-- No directory stands under the name of a file of a catalog. -/
def HasRoom (directory : Directory) : Prop :=
  ∀ name ∈ [formatsFile, translationsFile, categoriesFile],
    directory.entries.get? name ≠ some .directory

/-- A catalog is saved wherever there is room for its files. -/
theorem saveCatalog_ok (room : directory.HasRoom) (catalog : Catalog) :
    ∃ saved, directory.saveCatalog catalog = (saved, .ok ()) ∧ ∀ file ∈ catalog.files,
      saved.entries.get? file.1 = some (.file (.ofString file.2.compact)) := by
  have names : catalog.files.map Prod.fst = [formatsFile, translationsFile, categoriesFile] := rfl
  have isName : ∀ name ∈ [formatsFile, translationsFile, categoriesFile],
      isEntryName name = true := by
    decide
  have nameMem : ∀ file ∈ catalog.files, file.1 ∈ [formatsFile, translationsFile, categoriesFile] :=
    fun file fileMem => names ▸ List.mem_map_of_mem fileMem
  have areNames : ∀ file ∈ catalog.files, isEntryName file.1 = true :=
    fun file fileMem => isName _ (nameMem file fileMem)
  have free : ∀ file ∈ catalog.files, directory.entries.get? file.1 ≠ some .directory :=
    fun file fileMem => room _ (nameMem file fileMem)
  have distinct : (catalog.files.map Prod.fst).Nodup := by
    rw [names]
    decide
  rcases writeJson_ok areNames free distinct with ⟨saved, done, inFiles, _⟩
  exact ⟨saved, done, inFiles⟩

/-- The formats in a file are taken over by a catalog without formats. -/
theorem loadFormats_ok {catalog target : Catalog} (keyed : catalog.Keyed)
    (hasSlots : ∀ format ∈ catalog.allFormats, format.HasSlots)
    (noFormats : target.formats = .empty)
    (inFile : directory.entries.get? formatsFile =
      some (.file (.ofString (batchOfFormats catalog.allFormats).compact))) :
    directory.loadFormats target =
      (target.refreshed catalog.allFormats, .ok (some ⟨catalog.formats.keys, [], []⟩)) := by
  have writable := (writable_batchOfFormats catalog.allFormats).mono
    (by decide : 5 ≤ Node.nestingLimit)
  have read := readJson_ok inFile writable (Value.value?_node _)
  have isBatch :
      formatsOfBatch (batchOfFormats catalog.allFormats).sorted = .ok catalog.allFormats :=
    formatsOfBatch_sorted hasSlots
  simp only [loadFormats, read, Catalog.commitBatch_beginRefresh, isBatch,
    Catalog.summary_refreshed noFormats keyed]

/-- The tables in files are taken over by a catalog without texts and categories. -/
theorem loadTables_ok {catalog target : Catalog} (stored : catalog.translations.Stored)
    (noTexts : target.translations = .empty) (noCategories : target.categories = [])
    (textsInFile : directory.entries.get? translationsFile =
      some (.file (.ofString catalog.translations.json.compact)))
    (categoriesInFile : directory.entries.get? categoriesFile =
      some (.file (.ofString catalog.categories.json.compact))) :
    directory.loadTables target =
      ({ target with translations := catalog.translations, categories := catalog.categories },
        .ok (true, true)) := by
  have texts := readJson_ok textsInFile
    (catalog.translations.writable_json.mono (by decide : 2 ≤ Node.nestingLimit))
    (Translations.ofNode?_json stored)
  have categories := readJson_ok categoriesInFile
    ((CategoryTable.writable_json catalog.categories).mono (by decide : 2 ≤ Node.nestingLimit))
    (CategoryTable.ofNode?_json catalog.categories)
  have merged : CategoryTable.merge [] catalog.categories = catalog.categories := by
    simp [CategoryTable.merge]
  simp [loadTables, texts, categories, Catalog.mergeTranslations, Catalog.mergeCategories, noTexts,
    noCategories, stored.merge_empty, merged]

/-- Everything in a catalog that calls have led to is in the files of the catalog and is taken over
by a catalog without entries, with the marks of the formats, if no format has a row without slots.
All formats are new, and none is replaced or retired. -/
theorem loadCatalog_saved {calls : List Catalog.Call} {target : Catalog}
    (hasSlots : ∀ format ∈ (Catalog.run calls).allFormats, format.HasSlots)
    (room : directory.HasRoom) (noFormats : target.formats = .empty)
    (noTexts : target.translations = .empty) (noCategories : target.categories = []) :
    ∃ saved, directory.saveCatalog (Catalog.run calls) = (saved, .ok ()) ∧
      saved.loadCatalog target =
        ({ target with
            formats := (Catalog.run calls).formats
            categories := (Catalog.run calls).categories
            translations := (Catalog.run calls).translations
            refresh := none },
          .ok ⟨some ⟨(Catalog.run calls).formats.keys, [], []⟩, true, true⟩) := by
  have keyed := Catalog.keyed_run calls
  rcases saveCatalog_ok room (Catalog.run calls) with ⟨saved, done, inFiles⟩
  refine ⟨saved, done, ?_⟩
  have formats := loadFormats_ok keyed hasSlots noFormats (inFiles _ List.mem_cons_self)
  have tables : saved.loadTables (target.refreshed (Catalog.run calls).allFormats) = _ :=
    loadTables_ok (Catalog.stored_run calls) noTexts noCategories
      (inFiles _ (List.mem_cons_of_mem _ List.mem_cons_self))
      (inFiles _ (List.mem_cons_of_mem _ (List.mem_cons_of_mem _ List.mem_cons_self)))
  have taken : ({ target.refreshed (Catalog.run calls).allFormats with
        translations := (Catalog.run calls).translations
        categories := (Catalog.run calls).categories } : Catalog) =
      { target with
        formats := (Catalog.run calls).formats
        categories := (Catalog.run calls).categories
        translations := (Catalog.run calls).translations
        refresh := none } := by
    rw [← Catalog.formats_refreshed noFormats keyed]
    rfl
  simp only [loadCatalog, formats, tables, taken]

/-- A catalog in which a refresh goes on is saved, and the marks of this refresh are loaded, with
the text in the default language and the category. -/
theorem loadCatalog_saved_refreshing :
    ∃ (calls : List Catalog.Call) (saved : Directory) (loaded : Catalog),
      (Catalog.run calls).isRefreshing = true ∧
        Directory.empty.saveCatalog (Catalog.run calls) = (saved, .ok ()) ∧
          saved.loadCatalog .empty = (loaded, .ok ⟨some ⟨["beep", "loop"], [], []⟩, true, true⟩) ∧
            loaded.formats = (Catalog.run calls).formats ∧
              loaded.formats.values.map BlockFormat.deprecated = [false, true] ∧
                loaded.translations.lookup "default" "k" = some "text" ∧
                  loaded.categories = [⟨"tools", -30⟩] := by
  let loop : BlockFormat :=
    .plain "loop" 3 [.columns [.label "loop", .child (.input .num)], .stack]
  let calls : List Catalog.Call :=
    [.registerFormats [loop], .mergeTranslations (Translations.empty.insert "DEFAULT" "k" "text"),
      .mergeCategories [⟨"tools", -30⟩], .beginRefresh, .registerFormats [.plain "beep" 0 []]]
  have known : (Catalog.run calls).allFormats =
      [.plain "beep" 0 [], { loop with deprecated := true }] := by
    decide +kernel
  have hasSlots : ∀ format ∈ (Catalog.run calls).allFormats, format.HasSlots := by
    rw [known]
    simp [BlockFormat.HasSlots, BlockFormat.plain, loop]
  have room : Directory.empty.HasRoom := by
    intro name _
    simp [Directory.empty]
  have noFormats : Catalog.empty.formats = .empty := rfl
  rcases loadCatalog_saved hasSlots room noFormats rfl rfl with ⟨saved, done, loaded⟩
  have keys : (Catalog.run calls).formats.keys = ["beep", "loop"] := by decide +kernel
  rw [keys] at loaded
  refine ⟨calls, saved, _, by decide +kernel, done, loaded, rfl, ?_, ?_, ?_⟩
  · decide +kernel
  · decide +kernel
  · decide +kernel

end Directory

end BlockEditor
