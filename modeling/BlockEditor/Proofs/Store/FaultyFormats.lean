import BlockEditor.Proofs.Catalog.Aborted
import BlockEditor.Store.CatalogFiles

/-!
# Faulty files of formats

A file of formats can be faulty in two ways. If it is no JSON, the catalog is not touched. If it is
JSON and no batch, a refresh has begun by then and is aborted, and a refresh that was going on
before is aborted with it. So a faulty file leaves the catalog as it was if no refresh was going on
(`Directory.loadCatalog_of_faultyFormats`), and otherwise takes the refresh away
(`Directory.refresh_lost_by_loading`).
-/

namespace BlockEditor

open Json Text

namespace Directory

variable {directory : Directory} {catalog after : Catalog} {content : Symbols}

theorem readJson_value (inFile : directory.entries.get? formatsFile = some (.file content)) :
    directory.readJson formatsFile Node.value? =
      match Value.ofSymbols? content with
      | some batch => .ok (some batch)
      | none => .error .json := by
  simp only [readJson, inFile, Value.ofSymbols?]
  cases (Node.ofSymbols? content).bind Node.value? <;> rfl

theorem loadCatalog_of_loadFormats {error : StoreError}
    (failed : directory.loadFormats catalog = (after, .error error)) :
    directory.loadCatalog catalog = (after, .error error) := by
  simp only [loadCatalog, failed]

/-- A file of formats that holds no value leaves the catalog alone. -/
theorem loadFormats_of_noValue (inFile : directory.entries.get? formatsFile = some (.file content))
    (noValue : Value.ofSymbols? content = none) :
    directory.loadFormats catalog = (catalog, .error .json) := by
  simp only [loadFormats, readJson_value inFile, noValue]

/-- A faulty batch ends the refresh that was begun for it. -/
theorem loadFormats_of_faultyBatch {batch : Value} {error : SchemaError}
    (inFile : directory.entries.get? formatsFile = some (.file content))
    (isValue : Value.ofSymbols? content = some batch)
    (faulty : formatsOfBatch batch = .error error) :
    directory.loadFormats catalog = (catalog.abortRefresh, .error (.schema error)) := by
  simp only [loadFormats, readJson_value inFile, isValue, Catalog.commitBatch_beginRefresh,
    faulty, Catalog.abortRefresh_begun]

theorem loadFormats_of_batch {batch : Value} {formats : List BlockFormat}
    (inFile : directory.entries.get? formatsFile = some (.file content))
    (isValue : Value.ofSymbols? content = some batch)
    (read : formatsOfBatch batch = .ok formats) :
    directory.loadFormats catalog = (catalog.refreshed formats,
      .ok (some (catalog.beginRefresh.summary formats))) := by
  simp only [loadFormats, readJson_value inFile, isValue, Catalog.commitBatch_beginRefresh, read]

/-- A file of formats that is no JSON leaves the catalog as it was. A file with a value that is no
batch, or that has a faulty record anywhere, leaves the catalog that aborting alone leaves; this is
the catalog as it was exactly if no refresh was going on. No other file of formats makes loading the
formats fail. -/
theorem loadCatalog_of_faultyFormats (catalog : Catalog)
    (inFile : directory.entries.get? formatsFile = some (.file content)) :
    (Value.ofSymbols? content = none →
      directory.loadCatalog catalog = (catalog, .error .json)) ∧
    (∀ batch error, Value.ofSymbols? content = some batch → formatsOfBatch batch = .error error →
      directory.loadCatalog catalog = (catalog.abortRefresh, .error (.schema error)) ∧
        ((directory.loadCatalog catalog).1 = catalog ↔ catalog.isRefreshing = false)) ∧
    ∀ batch formats, Value.ofSymbols? content = some batch → formatsOfBatch batch = .ok formats →
      ∃ refreshed summary, directory.loadFormats catalog = (refreshed, .ok (some summary)) := by
  refine ⟨?_, ?_, ?_⟩
  · intro noValue
    exact loadCatalog_of_loadFormats (loadFormats_of_noValue inFile noValue)
  · intro batch error isValue faulty
    have loaded : directory.loadCatalog catalog = (catalog.abortRefresh, .error (.schema error)) :=
      loadCatalog_of_loadFormats (loadFormats_of_faultyBatch inFile isValue faulty)
    refine ⟨loaded, ?_⟩
    rw [loaded]
    exact Catalog.abortRefresh_eq_self_iff
  · intro batch formats isValue read
    exact ⟨_, _, loadFormats_of_batch inFile isValue read⟩

/-- The directory with nothing but a file of formats. -/
def withFormats (text : String) : Directory :=
  ⟨SortedMap.empty.insert formatsFile (.file (.ofString text))⟩

theorem inFile_withFormats (text : String) :
    (withFormats text).entries.get? formatsFile = some (.file (.ofString text)) := by
  rw [withFormats, SortedMap.get?_insert, if_pos rfl]

/-- A list in which the second record is no object leaves the formats of a catalog as they were. -/
theorem loadCatalog_of_faultyFormats_number :
    ∃ (text : String) (catalog : Catalog),
      text = "[\x7b\"id\":\"beep\",\"category\":0,\"lines\":[]\x7d,5]" ∧
        catalog.isRefreshing = false ∧ catalog.insertable = [.plain "honk" 0 []] ∧
          (withFormats text).loadCatalog catalog =
            (catalog, .error (.schema (.invalidRecord 1 .notAnObject))) := by
  let text := "[\x7b\"id\":\"beep\",\"category\":0,\"lines\":[]\x7d,5]"
  let catalog := Catalog.empty.registerFormats [.plain "honk" 0 []]
  let batch : Value := .array [.object [("category", .natural 0), ("id", .string "beep"),
    ("lines", .array [])], .natural 5]
  have isValue : Value.ofSymbols? (.ofString text) = some batch := by decide +kernel
  have faulty : formatsOfBatch batch = .error (.invalidRecord 1 .notAnObject) := rfl
  have failed := (loadCatalog_of_faultyFormats catalog (inFile_withFormats text)).2.1 batch _
    isValue faulty
  have settled : catalog.isRefreshing = false := rfl
  refine ⟨text, catalog, rfl, settled, by decide +kernel, ?_⟩
  rw [failed.1, Catalog.abortRefresh_settled settled]

/-- When a file that is no list is loaded during a refresh, the refresh is over, and the format that
it had retired is offered again. -/
theorem refresh_lost_by_loading :
    ∃ (text : String) (catalog after : Catalog),
      text = "5" ∧ catalog.isRefreshing = true ∧ catalog.insertable = [] ∧
        (withFormats text).loadCatalog catalog =
            (after, .error (.schema (.invalidRecord 0 .notABatch))) ∧
          after.isRefreshing = false ∧ after.insertable = [.plain "honk" 0 []] ∧
            after ≠ catalog := by
  let catalog := (Catalog.empty.registerFormats [.plain "honk" 0 []]).beginRefresh
  have isValue : Value.ofSymbols? (.ofString "5") = some (.natural 5) := by decide +kernel
  have failed : (withFormats "5").loadCatalog catalog =
      (catalog.abortRefresh, .error (.schema (.invalidRecord 0 .notABatch))) :=
    loadCatalog_of_loadFormats (loadFormats_of_faultyBatch (inFile_withFormats "5") isValue rfl)
  refine ⟨"5", catalog, _, rfl, rfl, by decide +kernel, failed,
    Catalog.isRefreshing_abortRefresh catalog, by decide +kernel, ?_⟩
  simp [Catalog.abortRefresh_eq_self_iff, catalog, Catalog.isRefreshing, Catalog.beginRefresh]

end Directory

end BlockEditor
