import BlockEditor.Catalog.Refresh
import BlockEditor.Proofs.Except

/-!
# Everything that can be asked of a catalog

`Catalog.Call` lists the calls that may change a catalog, and `Catalog.Call.apply` gives the catalog
after one of them, also when the call is answered with an error. What is shown for a text depends on
the texts and the active language alone; the calls that touch neither are those that are about
formats and categories (`Catalog.Call.keepsLabels_apply`).
-/

namespace BlockEditor

open Json

namespace Catalog

/-- A call that may change a catalog. -/
inductive Call where
  | register (batch : Value)
  | registerText (text : String)
  | registerFormats (formats : List BlockFormat)
  | markAllDeprecated
  | beginRefresh
  | commitRefresh (batch : Value)
  | abortRefresh
  | applyUpdate (update : CatalogUpdate)
  | mergeCategories (categories : CategoryTable)
  | mergeTranslations (translations : Translations)
  | setLanguage (language : String)

/-- The catalog after a call. A call that is answered with an error leaves what the call itself
leaves. -/
def Call.apply (catalog : Catalog) : Call → Catalog
  | .register batch => (catalog.takeBatch batch).1
  | .registerText text => (catalog.takeText text).1
  | .registerFormats formats => catalog.registerFormats formats
  | .markAllDeprecated => catalog.markAllDeprecated
  | .beginRefresh => catalog.beginRefresh
  | .commitRefresh batch => (catalog.commitBatch batch).1
  | .abortRefresh => catalog.abortRefresh
  | .applyUpdate update => (catalog.applyUpdate update).1
  | .mergeCategories categories => catalog.mergeCategories categories
  | .mergeTranslations translations => catalog.mergeTranslations translations
  | .setLanguage language => catalog.setLanguage language

/-- Two catalogs have the same texts and the same active language. -/
def SameLabels (first second : Catalog) : Prop :=
  first.translations = second.translations ∧ first.language = second.language

/-- Whether a call is about formats and categories only. -/
def Call.keepsLabels : Call → Bool
  | .mergeTranslations _ => false
  | .setLanguage _ => false
  | .applyUpdate update => update.translations.isNone
  | _ => true

variable {catalog after : Catalog}

theorem SameLabels.trans {first second third : Catalog} (left : SameLabels first second)
    (right : SameLabels second third) : SameLabels first third :=
  ⟨left.1.trans right.1, left.2.trans right.2⟩

theorem answered_eq_ok {Answer : Type} {result : Catalog × Except SchemaError Answer}
    {answer : Answer} : answered result = .ok (after, answer) ↔ result = (after, .ok answer) := by
  rcases result with ⟨left, error | other⟩ <;> simp [answered, Except.map]

theorem answered_eq_error {Answer : Type} {result : Catalog × Except SchemaError Answer}
    {error : SchemaError} : answered result = .error error ↔ result.2 = .error error :=
  map_eq_error

theorem localize_of_sameLabels (same : SameLabels after catalog) :
    after.localize = catalog.localize := by
  funext text
  simp only [localize, same.1, same.2]

/-- Registering a batch leaves the texts and the active language, whether it is faulty or not. -/
theorem sameLabels_takeBatch (catalog : Catalog) (batch : Value) :
    SameLabels (catalog.takeBatch batch).1 catalog := by
  rw [takeBatch]
  split <;> exact ⟨rfl, rfl⟩

theorem sameLabels_takeText (catalog : Catalog) (text : String) :
    SameLabels (catalog.takeText text).1 catalog := by
  rw [takeText]
  split
  · exact sameLabels_takeBatch catalog _
  · exact ⟨rfl, rfl⟩

theorem sameLabels_commitBatch (catalog : Catalog) (batch : Value) :
    SameLabels (catalog.commitBatch batch).1 catalog := by
  rw [commitBatch]
  split
  · split <;> exact ⟨rfl, rfl⟩
  · exact ⟨rfl, rfl⟩

theorem sameLabels_abortRefresh (catalog : Catalog) : SameLabels catalog.abortRefresh catalog := by
  rw [abortRefresh]
  split <;> exact ⟨rfl, rfl⟩

theorem sameLabels_applyTables (catalog : Catalog) {update : CatalogUpdate}
    (noTexts : update.translations = none) : SameLabels (catalog.applyTables update) catalog := by
  rw [applyTables]
  rw [noTexts]
  cases update.categories <;> exact ⟨rfl, rfl⟩

/-- A call that is about formats and categories only keeps the texts and the active language. -/
theorem Call.keepsLabels_apply (call : Call) (keeps : call.keepsLabels = true) :
    SameLabels (call.apply catalog) catalog := by
  cases call with
  | register batch => exact sameLabels_takeBatch catalog batch
  | registerText text => exact sameLabels_takeText catalog text
  | registerFormats formats => exact ⟨rfl, rfl⟩
  | markAllDeprecated => exact ⟨rfl, rfl⟩
  | beginRefresh => exact ⟨rfl, rfl⟩
  | commitRefresh batch => exact sameLabels_commitBatch catalog batch
  | abortRefresh => exact sameLabels_abortRefresh catalog
  | applyUpdate update =>
      have noTexts : update.translations = none := Option.isNone_iff_eq_none.mp keeps
      rw [apply, Catalog.applyUpdate]
      split
      · exact sameLabels_applyTables catalog noTexts
      · rename_i batch _
        have committed := sameLabels_commitBatch catalog.beginRefresh batch
        rcases done : catalog.beginRefresh.commitBatch batch with ⟨left, error | summary⟩
        all_goals rw [done] at committed
        · exact (sameLabels_abortRefresh left).trans (committed.trans ⟨rfl, rfl⟩)
        · exact (sameLabels_applyTables left noTexts).trans (committed.trans ⟨rfl, rfl⟩)
  | mergeCategories categories => exact ⟨rfl, rfl⟩
  | mergeTranslations translations => cases keeps
  | setLanguage language => cases keeps

end Catalog

end BlockEditor
