import BlockEditor.Proofs.Catalog.Marks
import BlockEditor.Proofs.Catalog.Retired

/-!
# Formats that a call leaves alone

A call may register formats, by itself or at the end of a refresh (`Catalog.Call.brought`). Whatever
lies under any other identifier stays there: the call touches nothing of it but its deprecation mark
(`Catalog.unmarked_lookup_apply`).
-/

namespace BlockEditor

open Json

namespace Catalog

variable {catalog : Catalog} {id : String}

/-- All formats that a call registers. A call that is answered with an error registers none. -/
def Call.brought (catalog : Catalog) : Call → List BlockFormat
  | .commitRefresh batch =>
    if catalog.isRefreshing then (formatsOfBatch batch).toOption.getD [] else []
  | .applyUpdate update => update.formats?.getD []
  | call => call.registered

/-- A commit leaves what lies under an identifier that its batch does not have. -/
theorem unmarked_lookup_commitRefresh {batch : Value}
    (notMem : id ∉ ((Call.commitRefresh batch).brought catalog).map BlockFormat.id) :
    (((Call.commitRefresh batch).apply catalog).lookup id).map BlockFormat.unmarked =
      (catalog.lookup id).map BlockFormat.unmarked := by
  rw [Call.apply]
  rcases commitBatch_cases catalog batch with ⟨_, _, result⟩ | ⟨_, _, done, result⟩
  · rw [result]
  · rcases commitRefresh_eq_ok.mp done with ⟨refreshing, formats, read, rfl, _⟩
    have brought : (Call.commitRefresh batch).brought catalog = formats := by
      simp [Call.brought, refreshing, read, Except.toOption]
    rw [brought] at notMem
    rw [result]
    exact congrArg (Option.map BlockFormat.unmarked) (lookup_registerFormats_of_notMem notMem)

/-- An update leaves what lies under an identifier that its batch does not have, up to its mark. -/
theorem unmarked_lookup_applyUpdate {update : CatalogUpdate}
    (notMem : id ∉ ((Call.applyUpdate update).brought catalog).map BlockFormat.id) :
    (((Call.applyUpdate update).apply catalog).lookup id).map BlockFormat.unmarked =
      (catalog.lookup id).map BlockFormat.unmarked := by
  rw [Call.apply]
  rcases done : catalog.applyUpdate update with ⟨after, error | answer⟩
  · rw [applyUpdate_aborted done, unmarked_lookup_abortRefresh, unmarked_lookup_beginRefresh]
  · rcases applyUpdate_ok done with ⟨_, rfl⟩ | ⟨formats, read, rfl⟩
    · rw [lookup, formats_applyTables, ← lookup]
    · rw [Call.brought, read, Option.getD_some, ← BlockFormat.isSome_lastNamed?,
        Option.not_isSome_iff_eq_none] at notMem
      rw [lookup, formats_applyTables, ← lookup, lookup_refreshed, notMem, Option.none_or,
        unmarked_lookup_beginRefresh]

/-- What lies under an identifier stays there, up to its mark, unless a call registers a format with
this identifier. -/
theorem unmarked_lookup_apply (call : Call)
    (notMem : id ∉ (call.brought catalog).map BlockFormat.id) :
    ((call.apply catalog).lookup id).map BlockFormat.unmarked =
      (catalog.lookup id).map BlockFormat.unmarked := by
  cases call with
  | register batch =>
      rw [apply_register]
      exact congrArg _ (lookup_registerFormats_of_notMem notMem)
  | registerText text =>
      rw [apply_registerText]
      exact congrArg _ (lookup_registerFormats_of_notMem notMem)
  | registerFormats formats => exact congrArg _ (lookup_registerFormats_of_notMem notMem)
  | markAllDeprecated => exact unmarked_lookup_markAllDeprecated catalog id
  | beginRefresh => exact unmarked_lookup_beginRefresh catalog id
  | commitRefresh batch => exact unmarked_lookup_commitRefresh notMem
  | abortRefresh => exact unmarked_lookup_abortRefresh catalog id
  | applyUpdate update => exact unmarked_lookup_applyUpdate notMem
  | mergeCategories categories => rfl
  | mergeTranslations translations => rfl
  | setLanguage language => rfl

end Catalog

end BlockEditor
