import BlockEditor.Proofs.Catalog.Keyed

/-!
# Deprecation marks

Beginning and aborting a refresh touch nothing of a format but its deprecation mark
(`Catalog.unmarked_lookup_marked`). Aborting a refresh puts back every mark, however often it has
begun again or its commit has failed since (`Catalog.abortRefresh_of_unfinished`), so an update with
faulty formats leaves the catalog as it was (`Catalog.applyUpdate_error`). What lies under an
identifier after formats have been registered is the last one of them with this identifier
(`Catalog.lookup_registerFormats`).
-/

namespace BlockEditor

open Json

namespace BlockFormat

/-- The format without a deprecation mark. -/
def unmarked (format : BlockFormat) : BlockFormat := { format with deprecated := false }

@[simp]
theorem lines_unmarked (format : BlockFormat) : format.unmarked.lines = format.lines := rfl

/-- The last format of a list with an identifier. -/
def lastNamed? (id : String) (formats : List BlockFormat) : Option BlockFormat :=
  formats.reverse.find? fun format => decide (format.id = id)

theorem id_of_lastNamed? {id : String} {formats : List BlockFormat} {format : BlockFormat}
    (found : lastNamed? id formats = some format) : format.id = id := by
  simpa using List.find?_some found

theorem isSome_lastNamed? {id : String} {formats : List BlockFormat} :
    (lastNamed? id formats).isSome = true ↔ id ∈ formats.map BlockFormat.id := by
  simp [lastNamed?, List.find?_isSome]

end BlockFormat

/-- The formats of the batch of a bundle, unless the bundle has none, it is the empty list, or it is
faulty. -/
def CatalogUpdate.formats? (update : CatalogUpdate) : Option (List BlockFormat) :=
  update.batch?.bind fun batch => (formatsOfBatch batch).toOption

namespace Catalog

variable {catalog after : Catalog} {update : CatalogUpdate} {id : String}

/-- After registering, the last of the formats with an identifier is found, or what was found
before. -/
theorem lookup_registerFormats (catalog : Catalog) (formats : List BlockFormat) (id : String) :
    (catalog.registerFormats formats).lookup id =
      (BlockFormat.lastNamed? id formats).or (catalog.lookup id) := by
  induction formats generalizing catalog with
  | nil => rfl
  | cons format formats ih =>
      rw [lookup_registerFormats_cons, ih, lookup_insert, BlockFormat.lastNamed?,
        BlockFormat.lastNamed?, List.reverse_cons, List.find?_append, Option.or_assoc]
      by_cases same : format.id = id
      · simp [same]
      · simp [same, Ne.symm same]

/-- The catalog with other marks is the same up to marks. -/
theorem unmarked_lookup_marked (catalog : Catalog) (mark : String → BlockFormat → Bool)
    (refresh : Option (SortedMap Bool)) (id : String) :
    (({ catalog with
        formats := catalog.formats.mapValues fun id format =>
          { format with deprecated := mark id format }
        refresh } : Catalog).lookup id).map BlockFormat.unmarked =
      (catalog.lookup id).map BlockFormat.unmarked := by
  simp only [lookup, SortedMap.get?_mapValues, Option.map_map]
  rfl

theorem unmarked_lookup_markAllDeprecated (catalog : Catalog) (id : String) :
    (catalog.markAllDeprecated.lookup id).map BlockFormat.unmarked =
      (catalog.lookup id).map BlockFormat.unmarked :=
  unmarked_lookup_marked catalog (fun _ _ => true) catalog.refresh id

theorem unmarked_lookup_beginRefresh (catalog : Catalog) (id : String) :
    (catalog.beginRefresh.lookup id).map BlockFormat.unmarked =
      (catalog.lookup id).map BlockFormat.unmarked :=
  unmarked_lookup_marked catalog (fun _ _ => true) _ id

theorem unmarked_lookup_abortRefresh (catalog : Catalog) (id : String) :
    (catalog.abortRefresh.lookup id).map BlockFormat.unmarked =
      (catalog.lookup id).map BlockFormat.unmarked := by
  rw [abortRefresh]
  split
  · rfl
  · rename_i marks _
    exact unmarked_lookup_marked catalog (fun id _ => (marks.get? id).getD false) none id

/-- A catalog is another one in the middle of a refresh in which only marks have been changed. It
remembers the marks of the other one. -/
structure Suspends (start catalog : Catalog) : Prop where
  /-- Under every identifier there is the same format up to its mark. -/
  formats : ∀ id, (catalog.lookup id).map BlockFormat.unmarked =
    (start.lookup id).map BlockFormat.unmarked
  /-- The marks that are remembered are those of the other catalog. -/
  marks : catalog.refresh = some (start.formats.mapValues fun _ format => format.deprecated)
  /-- The categories are the same. -/
  categories : catalog.categories = start.categories
  /-- Texts and active language are the same. -/
  labels : catalog.SameLabels start

variable {start : Catalog}

theorem suspends_beginRefresh (settled : start.refresh = none) :
    Suspends start start.beginRefresh where
  formats := unmarked_lookup_beginRefresh start
  marks := by simp [beginRefresh, settled]
  categories := rfl
  labels := ⟨rfl, rfl⟩

theorem Suspends.markAllDeprecated (suspends : Suspends start catalog) :
    Suspends start catalog.markAllDeprecated where
  formats id := (unmarked_lookup_markAllDeprecated catalog id).trans (suspends.formats id)
  marks := suspends.marks
  categories := suspends.categories
  labels := suspends.labels

/-- A refresh that begins again keeps the marks that are remembered. -/
theorem Suspends.beginRefresh (suspends : Suspends start catalog) :
    Suspends start catalog.beginRefresh where
  formats id := (unmarked_lookup_beginRefresh catalog id).trans (suspends.formats id)
  marks := by simp [Catalog.beginRefresh, suspends.marks]
  categories := suspends.categories
  labels := suspends.labels

/-- The marks that are remembered are all that is missing to the catalog of the beginning. -/
theorem Suspends.abortRefresh (suspends : Suspends start catalog) (settled : start.refresh = none) :
    catalog.abortRefresh = start := by
  have restored : ∀ id, catalog.abortRefresh.formats.get? id = start.formats.get? id := by
    intro id
    have sameFormat : (catalog.formats.get? id).map BlockFormat.unmarked =
        (start.formats.get? id).map BlockFormat.unmarked := suspends.formats id
    simp only [Catalog.abortRefresh, suspends.marks, SortedMap.get?_mapValues]
    cases known : catalog.formats.get? id with
    | none =>
        rw [known, Option.map_none, eq_comm, Option.map_eq_none_iff] at sameFormat
        rw [Option.map_none, sameFormat]
    | some format =>
        rw [known, Option.map_some, eq_comm, Option.map_eq_some_iff] at sameFormat
        rcases sameFormat with ⟨original, atStart, same⟩
        simp only [atStart, Option.map_some, Option.getD_some, Option.some.injEq]
        calc { format with deprecated := original.deprecated }
            = { format.unmarked with deprecated := original.deprecated } := rfl
          _ = { original.unmarked with deprecated := original.deprecated } := by rw [same]
          _ = original := rfl
  calc catalog.abortRefresh
      = ⟨catalog.abortRefresh.formats, catalog.categories, catalog.translations, catalog.language,
          none⟩ := by simp only [Catalog.abortRefresh, suspends.marks]
    _ = start := by
        rw [SortedMap.ext_get? restored, suspends.categories, suspends.labels.1,
          suspends.labels.2, ← settled]

/-- A refresh that is aborted at once leaves nothing. -/
theorem abortRefresh_beginRefresh (settled : catalog.isRefreshing = false) :
    catalog.beginRefresh.abortRefresh = catalog := by
  have noRefresh : catalog.refresh = none := by simpa [isRefreshing] using settled
  exact (suspends_beginRefresh noRefresh).abortRefresh noRefresh

/-- What a catalog becomes when a refresh begins and then begins again, all formats are marked or a
commit fails, any number of times. -/
inductive Unfinished (start : Catalog) : Catalog → Prop where
  /-- The refresh has begun. -/
  | begun : Unfinished start (Call.beginRefresh.apply start)
  /-- It begins again. -/
  | begunAgain {catalog : Catalog} (unfinished : Unfinished start catalog) :
      Unfinished start (Call.beginRefresh.apply catalog)
  /-- All formats are marked deprecated. -/
  | marked {catalog : Catalog} (unfinished : Unfinished start catalog) :
      Unfinished start (Call.markAllDeprecated.apply catalog)
  /-- A commit is answered with an error. -/
  | refused {catalog : Catalog} {batch : Value} {error : SchemaError}
      (unfinished : Unfinished start catalog)
      (failed : catalog.commitRefresh batch = .error error) :
      Unfinished start ((Call.commitRefresh batch).apply catalog)

/-- A refresh that is not finished suspends the catalog in which it has begun. -/
theorem suspends_of_unfinished (settled : start.refresh = none)
    (unfinished : Unfinished start catalog) : Suspends start catalog := by
  induction unfinished with
  | begun => exact suspends_beginRefresh settled
  | begunAgain _ ih => exact ih.beginRefresh
  | marked _ ih => exact ih.markAllDeprecated
  | refused _ failed ih =>
      rw [Call.apply, commitBatch_of_error failed]
      exact ih

/-- Aborting gives back the catalog in which the refresh has begun, however often it has begun again
since, formats have been marked and commits have failed. -/
theorem abortRefresh_of_unfinished (settled : start.isRefreshing = false)
    (unfinished : Unfinished start catalog) :
    Call.abortRefresh.apply catalog = start ∧
      (Call.abortRefresh.apply catalog).isRefreshing = false := by
  have noRefresh : start.refresh = none := by simpa [isRefreshing] using settled
  have restored : Call.abortRefresh.apply catalog = start :=
    (suspends_of_unfinished noRefresh unfinished).abortRefresh noRefresh
  exact ⟨restored, by rw [restored, settled]⟩

/-- A format that was offered before the refresh and one that was not are told apart again after the
refresh has begun twice, its commit has failed and it has been aborted. -/
theorem abortRefresh_after_failure :
    ∃ (start catalog : Catalog) (error : SchemaError),
      start.beginRefresh.commitRefresh (.array [.object []]) = .error error ∧
        start.isRefreshing = false ∧ Unfinished start catalog ∧ catalog.insertable = [] ∧
          (Call.abortRefresh.apply catalog).insertable = [.plain "beep" 0 []] ∧
            (Call.abortRefresh.apply catalog).allFormats.length = 2 := by
  let start : Catalog := Catalog.empty.registerFormats
    [.plain "beep" 0 [], { BlockFormat.plain "old" 0 [] with deprecated := true }]
  have failed : ∃ error,
      start.beginRefresh.commitRefresh (.array [.object []]) = .error error :=
    ⟨_, rfl⟩
  rcases failed with ⟨error, failed⟩
  have unfinished : Unfinished start
      (Call.beginRefresh.apply ((Call.commitRefresh (.array [.object []])).apply
        (Call.beginRefresh.apply start))) :=
    .begunAgain (.refused .begun failed)
  have restored := (abortRefresh_of_unfinished (by decide) unfinished).1
  refine ⟨start, _, error, failed, by decide, unfinished, ?_, ?_, ?_⟩
  · decide +kernel
  · rw [restored]
    decide +kernel
  · rw [restored]
    decide +kernel

/-- The catalog after a refresh that registers formats. -/
def refreshed (catalog : Catalog) (formats : List BlockFormat) : Catalog :=
  { catalog.beginRefresh.registerFormats formats with refresh := none }

theorem lookup_refreshed (catalog : Catalog) (formats : List BlockFormat) (id : String) :
    (catalog.refreshed formats).lookup id =
      (BlockFormat.lastNamed? id formats).or (catalog.beginRefresh.lookup id) :=
  lookup_registerFormats catalog.beginRefresh formats id

theorem Keyed.refreshed (keyed : catalog.Keyed) (formats : List BlockFormat) :
    (catalog.refreshed formats).Keyed :=
  keyed.beginRefresh.registerFormats formats

/-- A refresh that has just begun is committed if the batch is not faulty, and goes on otherwise. -/
theorem commitBatch_beginRefresh (catalog : Catalog) (batch : Value) :
    catalog.beginRefresh.commitBatch batch =
      match formatsOfBatch batch with
      | .ok formats => (catalog.refreshed formats, .ok (catalog.beginRefresh.summary formats))
      | .error error => (catalog.beginRefresh, .error error) := rfl

/-- A refresh that has just begun is committed if the batch is not faulty. -/
theorem commitRefresh_beginRefresh (catalog : Catalog) (batch : Value) :
    catalog.beginRefresh.commitRefresh batch = (formatsOfBatch batch).map fun formats =>
      (catalog.refreshed formats, catalog.beginRefresh.summary formats) := by
  have refreshing : catalog.beginRefresh.isRefreshing = true := rfl
  rw [commitRefresh, commitBatch, if_pos refreshing]
  cases formatsOfBatch batch <;> rfl

/-- An update that is answered with an error has aborted the refresh that it has begun. -/
theorem applyUpdate_aborted {error : SchemaError}
    (refused : catalog.applyUpdate update = (after, .error error)) :
    after = catalog.beginRefresh.abortRefresh := by
  rw [applyUpdate_eq] at refused
  split at refused
  · cases refused
  · split at refused
    · cases refused
    · cases refused
      rfl

/-- An update that is answered with an error changes nothing. -/
theorem applyUpdate_error {error : SchemaError} (settled : catalog.isRefreshing = false)
    (refused : catalog.applyUpdate update = (after, .error error)) : after = catalog :=
  (applyUpdate_aborted refused).trans (abortRefresh_beginRefresh settled)

/-- An update without an error adds its texts and categories; if it has formats, then these are
registered after all others have been marked deprecated. -/
theorem applyUpdate_ok {answer : Option RefreshSummary}
    (done : catalog.applyUpdate update = (after, .ok answer)) :
    (update.formats? = none ∧ after = catalog.applyTables update) ∨
      ∃ formats, update.formats? = some formats ∧
        after = (catalog.refreshed formats).applyTables update := by
  rw [applyUpdate_eq] at done
  split at done
  · rename_i noBatch
    cases done
    exact .inl ⟨by rw [CatalogUpdate.formats?, noBatch, Option.bind_none], rfl⟩
  · rename_i batch hasBatch
    split at done
    · rename_i refreshed summary committed
      cases done
      rcases commitRefresh_eq_ok.mp committed with ⟨_, formats, read, rfl, _⟩
      refine .inr ⟨formats, ?_, rfl⟩
      rw [CatalogUpdate.formats?, hasBatch, Option.bind_some, read]
      rfl
    · cases done

end Catalog

end BlockEditor
