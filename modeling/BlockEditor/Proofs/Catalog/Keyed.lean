import BlockEditor.Proofs.Catalog.Run

/-!
# Looking up formats

What a catalog offers is listed by value, what it knows is asked by identifier. The two views agree
because every format is stored under its own identifier: this holds of the catalog without entries,
and every call keeps it (`Catalog.keyed_run`). A run is a list of calls to the catalog without
entries. A registered format is the one that is found under its identifier afterwards, and all
others are found as before (`Catalog.lookup_registerFormats_cons`).
-/

namespace BlockEditor

open Json

namespace Catalog

variable {catalog after : Catalog} {id : String} {format : BlockFormat}

/-- The catalog after a list of calls, some of which may be answered with an error. -/
def run (calls : List Call) : Catalog := calls.foldl Call.apply empty

/-- Offered are the formats that are known and not deprecated. -/
theorem mem_insertable_iff :
    format ∈ catalog.insertable ↔
      ∃ id, catalog.lookup id = some format ∧ format.deprecated = false := by
  simp [insertable, allFormats, lookup, SortedMap.mem_values_iff]

/-- What is offered under an identifier, in terms of what lies there. -/
theorem offered_iff_lookup (keyed : catalog.Keyed) (id : String) :
    (∃ format ∈ catalog.insertable, format.id = id) ↔
      ∃ format, catalog.lookup id = some format ∧ format.deprecated = false := by
  constructor
  · rintro ⟨format, formatMem, rfl⟩
    rcases mem_insertable_iff.mp formatMem with ⟨id, found, offered⟩
    exact ⟨format, (keyed id format found).symm ▸ found, offered⟩
  · rintro ⟨format, found, offered⟩
    exact ⟨format, mem_insertable_iff.mpr ⟨id, found, offered⟩, keyed id format found⟩

/-- In a catalog with each format under its own identifier, the formats alone give the entries. -/
theorem entries_of_keyed (keyed : catalog.Keyed) :
    catalog.allFormats.map (fun format => (format.id, format)) = catalog.formats.entries := by
  have sameEntry : ∀ entry ∈ catalog.formats.entries, (entry.2.id, entry.2) = entry := by
    rintro ⟨id, format⟩ entryMem
    rw [keyed id format ((SortedMap.mem_entries_iff _ id format).mp entryMem)]
  rw [allFormats, SortedMap.values, List.map_map]
  exact (List.map_congr_left sameEntry).trans (List.map_id _)

theorem ids_of_keyed (keyed : catalog.Keyed) :
    catalog.allFormats.map BlockFormat.id = catalog.formats.keys := by
  rw [SortedMap.keys, ← entries_of_keyed keyed, List.map_map]
  rfl

theorem lookup_registerFormats_cons (catalog : Catalog) (format : BlockFormat)
    (formats : List BlockFormat) :
    catalog.registerFormats (format :: formats) =
      ({ catalog with formats := catalog.formats.insert format.id format } :
        Catalog).registerFormats formats := rfl

theorem lookup_insert (catalog : Catalog) (format : BlockFormat) (id : String) :
    ({ catalog with formats := catalog.formats.insert format.id format } : Catalog).lookup id =
      if id = format.id then some format else catalog.lookup id :=
  SortedMap.get?_insert catalog.formats format.id id format

/-- A format that is not registered is found as before. -/
theorem lookup_registerFormats_of_notMem {formats : List BlockFormat}
    (notMem : id ∉ formats.map BlockFormat.id) :
    (catalog.registerFormats formats).lookup id = catalog.lookup id := by
  induction formats generalizing catalog with
  | nil => rfl
  | cons format formats ih =>
      rw [List.map_cons, List.mem_cons, not_or] at notMem
      rw [lookup_registerFormats_cons, ih notMem.2, lookup_insert, if_neg notMem.1]

/-- The formats that a call registers. What a refresh registers at its end is not meant: it is no
addition to what is offered, but takes its place. -/
def Call.registered : Call → List BlockFormat
  | .register batch => (formatsOfBatch batch).toOption.getD []
  | .registerText text =>
      ((Value.ofText? text).bind fun batch => (formatsOfBatch batch).toOption).getD []
  | .registerFormats formats => formats
  | _ => []

theorem apply_register (catalog : Catalog) (batch : Value) :
    (Call.register batch).apply catalog =
      catalog.registerFormats (Call.register batch).registered := by
  rw [Call.apply, Catalog.takeBatch, Call.registered]
  cases formatsOfBatch batch <;> rfl

theorem apply_registerText (catalog : Catalog) (text : String) :
    (Call.registerText text).apply catalog =
      catalog.registerFormats (Call.registerText text).registered := by
  rw [Call.apply, Catalog.takeText, Call.registered]
  cases Value.ofText? text with
  | none => rfl
  | some batch => exact apply_register catalog batch

theorem register_eq_ok {batch : Value} {count : Nat} :
    catalog.register batch = .ok (after, count) ↔ ∃ formats, formatsOfBatch batch = .ok formats ∧
      catalog.registerFormats formats = after ∧ formats.length = count := by
  rw [register, answered_eq_ok, takeBatch]
  cases formatsOfBatch batch <;> simp

theorem register_eq_error {batch : Value} {error : SchemaError} :
    catalog.register batch = .error error ↔ formatsOfBatch batch = .error error := by
  rw [register, answered_eq_error, takeBatch]
  cases formatsOfBatch batch <;> simp

/-- A commit that fails leaves the catalog as it is; any other gives the catalog afterwards. -/
theorem commitBatch_cases (catalog : Catalog) (batch : Value) :
    (∃ error, catalog.commitRefresh batch = .error error ∧
        catalog.commitBatch batch = (catalog, .error error)) ∨
      ∃ after summary, catalog.commitRefresh batch = .ok (after, summary) ∧
        catalog.commitBatch batch = (after, .ok summary) := by
  rw [commitRefresh]
  rcases result : catalog.commitBatch batch with ⟨after, error | summary⟩
  · rw [commitBatch] at result
    split at result
    · split at result <;> cases result
      exact .inl ⟨error, rfl, rfl⟩
    · cases result
      exact .inl ⟨_, rfl, rfl⟩
  · exact .inr ⟨after, summary, rfl, rfl⟩

/-- A commit that fails leaves the catalog as it is. -/
theorem commitBatch_of_error {batch : Value} {error : SchemaError}
    (failed : catalog.commitRefresh batch = .error error) :
    catalog.commitBatch batch = (catalog, .error error) := by
  rcases commitBatch_cases catalog batch with ⟨_, failedWith, result⟩ | ⟨_, _, done, _⟩
  · cases failed.symm.trans failedWith
    exact result
  · cases failed.symm.trans done

/-- An update commits its batch or aborts the refresh that it has begun. -/
theorem applyUpdate_eq (catalog : Catalog) (update : CatalogUpdate) :
    catalog.applyUpdate update =
      match update.batch? with
      | none => (catalog.applyTables update, .ok none)
      | some batch =>
        match catalog.beginRefresh.commitRefresh batch with
        | .ok (refreshed, summary) => (refreshed.applyTables update, .ok (some summary))
        | .error error => (catalog.beginRefresh.abortRefresh, .error error) := by
  rw [applyUpdate]
  cases update.batch? with
  | none => rfl
  | some batch =>
      rcases commitBatch_cases catalog.beginRefresh batch with
        ⟨_, failed, result⟩ | ⟨_, _, done, result⟩
      · simp only [result, failed]
      · simp only [result, done]

/-- A refresh is committed if it has begun and the batch is not faulty. Then the batch is registered
and the refresh is over. -/
theorem commitRefresh_eq_ok {batch : Value} {summary : RefreshSummary} :
    catalog.commitRefresh batch = .ok (after, summary) ↔
      catalog.isRefreshing = true ∧ ∃ formats, formatsOfBatch batch = .ok formats ∧
        after = { catalog.registerFormats formats with refresh := none } ∧
          summary = catalog.summary formats := by
  rw [commitRefresh, answered_eq_ok, commitBatch]
  cases catalog.isRefreshing with
  | false => simp
  | true => cases formatsOfBatch batch <;> simp [eq_comm]

/-- A commit fails outside a refresh, and in a refresh if the batch is faulty. -/
theorem commitRefresh_eq_error {batch : Value} {error : SchemaError} :
    catalog.commitRefresh batch = .error error ↔
      (catalog.isRefreshing = false ∧ error = .noRefreshInProgress) ∨
        (catalog.isRefreshing = true ∧ formatsOfBatch batch = .error error) := by
  rw [commitRefresh, answered_eq_error, commitBatch]
  cases catalog.isRefreshing with
  | false => simp [eq_comm]
  | true => cases formatsOfBatch batch <;> simp

/-- Registering puts each format under its own identifier. -/
theorem Keyed.registerFormats (keyed : catalog.Keyed) (formats : List BlockFormat) :
    (catalog.registerFormats formats).Keyed := by
  induction formats generalizing catalog with
  | nil => exact keyed
  | cons format formats ih =>
      rw [lookup_registerFormats_cons]
      apply ih
      intro id other found
      have found : (if id = format.id then some format else catalog.lookup id) = some other :=
        (lookup_insert catalog format id).symm.trans found
      split at found
      · rename_i same
        cases found
        exact same.symm
      · exact keyed id other found

/-- Formats that are only marked otherwise stay under their identifiers. -/
theorem Keyed.marked (keyed : catalog.Keyed) (mark : String → BlockFormat → Bool)
    (refresh : Option (SortedMap Bool)) :
    ({ catalog with
      formats := catalog.formats.mapValues fun id format =>
        { format with deprecated := mark id format }
      refresh } : Catalog).Keyed := by
  intro id format found
  rw [SortedMap.get?_mapValues, Option.map_eq_some_iff] at found
  rcases found with ⟨old, atId, rfl⟩
  exact keyed id old atId

theorem Keyed.beginRefresh (keyed : catalog.Keyed) : catalog.beginRefresh.Keyed :=
  keyed.marked (fun _ _ => true) _

theorem Keyed.abortRefresh (keyed : catalog.Keyed) : catalog.abortRefresh.Keyed := by
  rw [Catalog.abortRefresh]
  split
  · exact keyed
  · rename_i marks _
    exact keyed.marked (fun id _ => (marks.get? id).getD false) none

theorem Keyed.applyTables (keyed : catalog.Keyed) (update : CatalogUpdate) :
    (catalog.applyTables update).Keyed := by
  rw [Catalog.applyTables]
  cases update.translations <;> cases update.categories <;> exact keyed

theorem Keyed.commitRefresh (keyed : catalog.Keyed) {batch : Value} {summary : RefreshSummary}
    (done : catalog.commitRefresh batch = .ok (after, summary)) : after.Keyed := by
  rcases commitRefresh_eq_ok.mp done with ⟨_, formats, _, rfl, _⟩
  exact keyed.registerFormats formats

/-- Every call leaves each format under its own identifier. -/
theorem Keyed.apply (keyed : catalog.Keyed) (call : Call) : (call.apply catalog).Keyed := by
  cases call with
  | register batch =>
      rw [apply_register]
      exact keyed.registerFormats _
  | registerText text =>
      rw [apply_registerText]
      exact keyed.registerFormats _
  | registerFormats formats => exact keyed.registerFormats formats
  | markAllDeprecated => exact keyed.marked (fun _ _ => true) catalog.refresh
  | beginRefresh => exact keyed.beginRefresh
  | commitRefresh batch =>
      rw [Call.apply]
      rcases commitBatch_cases catalog batch with ⟨_, _, result⟩ | ⟨after, _, done, result⟩
      · rw [result]
        exact keyed
      · rw [result]
        exact keyed.commitRefresh done
  | abortRefresh => exact keyed.abortRefresh
  | applyUpdate update =>
      rw [Call.apply, applyUpdate_eq]
      split
      · exact keyed.applyTables update
      · split
        · rename_i refreshed summary done
          exact (keyed.beginRefresh.commitRefresh done).applyTables update
        · exact keyed.beginRefresh.abortRefresh
  | mergeCategories categories => exact keyed
  | mergeTranslations translations => exact keyed
  | setLanguage language => exact keyed

/-- After any calls each format lies under its own identifier. -/
theorem keyed_run (calls : List Call) : (run calls).Keyed := by
  have kept : ∀ catalog : Catalog, catalog.Keyed → (calls.foldl Call.apply catalog).Keyed := by
    induction calls with
    | nil => exact fun _ keyed => keyed
    | cons call calls ih => exact fun catalog keyed => ih _ (keyed.apply call)
  apply kept
  intro id format found
  cases found

end Catalog

end BlockEditor
