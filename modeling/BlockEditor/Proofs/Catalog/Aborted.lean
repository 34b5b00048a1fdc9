import BlockEditor.Proofs.Catalog.Marks
import BlockEditor.Proofs.Catalog.Retired
import BlockEditor.Proofs.Schema.RoundTrip

/-!
# What aborting a refresh does

Aborting gives every format the mark that is remembered for it, so a refresh that begins within
another one and is aborted ends both (`Catalog.abortRefresh_begun`). Nothing is remembered for a
format that arrived during the refresh: its mark is taken away (`Catalog.arrived_of_abortRefresh`),
and a format that arrived deprecated is offered afterwards
(`Catalog.deprecated_arrival_is_offered`). An update with a faulty batch does nothing but abort the
refresh that goes on (`Catalog.applyUpdate_refused`).
-/

namespace BlockEditor

open Json

namespace Catalog

variable {catalog registered : Catalog}

theorem abortRefresh_settled (settled : catalog.isRefreshing = false) :
    catalog.abortRefresh = catalog := by
  have noRefresh : catalog.refresh = none := by simpa [isRefreshing] using settled
  simp [abortRefresh, noRefresh]

/-- Aborting changes nothing exactly if no refresh is going on. -/
theorem abortRefresh_eq_self_iff :
    catalog.abortRefresh = catalog ↔ catalog.isRefreshing = false := by
  constructor
  · intro same
    rw [← same]
    exact isRefreshing_abortRefresh catalog
  · exact abortRefresh_settled

/-- Beginning a refresh makes no difference to what aborting leaves, whether a refresh goes on
already or not. -/
theorem abortRefresh_begun (catalog : Catalog) :
    catalog.beginRefresh.abortRefresh = catalog.abortRefresh := by
  cases ongoing : catalog.refresh with
  | none =>
      have settled : catalog.isRefreshing = false := by simp [isRefreshing, ongoing]
      rw [abortRefresh_beginRefresh settled, abortRefresh_settled settled]
  | some marks =>
      simp only [abortRefresh, beginRefresh, markAllDeprecated, ongoing, Option.getD_some]
      congr 1
      apply SortedMap.ext_get?
      simp [SortedMap.get?_mapValues, Function.comp_def]

/-- What lies under an identifier after a refresh that registers formats and is aborted: the mark is
the one from before, and none if nothing lay there. -/
theorem lookup_abortRefresh_registerFormats (settled : catalog.isRefreshing = false)
    (formats : List BlockFormat) (id : String) :
    (catalog.beginRefresh.registerFormats formats).abortRefresh.lookup id =
      ((BlockFormat.lastNamed? id formats).or (catalog.lookup id)).map fun format =>
        { format with deprecated := (catalog.lookup id).any BlockFormat.deprecated } := by
  have noRefresh : catalog.refresh = none := by simpa [isRefreshing] using settled
  have remembered : (catalog.beginRefresh.registerFormats formats).refresh =
      some (catalog.formats.mapValues fun _ format => format.deprecated) := by
    simp [registerFormats, beginRefresh, noRefresh]
  have begun : catalog.beginRefresh.lookup id =
      (catalog.lookup id).map fun format => { format with deprecated := true } :=
    SortedMap.get?_mapValues catalog.formats _ id
  have found := lookup_registerFormats catalog.beginRefresh formats id
  rw [begun, lookup] at found
  rw [abortRefresh, remembered, lookup, SortedMap.get?_mapValues, found,
    SortedMap.get?_mapValues, ← lookup]
  cases BlockFormat.lastNamed? id formats <;> cases catalog.lookup id <;> rfl

/-- When a batch is registered during a refresh and the refresh is aborted, each of its formats is
there afterwards, but not with its own mark. A format that was not known before has no mark, so it
is the one of the batch exactly if that one is not deprecated; a format that was known has the mark
from before. All others are as before. -/
theorem arrived_of_abortRefresh {batch : Value} {count : Nat}
    (settled : catalog.isRefreshing = false)
    (done : catalog.beginRefresh.register batch = .ok (registered, count)) :
    ∃ formats, formatsOfBatch batch = .ok formats ∧
      (∀ id format, catalog.lookup id = none → BlockFormat.lastNamed? id formats = some format →
        registered.abortRefresh.lookup id = some format.unmarked ∧
          (registered.abortRefresh.lookup id = some format ↔ format.deprecated = false)) ∧
      (∀ id known format, catalog.lookup id = some known →
        BlockFormat.lastNamed? id formats = some format →
          registered.abortRefresh.lookup id =
            some { format with deprecated := known.deprecated }) ∧
      ∀ id ∉ formats.map BlockFormat.id,
        registered.abortRefresh.lookup id = catalog.lookup id := by
  rcases register_eq_ok.mp done with ⟨formats, read, rfl, _⟩
  have found := lookup_abortRefresh_registerFormats settled formats
  refine ⟨formats, read, ?_, ?_, ?_⟩
  · intro id format unknown named
    have arrived : (catalog.beginRefresh.registerFormats formats).abortRefresh.lookup id =
        some format.unmarked := by
      simp [found, unknown, named, BlockFormat.unmarked]
    refine ⟨arrived, ?_⟩
    rw [arrived, Option.some.injEq]
    constructor
    · intro same
      rw [← same]
      rfl
    · intro offered
      simp [BlockFormat.unmarked, ← offered]
  · intro id known format isKnown named
    simp [found, isKnown, named]
  · intro id notMem
    rw [← BlockFormat.isSome_lastNamed?, Option.not_isSome_iff_eq_none] at notMem
    rw [found, notMem, Option.none_or]
    cases catalog.lookup id <;> rfl

/-- A format that arrives during a refresh stays what it is when the refresh is aborted, and a
format that was offered before is offered again. -/
theorem arrived_of_abortRefresh_beep :
    ∃ (catalog registered : Catalog) (batch : Value),
      catalog.isRefreshing = false ∧ catalog.insertable = [.plain "honk" 0 []] ∧
        catalog.beginRefresh.register batch = .ok (registered, 1) ∧
          registered.insertable = [.plain "beep" 0 []] ∧
            registered.abortRefresh.lookup "beep" = some (.plain "beep" 0 []) ∧
              registered.abortRefresh.lookup "honk" = some (.plain "honk" 0 []) := by
  let beep := BlockFormat.plain "beep" 0 []
  let catalog := Catalog.empty.registerFormats [.plain "honk" 0 []]
  let batch := (batchOfFormats [beep]).sorted
  have read : formatsOfBatch batch = .ok [beep] :=
    formatsOfBatch_sorted (by simp [beep, BlockFormat.HasSlots, BlockFormat.plain])
  have done : catalog.beginRefresh.register batch =
      .ok (catalog.beginRefresh.registerFormats [beep], 1) :=
    register_eq_ok.mpr ⟨[beep], read, rfl, rfl⟩
  rcases arrived_of_abortRefresh rfl done with ⟨formats, readAs, arrived, _, others⟩
  cases readAs.symm.trans read
  have beepThere := (arrived "beep" beep (by decide +kernel) rfl).2.mpr rfl
  have honkThere := others "honk" (by decide)
  exact ⟨catalog, _, batch, rfl, by decide +kernel, done, by decide +kernel, beepThere, honkThere⟩

/-- A format that arrives deprecated during a refresh is offered when the refresh is aborted, and is
not the one that the batch declares. -/
theorem deprecated_arrival_is_offered :
    ∃ (catalog registered : Catalog) (batch : Value) (format : BlockFormat),
      catalog.isRefreshing = false ∧ catalog.lookup format.id = none ∧
        catalog.beginRefresh.register batch = .ok (registered, 1) ∧
          formatsOfBatch batch = .ok [format] ∧ format.deprecated = true ∧
            registered.abortRefresh.lookup format.id ≠ some format ∧
              registered.abortRefresh.insertable = [format.unmarked] := by
  let format : BlockFormat := { BlockFormat.plain "beep" 0 [] with deprecated := true }
  let batch := (batchOfFormats [format]).sorted
  have read : formatsOfBatch batch = .ok [format] :=
    formatsOfBatch_sorted (by simp [format, BlockFormat.HasSlots, BlockFormat.plain])
  have done : empty.beginRefresh.register batch =
      .ok (empty.beginRefresh.registerFormats [format], 1) :=
    register_eq_ok.mpr ⟨[format], read, rfl, rfl⟩
  exact ⟨empty, _, batch, format, rfl, rfl, done, read, rfl, by decide +kernel, by decide +kernel⟩

theorem categories_abortRefresh (catalog : Catalog) :
    catalog.abortRefresh.categories = catalog.categories := by
  rw [abortRefresh]
  split <;> rfl

/-- An update is answered with an error exactly if it has a batch and the batch is faulty. The error
is the one of the batch. -/
theorem applyUpdate_eq_error {update : CatalogUpdate} {error : SchemaError} :
    (catalog.applyUpdate update).2 = .error error ↔
      ∃ batch, update.batch? = some batch ∧ formatsOfBatch batch = .error error := by
  cases hasBatch : update.batch? with
  | none => simp [applyUpdate_eq, hasBatch]
  | some batch =>
      cases read : formatsOfBatch batch <;>
        simp [applyUpdate_eq, hasBatch, commitRefresh_beginRefresh, read, Except.map]

/-- An update is refused exactly if its batch is faulty. Then the refresh that goes on is aborted,
and nothing else is changed: a mark that was remembered at its beginning is put back, and no text
and no category of the update is taken over. Outside a refresh the catalog stays as it was. -/
theorem applyUpdate_refused (catalog : Catalog) (update : CatalogUpdate) (error : SchemaError) :
    ((catalog.applyUpdate update).2 = .error error ↔
        ∃ batch, update.batch? = some batch ∧ formatsOfBatch batch = .error error) ∧
      ((catalog.applyUpdate update).2 = .error error →
        (catalog.applyUpdate update).1 = Call.abortRefresh.apply catalog ∧
          (catalog.applyUpdate update).1.categories = catalog.categories ∧
          (catalog.applyUpdate update).1.SameLabels catalog ∧
            (catalog.isRefreshing = false → (catalog.applyUpdate update).1 = catalog)) := by
  refine ⟨applyUpdate_eq_error, ?_⟩
  intro refused
  have aborted : (catalog.applyUpdate update).1 = catalog.abortRefresh :=
    (applyUpdate_aborted (Prod.ext rfl refused)).trans (abortRefresh_begun catalog)
  rw [aborted]
  exact ⟨rfl, categories_abortRefresh catalog, sameLabels_abortRefresh catalog,
    abortRefresh_settled⟩

/-- A refresh goes on that has begun with a deprecated format and one that is not, and another one
has arrived since. A faulty update with a category puts back the two marks and leaves out the
category. -/
theorem applyUpdate_refused_midway :
    ∃ (catalog : Catalog) (update : CatalogUpdate) (error : SchemaError),
      catalog.isRefreshing = true ∧ catalog.insertable.map BlockFormat.id = ["beep"] ∧
        update.categories = some [⟨"Sound", 7⟩] ∧
          (catalog.applyUpdate update).2 = .error error ∧
            (catalog.applyUpdate update).1 = Call.abortRefresh.apply catalog ∧
              (catalog.applyUpdate update).1.categories = [] ∧
                (catalog.applyUpdate update).1.insertable.map BlockFormat.id = ["beep", "honk"] ∧
                  (catalog.applyUpdate update).1.contains "old" = true := by
  let catalog := run
    [.registerFormats
        [.plain "honk" 0 [], { BlockFormat.plain "old" 0 [] with deprecated := true }],
      .beginRefresh, .registerFormats [.plain "beep" 0 []]]
  let update : CatalogUpdate :=
    { formats := some (.array [.object []]), categories := some [⟨"Sound", 7⟩] }
  have faulty : ∃ error, formatsOfBatch (.array [.object []]) = .error error := ⟨_, rfl⟩
  rcases faulty with ⟨error, faulty⟩
  rcases applyUpdate_refused catalog update error with ⟨refused_iff, leaves⟩
  have refused := refused_iff.mpr ⟨_, rfl, faulty⟩
  rcases leaves refused with ⟨aborted, noCategories, _, _⟩
  refine ⟨catalog, update, error, rfl, by decide +kernel, rfl, refused, aborted, noCategories,
    ?_, ?_⟩
  · rw [aborted]
    decide +kernel
  · rw [aborted]
    decide +kernel

end Catalog

end BlockEditor
