import BlockEditor.Proofs.Catalog.Keyed

/-!
# What a refresh retires

When a refresh begins, every format is marked deprecated, so nothing is offered. What is offered
when it ends is what has been registered in between and what its batch brings. `offeredSince` reads
off a list of calls what has been registered and not deprecated since all formats were marked for
the last time, and during a refresh these are the formats that are offered
(`Catalog.offers_run`). A refresh therefore retires all that its batch leaves out exactly if nothing
of the kind has been registered in between (`Catalog.retired_of_commitRefresh`).
-/

namespace BlockEditor

open Json

namespace Catalog

variable {catalog after : Catalog} {ids : List String}

/-- What is offered after a format has been registered. -/
def offer (ids : List String) (format : BlockFormat) : List String :=
  if format.deprecated then ids.filter (· != format.id) else format.id :: ids

/-- Whether a call marks all formats deprecated. -/
def Call.marksAll : Call → Bool
  | .markAllDeprecated | .beginRefresh => true
  | _ => false

/-- What is offered after a call, given what was offered before, as long as a refresh goes on. -/
def Call.offered (ids : List String) (call : Call) : List String :=
  if call.marksAll then [] else call.registered.foldl offer ids

/-- The identifiers of the formats that were registered and not deprecated since the last call that
marked all formats deprecated. -/
def offeredSince (calls : List Call) : List String := calls.foldl Call.offered []

/-- A catalog offers the formats with the given identifiers. -/
def Offers (catalog : Catalog) (ids : List String) : Prop :=
  ∀ id, id ∈ ids ↔ ∃ format, catalog.lookup id = some format ∧ format.deprecated = false

/-- A registered format is offered unless it is deprecated; all others are offered as before. -/
theorem mem_offer_iff {format : BlockFormat} {id : String} :
    id ∈ offer ids format ↔ if id = format.id then format.deprecated = false else id ∈ ids := by
  rw [offer]
  by_cases same : id = format.id
  · subst same
    cases deprecated : format.deprecated <;> simp
  · cases deprecated : format.deprecated <;> simp [same]

/-- Registering formats offers them one after the other. -/
theorem Offers.registerFormats (offers : catalog.Offers ids) (formats : List BlockFormat) :
    (catalog.registerFormats formats).Offers (formats.foldl offer ids) := by
  induction formats generalizing catalog ids with
  | nil => exact offers
  | cons format formats ih =>
      rw [lookup_registerFormats_cons]
      apply ih
      intro id
      rw [mem_offer_iff, lookup_insert]
      by_cases same : id = format.id
      · simp [same]
      · simp [same, offers id]

theorem offers_markAllDeprecated (catalog : Catalog) : catalog.markAllDeprecated.Offers [] := by
  intro id
  simp [markAllDeprecated, lookup, SortedMap.get?_mapValues]

theorem isRefreshing_abortRefresh (catalog : Catalog) :
    catalog.abortRefresh.isRefreshing = false := by
  rw [abortRefresh, isRefreshing]
  cases ongoing : catalog.refresh with
  | none => simp [ongoing]
  | some marks => rfl

theorem formats_applyTables (catalog : Catalog) (update : CatalogUpdate) :
    (catalog.applyTables update).formats = catalog.formats := by
  rw [applyTables]
  cases update.translations <;> cases update.categories <;> rfl

theorem refresh_applyTables (catalog : Catalog) (update : CatalogUpdate) :
    (catalog.applyTables update).refresh = catalog.refresh := by
  rw [applyTables]
  cases update.translations <;> cases update.categories <;> rfl

theorem offers_applyTables (update : CatalogUpdate) :
    (catalog.applyTables update).Offers ids ↔ catalog.Offers ids := by
  simp only [Offers, lookup, formats_applyTables]

/-- No refresh goes on after an update with formats, be they faulty or not. -/
theorem isRefreshing_applyUpdate {update : CatalogUpdate} {batch : Value}
    (hasBatch : update.batch? = some batch) :
    (catalog.applyUpdate update).1.isRefreshing = false := by
  simp only [applyUpdate_eq, hasBatch]
  split
  · rename_i refreshed summary done
    rcases commitRefresh_eq_ok.mp done with ⟨_, formats, _, ended, _⟩
    simp only [isRefreshing, refresh_applyTables, ended, Option.isSome_none]
  · exact isRefreshing_abortRefresh catalog.beginRefresh

/-- While a refresh goes on, a call changes what is offered by what it registers or marks. -/
theorem Offers.apply (offers : catalog.isRefreshing = true → catalog.Offers ids) (call : Call)
    (refreshing : (call.apply catalog).isRefreshing = true) :
    (call.apply catalog).Offers (call.offered ids) := by
  cases call with
  | register batch =>
      rw [apply_register] at refreshing ⊢
      exact (offers refreshing).registerFormats _
  | registerText text =>
      rw [apply_registerText] at refreshing ⊢
      exact (offers refreshing).registerFormats _
  | registerFormats formats => exact (offers refreshing).registerFormats formats
  | markAllDeprecated => exact offers_markAllDeprecated catalog
  | beginRefresh => exact offers_markAllDeprecated catalog
  | commitRefresh batch =>
      rw [Call.apply] at refreshing ⊢
      rcases commitBatch_cases catalog batch with ⟨_, _, result⟩ | ⟨_, _, done, result⟩
      · rw [result] at refreshing ⊢
        exact offers refreshing
      · rcases commitRefresh_eq_ok.mp done with ⟨_, formats, _, ended, _⟩
        rw [result] at refreshing
        simp [ended, isRefreshing] at refreshing
  | abortRefresh =>
      rw [Call.apply, isRefreshing_abortRefresh] at refreshing
      cases refreshing
  | applyUpdate update =>
      rw [Call.apply] at refreshing ⊢
      cases hasBatch : update.batch? with
      | none =>
          simp only [applyUpdate_eq, hasBatch] at refreshing ⊢
          rw [isRefreshing, refresh_applyTables] at refreshing
          exact (offers_applyTables update).mpr (offers refreshing)
      | some batch =>
          rw [isRefreshing_applyUpdate hasBatch] at refreshing
          cases refreshing
  | mergeCategories categories => exact offers refreshing
  | mergeTranslations translations => exact offers refreshing
  | setLanguage language => exact offers refreshing

/-- During a refresh exactly those formats are offered that were registered and not deprecated since
all formats were marked for the last time. -/
theorem offers_run (calls : List Call) (refreshing : (run calls).isRefreshing = true) :
    (run calls).Offers (offeredSince calls) := by
  -- Outside a refresh the list says nothing: an aborted refresh puts back marks from before it.
  have kept : ∀ (catalog : Catalog) (ids : List String),
      (catalog.isRefreshing = true → catalog.Offers ids) →
        (calls.foldl Call.apply catalog).isRefreshing = true →
          (calls.foldl Call.apply catalog).Offers (calls.foldl Call.offered ids) := by
    clear refreshing
    induction calls with
    | nil => exact fun _ _ offers => offers
    | cons call calls ih => exact fun catalog ids offers => ih _ _ (Offers.apply offers call)
  apply kept empty [] ?_ refreshing
  intro never
  cases never

/-- A refresh retires what its batch leaves out, in what is offered and in what its summary says,
exactly if everything that is offered when it ends, for it was registered in between, is in the
batch as well. -/
theorem retired_of_commitRefresh {calls : List Call} {batch : Value} {summary : RefreshSummary}
    (committed : (run calls).commitRefresh batch = .ok (after, summary)) :
    ∃ formats, formatsOfBatch batch = .ok formats ∧
      (((∀ format ∈ after.insertable, format.id ∈ formats.map BlockFormat.id) ∧
          ∀ id ∈ summary.retired, ∃ format, after.lookup id = some format ∧
            format.deprecated = true) ↔
        ∀ id ∈ offeredSince calls, id ∈ formats.map BlockFormat.id) := by
  have keyed : after.Keyed := (keyed_run calls).commitRefresh committed
  rcases commitRefresh_eq_ok.mp committed with ⟨refreshing, formats, read, rfl, rfl⟩
  have offers := offers_run calls refreshing
  have unchanged : ∀ id, id ∉ formats.map BlockFormat.id →
      ({ (run calls).registerFormats formats with refresh := none } : Catalog).lookup id =
        (run calls).lookup id := by
    intro id notMem
    exact lookup_registerFormats_of_notMem notMem
  refine ⟨formats, read, ?_, ?_⟩
  · rintro ⟨inBatch, _⟩ id idMem
    apply Decidable.byContradiction
    intro notMem
    rcases (offers id).mp idMem with ⟨format, found, offered⟩
    have stillFound := (unchanged id notMem).trans found
    have formatMem := inBatch format (mem_insertable_iff.mpr ⟨id, stillFound, offered⟩)
    rw [keyed id format stillFound] at formatMem
    exact notMem formatMem
  · intro inBatch
    constructor
    · intro format formatMem
      rcases mem_insertable_iff.mp formatMem with ⟨id, found, offered⟩
      rw [keyed id format found]
      apply Decidable.byContradiction
      intro notMem
      rw [unchanged id notMem] at found
      exact notMem (inBatch id ((offers id).mpr ⟨format, found, offered⟩))
    · intro id idMem
      simp only [summary, List.mem_filter, SortedMap.mem_keys_iff] at idMem
      rcases idMem with ⟨⟨format, found⟩, notInBatch⟩
      have notMem : id ∉ formats.map BlockFormat.id := by simpa using notInBatch
      refine ⟨format, (unchanged id notMem).trans found, ?_⟩
      cases offered : format.deprecated with
      | true => rfl
      | false => exact absurd (inBatch id ((offers id).mpr ⟨format, found, offered⟩)) notMem

/-- A refresh that replaces one of two formats, with nothing registered in between, retires the
other one. -/
theorem retired_of_replaced_format :
    ∃ (calls : List Call) (batch : Value) (after : Catalog) (summary : RefreshSummary),
      calls = [.registerFormats [.plain "beep" 0 [], .plain "honk" 0 []], .beginRefresh] ∧
        (run calls).commitRefresh batch = .ok (after, summary) ∧ summary.retired = ["beep"] ∧
          after.insertable.map BlockFormat.id = ["honk"] ∧
            ∀ id ∈ summary.retired, ∃ format, after.lookup id = some format ∧
              format.deprecated = true := by
  let calls : List Call :=
    [.registerFormats [.plain "beep" 0 [], .plain "honk" 0 []], .beginRefresh]
  let batch := batchOfFormats [.plain "honk" 0 []]
  have committed : ∃ result, (run calls).commitRefresh batch = .ok result ∧
      result.2.retired = ["beep"] ∧ result.1.insertable.map BlockFormat.id = ["honk"] := by
    exact ⟨_, rfl, by decide +kernel, by decide +kernel⟩
  rcases committed with ⟨⟨after, summary⟩, committed, retired, offered⟩
  rcases retired_of_commitRefresh committed with ⟨formats, read, retires⟩
  have nothing : offeredSince calls = [] := rfl
  have marked := (retires.mpr (by simp [nothing])).2
  exact ⟨calls, batch, after, summary, rfl, committed, retired, offered, marked⟩

/-- A format that is registered while a refresh goes on is offered after the refresh, although the
batch leaves it out and the summary says that it was retired. -/
theorem retired_format_is_offered :
    ∃ (calls : List Call) (after : Catalog) (summary : RefreshSummary) (format : BlockFormat),
      calls = [.beginRefresh, .register (batchOfFormats [.plain "beep" 0 []])] ∧
        (run calls).commitRefresh (.array []) = .ok (after, summary) ∧
          summary.retired = ["beep"] ∧ after.lookup "beep" = some format ∧
            format.deprecated = false ∧ format ∈ after.insertable := by
  have committed : ∃ result,
      (run [.beginRefresh, .register (batchOfFormats [.plain "beep" 0 []])]).commitRefresh
        (.array []) = .ok result ∧ result.2.retired = ["beep"] ∧
          result.1.lookup "beep" = some (.plain "beep" 0 []) := by
    exact ⟨_, rfl, by decide +kernel, by decide +kernel⟩
  rcases committed with ⟨⟨after, summary⟩, committed, retired, found⟩
  exact ⟨_, after, summary, _, rfl, committed, retired, found, rfl,
    mem_insertable_iff.mpr ⟨_, found, rfl⟩⟩

end Catalog

end BlockEditor
