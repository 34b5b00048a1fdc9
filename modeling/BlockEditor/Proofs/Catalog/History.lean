import BlockEditor.Proofs.Catalog.Marks
import BlockEditor.Proofs.Catalog.Retired
import BlockEditor.Proofs.Catalog.Tables

/-!
# The history of a catalog that is updated

A catalog without entries to which bundles of changes are applied, one after the other, is described
by its log, the list of the bundles that were answered without an error (`Catalog.Follows`). Every
entry of the catalog comes from the latest bundle in the log that says something about it. Whether a
format is offered is the one exception: this is up to the latest bundle with formats alone. One
update extends the log or changes nothing, so a whole history follows its log
(`Catalog.updated_follows`).
-/

namespace BlockEditor

open Json

namespace CatalogUpdate

variable {Entry : Type}

/-- The categories of a bundle; none if it has no list of them. -/
def categoryList (update : CatalogUpdate) : CategoryTable := update.categories.getD []

/-- The text that a bundle has for a key in a language. -/
def text? (update : CatalogUpdate) (language key : String) : Option String :=
  update.translations.bind fun table => table.textOf? language key

/-- The format that a bundle has for an identifier. -/
def format? (update : CatalogUpdate) (id : String) : Option BlockFormat :=
  update.formats?.bind (BlockFormat.lastNamed? id)

/-- What the latest of a list of bundles says that says anything. -/
def latest? (part? : CatalogUpdate → Option Entry) (log : List CatalogUpdate) : Option Entry :=
  log.reverse.findSome? part?

/-- The length of the longest of all lists of categories. -/
def longest (log : List CatalogUpdate) : Nat :=
  (log.map fun update => update.categoryList.length).foldl max 0

/-- The last update decides, unless it has nothing to say. -/
theorem latest?_append (part? : CatalogUpdate → Option Entry) (log : List CatalogUpdate)
    (update : CatalogUpdate) :
    latest? part? (log ++ [update]) = (part? update).or (latest? part? log) := by
  rw [latest?, List.reverse_append, List.findSome?_append]
  simp [latest?]

theorem longest_append (log : List CatalogUpdate) (update : CatalogUpdate) :
    longest (log ++ [update]) = max (longest log) update.categoryList.length := by
  simp [longest]

theorem isSome_latest? {part? : CatalogUpdate → Option Entry} {log : List CatalogUpdate} :
    (latest? part? log).isSome = true ↔ ∃ update ∈ log, (part? update).isSome = true := by
  simp [latest?, List.findSome?_isSome_iff]

end CatalogUpdate

namespace Catalog

open CatalogUpdate

variable {catalog after : Catalog} {log : List CatalogUpdate} {update : CatalogUpdate}

/-- The catalog after bundles of changes, some of which may be answered with an error. -/
def updated (catalog : Catalog) (updates : List CatalogUpdate) : Catalog :=
  updates.foldl (fun catalog update => (catalog.applyUpdate update).1) catalog

/-- The bundles of a list that are answered without an error when they are applied one after the
other. -/
def accepted (catalog : Catalog) : List CatalogUpdate → List CatalogUpdate
  | [] => []
  | update :: rest =>
    match catalog.applyUpdate update with
    | (after, .ok _) => update :: accepted after rest
    | (after, .error _) => accepted after rest

/-- A catalog is what a log of bundles says. -/
structure Follows (catalog : Catalog) (log : List CatalogUpdate) : Prop where
  /-- No refresh goes on. -/
  settled : catalog.isRefreshing = false
  /-- Up to its mark, what lies under an identifier is the last format with this identifier in the
  latest batch with one. -/
  found : ∀ id, (catalog.lookup id).map BlockFormat.unmarked =
    (latest? (·.format? id) log).map BlockFormat.unmarked
  /-- What is offered under an identifier is in the latest batch and not deprecated there. -/
  offered : ∀ id, (∃ format ∈ catalog.insertable, format.id = id) ↔
    ∃ formats format, latest? CatalogUpdate.formats? log = some formats ∧
      BlockFormat.lastNamed? id formats = some format ∧ format.deprecated = false
  /-- A category is the one in the latest list that is long enough. -/
  category : ∀ index : Nat, catalog.categories[index]? = latest? (·.categoryList[index]?) log
  /-- There are as many categories as in the longest list. -/
  categoryCount : catalog.categories.length = longest log
  /-- A text is the one that was given last. -/
  text : ∀ language key, catalog.translations.lookup (Translations.storedName language) key =
    latest? (·.text? language key) log

theorem categories_applyTables (catalog : Catalog) (update : CatalogUpdate) :
    (catalog.applyTables update).categories = catalog.categories.merge update.categoryList := by
  rw [applyTables, categoryList]
  cases update.translations <;> cases update.categories <;> rfl

/-- A text is the one of the update, or else the one from before. -/
theorem lookup_applyTables (catalog : Catalog) (update : CatalogUpdate) (language key : String) :
    (catalog.applyTables update).translations.lookup (Translations.storedName language) key =
      (update.text? language key).or
        (catalog.translations.lookup (Translations.storedName language) key) := by
  rw [applyTables, text?]
  cases update.translations with
  | none => cases update.categories <;> rfl
  | some table =>
      cases update.categories <;> exact Translations.lookup_merge catalog.translations table _ _

theorem length_merge (table news : CategoryTable) :
    (table.merge news).length = max table.length news.length := by
  rw [CategoryTable.merge, List.length_append, List.length_drop]
  omega

theorem Follows.keyed (follows : catalog.Follows log) : catalog.Keyed := by
  intro id format atId
  have same := follows.found id
  have atId : catalog.lookup id = some format := atId
  rw [atId, Option.map_some] at same
  rcases Option.map_eq_some_iff.mp same.symm with ⟨other, latest, sameUnmarked⟩
  rcases List.exists_of_findSome?_eq_some latest with ⟨update, _, inUpdate⟩
  rcases Option.bind_eq_some_iff.mp inUpdate with ⟨formats, _, named⟩
  have sameId : other.unmarked.id = format.unmarked.id := by rw [sameUnmarked]
  calc
    format.id = other.id := sameId.symm
    _ = id := BlockFormat.id_of_lastNamed? named

/-- Adding texts and categories of an update takes a catalog that has its formats to the longer
history. -/
theorem Follows.applyTables {changed : Catalog} (follows : catalog.Follows log)
    (settled : changed.isRefreshing = false)
    (sameCategories : changed.categories = catalog.categories)
    (sameTexts : changed.translations = catalog.translations)
    (found : ∀ id, (changed.lookup id).map BlockFormat.unmarked =
      (latest? (·.format? id) (log ++ [update])).map BlockFormat.unmarked)
    (offered : ∀ id, (∃ format ∈ changed.insertable, format.id = id) ↔
      ∃ formats format, latest? CatalogUpdate.formats? (log ++ [update]) = some formats ∧
        BlockFormat.lastNamed? id formats = some format ∧ format.deprecated = false) :
    (changed.applyTables update).Follows (log ++ [update]) where
  settled := by rw [isRefreshing, refresh_applyTables, ← isRefreshing, settled]
  found id := by rw [← found, lookup, lookup, formats_applyTables]
  offered id := by
    rw [← offered, insertable, insertable, allFormats, allFormats, formats_applyTables]
  category index := by
    rw [categories_applyTables, CategoryTable.getElem?_merge, sameCategories, follows.category,
      latest?_append]
    split
    · rename_i inRange
      rw [List.getElem?_eq_getElem inRange, Option.some_or]
    · rename_i beyond
      rw [List.getElem?_eq_none (Nat.not_lt.mp beyond), Option.none_or]
  categoryCount := by
    rw [categories_applyTables, length_merge, sameCategories, follows.categoryCount, longest_append]
  text language key := by
    rw [lookup_applyTables, sameTexts, follows.text, latest?_append]

/-- An update without formats touches none. -/
theorem Follows.applyUpdate_tables (follows : catalog.Follows log)
    (noFormats : update.formats? = none) :
    (catalog.applyTables update).Follows (log ++ [update]) := by
  have noFormat : ∀ id, update.format? id = none := by simp [format?, noFormats]
  apply follows.applyTables follows.settled rfl rfl
  · intro id
    rw [latest?_append, noFormat, Option.none_or, follows.found]
  · intro id
    rw [latest?_append, noFormats, Option.none_or, follows.offered]

/-- An update with formats offers exactly those of its formats that are not deprecated. -/
theorem Follows.applyUpdate_formats {formats : List BlockFormat} (follows : catalog.Follows log)
    (read : update.formats? = some formats) :
    ((catalog.refreshed formats).applyTables update).Follows (log ++ [update]) := by
  have notOffered : ∀ id format, catalog.beginRefresh.lookup id = some format →
      format.deprecated = true := by
    intro id format found
    have marked := offers_markAllDeprecated catalog id
    cases deprecated : format.deprecated with
    | true => rfl
    | false => exact absurd (marked.mpr ⟨format, found, deprecated⟩) List.not_mem_nil
  have settled : (catalog.refreshed formats).isRefreshing = false := rfl
  apply follows.applyTables settled rfl rfl
  · intro id
    have named : update.format? id = BlockFormat.lastNamed? id formats := by simp [format?, read]
    rw [lookup_refreshed, latest?_append, Option.map_or, Option.map_or, named,
      unmarked_lookup_beginRefresh, follows.found]
  · intro id
    rw [offered_iff_lookup (follows.keyed.refreshed formats), lookup_refreshed, latest?_append,
      read, Option.some_or]
    cases named : BlockFormat.lastNamed? id formats with
    | some format => simp [named]
    | none =>
        constructor
        · rintro ⟨format, found, offered⟩
          rw [Option.none_or] at found
          simp [notOffered id format found] at offered
        · rintro ⟨_, _, ⟨⟩, found, _⟩
          simp [named] at found

/-- An update that is answered without an error is the next entry of the log. -/
theorem Follows.applyUpdate {answer : Option RefreshSummary} (follows : catalog.Follows log)
    (done : catalog.applyUpdate update = (after, .ok answer)) :
    after.Follows (log ++ [update]) := by
  rcases applyUpdate_ok done with ⟨noFormats, rfl⟩ | ⟨formats, read, rfl⟩
  · exact follows.applyUpdate_tables noFormats
  · exact follows.applyUpdate_formats read

theorem follows_empty : empty.Follows [] where
  settled := rfl
  found _ := rfl
  offered id := by
    constructor
    · rintro ⟨_, formatMem, _⟩
      cases formatMem
    · rintro ⟨_, _, latest, _⟩
      cases latest
  category _ := rfl
  categoryCount := rfl
  text _ _ := rfl

/-- A catalog that follows a log follows it further on, with the accepted updates, and the others
could have been left out. -/
theorem Follows.updated (follows : catalog.Follows log) (updates : List CatalogUpdate) :
    (catalog.updated updates).Follows (log ++ catalog.accepted updates) ∧
      catalog.updated (catalog.accepted updates) = catalog.updated updates := by
  induction updates generalizing catalog log with
  | nil => exact ⟨by simpa [accepted, Catalog.updated] using follows, rfl⟩
  | cons update rest ih =>
      rcases done : catalog.applyUpdate update with ⟨after, error | answer⟩
      -- A refused update finds no refresh going on, so what it aborts is only its own.
      · have unchanged : after = catalog := applyUpdate_error follows.settled done
        subst after
        have skipped : catalog.updated (update :: rest) = catalog.updated rest := by
          simp [Catalog.updated, done]
        have notLogged : catalog.accepted (update :: rest) = catalog.accepted rest := by
          simp [accepted, done]
        rw [skipped, notLogged]
        exact ih follows
      · have applied : ∀ others, catalog.updated (update :: others) = after.updated others := by
          intro others
          simp [Catalog.updated, done]
        have logged : catalog.accepted (update :: rest) = update :: after.accepted rest := by
          simp [accepted, done]
        rw [applied, logged, applied, List.append_cons]
        exact ih (follows.applyUpdate done)

/-- After any updates of a catalog without entries, no refresh goes on, and the catalog is what the
updates say that were answered without an error; the others could have been left out. An identifier
is known exactly if one of these updates has it in its batch. -/
theorem updated_follows (updates : List CatalogUpdate) :
    (empty.updated updates).Follows (empty.accepted updates) ∧
      empty.updated (empty.accepted updates) = empty.updated updates ∧
        ∀ id, (empty.updated updates).contains id = true ↔
          ∃ update ∈ empty.accepted updates, ∃ formats, update.formats? = some formats ∧
            id ∈ formats.map BlockFormat.id := by
  rcases follows_empty.updated updates with ⟨follows, same⟩
  rw [List.nil_append] at follows
  refine ⟨follows, same, ?_⟩
  intro id
  have sameKnown : (empty.updated updates).contains id =
      (latest? (·.format? id) (empty.accepted updates)).isSome := by
    have found := congrArg Option.isSome (follows.found id)
    rwa [Option.isSome_map, Option.isSome_map] at found
  rw [sameKnown, isSome_latest?]
  constructor
  · rintro ⟨update, updateMem, known⟩
    rcases Option.isSome_iff_exists.mp known with ⟨format, inUpdate⟩
    rcases Option.bind_eq_some_iff.mp inUpdate with ⟨formats, read, named⟩
    exact ⟨update, updateMem, formats, read,
      BlockFormat.isSome_lastNamed?.mp (Option.isSome_of_eq_some named)⟩
  · rintro ⟨update, updateMem, formats, read, idMem⟩
    refine ⟨update, updateMem, ?_⟩
    rw [format?, read, Option.bind_some]
    exact BlockFormat.isSome_lastNamed?.mpr idMem

end Catalog

end BlockEditor
