import BlockEditor.Catalog.Basic

/-!
# Refreshing a catalog

A refresh replaces what a catalog offers. `beginRefresh` marks every format deprecated and remembers
the marks. `commitRefresh` registers a batch: its formats are offered unless they are deprecated
themselves, and what it leaves out stays resolvable for existing documents, with the mark that it
has by then. `abortRefresh` puts the marks back. `applyUpdate` does all of it for a bundle of
formats, texts and categories, and applies nothing of a bundle whose formats are faulty.
-/

namespace BlockEditor

open Json

/-- What a refresh has changed, by identifiers of formats. -/
structure RefreshSummary where
  /-- The formats of the batch that were not known before. -/
  added : List String
  /-- The formats of the batch that were known before. -/
  replaced : List String
  /-- The known formats that the batch leaves out. -/
  retired : List String
deriving DecidableEq, Repr

/-- A bundle of changes to a catalog. -/
structure CatalogUpdate where
  /-- A schema batch that replaces the offered formats. -/
  formats : Option Value := none
  /-- Texts to add. -/
  translations : Option Translations := none
  /-- Categories to overwrite by position. -/
  categories : Option CategoryTable := none

/-- The batch of a bundle, unless there is none or it is the empty list. -/
def CatalogUpdate.batch? (update : CatalogUpdate) : Option Value :=
  update.formats.filter fun batch => batch != .array []

/-- Reads a bundle of changes. -/
def CatalogUpdate.ofNode? (node : Node) : Option CatalogUpdate := do
  let members ← node.members? ["formats", "translations", "categories"]
  let formats ← members.optional "formats" Node.value?
  let translations ← members.optional "translations" Translations.ofNode?
  let categories ← members.optional "categories" CategoryTable.ofNode?
  return { formats, translations, categories }

namespace Catalog

/-- Marks every format deprecated. -/
def markAllDeprecated (catalog : Catalog) : Catalog :=
  { catalog with
    formats := catalog.formats.mapValues fun _ format => { format with deprecated := true } }

/-- Whether a refresh has begun and is neither committed nor aborted. -/
def isRefreshing (catalog : Catalog) : Bool := catalog.refresh.isSome

/-- Begins a refresh. In a refresh that has begun already, the marks remembered at its beginning
stay. -/
def beginRefresh (catalog : Catalog) : Catalog :=
  let marks := catalog.formats.mapValues fun _ format => format.deprecated
  { catalog.markAllDeprecated with refresh := some (catalog.refresh.getD marks) }

/-- What registering formats changes in a catalog. -/
def summary (catalog : Catalog) (formats : List BlockFormat) : RefreshSummary :=
  let ids := formats.map BlockFormat.id
  let inOrder (ids : List String) := ids.mergeSort fun first second => first ≤ second
  { added := inOrder (ids.filter fun id => !catalog.contains id)
    replaced := inOrder (ids.filter fun id => catalog.contains id)
    retired := catalog.formats.keys.filter fun id => !ids.contains id }

/-- Ends a refresh by registering a batch. Gives the catalog afterwards, and what the batch has
changed or else why the refresh goes on. -/
def commitBatch (catalog : Catalog) (batch : Value) :
    Catalog × Except SchemaError RefreshSummary :=
  if catalog.isRefreshing then
    match formatsOfBatch batch with
    | .ok formats =>
      ({ catalog.registerFormats formats with refresh := none }, .ok (catalog.summary formats))
    | .error error => (catalog, .error error)
  else (catalog, .error .noRefreshInProgress)

/-- Ends a refresh by registering a batch, and gives what the batch has changed. -/
def commitRefresh (catalog : Catalog) (batch : Value) :
    Except SchemaError (Catalog × RefreshSummary) :=
  answered (catalog.commitBatch batch)

/-- Ends a refresh by putting back the marks from its beginning; a format that was not known then
is not deprecated afterwards. -/
def abortRefresh (catalog : Catalog) : Catalog :=
  match catalog.refresh with
  | none => catalog
  | some marks =>
    { catalog with
      formats := catalog.formats.mapValues fun id format =>
        { format with deprecated := (marks.get? id).getD false }
      refresh := none }

/-- Adds the texts and categories of a bundle. -/
def applyTables (catalog : Catalog) (update : CatalogUpdate) : Catalog :=
  let catalog := update.translations.elim catalog catalog.mergeTranslations
  update.categories.elim catalog catalog.mergeCategories

/-- Applies a bundle of changes. Gives the catalog afterwards, also if the formats are faulty, and
then the error, or else what the formats of the bundle have changed. -/
def applyUpdate (catalog : Catalog) (update : CatalogUpdate) :
    Catalog × Except SchemaError (Option RefreshSummary) :=
  match update.batch? with
  | none => (catalog.applyTables update, .ok none)
  | some batch =>
    match catalog.beginRefresh.commitBatch batch with
    | (refreshed, .ok summary) => (refreshed.applyTables update, .ok (some summary))
    | (left, .error error) => (left.abortRefresh, .error error)

end Catalog

end BlockEditor
