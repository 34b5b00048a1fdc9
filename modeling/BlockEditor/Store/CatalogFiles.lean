import BlockEditor.Catalog.Refresh
import BlockEditor.Store.Directory

/-!
# The files of a catalog

A catalog is kept in three files: the schema records of its formats, its texts and its
categories. Saving writes them one after the other. Loading takes what files there are: the
formats go through a refresh, so that formats without a record stay known and become deprecated,
and texts and categories are merged. A faulty file ends the loading; what was loaded before it
stays.
-/

namespace BlockEditor

open Json Text

/-- The name of the file with the formats. -/
def formatsFile : String := "codeFormats.json"

/-- The name of the file with the texts. -/
def translationsFile : String := "codeFormatTranslations.json"

/-- The name of the file with the categories. -/
def categoriesFile : String := "codeFormatCategories.json"

/-- The JSON form of each part of a catalog, with the name of its file. -/
def Catalog.files (catalog : Catalog) : List (String × Value) :=
  [(formatsFile, batchOfFormats catalog.allFormats),
    (translationsFile, catalog.translations.json),
    (categoriesFile, catalog.categories.json)]

/-- What was found in a directory. -/
structure CatalogLoad where
  /-- What the file with the formats has changed, if there is one. -/
  formats : Option RefreshSummary
  /-- Whether there is a file with texts. -/
  translations : Bool
  /-- Whether there is a file with categories. -/
  categories : Bool
deriving DecidableEq, Repr

namespace Directory

/-- Writes JSON files one after the other until one cannot be written. -/
def writeJson (directory : Directory) : List (String × Value) → Directory × Except StoreError Unit
  | [] => (directory, .ok ())
  | (name, value) :: rest =>
    match directory.write? name (.ofString value.compact) with
    | some written => written.writeJson rest
    | none => (directory, .error .io)

/-- Reads a JSON file, if there is something under its name. -/
def readJson {Item : Type} (directory : Directory) (name : String) (read : Node → Option Item) :
    Except StoreError (Option Item) :=
  match directory.entries.get? name with
  | none => .ok none
  | some .directory => .error .json
  | some (.file content) =>
    match (Node.ofSymbols? content).bind read with
    | some item => .ok (some item)
    | none => .error .json

/-- Keeps a catalog in a directory. -/
def saveCatalog (directory : Directory) (catalog : Catalog) : Directory × Except StoreError Unit :=
  directory.writeJson catalog.files

/-- Loads the formats from a directory. -/
def loadFormats (directory : Directory) (catalog : Catalog) :
    Catalog × Except StoreError (Option RefreshSummary) :=
  match directory.readJson formatsFile Node.value? with
  | .error error => (catalog, .error error)
  | .ok none => (catalog, .ok none)
  | .ok (some batch) =>
    match catalog.beginRefresh.commitBatch batch with
    | (refreshed, .ok summary) => (refreshed, .ok (some summary))
    | (left, .error error) => (left.abortRefresh, .error (.schema error))

/-- Loads texts and categories from a directory, and says which of them are there. -/
def loadTables (directory : Directory) (catalog : Catalog) :
    Catalog × Except StoreError (Bool × Bool) :=
  match directory.readJson translationsFile Translations.ofNode? with
  | .error error => (catalog, .error error)
  | .ok translations =>
    let translated := translations.elim catalog catalog.mergeTranslations
    match directory.readJson categoriesFile CategoryTable.ofNode? with
    | .error error => (translated, .error error)
    | .ok categories =>
      (categories.elim translated translated.mergeCategories,
        .ok (translations.isSome, categories.isSome))

/-- Loads a catalog from a directory. -/
def loadCatalog (directory : Directory) (catalog : Catalog) :
    Catalog × Except StoreError CatalogLoad :=
  match directory.loadFormats catalog with
  | (catalog, .error error) => (catalog, .error error)
  | (catalog, .ok formats) =>
    match directory.loadTables catalog with
    | (catalog, .error error) => (catalog, .error error)
    | (catalog, .ok (translations, categories)) =>
      (catalog, .ok { formats, translations, categories })

end Directory

end BlockEditor
