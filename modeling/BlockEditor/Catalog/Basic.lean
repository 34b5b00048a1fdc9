import BlockEditor.Category
import BlockEditor.Schema.Record
import BlockEditor.Translation

/-!
# The catalog of block formats

A catalog knows block formats by identifier, the categories, and the texts of each language.
Registering a batch replaces formats with the same identifier; a batch with an error changes
nothing. The names that are shown depend on the active language.
-/

namespace BlockEditor

open Json

/-- Block formats, categories and texts. -/
structure Catalog where
  /-- The formats by identifier. -/
  formats : SortedMap BlockFormat := .empty
  /-- The categories by position. -/
  categories : CategoryTable := []
  /-- The texts of each language. -/
  translations : Translations := .empty
  /-- The active language, if one has been chosen. -/
  language : Option String := none
  /-- During a refresh, whether each format was deprecated when the refresh began. -/
  refresh : Option (SortedMap Bool) := none
deriving DecidableEq

namespace Catalog

/-- The catalog without entries. -/
def empty : Catalog := {}

instance : Inhabited Catalog := ⟨empty⟩

/-- Every format is stored under its own identifier. -/
def Keyed (catalog : Catalog) : Prop :=
  ∀ id format, catalog.formats.get? id = some format → format.id = id

/-- The format with an identifier. -/
def lookup (catalog : Catalog) (id : String) : Option BlockFormat := catalog.formats.get? id

/-- Whether there is a format with an identifier. -/
def contains (catalog : Catalog) (id : String) : Bool := catalog.formats.contains id

/-- Adds formats one after the other; each replaces the one with its identifier. -/
def registerFormats (catalog : Catalog) (formats : List BlockFormat) : Catalog :=
  { catalog with
    formats := catalog.formats.insertAll (formats.map fun format => (format.id, format)) }

/-- What a call answers, with the catalog that it leaves, unless it answers with an error. -/
def answered {Answer : Type} (result : Catalog × Except SchemaError Answer) :
    Except SchemaError (Catalog × Answer) :=
  result.2.map fun answer => (result.1, answer)

/-- Adds the formats of a schema batch. Gives the catalog afterwards, and the number of the formats
or else why the batch is faulty. -/
def takeBatch (catalog : Catalog) (batch : Value) : Catalog × Except SchemaError Nat :=
  match formatsOfBatch batch with
  | .ok formats => (catalog.registerFormats formats, .ok formats.length)
  | .error error => (catalog, .error error)

/-- Adds the formats of a schema batch given as text. -/
def takeText (catalog : Catalog) (text : String) : Catalog × Except SchemaError Nat :=
  match Value.ofText? text with
  | some batch => catalog.takeBatch batch
  | none => (catalog, .error .json)

/-- Adds the formats of a schema batch, and gives their number. -/
def register (catalog : Catalog) (batch : Value) : Except SchemaError (Catalog × Nat) :=
  answered (catalog.takeBatch batch)

/-- Adds the formats of a schema batch given as text, and gives their number. -/
def registerText (catalog : Catalog) (text : String) : Except SchemaError (Catalog × Nat) :=
  answered (catalog.takeText text)

/-- The formats by increasing identifier. -/
def allFormats (catalog : Catalog) : List BlockFormat := catalog.formats.values

/-- The formats that are offered for insertion, by increasing identifier. -/
def insertable (catalog : Catalog) : List BlockFormat :=
  catalog.allFormats.filter fun format => !format.deprecated

/-- The schema records of all formats. -/
def schemaRecords (catalog : Catalog) : List SchemaRecord :=
  catalog.allFormats.map SchemaRecord.ofFormat

/-- Overwrites the categories at the positions of a list. -/
def mergeCategories (catalog : Catalog) (categories : CategoryTable) : Catalog :=
  { catalog with categories := catalog.categories.merge categories }

/-- Adds the texts of a table. -/
def mergeTranslations (catalog : Catalog) (translations : Translations) : Catalog :=
  { catalog with translations := catalog.translations.merge translations }

/-- Chooses the active language. -/
def setLanguage (catalog : Catalog) (language : String) : Catalog :=
  { catalog with language := some language }

/-- The text that is shown for a text of a schema in the active language. -/
def localize (catalog : Catalog) (text : String) : String :=
  catalog.translations.localize text catalog.language

/-- The shown name of a format. -/
def nameOf (catalog : Catalog) (format : BlockFormat) : String := catalog.localize format.name

/-- The shown name of a category; its position if there is no such category. -/
def categoryName (catalog : Catalog) (index : Nat) : String :=
  match catalog.categories[index]? with
  | some category => catalog.localize category.name
  | none => Nat.repr index

end Catalog

end BlockEditor
