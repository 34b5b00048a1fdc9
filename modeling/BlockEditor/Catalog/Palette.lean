import BlockEditor.Catalog.Basic

/-!
# The palette

The palette groups the formats that are offered for insertion by category, by increasing position
of the category; a category without such formats has no group. `Catalog.localizedInfo` gives the
documentation of a format in the active language.
-/

namespace BlockEditor

/-- A category with the formats that it offers. -/
structure PaletteGroup where
  /-- The position of the category. -/
  index : Nat
  /-- The shown name of the category. -/
  name : String
  /-- The hue of the category. -/
  hue : Int32
  /-- The identifier and the shown name of each format. -/
  entries : List (String × String)
deriving DecidableEq, Repr

/-- The documentation of a format as it is shown. -/
structure FormatInfo where
  /-- The shown name. -/
  name : String
  /-- What a block does. -/
  description : String
  /-- What the yielded value is. -/
  returnDescription : String
  /-- Further remarks. -/
  notes : String
  /-- The documentation of the parameters, if there is any. -/
  parameterDocs : Option (List ParameterDoc)
  /-- Whether there is any documentation. -/
  hasInfo : Bool
deriving DecidableEq, Repr

/-- Puts a number into an increasing list unless it is there already. -/
def insertDistinct (number : Nat) : List Nat → List Nat
  | [] => [number]
  | other :: rest =>
    if number < other then number :: other :: rest
    else if number = other then other :: rest
    else other :: insertDistinct number rest

/-- The different numbers of a list, increasing. -/
def distinctSorted (numbers : List Nat) : List Nat := numbers.foldr insertDistinct []

namespace Catalog

/-- The group of a category among the given formats. -/
def paletteGroup (catalog : Catalog) (formats : List BlockFormat) (index : Nat) : PaletteGroup where
  index := index
  name := catalog.categoryName index
  hue := catalog.categories.hue index
  entries := (formats.filter fun format => format.category.toNat == index).map fun format =>
    (format.id, catalog.nameOf format)

/-- The formats offered for insertion, grouped by category. -/
def palette (catalog : Catalog) : List PaletteGroup :=
  (distinctSorted (catalog.insertable.map fun format => format.category.toNat)).map
    (catalog.paletteGroup catalog.insertable)

/-- The documentation of a format in the active language. -/
def localizedInfo (catalog : Catalog) (format : BlockFormat) : FormatInfo where
  name := catalog.nameOf format
  description := catalog.localize format.description
  returnDescription := catalog.localize format.returnDescription
  notes := catalog.localize format.notes
  parameterDocs := format.parameterDocs.map fun docs => docs.map fun doc =>
    ⟨catalog.localize doc.kind, catalog.localize doc.description⟩
  hasInfo := format.hasInfo

end Catalog

end BlockEditor
