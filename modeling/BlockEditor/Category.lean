import BlockEditor.Json.Reading

/-!
# The category table

Categories are a list, and formats refer to them by position. Merging overwrites positions and
appends what goes beyond the end, so the result is the merged list followed by what the table has
beyond it.
-/

namespace BlockEditor

open Json

/-- A category of blocks. -/
structure Category where
  /-- The shown name, or a marked key of the translation table. -/
  name : String
  /-- The hue of the category's colour in degrees. -/
  hue : Int32
deriving DecidableEq, Repr

/-- The categories by position. -/
abbrev CategoryTable : Type := List Category

namespace Category

/-- Reads a category. -/
def ofNode? (node : Node) : Option Category := do
  let members ← node.members? ["name", "hue"]
  let name ← members.required "name" Node.text?
  let hue ← members.required "hue" Node.integer32?
  return { name, hue }

/-- The JSON form of a category. -/
def json (category : Category) : Value :=
  .object [("name", .string category.name), ("hue", .whole category.hue.toInt)]

end Category

namespace CategoryTable

/-- Reads a category table. -/
def ofNode? (node : Node) : Option CategoryTable := node.list? Category.ofNode?

/-- The JSON form of a category table. -/
def json (table : CategoryTable) : Value := .array (table.map Category.json)

/-- Overwrites the entries at the positions of the new list and keeps those beyond it. -/
def merge (table news : CategoryTable) : CategoryTable := news ++ table.drop news.length

/-- The hue at a position; zero where there is no category. -/
def hue (table : CategoryTable) (index : Nat) : Int32 := (table[index]?.map Category.hue).getD 0

theorem getElem?_merge (table news : CategoryTable) (index : Nat) :
    (table.merge news)[index]? = if index < news.length then news[index]? else table[index]? := by
  unfold merge
  split
  · rw [List.getElem?_append_left ‹_›]
  · rw [List.getElem?_append_right (by omega), List.getElem?_drop]
    congr 1
    omega

end CategoryTable

end BlockEditor
