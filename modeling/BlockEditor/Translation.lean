import BlockEditor.Json.Reading
import BlockEditor.Text.Letters

/-!
# Translation tables

A translation table gives the text for a key in a language. The default language is stored under
one spelling of its name, whatever the letter case it comes in. A text that starts with the marker
`@` is a key: it is looked up in the active language, then in the default language, and stands for
the bare key where neither has it.
-/

namespace BlockEditor

open Json

/-- The texts of a language by key. -/
abbrev Words : Type := SortedMap String

/-- The texts of each language. -/
structure Translations where
  /-- The texts by language. -/
  languages : SortedMap Words
deriving DecidableEq

namespace Translations

/-- The name of the default language. -/
def defaultLanguage : String := "default"

/-- The name under which a language is stored. -/
def storedName (language : String) : String :=
  if Text.sameLetters language defaultLanguage then defaultLanguage else language

/-- The table without entries. -/
def empty : Translations := ⟨.empty⟩

instance : Inhabited Translations := ⟨empty⟩

/-- The texts stored under the exact name of a language. -/
def wordsOf (table : Translations) (language : String) : Words :=
  (table.languages.get? language).getD .empty

/-- Adds texts to a language; they replace those under the same keys. -/
def addWords (table : Translations) (language : String) (words : List (String × String)) :
    Translations :=
  let name := storedName language
  ⟨table.languages.insert name ((table.wordsOf name).insertAll words)⟩

/-- Adds one text. -/
def insert (table : Translations) (language key text : String) : Translations :=
  table.addWords language [(key, text)]

/-- Adds all texts of another table; they replace those under the same language and key. -/
def merge (table other : Translations) : Translations :=
  other.languages.entries.foldl (fun table entry => table.addWords entry.1 entry.2.entries) table

/-- The text under a key in exactly this language. -/
def lookup (table : Translations) (language key : String) : Option String :=
  (table.languages.get? language).bind fun words => words.get? key

/-- The languages other than the default one, increasing. -/
def otherLanguages (table : Translations) : List String :=
  table.languages.keys.filter (· != defaultLanguage)

/-- The key that a marked text names. -/
def markedKey? (text : String) : Option String :=
  match text.toList with
  | '@' :: key => some (String.ofList key)
  | _ => none

/-- The text that is shown for a text of a schema. -/
def localize (table : Translations) (text : String) (language : Option String) : String :=
  match markedKey? text with
  | none => text
  | some key =>
    let inLanguage := language.bind fun language => table.lookup language key
    (inLanguage.or (table.lookup defaultLanguage key)).getD key

/-- The table of a list of languages; of several entries for one name the last one counts, and
different spellings of the default language are merged in their order. -/
def ofEntries (entries : List (String × List (String × String))) : Translations :=
  empty.merge ⟨.ofList (entries.map fun entry => (entry.1, .ofList entry.2))⟩

/-- Reads a translation table. -/
def ofNode? (node : Node) : Option Translations :=
  (node.entries? (Node.entries? Node.text?)).map ofEntries

/-- The JSON form of a translation table. -/
def json (table : Translations) : Value :=
  .object (table.languages.entries.map fun entry =>
    (entry.1, .object (entry.2.entries.map fun word => (word.1, .string word.2))))

end Translations

end BlockEditor
