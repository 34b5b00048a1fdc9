import Mathlib.Data.List.Dedup
import Mathlib.Data.List.Sort
import BlockEditor.Proofs.Catalog.Tables

/-!
# The history of a table of texts

A table of texts comes about by inserting texts, by merging other tables and by reading JSON
objects. `Translations.Built` goes with the additions that were made on the way, the earliest first,
and `Translations.lastText?` is the text that was given last for a key in a language, under whatever
spelling if this is the default language. One step extends the history, and the table shows what the
longer history says (`Translations.Shows`). Hence what is shown for a marked text depends on the
history alone (`Translations.localize_of_built`).
-/

namespace BlockEditor

open Json

namespace Translations

/-- Texts for keys that are added to a language. -/
abbrev Addition : Type := String × List (String × String)

/-- Two names are equal, or both are spellings of the default language. -/
def SameLanguage (first second : String) : Prop :=
  first = second ∨ (Text.sameLetters first defaultLanguage = true ∧
    Text.sameLetters second defaultLanguage = true)

instance (first second : String) : Decidable (SameLanguage first second) :=
  inferInstanceAs (Decidable (_ ∨ _))

/-- The text that was added last for a key in a language. -/
def lastText? (history : List Addition) (language key : String) : Option String :=
  history.reverse.findSome? fun addition =>
    if SameLanguage addition.1 language then addition.2.reverse.lookup key else none

/-- What a JSON object adds: the languages by increasing name, each as it stands last. -/
def inNameOrder (object : List Addition) : List Addition :=
  ((object.map Prod.fst).dedup.insertionSort fun first second => first ≤ second).map
    fun language => (language, (object.reverse.lookup language).getD [])

/-- A table has come about by a history of additions. -/
inductive Built : List Addition → Translations → Prop
  | empty : Built [] .empty
  | insert {history : List Addition} {table : Translations} (built : Built history table)
      (language key text : String) :
      Built (history ++ [(language, [(key, text)])]) (table.insert language key text)
  | merge {history more : List Addition} {table other : Translations}
      (built : Built history table) (otherBuilt : Built more other) :
      Built (history ++ more) (table.merge other)
  | read {node : Node} {object : List Addition} {table : Translations}
      (isObject : node.entries? (Node.entries? Node.text?) = some object)
      (isTable : ofNode? node = some table) : Built (inNameOrder object) table

variable {history more : List Addition} {table other : Translations}
  {language name key text : String}

/-- Languages are stored under one name exactly if they are the same language. -/
theorem storedName_eq_iff {first second : String} :
    storedName first = storedName second ↔ SameLanguage first second := by
  have isDefault : Text.sameLetters defaultLanguage defaultLanguage = true := by decide
  rw [SameLanguage, storedName, storedName]
  split <;> split
  · simp [*]
  · rename_i firstDefault secondOther
    constructor
    · rintro rfl
      exact absurd isDefault secondOther
    · rintro (rfl | ⟨_, secondDefault⟩)
      · exact absurd firstDefault secondOther
      · exact absurd secondDefault secondOther
  · rename_i firstOther secondDefault
    constructor
    · rintro rfl
      exact absurd isDefault firstOther
    · rintro (rfl | ⟨firstDefault, _⟩)
      · exact absurd secondDefault firstOther
      · exact absurd firstDefault firstOther
  · simp [*]

theorem sameLanguage_default_iff :
    SameLanguage name defaultLanguage ↔ Text.sameLetters name defaultLanguage = true := by
  constructor
  · rintro (rfl | ⟨isDefault, _⟩)
    · decide
    · exact isDefault
  · intro isDefault
    exact .inr ⟨isDefault, by decide⟩

theorem storedName_of_not_default (notDefault : Text.sameLetters name defaultLanguage ≠ true) :
    storedName name = name := if_neg notDefault

/-- Of two histories, one after the other, the later one decides if it has the text. -/
theorem lastText?_append (history more : List Addition) (language key : String) :
    lastText? (history ++ more) language key =
      (lastText? more language key).or (lastText? history language key) := by
  simp [lastText?, List.findSome?_append]

theorem lastText?_singleton (addition : Addition) (language key : String) :
    lastText? [addition] language key =
      if SameLanguage addition.1 language then addition.2.reverse.lookup key else none := by
  simp [lastText?, List.findSome?_singleton]

theorem lastText?_congr {second : String} (same : SameLanguage language second) :
    lastText? history language key = lastText? history second key := by
  rw [← storedName_eq_iff] at same
  simp only [lastText?, ← storedName_eq_iff, same]

/-- A history that says nothing about a key in a language has no last text for it. -/
theorem lastText?_eq_none
    (absent : ∀ addition ∈ history, key ∈ addition.2.map Prod.fst →
      ¬SameLanguage addition.1 language) : lastText? history language key = none := by
  rw [lastText?, List.findSome?_eq_none_iff]
  intro addition additionMem
  rw [List.mem_reverse] at additionMem
  split
  · rename_i same
    apply lookup_of_notMem
    rw [List.map_reverse, List.mem_reverse]
    exact fun keyMem => absent addition additionMem keyMem same
  · rfl

/-- A table shows what a history says. -/
structure Shows (table : Translations) (history : List Addition) : Prop where
  /-- The text under the stored name of a language is the last one. -/
  text : ∀ language key,
    table.lookup (storedName language) key = lastText? history language key
  /-- Stored are the languages of the additions. -/
  named : ∀ name, table.languages.contains name = true ↔
    ∃ addition ∈ history, storedName addition.1 = name

theorem contains_addWords (table : Translations) (language name : String)
    (words : List (String × String)) :
    (table.addWords language words).languages.contains name = true ↔
      storedName language = name ∨ table.languages.contains name = true := by
  rw [addWords, SortedMap.contains, SortedMap.get?_insert]
  by_cases same : name = storedName language
  · simp [same]
  · simp [same, Ne.symm same, SortedMap.contains]

/-- After merging, the languages of both tables are stored. -/
theorem contains_merge (table other : Translations) (name : String) :
    (table.merge other).languages.contains name = true ↔
      (∃ entry ∈ other.languages.entries, storedName entry.1 = name) ∨
        table.languages.contains name = true := by
  rw [merge]
  induction other.languages.entries generalizing table with
  | nil => simp
  | cons entry rest ih =>
      simp only [List.foldl_cons, ih, contains_addWords, List.mem_cons, exists_eq_or_imp]
      rw [or_left_comm, or_assoc]

theorem shows_empty : empty.Shows [] where
  text _ _ := rfl
  named := by simp [empty, SortedMap.contains]

/-- A table with words added shows what the history with this addition says. -/
theorem Shows.addWords (shows : table.Shows history) (addition : Addition) :
    (table.addWords addition.1 addition.2).Shows (history ++ [addition]) where
  text language key := by
    simp only [lookup_addWords, storedName_eq_iff, shows.text, lastText?_append,
      lastText?_singleton]
  named name := by
    rw [contains_addWords, shows.named]
    simp [or_and_right, exists_or, or_comm]

theorem textOf?_of_stored (stored : table.Stored) (language key : String) :
    table.textOf? language key = table.lookup (storedName language) key := by
  have merged := lookup_merge empty table language key
  rw [stored.merge_empty] at merged
  rw [merged]
  exact Option.or_none.symm

theorem exists_entry_of_stored (stored : table.Stored) (name : String) :
    (∃ entry ∈ table.languages.entries, storedName entry.1 = name) ↔
      table.languages.contains name = true := by
  have merged := contains_merge empty table name
  rw [stored.merge_empty] at merged
  rw [merged]
  simp [empty, SortedMap.contains]

/-- A table into which another one is merged shows what both histories say, one after the other. -/
theorem Shows.merge (shows : table.Shows history) (otherShows : other.Shows more)
    (stored : other.Stored) : (table.merge other).Shows (history ++ more) where
  text language key := by
    rw [lookup_merge, textOf?_of_stored stored, shows.text, otherShows.text, lastText?_append]
  named name := by
    rw [contains_merge, exists_entry_of_stored stored, shows.named, otherShows.named]
    simp [or_and_right, exists_or, or_comm]

theorem lookup_map_self {Value : Type} (names : List String) (value : String → Value)
    (name : String) :
    (names.map fun other => (other, value other)).lookup name =
      if name ∈ names then some (value name) else none := by
  induction names with
  | nil => rfl
  | cons other rest ih =>
      by_cases same : name = other
      · simp [same]
      · simp [same, List.lookup_cons, beq_eq_false_iff_ne.mpr same, ih]

/-- The names of an object are brought into strict order. -/
theorem pairwise_names (object : List Addition) :
    ((object.map Prod.fst).dedup.insertionSort fun first second => first ≤ second).Pairwise
      (· < ·) := by
  have total : Std.Total fun first second : String => first ≤ second := ⟨String.le_total⟩
  have transitive : IsTrans String fun first second => first ≤ second :=
    ⟨fun _ _ _ => String.le_trans⟩
  have distinct : ((object.map Prod.fst).dedup.insertionSort fun first second =>
      first ≤ second).Nodup :=
    (List.perm_insertionSort _ _).nodup_iff.mpr (List.nodup_dedup _)
  refine List.Pairwise.imp₂ ?_ (List.pairwise_insertionSort _ _) distinct
  intro first second below different
  exact Std.lt_of_le_of_ne below different

/-- A map that is read from an object has the last entry with each name, in the order of names. -/
theorem entries_ofList (object : List Addition) :
    (SortedMap.ofList (object.map fun addition =>
        (addition.1, SortedMap.ofList addition.2))).entries =
      (inNameOrder object).map fun addition => (addition.1, SortedMap.ofList addition.2) := by
  have increase : KeysIncrease ((inNameOrder object).map fun addition =>
      (addition.1, SortedMap.ofList addition.2)) := by
    simpa [KeysIncrease, inNameOrder, List.pairwise_map] using pairwise_names object
  have same : SortedMap.ofList (object.map fun addition =>
      (addition.1, SortedMap.ofList addition.2)) = ⟨_, increase⟩ := by
    apply SortedMap.ext_get?
    intro name
    rw [SortedMap.get?_ofList, ← List.map_reverse,
      lookup_map_values _ fun _ => SortedMap.ofList, SortedMap.get?]
    simp only [inNameOrder, List.map_map, Function.comp_def, lookup_map_self,
      List.mem_insertionSort, List.mem_dedup]
    by_cases named : name ∈ object.map Prod.fst
    · have found : (object.reverse.lookup name).isSome = true := by simpa using named
      rcases Option.isSome_iff_exists.mp found with ⟨words, found⟩
      simp [found, named]
    · have notNamed : name ∉ object.reverse.map Prod.fst := by simpa using named
      simp [lookup_of_notMem notNamed, named]
  rw [same]

/-- A table that is read from an object shows what the object says in the order of names. -/
theorem shows_ofEntries (object : List Addition) :
    (ofEntries object).Shows (inNameOrder object) where
  text language key := by
    rw [ofEntries, lookup_merge, textOf?, entries_ofList, lastText?, ← List.map_reverse,
      List.findSome?_map]
    simp only [Function.comp_def, storedName_eq_iff, SortedMap.get?_ofList]
    exact Option.or_none
  named name := by
    rw [ofEntries, contains_merge, entries_ofList]
    simp [empty, SortedMap.contains]

/-- In a table that has come about by steps, each language stands under its stored name. -/
theorem Built.stored (built : Built history table) : table.Stored := by
  induction built with
  | empty => exact stored_empty
  | insert _ language key text ih => exact ih.addWords language [(key, text)]
  | merge _ _ ih _ => exact ih.merge _
  | read isObject isTable =>
      rw [ofNode?, isObject, Option.map_some, Option.some.injEq] at isTable
      rw [← isTable]
      exact stored_empty.merge _

/-- A table that has come about by a history shows what the history says. -/
theorem Built.shows (built : Built history table) : table.Shows history := by
  induction built with
  | empty => exact shows_empty
  | insert _ language key text ih => exact ih.addWords (language, [(key, text)])
  | merge _ otherBuilt ih otherIh => exact ih.merge otherIh otherBuilt.stored
  | read isObject isTable =>
      rw [ofNode?, isObject, Option.map_some, Option.some.injEq] at isTable
      rw [← isTable]
      exact shows_ofEntries _

theorem markedKey?_eq_none (noKey : text.toList.head? ≠ some '@') : markedKey? text = none := by
  rw [markedKey?]
  split
  · rename_i letters
    simp [letters] at noKey
  · rfl

theorem markedKey?_marked (key : String) : markedKey? ("@" ++ key) = some key := by
  have letters : ("@" ++ key).toList = '@' :: key.toList := by simp
  simp [markedKey?, letters]

/-- The default language is stored under one spelling. -/
theorem Built.eq_default (built : Built history table)
    (stored : table.languages.contains name = true)
    (isDefault : Text.sameLetters name defaultLanguage = true) : name = defaultLanguage := by
  rcases (built.shows.named name).mp stored with ⟨addition, _, rfl⟩
  rw [← storedName_storedName]
  exact if_pos isDefault

/-- A text in a language, or else in the default language, is the one that the history gave last. -/
theorem Built.lookup_or (built : Built history table) (name key : String) :
    (table.lookup name key).or (table.lookup defaultLanguage key) =
      (lastText? history name key).or (lastText? history defaultLanguage key) := by
  have inDefault : table.lookup defaultLanguage key = lastText? history defaultLanguage key :=
    built.shows.text defaultLanguage key
  by_cases isDefault : Text.sameLetters name defaultLanguage = true
  · rw [lastText?_congr (sameLanguage_default_iff.mpr isDefault), Option.or_self, inDefault]
    cases found : table.languages.get? name with
    | none => simp [lookup, found]
    | some words =>
        have same : name = defaultLanguage :=
          built.eq_default (Option.isSome_of_eq_some found) isDefault
        rw [same, inDefault, Option.or_self]
  · have inLanguage := built.shows.text name key
    rw [storedName_of_not_default isDefault] at inLanguage
    rw [inLanguage, inDefault]

/-- For a marked text the last one of the active language is shown, or of the default language, or
the key. -/
theorem Built.localize_marked (built : Built history table) (key : String)
    (language : Option String) :
    table.localize ("@" ++ key) language =
      ((language.bind fun name => lastText? history name key).or
        (lastText? history defaultLanguage key)).getD key := by
  simp only [localize, markedKey?_marked]
  cases language with
  | none => simpa using congrArg (Option.getD · key) (built.lookup_or defaultLanguage key)
  | some name => exact congrArg (Option.getD · key) (built.lookup_or name key)

theorem mem_otherLanguages_iff :
    name ∈ table.otherLanguages ↔
      table.languages.contains name = true ∧ name ≠ defaultLanguage := by
  rw [otherLanguages, List.mem_filter, SortedMap.mem_keys_iff, SortedMap.contains,
    Option.isSome_iff_exists, bne_iff_ne]

theorem pairwise_otherLanguages (table : Translations) :
    table.otherLanguages.Pairwise (· < ·) :=
  List.Pairwise.filter _ (List.pairwise_map.mpr table.languages.increase)

/-- The other languages are those of the additions, as they were spelled there. -/
theorem Built.mem_otherLanguages_iff (built : Built history table) (name : String) :
    name ∈ table.otherLanguages ↔
      name ∈ history.map Prod.fst ∧ Text.sameLetters name defaultLanguage = false := by
  rw [Translations.mem_otherLanguages_iff, built.shows.named, ← Bool.not_eq_true]
  constructor
  · rintro ⟨⟨addition, additionMem, rfl⟩, other⟩
    have notDefault : Text.sameLetters addition.1 defaultLanguage ≠ true :=
      fun isDefault => other (if_pos isDefault)
    rw [storedName_of_not_default notDefault]
    exact ⟨List.mem_map_of_mem additionMem, notDefault⟩
  · rintro ⟨nameMem, notDefault⟩
    rcases List.mem_map.mp nameMem with ⟨addition, additionMem, rfl⟩
    refine ⟨⟨addition, additionMem, storedName_of_not_default notDefault⟩, ?_⟩
    intro same
    exact notDefault (sameLanguage_default_iff.mp (.inl same))

/-- What a table stores and shows after a history of additions. -/
structure LocalizesBy (history : List Addition) (table : Translations) : Prop where
  /-- The default language is stored under one spelling. -/
  oneDefault : ∀ name, table.languages.contains name = true →
    Text.sameLetters name defaultLanguage = true → name = defaultLanguage
  /-- All other languages are listed in order. -/
  inOrder : table.otherLanguages.Pairwise (· < ·)
  /-- These are the other languages that are stored. -/
  stored : ∀ name, name ∈ table.otherLanguages ↔
    table.languages.contains name = true ∧ name ≠ defaultLanguage
  /-- They are the other languages that the history names. -/
  named : ∀ name, name ∈ table.otherLanguages ↔
    name ∈ history.map Prod.fst ∧ Text.sameLetters name defaultLanguage = false
  /-- A text without a mark is shown as it is. -/
  unmarked : ∀ text language, text.toList.head? ≠ some '@' → table.localize text language = text
  /-- For a marked text the one that was given last in the active language is shown, then the one
  given last in the default language, then the bare key. -/
  marked : ∀ key language, table.localize ("@" ++ key) language =
    ((language.bind fun name => lastText? history name key).or
      (lastText? history defaultLanguage key)).getD key
  /-- Additions that say nothing about a key in these languages do not matter to it. -/
  apart : ∀ more after, Built (history ++ more) after → ∀ key language,
    (∀ addition ∈ more, key ∈ addition.2.map Prod.fst →
      ¬SameLanguage addition.1 defaultLanguage ∧
        ∀ name ∈ language, ¬SameLanguage addition.1 name) →
    after.localize ("@" ++ key) language = table.localize ("@" ++ key) language

/-- A table that has come about by a history shows what the history says. -/
theorem localize_of_built (built : Built history table) : LocalizesBy history table where
  oneDefault _ := built.eq_default
  inOrder := table.pairwise_otherLanguages
  stored _ := Translations.mem_otherLanguages_iff
  named := built.mem_otherLanguages_iff
  unmarked text language noKey := by
    simp [localize, markedKey?_eq_none noKey]
  marked := built.localize_marked
  apart more after longer key language absent := by
    have noText : lastText? more defaultLanguage key = none :=
      lastText?_eq_none fun addition additionMem keyMem => (absent addition additionMem keyMem).1
    rw [longer.localize_marked, built.localize_marked]
    cases language with
    | none => simp [lastText?_append, noText]
    | some name =>
        have noOther : lastText? more name key = none :=
          lastText?_eq_none fun addition additionMem keyMem =>
            (absent addition additionMem keyMem).2 name rfl
        simp [lastText?_append, noText, noOther]

/-- An object with two spellings of the default language is merged into a table. The spelling that
comes later in the order of names counts, although it stands first in the object. -/
theorem localize_of_built_spellings :
    ∃ (history : List Addition) (table : Translations), Built history table ∧
      table.localize "@a" (some "es") = "A" ∧ table.localize "@b" (some "DEFAULT") = "C" ∧
        table.localize "@a" (some "de") = "x" ∧ table.localize "@c" none = "c" := by
  let object : List Addition :=
    [("Default", [("a", "A")]), ("DEFAULT", [("a", "B"), ("b", "C")]), ("es", [])]
  let node : Node := .object (object.map fun addition =>
    (some addition.1, .object (addition.2.map fun word => (some word.1, .string word.2))))
  have isObject : node.entries? (Node.entries? Node.text?) = some object := rfl
  have isTable : ofNode? node = some (ofEntries object) := by rw [ofNode?, isObject]; rfl
  have built := (Built.empty.insert "de" "a" "x").merge (.read isObject isTable)
  have marked := (localize_of_built built).marked
  refine ⟨_, _, built, (marked "a" (some "es")).trans ?_, (marked "b" (some "DEFAULT")).trans ?_,
    (marked "a" (some "de")).trans ?_, (marked "c" none).trans ?_⟩ <;> decide +kernel

end Translations

end BlockEditor
