import BlockEditor.Catalog.Basic

/-!
# Tables of texts

Binding the entries of a list in a map puts the last ones on top (`SortedMap.get?_insertAll`).
Merging tables of texts does so language by language, after the names of the languages have been
brought to the form under which they are stored; the text that a table has for a key in a language
(`Translations.textOf?`) then lies on top of the one that was there (`Translations.lookup_merge`).
-/

namespace BlockEditor

namespace SortedMap

variable {Value : Type}

/-- The last entry with a key counts. -/
theorem get?_insertAll (map : SortedMap Value) (entries : List (String × Value)) (key : String) :
    (map.insertAll entries).get? key = (entries.reverse.lookup key).or (map.get? key) := by
  induction entries generalizing map with
  | nil => rfl
  | cons entry rest ih =>
      rcases entry with ⟨bound, value⟩
      have first : map.insertAll ((bound, value) :: rest) =
          (map.insert bound value).insertAll rest := rfl
      rw [first, ih, get?_insert, List.reverse_cons, List.lookup_append, Option.or_assoc,
        List.lookup_cons]
      by_cases same : key = bound
      · simp [same]
      · simp [same, beq_eq_false_iff_ne.mpr same]

theorem get?_ofList (entries : List (String × Value)) (key : String) :
    (ofList entries).get? key = entries.reverse.lookup key := by
  rw [ofList, get?_insertAll, get?_empty, Option.or_none]

theorem lookup_reverse_entries (map : SortedMap Value) (key : String) :
    map.entries.reverse.lookup key = map.get? key := by
  rcases map with ⟨entries, increase⟩
  have distinct := increase.nodup
  simp only [get?]
  clear increase
  induction entries with
  | nil => rfl
  | cons entry rest ih =>
      rcases entry with ⟨bound, value⟩
      rcases List.nodup_cons.mp distinct with ⟨notMem, restDistinct⟩
      rw [List.reverse_cons, List.lookup_append, ih restDistinct, List.lookup_cons]
      by_cases same : key = bound
      · subst same
        simp [lookup_of_notMem notMem]
      · simp [List.lookup_cons, beq_eq_false_iff_ne.mpr same]

theorem ofList_entries (map : SortedMap Value) : ofList map.entries = map := by
  apply ext_get?
  intro key
  rw [get?_ofList, lookup_reverse_entries]

end SortedMap

namespace Translations

/-- The text for a key in a language, under whatever name of the language it stands. If it stands
under several of them, the last one counts. -/
def textOf? (table : Translations) (language key : String) : Option String :=
  table.languages.entries.reverse.findSome? fun entry =>
    if storedName entry.1 = storedName language then entry.2.get? key else none

variable (table other : Translations) (language name key : String)

/-- After adding words, the last of them with a key is found, or what was found before. -/
theorem lookup_addWords (words : List (String × String)) :
    (table.addWords language words).lookup name key =
      (if storedName language = name then words.reverse.lookup key else none).or
        (table.lookup name key) := by
  rw [addWords, lookup, SortedMap.get?_insert]
  by_cases same : name = storedName language
  · subst same
    simp only [if_true, Option.bind_some, SortedMap.get?_insertAll]
    rw [lookup, wordsOf]
    cases table.languages.get? (storedName language) <;> rfl
  · rw [if_neg same, if_neg (Ne.symm same)]
    rfl

/-- The texts of a table that is merged into another one lie on top of the texts there. -/
theorem lookup_merge :
    (table.merge other).lookup (storedName language) key =
      (other.textOf? language key).or (table.lookup (storedName language) key) := by
  rw [merge, textOf?]
  induction other.languages.entries generalizing table with
  | nil => rfl
  | cons entry rest ih =>
      rw [List.foldl_cons, ih, lookup_addWords, SortedMap.lookup_reverse_entries,
        List.reverse_cons, List.findSome?_append, List.findSome?_singleton, ← Option.or_assoc]

variable {table} {language}

theorem storedName_storedName (language : String) :
    storedName (storedName language) = storedName language := by
  by_cases isDefault : Text.sameLetters language defaultLanguage = true
  · have stored : storedName language = defaultLanguage := if_pos isDefault
    rw [stored]
    decide
  · have stored : storedName language = language := if_neg isDefault
    rw [stored, stored]

/-- Every language stands under the name under which it is stored. -/
def Stored (table : Translations) : Prop :=
  ∀ entry ∈ table.languages.entries, storedName entry.1 = entry.1

theorem stored_empty : empty.Stored := List.forall_mem_nil _

theorem Stored.addWords (stored : table.Stored) (language : String)
    (words : List (String × String)) : (table.addWords language words).Stored := by
  intro entry entryMem
  rcases mem_insertSorted entryMem with rfl | entryMem
  · exact storedName_storedName language
  · exact stored entry entryMem

theorem Stored.merge (stored : table.Stored) (other : Translations) :
    (table.merge other).Stored := by
  rw [Translations.merge]
  induction other.languages.entries generalizing table with
  | nil => exact stored
  | cons entry rest ih => exact ih (stored.addWords entry.1 entry.2.entries)

theorem get?_foldl_addWords {entries : List (String × Words)}
    (distinct : (entries.map Prod.fst).Nodup)
    (stored : ∀ entry ∈ entries, storedName entry.1 = entry.1) (table : Translations)
    (name : String) :
    (entries.foldl (fun table entry => table.addWords entry.1 entry.2.entries)
        table).languages.get? name =
      ((entries.lookup name).map fun words => (table.wordsOf name).insertAll words.entries).or
        (table.languages.get? name) := by
  induction entries generalizing table with
  | nil => rfl
  | cons entry rest ih =>
      rcases entry with ⟨language, words⟩
      rcases List.nodup_cons.mp distinct with ⟨notMem, restDistinct⟩
      rcases List.forall_mem_cons.mp stored with ⟨isStored, restStored⟩
      have isStored : storedName language = language := isStored
      -- No later entry goes to this language: names are distinct, and stored as they stand.
      have added : ∀ other : String, (table.addWords language words.entries).languages.get? other =
          if other = language then some ((table.wordsOf language).insertAll words.entries)
          else table.languages.get? other := by
        intro other
        rw [Translations.addWords, isStored, SortedMap.get?_insert]
      rw [List.foldl_cons, ih restDistinct restStored, wordsOf, added, List.lookup_cons]
      by_cases same : name = language
      · subst same
        simp [lookup_of_notMem notMem]
      · simp [same, beq_eq_false_iff_ne.mpr same, wordsOf]

/-- A table in which every language stands under its stored name is what is left of it when it is
merged into an empty one. -/
theorem Stored.merge_empty (stored : table.Stored) : empty.merge table = table := by
  have same : (empty.merge table).languages = table.languages := by
    apply SortedMap.ext_get?
    intro name
    have noWords : empty.wordsOf name = .empty := rfl
    have kept : (fun words : Words => SortedMap.empty.insertAll words.entries) = id := by
      funext words
      exact words.ofList_entries
    rw [Translations.merge, get?_foldl_addWords table.languages.increase.nodup stored, noWords,
      kept, Option.map_id_apply]
    exact Option.or_none
  exact congrArg Translations.mk same

end Translations

end BlockEditor
