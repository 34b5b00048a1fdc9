import BlockEditor.Proofs.Catalog.Marks
import BlockEditor.Proofs.Catalog.Tables
import BlockEditor.Proofs.Json.Sorted

/-!
# Tables as text

The categories and the texts of a catalog are written as JSON and read back. A table of texts is
read by merging what stands there into an empty table, so it comes back if its languages stand under
their stored names. This is so in every catalog that calls have led to (`Catalog.stored_run`).
-/

namespace BlockEditor

open Json

theorem Json.Value.whole_toInt (number : Int32) :
    ∃ inRange, Value.whole number.toInt = .number (.integer number.toInt inRange) := by
  have inRange : IntegerRange number.toInt := by
    have below := number.toInt_lt
    have above := number.le_toInt
    simp only [IntegerRange, Decimal.wordLimit]
    omega
  exact ⟨inRange, dif_pos inRange⟩

/-- A number with 32 bits is written and read back. -/
theorem Json.Node.integer32?_whole (number : Int32) :
    Node.integer32? (Value.whole number.toInt).node = some number := by
  rcases Value.whole_toInt number with ⟨inRange, isNumber⟩
  have below := number.toInt_lt
  have above := number.le_toInt
  rw [isNumber, Value.node, Node.integer32?, Number.int?, Option.bind_some,
    if_pos ⟨above, below⟩, Int32.ofInt_toInt]

namespace Category

/-- A category is read back. -/
theorem ofNode?_json (category : Category) : ofNode? category.json.node = some category := by
  rcases category with ⟨name, hue⟩
  have distinct : ([("name", Value.string name), ("hue", .whole hue.toInt)].map
      Prod.fst).Nodup := by
    simp
  rcases Node.members?_object distinct ["name", "hue"] with ⟨members, found, lookups⟩
  have hasName : members.lookup "name" = some (Value.string name).node := by
    rw [lookups "name" (by simp), List.lookup_cons_self]
    rfl
  have hasHue : members.lookup "hue" = some (Value.whole hue.toInt).node := by
    rw [lookups "hue" (by simp)]
    generalize Value.whole hue.toInt = value
    simp [List.lookup_cons]
  rw [ofNode?, json, found]
  simp [Members.required, hasName, hasHue, Value.node, Node.text?, Node.integer32?_whole]

theorem writable_json (category : Category) : category.json.Writable 1 := by
  rcases Value.whole_toInt category.hue with ⟨inRange, isNumber⟩
  apply Value.writable_object
  simp [Value.writable_string, isNumber, Value.writable_integer]

end Category

namespace CategoryTable

theorem ofNode?_json (table : CategoryTable) : ofNode? table.json.node = some table :=
  Node.list?_array fun category _ => category.ofNode?_json

theorem writable_json (table : CategoryTable) : table.json.Writable 2 := by
  apply Value.writable_array
  rw [List.forall_mem_map]
  exact fun category _ => category.writable_json

end CategoryTable

namespace Translations

/-- A table of texts is read back if its languages stand under their stored names. -/
theorem ofNode?_json {table : Translations} (stored : table.Stored) :
    ofNode? table.json.node = some table := by
  have words : ∀ entry ∈ table.languages.entries,
      Node.entries? Node.text?
          (Value.object (entry.2.entries.map fun word => (word.1, .string word.2))).node =
        some entry.2.entries := by
    intro entry _
    have read : Node.entries? Node.text?
        (Value.object (entry.2.entries.map fun word => (word.1, .string word.2))).node =
          some (entry.2.entries.map fun word => (word.1, id word.2)) :=
      Node.entries?_object Value.string id fun _ _ => rfl
    simpa using read
  have languages : Node.entries? (Node.entries? Node.text?) table.json.node =
      some (table.languages.entries.map fun entry => (entry.1, entry.2.entries)) :=
    Node.entries?_object
      (fun words : Words => .object (words.entries.map fun word => (word.1, .string word.2)))
      SortedMap.entries words
  rw [ofNode?, languages, Option.map_some, ofEntries, List.map_map]
  simp only [Function.comp_def, SortedMap.ofList_entries, List.map_id',
    stored.merge_empty]

/-- The JSON form of texts is an object of objects at most. -/
theorem writable_json (table : Translations) : table.json.Writable 2 := by
  apply Value.writable_object
  rw [List.forall_mem_map]
  intro entry _
  apply Value.writable_object
  rw [List.forall_mem_map]
  exact fun word _ => Value.writable_string word.2

end Translations

namespace Catalog

variable {catalog : Catalog}

theorem translations_applyTables (catalog : Catalog) (update : CatalogUpdate) :
    (catalog.applyTables update).translations =
      update.translations.elim catalog.translations catalog.translations.merge := by
  rw [applyTables]
  cases update.translations <;> cases update.categories <;> rfl

theorem stored_applyTables (stored : catalog.translations.Stored) (update : CatalogUpdate) :
    (catalog.applyTables update).translations.Stored := by
  rw [translations_applyTables]
  cases update.translations with
  | none => exact stored
  | some table => exact stored.merge table

/-- Every call leaves each language under its stored name. -/
theorem stored_apply (stored : catalog.translations.Stored) (call : Call) :
    (call.apply catalog).translations.Stored := by
  cases keeps : call.keepsLabels with
  | true =>
      rw [(call.keepsLabels_apply keeps).1]
      exact stored
  | false =>
      cases call with
      | mergeTranslations table => exact stored.merge table
      | setLanguage language => exact stored
      | applyUpdate update =>
          rw [Call.apply]
          rcases done : catalog.applyUpdate update with ⟨after, error | answer⟩
          · rw [applyUpdate_aborted done, (sameLabels_abortRefresh catalog.beginRefresh).1]
            exact stored
          · rcases applyUpdate_ok done with ⟨_, rfl⟩ | ⟨formats, _, rfl⟩
            · exact stored_applyTables stored update
            · have stillStored : (catalog.refreshed formats).translations.Stored := stored
              exact stored_applyTables stillStored update
      | register | registerText | registerFormats | markAllDeprecated | beginRefresh
      | commitRefresh | abortRefresh | mergeCategories => cases keeps

/-- After any calls each language of a catalog stands under its stored name. -/
theorem stored_run (calls : List Call) : (run calls).translations.Stored := by
  have kept : ∀ catalog : Catalog, catalog.translations.Stored →
      (calls.foldl Call.apply catalog).translations.Stored := by
    induction calls with
    | nil => exact fun _ stored => stored
    | cons call calls ih => exact fun catalog stored => ih _ (stored_apply stored call)
  exact kept empty Translations.stored_empty

end Catalog

end BlockEditor
