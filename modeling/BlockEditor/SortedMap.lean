/-!
# Maps with text keys, kept in key order

`SortedMap` holds one value for each key and lists its entries by strictly increasing key, in the
order of code points. Because the order is part of the type, two maps with the same look-ups are
equal (`SortedMap.ext_get?`). `insertSorted` is the underlying insertion on bare entry lists; a
look-up after it needs no order at all (`lookup_insertSorted`).
-/

namespace BlockEditor

variable {Value Image : Type}

/-- Binds a key in an entry list ordered by key, replacing what was bound to it. -/
def insertSorted (key : String) (value : Value) : List (String × Value) → List (String × Value)
  | [] => [(key, value)]
  | (other, kept) :: rest =>
    if key < other then (key, value) :: (other, kept) :: rest
    else if key = other then (key, value) :: rest
    else (other, kept) :: insertSorted key value rest

/-- The entries are listed by strictly increasing key. -/
def KeysIncrease (entries : List (String × Value)) : Prop :=
  entries.Pairwise fun first second => first.1 < second.1

theorem lookup_insertSorted (key query : String) (value : Value)
    (entries : List (String × Value)) :
    (insertSorted key value entries).lookup query =
      if query = key then some value else entries.lookup query := by
  induction entries with
  | nil => grind [insertSorted]
  | cons entry rest ih =>
    obtain ⟨other, kept⟩ := entry
    grind [insertSorted]

theorem mem_insertSorted {key : String} {value : Value} {entries : List (String × Value)}
    {entry : String × Value} (member : entry ∈ insertSorted key value entries) :
    entry = (key, value) ∨ entry ∈ entries := by
  induction entries with
  | nil => simpa [insertSorted] using member
  | cons head rest ih =>
    obtain ⟨other, kept⟩ := head
    grind [insertSorted]

theorem keysIncrease_insertSorted (key : String) (value : Value)
    {entries : List (String × Value)} (increase : KeysIncrease entries) :
    KeysIncrease (insertSorted key value entries) := by
  induction entries with
  | nil => simp [insertSorted, KeysIncrease]
  | cons head rest ih =>
    obtain ⟨other, kept⟩ := head
    obtain ⟨above, rests⟩ := List.pairwise_cons.mp increase
    have tailIncreases := ih rests
    unfold insertSorted
    split
    · rename_i below
      refine List.Pairwise.cons ?_ increase
      intro entry member
      rcases List.mem_cons.mp member with rfl | member
      · exact below
      · exact String.lt_trans below (above entry member)
    split
    · rename_i same
      subst same
      exact List.Pairwise.cons above rests
    · rename_i notBelow different
      refine List.Pairwise.cons ?_ tailIncreases
      intro entry member
      rcases mem_insertSorted member with rfl | member
      · exact Std.lt_of_le_of_ne (Std.not_lt.mp notBelow) (Ne.symm different)
      · exact above entry member

/-- Keys that increase are distinct. -/
theorem KeysIncrease.nodup {entries : List (String × Value)} (increase : KeysIncrease entries) :
    (entries.map Prod.fst).Nodup := by
  rw [List.Nodup, List.pairwise_map]
  apply increase.imp
  intro first second below same
  exact String.lt_irrefl _ (same ▸ below)

theorem lookup_of_notMem {Key : Type} [BEq Key] [LawfulBEq Key] {key : Key}
    {entries : List (Key × Value)} (notMem : key ∉ entries.map Prod.fst) :
    entries.lookup key = none := by
  rw [List.lookup_eq_none_iff]
  intro entry entryMem
  have different : key ≠ entry.1 := by
    rintro rfl
    exact notMem (List.mem_map.mpr ⟨entry, entryMem, rfl⟩)
  simpa using different

theorem mem_of_lookup {Key : Type} [BEq Key] [LawfulBEq Key] {key : Key} {value : Value}
    {entries : List (Key × Value)} (found : entries.lookup key = some value) :
    (key, value) ∈ entries := by
  rcases List.lookup_eq_some_iff.mp found with ⟨before, after, rfl, _⟩
  simp

theorem lookup_map_values (entries : List (String × Value)) (change : String → Value → Image)
    (key : String) :
    (entries.map fun entry => (entry.1, change entry.1 entry.2)).lookup key =
      (entries.lookup key).map (change key) := by
  induction entries with
  | nil => rfl
  | cons entry rest ih =>
    obtain ⟨other, kept⟩ := entry
    grind

/-- A finite map from text to values, listed by increasing key. -/
structure SortedMap (Value : Type) where
  /-- The entries, by strictly increasing key. -/
  entries : List (String × Value)
  /-- No key stands twice, and the entries are ordered by key. -/
  increase : KeysIncrease entries
deriving DecidableEq

namespace SortedMap

/-- The map without entries. -/
def empty : SortedMap Value := ⟨[], List.Pairwise.nil⟩

instance : Inhabited (SortedMap Value) := ⟨empty⟩

/-- The value bound to a key. -/
def get? (map : SortedMap Value) (key : String) : Option Value := map.entries.lookup key

/-- Whether a key is bound. -/
def contains (map : SortedMap Value) (key : String) : Bool := (map.get? key).isSome

/-- Binds a key, replacing what was bound to it. -/
def insert (map : SortedMap Value) (key : String) (value : Value) : SortedMap Value :=
  ⟨insertSorted key value map.entries, keysIncrease_insertSorted key value map.increase⟩

/-- Unbinds a key. -/
def erase (map : SortedMap Value) (key : String) : SortedMap Value :=
  ⟨map.entries.filter fun entry => entry.1 != key, map.increase.filter _⟩

/-- The keys, increasing. -/
def keys (map : SortedMap Value) : List String := map.entries.map Prod.fst

/-- The values, in the order of their keys. -/
def values (map : SortedMap Value) : List Value := map.entries.map Prod.snd

/-- Replaces every value by one computed from it and its key. -/
def mapValues (map : SortedMap Value) (change : String → Value → Image) : SortedMap Image :=
  ⟨map.entries.map fun entry => (entry.1, change entry.1 entry.2),
    by simpa [KeysIncrease, List.pairwise_map] using map.increase⟩

/-- Whether nothing is bound. -/
def isEmpty (map : SortedMap Value) : Bool := map.entries.isEmpty

/-- The number of bound keys. -/
def size (map : SortedMap Value) : Nat := map.entries.length

/-- Binds the entries of a list one after the other, so that the last one with a key counts. -/
def insertAll (map : SortedMap Value) (entries : List (String × Value)) : SortedMap Value :=
  entries.foldl (fun map entry => map.insert entry.1 entry.2) map

/-- The map of an entry list in which the last entry with a key counts. -/
def ofList (entries : List (String × Value)) : SortedMap Value := empty.insertAll entries

@[simp]
theorem get?_empty (key : String) : (empty : SortedMap Value).get? key = none := rfl

theorem get?_insert (map : SortedMap Value) (key query : String) (value : Value) :
    (map.insert key value).get? query = if query = key then some value else map.get? query :=
  lookup_insertSorted key query value map.entries

theorem get?_erase (map : SortedMap Value) (key query : String) :
    (map.erase key).get? query = if query = key then none else map.get? query := by
  simp only [erase, get?]
  induction map.entries with
  | nil => simp
  | cons entry rest ih =>
    obtain ⟨other, kept⟩ := entry
    grind

theorem get?_mapValues (map : SortedMap Value) (change : String → Value → Image) (key : String) :
    (map.mapValues change).get? key = (map.get? key).map (change key) :=
  lookup_map_values map.entries change key

/-- An entry is listed exactly when its key is bound to its value. -/
theorem mem_entries_iff (map : SortedMap Value) (key : String) (value : Value) :
    (key, value) ∈ map.entries ↔ map.get? key = some value := by
  obtain ⟨entries, increase⟩ := map
  unfold get?
  induction entries with
  | nil => simp
  | cons entry rest ih =>
    obtain ⟨other, kept⟩ := entry
    obtain ⟨above, rests⟩ := List.pairwise_cons.mp increase
    have tail := ih rests
    by_cases same : key = other
    · subst same
      have absent : (key, value) ∉ rest := fun member =>
        String.lt_irrefl _ (above (key, value) member)
      simp [absent, eq_comm]
    · simp only at tail
      simp [List.lookup_cons, same, tail, beq_eq_false_iff_ne.mpr same]

theorem mem_keys_iff (map : SortedMap Value) (key : String) :
    key ∈ map.keys ↔ ∃ value, map.get? key = some value := by
  simp [keys, ← mem_entries_iff]

theorem mem_values_iff (map : SortedMap Value) (value : Value) :
    value ∈ map.values ↔ ∃ key, map.get? key = some value := by
  simp [values, ← mem_entries_iff]

/-- Maps with the same look-ups are equal. -/
theorem ext_get? {first second : SortedMap Value}
    (agree : ∀ key, first.get? key = second.get? key) : first = second := by
  have members : ∀ entry, entry ∈ first.entries ↔ entry ∈ second.entries := by
    rintro ⟨key, value⟩
    rw [mem_entries_iff, mem_entries_iff, agree]
  obtain ⟨firstEntries, firstIncrease⟩ := first
  obtain ⟨secondEntries, secondIncrease⟩ := second
  congr 1
  clear agree
  simp only at members
  induction firstEntries generalizing secondEntries with
  | nil =>
    cases secondEntries with
    | nil => rfl
    | cons entry rest => exact absurd ((members entry).mpr (by simp)) (by simp)
  | cons head rest ih =>
    cases secondEntries with
    | nil => exact absurd ((members head).mp (by simp)) (by simp)
    | cons other others =>
      obtain ⟨headAbove, restIncreases⟩ := List.pairwise_cons.mp firstIncrease
      obtain ⟨otherAbove, othersIncrease⟩ := List.pairwise_cons.mp secondIncrease
      have same : head = other := by
        rcases List.mem_cons.mp ((members head).mp (by simp)) with found | found
        · exact found
        rcases List.mem_cons.mp ((members other).mpr (by simp)) with found' | found'
        · exact found'.symm
        · exact absurd (String.lt_trans (headAbove _ found') (otherAbove _ found))
            (String.lt_irrefl _)
      subst same
      rw [ih restIncreases others othersIncrease]
      intro entry
      have here := members entry
      simp only [List.mem_cons] at here
      constructor
      · intro member
        rcases here.mp (Or.inr member) with rfl | found
        · exact absurd (headAbove _ member) (String.lt_irrefl _)
        · exact found
      · intro member
        rcases here.mpr (Or.inr member) with rfl | found
        · exact absurd (otherAbove _ member) (String.lt_irrefl _)
        · exact found

end SortedMap

end BlockEditor
