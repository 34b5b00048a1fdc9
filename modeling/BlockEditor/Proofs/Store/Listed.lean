import BlockEditor.Proofs.Store.Bindings
import BlockEditor.Proofs.Store.Requests

/-!
# Listing the files of a directory

A directory hands out its entries in any order. Sorted by the bytes of their names they are listed
in one order only, because no name stands twice in a directory; so the files in the root of a
library are listed as the library lists them that keeps its directory sorted
(`LocalLibrary.list_eq`).
-/

namespace BlockEditor

variable {files : FileSystem} {location : Location} {name : String} {item : Item}

theorem lookup_of_mem {Key Value : Type} [BEq Key] [LawfulBEq Key] {key : Key} {value : Value}
    {entries : List (Key × Value)} (distinct : (entries.map Prod.fst).Nodup)
    (member : (key, value) ∈ entries) : entries.lookup key = some value := by
  rcases List.append_of_mem member with ⟨before, after, rfl⟩
  rw [List.lookup_eq_some_iff]
  refine ⟨before, after, rfl, ?_⟩
  intro entry entryMem
  rw [List.map_append, List.map_cons, List.nodup_append] at distinct
  have different := distinct.2.2 entry.1 (List.mem_map_of_mem entryMem) key List.mem_cons_self
  simpa using Ne.symm different

theorem utf8Bytes_inj {first second : String} :
    utf8Bytes first = utf8Bytes second ↔ first = second := by
  constructor
  · intro same
    exact String.toByteArray_inj.mp (ByteArray.ext (Array.toList_inj.mp same))
  · rintro rfl
    rfl

namespace FileSystem

/-- An entry of a location is one part below it. -/
theorem entryIn?_eq_some {placed : Location × Item} {entry : String × Item} :
    entryIn? location placed = some entry ↔ placed = (location ++ [entry.1], entry.2) := by
  rcases placed with ⟨place, item⟩
  rcases List.eq_nil_or_concat place with rfl | ⟨above, last, rfl⟩
  · simp [entryIn?]
  · rcases entry with ⟨name, other⟩
    simp only [entryIn?, List.concat_eq_append, List.getLast?_concat, List.dropLast_concat,
      Option.ite_none_right_eq_some, Option.some.injEq, Prod.mk.injEq]
    constructor
    · rintro ⟨rfl, rfl, rfl⟩
      exact ⟨rfl, rfl⟩
    · rintro ⟨same, rfl⟩
      simpa using List.append_inj' same rfl

/-- The entries of a directory are what stands directly in it. -/
theorem mem_entriesIn :
    (name, item) ∈ files.entriesIn location ↔ files.at? (location ++ [name]) = some item := by
  have notTop : location ++ [name] ≠ [] := by simp
  simp only [at?, if_neg notTop, entriesIn, List.mem_filterMap, entryIn?_eq_some, exists_eq_right]
  exact ⟨lookup_of_mem files.distinct, mem_of_lookup⟩

/-- No name stands twice in a directory. -/
theorem pairwise_entriesIn (files : FileSystem) (location : Location) :
    (files.entriesIn location).Pairwise fun first second => first.1 ≠ second.1 := by
  rw [entriesIn]
  apply (List.pairwise_map.mp files.distinct).filterMap
  rintro first second different entry isFirst other isSecond same
  cases entryIn?_eq_some.mp isFirst
  cases entryIn?_eq_some.mp isSecond
  exact different (by rw [same])

/-- Sorting entries with different names leaves them in the strict order of their names. -/
theorem pairwise_insertionSort {entries : List (String × Item)}
    (distinct : entries.Pairwise fun first second => first.1 ≠ second.1) :
    (entries.insertionSort fun first second => utf8Bytes first.1 ≤ utf8Bytes second.1).Pairwise
      fun first second => utf8Bytes first.1 < utf8Bytes second.1 := by
  let before : String × Item → String × Item → Prop := fun first second =>
    utf8Bytes first.1 ≤ utf8Bytes second.1
  have : Std.Total before := ⟨fun _ _ => List.le_total _ _⟩
  have : IsTrans (String × Item) before := ⟨fun _ _ _ => List.le_trans⟩
  have sorted := List.pairwise_insertionSort before entries
  have different : (entries.insertionSort before).Pairwise fun first second =>
      first.1 ≠ second.1 :=
    distinct.perm (List.perm_insertionSort before entries).symm Ne.symm
  refine (sorted.and different).imp fun {first second} related => ?_
  exact Std.lt_of_le_of_ne related.1 (utf8Bytes_inj.not.mpr related.2)

end FileSystem

namespace LocalLibrary

variable {library : LocalLibrary}

/-- What is listed are the regular files whose names are names of functions. -/
theorem functionName?_eq_some {entry : String × Item} :
    functionName? entry = some name ↔
      isFunctionName name = true ∧ ∃ content, entry = (name, .file content) := by
  rcases entry with ⟨other, content | writable | target⟩
  · simp only [functionName?, Option.ite_none_right_eq_some, Option.some.injEq, Prod.mk.injEq,
      Item.file.injEq]
    constructor
    · rintro ⟨isName, rfl⟩
      exact ⟨isName, content, rfl, rfl⟩
    · rintro ⟨isName, _, rfl, _⟩
      exact ⟨isName, rfl⟩
  · simp [functionName?]
  · simp [functionName?]

theorem list_of_isOpen (isOpen : library.IsOpen files) :
    library.list files = .ok
      (((files.entriesIn library.root).insertionSort fun first second =>
        utf8Bytes first.1 ≤ utf8Bytes second.1).filterMap functionName?) := by
  simp only [list, FileSystem.sortedEntries, FileSystem.follow_direct isOpen.direct,
    isOpen.writable]

/-- The names that are listed are those of the files in the root that may be functions. -/
theorem mem_list_iff (isOpen : library.IsOpen files) {names : List String}
    (listed : library.list files = .ok names) :
    name ∈ names ↔ isFunctionName name = true ∧
      ∃ content, files.at? (library.root ++ [name]) = some (.file content) := by
  rw [list_of_isOpen isOpen] at listed
  cases listed
  simp only [List.mem_filterMap, functionName?_eq_some, List.mem_insertionSort]
  constructor
  · rintro ⟨_, member, isName, content, rfl⟩
    exact ⟨isName, content, FileSystem.mem_entriesIn.mp member⟩
  · rintro ⟨isName, content, there⟩
    exact ⟨_, FileSystem.mem_entriesIn.mpr there, isName, content, rfl⟩

/-- The names are listed in the order of their bytes. -/
theorem pairwise_list (isOpen : library.IsOpen files) {names : List String}
    (listed : library.list files = .ok names) :
    names.Pairwise fun first second => utf8Bytes first < utf8Bytes second := by
  rw [list_of_isOpen isOpen] at listed
  cases listed
  apply (FileSystem.pairwise_insertionSort (files.pairwise_entriesIn library.root)).filterMap
  rintro first second below name isFirst query isSecond
  rcases functionName?_eq_some.mp isFirst with ⟨_, _, rfl⟩
  rcases functionName?_eq_some.mp isSecond with ⟨_, _, rfl⟩
  exact below

end LocalLibrary

end BlockEditor
