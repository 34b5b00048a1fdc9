import BlockEditor.Proofs.Store.Names
import BlockEditor.Store.LocalLibrary

/-!
# Where the path of a function leads

A location is direct if a path leads there through directories only, with no link on the way
(`FileSystem.IsDirect`). The root of a library that was opened is direct
(`LocalLibrary.isDirect_root`). From such a root the name of a function leads to the entry with this
name, directly inside the root, if this entry is no link (`LocalLibrary.follow_filePath`); the
operations that do not follow a link at the end come to the entry in any case
(`LocalLibrary.entryOf_filePath`).
-/

namespace BlockEditor

open Text

variable {files : FileSystem} {here root location query : Location} {name : String}
  {followLast : Bool} {viaLink : Location → List String → Except FileFault Location}

namespace FileSystem

/-- What is found after all entries of a key are dropped. -/
theorem lookup_filter_ne (items : List (Location × Item)) (location query : Location) :
    (items.filter fun entry => entry.1 != location).lookup query =
      if query = location then none else items.lookup query := by
  induction items with
  | nil => simp
  | cons entry rest ih =>
      rcases entry with ⟨place, item⟩
      by_cases here : place = location
      · subst place
        rw [List.filter_cons_of_neg (by simp), ih]
        by_cases same : query = location
        · simp [same]
        · simp [same, List.lookup_cons, beq_false_of_ne same]
      · rw [List.filter_cons_of_pos (by simpa using here), List.lookup_cons, List.lookup_cons, ih]
        cases found : query == place with
        | false => rfl
        | true =>
            cases beq_iff_eq.mp found
            simp [here]

/-- What was put somewhere below the top directory stands there, and nothing else has changed. -/
theorem at?_put (below : location ≠ []) (item : Item) (query : Location) :
    (files.put location item).at? query =
      if query = location then some item else files.at? query := by
  rw [at?, at?, put, List.lookup_cons, lookup_filter_ne]
  by_cases same : query = location
  · subst query
    simp [below]
  · simp [same, beq_false_of_ne same]

theorem at?_erase (below : location ≠ []) (query : Location) :
    (files.erase location).at? query = if query = location then none else files.at? query := by
  rw [at?, at?, erase, lookup_filter_ne]
  by_cases same : query = location
  · subst query
    simp [below]
  · simp [same]

/-- At most what is at one location has changed. No directory is gone, and no link has come. -/
structure ChangedOnlyAt (files after : FileSystem) (place : Location) : Prop where
  elsewhere : ∀ location, location ≠ place → after.at? location = files.at? location
  directories : ∀ location writable, files.at? location = some (.directory writable) →
    after.at? location = some (.directory writable)
  links : ∀ location target, after.at? location = some (.link target) →
    files.at? location = some (.link target)

theorem ChangedOnlyAt.refl (files : FileSystem) (place : Location) :
    files.ChangedOnlyAt files place where
  elsewhere _ _ := rfl
  directories _ _ there := there
  links _ _ there := there

/-- A file put in the place of no directory changes this location only. -/
theorem changedOnlyAt_put
    (notDirectory : ∀ writable, files.at? location ≠ some (.directory writable))
    (content : Symbols) :
    files.ChangedOnlyAt (files.put location (.file content)) location := by
  have below : location ≠ [] := by
    rintro rfl
    exact notDirectory true rfl
  refine ⟨fun query different => ?_, fun query writable there => ?_, fun query target there => ?_⟩
  · rw [at?_put below, if_neg different]
  · rw [at?_put below, if_neg, there]
    rintro rfl
    exact notDirectory writable there
  · rw [at?_put below] at there
    split at there
    · cases there
    · exact there

theorem changedOnlyAt_erase
    (notDirectory : ∀ writable, files.at? location ≠ some (.directory writable)) :
    files.ChangedOnlyAt (files.erase location) location := by
  have below : location ≠ [] := by
    rintro rfl
    exact notDirectory true rfl
  refine ⟨fun query different => ?_, fun query writable there => ?_, fun query target there => ?_⟩
  · rw [at?_erase below, if_neg different]
  · rw [at?_erase below, if_neg, there]
    rintro rfl
    exact notDirectory writable there
  · rw [at?_erase below] at there
    split at there
    · cases there
    · exact there

/-- A new file changes the entry that its path names only. -/
theorem createNew_changedOnlyAt {path : List String}
    (named : ∀ place, files.entryOf path = .ok place → place = location) :
    files.ChangedOnlyAt (files.createNew path).1 location := by
  rw [createNew]
  cases found : files.entryOf path with
  | error fault => exact .refl files location
  | ok place =>
      cases named place found
      cases there : files.at? location with
      | some item => simp only [there]; exact .refl files location
      | none =>
          simp only [there]
          split
          · exact changedOnlyAt_put (by simp [there]) []
          · exact .refl files location

/-- A written text changes the location that its path leads to only. -/
theorem writeText_changedOnlyAt {path : List String}
    (leads : ∀ place, files.follow path = .ok place → place = location) (text : String) :
    files.ChangedOnlyAt (files.writeText path text).1 location := by
  rw [writeText]
  cases found : files.follow path with
  | error fault => exact .refl files location
  | ok place =>
      cases leads place found
      rcases there : files.at? location with _ | content | writable | target
      · simp only [there]
        split
        · exact changedOnlyAt_put (by simp [there]) _
        · exact .refl files location
      · simp only [there]
        exact changedOnlyAt_put (by simp [there]) _
      · simp only [there]
        exact .refl files location
      · simp only [there]
        exact .refl files location

theorem removeFile_changedOnlyAt {path : List String}
    (named : ∀ place, files.entryOf path = .ok place → place = location) :
    files.ChangedOnlyAt (files.removeFile path).1 location := by
  rw [removeFile]
  cases found : files.entryOf path with
  | error fault => exact .refl files location
  | ok place =>
      cases named place found
      rcases there : files.at? location with _ | content | writable | target
      · simp only [there]
        exact .refl files location
      · simp only [there]
        split
        · exact changedOnlyAt_erase (by simp [there])
        · exact .refl files location
      · simp only [there]
        exact .refl files location
      · simp only [there]
        split
        · exact changedOnlyAt_erase (by simp [there])
        · exact .refl files location

/-- Every way to a location leads through directories, with no link among them. -/
structure IsDirect (files : FileSystem) (location : Location) : Prop where
  names : ∀ part ∈ location, isEntryName part = true
  directories : ∀ above, above <+: location →
    ∃ writable, files.at? above = some (.directory writable)

theorem IsDirect.top (files : FileSystem) : files.IsDirect [] where
  names part partMem := by cases partMem
  directories above prefixed := by
    cases List.prefix_nil.mp prefixed
    exact ⟨true, rfl⟩

/-- Above a directory that is reached without a link there are no links. -/
theorem IsDirect.above (direct : files.IsDirect location) (prefixed : here <+: location) :
    files.IsDirect here where
  names part partMem := direct.names part (prefixed.subset partMem)
  directories above isAbove := direct.directories above (isAbove.trans prefixed)

/-- A step under a name goes to the entry of this name, on through a directory or a link. -/
theorem walk_of_isEntryName (isName : isEntryName name = true) (rest : List String) :
    files.walk followLast viaLink here (name :: rest) =
      match files.at? (here ++ [name]) with
      | some (.directory _) => files.walk followLast viaLink (here ++ [name]) rest
      | some (.link target) =>
        if rest.isEmpty && !followLast then .ok (here ++ [name])
        else viaLink (if isAbsolute target then [] else here) (pathParts target ++ rest)
      | _ => if rest.isEmpty then .ok (here ++ [name]) else .error .other := by
  have goesOn : ¬(name = "" ∨ name = ".") := by
    rintro (rfl | rfl) <;> cases isName
  have notAbove : name ≠ ".." := by
    rintro rfl
    cases isName
  exact (if_neg goesOn).trans ((if_neg notAbove).trans (if_pos isName))

/-- A path goes on from a direct location. -/
theorem walk_append (direct : files.IsDirect (here ++ location)) (rest : List String) :
    files.walk followLast viaLink here (location ++ rest) =
      files.walk followLast viaLink (here ++ location) rest := by
  induction location generalizing here with
  | nil => simp
  | cons part parts ih =>
      have splits : here ++ part :: parts = here ++ [part] ++ parts := by simp
      rw [splits] at direct ⊢
      rcases direct.directories (here ++ [part]) (List.prefix_append _ _) with ⟨writable, entered⟩
      rw [List.cons_append, walk_of_isEntryName (direct.names part (by simp)), entered]
      exact ih direct

/-- A walk from the top along a way without links is a walk from where the way ends. -/
theorem walk_append_top (direct : files.IsDirect location) (rest : List String) :
    files.walk followLast viaLink [] (location ++ rest) =
      files.walk followLast viaLink location rest := by
  have below : files.IsDirect ([] ++ location) := direct
  exact walk_append below rest

/-- From a direct location a name leads to the entry with this name, if this is no link. -/
theorem walk_name (isName : isFunctionName name = true)
    (isEntry : followLast = true → ∀ target, files.at? (here ++ [name]) ≠ some (.link target)) :
    files.walk followLast viaLink here [name] =
      if name.utf8ByteSize ≤ nameLimit then .ok (here ++ [name]) else .error .other := by
  by_cases short : name.utf8ByteSize ≤ nameLimit
  · rw [walk_of_isEntryName (isEntryName_of_isFunctionName isName short), if_pos short]
    split
    · rfl
    · rename_i target isLink
      cases followLast with
      | false => rfl
      | true => exact absurd isLink (isEntry rfl target)
    · rfl
  · have plain := isPlainName_of_isFunctionName isName
    have tooLong : isEntryName name = false := by simp [isEntryName, short]
    simp only [walk, plain.notEmpty, plain.notSelf, plain.notAbove, or_self, if_false, tooLong,
      Bool.false_eq_true, short]

theorem resolve_name (direct : files.IsDirect root) (isName : isFunctionName name = true)
    (isEntry : followLast = true → ∀ target, files.at? (root ++ [name]) ≠ some (.link target))
    (links : Nat) :
    files.resolve followLast links [] (root ++ [name]) =
      if name.utf8ByteSize ≤ nameLimit then .ok (root ++ [name]) else .error .other := by
  cases links with
  | zero => exact (walk_append_top direct _).trans (walk_name isName isEntry)
  | succ links => exact (walk_append_top direct _).trans (walk_name isName isEntry)

/-- The names on the way to a direct location lead there. -/
theorem follow_direct (direct : files.IsDirect location) :
    files.follow location = .ok location := by
  rw [follow, linkLimit, resolve, ← List.append_nil location, walk_append_top direct]
  simp [walk]

end FileSystem

theorem joinPath_of_isPlainName (plain : IsPlainName name) (root : Location) :
    joinPath root name = root ++ [name] := by
  have relative : isAbsolute name = false := by
    rw [isAbsolute, beq_eq_false_iff_ne]
    exact fun begins => plain.noSlash (List.mem_of_mem_head? begins)
  simp [joinPath, relative, pathParts, List.splitOn_eq_singleton plain.noSlash]

namespace LocalLibrary

variable {library : LocalLibrary}

/-- The path of a function is the child of the root that has its name. -/
theorem filePath_eq (isName : isFunctionName name = true) :
    library.filePath name = library.root ++ [name] :=
  joinPath_of_isPlainName (isPlainName_of_isFunctionName isName) library.root

theorem follow_filePath (direct : files.IsDirect library.root) (isName : isFunctionName name = true)
    (notLink : ∀ target, files.at? (library.root ++ [name]) ≠ some (.link target)) :
    files.follow (library.filePath name) =
      if name.utf8ByteSize ≤ nameLimit then .ok (library.root ++ [name]) else .error .other := by
  rw [filePath_eq isName]
  exact FileSystem.resolve_name direct isName (fun _ => notLink) linkLimit

theorem entryOf_filePath (direct : files.IsDirect library.root)
    (isName : isFunctionName name = true) :
    files.entryOf (library.filePath name) =
      if name.utf8ByteSize ≤ nameLimit then .ok (library.root ++ [name]) else .error .other := by
  rw [filePath_eq isName]
  exact FileSystem.resolve_name direct isName (fun followed => by cases followed) linkLimit

end LocalLibrary

end BlockEditor
