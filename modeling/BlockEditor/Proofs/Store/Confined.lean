import BlockEditor.Proofs.Store.Listed

/-!
# What a request to a function library changes

Under the name of a function a request has to do with one location, the entry with this name
directly in the root (`LocalLibrary.Confined`). Only if this entry is a link, a request that writes
goes on to where the link leads (`LocalLibrary.write_of_leads`). The library makes no links itself,
and it leaves the way to its root as it is. No request refuses the name of a function
(`LocalLibrary.serve_ne_invalidName`).
-/

namespace BlockEditor

open Text

variable {files others : FileSystem} {location place : Location} {name text : String}

theorem FileSystem.ChangedOnlyAt.isDirect {after : FileSystem}
    (changed : files.ChangedOnlyAt after place) (direct : files.IsDirect location) :
    after.IsDirect location where
  names := direct.names
  directories above prefixed := by
    rcases direct.directories above prefixed with ⟨writable, there⟩
    exact ⟨writable, changed.directories above writable there⟩

/-- Whether a request replaces the text of a file. -/
def FunctionLibrary.Request.isWriting : FunctionLibrary.Request → Bool
  | .write _ => true
  | .save _ => true
  | _ => false

namespace LocalLibrary

open FunctionLibrary

variable {library : LocalLibrary} {running : FunctionLibrary} {request : Request}

/-- A request under a name has to do with nothing but the entry with this name in the root. -/
structure Confined (library : LocalLibrary) (name : String) (request : Request) : Prop where
  /-- Nothing else is changed, unless the entry is a link and the request writes where it leads. -/
  leaves : ∀ files, library.IsOpen files → ∀ location, location ≠ library.root ++ [name] →
    (request.isWriting = true → files.follow (library.filePath name) ≠ .ok location) →
      (library.serve files name request).1.at? location = files.at? location
  /-- What the entry is decides what is answered, and what the entry is afterwards. -/
  sees : ∀ files others, library.IsOpen files → library.IsOpen others →
    files.HasNoLink (library.root ++ [name]) →
      files.at? (library.root ++ [name]) = others.at? (library.root ++ [name]) →
        (library.serve files name request).2 = (library.serve others name request).2 ∧
          (library.serve files name request).1.at? (library.root ++ [name]) =
            (library.serve others name request).1.at? (library.root ++ [name])
  /-- The root stays a directory without a link on the way, and no link is made. -/
  keeps : ∀ files, library.IsOpen files → library.IsOpen (library.serve files name request).1 ∧
    ∀ location, files.HasNoLink location →
      (library.serve files name request).1.HasNoLink location

/-- A name that passes the check stands for the root joined with it. -/
theorem eq_filePath_of_checkedPath {path : List String}
    (checked : library.checkedPath name = .ok path) : path = library.filePath name := by
  rw [checkedPath] at checked
  split at checked
  · cases checked
    rfl
  · cases checked

/-- An existing file is found under the root joined with its name. -/
theorem eq_filePath_of_existingPath {path : List String}
    (there : library.existingPath files name = .ok path) : path = library.filePath name := by
  rcases bind_eq_ok.mp there with ⟨found, checked, isFile⟩
  split at isFile
  · cases isFile
    exact eq_filePath_of_checkedPath checked
  · cases isFile

/-- Creating a function changes the entry that its path names, or nothing. -/
theorem create_changedOnlyAt
    (named : ∀ other, files.entryOf (library.filePath name) = .ok other → other = place) :
    files.ChangedOnlyAt (library.create files name).1 place := by
  rw [create]
  cases checked : library.checkedPath name with
  | error error => exact .refl files place
  | ok path =>
      cases eq_filePath_of_checkedPath checked
      have changed := FileSystem.createNew_changedOnlyAt named
      rcases created : files.createNew (library.filePath name) with ⟨after, fault | _⟩
      · simp only [created] at changed ⊢
        cases fault <;> exact changed
      · simp only [created] at changed ⊢
        exact changed

theorem remove_changedOnlyAt
    (named : ∀ other, files.entryOf (library.filePath name) = .ok other → other = place) :
    files.ChangedOnlyAt (library.remove files name).1 place := by
  rw [remove]
  cases found : library.existingPath files name with
  | error error => exact .refl files place
  | ok path =>
      cases eq_filePath_of_existingPath found
      have changed := FileSystem.removeFile_changedOnlyAt named
      rcases removed : files.removeFile (library.filePath name) with ⟨after, _ | _⟩
      all_goals
        simp only [removed] at changed ⊢
        exact changed

/-- Writing a function changes what its path leads to, or nothing. -/
theorem write_changedOnlyAt
    (leads : ∀ other, files.follow (library.filePath name) = .ok other → other = place)
    (records : List InstanceRecord) :
    files.ChangedOnlyAt (library.write files name records).1 place := by
  rw [write]
  cases library.checkedPath name with
  | error error => exact .refl files place
  | ok path =>
      have changed := FileSystem.writeText_changedOnlyAt leads (InstanceRecord.compactText records)
      rcases written : files.writeText (library.filePath name) (InstanceRecord.compactText records)
        with ⟨after, _ | _⟩
      all_goals
        simp only [written] at changed ⊢
        exact changed

/-- What a request changes is where the path of its name leads, beyond a link at the end only if the
request writes. -/
theorem serve_changedOnlyAt (request : Request)
    (reached : ∀ other, (if request.isWriting then files.follow (library.filePath name)
      else files.entryOf (library.filePath name)) = .ok other → other = place) :
    files.ChangedOnlyAt (library.serve files name request).1 place := by
  cases request with
  | create => exact create_changedOnlyAt reached
  | remove => exact remove_changedOnlyAt reached
  | read => exact .refl files place
  | write records => exact write_changedOnlyAt reached records
  | openInto document catalog => exact .refl files place
  | save document => exact write_changedOnlyAt reached document.records
  | contains => exact .refl files place

/-- A request under a valid name changes one location at most: the child of the root, or what a link
there leads to when the request writes. -/
theorem exists_changedOnlyAt (isOpen : library.IsOpen files) (isName : isFunctionName name = true)
    (request : Request) :
    ∃ place, files.ChangedOnlyAt (library.serve files name request).1 place ∧
      (place = library.root ++ [name] ∨
        request.isWriting = true ∧ files.follow (library.filePath name) = .ok place) := by
  cases reached : (if request.isWriting then files.follow (library.filePath name)
      else files.entryOf (library.filePath name)) with
  | error fault =>
      refine ⟨library.root ++ [name], serve_changedOnlyAt request ?_, .inl rfl⟩
      intro other otherReached
      cases reached.symm.trans otherReached
  | ok place =>
      refine ⟨place, serve_changedOnlyAt request ?_, ?_⟩
      · intro other otherReached
        exact Except.ok.inj (otherReached.symm.trans reached)
      · cases writes : request.isWriting with
        | true =>
            rw [if_pos writes] at reached
            exact .inr ⟨rfl, reached⟩
        | false =>
            rw [writes, if_neg Bool.false_ne_true, entryOf_eq isOpen isName] at reached
            split at reached
            · exact .inl (Except.ok.inj reached).symm
            · cases reached

/-- A request under a valid name is confined to the child of the root that has the name. -/
theorem confined (isName : isFunctionName name = true) (request : Request) :
    library.Confined name request where
  leaves files isOpen location notChild notReached := by
    rcases exists_changedOnlyAt isOpen isName request with ⟨place, changed, rfl | ⟨writes, leads⟩⟩
    · exact changed.elsewhere location notChild
    · refine changed.elsewhere location ?_
      rintro rfl
      exact notReached writes leads
  sees files others isOpen othersOpen noLink same := by
    have othersNoLink : others.HasNoLink (library.root ++ [name]) := by
      intro target
      rw [← same]
      exact noLink target
    have sameEntry : files.plainAt? (hasRoom name) (library.root ++ [name]) =
        others.plainAt? (hasRoom name) (library.root ++ [name]) := by
      rw [FileSystem.plainAt?, FileSystem.plainAt?, same]
    rw [serve_eq isOpen isName noLink, serve_eq othersOpen isName othersNoLink, sameEntry]
    refine ⟨rfl, ?_⟩
    rw [FileSystem.at?_change (by simp), FileSystem.at?_change (by simp), same]
  keeps files isOpen := by
    rcases exists_changedOnlyAt isOpen isName request with ⟨place, changed, _⟩
    refine ⟨⟨changed.isDirect isOpen.direct, changed.directories _ true isOpen.writable⟩, ?_⟩
    intro location noLink target isLink
    exact noLink target (changed.links location target isLink)

/-- A text is written to where the path of the name leads, whether through a link or not. -/
theorem write_of_leads (isName : isFunctionName name = true)
    (leads : files.follow (library.filePath name) = .ok place) {content : Symbols}
    (there : files.at? place = some (.file content)) (records : List InstanceRecord) :
    library.write files name records =
      (files.put place (.file (.ofString (InstanceRecord.compactText records))), .ok ()) := by
  have checked : library.checkedPath name = .ok (library.filePath name) := if_pos isName
  simp only [write, checked, FileSystem.writeText, leads, there]

end LocalLibrary

end BlockEditor
