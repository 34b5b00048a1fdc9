import BlockEditor.Proofs.Except
import BlockEditor.Proofs.Store.FileSystem

/-!
# Requests under the name of a function

A request to a function library comes down to one entry. `FunctionLibrary.Request.act` says what it
makes of the entry under a name and what it is answered with, from nothing but this entry. Both the
library that keeps its directory itself and the one in the file system do just that
(`FunctionLibrary.serve_eq`, `LocalLibrary.serve_eq`); a text that is not the name of a function is
refused by both, and nothing is changed.
-/

namespace BlockEditor

open Text

namespace FunctionLibrary

/-- What can be requested from a library under a name. -/
inductive Request where
  | create
  | remove
  | read
  | write (records : List InstanceRecord)
  | openInto (document : Document) (catalog : Catalog)
  | save (document : Document)
  | contains

/-- What a request is answered with if it is not refused. -/
inductive Reply where
  | done
  | records (records : List InstanceRecord)
  | opened (result : Document × Document.LoadReport)
  | found (isThere : Bool)

/-- What is answered under a text that is not the name of a function. -/
def refusal (name : String) : Request → Except StoreError Reply
  | .contains => .ok (.found false)
  | _ => .error (.invalidName name)

/-- The library that replaces another one, unless there is an error. -/
def replacedBy (library : FunctionLibrary) :
    Except StoreError FunctionLibrary → FunctionLibrary × Except StoreError Reply
  | .ok after => (after, .ok .done)
  | .error error => (library, .error error)

/-- The library after a request, and what it answers. -/
def serve (library : FunctionLibrary) (name : String) :
    Request → FunctionLibrary × Except StoreError Reply
  | .create => library.replacedBy (library.create name)
  | .remove => library.replacedBy (library.remove name)
  | .read => (library, (library.read name).map .records)
  | .write records => library.replacedBy (library.write name records)
  | .openInto document catalog => (library, (library.openInto name document catalog).map .opened)
  | .save document => library.replacedBy (library.save name document)
  | .contains => (library, .ok (.found (library.contains name)))

/-- What a request makes of an entry. -/
inductive Change where
  | keep
  | put (content : Symbols)
  | erase

/-- The records in the file under a name. -/
def recordsIn (name : String) : Option Entry → Except StoreError (List InstanceRecord)
  | some (.file content) =>
    match content.text? with
    | some text => recordsOfText text
    | none => .error .io
  | _ => .error (.notFound name)

/-- Puts a text under a name: into the file there, or into a new one if the directory has room for
the name. -/
def storeIn (hasRoom : Bool) (entry : Option Entry) (text : String) :
    Change × Except StoreError Reply :=
  if hasRoom && entry != some .directory then (.put (.ofString text), .ok .done)
  else (.keep, .error .io)

/-- What a request makes of the entry under a name, and what it is answered with. -/
def Request.act (name : String) (hasRoom : Bool) (entry : Option Entry) :
    Request → Change × Except StoreError Reply
  | .create =>
    match entry with
    | some _ => (.keep, .error (.alreadyExists name))
    | none => if hasRoom then (.put [], .ok .done) else (.keep, .error .io)
  | .remove =>
    match entry with
    | some (.file _) => (.erase, .ok .done)
    | _ => (.keep, .error (.notFound name))
  | .read => (.keep, (recordsIn name entry).map .records)
  | .write records => storeIn hasRoom entry (InstanceRecord.compactText records)
  | .openInto document catalog =>
    (.keep, (recordsIn name entry).map fun records => .opened (document.load catalog records))
  | .save document => storeIn hasRoom entry (InstanceRecord.compactText document.records)
  | .contains =>
    match entry with
    | some (.file _) => (.keep, .ok (.found true))
    | _ => (.keep, .ok (.found false))

/-- Whether the names in a directory may be as long as this one. -/
def hasRoom (name : String) : Bool := name.utf8ByteSize ≤ nameLimit

/-- What stands under a name. -/
def under? (library : FunctionLibrary) (name : String) : Option Entry :=
  library.directory.entries.get? name

/-- The library with an entry changed. -/
def change (library : FunctionLibrary) (name : String) : Change → FunctionLibrary
  | .keep => library
  | .put content => ⟨⟨library.directory.entries.insert name (.file content)⟩⟩
  | .erase => ⟨library.directory.erase name⟩

variable {library : FunctionLibrary} {name : String}

/-- A name that fails the check is refused before anything is looked at. -/
theorem serve_of_not_isFunctionName (notName : isFunctionName name ≠ true) (request : Request) :
    library.serve name request = (library, refusal name request) := by
  cases request with
  | create => rw [serve, create, if_neg notName]; rfl
  | remove => rw [serve, remove, if_neg notName]; rfl
  | read => rw [serve, read, if_neg notName]; rfl
  | write records => rw [serve, write, if_neg notName]; rfl
  | save document => rw [serve, save, write, if_neg notName]; rfl
  | openInto document catalog => rw [serve, openInto, read, if_neg notName]; rfl
  | contains => rw [serve, contains, Bool.eq_false_iff.mpr notName]; rfl

/-- A file is written where there is room for its name and no directory in the way. -/
theorem write?_eq (isName : isFunctionName name = true) (content : Symbols) :
    library.directory.write? name content =
      if hasRoom name && library.under? name != some .directory then
        some ⟨library.directory.entries.insert name (.file content)⟩
      else none := by
  by_cases short : name.utf8ByteSize ≤ nameLimit
  · simp only [Directory.write?, isEntryName_of_isFunctionName isName short, hasRoom, short,
      decide_true, under?]
  · simp [Directory.write?, isEntryName, hasRoom, short]

theorem write_eq_act (isName : isFunctionName name = true) (records : List InstanceRecord) :
    library.replacedBy (library.write name records) =
      let acted := storeIn (hasRoom name) (library.under? name) (InstanceRecord.compactText records)
      (library.change name acted.1, acted.2) := by
  simp only [write, if_pos isName, write?_eq isName, storeIn]
  cases hasRoom name && library.under? name != some .directory <;> rfl

theorem file?_eq : library.directory.file? name =
    match library.under? name with
    | some (.file content) => some content
    | _ => none := rfl

theorem read_eq_recordsIn (isName : isFunctionName name = true) :
    library.read name = recordsIn name (library.under? name) := by
  rw [read, if_pos isName, file?_eq]
  rcases library.under? name with _ | content | _
  · rfl
  · simp only [recordsIn]
    cases content.text? <;> rfl
  · rfl

/-- A request under the name of a function changes and sees the entry with this name. -/
theorem serve_eq (isName : isFunctionName name = true) (request : Request) :
    library.serve name request =
      let acted := request.act name (hasRoom name) (library.under? name)
      (library.change name acted.1, acted.2) := by
  cases request with
  | create =>
      have taken : library.directory.entries.contains name = (library.under? name).isSome := rfl
      rw [serve, create, if_pos isName, taken, write?_eq isName]
      rcases under : library.under? name with _ | _
      · cases hasRoom name <;> simp [Request.act, replacedBy, change]
      · rfl
  | remove =>
      rw [serve, remove, if_pos isName, Directory.hasFile, file?_eq]
      rcases library.under? name with _ | _ | _ <;> rfl
  | read => rw [serve, read_eq_recordsIn isName]; rfl
  | write records => exact write_eq_act isName records
  | openInto document catalog =>
      rw [serve, openInto, read_eq_recordsIn isName, Request.act]
      cases recordsIn name (library.under? name) <;> rfl
  | save document => exact write_eq_act isName document.records
  | contains =>
      rw [serve, contains, isName, Directory.hasFile, file?_eq]
      rcases library.under? name with _ | _ | _ <;> rfl

end FunctionLibrary

/-- What is directly in a directory, as far as a library has to do with it: no link. -/
def Item.plain? : Item → Option Entry
  | .file content => some (.file content)
  | .directory _ => some .directory
  | .link _ => none

namespace FileSystem

/-- There is no link at a location. -/
def HasNoLink (files : FileSystem) (location : Location) : Prop :=
  ∀ target, files.at? location ≠ some (.link target)

/-- The entry at a location, where names have room. -/
def plainAt? (files : FileSystem) (hasRoom : Bool) (location : Location) : Option Entry :=
  if hasRoom then (files.at? location).bind Item.plain? else none

/-- The file system with the entry at a location changed. -/
def change (files : FileSystem) (location : Location) : FunctionLibrary.Change → FileSystem
  | .keep => files
  | .put content => files.put location (.file content)
  | .erase => files.erase location

/-- A change at a place is seen there and nowhere else. -/
theorem at?_change {files : FileSystem} {location place : Location} (below : place ≠ [])
    (change : FunctionLibrary.Change) :
    (files.change place change).at? location =
      if location = place then
        match change with
        | .keep => files.at? place
        | .put content => some (.file content)
        | .erase => none
      else files.at? location := by
  cases change with
  | keep =>
      split
      · rename_i same
        rw [same]
        rfl
      · rfl
  | put content => exact at?_put below _ _
  | erase => exact at?_erase below _

end FileSystem

namespace LocalLibrary

open FunctionLibrary

/-- The answer of an operation that answers nothing else. -/
def replied (result : FileSystem × Except StoreError Unit) : FileSystem × Except StoreError Reply :=
  (result.1, result.2.map fun _ => .done)

/-- The file system after a request to a library, and what the library answers. -/
def serve (library : LocalLibrary) (files : FileSystem) (name : String) :
    Request → FileSystem × Except StoreError Reply
  | .create => replied (library.create files name)
  | .remove => replied (library.remove files name)
  | .read => (files, (library.read files name).map .records)
  | .write records => replied (library.write files name records)
  | .openInto document catalog =>
    (files, (library.openInto files name document catalog).map .opened)
  | .save document => replied (library.save files name document)
  | .contains => (files, .ok (.found (library.contains files name)))

/-- No name of a function leads to a link. -/
def HasNoLinks (library : LocalLibrary) (files : FileSystem) : Prop :=
  ∀ name, isFunctionName name = true → files.HasNoLink (library.root ++ [name])

/-- The root of a library is a directory that may be changed, and no link is on the way there. -/
structure IsOpen (library : LocalLibrary) (files : FileSystem) : Prop where
  direct : files.IsDirect library.root
  writable : files.at? library.root = some (.directory true)

variable {library : LocalLibrary} {files : FileSystem} {name : String}

theorem serve_of_not_isFunctionName (notName : isFunctionName name ≠ true) (request : Request) :
    library.serve files name request = (files, refusal name request) := by
  have refused : library.checkedPath name = .error (.invalidName name) := if_neg notName
  have notThere : library.existingPath files name = .error (.invalidName name) := by
    rw [existingPath, refused]
    rfl
  cases request with
  | create => simp only [serve, create, refused]; rfl
  | remove => simp only [serve, remove, notThere]; rfl
  | read => simp only [serve, read, notThere]; rfl
  | write records => simp only [serve, write, refused]; rfl
  | save document => simp only [serve, save, write, refused]; rfl
  | openInto document catalog => simp only [serve, openInto, read, notThere]; rfl
  | contains => simp only [serve, contains, refused]; rfl

/-- A file that a short path reaches is there. -/
theorem of_plainAt?_eq_some {location : Location} {hasRoom : Bool} {content : Symbols}
    (there : files.plainAt? hasRoom location = some (.file content)) :
    hasRoom = true ∧ files.at? location = some (.file content) := by
  rw [FileSystem.plainAt?] at there
  cases hasRoom with
  | false => cases there
  | true =>
      rcases here : files.at? location with _ | other | writable | target
      all_goals
        rw [here] at there
        cases there
      exact ⟨rfl, rfl⟩

theorem mayChange_child (isOpen : library.IsOpen files) (name : String) :
    files.mayChange (library.root ++ [name]) = true := by
  rw [FileSystem.mayChange, List.dropLast_concat, isOpen.writable]
  rfl

theorem follow_eq (isOpen : library.IsOpen files) (isName : isFunctionName name = true)
    (noLink : files.HasNoLink (library.root ++ [name])) :
    files.follow (library.filePath name) =
      if hasRoom name then .ok (library.root ++ [name]) else .error .other := by
  rw [follow_filePath isOpen.direct isName noLink]
  simp only [hasRoom, decide_eq_true_eq]

theorem entryOf_eq (isOpen : library.IsOpen files) (isName : isFunctionName name = true) :
    files.entryOf (library.filePath name) =
      if hasRoom name then .ok (library.root ++ [name]) else .error .other := by
  rw [entryOf_filePath isOpen.direct isName]
  simp only [hasRoom, decide_eq_true_eq]

theorem isFile_eq (isOpen : library.IsOpen files) (isName : isFunctionName name = true)
    (noLink : files.HasNoLink (library.root ++ [name])) :
    files.isFile (library.filePath name) =
      match files.plainAt? (hasRoom name) (library.root ++ [name]) with
      | some (.file _) => true
      | _ => false := by
  rw [FileSystem.isFile, follow_eq isOpen isName noLink, FileSystem.plainAt?]
  cases hasRoom name with
  | false => rfl
  | true =>
      simp only [if_true]
      rcases files.at? (library.root ++ [name]) with _ | _ | _ | _ <;> rfl

theorem existingPath_eq (isOpen : library.IsOpen files) (isName : isFunctionName name = true)
    (noLink : files.HasNoLink (library.root ++ [name])) :
    library.existingPath files name =
      match files.plainAt? (hasRoom name) (library.root ++ [name]) with
      | some (.file _) => .ok (library.filePath name)
      | _ => .error (.notFound name) := by
  have checked : library.checkedPath name = .ok (library.filePath name) := if_pos isName
  simp only [existingPath, checked, bind, Except.bind, isFile_eq isOpen isName noLink]
  rcases files.plainAt? (hasRoom name) (library.root ++ [name]) with _ | _ | _ <;> rfl

theorem readText_eq (isOpen : library.IsOpen files) (isName : isFunctionName name = true)
    (noLink : files.HasNoLink (library.root ++ [name])) :
    files.readText (library.filePath name) =
      match files.plainAt? (hasRoom name) (library.root ++ [name]) with
      | some (.file content) =>
        match content.text? with
        | some text => .ok text
        | none => .error .other
      | _ => .error .other := by
  rw [FileSystem.readText, follow_eq isOpen isName noLink, FileSystem.plainAt?]
  cases hasRoom name with
  | false => rfl
  | true =>
      simp only [if_true]
      rcases files.at? (library.root ++ [name]) with _ | _ | _ | _ <;> rfl

/-- Reading a function answers what the file under its name holds. -/
theorem read_eq_recordsIn (isOpen : library.IsOpen files) (isName : isFunctionName name = true)
    (noLink : files.HasNoLink (library.root ++ [name])) :
    library.read files name =
      recordsIn name (files.plainAt? (hasRoom name) (library.root ++ [name])) := by
  rw [read, existingPath_eq isOpen isName noLink]
  rcases there : files.plainAt? (hasRoom name) (library.root ++ [name]) with _ | content | _
  · rfl
  · simp only [bind, Except.bind, readText_eq isOpen isName noLink, there, recordsIn]
    cases content.text? <;> rfl
  · rfl

theorem write_eq_act (isOpen : library.IsOpen files) (isName : isFunctionName name = true)
    (noLink : files.HasNoLink (library.root ++ [name])) (records : List InstanceRecord) :
    replied (library.write files name records) =
      let acted := storeIn (hasRoom name) (files.plainAt? (hasRoom name) (library.root ++ [name]))
        (InstanceRecord.compactText records)
      (files.change (library.root ++ [name]) acted.1, acted.2) := by
  have checked : library.checkedPath name = .ok (library.filePath name) := if_pos isName
  simp only [write, checked, FileSystem.writeText, follow_eq isOpen isName noLink,
    FileSystem.plainAt?]
  cases hasRoom name with
  | false => rfl
  | true =>
      simp only [if_true, mayChange_child isOpen]
      rcases here : files.at? (library.root ++ [name]) with _ | content | writable | target
      · rfl
      · rfl
      · rfl
      · exact absurd here (noLink target)

/-- A request under the name of a function changes and sees the entry with this name directly in the
root, if this is no link. -/
theorem serve_eq (isOpen : library.IsOpen files) (isName : isFunctionName name = true)
    (noLink : files.HasNoLink (library.root ++ [name])) (request : Request) :
    library.serve files name request =
      let acted := request.act name (hasRoom name)
        (files.plainAt? (hasRoom name) (library.root ++ [name]))
      (files.change (library.root ++ [name]) acted.1, acted.2) := by
  have checked : library.checkedPath name = .ok (library.filePath name) := if_pos isName
  cases request with
  | create =>
      simp only [serve, create, checked, FileSystem.createNew, entryOf_eq isOpen isName,
        FileSystem.plainAt?]
      cases hasRoom name with
      | false => rfl
      | true =>
          simp only [if_true, mayChange_child isOpen]
          rcases here : files.at? (library.root ++ [name]) with _ | content | writable | target
          · rfl
          · rfl
          · rfl
          · exact absurd here (noLink target)
  | remove =>
      rw [serve, remove, existingPath_eq isOpen isName noLink]
      rcases there : files.plainAt? (hasRoom name) (library.root ++ [name]) with _ | content | _
      · rfl
      · rcases of_plainAt?_eq_some there with ⟨room, item⟩
        simp only [FileSystem.removeFile, entryOf_eq isOpen isName, room, if_true, item,
          mayChange_child isOpen]
        rfl
      · rfl
  | read => rw [serve, read_eq_recordsIn isOpen isName noLink]; rfl
  | write records => exact write_eq_act isOpen isName noLink records
  | openInto document catalog =>
      simp only [serve, openInto, read_eq_recordsIn isOpen isName noLink, Request.act]
      cases recordsIn name (files.plainAt? (hasRoom name) (library.root ++ [name])) <;> rfl
  | save document => exact write_eq_act isOpen isName noLink document.records
  | contains =>
      simp only [serve, contains, checked, isFile_eq isOpen isName noLink, Request.act]
      rcases files.plainAt? (hasRoom name) (library.root ++ [name]) with _ | _ | _ <;> rfl

end LocalLibrary

end BlockEditor
