import BlockEditor.Store.FileSystem
import BlockEditor.Store.Library

/-!
# The function library in the file system

The operations of a function library as they are carried out on files. Each of them checks the name
of the function first, and then goes the way from the root of the library along the name. The root
is found out once, when the library is opened, and holds no link then.
-/

namespace BlockEditor

/-- A function library with the location of its directory. -/
structure LocalLibrary where
  /-- The location of the directory. -/
  root : Location

namespace LocalLibrary

/-- The path of the file with a name. -/
def filePath (library : LocalLibrary) (name : String) : List String := joinPath library.root name

/-- The path of a function, if it may have this name. -/
def checkedPath (library : LocalLibrary) (name : String) : Except StoreError (List String) :=
  if isFunctionName name then .ok (library.filePath name) else .error (.invalidName name)

/-- The path of a function that is there. -/
def existingPath (library : LocalLibrary) (files : FileSystem) (name : String) :
    Except StoreError (List String) := do
  let path ← library.checkedPath name
  if files.isFile path then return path else .error (.notFound name)

/-- The name of an entry, if the entry is a function. -/
def functionName? : String × Item → Option String
  | (name, .file _) => if isFunctionName name then some name else none
  | _ => none

/-- The names of all functions, sorted by their bytes. -/
def list (library : LocalLibrary) (files : FileSystem) : Except StoreError (List String) :=
  match files.sortedEntries library.root with
  | .error _ => .error .io
  | .ok entries => .ok (entries.filterMap functionName?)

/-- Whether there is a function with a name. -/
def contains (library : LocalLibrary) (files : FileSystem) (name : String) : Bool :=
  match library.checkedPath name with
  | .ok path => files.isFile path
  | .error _ => false

/-- Adds a function without blocks under a new name. -/
def create (library : LocalLibrary) (files : FileSystem) (name : String) :
    FileSystem × Except StoreError Unit :=
  match library.checkedPath name with
  | .error error => (files, .error error)
  | .ok path =>
    match files.createNew path with
    | (after, .ok ()) => (after, .ok ())
    | (after, .error .alreadyExists) => (after, .error (.alreadyExists name))
    | (after, .error .other) => (after, .error .io)

/-- Takes a function away. -/
def remove (library : LocalLibrary) (files : FileSystem) (name : String) :
    FileSystem × Except StoreError Unit :=
  match library.existingPath files name with
  | .error error => (files, .error error)
  | .ok path =>
    match files.removeFile path with
    | (after, .ok ()) => (after, .ok ())
    | (after, .error _) => (after, .error .io)

/-- The records of a function. -/
def read (library : LocalLibrary) (files : FileSystem) (name : String) :
    Except StoreError (List InstanceRecord) := do
  let path ← library.existingPath files name
  match files.readText path with
  | .ok text => FunctionLibrary.recordsOfText text
  | .error _ => .error .io

/-- Replaces the records of a function, which need not exist. -/
def write (library : LocalLibrary) (files : FileSystem) (name : String)
    (records : List InstanceRecord) : FileSystem × Except StoreError Unit :=
  match library.checkedPath name with
  | .error error => (files, .error error)
  | .ok _ =>
    match files.writeText (library.filePath name) (InstanceRecord.compactText records) with
    | (after, .ok ()) => (after, .ok ())
    | (after, .error _) => (after, .error .io)

/-- Loads a function into a document. -/
def openInto (library : LocalLibrary) (files : FileSystem) (name : String) (document : Document)
    (catalog : Catalog) : Except StoreError (Document × Document.LoadReport) := do
  let records ← library.read files name
  return document.load catalog records

/-- Keeps a document under a name. -/
def save (library : LocalLibrary) (files : FileSystem) (name : String) (document : Document) :
    FileSystem × Except StoreError Unit :=
  library.write files name document.records

end LocalLibrary

end BlockEditor
