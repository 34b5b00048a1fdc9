import BlockEditor.SortedMap
import BlockEditor.Store.Error
import BlockEditor.Text.Utf8

/-!
# Directories

A directory holds files and other directories by name. A name is not empty, has at most 255 bytes,
and contains neither a slash nor a zero character; what another directory holds is of no interest
here. Writing replaces a file as a whole and fails where a directory stands.
-/

namespace BlockEditor

open Text

/-- Something in a directory. -/
inductive Entry where
  /-- A file with its text. -/
  | file (content : Symbols)
  /-- A directory. -/
  | directory
deriving DecidableEq

/-- Files and directories by name. -/
structure Directory where
  /-- The entries by name. -/
  entries : SortedMap Entry
deriving DecidableEq

/-- The greatest number of bytes in a name. -/
def nameLimit : Nat := 255

/-- Whether something in a directory can have this name. -/
def isEntryName (name : String) : Bool :=
  !name.isEmpty && name.utf8ByteSize ≤ nameLimit && name != "." && name != ".." &&
    name.toList.all fun letter => letter != '/' && letter != '\x00'

namespace Directory

/-- The directory without entries. -/
def empty : Directory := ⟨.empty⟩

instance : Inhabited Directory := ⟨empty⟩

/-- The text of the file with a name. -/
def file? (directory : Directory) (name : String) : Option Symbols :=
  match directory.entries.get? name with
  | some (.file content) => some content
  | _ => none

/-- Whether there is a file with a name. -/
def hasFile (directory : Directory) (name : String) : Bool := (directory.file? name).isSome

/-- Puts a file under a name, in place of the file that is there. -/
def write? (directory : Directory) (name : String) (content : Symbols) : Option Directory :=
  if isEntryName name && directory.entries.get? name != some .directory then
    some ⟨directory.entries.insert name (.file content)⟩
  else none

/-- Puts a directory under a name that is free. -/
def makeDirectory? (directory : Directory) (name : String) : Option Directory :=
  if isEntryName name && !directory.entries.contains name then
    some ⟨directory.entries.insert name .directory⟩
  else none

/-- Takes away what stands under a name. -/
def erase (directory : Directory) (name : String) : Directory :=
  ⟨directory.entries.erase name⟩

/-- The names of the files, increasing. -/
def fileNames (directory : Directory) : List String :=
  directory.entries.keys.filter directory.hasFile

end Directory

/-- What stands at the path of a store's root. -/
inductive RootState where
  /-- Nothing. -/
  | missing
  /-- A file. -/
  | file
  /-- A directory, which may be closed to changes. -/
  | directory (writable : Bool)
deriving DecidableEq, Repr

/-- Whether a path can be the root of a store, and why not. -/
def RootState.check : RootState → Except StoreError Unit
  | .missing => .error (.rootPathInvalid .missing)
  | .file => .error (.rootPathInvalid .notADirectory)
  | .directory writable =>
    if writable then .ok () else .error (.rootPathInvalid .notWritable)

end BlockEditor
