import BlockEditor.Document.Basic
import BlockEditor.Store.Directory
import BlockEditor.Text.Letters

/-!
# The function library

A function library keeps documents in the files of a directory, each under the function's name.
A name begins with a letter, a digit or `_` and goes on with these, blanks, `.` and `-`, so it
never leads out of the directory. A file without text is a function without blocks.
-/

namespace BlockEditor

/-- Whether a character may begin the name of a function. -/
def isNameStart (letter : Char) : Bool := letter.isAlphanum || letter == '_'

/-- Whether a character may stand in the name of a function. -/
def isNameLetter (letter : Char) : Bool :=
  isNameStart letter || letter == ' ' || letter == '.' || letter == '-'

/-- Whether a text may be the name of a function. -/
def isFunctionName (name : String) : Bool :=
  match name.toList with
  | [] => false
  | letter :: rest => isNameStart letter && rest.all isNameLetter

/-- Documents in the files of a directory. -/
structure FunctionLibrary where
  /-- The directory. -/
  directory : Directory
deriving DecidableEq

namespace FunctionLibrary

/-- Whether there is a function with a name. -/
def contains (library : FunctionLibrary) (name : String) : Bool :=
  isFunctionName name && library.directory.hasFile name

/-- The names of all functions, increasing. -/
def list (library : FunctionLibrary) : List String :=
  library.directory.fileNames.filter isFunctionName

/-- Adds a function without blocks under a new name. -/
def create (library : FunctionLibrary) (name : String) : Except StoreError FunctionLibrary :=
  if isFunctionName name then
    if library.directory.entries.contains name then .error (.alreadyExists name)
    else
      match library.directory.write? name [] with
      | some directory => .ok ⟨directory⟩
      | none => .error .io
  else .error (.invalidName name)

/-- Takes a function away. -/
def remove (library : FunctionLibrary) (name : String) : Except StoreError FunctionLibrary :=
  if isFunctionName name then
    if library.directory.hasFile name then .ok ⟨library.directory.erase name⟩
    else .error (.notFound name)
  else .error (.invalidName name)

/-- The records in the text of a file. -/
def recordsOfText (text : String) : Except StoreError (List InstanceRecord) :=
  if Text.blank text then .ok []
  else
    match InstanceRecord.listOfText? text with
    | some records => .ok records
    | none => .error .json

/-- The records of a function. -/
def read (library : FunctionLibrary) (name : String) :
    Except StoreError (List InstanceRecord) :=
  if isFunctionName name then
    match library.directory.file? name with
    | none => .error (.notFound name)
    | some content =>
      match content.text? with
      | none => .error .io
      | some text => recordsOfText text
  else .error (.invalidName name)

/-- Replaces the records of a function, which need not exist. -/
def write (library : FunctionLibrary) (name : String) (records : List InstanceRecord) :
    Except StoreError FunctionLibrary :=
  if isFunctionName name then
    let text := InstanceRecord.compactText records
    match library.directory.write? name (.ofString text) with
    | some directory => .ok ⟨directory⟩
    | none => .error .io
  else .error (.invalidName name)

/-- Loads a function into a document. -/
def openInto (library : FunctionLibrary) (name : String) (document : Document)
    (catalog : Catalog) : Except StoreError (Document × Document.LoadReport) := do
  let records ← library.read name
  return document.load catalog records

/-- Keeps a document under a name. -/
def save (library : FunctionLibrary) (name : String) (document : Document) :
    Except StoreError FunctionLibrary :=
  library.write name document.records

end FunctionLibrary

end BlockEditor
