import BlockEditor.Store.Directory
import Mathlib.Data.List.Sort

/-!
# File systems

A file system has files, directories and symbolic links at locations. A path is gone along part by
part from the top directory: an empty part and a point stay, two points go up, and any other part
goes to the entry with this name. A link on the way is replaced by the path that it holds, and so is
a link at the end, except by the operations that create, remove or list the entry itself. A
directory hands out its entries in no particular order.
-/

namespace BlockEditor

open Text

/-- The names on the way from the top directory to something. -/
abbrev Location : Type := List String

/-- Something in a file system. -/
inductive Item where
  /-- A file with its text. -/
  | file (content : Symbols)
  /-- A directory, which may be closed to changes. -/
  | directory (writable : Bool)
  /-- A symbolic link with the path that it holds. -/
  | link (target : String)
deriving DecidableEq

/-- Why the file system does not do something. -/
inductive FileFault where
  /-- There is something already. -/
  | alreadyExists
  /-- Anything else. -/
  | other
deriving DecidableEq

/-- Files, directories and links by their location, in no particular order. -/
structure FileSystem where
  /-- What is below the top directory. -/
  items : List (Location × Item)
  /-- Nothing stands twice. -/
  distinct : (items.map Prod.fst).Nodup

/-- The bytes of a text in UTF-8. -/
def utf8Bytes (text : String) : List UInt8 := text.toUTF8.data.toList

/-- The greatest number of links that are followed on one way. -/
def linkLimit : Nat := 40

/-- The parts of a text between its slashes. -/
def pathParts (text : String) : List String := (text.toList.splitOn '/').map String.ofList

/-- Whether a text is a path from the top directory. -/
def isAbsolute (text : String) : Bool := text.toList.head? == some '/'

/-- The parts of the path that a text leads along from a location; a path from the top directory
stands for itself. -/
def joinPath (location : Location) (text : String) : List String :=
  if isAbsolute text then pathParts text else location ++ pathParts text

namespace FileSystem

/-- What stands at a location. -/
def at? (files : FileSystem) (location : Location) : Option Item :=
  if location = [] then some (.directory true) else files.items.lookup location

/-- The file system with something at a location, in place of what is there. -/
def put (files : FileSystem) (location : Location) (item : Item) : FileSystem where
  items := (location, item) :: files.items.filter fun entry => entry.1 != location
  distinct := by
    refine List.nodup_cons.mpr ⟨by simp, ?_⟩
    exact files.distinct.sublist (List.filter_sublist.map Prod.fst)

/-- The file system without what is at a location. -/
def erase (files : FileSystem) (location : Location) : FileSystem where
  items := files.items.filter fun entry => entry.1 != location
  distinct := files.distinct.sublist (List.filter_sublist.map Prod.fst)

/-- Whether entries of the directory around a location may be created and removed. -/
def mayChange (files : FileSystem) (location : Location) : Bool :=
  files.at? location.dropLast == some (.directory true)

/-- Goes along the parts of a path from a directory. A part that is not the last has to be a
directory; the way through a link is left to `viaLink`. -/
def walk (files : FileSystem) (followLast : Bool)
    (viaLink : Location → List String → Except FileFault Location) (here : Location) :
    List String → Except FileFault Location
  | [] => .ok here
  | part :: rest =>
    if part = "" ∨ part = "." then walk files followLast viaLink here rest
    else if part = ".." then walk files followLast viaLink here.dropLast rest
    else if isEntryName part then
      match files.at? (here ++ [part]) with
      | some (.directory _) => walk files followLast viaLink (here ++ [part]) rest
      | some (.link target) =>
        if rest.isEmpty && !followLast then .ok (here ++ [part])
        else viaLink (if isAbsolute target then [] else here) (pathParts target ++ rest)
      | _ => if rest.isEmpty then .ok (here ++ [part]) else .error .other
    else .error .other

/-- Where a path leads from a directory, if no more than a number of links are on the way. -/
def resolve (files : FileSystem) (followLast : Bool) :
    Nat → Location → List String → Except FileFault Location
  | 0 => files.walk followLast fun _ _ => .error .other
  | links + 1 => files.walk followLast (files.resolve followLast links)

/-- Where a path leads. -/
def follow (files : FileSystem) (path : List String) : Except FileFault Location :=
  files.resolve true linkLimit [] path

/-- The entry that a path names, which may be a link. -/
def entryOf (files : FileSystem) (path : List String) : Except FileFault Location :=
  files.resolve false linkLimit [] path

/-- Whether a path leads to a file. -/
def isFile (files : FileSystem) (path : List String) : Bool :=
  match files.follow path with
  | .error _ => false
  | .ok location =>
    match files.at? location with
    | some (.file _) => true
    | _ => false

/-- The text of the file to which a path leads. -/
def readText (files : FileSystem) (path : List String) : Except FileFault String :=
  match files.follow path with
  | .error fault => .error fault
  | .ok location =>
    match files.at? location with
    | some (.file content) =>
      match content.text? with
      | some text => .ok text
      | none => .error .other
    | _ => .error .other

/-- Creates an empty file under a path that names nothing, not even a link. -/
def createNew (files : FileSystem) (path : List String) : FileSystem × Except FileFault Unit :=
  match files.entryOf path with
  | .error fault => (files, .error fault)
  | .ok location =>
    match files.at? location with
    | some _ => (files, .error .alreadyExists)
    | none =>
      if files.mayChange location then (files.put location (.file []), .ok ())
      else (files, .error .other)

/-- Puts a text into the file to which a path leads, and creates this file if it is not there. -/
def writeText (files : FileSystem) (path : List String) (text : String) :
    FileSystem × Except FileFault Unit :=
  match files.follow path with
  | .error fault => (files, .error fault)
  | .ok location =>
    match files.at? location with
    | some (.file _) => (files.put location (.file (.ofString text)), .ok ())
    | some _ => (files, .error .other)
    | none =>
      if files.mayChange location then (files.put location (.file (.ofString text)), .ok ())
      else (files, .error .other)

/-- Removes the file or link that a path names. -/
def removeFile (files : FileSystem) (path : List String) : FileSystem × Except FileFault Unit :=
  match files.entryOf path with
  | .error fault => (files, .error fault)
  | .ok location =>
    match files.at? location with
    | none => (files, .error .other)
    | some (.directory _) => (files, .error .other)
    | some _ =>
      if files.mayChange location then (files.erase location, .ok ())
      else (files, .error .other)

/-- The name of an item and the item itself, if it is directly in a directory. -/
def entryIn? (location : Location) (placed : Location × Item) : Option (String × Item) :=
  match placed.1.getLast? with
  | some name => if placed.1.dropLast = location then some (name, placed.2) else none
  | none => none

/-- The entries of a directory, as they come. -/
def entriesIn (files : FileSystem) (location : Location) : List (String × Item) :=
  files.items.filterMap (entryIn? location)

/-- The entries of the directory to which a path leads, sorted by the bytes of their names. What is
no directory has no entries. -/
def sortedEntries (files : FileSystem) (path : List String) :
    Except FileFault (List (String × Item)) :=
  match files.follow path with
  | .error fault => .error fault
  | .ok location =>
    match files.at? location with
    | some (.directory _) =>
      .ok ((files.entriesIn location).insertionSort fun first second =>
        utf8Bytes first.1 ≤ utf8Bytes second.1)
    | some _ => .ok []
    | none => .error .other

end FileSystem

end BlockEditor
