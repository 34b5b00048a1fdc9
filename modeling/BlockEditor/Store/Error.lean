import BlockEditor.Schema.Error

/-!
# Errors of the store

Why a function or a catalog cannot be read or written, and the wording of each error.
-/

namespace BlockEditor

/-- Why a path cannot be the root of a store. -/
inductive RootFault where
  /-- There is nothing. -/
  | missing
  /-- There is something else than a directory. -/
  | notADirectory
  /-- There is a directory that must not be changed. -/
  | notWritable
deriving DecidableEq, Repr

/-- The wording of a fault that the store itself has found. -/
def RootFault.message? : RootFault → Option String
  | .missing => none
  | .notADirectory => some "Root path must be a directory."
  | .notWritable => some "Root directory must be writable"

/-- Why the store cannot do something. -/
inductive StoreError where
  /-- The root cannot be used. -/
  | rootPathInvalid (fault : RootFault)
  /-- The file system refuses. -/
  | io
  /-- A file does not hold the JSON that it should. -/
  | json
  /-- A function cannot have this name. -/
  | invalidName (name : String)
  /-- There is a function with this name. -/
  | alreadyExists (name : String)
  /-- There is no function with this name. -/
  | notFound (name : String)
  /-- The formats of a catalog are faulty. -/
  | schema (error : SchemaError)
deriving DecidableEq, Repr

/-- The wording of an error. -/
def StoreError.message : StoreError → String
  | .rootPathInvalid fault => fault.message?.getD "the root path cannot be read"
  | .io => "io error"
  | .json => "json error"
  | .invalidName name => "invalid function name: '" ++ name ++ "'"
  | .alreadyExists name => "function '" ++ name ++ "' already exists"
  | .notFound name => "function '" ++ name ++ "' not found"
  | .schema error => error.message

end BlockEditor
