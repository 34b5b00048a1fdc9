import BlockEditor.Json.Node

/-!
# Reading records from JSON trees

A record with declared fields is written as an object, or as an array of its fields in the order
of their declaration. `Node.members?` finds the declared fields in either form: fields with other
names are skipped without a look at their values, a declared field may not occur twice, and an
array may not be longer than the declaration. The other readers take apart leaves and lists.
-/

namespace BlockEditor.Json

/-- The declared fields that a node gives, by name. -/
abbrev Members : Type := List (String × Node)

namespace Node

/-- The text that a node is. -/
def text? : Node → Option String
  | .string value => some value
  | _ => none

/-- The truth value that a node is. -/
def truth? : Node → Option Bool
  | .bool value => some value
  | _ => none

/-- The natural number below `2 ^ 64` that a node is. -/
def natural? : Node → Option Nat
  | .number value => value.nat?
  | _ => none

/-- The unsigned integer of 64 bits that a node is. -/
def word? (node : Node) : Option UInt64 := node.natural?.map UInt64.ofNat

/-- The signed integer of 32 bits that a node is. -/
def integer32? : Node → Option Int32
  | .number value => value.int?.bind fun whole =>
    if -2147483648 ≤ whole ∧ whole < 2147483648 then some (Int32.ofInt whole) else none
  | _ => none

/-- The binary32 number nearest to the number that a node is. -/
def single? : Node → Option Float32
  | .number value => some value.toSingle
  | _ => none

/-- The items of an array. -/
def items? : Node → Option (List Node)
  | .array items => some items
  | _ => none

/-- The list that an array holds when each item is read. -/
def list? {Item : Type} (read : Node → Option Item) (node : Node) : Option (List Item) :=
  node.items?.bind fun items => items.mapM read

/-- The entries of an object in which every value is read. -/
def entries? {Item : Type} (read : Node → Option Item) : Node → Option (List (String × Item))
  | .object fields => fields.mapM fun (key, node) => do return (← key, ← read node)
  | _ => none

/-- The value that a node gives where `null` stands for none. -/
def optional? {Item : Type} (read : Node → Option Item) : Node → Option (Option Item)
  | .null => some none
  | node => (read node).map some

/-- The declared ones among the fields of an object. -/
def declared? (names : List String) : List (Option String × Node) → Option Members
  | [] => some []
  | (key, node) :: rest => do
    let key ← key
    let members ← declared? names rest
    if names.contains key then
      if (members.lookup key).isSome then none else some ((key, node) :: members)
    else some members

/-- The declared fields that an object or an array gives. -/
def members? (names : List String) : Node → Option Members
  | .object fields => declared? names fields
  | .array items => if items.length ≤ names.length then some (names.zip items) else none
  | _ => none

end Node

namespace Members

/-- Reads a field that must be there. -/
def required {Item : Type} (members : Members) (name : String) (read : Node → Option Item) :
    Option Item :=
  (members.lookup name).bind read

/-- Reads a field that has a value of its own when it is left out. -/
def withDefault {Item : Type} (members : Members) (name : String) (read : Node → Option Item)
    (value : Item) : Option Item :=
  match members.lookup name with
  | some node => read node
  | none => some value

/-- Reads a field that may be left out or be `null`. -/
def optional {Item : Type} (members : Members) (name : String) (read : Node → Option Item) :
    Option (Option Item) :=
  members.withDefault name (Node.optional? read) none

end Members

end BlockEditor.Json
