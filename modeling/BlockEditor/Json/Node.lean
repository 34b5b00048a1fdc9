import BlockEditor.Json.Lexer
import BlockEditor.SortedMap

/-!
# The tree of a JSON text

A `Node` is a JSON text with its structure recognised and nothing else decided: fields stand in
their order, a key may occur twice, and whatever cannot be used as a value is a leaf of its own,
`unreadable`, that a reader may skip. `Node.ofTokens?` builds the tree, `Node.ofText?` also applies
the nesting limit: an array or object inside `nestingLimit` others is unreadable. `Node.value?`
gives the value, in which the last of several fields with one key counts, and `Value.node` is the
tree of a value.
-/

namespace BlockEditor.Json

open BlockEditor.Text

/-- The tree of a JSON text. -/
inductive Node where
  /-- The word `null`. -/
  | null
  /-- A truth value. -/
  | bool (value : Bool)
  /-- A number. -/
  | number (value : Number)
  /-- A text. -/
  | string (value : String)
  /-- Something that can only be skipped. -/
  | unreadable
  /-- A list of nodes. -/
  | array (items : List Node)
  /-- Nodes under keys, of which some may be unreadable. -/
  | object (fields : List (Option String × Node))

/-- An array or object whose items are being read, with the finished ones in reverse. -/
inductive Frame where
  /-- An array. -/
  | array (before : List Node)
  /-- An object between two fields. -/
  | object (before : List (Option String × Node))
  /-- An object in the field under a key. -/
  | field (before : List (Option String × Node)) (key : Option String)

/-- What may come next in a text. -/
inductive Expected where
  /-- A value. -/
  | value
  /-- A value, or the end of an array that has just been opened. -/
  | firstItem
  /-- A key. -/
  | key
  /-- A key, or the end of an object that has just been opened. -/
  | firstKey
  /-- The colon after a key. -/
  | colon
  /-- What may follow a finished value. -/
  | after (node : Node)

namespace Node

/-- The leaf that a token stands for. -/
def leaf? : Token → Option Node
  | .null => some .null
  | .bool value => some (.bool value)
  | .number value => some (.number value)
  | .string value => some (.string value)
  | .largeNumber => some .unreadable
  | .brokenString => some .unreadable
  | _ => none

/-- Reads the first token of a value. -/
def beginValue (frames : List Frame) (token : Token) : Option (Expected × List Frame) :=
  match token with
  | .openArray => some (.firstItem, .array [] :: frames)
  | .openObject => some (.firstKey, .object [] :: frames)
  | token => (leaf? token).map fun node => (.after node, frames)

/-- The key that a token stands for; it may be unreadable. -/
def key? : Token → Option (Option String)
  | .string value => some (some value)
  | .brokenString => some none
  | _ => none

/-- Reads a key. -/
def beginField (frames : List Frame) (token : Token) : Option (Expected × List Frame) :=
  match frames, key? token with
  | .object before :: frames, some key => some (.colon, .field before key :: frames)
  | _, _ => none

/-- Reads one token. -/
def stepToken (expected : Expected) (frames : List Frame) (token : Token) :
    Option (Expected × List Frame) :=
  match expected, token, frames with
  | .firstItem, .closeArray, .array _ :: frames => some (.after (.array []), frames)
  | .firstItem, token, frames => beginValue frames token
  | .value, token, frames => beginValue frames token
  | .firstKey, .closeObject, .object _ :: frames => some (.after (.object []), frames)
  | .firstKey, token, frames => beginField frames token
  | .key, token, frames => beginField frames token
  | .colon, .colon, frames => some (.value, frames)
  | .after node, .comma, .array before :: frames => some (.value, .array (node :: before) :: frames)
  | .after node, .closeArray, .array before :: frames =>
    some (.after (.array (node :: before).reverse), frames)
  | .after node, .comma, .field before key :: frames =>
    some (.key, .object ((key, node) :: before) :: frames)
  | .after node, .closeObject, .field before key :: frames =>
    some (.after (.object ((key, node) :: before).reverse), frames)
  | _, _, _ => none

/-- Reads the rest of the tokens. -/
def build (expected : Expected) (frames : List Frame) : List Token → Option Node
  | [] =>
    match expected, frames with
    | .after node, [] => some node
    | _, _ => none
  | token :: rest =>
    match stepToken expected frames token with
    | some (expected, frames) => build expected frames rest
    | none => none

/-- The tree of a token sequence, if the sequence is one value. -/
def ofTokens? (tokens : List Token) : Option Node := build .value [] tokens

mutual

/-- The tree with every array and object that lies inside `limit` others made unreadable. -/
def cutAt (limit : Nat) : Node → Node
  | .array items =>
    match limit with
    | 0 => .unreadable
    | limit + 1 => .array (cutItemsAt limit items)
  | .object fields =>
    match limit with
    | 0 => .unreadable
    | limit + 1 => .object (cutFieldsAt limit fields)
  | .null => .null
  | .bool value => .bool value
  | .number value => .number value
  | .string value => .string value
  | .unreadable => .unreadable
termination_by structural node => node

/-- The items of an array, each cut at the limit. -/
def cutItemsAt (limit : Nat) : List Node → List Node
  | [] => []
  | item :: rest => cutAt limit item :: cutItemsAt limit rest
termination_by structural items => items

/-- The fields of an object, each cut at the limit. -/
def cutFieldsAt (limit : Nat) : List (Option String × Node) → List (Option String × Node)
  | [] => []
  | (key, node) :: rest => (key, cutAt limit node) :: cutFieldsAt limit rest
termination_by structural fields => fields

end

/-- How many arrays and objects may lie inside each other in a text. -/
def nestingLimit : Nat := 127

/-- The tree of a text, with what nests too deeply made unreadable. -/
def ofSymbols? (symbols : Symbols) : Option Node :=
  ((tokens? symbols).bind ofTokens?).map (cutAt nestingLimit)

/-- The tree of a text, with what nests too deeply made unreadable. -/
def ofText? (text : String) : Option Node := ofSymbols? (Symbols.ofString text)

mutual

/-- The value of a tree, if nothing in it is unreadable. -/
def value? : Node → Option Value
  | .null => some .null
  | .bool value => some (.bool value)
  | .number value => some (.number value)
  | .string value => some (.string value)
  | .unreadable => none
  | .array items => (itemValues? items).map .array
  | .object fields => (fieldValues? [] fields).map .object
termination_by structural node => node

/-- The values of the items of an array. -/
def itemValues? : List Node → Option (List Value)
  | [] => some []
  | item :: rest => do
    let value ← value? item
    let values ← itemValues? rest
    return value :: values
termination_by structural items => items

/-- Adds the values of further fields to those read before. -/
def fieldValues? (before : List (String × Value)) :
    List (Option String × Node) → Option (List (String × Value))
  | [] => some before
  | (key, node) :: rest => do
    let key ← key
    let value ← value? node
    fieldValues? (insertSorted key value before) rest
termination_by structural fields => fields

end

end Node

namespace Value

mutual

/-- The tree of a value. -/
def node : Value → Node
  | .null => .null
  | .bool value => .bool value
  | .number value => .number value
  | .string value => .string value
  | .array items => .array (itemNodes items)
  | .object fields => .object (fieldNodes fields)
termination_by structural value => value

/-- The trees of the items of an array. -/
def itemNodes : List Value → List Node
  | [] => []
  | item :: rest => item.node :: itemNodes rest
termination_by structural items => items

/-- The trees of the fields of an object. -/
def fieldNodes : List (String × Value) → List (Option String × Node)
  | [] => []
  | (key, value) :: rest => (some key, value.node) :: fieldNodes rest
termination_by structural fields => fields

end

/-- The value of a text, if the text is one readable JSON value. -/
def ofSymbols? (symbols : Symbols) : Option Value := (Node.ofSymbols? symbols).bind Node.value?

/-- The value of a text, if the text is one readable JSON value. -/
def ofText? (text : String) : Option Value := (Node.ofText? text).bind Node.value?

end Value

end BlockEditor.Json
