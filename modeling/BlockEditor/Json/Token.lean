import BlockEditor.Json.Value

/-!
# JSON tokens and their text

A JSON text is a sequence of tokens with blanks between them. `Value.tokens` lists the tokens of a
value; `compactText` writes tokens without blanks, and `prettyText` breaks the line after every
opening bracket and comma and indents by two spaces for every open bracket. Both differ only in
the blanks, so both read back as the same tokens.
-/

namespace BlockEditor.Json

/-- A token of a JSON text. -/
inductive Token where
  /-- The bracket that opens an array. -/
  | openArray
  /-- The bracket that closes an array. -/
  | closeArray
  /-- The brace that opens an object. -/
  | openObject
  /-- The brace that closes an object. -/
  | closeObject
  /-- The comma between items. -/
  | comma
  /-- The colon between a key and its value. -/
  | colon
  /-- The word `null`. -/
  | null
  /-- The word `true` or `false`. -/
  | bool (value : Bool)
  /-- A number. -/
  | number (value : Number)
  /-- A text in quotes. -/
  | string (value : String)
  /-- A number that is too large for any value. -/
  | largeNumber
  /-- A text in quotes that is no sequence of characters. -/
  | brokenString
deriving DecidableEq

/-- A hexadecimal digit, with letters in lower case. -/
def hexDigit (value : Nat) : Char := Nat.digitChar value

/-- A character as it stands inside quotes: quote, backslash and control characters are escaped,
everything else stands for itself. -/
def quotedCharacter (character : Char) : List Char :=
  if character = '"' then ['\\', '"']
  else if character = '\\' then ['\\', '\\']
  else if character = '\x08' then ['\\', 'b']
  else if character = '\x0c' then ['\\', 'f']
  else if character = '\n' then ['\\', 'n']
  else if character = '\r' then ['\\', 'r']
  else if character = '\t' then ['\\', 't']
  else if character.toNat < 0x20 then
    ['\\', 'u', '0', '0', hexDigit (character.toNat / 16), hexDigit (character.toNat % 16)]
  else [character]

/-- A text in quotes. -/
def quoted (text : String) : List Char :=
  '"' :: text.toList.flatMap quotedCharacter ++ ['"']

namespace Token

/-- The text of a token. -/
def letters : Token → List Char
  | .openArray => ['[']
  | .closeArray => [']']
  | .openObject => ['\x7b']
  | .closeObject => ['\x7d']
  | .comma => [',']
  | .colon => [':']
  | .null => ['n', 'u', 'l', 'l']
  | .bool true => ['t', 'r', 'u', 'e']
  | .bool false => ['f', 'a', 'l', 's', 'e']
  | .number value => value.letters
  | .string value => quoted value
  | .largeNumber => ['1', 'e', '9', '9', '9']
  | .brokenString => ['"', '\\', 'u', 'd', '8', '0', '0', '"']

/-- Whether a token opens an array or an object. -/
def opens : Token → Bool
  | .openArray | .openObject => true
  | _ => false

/-- Whether a token closes an array or an object. -/
def closes : Token → Bool
  | .closeArray | .closeObject => true
  | _ => false

end Token

/-- A new line, indented for a number of open brackets. -/
def newLine (depth : Nat) : List Char := '\n' :: List.replicate (2 * depth) ' '

/-- The blanks that indented text has before a token, by the token in front of it and the number
of brackets that are open there. -/
def prettyGap (previous : Token) (depth : Nat) (next : Token) : List Char :=
  if next.closes then (if previous.opens then [] else newLine (depth - 1))
  else if previous.opens || previous = .comma then newLine depth
  else if previous = .colon then [' ']
  else []

/-- The number of open brackets after a token. -/
def depthAfter (depth : Nat) (token : Token) : Nat :=
  if token.opens then depth + 1 else if token.closes then depth - 1 else depth

/-- Indented text of the tokens that follow a token. -/
def prettyLetters (previous : Token) (depth : Nat) : List Token → List Char
  | [] => []
  | token :: rest =>
    prettyGap previous depth token ++ token.letters ++
      prettyLetters token (depthAfter depth token) rest

/-- The text of tokens without blanks. -/
def compactText (tokens : List Token) : String := String.ofList (tokens.flatMap Token.letters)

/-- The indented text of tokens. -/
def prettyText : List Token → String
  | [] => ""
  | token :: rest =>
    String.ofList (token.letters ++ prettyLetters token (depthAfter 0 token) rest)

/-- Lists of tokens with commas between them. -/
def commaSeparated : List (List Token) → List Token
  | [] => []
  | [item] => item
  | item :: next :: rest => item ++ .comma :: commaSeparated (next :: rest)

namespace Value

mutual

/-- The tokens of a value. -/
def tokens : Value → List Token
  | .null => [.null]
  | .bool value => [.bool value]
  | .number value => [.number value]
  | .string value => [.string value]
  | .array items => .openArray :: commaSeparated (itemTokens items) ++ [.closeArray]
  | .object fields => .openObject :: commaSeparated (fieldTokens fields) ++ [.closeObject]
termination_by structural value => value

/-- The tokens of each item of an array. -/
def itemTokens : List Value → List (List Token)
  | [] => []
  | item :: rest => item.tokens :: itemTokens rest
termination_by structural items => items

/-- The tokens of each field of an object. -/
def fieldTokens : List (String × Value) → List (List Token)
  | [] => []
  | (key, value) :: rest => (.string key :: .colon :: value.tokens) :: fieldTokens rest
termination_by structural fields => fields

end

/-- The text of a value without blanks. -/
def compact (value : Value) : String := compactText value.tokens

/-- The indented text of a value. -/
def pretty (value : Value) : String := prettyText value.tokens

end Value

end BlockEditor.Json
