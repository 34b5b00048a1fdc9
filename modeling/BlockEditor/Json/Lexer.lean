import BlockEditor.Json.Token
import BlockEditor.Text.Utf8

/-!
# Reading JSON tokens

`tokens?` splits a text into tokens, one symbol at a time. Numbers and the words `null`, `true`
and `false` are maximal runs of letters, digits, signs and points; such a run is classified when
it ends. A text in quotes is collected piece by piece, since two escapes together may stand for
one character: a high surrogate must be followed by a low one.

A number or a text can follow the grammar and still stand for nothing: a number beyond binary64,
a lone surrogate, bytes that are no UTF-8. Such tokens are kept apart, because a reader that skips
a value does not look at them.
-/

namespace BlockEditor.Json

open BlockEditor.Text

/-- A piece of a text in quotes. -/
inductive Piece where
  /-- A character, written as itself or by an escape. -/
  | character (value : Char)
  /-- Half of a surrogate pair, written by an escape. -/
  | surrogate (code : Nat)
  /-- Bytes that are no UTF-8. -/
  | broken
deriving DecidableEq

/-- The characters that pieces stand for. -/
def joinPieces : List Piece → Option (List Char)
  | [] => some []
  | .character value :: rest => (joinPieces rest).map (value :: ·)
  | .surrogate high :: .surrogate low :: rest =>
    if high < 0xDC00 && 0xDC00 ≤ low then
      let code := 0x10000 + (high - 0xD800) * 0x400 + (low - 0xDC00)
      (joinPieces rest).map (Char.ofNat code :: ·)
    else none
  | _ => none

/-- The token of a text in quotes. -/
def stringToken (pieces : List Piece) : Token :=
  match joinPieces pieces with
  | some characters => .string (String.ofList characters)
  | none => .brokenString

/-- The piece that a four-digit escape stands for. -/
def escapedPiece (code : Nat) : Piece :=
  if 0xD800 ≤ code && code ≤ 0xDFFF then .surrogate code else .character (Char.ofNat code)

/-- The token of a run of letters, digits, signs and points. -/
def wordToken? (word : List Char) : Option Token :=
  if word = ['n', 'u', 'l', 'l'] then some .null
  else if word = ['t', 'r', 'u', 'e'] then some (.bool true)
  else if word = ['f', 'a', 'l', 's', 'e'] then some (.bool false)
  else (Numeral.ofLetters? word).map fun numeral =>
    match numeral.number? with
    | some number => .number number
    | none => .largeNumber

/-- Whether a character belongs to numbers and words. -/
def isWordLetter (character : Char) : Bool :=
  character.isAlphanum || character == '+' || character == '-' || character == '.'

/-- The token of a punctuation mark. -/
def markToken? (character : Char) : Option Token :=
  if character = '[' then some .openArray
  else if character = ']' then some .closeArray
  else if character = '\x7b' then some .openObject
  else if character = '\x7d' then some .closeObject
  else if character = ',' then some .comma
  else if character = ':' then some .colon
  else none

/-- Whether a character may stand between tokens. -/
def isGap (character : Char) : Bool :=
  character == ' ' || character == '\t' || character == '\n' || character == '\r'

/-- The value of a hexadecimal digit in either case. -/
def hexValue? (character : Char) : Option Nat :=
  let code := character.toNat
  if character.isDigit then some (code - '0'.toNat)
  else if 'a'.toNat ≤ code && code ≤ 'f'.toNat then some (code - 'a'.toNat + 10)
  else if 'A'.toNat ≤ code && code ≤ 'F'.toNat then some (code - 'A'.toNat + 10)
  else none

/-- The character that a one-letter escape stands for. -/
def escapedCharacter? (letter : Char) : Option Char :=
  if letter = '"' || letter = '\\' || letter = '/' then some letter
  else if letter = 'b' then some '\x08'
  else if letter = 'f' then some '\x0c'
  else if letter = 'n' then some '\n'
  else if letter = 'r' then some '\r'
  else if letter = 't' then some '\t'
  else none

/-- Where the reader stands. Pieces and letters of an unfinished token are held in reverse. -/
inductive Place where
  /-- Between tokens. -/
  | between
  /-- In a number or a word. -/
  | word (reversed : List Char)
  /-- In a text in quotes. -/
  | quotes (reversed : List Piece)
  /-- After a backslash. -/
  | escape (reversed : List Piece)
  /-- In an escape by code, with some of its four digits read. -/
  | code (reversed : List Piece) (read : Nat) (value : Nat)

/-- Reads a symbol between tokens, with the tokens so far in reverse. -/
def stepBetween (output : List Token) (symbol : Option Char) : Option (Place × List Token) := do
  let character ← symbol
  if isGap character then return (.between, output)
  if character = '"' then return (.quotes [], output)
  if isWordLetter character then return (.word [character], output)
  let token ← markToken? character
  return (.between, token :: output)

/-- Reads one symbol. -/
def stepSymbol (place : Place) (output : List Token) (symbol : Option Char) :
    Option (Place × List Token) :=
  match place, symbol with
  | .between, symbol => stepBetween output symbol
  | .word reversed, symbol =>
    if symbol.any isWordLetter then some (.word (symbol.toList ++ reversed), output)
    else do
      let token ← wordToken? reversed.reverse
      stepBetween (token :: output) symbol
  | .quotes reversed, none => some (.quotes (.broken :: reversed), output)
  | .quotes reversed, some character =>
    if character = '"' then some (.between, stringToken reversed.reverse :: output)
    else if character = '\\' then some (.escape reversed, output)
    else if character.toNat < 0x20 then none
    else some (.quotes (.character character :: reversed), output)
  | .escape reversed, symbol => do
    let letter ← symbol
    if letter = 'u' then return (.code reversed 0 0, output)
    let character ← escapedCharacter? letter
    return (.quotes (.character character :: reversed), output)
  | .code reversed read value, symbol => do
    let digit ← symbol.bind hexValue?
    let extended := 16 * value + digit
    if read < 3 then return (.code reversed (read + 1) extended, output)
    return (.quotes (escapedPiece extended :: reversed), output)

/-- Reads the rest of a text. -/
def tokensFrom (place : Place) (output : List Token) : Symbols → Option (List Token)
  | [] =>
    match place with
    | .between => some output.reverse
    | .word reversed => (wordToken? reversed.reverse).map fun token => (token :: output).reverse
    | _ => none
  | symbol :: rest =>
    match stepSymbol place output symbol with
    | some (place, output) => tokensFrom place output rest
    | none => none

/-- The tokens of a text, if it consists of tokens and blanks. -/
def tokens? (symbols : Symbols) : Option (List Token) := tokensFrom .between [] symbols

end BlockEditor.Json
