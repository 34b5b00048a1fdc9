/-!
# Text as it comes from bytes

A file holds bytes, and not every byte sequence is UTF-8. `Symbols` is what is left of the bytes
for a reader of text: the characters, and a mark for every maximal run of bytes that starts a
character and does not finish it. `decode` reads bytes, `Symbols.ofString` and `Symbols.text?`
connect symbols with text (`text?_ofString`), and `Symbols.shown` prints a replacement character
for each mark.
-/

namespace BlockEditor.Text

/-- Characters, with `none` where the bytes were no UTF-8. -/
abbrev Symbols : Type := List (Option Char)

namespace Symbols

/-- The symbols of a text, all of them characters. -/
def ofString (text : String) : Symbols := text.toList.map some

/-- The text made of the symbols, if all of them are characters. -/
def text? (symbols : Symbols) : Option String := (symbols.mapM id).map String.ofList

/-- The symbols as a text, with U+FFFD in place of what is no character. -/
def shown (symbols : Symbols) : String :=
  String.ofList (symbols.map fun symbol => symbol.getD '\uFFFD')

@[simp]
theorem text?_ofString (text : String) : (ofString text).text? = some text := by
  have characters : ∀ letters : List Char, (letters.map some).mapM id = some letters := by
    intro letters
    induction letters with
    | nil => rfl
    | cons letter rest ih => simp [List.mapM_cons, -List.mapM_map, ih]
  rw [text?, ofString, characters]
  simp

end Symbols

/-- A character whose first bytes have been read: how many bytes are owed, the range of the next
one, and the value of the bits read so far. -/
structure Partial where
  /-- The number of bytes still owed. -/
  owed : Nat
  /-- The least value of the next byte. -/
  low : Nat
  /-- The greatest value of the next byte. -/
  high : Nat
  /-- The bits read so far. -/
  bits : Nat

/-- What the first byte of a character announces: a whole character, the beginning of one, or
nothing that UTF-8 allows. -/
def lead (byte : Nat) : Option (Char ⊕ Partial) :=
  if byte ≤ 0x7F then some (.inl (Char.ofNat byte))
  else if 0xC2 ≤ byte ∧ byte ≤ 0xDF then some (.inr ⟨1, 0x80, 0xBF, byte - 0xC0⟩)
  else if byte = 0xE0 then some (.inr ⟨2, 0xA0, 0xBF, 0⟩)
  else if byte = 0xED then some (.inr ⟨2, 0x80, 0x9F, byte - 0xE0⟩)
  else if 0xE1 ≤ byte ∧ byte ≤ 0xEF then some (.inr ⟨2, 0x80, 0xBF, byte - 0xE0⟩)
  else if byte = 0xF0 then some (.inr ⟨3, 0x90, 0xBF, 0⟩)
  else if 0xF1 ≤ byte ∧ byte ≤ 0xF3 then some (.inr ⟨3, 0x80, 0xBF, byte - 0xF0⟩)
  else if byte = 0xF4 then some (.inr ⟨3, 0x80, 0x8F, byte - 0xF0⟩)
  else none

/-- Reads a byte where a character may start. -/
def startCharacter (byte : Nat) : Symbols × Option Partial :=
  match lead byte with
  | some (.inl character) => ([some character], none)
  | some (.inr part) => ([], some part)
  | none => ([none], none)

/-- Reads one byte: the symbols it completes and the character it leaves unfinished. -/
def stepByte (pending : Option Partial) (byte : Nat) : Symbols × Option Partial :=
  match pending with
  | none => startCharacter byte
  | some part =>
    if part.low ≤ byte ∧ byte ≤ part.high then
      let bits := part.bits * 64 + (byte - 0x80)
      if part.owed ≤ 1 then ([some (Char.ofNat bits)], none)
      else ([], some ⟨part.owed - 1, 0x80, 0xBF, bits⟩)
    else
      let (symbols, next) := startCharacter byte
      (none :: symbols, next)

/-- Reads bytes from a point where a character may be unfinished. -/
def decodeFrom (pending : Option Partial) : List UInt8 → Symbols
  | [] => if pending.isSome then [none] else []
  | byte :: rest =>
    let (symbols, next) := stepByte pending byte.toNat
    symbols ++ decodeFrom next rest

/-- Reads bytes as UTF-8, with one mark for each maximal run of bytes that is none. -/
def decode (bytes : List UInt8) : Symbols := decodeFrom none bytes

end BlockEditor.Text
