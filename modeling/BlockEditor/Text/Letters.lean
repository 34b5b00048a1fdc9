/-!
# Letter case and blanks

Names of value types and languages are compared without regard to the case of the letters `a` to
`z`; no other letter has a second case here. Whether a text is blank depends on the white space of
Unicode, which `isBlank` lists.
-/

namespace BlockEditor.Text

/-- The text with the letters `a` to `z` in upper case. -/
def upper (text : String) : String := String.ofList (text.toList.map Char.toUpper)

/-- Whether two texts differ at most in the case of the letters `a` to `z`. -/
def sameLetters (first second : String) : Bool := upper first == upper second

/-- The characters with the Unicode property `White_Space`. -/
def isBlank (character : Char) : Bool :=
  let code := character.toNat
  (0x09 ≤ code && code ≤ 0x0D) || code == 0x20 || code == 0x85 || code == 0xA0 ||
    code == 0x1680 || (0x2000 ≤ code && code ≤ 0x200A) || code == 0x2028 || code == 0x2029 ||
    code == 0x202F || code == 0x205F || code == 0x3000

/-- Whether a text holds nothing but white space. -/
def blank (text : String) : Bool := text.toList.all isBlank

end BlockEditor.Text
