import BlockEditor.Decimal.Exact

/-!
# Block paths

A block path leads from a block to one nested in it: every step names a line and a position on it,
the column in a row or the place in a stack. Paths are written as `line.position` steps with
slashes between them. `BlockPath.parse` reads this form; it also takes empty steps, which it
skips, and plus signs and zeros before a number.
-/

namespace BlockEditor

/-- A step from a block to one directly inside it. -/
structure Step where
  /-- The line of the block. -/
  line : Nat
  /-- The column of a row, or the place in a stack. -/
  position : Nat
deriving DecidableEq, Repr, Ord

/-- A way from a block to one nested in it; the empty path leads to the block itself. -/
structure BlockPath where
  /-- The steps, from the outermost. -/
  steps : List Step
deriving DecidableEq, Repr

/-- A step of a path text that does not have the form of a step. -/
structure PathError where
  /-- The text of the step. -/
  step : String
  /-- The number of steps before it. -/
  position : Nat
deriving DecidableEq, Repr

/-- The wording of an error. -/
def PathError.message (error : PathError) : String :=
  "invalid block path step '" ++ error.step ++ "' at position " ++ Nat.repr error.position

namespace Step

/-- The characters of a step. -/
def letters (step : Step) : List Char :=
  Decimal.digits step.line ++ '.' :: Decimal.digits step.position

/-- Reads a number below `2 ^ 64` that may have a plus sign. -/
def number? (letters : List Char) : Option Nat :=
  let written := if letters.head? = some '+' then letters.tail else letters
  if !written.isEmpty && written.all Char.isDigit then
    let value := Nat.ofDigitChars 10 written 0
    if value < Decimal.wordLimit then some value else none
  else none

/-- Reads a step: two numbers around the first point. -/
def ofLetters? (letters : List Char) : Option Step :=
  match letters.dropWhile (· != '.') with
  | '.' :: position => do
    return ⟨← number? (letters.takeWhile (· != '.')), ← number? position⟩
  | _ => none

end Step

/-- The parts of a text between slashes. -/
def slashParts : List Char → List (List Char)
  | [] => [[]]
  | letter :: rest =>
    if letter = '/' then [] :: slashParts rest
    else
      match slashParts rest with
      | part :: parts => (letter :: part) :: parts
      | [] => [[letter]]

namespace BlockPath

/-- The path to the block itself. -/
def root : BlockPath := ⟨[]⟩

/-- Whether a path leads to the block itself. -/
def isRoot (path : BlockPath) : Bool := path.steps.isEmpty

/-- The number of steps. -/
def length (path : BlockPath) : Nat := path.steps.length

/-- The path with a further step at its end. -/
def child (path : BlockPath) (step : Step) : BlockPath := ⟨path.steps ++ [step]⟩

/-- The path with a further step at its beginning. -/
def within (path : BlockPath) (step : Step) : BlockPath := ⟨step :: path.steps⟩

/-- The path without its last step, and that step. -/
def splitLast? (path : BlockPath) : Option (BlockPath × Step) :=
  path.steps.getLast?.map fun last => (⟨path.steps.dropLast⟩, last)

/-- The path to the enclosing block. -/
def parent? (path : BlockPath) : Option BlockPath := path.splitLast?.map Prod.fst

/-- The path without its first step. -/
def tail (path : BlockPath) : BlockPath := ⟨path.steps.tail⟩

/-- One path after another. -/
def join (path other : BlockPath) : BlockPath := ⟨path.steps ++ other.steps⟩

/-- Whether a path begins with all steps of another. -/
def hasPrefix (path other : BlockPath) : Bool := other.steps.isPrefixOf path.steps

/-- The order of paths step by step; a path stands before those that go on from it. -/
def order (path other : BlockPath) : Ordering := List.compareLex compare path.steps other.steps

/-- The characters of steps with slashes between them. -/
def stepLetters : List Step → List Char
  | [] => []
  | [step] => step.letters
  | step :: next :: rest => step.letters ++ '/' :: stepLetters (next :: rest)

/-- The text of a path. -/
def text (path : BlockPath) : String := String.ofList (stepLetters path.steps)

/-- Reads the steps of a path from a position on. -/
def parseSteps (position : Nat) : List (List Char) → Except PathError (List Step)
  | [] => .ok []
  | part :: rest =>
    match Step.ofLetters? part with
    | some step => do
      let steps ← parseSteps (position + 1) rest
      return step :: steps
    | none => .error ⟨String.ofList part, position⟩

/-- Reads the text of a path. Empty steps are skipped and not counted. -/
def parse (text : String) : Except PathError BlockPath :=
  (parseSteps 0 ((slashParts text.toList).filter (!·.isEmpty))).map BlockPath.mk

end BlockPath

end BlockEditor
