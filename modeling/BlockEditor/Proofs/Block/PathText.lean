import Mathlib.Data.List.Forall2
import BlockEditor.Path
import BlockEditor.Proofs.Except
import BlockEditor.Proofs.Json.Number

/-!
# Paths as texts

A path is read from the segments of a text: what stands between its slashes, without the empty
ones. `Step.Spells` says which segments are steps, and which steps they are. Reading gives a path
exactly if every segment is a step, and otherwise the first one that is none, with its position
among the segments. Since no slash and no second point can get into the letters of a step, the
text of a path is read as this path, so whatever has been read is written in one form only
(`BlockPath.parse_spelled`).
-/

namespace BlockEditor

namespace Step

/-- Digits, at most one plus sign before them, for a number of 64 bits. -/
def SpellsNumber (letters : List Char) (number : Nat) : Prop :=
  ∃ digits : List Char, (letters = digits ∨ letters = '+' :: digits) ∧ digits ≠ [] ∧
    (∀ digit ∈ digits, digit.isDigit = true) ∧ Nat.ofDigitChars 10 digits 0 = number ∧
      number < UInt64.size

/-- Two numbers with a point between them. Numbers have no points, so it is the first one. -/
def Spells (letters : List Char) (step : Step) : Prop :=
  ∃ first second, letters = first ++ '.' :: second ∧ SpellsNumber first step.line ∧
    SpellsNumber second step.position

variable {letters : List Char} {number : Nat} {step : Step}

/-- Digits, with or without a plus before them, are read as the number that they write, if it has no
more than 64 bits. -/
theorem number?_of_digits {digits : List Char} (notEmpty : digits ≠ [])
    (areDigits : ∀ digit ∈ digits, digit.isDigit = true)
    (written : letters = digits ∨ letters = '+' :: digits) :
    number? letters =
      if Nat.ofDigitChars 10 digits 0 < Decimal.wordLimit then
        some (Nat.ofDigitChars 10 digits 0)
      else none := by
  have noSign : digits.head? ≠ some '+' := by
    intro begins
    have isDigit := areDigits '+' (List.mem_of_mem_head? begins)
    cases isDigit
  have unsigned : (if letters.head? = some '+' then letters.tail else letters) = digits := by
    rcases written with rfl | rfl
    · simp [noSign]
    · simp
  simp [number?, unsigned, notEmpty, List.all_eq_true.mpr areDigits]

/-- What is read as a number are the texts that spell it. -/
theorem number?_eq_some : number? letters = some number ↔ SpellsNumber letters number := by
  constructor
  · intro read
    simp only [number?, Option.ite_none_right_eq_some, Bool.and_eq_true, Bool.not_eq_true',
      List.isEmpty_eq_false_iff, List.all_eq_true, Option.some.injEq] at read
    rcases read with ⟨⟨notEmpty, areDigits⟩, inRange, value⟩
    refine ⟨_, ?_, notEmpty, areDigits, value, value ▸ inRange⟩
    split
    · rename_i signed
      exact .inr (List.eq_cons_of_mem_head? signed)
    · exact .inl rfl
  · rintro ⟨digits, written, notEmpty, areDigits, rfl, inRange⟩
    rw [number?_of_digits notEmpty areDigits written]
    exact if_pos inRange

theorem point_notMem (spells : SpellsNumber letters number) : '.' ∉ letters := by
  rcases spells with ⟨digits, written, _, areDigits, _, _⟩
  have noPoint : '.' ∉ digits := by
    intro pointMem
    cases areDigits '.' pointMem
  rcases written with rfl | rfl
  · exact noPoint
  · simpa using noPoint

/-- What is read as a step are the texts that spell it. -/
theorem ofLetters?_eq_some : ofLetters? letters = some step ↔ Spells letters step := by
  constructor
  · intro read
    have split : letters.takeWhile (· != '.') ++ letters.dropWhile (· != '.') = letters :=
      List.takeWhile_append_dropWhile
    rw [ofLetters?] at read
    split at read
    · rename_i position rest
      simp only [Option.bind_eq_bind, Option.bind_eq_some_iff, Option.pure_def,
        Option.some.injEq] at read
      rcases read with ⟨line, lineRead, place, placeRead, rfl⟩
      exact ⟨_, position, by rw [← rest, split], number?_eq_some.mp lineRead,
        number?_eq_some.mp placeRead⟩
    · cases read
  · rintro ⟨first, second, rfl, lineSpelled, placeSpelled⟩
    have noPoint : ∀ letter ∈ first, (letter != '.') = true := by
      intro letter letterMem
      rw [bne_iff_ne]
      rintro rfl
      exact point_notMem lineSpelled letterMem
    simp [ofLetters?, List.takeWhile_append_of_pos noPoint, List.dropWhile_append_of_pos noPoint,
      number?_eq_some.mpr lineSpelled, number?_eq_some.mpr placeSpelled]

theorem spellsNumber_digits (small : number < UInt64.size) :
    SpellsNumber (Decimal.digits number) number :=
  ⟨Decimal.digits number, .inl rfl, Decimal.digits_ne_nil number,
    fun _ => Decimal.isDigit_of_mem_digits, Nat.ofDigitChars_ten_toDigits, small⟩

theorem spells_letters (small : step.line < UInt64.size ∧ step.position < UInt64.size) :
    Spells step.letters step :=
  ⟨_, _, rfl, spellsNumber_digits small.1, spellsNumber_digits small.2⟩

theorem Spells.small (spells : Spells letters step) :
    step.line < UInt64.size ∧ step.position < UInt64.size := by
  rcases spells with ⟨_, _, _, ⟨_, _, _, _, _, lineSmall⟩, ⟨_, _, _, _, _, placeSmall⟩⟩
  exact ⟨lineSmall, placeSmall⟩

theorem slash_notMem_letters (step : Step) : '/' ∉ step.letters := by
  have noSlash : ∀ number, '/' ∉ Decimal.digits number := by
    intro number slashMem
    cases Decimal.isDigit_of_mem_digits slashMem
  simp [letters, noSlash]

theorem letters_ne_nil (step : Step) : step.letters ≠ [] := by
  simp [letters]

end Step

/-- The parts of a text are what is between its slashes. -/
theorem slashParts_eq_splitOn (letters : List Char) : slashParts letters = letters.splitOn '/' := by
  induction letters with
  | nil => rfl
  | cons letter rest ih =>
      rw [slashParts, ih, List.splitOn_cons_eq_if_modifyHead]
      by_cases isSlash : letter = '/'
      · simp [isSlash]
      · rcases List.exists_cons_of_ne_nil (List.splitOn_ne_nil '/' rest) with ⟨part, parts, split⟩
        simp [isSlash, split]

namespace BlockPath

/-- What stands between the slashes of a text, without the empty parts. -/
def segments (text : String) : List (List Char) :=
  (text.toList.splitOn '/').filter (!·.isEmpty)

/-- Every step has numbers of 64 bits. -/
def IsSmall (path : BlockPath) : Prop :=
  ∀ step ∈ path.steps, step.line < UInt64.size ∧ step.position < UInt64.size

/-- Reads the segment at a position. -/
def stepAt (position : Nat) (segment : List Char) : Except PathError Step :=
  match Step.ofLetters? segment with
  | some step => .ok step
  | none => .error ⟨String.ofList segment, position⟩

variable {position : Nat} {segment : List Char} {segs : List (List Char)} {steps : List Step}
  {path : BlockPath} {error : PathError}

theorem stepAt_eq_ok {step : Step} :
    stepAt position segment = .ok step ↔ Step.Spells segment step := by
  rw [stepAt, ← Step.ofLetters?_eq_some]
  cases Step.ofLetters? segment <;> simp

/-- A part that spells no step is the error, with its position. -/
theorem stepAt_eq_error :
    stepAt position segment = .error error ↔
      (¬∃ step, Step.Spells segment step) ∧ error = ⟨String.ofList segment, position⟩ := by
  simp only [stepAt, ← Step.ofLetters?_eq_some]
  cases Step.ofLetters? segment with
  | none => simp [eq_comm]
  | some step => simp

theorem parseSteps_eq_readFrom (position : Nat) (segs : List (List Char)) :
    parseSteps position segs = readFrom stepAt position segs := by
  induction segs generalizing position with
  | nil => rfl
  | cons segment rest ih =>
      rw [parseSteps, readFrom, stepAt, ih]
      cases Step.ofLetters? segment <;> rfl

/-- Parts are read as steps exactly if each of them spells its step. -/
theorem readFrom_stepAt_eq_ok (position : Nat) :
    readFrom stepAt position segs = .ok steps ↔ List.Forall₂ Step.Spells segs steps := by
  induction segs generalizing position steps with
  | nil => simp [readFrom, eq_comm]
  | cons segment rest ih =>
      simp only [readFrom_cons_eq_ok, stepAt_eq_ok, ih, List.forall₂_cons_left_iff]
      constructor
      · rintro ⟨step, others, here, there, rfl⟩
        exact ⟨step, others, here, there, rfl⟩
      · rintro ⟨step, others, here, there, rfl⟩
        exact ⟨step, others, here, there, rfl⟩

theorem exists_readFrom_stepAt (position : Nat) :
    (∃ steps, readFrom stepAt position segs = .ok steps) ↔
      ∀ segment ∈ segs, ∃ step, Step.Spells segment step :=
  exists_readFrom_iff fun _ _ => exists_congr fun _ => stepAt_eq_ok

theorem parse_eq (text : String) :
    parse text = (readFrom stepAt 0 (segments text)).map BlockPath.mk := by
  rw [parse, parseSteps_eq_readFrom, slashParts_eq_splitOn, segments]

/-- A text is read as a path exactly if its parts spell the steps of the path. -/
theorem parse_eq_ok {text : String} :
    parse text = .ok path ↔ List.Forall₂ Step.Spells (segments text) path.steps := by
  rw [parse_eq, map_eq_ok, ← readFrom_stepAt_eq_ok 0]
  constructor
  · rintro ⟨steps, read, rfl⟩
    exact read
  · intro read
    exact ⟨path.steps, read, rfl⟩

/-- The error is the first part that spells no step, with its position among the parts. -/
theorem parse_eq_error {text : String} :
    parse text = .error error ↔
      ∃ before segment after, segments text = before ++ segment :: after ∧
        (∀ earlier ∈ before, ∃ step, Step.Spells earlier step) ∧
          (¬∃ step, Step.Spells segment step) ∧
            error = ⟨String.ofList segment, before.length⟩ := by
  rw [parse_eq, map_eq_error, readFrom_eq_error]
  simp only [exists_readFrom_stepAt, stepAt_eq_error, Nat.zero_add]

theorem stepLetters_eq_intercalate (steps : List Step) :
    stepLetters steps = ['/'].intercalate (steps.map Step.letters) := by
  induction steps using stepLetters.induct with
  | case1 => rfl
  | case2 step => simp [stepLetters]
  | case3 step next rest ih => simp [stepLetters, ih]

/-- The parts of a path that is printed are its steps as they are printed. -/
theorem segments_text (path : BlockPath) :
    segments path.text = path.steps.map Step.letters := by
  rw [segments, text, String.toList_ofList, stepLetters_eq_intercalate]
  cases empty : path.steps with
  | nil => rfl
  | cons step rest =>
      rw [← empty, List.splitOn_intercalate '/']
      · simp [Step.letters_ne_nil]
      · simp [Step.slash_notMem_letters]
      · simp [empty]

/-- A path that is printed is read back. -/
theorem parse_text (small : path.IsSmall) : parse path.text = .ok path := by
  rw [parse_eq_ok, segments_text, List.forall₂_map_left_iff, List.forall₂_same]
  exact fun step stepMem => Step.spells_letters (small step stepMem)

theorem isSmall_of_spells (spelled : List.Forall₂ Step.Spells segs steps) :
    (⟨steps⟩ : BlockPath).IsSmall := by
  induction spelled with
  | nil => exact List.forall_mem_nil _
  | cons spells _ ih => exact List.forall_mem_cons.mpr ⟨spells.small, ih⟩

/-- A text is read as a path exactly if each of its segments is a step, and then the path has these
steps. If there is a segment that is none, the first one is reported. Paths of 64 bits can be read
from their texts, and a path that was read has the same text when it is read again. -/
theorem parse_spelled :
    (∀ text,
      ((∃ path, parse text = .ok path) ↔
        ∀ segment ∈ segments text, ∃ step, Step.Spells segment step) ∧
      (∀ path, parse text = .ok path ↔ List.Forall₂ Step.Spells (segments text) path.steps) ∧
      (∀ error, parse text = .error error ↔
        ∃ before segment after, segments text = before ++ segment :: after ∧
          (∀ earlier ∈ before, ∃ step, Step.Spells earlier step) ∧
            (¬∃ step, Step.Spells segment step) ∧
              error = ⟨String.ofList segment, before.length⟩) ∧
      ∀ path, parse text = .ok path →
        ∃ again, parse path.text = .ok again ∧ again = path ∧ again.text = path.text) ∧
    ∀ path : BlockPath, path.IsSmall → parse path.text = .ok path := by
  refine ⟨?_, fun _ => parse_text⟩
  intro text
  refine ⟨?_, fun _ => parse_eq_ok, fun _ => parse_eq_error, ?_⟩
  · rw [← exists_readFrom_stepAt 0, parse_eq]
    simp [map_eq_ok]
  · intro path read
    exact ⟨path, parse_text (isSmall_of_spells (parse_eq_ok.mp read)), rfl, rfl⟩

/-- Signs, zeros and empty segments disappear when a path is read and written. -/
theorem parse_spelled_signs :
    ∃ path, parse "/+0.02//18446744073709551615.1/" = .ok path ∧
      path.text = "0.2/18446744073709551615.1" ∧ parse path.text = .ok path := by
  refine ⟨⟨[⟨0, 2⟩, ⟨18446744073709551615, 1⟩]⟩, by decide +kernel, by decide +kernel, ?_⟩
  exact parse_spelled.2 _ (by simp [IsSmall, UInt64.size])

end BlockPath

end BlockEditor
