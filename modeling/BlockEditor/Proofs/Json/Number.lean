import Mathlib.Data.List.TakeWhile
import BlockEditor.Proofs.Json.Tree

/-!
# Integers read back

An integer is written by its digits, after a minus sign if it is negative. Digits begin with a zero
only if they are those of zero (`Decimal.head?_digits`), so the letters of an integer are a number
of JSON, and they stand for this integer (`Json.isLegible_integer`).
-/

namespace BlockEditor

namespace Decimal

theorem isDigit_of_mem_digits {number : Nat} {letter : Char} (letterMem : letter ∈ digits number) :
    letter.isDigit = true :=
  Nat.isDigit_of_mem_toDigits (by decide) (by decide) letterMem

theorem digits_ne_nil (number : Nat) : digits number ≠ [] := Nat.toDigits_ne_nil

/-- Digits do not begin with a zero, unless they are those of zero. -/
theorem head?_digits {number : Nat} (positive : 0 < number) :
    (digits number).head? ≠ some '0' := by
  induction number using Nat.strongRecOn with
  | ind number ih =>
      by_cases small : number < 10
      · have noZero : ∀ digit < 10, 0 < digit → Nat.digitChar digit ≠ '0' := by decide
        rw [digits, Nat.toDigits_of_lt_base small, List.head?_cons]
        intro isZero
        exact noZero number small positive (Option.some.inj isZero)
      · have shorter := ih (number / 10) (by omega) (by omega)
        rw [digits, Nat.toDigits_of_base_le (by decide) (Nat.not_lt.mp small),
          List.head?_append_of_ne_nil _ Nat.toDigits_ne_nil]
        exact shorter

end Decimal

namespace Json

open Decimal

theorem spanDigits_digits (number : Nat) : spanDigits (digits number) = (digits number, []) := by
  have all : ∀ letter ∈ digits number, letter.isDigit = true :=
    fun _ letterMem => isDigit_of_mem_digits letterMem
  rw [spanDigits, List.takeWhile_eq_self_iff.mpr all, List.dropWhile_eq_nil_iff.mpr all]

/-- The digits of a number are a number of JSON. -/
theorem unsigned?_digits (negative : Bool) (number : Nat) :
    Numeral.unsigned? negative (digits number) = some ⟨negative, digits number, [], none⟩ := by
  have noExtraZero :
      ((digits number).length != 1 && (digits number).head? == some '0') = false := by
    rcases Nat.eq_zero_or_pos number with rfl | positive
    · rfl
    · simp [head?_digits positive]
  simp [Numeral.unsigned?, spanDigits_digits, digits_ne_nil, noExtraZero, Numeral.fraction?,
    Numeral.exponent?]

/-- The letters of an integer are read as a numeral without fraction and exponent. -/
theorem ofLetters?_integerLetters (value : Int) :
    Numeral.ofLetters? (Number.integerLetters value) =
      some ⟨decide (value < 0), digits value.natAbs, [], none⟩ := by
  rw [Number.integerLetters]
  split
  · rename_i negative
    rw [Numeral.ofLetters?, unsigned?_digits, decide_eq_true negative]
  · rename_i notNegative
    have noMinus : ∀ rest, digits value.natAbs ≠ '-' :: rest := by
      intro rest begins
      have isDigit : '-'.isDigit = true :=
        isDigit_of_mem_digits (begins ▸ List.mem_cons_self)
      cases isDigit
    rw [Numeral.ofLetters?.eq_2 _ noMinus, unsigned?_digits, decide_eq_false notNegative]

/-- The numeral of an integer is read as this integer. -/
theorem number?_integerLetters {value : Int} (inRange : IntegerRange value) :
    (⟨decide (value < 0), digits value.natAbs, [], none⟩ : Numeral).number? =
      some (.integer value inRange) := by
  have size : Nat.ofDigitChars 10 (digits value.natAbs) 0 = value.natAbs :=
    Nat.ofDigitChars_ten_toDigits
  have signed : (if value < 0 then -(value.natAbs : Int) else value.natAbs) = value := by omega
  have noMinusZero : (decide (value < 0) && value.natAbs == 0) = false := by
    rw [Bool.and_eq_false_iff, decide_eq_false_iff_not, beq_eq_false_iff_ne]
    omega
  simp only [Numeral.number?, decide_eq_true_eq, size, signed, inRange, noMinusZero,
    List.isEmpty_nil, Option.isNone_none, Bool.not_false, Bool.and_true, if_true, dite_true]

theorem isWordLetter_of_isDigit {letter : Char} (isDigit : letter.isDigit = true) :
    isWordLetter letter = true := by
  simp [isWordLetter, Char.isAlphanum, isDigit]

theorem isWordLetter_integerLetters (value : Int) :
    ∀ letter ∈ Number.integerLetters value, isWordLetter letter = true := by
  have areDigits : ∀ letter ∈ digits value.natAbs, isWordLetter letter = true :=
    fun _ letterMem => isWordLetter_of_isDigit (isDigit_of_mem_digits letterMem)
  rw [Number.integerLetters]
  split
  · exact List.forall_mem_cons.mpr ⟨rfl, areDigits⟩
  · exact areDigits

/-- The letters of an integer are one token. -/
theorem wordToken?_integerLetters {value : Int} (inRange : IntegerRange value) :
    wordToken? (Number.integerLetters value) = some (.number (.integer value inRange)) := by
  have noWord : ∀ word, Numeral.ofLetters? word = none → Number.integerLetters value ≠ word := by
    rintro word noNumeral rfl
    rw [ofLetters?_integerLetters] at noNumeral
    cases noNumeral
  rw [wordToken?, if_neg (noWord _ rfl), if_neg (noWord _ rfl), if_neg (noWord _ rfl),
    ofLetters?_integerLetters, Option.map_some, number?_integerLetters inRange]

/-- An integer is what its letters stand for. -/
theorem isLegible_integer {value : Int} (inRange : IntegerRange value) :
    (Value.number (.integer value inRange)).IsLegible := by
  intro token tokenMem
  rw [List.mem_singleton.mp tokenMem]
  refine ⟨?_, isWordLetter_integerLetters value, wordToken?_integerLetters inRange⟩
  rw [Number.letters, Number.integerLetters]
  split
  · exact List.cons_ne_nil _ _
  · exact digits_ne_nil _

end Json

namespace Decimal

theorem exists_digit_digits (number : Nat) :
    ∃ letter ∈ digits number, letter.isDigit = true := by
  rcases List.exists_mem_of_ne_nil _ (digits_ne_nil number) with ⟨letter, letterMem⟩
  exact ⟨letter, letterMem, isDigit_of_mem_digits letterMem⟩

theorem exists_digit_pointed (number places : Nat) :
    ∃ letter ∈ pointed number places, letter.isDigit = true := by
  have areDigits : ∀ letter ∈ List.replicate (places + 1 - (digits number).length) '0' ++
      digits number, letter.isDigit = true := by
    intro letter letterMem
    rcases List.mem_append.mp letterMem with letterMem | letterMem
    · rw [List.eq_of_mem_replicate letterMem]
      rfl
    · exact isDigit_of_mem_digits letterMem
  rw [pointed]
  generalize isPadded : List.replicate (places + 1 - (digits number).length) '0' ++
    digits number = padded at areDigits
  have long : places < padded.length := by
    rw [← isPadded, List.length_append, List.length_replicate]
    omega
  -- Of the digits before the point there is at least one.
  have notEmpty : padded.take (padded.length - places) ≠ [] := by
    rw [ne_eq, List.take_eq_nil_iff]
    rintro (none | none)
    · omega
    · simp [none] at long
  rcases List.exists_mem_of_ne_nil _ notEmpty with ⟨letter, letterMem⟩
  refine ⟨letter, ?_, areDigits letter (List.mem_of_mem_take letterMem)⟩
  split
  · exact letterMem
  · exact List.mem_append_left _ letterMem

/-- However a number is written, there is a digit in it. -/
theorem NumberStyle.exists_digit_write (style : NumberStyle) (number : Nat) (power : Int) :
    ∃ letter ∈ style.write number power, letter.isDigit = true := by
  rw [write]
  split
  · split
    · rcases exists_digit_digits number with ⟨letter, letterMem, isDigit⟩
      exact ⟨letter, by simp [letterMem], isDigit⟩
    · exact exists_digit_pointed number _
  · rcases exists_digit_digits (power + ((digits number).length - 1 : Nat)).natAbs with
      ⟨letter, letterMem, isDigit⟩
    exact ⟨letter, List.mem_append_right _ letterMem, isDigit⟩

end Decimal

/-- A number is written with a digit, unless it is none that JSON has. -/
theorem Json.Number.exists_digit_letters (number : Number) :
    (∃ letter ∈ number.letters, letter.isDigit = true) ∨
      number.letters = ['n', 'u', 'l', 'l'] := by
  cases number with
  | integer value inRange =>
      rcases Decimal.exists_digit_digits value.natAbs with ⟨letter, letterMem, isDigit⟩
      refine .inl ⟨letter, ?_, isDigit⟩
      rw [letters, integerLetters]
      split
      · exact List.mem_cons_of_mem _ letterMem
      · exact letterMem
  | real value =>
      rw [letters]
      split
      · rename_i negative mantissa exponent _
        have signed : ∀ magnitude : List Char, (∃ letter ∈ magnitude, letter.isDigit = true) →
            ∃ letter ∈ (if negative then '-' :: magnitude else magnitude),
              letter.isDigit = true := by
          rintro magnitude ⟨letter, letterMem, isDigit⟩
          refine ⟨letter, ?_, isDigit⟩
          split
          · exact List.mem_cons_of_mem _ letterMem
          · exact letterMem
        refine .inl (signed _ ?_)
        split
        · exact ⟨'0', List.mem_cons_self, rfl⟩
        · generalize Decimal.shortest mantissa exponent = shortest
          exact Decimal.NumberStyle.exists_digit_write _ shortest.1 shortest.2
      · exact .inr rfl
      · exact .inr rfl

end BlockEditor
