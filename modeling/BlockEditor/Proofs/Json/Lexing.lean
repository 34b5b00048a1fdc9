import Mathlib.Data.List.Chain
import BlockEditor.Json.Lexer

/-!
# Tokens read back

Every token is read back from its own letters, wherever it stands: a mark is one letter, the letters
of a text in quotes are read back piece by piece, and a word ends where something begins that is no
part of a word. A text `Spells` tokens if it consists of their letters with any blanks in front,
between and behind, so it gives exactly these tokens when no two words follow each other
(`tokens?_of_spells`). Text without blanks and indented text both spell the tokens that they are
written from.

A number is legible if it is what its letters stand for. Every other token of a value is legible.
-/

namespace BlockEditor.Json

open BlockEditor.Text

variable {token : Token} {tokens output : List Token} {text : List Char} {rest : Symbols}
  {reversed : List Piece}

/-- Whether a token is written as a run of letters, digits, signs and points. -/
def Token.isWord : Token → Bool
  | .null | .bool _ | .number _ | .largeNumber => true
  | _ => false

/-- A token is what its letters stand for. A value has no other tokens, numbers apart. -/
def Token.IsLegible : Token → Prop
  | .number value =>
    value.letters ≠ [] ∧ (∀ letter ∈ value.letters, isWordLetter letter = true) ∧
      wordToken? value.letters = some (.number value)
  | .largeNumber => False
  | .brokenString => False
  | _ => True

/-- Two tokens may follow each other without a blank. -/
def Token.Apart (first second : Token) : Prop := first.isWord = false ∨ second.isWord = false

/-- A text consists of the letters of tokens and of blanks. -/
inductive Spells : List Token → List Char → Prop
  | nil : Spells [] []
  | gap {tokens : List Token} {text : List Char} (letter : Char) (blank : isGap letter = true)
      (spells : Spells tokens text) : Spells tokens (letter :: text)
  | token {tokens : List Token} {text : List Char} (token : Token)
      (spells : Spells tokens text) : Spells (token :: tokens) (token.letters ++ text)

theorem hexValue?_hexDigit : ∀ value < 16, hexValue? (hexDigit value) = some value := by decide

theorem tokensFrom_escapedCode {code : Nat} (isControl : code < 0x20) :
    tokensFrom (.quotes reversed) output
        (some '\\' :: some 'u' :: some '0' :: some '0' :: some (hexDigit (code / 16)) ::
          some (hexDigit (code % 16)) :: rest) =
      tokensFrom (.quotes (.character (Char.ofNat code) :: reversed)) output rest := by
  have high := hexValue?_hexDigit (code / 16) (by omega)
  have low := hexValue?_hexDigit (code % 16) (by omega)
  have zero : hexValue? '0' = some 0 := rfl
  have joined : 16 * (code / 16) + code % 16 = code := Nat.div_add_mod code 16
  have piece : escapedPiece code = .character (Char.ofNat code) := by
    rw [escapedPiece, if_neg]
    simp only [Bool.and_eq_true, decide_eq_true_eq]
    omega
  simp [tokensFrom, stepSymbol, zero, high, low, joined, piece]

/-- A character between quotes is read back, escaped or not. -/
theorem tokensFrom_quotedCharacter (character : Char) :
    tokensFrom (.quotes reversed) output ((quotedCharacter character).map some ++ rest) =
      tokensFrom (.quotes (.character character :: reversed)) output rest := by
  rw [quotedCharacter]
  split
  · subst character
    rfl
  split
  · subst character
    rfl
  split
  · subst character
    rfl
  split
  · subst character
    rfl
  split
  · subst character
    rfl
  split
  · subst character
    rfl
  split
  · subst character
    rfl
  split
  · rename_i isControl
    simp only [List.map_cons, List.map_nil, List.cons_append, List.nil_append]
    rw [tokensFrom_escapedCode isControl, Char.ofNat_toNat]
  · rename_i noQuote noBackslash _ _ _ _ _ noControl
    simp [tokensFrom, stepSymbol, noQuote, noBackslash, noControl]

theorem tokensFrom_quotedCharacters (characters : List Char) :
    tokensFrom (.quotes reversed) output
        ((characters.flatMap quotedCharacter).map some ++ rest) =
      tokensFrom (.quotes ((characters.map Piece.character).reverse ++ reversed)) output rest := by
  induction characters generalizing reversed with
  | nil => rfl
  | cons character characters ih =>
      rw [List.flatMap_cons, List.map_append, List.append_assoc, tokensFrom_quotedCharacter, ih]
      simp

theorem joinPieces_characters (characters : List Char) :
    joinPieces (characters.map Piece.character) = some characters := by
  induction characters with
  | nil => rfl
  | cons character characters ih => rw [List.map_cons, joinPieces, ih, Option.map_some]

/-- A text in quotes is read as one token. -/
theorem tokensFrom_quoted (value : String) :
    tokensFrom .between output ((quoted value).map some ++ rest) =
      tokensFrom .between (.string value :: output) rest := by
  have token : stringToken ((value.toList.map Piece.character).reverse ++ []).reverse =
      .string value := by
    rw [List.append_nil, List.reverse_reverse, stringToken, joinPieces_characters]
    simp
  calc tokensFrom .between output ((quoted value).map some ++ rest)
    _ = tokensFrom (.quotes []) output
          ((value.toList.flatMap quotedCharacter).map some ++ some '"' :: rest) := by
        simp [quoted, tokensFrom, stepSymbol, stepBetween, isGap]
    _ = tokensFrom (.quotes ((value.toList.map Piece.character).reverse ++ [])) output
          (some '"' :: rest) := tokensFrom_quotedCharacters value.toList
    _ = tokensFrom .between (.string value :: output) rest := by
        rw [tokensFrom, stepSymbol, if_pos rfl, token]

theorem isGap_of_isWordLetter {letter : Char} (isLetter : isWordLetter letter = true) :
    isGap letter = false ∧ letter ≠ '"' := by
  constructor
  · cases gap : isGap letter with
    | false => rfl
    | true =>
        simp only [isGap, Bool.or_eq_true, beq_iff_eq] at gap
        rcases gap with ((rfl | rfl) | rfl) | rfl <;> cases isLetter
  · rintro rfl
    cases isLetter

theorem tokensFrom_wordLetters {letters before : List Char}
    (areLetters : ∀ letter ∈ letters, isWordLetter letter = true) :
    tokensFrom (.word before) output (letters.map some ++ rest) =
      tokensFrom (.word (letters.reverse ++ before)) output rest := by
  induction letters generalizing before with
  | nil => rfl
  | cons letter letters ih =>
      rw [List.forall_mem_cons] at areLetters
      simp [tokensFrom, stepSymbol, areLetters.1, ih areLetters.2]

/-- A word ends where something begins that is no part of a word. -/
theorem tokensFrom_wordEnd {letters : List Char} (isToken : wordToken? letters = some token)
    (ends : ∀ symbol ∈ rest.head?, symbol.any isWordLetter = false) :
    tokensFrom (.word letters.reverse) output rest =
      tokensFrom .between (token :: output) rest := by
  cases rest with
  | nil => simp [tokensFrom, isToken]
  | cons symbol rest =>
      have ends := ends symbol rfl
      simp [tokensFrom, stepSymbol, ends, isToken]

/-- The letters of a word are read as one token where the word ends. -/
theorem tokensFrom_word {letters : List Char} (nonempty : letters ≠ [])
    (areLetters : ∀ letter ∈ letters, isWordLetter letter = true)
    (isToken : wordToken? letters = some token)
    (ends : ∀ symbol ∈ rest.head?, symbol.any isWordLetter = false) :
    tokensFrom .between output (letters.map some ++ rest) =
      tokensFrom .between (token :: output) rest := by
  cases letters with
  | nil => exact absurd rfl nonempty
  | cons letter letters =>
      rw [List.forall_mem_cons] at areLetters
      rcases isGap_of_isWordLetter areLetters.1 with ⟨noGap, noQuote⟩
      have first : tokensFrom .between output (some letter :: (letters.map some ++ rest)) =
          tokensFrom (.word [letter]) output (letters.map some ++ rest) := by
        simp [tokensFrom, stepSymbol, stepBetween, noGap, noQuote, areLetters.1]
      rw [List.map_cons, List.cons_append, first, tokensFrom_wordLetters areLetters.2,
        ← List.reverse_cons, tokensFrom_wordEnd isToken ends]

/-- A legible token is read back from its letters. -/
theorem tokensFrom_letters (legible : token.IsLegible)
    (ends : token.isWord = true → ∀ symbol ∈ rest.head?, symbol.any isWordLetter = false) :
    tokensFrom .between output (token.letters.map some ++ rest) =
      tokensFrom .between (token :: output) rest := by
  cases token with
  | openArray => rfl
  | closeArray => rfl
  | openObject => rfl
  | closeObject => rfl
  | comma => rfl
  | colon => rfl
  | null => exact tokensFrom_word (by decide) (List.all_eq_true.mp rfl) rfl (ends rfl)
  | bool value =>
      cases value with
      | false => exact tokensFrom_word (by decide) (List.all_eq_true.mp rfl) rfl (ends rfl)
      | true => exact tokensFrom_word (by decide) (List.all_eq_true.mp rfl) rfl (ends rfl)
  | number value =>
      rcases legible with ⟨nonempty, areLetters, isToken⟩
      exact tokensFrom_word nonempty areLetters isToken (ends rfl)
  | string value => exact tokensFrom_quoted value
  | largeNumber => cases legible
  | brokenString => cases legible

theorem isWordLetter_head?_letters (noWord : token.isWord = false) :
    ∀ letter ∈ (token.letters ++ text).head?, isWordLetter letter = false := by
  cases token with
  | null | bool | number | largeNumber => cases noWord
  | openArray | closeArray | openObject | closeObject | comma | colon | string | brokenString =>
      rintro letter ⟨⟩
      rfl

/-- Tokens that do not begin with a word are spelled by a text that does not. -/
theorem Spells.isWordLetter_head? (spells : Spells tokens text)
    (noWord : ∀ next ∈ tokens.head?, next.isWord = false) :
    ∀ letter ∈ text.head?, isWordLetter letter = false := by
  cases spells with
  | nil =>
      intro letter never
      cases never
  | gap letter blank spells =>
      rintro first ⟨⟩
      cases isLetter : isWordLetter letter with
      | false => rfl
      | true =>
          rw [(isGap_of_isWordLetter isLetter).1] at blank
          cases blank
  | token token spells => exact isWordLetter_head?_letters (noWord token rfl)

/-- A text that spells legible tokens, with words apart, is read as these tokens. -/
theorem tokensFrom_of_spells (spells : Spells tokens text)
    (legible : ∀ token ∈ tokens, token.IsLegible) (apart : tokens.IsChain Token.Apart) :
    tokensFrom .between output (text.map some) = some (output.reverse ++ tokens) := by
  induction spells generalizing output with
  | nil => simp [tokensFrom]
  | gap letter blank spells ih =>
      rw [List.map_cons, ← ih legible apart]
      simp [tokensFrom, stepSymbol, stepBetween, blank]
  | token token spells ih =>
      rename_i tokens text
      rw [List.forall_mem_cons] at legible
      rw [List.isChain_cons] at apart
      -- Only a word could take in what follows it, and what follows a word does not begin with one.
      have ends : token.isWord = true →
          ∀ symbol ∈ (text.map some).head?, symbol.any isWordLetter = false := by
        intro isWord symbol symbolMem
        rw [List.head?_map, Option.mem_def, Option.map_eq_some_iff] at symbolMem
        rcases symbolMem with ⟨letter, letterMem, rfl⟩
        apply spells.isWordLetter_head? _ letter letterMem
        intro next nextMem
        rcases apart.1 next nextMem with noWord | noWord
        · rw [isWord] at noWord
          cases noWord
        · exact noWord
      rw [List.map_append, tokensFrom_letters legible.1 ends, ih legible.2 apart.2]
      simp

/-- A text gives the tokens that it spells. -/
theorem tokens?_of_spells (spells : Spells tokens text)
    (legible : ∀ token ∈ tokens, token.IsLegible) (apart : tokens.IsChain Token.Apart) :
    tokens? (Symbols.ofString (String.ofList text)) = some tokens := by
  rw [Symbols.ofString, String.toList_ofList]
  exact tokensFrom_of_spells spells legible apart

/-- Gaps before a text spell nothing. -/
theorem Spells.gaps {gap : List Char} (areGaps : ∀ letter ∈ gap, isGap letter = true)
    (spells : Spells tokens text) : Spells tokens (gap ++ text) := by
  induction gap with
  | nil => exact spells
  | cons letter gap ih =>
      rw [List.forall_mem_cons] at areGaps
      exact .gap letter areGaps.1 (ih areGaps.2)

theorem spells_letters (tokens : List Token) : Spells tokens (tokens.flatMap Token.letters) := by
  induction tokens with
  | nil => exact .nil
  | cons token tokens ih => exact .token token ih

theorem isGap_of_mem_newLine {depth : Nat} :
    ∀ letter ∈ newLine depth, isGap letter = true := by
  intro letter letterMem
  rcases List.mem_cons.mp letterMem with rfl | letterMem
  · rfl
  · rw [List.eq_of_mem_replicate letterMem]
    rfl

theorem isGap_of_mem_prettyGap (previous : Token) (depth : Nat) (next : Token) :
    ∀ letter ∈ prettyGap previous depth next, isGap letter = true := by
  have none : ∀ letter ∈ ([] : List Char), isGap letter = true := by simp
  rw [prettyGap]
  split
  · split
    · exact none
    · exact isGap_of_mem_newLine
  · split
    · exact isGap_of_mem_newLine
    · split
      · simp [isGap]
      · exact none

/-- Tokens are spelled by their indented letters. -/
theorem spells_prettyLetters (tokens : List Token) (previous : Token) (depth : Nat) :
    Spells tokens (prettyLetters previous depth tokens) := by
  induction tokens generalizing previous depth with
  | nil => exact .nil
  | cons token tokens ih =>
      rw [prettyLetters, List.append_assoc]
      exact (Spells.token token (ih token _)).gaps (isGap_of_mem_prettyGap previous depth token)

theorem tokens?_compactText (legible : ∀ token ∈ tokens, token.IsLegible)
    (apart : tokens.IsChain Token.Apart) :
    tokens? (Symbols.ofString (compactText tokens)) = some tokens :=
  tokens?_of_spells (spells_letters tokens) legible apart

/-- Legible tokens are read back from their indented text. -/
theorem tokens?_prettyText (legible : ∀ token ∈ tokens, token.IsLegible)
    (apart : tokens.IsChain Token.Apart) :
    tokens? (Symbols.ofString (prettyText tokens)) = some tokens := by
  cases tokens with
  | nil => rfl
  | cons token tokens =>
      exact tokens?_of_spells (.token token (spells_prettyLetters tokens token _)) legible apart

end BlockEditor.Json
