import BlockEditor.Store.Library

/-!
# Names of functions

The name of a function begins with a letter, a digit or `_` and goes on with these, blanks, points
and hyphens (`FollowsPattern`). Such a name is printable and has no slash, and it is neither empty
nor one of the names that a directory has for itself and for what is above it
(`isPlainName_of_isFunctionName`).
-/

namespace BlockEditor

variable {letter : Char} {name : String}

/-- A letter that a name may begin with. -/
def IsStartLetter (letter : Char) : Prop :=
  ('A' ≤ letter ∧ letter ≤ 'Z') ∨ ('a' ≤ letter ∧ letter ≤ 'z') ∨
    ('0' ≤ letter ∧ letter ≤ '9') ∨ letter = '_'

/-- A letter that a name may go on with. -/
def IsFurtherLetter (letter : Char) : Prop :=
  IsStartLetter letter ∨ letter = ' ' ∨ letter = '.' ∨ letter = '-'

theorem isNameStart_iff : isNameStart letter = true ↔ IsStartLetter letter := by
  have upper : letter.isUpper = true ↔ 'A' ≤ letter ∧ letter ≤ 'Z' := decide_eq_true_iff
  have lower : letter.isLower = true ↔ 'a' ≤ letter ∧ letter ≤ 'z' :=
    Bool.and_eq_true_iff.trans (and_congr decide_eq_true_iff decide_eq_true_iff)
  have digit : letter.isDigit = true ↔ '0' ≤ letter ∧ letter ≤ '9' :=
    Bool.and_eq_true_iff.trans (and_congr decide_eq_true_iff decide_eq_true_iff)
  have alphanumeric : letter.isAlphanum = true ↔
      (letter.isUpper = true ∨ letter.isLower = true) ∨ letter.isDigit = true :=
    Bool.or_eq_true_iff.trans (or_congr_left Bool.or_eq_true_iff)
  simp only [isNameStart, IsStartLetter, Bool.or_eq_true, beq_iff_eq, alphanumeric, upper, lower,
    digit, or_assoc]

theorem isNameLetter_iff : isNameLetter letter = true ↔ IsFurtherLetter letter := by
  simp only [isNameLetter, IsFurtherLetter, Bool.or_eq_true, beq_iff_eq, or_assoc, isNameStart_iff]

theorem isNameLetter_of_isNameStart (isStart : isNameStart letter = true) :
    isNameLetter letter = true := by
  rw [isNameLetter, isStart]
  rfl

theorem ne_of_isNameLetter (isLetter : isNameLetter letter = true) :
    letter ≠ '/' ∧ letter ≠ '\x00' := by
  constructor <;>
    · rintro rfl
      cases isLetter

/-- The letters of names are printable. -/
theorem toNat_of_isNameLetter (isLetter : isNameLetter letter = true) :
    0x20 ≤ letter.toNat ∧ letter.toNat < 0x7F := by
  have between : ∀ {low high : Char}, low ≤ letter ∧ letter ≤ high →
      low.toNat ≤ letter.toNat ∧ letter.toNat ≤ high.toNat := id
  rcases isNameLetter_iff.mp isLetter with
    (range | range | range | rfl) | rfl | rfl | rfl
  · have codes := between range
    exact ⟨Nat.le_trans (by decide) codes.1, Nat.lt_of_le_of_lt codes.2 (by decide)⟩
  · have codes := between range
    exact ⟨Nat.le_trans (by decide) codes.1, Nat.lt_of_le_of_lt codes.2 (by decide)⟩
  · have codes := between range
    exact ⟨Nat.le_trans (by decide) codes.1, Nat.lt_of_le_of_lt codes.2 (by decide)⟩
  all_goals decide

/-- A name that a directory has for none of its surroundings. -/
structure IsPlainName (name : String) : Prop where
  /-- There is something to the name. -/
  notEmpty : name ≠ ""
  /-- The name is not the one of the directory itself. -/
  notSelf : name ≠ "."
  /-- The name is not the one of the directory above. -/
  notAbove : name ≠ ".."
  /-- The name does not lead through another directory. -/
  noSlash : '/' ∉ name.toList
  /-- All letters are printable. -/
  printable : ∀ letter ∈ name.toList, 0x20 ≤ letter.toNat ∧ letter.toNat < 0x7F

theorem isFunctionName_eq_true (isName : isFunctionName name = true) :
    ∃ letter rest, name.toList = letter :: rest ∧ isNameStart letter = true ∧
      ∀ other ∈ name.toList, isNameLetter other = true := by
  rw [isFunctionName] at isName
  split at isName
  · cases isName
  · rename_i letter rest letters
    rw [Bool.and_eq_true, List.all_eq_true] at isName
    refine ⟨letter, rest, letters, isName.1, ?_⟩
    rw [letters]
    exact List.forall_mem_cons.mpr ⟨isNameLetter_of_isNameStart isName.1, isName.2⟩

/-- A name of a function is one plain part of a path. -/
theorem isPlainName_of_isFunctionName (isName : isFunctionName name = true) :
    IsPlainName name := by
  rcases isFunctionName_eq_true isName with ⟨_, _, _, _, areLetters⟩
  refine ⟨?_, ?_, ?_, ?_, fun letter letterMem => ?_⟩
  · rintro rfl
    cases isName
  · rintro rfl
    cases isName
  · rintro rfl
    cases isName
  · exact fun slashMem => (ne_of_isNameLetter (areLetters '/' slashMem)).1 rfl
  · exact toNat_of_isNameLetter (areLetters letter letterMem)

/-- The name of a function names something in the directory, and never what is above it. -/
theorem isEntryName_of_isFunctionName (isName : isFunctionName name = true)
    (short : name.utf8ByteSize ≤ nameLimit) : isEntryName name = true := by
  have plain := isPlainName_of_isFunctionName isName
  rcases isFunctionName_eq_true isName with ⟨_, _, _, _, areLetters⟩
  have allowed : name.toList.all (fun letter => letter != '/' && letter != '\x00') = true := by
    rw [List.all_eq_true]
    intro other otherMem
    simpa using ne_of_isNameLetter (areLetters other otherMem)
  simp [isEntryName, plain.notEmpty, plain.notSelf, plain.notAbove, short, allowed]

/-- The names that are listed are those under which there is a function. -/
theorem FunctionLibrary.mem_list_iff_contains {library : FunctionLibrary} :
    name ∈ library.list ↔ library.contains name = true := by
  simp only [list, contains, Directory.fileNames, List.mem_filter, Bool.and_eq_true,
    SortedMap.mem_keys_iff]
  constructor
  · rintro ⟨⟨_, isFile⟩, isName⟩
    exact ⟨isName, isFile⟩
  · rintro ⟨isName, isFile⟩
    refine ⟨⟨?_, isFile⟩, isName⟩
    rw [Directory.hasFile, Directory.file?] at isFile
    split at isFile
    · rename_i content found
      exact ⟨_, found⟩
    · cases isFile

end BlockEditor
