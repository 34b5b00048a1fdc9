import Mathlib.Logic.Function.Basic
import BlockEditor.Proofs.Store.Saved
import BlockEditor.Store.FileSystem

/-!
# A function library is a finite map

`FunctionLibrary.Bindings` binds names to lists of records, and `FunctionLibrary.Call.bind` says
what a call to a library makes of them: creating binds a free name to no records, writing binds a
name to what is written, removing unbinds it. `FunctionLibrary.Call.Answers` says in terms of the
bindings alone what a call has to be answered with. A library whose files hold what is bound
(`FunctionLibrary.Holds`) answers so, and its files hold afterwards what is bound then. Hence a
library answers after any calls as the bindings that these calls leave
(`FunctionLibrary.answers_run`).
-/

namespace BlockEditor

open Json

theorem map_lt_map {Item Image : Type} [LT Item] [LT Image] {change : Item → Image}
    {first second : List Item} (below : first < second)
    (keeps : ∀ item ∈ first, ∀ other ∈ second, item < other → change item < change other) :
    first.map change < second.map change := by
  induction below with
  | nil => exact List.nil_lt_cons _ _
  | cons _ ih =>
      refine List.cons_lt_cons_iff.mpr (.inr ⟨rfl, ih ?_⟩)
      intro item itemMem other otherMem
      exact keeps item (List.mem_cons_of_mem _ itemMem) other (List.mem_cons_of_mem _ otherMem)
  | rel lower =>
      exact List.cons_lt_cons_iff.mpr (.inl (keeps _ List.mem_cons_self _ List.mem_cons_self lower))

/-- Each letter of a name is one byte. -/
theorem utf8Bytes_of_isFunctionName {name : String} (isName : isFunctionName name = true) :
    utf8Bytes name = name.toList.map fun letter => letter.val.toUInt8 := by
  rcases isFunctionName_eq_true isName with ⟨_, _, _, _, areLetters⟩
  have oneByte : ∀ letter ∈ name.toList,
      String.utf8EncodeChar letter = [letter.val.toUInt8] := by
    intro letter letterMem
    apply String.utf8EncodeChar_eq_singleton
    rw [Char.utf8Size_eq_one_iff]
    have code : letter.toNat < 127 := (toNat_of_isNameLetter (areLetters letter letterMem)).2
    exact Nat.le_of_lt code
  rw [utf8Bytes, String.toUTF8, ← String.utf8Encode_toList, List.utf8Encode, List.data_toByteArray,
    List.map_eq_flatMap, List.flatMap_congr oneByte]

/-- The order of names by code points is their order by bytes. -/
theorem utf8Bytes_lt {first second : String} (firstName : isFunctionName first = true)
    (secondName : isFunctionName second = true) (below : first < second) :
    utf8Bytes first < utf8Bytes second := by
  rcases isFunctionName_eq_true firstName with ⟨_, _, _, _, firstLetters⟩
  rcases isFunctionName_eq_true secondName with ⟨_, _, _, _, secondLetters⟩
  rw [utf8Bytes_of_isFunctionName firstName, utf8Bytes_of_isFunctionName secondName]
  apply map_lt_map below
  intro letter letterMem other otherMem lower
  have small := (toNat_of_isNameLetter (firstLetters letter letterMem)).2
  have otherSmall := (toNat_of_isNameLetter (secondLetters other otherMem)).2
  have codes : letter.toNat < other.toNat := lower
  simp only [UInt8.lt_iff_toNat_lt, UInt32.toNat_toUInt8, Char.toNat_val]
  omega

namespace FunctionLibrary

/-- A call to a function library. -/
inductive Call where
  | create (name : String)
  | write (name : String) (records : List InstanceRecord)
  | remove (name : String)
  | read (name : String)
  | contains (name : String)
  | list

/-- What a call is answered with. -/
inductive Answer where
  | done (result : Except StoreError Unit)
  | records (result : Except StoreError (List InstanceRecord))
  | found (isThere : Bool)
  | names (names : List String)

/-- Names that are bound to records. -/
abbrev Bindings := String → Option (List InstanceRecord)

/-- Why no records can be bound to a name: it is not the name of a function, or the directory has no
room for a name of this length. -/
def nameFault? (name : String) : Option StoreError :=
  if isFunctionName name then
    if name.utf8ByteSize ≤ nameLimit then none else some .io
  else some (.invalidName name)

namespace Call

/-- The library after a call. -/
def apply (library : FunctionLibrary) : Call → FunctionLibrary
  | .create name => (library.create name).toOption.getD library
  | .write name records => (library.write name records).toOption.getD library
  | .remove name => (library.remove name).toOption.getD library
  | _ => library

/-- What a library answers. -/
def answer (library : FunctionLibrary) : Call → Answer
  | .create name => .done ((library.create name).map fun _ => ())
  | .write name records => .done ((library.write name records).map fun _ => ())
  | .remove name => .done ((library.remove name).map fun _ => ())
  | .read name => .records (library.read name)
  | .contains name => .found (library.contains name)
  | .list => .names library.list

/-- What is bound after a call. -/
def bind (bound : Bindings) : Call → Bindings
  | .create name =>
    if nameFault? name = none ∧ bound name = none then Function.update bound name (some [])
    else bound
  | .write name records =>
    if nameFault? name = none then Function.update bound name (some records) else bound
  | .remove name => Function.update bound name none
  | _ => bound

/-- What a call has to be answered with. Names are listed by increasing bytes. -/
def Answers (bound : Bindings) : Call → Answer → Prop
  | .create name, answer =>
    answer = .done (
      match nameFault? name with
      | some fault => .error fault
      | none => if (bound name).isSome then .error (.alreadyExists name) else .ok ())
  | .write name _, answer =>
    answer = .done (
      match nameFault? name with
      | some fault => .error fault
      | none => .ok ())
  | .remove name, answer =>
    answer = .done (
      if isFunctionName name then
        if (bound name).isSome then .ok () else .error (.notFound name)
      else .error (.invalidName name))
  | .read name, answer =>
    answer = .records (
      if isFunctionName name then
        match bound name with
        | some records => .ok records
        | none => .error (.notFound name)
      else .error (.invalidName name))
  | .contains name, answer => answer = .found (bound name).isSome
  | .list, answer =>
    ∃ names, answer = .names names ∧
      names.Pairwise (fun first second => utf8Bytes first < utf8Bytes second) ∧
        ∀ name, name ∈ names ↔ (bound name).isSome = true

/-- The records that a call writes can be read again: they hold nothing but records and texts, and
do not nest more than a text may. -/
def IsReadable : Call → Prop
  | .write _ records =>
    (∀ record ∈ records, record.Everywhere InstanceRecord.IsPlain) ∧
      (InstanceRecord.listJson records).depth ≤ Node.nestingLimit
  | _ => True

end Call

/-- The library after a list of calls to one without functions. -/
def run (calls : List Call) : FunctionLibrary := calls.foldl Call.apply ⟨.empty⟩

/-- What is bound after a list of calls if nothing was bound before. -/
def bindings (calls : List Call) : Bindings := calls.foldl Call.bind fun _ => none

/-- The files of a library hold what is bound, and there is nothing else in its directory. -/
structure Holds (library : FunctionLibrary) (bound : Bindings) : Prop where
  /-- Under a name that is bound there is a file with the text of what is bound to it. -/
  file : ∀ name records, bound name = some records → nameFault? name = none ∧
    ∃ text, library.directory.entries.get? name = some (.file (.ofString text)) ∧
      recordsOfText text = .ok records
  /-- Under any other name there is nothing. -/
  free : ∀ name, bound name = none → library.directory.entries.get? name = none

variable {library : FunctionLibrary} {bound : Bindings} {name text : String}
  {records : List InstanceRecord}

theorem nameFault?_eq_none :
    nameFault? name = none ↔ isFunctionName name = true ∧ name.utf8ByteSize ≤ nameLimit := by
  rw [nameFault?]
  split_ifs with isName short <;> simp [isName]
  · exact short
  · omega

theorem holds_empty : Holds ⟨.empty⟩ fun _ => none where
  file _ _ isBound := by cases isBound
  free _ _ := rfl

namespace Holds

/-- What was written under a name is bound to it. -/
theorem insert (holds : Holds library bound) (noFault : nameFault? name = none)
    (reads : recordsOfText text = .ok records) :
    Holds ⟨⟨library.directory.entries.insert name (.file (.ofString text))⟩⟩
      (Function.update bound name (some records)) where
  file other found isBound := by
    rw [SortedMap.get?_insert]
    by_cases same : other = name
    · subst other
      simp only [Function.update_self, Option.some.injEq] at isBound
      exact ⟨noFault, text, by simp, isBound ▸ reads⟩
    · rw [Function.update_of_ne same] at isBound
      simpa [same] using holds.file other found isBound
  free other isFree := by
    by_cases same : other = name
    · simp [same] at isFree
    · rw [Function.update_of_ne same] at isFree
      simpa [SortedMap.get?_insert, same] using holds.free other isFree

theorem erase (holds : Holds library bound) (name : String) :
    Holds ⟨library.directory.erase name⟩ (Function.update bound name none) where
  file other found isBound := by
    by_cases same : other = name
    · simp [same] at isBound
    · rw [Function.update_of_ne same] at isBound
      simpa [Directory.erase, SortedMap.get?_erase, same] using holds.file other found isBound
  free other isFree := by
    by_cases same : other = name
    · simp [Directory.erase, SortedMap.get?_erase, same]
    · rw [Function.update_of_ne same] at isFree
      simpa [Directory.erase, SortedMap.get?_erase, same] using holds.free other isFree

/-- Under a name there is a file with what is bound to the name, or nothing. -/
theorem entry (holds : Holds library bound) (name : String) :
    (bound name = none ∧ library.directory.entries.get? name = none) ∨
      ∃ records text, bound name = some records ∧ nameFault? name = none ∧
        library.directory.entries.get? name = some (.file (.ofString text)) ∧
          recordsOfText text = .ok records := by
  cases isBound : bound name with
  | none => exact .inl ⟨rfl, holds.free name isBound⟩
  | some records =>
      rcases holds.file name records isBound with ⟨noFault, text, inFile, reads⟩
      exact .inr ⟨records, text, rfl, noFault, inFile, reads⟩

theorem hasFile (holds : Holds library bound) (name : String) :
    library.directory.hasFile name = (bound name).isSome := by
  rcases holds.entry name with ⟨isFree, noEntry⟩ | ⟨records, text, isBound, _, inFile, _⟩
  · simp [Directory.hasFile, Directory.file?, isFree, noEntry]
  · simp [Directory.hasFile, Directory.file?, isBound, inFile]

/-- A file is written exactly under a name that the directory has room for. -/
theorem write? (holds : Holds library bound) (isName : isFunctionName name = true)
    (content : Text.Symbols) :
    library.directory.write? name content =
      if name.utf8ByteSize ≤ nameLimit then
        some ⟨library.directory.entries.insert name (.file content)⟩
      else none := by
  have noDirectory : library.directory.entries.get? name ≠ some .directory := by
    rcases holds.entry name with ⟨_, noEntry⟩ | ⟨_, _, _, _, inFile, _⟩
    · simp [noEntry]
    · simp [inFile]
  by_cases short : name.utf8ByteSize ≤ nameLimit
  · simp [Directory.write?, isEntryName_of_isFunctionName isName short, noDirectory, short]
  · simp [Directory.write?, isEntryName, short]

/-- What creating a function does is decided by the name and by whether it is bound. -/
theorem create_eq (holds : Holds library bound) (name : String) :
    library.create name =
      match nameFault? name with
      | some fault => .error fault
      | none =>
        if (bound name).isSome then .error (.alreadyExists name)
        else .ok ⟨⟨library.directory.entries.insert name (.file (.ofString ""))⟩⟩ := by
  by_cases isName : isFunctionName name = true
  · rcases holds.entry name with ⟨isFree, noEntry⟩ | ⟨records, text, isBound, noFault, inFile, _⟩
    · by_cases short : name.utf8ByteSize ≤ nameLimit
      · simp [create, nameFault?, isName, short, holds.write? isName, SortedMap.contains, noEntry,
          isFree, Text.Symbols.ofString]
      · simp [create, nameFault?, isName, short, holds.write? isName, SortedMap.contains, noEntry]
    · simp [create, noFault, isName, SortedMap.contains, inFile, isBound]
  · simp [create, nameFault?, isName]

/-- What writing a function does is decided by the name alone. -/
theorem write_eq (holds : Holds library bound) (name : String) (records : List InstanceRecord) :
    library.write name records =
      match nameFault? name with
      | some fault => .error fault
      | none =>
        .ok ⟨⟨library.directory.entries.insert name
          (.file (.ofString (InstanceRecord.compactText records)))⟩⟩ := by
  by_cases isName : isFunctionName name = true
  · by_cases short : name.utf8ByteSize ≤ nameLimit <;>
      simp [write, nameFault?, isName, short, holds.write? isName]
  · simp [write, nameFault?, isName]

theorem remove_eq (holds : Holds library bound) (name : String) :
    library.remove name =
      if isFunctionName name then
        if (bound name).isSome then .ok ⟨library.directory.erase name⟩ else .error (.notFound name)
      else .error (.invalidName name) := by
  simp only [remove, holds.hasFile]

/-- What reading a function answers is decided by the name and by what is bound to it. -/
theorem read_eq (holds : Holds library bound) (name : String) :
    library.read name =
      if isFunctionName name then
        match bound name with
        | some records => .ok records
        | none => .error (.notFound name)
      else .error (.invalidName name) := by
  rcases holds.entry name with ⟨isFree, noEntry⟩ | ⟨records, text, isBound, _, inFile, reads⟩
  · simp [read, Directory.file?, isFree, noEntry]
  · simp [read, Directory.file?, isBound, inFile, reads]

theorem isFunctionName_of_isSome (holds : Holds library bound)
    (isBound : (bound name).isSome = true) : isFunctionName name = true := by
  rcases Option.isSome_iff_exists.mp isBound with ⟨records, isBound⟩
  exact (nameFault?_eq_none.mp (holds.file name records isBound).1).1

theorem contains_eq (holds : Holds library bound) (name : String) :
    library.contains name = (bound name).isSome := by
  rw [contains, holds.hasFile]
  cases isBound : (bound name).isSome with
  | false => exact Bool.and_false _
  | true => simp [holds.isFunctionName_of_isSome isBound]

theorem mem_list_iff (holds : Holds library bound) (name : String) :
    name ∈ library.list ↔ (bound name).isSome = true := by
  rw [mem_list_iff_contains, holds.contains_eq]

end Holds

/-- Names are listed by increasing bytes, whatever else is in the directory. -/
theorem pairwise_list (library : FunctionLibrary) :
    library.list.Pairwise fun first second => utf8Bytes first < utf8Bytes second := by
  have increase : library.directory.entries.keys.Pairwise (· < ·) :=
    List.pairwise_map.mpr library.directory.entries.increase
  refine List.Pairwise.imp_of_mem ?_ ((increase.filter _).filter _)
  intro first second firstMem secondMem below
  exact utf8Bytes_lt (List.mem_filter.mp firstMem).2 (List.mem_filter.mp secondMem).2 below

/-- A call is answered as what is bound demands, and the files hold what is bound afterwards. -/
theorem Holds.apply (holds : Holds library bound) (call : Call) (readable : call.IsReadable) :
    Holds (call.apply library) (call.bind bound) ∧ call.Answers bound (call.answer library) := by
  cases call with
  | create name =>
      simp only [Call.apply, Call.bind, Call.Answers, Call.answer, holds.create_eq]
      cases fault : nameFault? name with
      | some error => exact ⟨by simpa [Except.toOption] using holds, rfl⟩
      | none =>
          cases isBound : bound name with
          | some records => exact ⟨by simpa [Except.toOption] using holds, rfl⟩
          | none => exact ⟨by simpa [Except.toOption] using holds.insert fault (by decide), rfl⟩
  | write name records =>
      simp only [Call.apply, Call.bind, Call.Answers, Call.answer, holds.write_eq]
      cases fault : nameFault? name with
      | some error => exact ⟨by simpa [Except.toOption] using holds, rfl⟩
      | none =>
          have reads : recordsOfText (InstanceRecord.compactText records) = .ok records := by
            rw [recordsOfText_compactText readable.1, if_pos readable.2]
          exact ⟨by simpa [Except.toOption] using holds.insert fault reads, rfl⟩
  | remove name =>
      simp only [Call.apply, Call.bind, Call.Answers, Call.answer, holds.remove_eq]
      cases isBound : (bound name).isSome with
      | true =>
          have isName := holds.isFunctionName_of_isSome isBound
          simp only [isName, if_true]
          exact ⟨holds.erase name, rfl⟩
      | false =>
          have unchanged : Function.update bound name none = bound := by
            rw [Function.update_eq_self_iff, eq_comm]
            simpa using isBound
          rw [unchanged]
          split <;> exact ⟨holds, rfl⟩
  | read name => exact ⟨holds, congrArg Answer.records (holds.read_eq name)⟩
  | contains name => exact ⟨holds, congrArg Answer.found (holds.contains_eq name)⟩
  | list => exact ⟨holds, library.list, rfl, library.pairwise_list, holds.mem_list_iff⟩

/-- After any calls the files hold what these calls have bound. -/
theorem holds_run {calls : List Call} (readable : ∀ call ∈ calls, call.IsReadable) :
    Holds (run calls) (bindings calls) := by
  have folded : ∀ (library : FunctionLibrary) (bound : Bindings), Holds library bound →
      Holds (calls.foldl Call.apply library) (calls.foldl Call.bind bound) := by
    induction calls with
    | nil => exact fun _ _ holds => holds
    | cons call calls ih =>
        intro library bound holds
        rw [List.forall_mem_cons] at readable
        exact ih readable.2 _ _ (holds.apply call readable.1).1
  exact folded _ _ holds_empty

/-- A call that is answered with an error changes nothing. -/
theorem apply_of_error {call : Call} {error : StoreError}
    (refused : call.answer library = .done (.error error)) : call.apply library = library := by
  have unchanged : ∀ result : Except StoreError FunctionLibrary,
      (result.map fun _ => ()) = .error error → result.toOption.getD library = library := by
    intro result failed
    cases result with
    | error other => rfl
    | ok changed => cases failed
  cases call with
  | create name => exact unchanged _ (Answer.done.inj refused)
  | write name records => exact unchanged _ (Answer.done.inj refused)
  | remove name => exact unchanged _ (Answer.done.inj refused)
  | _ => rfl

/-- In a run of calls to a library without functions, each call is answered as the bindings demand
that the calls before it have left, and changes nothing if it is answered with an error. -/
theorem answers_run {calls : List Call} (readable : ∀ call ∈ calls, call.IsReadable) :
    ∀ before call after, calls = before ++ call :: after →
      call.Answers (bindings before) (call.answer (run before)) ∧
        ∀ error, call.answer (run before) = .done (.error error) →
          run (before ++ [call]) = run before := by
  rintro before call after rfl
  have readableBefore : ∀ other ∈ before, other.IsReadable :=
    fun other otherMem => readable other (List.mem_append_left _ otherMem)
  have callReadable : call.IsReadable := readable call (by simp)
  refine ⟨((holds_run readableBefore).apply call callReadable).2, ?_⟩
  intro error refused
  simpa [run] using apply_of_error refused

/-- A function that is written twice, the second time with fewer records, reads as it was written
last. -/
theorem answers_after_rewrite :
    let twice := [.create "zeta", .write "main" [⟨"beep", [], []⟩, ⟨"beep", [], []⟩],
      .write "main" [⟨"beep", [], []⟩]]
    (∀ call ∈ twice ++ [.read "main"], call.IsReadable) ∧
      (Call.read "main").answer (run twice) = .records (.ok [⟨"beep", [], []⟩]) := by
  intro twice
  have plain : InstanceRecord.Everywhere InstanceRecord.IsPlain ⟨"beep", [], []⟩ := by
    refine .intro ?_ ?_ <;> simp [InstanceRecord.IsPlain, InstanceRecord.nested]
  have readable : ∀ call ∈ twice ++ [.read "main"], call.IsReadable := by
    simp only [twice, List.cons_append, List.nil_append, List.forall_mem_cons]
    refine ⟨trivial, ⟨by simp [plain], by decide⟩, ⟨by simp [plain], by decide⟩, trivial, by simp⟩
  exact ⟨readable, (answers_run readable twice (.read "main") [] rfl).1⟩

end FunctionLibrary

end BlockEditor
