import BlockEditor.Proofs.Record.Reread
import BlockEditor.Proofs.Store.Saved

/-!
# Rewriting the file of a function

Whoever reads the records of a function and writes them back changes the file: lists of fields
become objects, unknown fields are dropped, and of a field that is given twice only the last one is
left. The records are the same when the file is read again, unless this makes a record of a
parameter that was none (`FunctionLibrary.rewriting_settles`).
-/

namespace BlockEditor

open Json

namespace FunctionLibrary

variable {library : FunctionLibrary} {name text : String} {records : List InstanceRecord}
  {node : Node} {content : Text.Symbols}

/-- Records are read only under the name of a function that has a file. -/
theorem exists_of_read (read : library.read name = .ok records) :
    isFunctionName name = true ∧
      ∃ content text, library.directory.file? name = some content ∧ content.text? = some text ∧
        recordsOfText text = .ok records := by
  rw [FunctionLibrary.read] at read
  split at read
  · rename_i isName
    split at read
    · cases read
    · rename_i content inFile
      split at read
      · cases read
      · rename_i text isText
        exact ⟨isName, content, text, inFile, isText, read⟩
  · cases read

/-- The records of a text are those of a tree. That of a text without letters is an empty list. -/
theorem exists_tree (loaded : recordsOfText text = .ok records) :
    ∃ node, InstanceRecord.recordsOfNode? node = some records ∧
      ∀ Holds : Node → Prop, Holds (.array []) →
        (∀ tree, Node.ofText? text = some tree → tree.Everywhere Holds) →
          node.Within Holds Node.nestingLimit := by
  rw [recordsOfText] at loaded
  split at loaded
  · cases loaded
    refine ⟨.array [], rfl, ?_⟩
    intro Holds empty _
    exact .branch empty (List.forall_mem_nil _)
  · split at loaded
    · rename_i records isList
      cases loaded
      rw [InstanceRecord.listOfText?, Option.bind_eq_some_iff] at isList
      rcases isList with ⟨node, isTree, read⟩
      refine ⟨node, read, ?_⟩
      intro Holds _ everywhere
      exact (everywhere node isTree).within_text isTree
    · cases loaded

/-- Writing records where others were read, and reading them, gives what their text is read as. -/
theorem read_of_rewrite {others : List InstanceRecord} (read : library.read name = .ok others)
    (short : name.utf8ByteSize ≤ nameLimit)
    (writable : (InstanceRecord.listJson records).Writable Node.nestingLimit) :
    ∃ rewritten, library.write name records = .ok rewritten ∧
      rewritten.read name = .ok (InstanceRecord.rereadRecords records) := by
  rcases exists_of_read read with ⟨isName, content, _, inFile, _, _⟩
  have noDirectory : library.directory.entries.get? name ≠ some .directory := by
    intro isDirectory
    rw [Directory.file?, isDirectory] at inFile
    cases inFile
  rcases read_of_write isName short noDirectory records with ⟨rewritten, written, readAgain⟩
  refine ⟨rewritten, written, ?_⟩
  rw [readAgain, recordsOfText_reread writable.legible, if_pos writable.shallow]

/-- The records that a file is read as can be written over it, if the file has no numbers but
integers. Reading them again gives the same records if and only if none of the other values in them
looks like a record, and this is so if no object of the file gives a field of a record twice. After
one rewriting at the latest the records stay as they are. -/
theorem rewriting_settles (inFile : library.directory.file? name = some (.ofString text))
    (short : name.utf8ByteSize ≤ nameLimit)
    (integers : ∀ tree, Node.ofText? text = some tree → tree.Everywhere Node.IsWhole)
    (read : library.read name = .ok records) :
    ∃ once again twice, library.write name records = .ok once ∧ once.read name = .ok again ∧
      (again = records ↔
        ∀ record ∈ records, record.Everywhere
          (InstanceRecord.OthersAre fun value => InstanceRecord.ofNode? value.node = none)) ∧
      ((∀ tree, Node.ofText? text = some tree →
          tree.Everywhere (Node.GivesOnce InstanceRecord.fieldNames)) →
        again = records) ∧
      once.write name again = .ok twice ∧ twice.read name = .ok again := by
  rcases exists_of_read read with ⟨_, content, other, isFile, isText, loaded⟩
  have same : other = text := by
    rw [inFile] at isFile
    cases isFile
    rw [Text.Symbols.text?_ofString] at isText
    exact (Option.some.inj isText).symm
  subst same
  rcases exists_tree loaded with ⟨node, readNode, within⟩
  have tidyEmpty : (Node.array []).IsTidy InstanceRecord.fieldNames := by
    constructor <;> simp [Node.IsWhole, Node.GivesOnce]
  have whole := within Node.IsWhole tidyEmpty.whole integers
  -- What is written is tidy in any case, so only the first reading of it can make a difference.
  have tidyOnce := InstanceRecord.within_listJson whole readNode
  have wholeOnce := tidyOnce.mono fun _ tidy => tidy.whole
  have readTree := InstanceRecord.recordsOfNode?_listJson records
  have tidyTwice := InstanceRecord.within_listJson wholeOnce readTree
  have wholeTwice := tidyTwice.mono fun _ tidy => tidy.whole
  rcases read_of_rewrite read short (Value.writable_of_within wholeOnce) with
    ⟨once, written, readOnce⟩
  rcases read_of_rewrite readOnce short (Value.writable_of_within wholeTwice) with
    ⟨twice, writtenTwice, readTwice⟩
  rw [InstanceRecord.rereadRecords_of_tidy tidyOnce readTree] at readTwice
  refine ⟨once, _, twice, written, readOnce, ?_, ?_, writtenTwice, readTwice⟩
  · exact InstanceRecord.rereadRecords_eq_self_iff whole readNode
  · intro givesOnce
    have tidy := within _ tidyEmpty fun tree isTree =>
      (integers tree isTree).tidy (givesOnce tree isTree)
    exact InstanceRecord.rereadRecords_of_tidy tidy readNode

/-- The library with nothing but the file of one function. -/
def withFile (name text : String) : FunctionLibrary :=
  ⟨⟨SortedMap.empty.insert name (.file (.ofString text))⟩⟩

theorem inFile_withFile (name text : String) :
    (withFile name text).directory.file? name = some (.ofString text) := by
  rw [withFile, Directory.file?, SortedMap.get?_insert, if_pos rfl]

/-- A function whose file holds a list of records is read as this list. -/
theorem read_withFile {value : Value} (isName : isFunctionName name = true)
    (notBlank : Text.blank value.compact = false)
    (writable : value.Writable Node.nestingLimit)
    (isList : InstanceRecord.recordsOfNode? value.node = some records) :
    (withFile name value.compact).read name = .ok records := by
  have isTree : Node.ofText? value.compact = some value.node := writable.ofSymbols?_compact
  simp [FunctionLibrary.read, isName, inFile_withFile, Text.Symbols.text?_ofString, recordsOfText,
    notBlank, InstanceRecord.listOfText?, isTree, isList]

/-- A record that is written as a list and has a number for a parameter, and a record with an
unknown field. -/
theorem rewriting_settles_number :
    ∃ (text : String) (records : List InstanceRecord) (once : FunctionLibrary),
      text = "[[\"a\",[7]],\x7b\"id\":\"b\",\"note\":null\x7d]" ∧ records.length = 2 ∧
        (withFile "main" text).read "main" = .ok records ∧
          (withFile "main" text).write "main" records = .ok once ∧
            once.read "main" = .ok records := by
  let seven : Value := .number (.integer 7 (by decide))
  let first : Value := .array [.string "a", .array [seven]]
  let second : Value := .object [("id", .string "b"), ("note", .null)]
  let value : Value := .array [first, second]
  let records : List InstanceRecord := [⟨"a", [.other seven], []⟩, ⟨"b", [], []⟩]
  have tidyList : (Value.array [seven]).node.Within (Node.IsTidy InstanceRecord.fieldNames) 125 :=
    Node.within_array (List.forall_mem_singleton.mpr (Node.within_integer (by decide)))
  have tidyFirst : first.node.Within (Node.IsTidy InstanceRecord.fieldNames) 126 := by
    apply Node.within_array
    exact List.forall_mem_cons.mpr
      ⟨Node.within_string "a", List.forall_mem_singleton.mpr tidyList⟩
  have tidySecond : second.node.Within (Node.IsTidy InstanceRecord.fieldNames) 126 := by
    apply Node.within_object (by decide)
    simp [Node.within_string, Node.within_null, Value.node]
  have tidy : value.node.Within (Node.IsTidy InstanceRecord.fieldNames) Node.nestingLimit := by
    apply Node.within_array
    simp [tidyFirst, tidySecond]
  have writable := Value.writable_of_within (tidy.mono fun _ tidy => tidy.whole)
  have isTree : Node.ofText? value.compact = some value.node := writable.ofSymbols?_compact
  have everywhere : ∀ tree, Node.ofText? value.compact = some tree →
      tree.Everywhere (Node.IsTidy InstanceRecord.fieldNames) := by
    rw [isTree]
    rintro tree ⟨⟩
    exact tidy.everywhere
  have read : (withFile "main" value.compact).read "main" = .ok records :=
    read_withFile rfl (by decide +kernel) writable rfl
  rcases rewriting_settles (inFile_withFile "main" value.compact) (by decide)
      (fun tree isTree => (everywhere tree isTree).mono fun _ tidy => tidy.whole) read with
    ⟨once, again, _, written, readAgain, _, same, _, _⟩
  rw [same fun tree isTree => (everywhere tree isTree).mono fun _ tidy => tidy.once] at readAgain
  exact ⟨value.compact, records, once, by decide +kernel, rfl, read, written, readAgain⟩

/-- The parameter is no record, because it gives its identifier twice. It is written with only the
last one, and what is written is a record. -/
theorem record_made_by_rewriting :
    ∃ (text : String) (records again : List InstanceRecord) (once : FunctionLibrary),
      text = "[\x7b\"id\":\"a\",\"params\":[\x7b\"id\":\"b\",\"id\":\"c\"\x7d]\x7d]" ∧
        (withFile "main" text).read "main" = .ok records ∧
          (withFile "main" text).write "main" records = .ok once ∧
            once.read "main" = .ok again ∧
              records = [⟨"a", [.other (.object [("id", .string "c")])], []⟩] ∧
                again = [⟨"a", [.block ⟨"c", [], []⟩], []⟩] ∧ again ≠ records := by
  let list (param : Value) : Value :=
    .array [.object [("id", .string "a"), ("params", .array [param])]]
  let twice : Value := .object [("id", .string "b"), ("id", .string "c")]
  let once : Value := .object [("id", .string "c")]
  let records : List InstanceRecord := [⟨"a", [.other once], []⟩]
  let again : List InstanceRecord := [⟨"a", [.block ⟨"c", [], []⟩], []⟩]
  have writable_list : ∀ param : Value, param.Writable 124 → (list param).Writable 127 := by
    intro param writable
    have params : (Value.array [param]).Writable 125 :=
      Value.writable_array (List.forall_mem_singleton.mpr writable)
    apply Value.writable_array
    rw [List.forall_mem_singleton]
    apply Value.writable_object
    simp [Value.writable_string, params]
  have writable := writable_list twice (Value.writable_object (by simp [Value.writable_string]))
  have writableAgain : (InstanceRecord.listJson records).Writable Node.nestingLimit :=
    writable_list once (Value.writable_object (by simp [Value.writable_string]))
  have read : (withFile "main" (list twice).compact).read "main" = .ok records :=
    read_withFile rfl (by decide +kernel) writable rfl
  rcases read_of_rewrite read (by decide) writableAgain with ⟨rewritten, written, readAgain⟩
  exact ⟨(list twice).compact, records, again, rewritten, by decide +kernel, read, written,
    readAgain, rfl, rfl, by decide⟩

end FunctionLibrary

end BlockEditor
