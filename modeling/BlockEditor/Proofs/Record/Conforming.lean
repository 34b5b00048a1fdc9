import BlockEditor.Proofs.Record.Filled
import BlockEditor.Proofs.Record.RoundTrip

/-!
# Which records are loaded

A record conforms to the catalog if its format is known, if it gives a parameter for each child
column and a list for each stack, and if no parameter is a value that no column takes. Exactly the
records that conform with everything nested in them are loaded, and otherwise the error is that of
the first fault (`Block.ofRecord_iff_conforms`). First come the faults of the record itself, then
those of its contents in the order of the lines (`InstanceRecord.inLineOrder`).

The parameters and lists of a record are used up line by line while the lines are filled. Since
their numbers have been compared before, filling succeeds or fails as going through the contents in
the order of the lines does (`Block.check_ofRecord`).
-/

namespace BlockEditor

open Json

/-- A value that is neither a list nor an object. -/
def Json.Value.isScalar : Value → Bool
  | .array _ | .object _ => false
  | .null | .bool _ | .number _ | .string _ => true

namespace InstanceRecord

variable {catalog : Catalog} {record : InstanceRecord} {error : TreeError}

/-- The catalog has a format for a record, and the record gives as many parameters and lists as the
format has child columns and stacks. -/
structure CountsFit (catalog : Catalog) (record : InstanceRecord) (format : BlockFormat) :
    Prop where
  known : catalog.lookup record.id = some format
  params : record.params.length = format.paramCount
  lists : record.blocks.length = format.stackCount

/-- A record matches a format of the catalog, whatever is nested in it. -/
def Conforms (catalog : Catalog) (record : InstanceRecord) : Prop :=
  (∃ format, record.CountsFit catalog format) ∧
    ∀ value, .other value ∈ record.params → value.isScalar = true

/-- A parameter that some column takes: a record that conforms with everything nested in it, a
literal or a scalar. -/
def ParamConforms (catalog : Catalog) : Param InstanceRecord → Prop
  | .block record => record.Everywhere (Conforms catalog)
  | .literal _ => True
  | .other value => value.isScalar = true

/-- The contents of lines: the parameters of each row from left to right, and the records of each
stack from top to bottom. -/
def inLineOrder : List FormatLine → List (Param InstanceRecord) → List (List InstanceRecord) →
    List (Param InstanceRecord)
  | [], _, _ => []
  | .columns slots :: lines, params, lists =>
    let count := slots.countP Slot.isChild
    params.take count ++ inLineOrder lines (params.drop count) lists
  | .stack :: lines, params, lists =>
    (lists.headD []).map .block ++ inLineOrder lines params lists.tail

/-- The error of the first fault in a record. The faults of a record come before those of the
records in it, and the contents of a record come in the order of the lines. -/
inductive FirstFault (catalog : Catalog) : InstanceRecord → TreeError → Prop
  /-- The format is not known. -/
  | unknown {record : InstanceRecord} (unknown : catalog.lookup record.id = none) :
      FirstFault catalog record (.unknownFormat record.id)
  /-- The number of parameters is not that of the child columns. -/
  | paramCount {record : InstanceRecord} {format : BlockFormat}
      (known : catalog.lookup record.id = some format)
      (differ : record.params.length ≠ format.paramCount) :
      FirstFault catalog record
        (.malformedInstance record.id (.paramCount format.paramCount record.params.length))
  /-- The number of lists is not that of the stacks. -/
  | listCount {record : InstanceRecord} {format : BlockFormat}
      (known : catalog.lookup record.id = some format)
      (same : record.params.length = format.paramCount)
      (differ : record.blocks.length ≠ format.stackCount) :
      FirstFault catalog record
        (.malformedInstance record.id (.listCount format.stackCount record.blocks.length))
  /-- A parameter is no literal, and nothing before it is at fault. -/
  | value {record : InstanceRecord} {format : BlockFormat}
      {before after : List (Param InstanceRecord)} {value : Value}
      (counts : record.CountsFit catalog format)
      (order : inLineOrder format.lines record.params record.blocks =
        before ++ .other value :: after)
      (conform : ∀ param ∈ before, ParamConforms catalog param)
      (noScalar : value.isScalar = false) :
      FirstFault catalog record (.malformedInstance record.id (.notALiteral value))
  /-- There is a fault in a nested record, and nothing before this record is at fault. -/
  | inside {record inner : InstanceRecord} {format : BlockFormat}
      {before after : List (Param InstanceRecord)} {error : TreeError}
      (counts : record.CountsFit catalog format)
      (order : inLineOrder format.lines record.params record.blocks =
        before ++ .block inner :: after)
      (conform : ∀ param ∈ before, ParamConforms catalog param)
      (fault : FirstFault catalog inner error) : FirstFault catalog record error

/-- The first fault is never that something is missing which the numbers promise. -/
theorem FirstFault.ne_tooFew (fault : FirstFault catalog record error) (id : String) :
    error ≠ .malformedInstance id .tooFewParams ∧ error ≠ .malformedInstance id .tooFewLists := by
  induction fault with
  | unknown _ | paramCount _ _ | listCount _ _ _ | value _ _ _ _ => simp
  | inside _ _ _ _ ih => exact ih

theorem mem_inLineOrder {lines : List FormatLine} {params : List (Param InstanceRecord)}
    {lists : List (List InstanceRecord)} {param : Param InstanceRecord}
    (sameParams : params.length = (lines.flatMap FormatLine.slots).countP Slot.isChild)
    (sameLists : lists.length = lines.countP FormatLine.isStack) :
    param ∈ inLineOrder lines params lists ↔
      param ∈ params ∨ ∃ records ∈ lists, ∃ inner ∈ records, param = .block inner := by
  induction lines generalizing params lists with
  | nil =>
      rw [List.length_eq_zero_iff.mp sameParams, List.length_eq_zero_iff.mp sameLists]
      simp [inLineOrder]
  | cons line lines ih =>
      cases line with
      | columns slots =>
          rw [List.flatMap_cons, List.countP_append, FormatLine.slots] at sameParams
          have others := @ih (params.drop (slots.countP Slot.isChild)) lists
            (by rw [List.length_drop]; omega) sameLists
          rw [inLineOrder, List.mem_append, others, ← or_assoc, ← List.mem_append,
            List.take_append_drop]
      | stack =>
          rw [List.countP_cons_of_pos rfl] at sameLists
          cases lists with
          | nil => simp at sameLists
          | cons records lists =>
              have others := @ih params lists sameParams (Nat.succ.inj sameLists)
              rw [inLineOrder, List.mem_append, List.tail_cons, others]
              simp only [List.headD_cons, List.mem_map, List.exists_mem_cons_iff, eq_comm]
              exact or_left_comm

end InstanceRecord

namespace Block

variable {catalog : Catalog} {style : Style} {id : String}

open InstanceRecord

/-- The error of a parameter of the record with an identifier, if it has one. -/
def checkParam (catalog : Catalog) (style : Style) (id : String) :
    Param InstanceRecord → Except TreeError Unit
  | .block record => (ofRecord catalog style record).map fun _ => ()
  | .literal _ => .ok ()
  | .other value => (contentOfValue id value).map fun _ => ()

theorem check_contentOfValue (id : String) (value : Value) :
    (contentOfValue id value).map (fun _ => ()) =
      if value.isScalar then .ok () else .error (.malformedInstance id (.notALiteral value)) := by
  cases value <;> rfl

/-- Whether a parameter has an error does not depend on the column that it is for. -/
theorem paramContents_cons (catalog : Catalog) (style : Style) (id : String)
    (param : Param InstanceRecord) (rest : List (Param InstanceRecord)) :
    ∃ content : ParamContent,
      paramContents catalog style id (param :: rest) =
          content :: paramContents catalog style id rest ∧
        ∀ kind, (content kind).map (fun _ => ()) = checkParam catalog style id param := by
  cases param with
  | block record =>
      refine ⟨_, rfl, fun kind => ?_⟩
      rw [checkParam]
      cases ofRecord catalog style record <;> rfl
  | literal text => exact ⟨_, rfl, fun _ => rfl⟩
  | other value => exact ⟨_, rfl, fun _ => rfl⟩

/-- Filling a row uses up as many parameters as there are child columns, and checks them. -/
theorem check_fillSlots (catalog : Catalog) (style : Style) (id : String) {slots : List Slot}
    {params : List (Param InstanceRecord)}
    (enough : slots.countP Slot.isChild ≤ params.length) :
    (fillSlots id slots (paramContents catalog style id params)).map Prod.snd =
      (forM (params.take (slots.countP Slot.isChild)) (checkParam catalog style id)).map
        fun _ => paramContents catalog style id (params.drop (slots.countP Slot.isChild)) := by
  induction slots generalizing params with
  | nil => rfl
  | cons slot slots ih =>
      cases slot with
      | label text =>
          rw [List.countP_cons_of_neg (by simp [Slot.isChild]), ← ih enough, fillSlots]
          cases fillSlots id slots (paramContents catalog style id params) <;> rfl
      | child kind =>
          rw [List.countP_cons_of_pos rfl] at enough ⊢
          cases params with
          | nil => simp at enough
          | cons param params =>
              rcases paramContents_cons catalog style id param params with
                ⟨content, split, checked⟩
              have others := ih (Nat.le_of_succ_le_succ enough)
              rw [split, fillSlots, List.take_succ_cons, List.drop_succ_cons, List.forM_cons,
                ← checked kind]
              cases content kind with
              | error error => rfl
              | ok content =>
                  refine Eq.trans ?_ others
                  cases fillSlots id slots (paramContents catalog style id params) <;> rfl

theorem check_ofRecords (records : List InstanceRecord) :
    (ofRecords catalog style records).map (fun _ => ()) =
      forM (records.map .block) (checkParam catalog style id) := by
  induction records with
  | nil => rfl
  | cons record records ih =>
      rw [ofRecords, List.map_cons, List.forM_cons, ← ih, checkParam]
      cases ofRecord catalog style record with
      | error error => rfl
      | ok block => cases ofRecords catalog style records <;> rfl

/-- Filling the lines comes to checking what is put into them, in the order of the lines. -/
theorem check_fillLines {lines : List FormatLine} {params : List (Param InstanceRecord)}
    {lists : List (List InstanceRecord)}
    (sameParams : params.length = (lines.flatMap FormatLine.slots).countP Slot.isChild)
    (sameLists : lists.length = lines.countP FormatLine.isStack) :
    (fillLines id lines (paramContents catalog style id params)
        (stackContents catalog style lists)).map (fun _ => ()) =
      forM (inLineOrder lines params lists) (checkParam catalog style id) := by
  induction lines generalizing params lists with
  | nil => rfl
  | cons line lines ih =>
      cases line with
      | columns slots =>
          rw [List.flatMap_cons, List.countP_append, FormatLine.slots] at sameParams
          have enough : slots.countP Slot.isChild ≤ params.length := by omega
          have inRow := check_fillSlots catalog style id enough
          have others := @ih (params.drop (slots.countP Slot.isChild)) lists
            (by rw [List.length_drop]; omega) sameLists
          rw [inLineOrder, List.forM_append, ← others, fillLines, ← map_bind]
          apply map_bind_congr inRow
          rintro ⟨cells, left⟩ _ isLeft
          dsimp only at isLeft ⊢
          rw [← isLeft]
          cases fillLines id lines left (stackContents catalog style lists) <;> rfl
      | stack =>
          rw [List.countP_cons_of_pos rfl] at sameLists
          cases lists with
          | nil => simp at sameLists
          | cons records lists =>
              have others := @ih params lists sameParams (Nat.succ.inj sameLists)
              rw [inLineOrder, List.forM_append, List.headD_cons, List.tail_cons, ← others,
                ← check_ofRecords, stackContents, fillLines]
              cases ofRecords catalog style records with
              | error error => rfl
              | ok children =>
                cases fillLines id lines (paramContents catalog style id params)
                  (stackContents catalog style lists) <;> rfl

variable {record : InstanceRecord} {format : BlockFormat}

/-- Once the numbers fit, building a block is going through the contents of the record. -/
theorem check_ofRecord (counts : record.CountsFit catalog format) :
    (ofRecord catalog style record).map (fun _ => ()) =
      forM (inLineOrder format.lines record.params record.blocks)
        (checkParam catalog style record.id) := by
  rcases record with ⟨id, params, lists⟩
  have known : catalog.lookup id = some format := counts.known
  have sameParams : params.length = format.paramCount := counts.params
  have sameLists : lists.length = format.stackCount := counts.lists
  rw [← check_fillLines sameParams sameLists, ofRecord, known]
  simp only [filled, length_paramContents, length_stackContents, sameParams, sameLists, ne_eq,
    not_true_eq_false, if_false]
  cases fillLines id format.lines (paramContents catalog style id params)
    (stackContents catalog style lists) <;> rfl

/-- A record that is read has the counts of its format. -/
theorem countsFit_of_ofRecord {block : Block} (built : ofRecord catalog style record = .ok block) :
    ∃ format, record.CountsFit catalog format := by
  rcases record with ⟨id, params, lists⟩
  rw [ofRecord] at built
  split at built
  · cases built
  · rename_i format known
    rcases filled_eq_ok built with ⟨sameParams, sameLists, _⟩
    rw [length_paramContents] at sameParams
    rw [length_stackContents] at sameLists
    exact ⟨format, known, sameParams, sameLists⟩

theorem checkParam_other {value : Value} :
    checkParam catalog style id (.other value) = .ok () ↔ value.isScalar = true := by
  rw [checkParam, check_contentOfValue]
  cases value.isScalar <;> simp

theorem checkParam_block :
    checkParam catalog style id (.block record) = .ok () ↔
      ∃ block, ofRecord catalog style record = .ok block := by
  rw [exists_ok_iff, checkParam]

/-- A record is loaded exactly if it conforms with everything nested in it. -/
theorem exists_ofRecord_iff (style : Style) :
    (∃ block, ofRecord catalog style record = .ok block) ↔
      record.Everywhere (Conforms catalog) := by
  induction record using InstanceRecord.induction with
  | inside record ih =>
      constructor
      · rintro ⟨block, built⟩
        rcases countsFit_of_ofRecord built with ⟨format, counts⟩
        have passed := forM_eq_ok.mp
          ((check_ofRecord counts).symm.trans (exists_ok_iff.mp ⟨block, built⟩))
        refine .intro ⟨⟨format, counts⟩, ?_⟩ ?_
        · intro value valueMem
          have inOrder := (mem_inLineOrder counts.params counts.lists).mpr (.inl valueMem)
          exact checkParam_other.mp (passed _ inOrder)
        · intro inner innerMem
          apply (ih inner innerMem).mp
          have inOrder : .block inner ∈ inLineOrder format.lines record.params record.blocks := by
            rw [mem_inLineOrder counts.params counts.lists]
            simpa using InstanceRecord.mem_nested_iff.mp innerMem
          exact checkParam_block.mp (passed _ inOrder)
      · intro conforms
        rcases InstanceRecord.everywhere_iff.mp conforms with ⟨⟨⟨format, counts⟩, scalars⟩, inside⟩
        rw [exists_ok_iff, check_ofRecord counts, forM_eq_ok]
        intro param paramMem
        rw [mem_inLineOrder counts.params counts.lists] at paramMem
        cases param with
        | block inner =>
            have innerMem : inner ∈ record.nested :=
              InstanceRecord.mem_nested_iff.mpr (by simpa using paramMem)
            exact checkParam_block.mpr ((ih inner innerMem).mpr (inside inner innerMem))
        | literal text => rfl
        | other value => exact checkParam_other.mpr (scalars value (by simpa using paramMem))

theorem checkParam_eq_ok_iff {param : Param InstanceRecord} :
    checkParam catalog style id param = .ok () ↔ ParamConforms catalog param := by
  cases param with
  | block record => exact checkParam_block.trans (exists_ofRecord_iff style)
  | literal text => exact ⟨fun _ => trivial, fun _ => rfl⟩
  | other value => exact checkParam_other

variable {error : TreeError}

/-- Once the numbers fit, a record is refused for the first of its contents that is at fault. -/
theorem ofRecord_eq_error_iff (counts : record.CountsFit catalog format) :
    ofRecord catalog style record = .error error ↔
      ∃ before param after, inLineOrder format.lines record.params record.blocks =
          before ++ param :: after ∧
        (∀ other ∈ before, ParamConforms catalog other) ∧
          checkParam catalog style record.id param = .error error := by
  have sameError : ofRecord catalog style record = .error error ↔
      (ofRecord catalog style record).map (fun _ => ()) = .error error := by
    cases ofRecord catalog style record <;> simp [Except.map]
  rw [sameError, check_ofRecord counts, forM_eq_error]
  simp only [checkParam_eq_ok_iff]

theorem ofRecord_of_unknown (unknown : catalog.lookup record.id = none) :
    ofRecord catalog style record = .error (.unknownFormat record.id) := by
  rcases record with ⟨id, params, lists⟩
  have unknown : catalog.lookup id = none := unknown
  rw [ofRecord, unknown]

theorem ofRecord_of_paramCount (known : catalog.lookup record.id = some format)
    (differ : record.params.length ≠ format.paramCount) :
    ofRecord catalog style record = .error
      (.malformedInstance record.id (.paramCount format.paramCount record.params.length)) := by
  rcases record with ⟨id, params, lists⟩
  have known : catalog.lookup id = some format := known
  have differ : params.length ≠ format.paramCount := differ
  simp [ofRecord, known, filled, differ]

theorem ofRecord_of_listCount (known : catalog.lookup record.id = some format)
    (same : record.params.length = format.paramCount)
    (differ : record.blocks.length ≠ format.stackCount) :
    ofRecord catalog style record = .error
      (.malformedInstance record.id (.listCount format.stackCount record.blocks.length)) := by
  rcases record with ⟨id, params, lists⟩
  have known : catalog.lookup id = some format := known
  have same : params.length = format.paramCount := same
  have differ : lists.length ≠ format.stackCount := differ
  simp [ofRecord, known, filled, same, differ]

theorem checkParam_block_eq_error {inner : InstanceRecord} :
    checkParam catalog style id (.block inner) = .error error ↔
      ofRecord catalog style inner = .error error := by
  rw [checkParam]
  cases ofRecord catalog style inner <;> simp [Except.map]

theorem checkParam_other_eq_error {value : Value} :
    checkParam catalog style id (.other value) = .error error ↔
      value.isScalar = false ∧ .malformedInstance id (.notALiteral value) = error := by
  rw [checkParam, check_contentOfValue]
  cases value.isScalar <;> simp

/-- A refused record has the fault that the error names, and none before it. -/
theorem firstFault_of_ofRecord (refused : ofRecord catalog style record = .error error) :
    FirstFault catalog record error := by
  induction record using InstanceRecord.induction generalizing error with
  | inside record ih =>
      rcases known : catalog.lookup record.id with _ | format
      · cases refused.symm.trans (ofRecord_of_unknown known)
        exact .unknown known
      by_cases sameParams : record.params.length = format.paramCount
      case neg =>
        cases refused.symm.trans (ofRecord_of_paramCount known sameParams)
        exact .paramCount known sameParams
      by_cases sameLists : record.blocks.length = format.stackCount
      case neg =>
        cases refused.symm.trans (ofRecord_of_listCount known sameParams sameLists)
        exact .listCount known sameParams sameLists
      have counts : record.CountsFit catalog format := ⟨known, sameParams, sameLists⟩
      rcases (ofRecord_eq_error_iff counts).mp refused with
        ⟨before, param, after, order, conform, fault⟩
      cases param with
      | block inner =>
          have inOrder : .block inner ∈ inLineOrder format.lines record.params record.blocks := by
            simp [order]
          have innerMem : inner ∈ record.nested := by
            rw [mem_inLineOrder sameParams sameLists] at inOrder
            exact InstanceRecord.mem_nested_iff.mpr (by simpa using inOrder)
          exact .inside counts order conform
            (ih inner innerMem (checkParam_block_eq_error.mp fault))
      | literal text => cases fault
      | other value =>
          rcases checkParam_other_eq_error.mp fault with ⟨noScalar, rfl⟩
          exact .value counts order conform noScalar

/-- A record with a first fault is refused with the error of this fault. -/
theorem ofRecord_of_firstFault (fault : FirstFault catalog record error) :
    ofRecord catalog style record = .error error := by
  induction fault with
  | unknown unknown => exact ofRecord_of_unknown unknown
  | paramCount known differ => exact ofRecord_of_paramCount known differ
  | listCount known same differ => exact ofRecord_of_listCount known same differ
  | value counts order conform noScalar =>
      exact (ofRecord_eq_error_iff counts).mpr
        ⟨_, _, _, order, conform, checkParam_other_eq_error.mpr ⟨noScalar, rfl⟩⟩
  | inside counts order conform fault ih =>
      exact (ofRecord_eq_error_iff counts).mpr
        ⟨_, _, _, order, conform, checkParam_block_eq_error.mpr ih⟩

/-- A record is loaded exactly if it conforms with everything nested in it. Otherwise the error is
that of the first fault, and it is never that a column or a stack is left without anything. -/
theorem ofRecord_iff_conforms (catalog : Catalog) (style : Style) (record : InstanceRecord) :
    ((∃ block, ofRecord catalog style record = .ok block) ↔
        record.Everywhere (Conforms catalog)) ∧
      (∀ error, ofRecord catalog style record = .error error ↔ FirstFault catalog record error) ∧
      ∀ id, ofRecord catalog style record ≠ .error (.malformedInstance id .tooFewParams) ∧
        ofRecord catalog style record ≠ .error (.malformedInstance id .tooFewLists) := by
  refine ⟨exists_ofRecord_iff style,
    fun error => ⟨firstFault_of_ofRecord, ofRecord_of_firstFault⟩, ?_⟩
  intro id
  constructor
  · intro refused
    exact ((firstFault_of_ofRecord refused).ne_tooFew id).1 rfl
  · intro refused
    exact ((firstFault_of_ofRecord refused).ne_tooFew id).2 rfl

end Block

end BlockEditor
