import Mathlib.Data.List.Forall2
import BlockEditor.Proofs.Block.Fields
import BlockEditor.Proofs.Record.Built
import BlockEditor.Proofs.Record.Nested

/-!
# What a record puts where

A record lists the contents of a block without saying where they belong, and so do the fields and
stacks of a block. Filling the lines of a format succeeds only if each field gets what its parameter
puts there and each stack the blocks of its list (`Block.contents_of_fillLines`). What holds of a
record and the block that is built from it is therefore shown field by field and stack by stack,
given that it holds of the records and blocks nested there (`Block.ofRecord_induction`).
-/

namespace BlockEditor

namespace Block

variable {catalog : Catalog} {style : Style}

/-- A field holds what a parameter puts into columns of its kind. -/
def Puts (field : ColumnKind × Content Block) (param : ParamContent) : Prop :=
  param field.1 = .ok field.2

/-- The slots of a row take the first params, one for each column, and the rest is handed on. -/
theorem fields_of_fillSlots {id : String} {slots : List Slot} {params rest : List ParamContent}
    {cells : List (Cell Block)} (done : fillSlots id slots params = .ok (cells, rest))
    (enough : slots.countP Slot.isChild ≤ params.length) :
    cells.map Cell.slot = slots ∧
      ∃ used, params = used ++ rest ∧ used.length = slots.countP Slot.isChild ∧
        List.Forall₂ Puts (cells.filterMap Cell.field?) used := by
  induction slots generalizing params cells with
  | nil =>
      cases done
      exact ⟨rfl, [], rfl, rfl, .nil⟩
  | cons slot slots ih =>
      cases slot with
      | label text =>
          rcases bind_eq_ok.mp done with ⟨⟨others, left⟩, filled, result⟩
          cases result
          rcases ih filled enough with ⟨sameSlots, used, split, count, puts⟩
          exact ⟨congrArg _ sameSlots, used, split, count, puts⟩
      | child kind =>
          rw [List.countP_cons_of_pos rfl] at enough ⊢
          cases params with
          | nil => simp at enough
          | cons param params =>
              rcases bind_eq_ok.mp done with ⟨content, read, done⟩
              rcases bind_eq_ok.mp done with ⟨⟨others, left⟩, filled, result⟩
              cases result
              rcases ih filled (Nat.le_of_succ_le_succ enough) with
                ⟨sameSlots, used, rfl, count, puts⟩
              refine ⟨congrArg _ sameSlots, param :: used, rfl, by simp [count], ?_⟩
              exact .cons read puts

/-- Lines that are filled with as many parameters and lists as they have columns and stacks have the
given shape, and each field and each stack holds what is meant for it. -/
theorem contents_of_fillLines {id : String} {formatLines : List FormatLine}
    {params : List ParamContent} {lists : List (Except TreeError (List Block))}
    {lines : List (Line Block)} (done : fillLines id formatLines params lists = .ok lines)
    (sameParams : params.length = (formatLines.flatMap FormatLine.slots).countP Slot.isChild)
    (sameLists : lists.length = formatLines.countP FormatLine.isStack) :
    lines.map Line.shape = formatLines ∧
      List.Forall₂ Puts (lines.flatMap Line.fields) params ∧
        List.Forall₂ (fun stack list => list = .ok stack) (lines.filterMap Line.children?)
          lists := by
  induction formatLines generalizing params lists lines with
  | nil =>
      cases done
      rw [List.length_eq_zero_iff.mp sameParams, List.length_eq_zero_iff.mp sameLists]
      exact ⟨rfl, .nil, .nil⟩
  | cons formatLine formatLines ih =>
      cases formatLine with
      | columns slots =>
          rcases bind_eq_ok.mp done with ⟨⟨cells, left⟩, inRow, done⟩
          rcases bind_eq_ok.mp done with ⟨others, filled, result⟩
          cases result
          rw [List.flatMap_cons, List.countP_append, FormatLine.slots] at sameParams
          have enough : slots.countP Slot.isChild ≤ params.length := by omega
          rcases fields_of_fillSlots inRow enough with ⟨sameSlots, used, rfl, count, puts⟩
          rw [List.length_append, count] at sameParams
          rcases ih filled (Nat.add_left_cancel sameParams) sameLists with
            ⟨sameShape, otherPuts, inStacks⟩
          refine ⟨?_, ?_, inStacks⟩
          · simp [Line.shape, sameSlots, sameShape]
          · exact List.rel_append puts otherPuts
      | stack =>
          rw [List.countP_cons_of_pos rfl] at sameLists
          cases lists with
          | nil => simp at sameLists
          | cons stack lists =>
              rcases bind_eq_ok.mp done with ⟨children, read, done⟩
              rcases bind_eq_ok.mp done with ⟨others, filled, result⟩
              cases result
              rcases ih filled sameParams (Nat.succ.inj sameLists) with
                ⟨sameShape, puts, inStacks⟩
              refine ⟨?_, puts, .cons read inStacks⟩
              simp [Line.shape, sameShape]

/-- A block that is filled has the shape of its format, and each of its fields and stacks holds what
is meant for it. -/
theorem contents_of_filled {format : BlockFormat} {id : String} {params : List ParamContent}
    {lists : List (Except TreeError (List Block))} {block : Block}
    (done : filled style format id params lists = .ok block) :
    block.format = format ∧ block.shape = format.lines ∧
      List.Forall₂ Puts block.fields params ∧
        List.Forall₂ (fun stack list => list = .ok stack) block.stackLists lists := by
  rcases filled_eq_ok done with ⟨sameParams, sameLists, lines, inLines, rfl⟩
  rcases contents_of_fillLines inLines sameParams sameLists with ⟨sameShape, puts, inStacks⟩
  refine ⟨rfl, ?_, ?_, ?_⟩
  · rw [shape_measured, shape, sameShape]
  · rw [fields_measured]
    exact puts
  · rw [stackLists_measured]
    exact inStacks

/-- A field holds what a parameter of a record is for it, where `Related` says of the blocks that
are built from nested records what is known of them. -/
def Fills (Related : Block → InstanceRecord → Prop) (id : String)
    (field : ColumnKind × Content Block) : Param InstanceRecord → Prop
  | .block record => ∃ child, field.2 = .block child ∧ Related child record
  | .literal text => field.2 = contentOfLiteral text field.1
  | .other value => contentOfValue id value = .ok field.2

section Induction

variable {Related : Block → InstanceRecord → Prop} {id : String}

/-- Each param fills its field when the records in the params are related to the blocks they read
as. -/
theorem fills_of_puts {params : List (Param InstanceRecord)}
    {fields : List (ColumnKind × Content Block)}
    (puts : List.Forall₂ Puts fields (paramContents catalog style id params))
    (related : ∀ record, .block record ∈ params → ∀ child,
      ofRecord catalog style record = .ok child → Related child record) :
    List.Forall₂ (Fills Related id) fields params := by
  induction params generalizing fields with
  | nil =>
      rw [List.forall₂_nil_right_iff.mp puts]
      exact .nil
  | cons param params ih =>
      have others : ∀ record, .block record ∈ params → ∀ child,
          ofRecord catalog style record = .ok child → Related child record := by
        intro record paramMem
        exact related record (List.mem_cons_of_mem _ paramMem)
      cases param with
      | block record =>
          rcases List.forall₂_cons_right_iff.mp puts with ⟨field, rest, put, restPuts, rfl⟩
          rcases map_eq_ok.mp put with ⟨child, built, holds⟩
          have inside := related record List.mem_cons_self child built
          exact .cons ⟨child, holds.symm, inside⟩ (ih restPuts others)
      | literal text =>
          rcases List.forall₂_cons_right_iff.mp puts with ⟨field, rest, put, restPuts, rfl⟩
          exact .cons (Except.ok.inj put).symm (ih restPuts others)
      | other value =>
          rcases List.forall₂_cons_right_iff.mp puts with ⟨field, rest, put, restPuts, rfl⟩
          exact .cons put (ih restPuts others)

/-- The children read from a list are related to the records, one by one. -/
theorem related_of_ofRecords {records : List InstanceRecord} {children : List Block}
    (built : ofRecords catalog style records = .ok children)
    (related : ∀ record ∈ records, ∀ child,
      ofRecord catalog style record = .ok child → Related child record) :
    List.Forall₂ Related children records := by
  induction records generalizing children with
  | nil =>
      cases built
      exact .nil
  | cons record records ih =>
      rcases bind_eq_ok.mp built with ⟨child, first, built⟩
      rcases bind_eq_ok.mp built with ⟨others, remaining, result⟩
      cases result
      have firstRelated := related record List.mem_cons_self child first
      apply List.Forall₂.cons firstRelated
      apply ih remaining
      intro other otherMem
      exact related other (List.mem_cons_of_mem _ otherMem)

theorem related_of_stackContents {lists : List (List InstanceRecord)}
    {stackLists : List (List Block)}
    (built : List.Forall₂ (fun stack list => list = .ok stack) stackLists
      (stackContents catalog style lists))
    (related : ∀ records ∈ lists, ∀ record ∈ records, ∀ child,
      ofRecord catalog style record = .ok child → Related child record) :
    List.Forall₂ (List.Forall₂ Related) stackLists lists := by
  induction lists generalizing stackLists with
  | nil =>
      rw [List.forall₂_nil_right_iff.mp built]
      exact .nil
  | cons records lists ih =>
      rcases List.forall₂_cons_right_iff.mp built with ⟨stack, others, first, remaining, rfl⟩
      have firstRelated := related_of_ofRecords first (related records List.mem_cons_self)
      apply List.Forall₂.cons firstRelated
      apply ih remaining
      intro other otherMem
      exact related other (List.mem_cons_of_mem _ otherMem)

/-- What holds of a record and a block whenever it holds of the nested records and the blocks in
their places holds of every record and the block that is built from it. -/
theorem ofRecord_induction {motive : Block → InstanceRecord → Prop}
    (inside : ∀ (record : InstanceRecord) (block : Block),
      catalog.lookup record.id = some block.format → block.shape = block.format.lines →
        List.Forall₂ (Fills motive record.id) block.fields record.params →
          List.Forall₂ (List.Forall₂ motive) block.stackLists record.blocks → motive block record)
    {record : InstanceRecord} {block : Block} (built : ofRecord catalog style record = .ok block) :
    motive block record := by
  induction record using InstanceRecord.induction generalizing block with
  | inside record ih =>
      rcases record with ⟨id, params, lists⟩
      rw [ofRecord] at built
      split at built
      · cases built
      · rename_i format known
        rcases contents_of_filled built with ⟨rfl, sameShape, puts, inStacks⟩
        apply inside _ block known sameShape
        · apply fills_of_puts puts
          intro record paramMem child
          exact ih record (InstanceRecord.mem_nested_of_param paramMem)
        · apply related_of_stackContents inStacks
          intro records recordsMem record recordMem child
          exact ih record (InstanceRecord.mem_nested_of_list recordsMem recordMem)

theorem forall_mem_iff_of_forall₂ {First Second : Type} {Holds : First → Prop}
    {Also : Second → Prop} {firsts : List First} {seconds : List Second}
    (same : List.Forall₂ (fun first second => Holds first ↔ Also second) firsts seconds) :
    (∀ first ∈ firsts, Holds first) ↔ ∀ second ∈ seconds, Also second := by
  induction same with
  | nil => simp
  | cons here others ih => simp [here, ih]

/-- The records directly inside a record and the blocks directly inside the block that is built from
it stand in the same order. -/
theorem forall₂_nested {record : InstanceRecord} {block : Block}
    (fills : List.Forall₂ (Fills Related id) block.fields record.params)
    (inStacks : List.Forall₂ (List.Forall₂ Related) block.stackLists record.blocks) :
    List.Forall₂ Related block.nested record.nested := by
  rw [nested, InstanceRecord.nested]
  apply List.rel_append
  · apply List.rel_filterMap ?_ fills
    intro field param here
    cases param with
    | block record =>
        rcases here with ⟨child, holds, related⟩
        simp only [holds, Content.block?_block, Param.record?]
        exact .some related
    | literal text =>
        have same : field.2 = contentOfLiteral text field.1 := here
        simp only [same, block?_contentOfLiteral, Param.record?]
        exact .none
    | other value =>
        have noBlock : field.2.block? = none := block?_contentOfValue here
        simp only [noBlock, Param.record?]
        exact .none
  · exact List.rel_flatten inStacks

end Induction

end Block

end BlockEditor
