import BlockEditor.Proofs.Block.Layout
import BlockEditor.Proofs.Except
import BlockEditor.Record.Load

/-!
# Blocks built from records

A block that is built from a record holds the blocks that its parameters and stacks bring, and is
measured once these are built. Hence all sizes in it are current
(`Block.everywhere_isMeasured_ofRecord`).
-/

namespace BlockEditor

namespace Block

variable {Good : Block → Prop} {style : Style} {catalog : Catalog}

/-- What a parameter puts into a column is no block, or one that has a property. -/
def Brings (Good : Block → Prop) (param : ParamContent) : Prop :=
  ∀ kind content child, param kind = .ok content → content.block? = some child → Good child

theorem good_of_fillSlots {id : String} {slots : List Slot} {params rest : List ParamContent}
    {cells : List (Cell Block)} (done : fillSlots id slots params = .ok (cells, rest))
    (good : ∀ param ∈ params, Brings Good param) :
    (∀ cell ∈ cells, ∀ child, cell.content.block? = some child → Good child) ∧
      ∀ param ∈ rest, Brings Good param := by
  induction slots generalizing params cells with
  | nil =>
      cases done
      exact ⟨by simp, good⟩
  | cons slot slots ih =>
      cases slot with
      | label text =>
          rcases bind_eq_ok.mp done with ⟨⟨others, left⟩, filled, result⟩
          cases result
          rcases ih filled good with ⟨othersGood, restGood⟩
          refine ⟨List.forall_mem_cons.mpr ⟨?_, othersGood⟩, restGood⟩
          intro child holds
          cases holds
      | child kind =>
          cases params with
          | nil => cases done
          | cons param params =>
              rcases bind_eq_ok.mp done with ⟨content, read, done⟩
              rcases bind_eq_ok.mp done with ⟨⟨others, left⟩, filled, result⟩
              cases result
              rcases List.forall_mem_cons.mp good with ⟨paramGood, paramsGood⟩
              rcases ih filled paramsGood with ⟨othersGood, restGood⟩
              refine ⟨List.forall_mem_cons.mpr ⟨?_, othersGood⟩, restGood⟩
              intro child holds
              exact paramGood kind content child read holds

theorem good_of_fillLines {id : String} {formatLines : List FormatLine}
    {params : List ParamContent} {lists : List (Except TreeError (List Block))}
    {lines : List (Line Block)} (done : fillLines id formatLines params lists = .ok lines)
    (good : ∀ param ∈ params, Brings Good param)
    (goodStacks : ∀ stack ∈ lists, ∀ children, stack = .ok children →
      ∀ child ∈ children, Good child) :
    ∀ line ∈ lines, ∀ position child, line.child? position = some child → Good child := by
  induction formatLines generalizing params lists lines with
  | nil =>
      cases done
      simp
  | cons formatLine formatLines ih =>
      cases formatLine with
      | columns slots =>
          rcases bind_eq_ok.mp done with ⟨⟨cells, left⟩, inRow, done⟩
          rcases bind_eq_ok.mp done with ⟨others, filled, result⟩
          cases result
          rcases good_of_fillSlots inRow good with ⟨cellsGood, leftGood⟩
          refine List.forall_mem_cons.mpr ⟨?_, ih filled leftGood goodStacks⟩
          intro position child found
          rcases Option.bind_eq_some_iff.mp found with ⟨cell, atCell, holds⟩
          exact cellsGood cell (List.mem_of_getElem? atCell) child holds
      | stack =>
          cases lists with
          | nil => cases done
          | cons stack lists =>
              rcases bind_eq_ok.mp done with ⟨children, read, done⟩
              rcases bind_eq_ok.mp done with ⟨others, filled, result⟩
              cases result
              rcases List.forall_mem_cons.mp goodStacks with ⟨stackGood, stacksGood⟩
              refine List.forall_mem_cons.mpr ⟨?_, ih filled good stacksGood⟩
              intro position child found
              exact stackGood children read child (List.mem_of_getElem? found)

/-- A record is filled in when both counts fit the format and every line takes its contents. -/
theorem filled_eq_ok {format : BlockFormat} {id : String} {params : List ParamContent}
    {lists : List (Except TreeError (List Block))} {block : Block}
    (done : filled style format id params lists = .ok block) :
    params.length = format.paramCount ∧ lists.length = format.stackCount ∧
      ∃ lines, fillLines id format.lines params lists = .ok lines ∧
        block = (⟨format, lines, .zero⟩ : Block).measured style := by
  rw [filled] at done
  split at done
  · cases done
  · rename_i sameParams
    split at done
    · cases done
    · rename_i sameStacks
      rcases bind_eq_ok.mp done with ⟨lines, filled, result⟩
      cases result
      exact ⟨Decidable.not_not.mp sameParams, Decidable.not_not.mp sameStacks, lines, filled, rfl⟩

/-- A block that is filled with measured blocks is measured throughout. -/
theorem everywhere_isMeasured_filled {format : BlockFormat} {id : String}
    {params : List ParamContent} {lists : List (Except TreeError (List Block))} {block : Block}
    (done : filled style format id params lists = .ok block)
    (good : ∀ param ∈ params, Brings (Everywhere (IsMeasured style)) param)
    (goodStacks : ∀ stack ∈ lists, ∀ children, stack = .ok children →
      ∀ child ∈ children, child.Everywhere (IsMeasured style)) :
    block.Everywhere (IsMeasured style) := by
  rcases filled_eq_ok done with ⟨_, _, lines, inLines, rfl⟩
  rw [everywhere_measured_iff]
  refine ⟨isMeasured_measured style _, ?_⟩
  intro step child found
  rcases Option.bind_eq_some_iff.mp found with ⟨line, atLine, found⟩
  exact good_of_fillLines inLines good goodStacks line (List.mem_of_getElem? atLine)
    step.position child found

@[simp]
theorem block?_contentOfLiteral (text : String) (kind : ColumnKind) :
    (contentOfLiteral text kind).block? = none := by
  rw [contentOfLiteral]
  split <;> simp

theorem block?_contentOfValue {id : String} {value : Json.Value} {content : Content Block}
    (read : contentOfValue id value = .ok content) : content.block? = none := by
  cases value <;> cases read <;> simp

mutual

/-- A block that is built from a record has current sizes. -/
theorem everywhere_isMeasured_ofRecord : ∀ (record : InstanceRecord) (block : Block),
    ofRecord catalog style record = .ok block → block.Everywhere (IsMeasured style)
  | ⟨id, params, blocks⟩, block, built => by
      rw [ofRecord] at built
      split at built
      · cases built
      · exact everywhere_isMeasured_filled built (brings_paramContents id params)
          (everywhere_isMeasured_stackContents blocks)
termination_by structural record => record

/-- Every block that a param brings is measured throughout. -/
theorem brings_paramContents (id : String) : ∀ params : List (Param InstanceRecord),
    ∀ param ∈ paramContents catalog style id params,
      Brings (Everywhere (IsMeasured style)) param
  | [] => by simp [paramContents]
  | .block record :: rest => by
      refine List.forall_mem_cons.mpr ⟨?_, brings_paramContents id rest⟩
      intro kind content child read holds
      rcases map_eq_ok.mp read with ⟨block, built, rfl⟩
      cases holds
      exact everywhere_isMeasured_ofRecord record child built
  | .literal text :: rest => by
      refine List.forall_mem_cons.mpr ⟨?_, brings_paramContents id rest⟩
      intro kind content child read holds
      cases read
      simp at holds
  | .other value :: rest => by
      refine List.forall_mem_cons.mpr ⟨?_, brings_paramContents id rest⟩
      intro kind content child read holds
      simp [block?_contentOfValue read] at holds
termination_by structural params => params

theorem everywhere_isMeasured_stackContents : ∀ lists : List (List InstanceRecord),
    ∀ stack ∈ stackContents catalog style lists, ∀ children, stack = .ok children →
      ∀ child ∈ children, child.Everywhere (IsMeasured style)
  | [] => by simp [stackContents]
  | records :: rest => by
      refine List.forall_mem_cons.mpr ⟨?_, everywhere_isMeasured_stackContents rest⟩
      intro children built
      exact everywhere_isMeasured_ofRecords records children built
termination_by structural lists => lists

/-- The blocks read from a list are measured throughout. -/
theorem everywhere_isMeasured_ofRecords : ∀ (records : List InstanceRecord)
    (children : List Block), ofRecords catalog style records = .ok children →
      ∀ child ∈ children, child.Everywhere (IsMeasured style)
  | [], children, built => by
      cases built
      simp
  | record :: rest, children, built => by
      rcases bind_eq_ok.mp built with ⟨block, first, built⟩
      rcases bind_eq_ok.mp built with ⟨blocks, others, result⟩
      cases result
      exact List.forall_mem_cons.mpr ⟨everywhere_isMeasured_ofRecord record block first,
        everywhere_isMeasured_ofRecords rest blocks others⟩
termination_by structural records => records

end

end Block

end BlockEditor
