import BlockEditor.Record.Basic

/-!
# Nested records

Records are trees like the blocks that they describe. `InstanceRecord.nested` lists the records
directly inside a record, `InstanceRecord.induction` is the induction from them, and
`InstanceRecord.Everywhere` says of a property of single records that it holds of a record and of
every record nested in it.
-/

namespace BlockEditor

/-- The record that a parameter is. -/
def Param.record? {Record : Type} : Param Record → Option Record
  | .block record => some record
  | .literal _ => none
  | .other _ => none

namespace InstanceRecord

/-- The records directly inside a record: those of its parameters and those of its lists. -/
def nested (record : InstanceRecord) : List InstanceRecord :=
  record.params.filterMap Param.record? ++ record.blocks.flatten

theorem mem_nested_of_param {record inner : InstanceRecord}
    (paramMem : .block inner ∈ record.params) : inner ∈ record.nested :=
  List.mem_append_left _ (List.mem_filterMap.mpr ⟨_, paramMem, rfl⟩)

theorem mem_nested_of_list {record inner : InstanceRecord} {records : List InstanceRecord}
    (recordsMem : records ∈ record.blocks) (innerMem : inner ∈ records) : inner ∈ record.nested :=
  List.mem_append_right _ (List.mem_flatten.mpr ⟨records, recordsMem, innerMem⟩)

/-- A nested record stands in the params or in one of the lists. -/
theorem mem_nested_iff {record inner : InstanceRecord} :
    inner ∈ record.nested ↔
      .block inner ∈ record.params ∨ ∃ records ∈ record.blocks, inner ∈ records := by
  constructor
  · intro innerMem
    rcases List.mem_append.mp innerMem with paramMem | listMem
    · rcases List.mem_filterMap.mp paramMem with ⟨param, paramMem, isRecord⟩
      cases param with
      | block record =>
          cases isRecord
          exact .inl paramMem
      | literal text => cases isRecord
      | other value => cases isRecord
    · exact .inr (List.mem_flatten.mp listMem)
  · rintro (paramMem | ⟨records, recordsMem, innerMem⟩)
    · exact mem_nested_of_param paramMem
    · exact mem_nested_of_list recordsMem innerMem

/-- What holds of a record whenever it holds of the records directly inside holds of all records. -/
@[elab_as_elim]
theorem induction {motive : InstanceRecord → Prop}
    (inside : ∀ record : InstanceRecord,
      (∀ inner ∈ record.nested, motive inner) → motive record)
    (record : InstanceRecord) : motive record := by
  -- One motive for each layer of the tree: it speaks of the records that the layer holds directly.
  apply @InstanceRecord.rec motive
    (fun params => ∀ inner ∈ params.filterMap Param.record?, motive inner)
    (fun lists => ∀ inner ∈ lists.flatten, motive inner)
    (fun param => ∀ inner, param.record? = some inner → motive inner)
    (fun records => ∀ inner ∈ records, motive inner)
  · intro id params blocks inParams inLists
    apply inside
    intro inner innerMem
    rcases List.mem_append.mp innerMem with innerMem | innerMem
    · exact inParams inner innerMem
    · exact inLists inner innerMem
  · intro inner innerMem
    cases innerMem
  · intro param params inParam inParams inner innerMem
    rcases List.mem_filterMap.mp innerMem with ⟨other, otherMem, isRecord⟩
    rcases List.mem_cons.mp otherMem with rfl | otherMem
    · exact inParam inner isRecord
    · exact inParams inner (List.mem_filterMap.mpr ⟨other, otherMem, isRecord⟩)
  · intro inner innerMem
    cases innerMem
  · intro records lists inRecords inLists inner innerMem
    rcases List.mem_append.mp innerMem with innerMem | innerMem
    · exact inRecords inner innerMem
    · exact inLists inner innerMem
  · intro record holds inner isRecord
    cases isRecord
    exact holds
  · intro text inner isRecord
    cases isRecord
  · intro value inner isRecord
    cases isRecord
  · intro inner innerMem
    cases innerMem
  · intro record records holds inRecords inner innerMem
    rcases List.mem_cons.mp innerMem with rfl | innerMem
    · exact holds
    · exact inRecords inner innerMem

/-- A property holds of a record and of every record nested in it. -/
inductive Everywhere (Holds : InstanceRecord → Prop) : InstanceRecord → Prop
  | intro {record : InstanceRecord} (here : Holds record)
      (inside : ∀ inner ∈ record.nested, inner.Everywhere Holds) : record.Everywhere Holds

/-- A property holds everywhere when it holds of the record and everywhere inside it. -/
theorem everywhere_iff {Holds : InstanceRecord → Prop} {record : InstanceRecord} :
    record.Everywhere Holds ↔
      Holds record ∧ ∀ inner ∈ record.nested, inner.Everywhere Holds := by
  constructor
  · rintro ⟨here, inside⟩
    exact ⟨here, inside⟩
  · rintro ⟨here, inside⟩
    exact .intro here inside

theorem Everywhere.combine {First Second Both : InstanceRecord → Prop} {record : InstanceRecord}
    (first : record.Everywhere First) (second : record.Everywhere Second)
    (both : ∀ inner, First inner → Second inner → Both inner) : record.Everywhere Both := by
  induction record using InstanceRecord.induction with
  | inside record ih =>
      rcases everywhere_iff.mp first with ⟨firstHere, firstInside⟩
      rcases everywhere_iff.mp second with ⟨secondHere, secondInside⟩
      refine .intro (both record firstHere secondHere) ?_
      intro inner innerMem
      exact ih inner innerMem (firstInside inner innerMem) (secondInside inner innerMem)

theorem Everywhere.mono {First Second : InstanceRecord → Prop} {record : InstanceRecord}
    (first : record.Everywhere First) (weaken : ∀ inner, First inner → Second inner) :
    record.Everywhere Second :=
  first.combine first fun inner here _ => weaken inner here

end InstanceRecord

end BlockEditor
