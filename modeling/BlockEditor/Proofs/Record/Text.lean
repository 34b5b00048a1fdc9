import BlockEditor.Document.Basic
import BlockEditor.Proofs.Json.Sorted
import BlockEditor.Proofs.Record.Written

/-!
# Records as text

The text of a list of records gives the list back. Nothing in the text says whether a parameter is
a record or a literal, so they are told apart by their shape (`InstanceRecord.readsAs_param`), and
lists that are left out of the text because they are empty are empty again when it is read. This
holds of records without other values, and all records of a document are of this kind.

Another value may look like a record or have its fields in another order, so in general the text of
a record gives `InstanceRecord.reread`, which is the record itself if it has no other values
(`InstanceRecord.readsBack_of_isPlain`). If arrays and objects nest more deeply than they may in a
text, nothing is read (`InstanceRecord.readsAs_reread`).
-/

namespace BlockEditor

open Json

/-- The JSON form of a parameter. -/
def Param.json : Param InstanceRecord → Value
  | .block record => record.json
  | .literal text => .string text
  | .other value => value

namespace InstanceRecord

variable {record : InstanceRecord} {records : List InstanceRecord}

theorem paramsJson_eq_map (params : List (Param InstanceRecord)) :
    paramsJson params = params.map Param.json := by
  induction params with
  | nil => rfl
  | cons param params ih => cases param <;> rw [paramsJson, ih, List.map_cons, Param.json]

theorem recordsJson_eq_map (records : List InstanceRecord) :
    recordsJson records = records.map json := by
  induction records with
  | nil => rfl
  | cons record records ih => rw [recordsJson, ih, List.map_cons]

theorem listsJson_eq_map (lists : List (List InstanceRecord)) :
    listsJson lists = lists.map listJson := by
  induction lists with
  | nil => rfl
  | cons records lists ih => rw [listsJson, ih, List.map_cons, listJson]

/-- A list of legible records is legible. -/
theorem isLegible_listJson (legible : ∀ record ∈ records, record.json.IsLegible) :
    (listJson records).IsLegible := by
  apply Value.isLegible_array
  intro item itemMem
  rw [recordsJson_eq_map] at itemMem
  rcases List.mem_map.mp itemMem with ⟨record, recordMem, rfl⟩
  exact legible record recordMem

/-- The JSON form of a record without other values holds no numbers. -/
theorem isLegible_json (plain : record.Everywhere IsPlain) : record.json.IsLegible := by
  induction record using induction with
  | inside record ih =>
      rcases everywhere_iff.mp plain with ⟨here, inside⟩
      have legible : ∀ inner ∈ record.nested, inner.json.IsLegible :=
        fun inner innerMem => ih inner innerMem (inside inner innerMem)
      have params : (Value.array (paramsJson record.params)).IsLegible := by
        apply Value.isLegible_array
        intro item itemMem
        rw [paramsJson_eq_map] at itemMem
        rcases List.mem_map.mp itemMem with ⟨param, paramMem, rfl⟩
        cases param with
        | block inner => exact legible inner (mem_nested_of_param paramMem)
        | literal text => exact Value.isLegible_string text
        | other value => cases here _ paramMem
      have blocks : (Value.array (listsJson record.blocks)).IsLegible := by
        apply Value.isLegible_array
        intro item itemMem
        rw [listsJson_eq_map] at itemMem
        rcases List.mem_map.mp itemMem with ⟨records, recordsMem, rfl⟩
        apply isLegible_listJson
        intro inner innerMem
        exact legible inner (mem_nested_of_list recordsMem innerMem)
      rcases record with ⟨id, listed, lists⟩
      rw [json]
      apply Value.isLegible_object
      intro field fieldMem
      rw [List.mem_cons, List.mem_append] at fieldMem
      rcases fieldMem with rfl | fieldMem | fieldMem
      · exact Value.isLegible_string id
      · split at fieldMem
        · cases fieldMem
        · rw [List.mem_singleton.mp fieldMem]
          exact params
      · split at fieldMem
        · cases fieldMem
        · rw [List.mem_singleton.mp fieldMem]
          exact blocks

theorem recordsOfItems?_eq_mapM (items : List Node) :
    recordsOfItems? items = items.mapM ofNode? := by
  induction items with
  | nil => rfl
  | cons item items ih =>
      rw [recordsOfItems?, ih, List.mapM_cons]

theorem recordsOfNode?_eq_list? (node : Node) :
    recordsOfNode? node = Node.list? ofNode? node := by
  cases node with
  | array items => exact recordsOfItems?_eq_mapM items
  | _ => rfl

theorem listsOfItems?_eq_mapM (items : List Node) :
    listsOfItems? items = items.mapM recordsOfNode? := by
  induction items with
  | nil => rfl
  | cons item items ih =>
      rw [listsOfItems?, ih, List.mapM_cons]

theorem listsOfNode?_eq_list? (node : Node) :
    listsOfNode? node = Node.list? recordsOfNode? node := by
  cases node with
  | array items => exact listsOfItems?_eq_mapM items
  | _ => rfl

/-- Reads a parameter. -/
def paramOfNode? (node : Node) : Option (Param InstanceRecord) := paramOf? node (ofNode? node)

theorem paramsOfItems?_eq_mapM (items : List Node) :
    paramsOfItems? items = items.mapM paramOfNode? := by
  induction items with
  | nil => rfl
  | cons item items ih =>
      rw [paramsOfItems?, ih, List.mapM_cons]
      rfl

theorem paramsOfNode?_eq_list? (node : Node) :
    paramsOfNode? node = Node.list? paramOfNode? node := by
  cases node with
  | array items => exact paramsOfItems?_eq_mapM items
  | _ => rfl

/-- The parameter that is read where a value has been written. -/
def paramOfValue (value : Value) : Param InstanceRecord :=
  (paramOfNode? value.node).getD (.other value)

theorem paramOfNode?_node (value : Value) :
    paramOfNode? value.node = some (paramOfValue value) := by
  have isParam : (paramOfNode? value.node).isSome := by
    rw [paramOfNode?, paramOf?.eq_def, Value.value?_node]
    cases ofNode? value.node <;> cases value.sorted <;> rfl
  rcases Option.isSome_iff_exists.mp isParam with ⟨param, read⟩
  simp [paramOfValue, read]

mutual

/-- The record that is read where a record has been written. -/
def reread : InstanceRecord → InstanceRecord
  | ⟨id, params, blocks⟩ => ⟨id, rereadParams params, rereadLists blocks⟩
termination_by structural record => record

/-- The parameters that are read where parameters have been written. -/
def rereadParams : List (Param InstanceRecord) → List (Param InstanceRecord)
  | [] => []
  | .block record :: rest => .block record.reread :: rereadParams rest
  | .literal text :: rest => .literal text :: rereadParams rest
  | .other value :: rest => paramOfValue value :: rereadParams rest
termination_by structural params => params

/-- The lists of records that are read where those of stacks have been written. -/
def rereadLists : List (List InstanceRecord) → List (List InstanceRecord)
  | [] => []
  | records :: rest => rereadRecords records :: rereadLists rest
termination_by structural lists => lists

/-- The records that are read where records have been written. -/
def rereadRecords : List InstanceRecord → List InstanceRecord
  | [] => []
  | record :: rest => record.reread :: rereadRecords rest
termination_by structural records => records

end

/-- The parameter that is read where a parameter has been written. -/
def rereadParam : Param InstanceRecord → Param InstanceRecord
  | .block record => .block record.reread
  | .literal text => .literal text
  | .other value => paramOfValue value

theorem rereadParams_eq_map (params : List (Param InstanceRecord)) :
    rereadParams params = params.map rereadParam := by
  induction params with
  | nil => rfl
  | cons param params ih => cases param <;> simp [rereadParams, rereadParam, ih]

theorem rereadRecords_eq_map (records : List InstanceRecord) :
    rereadRecords records = records.map reread := by
  induction records with
  | nil => rfl
  | cons record records ih => simp [rereadRecords, ih]

theorem rereadLists_eq_map (lists : List (List InstanceRecord)) :
    rereadLists lists = lists.map rereadRecords := by
  induction lists with
  | nil => rfl
  | cons records lists ih => simp [rereadLists, ih]

/-- A record is read back from its JSON form. -/
def ReadsBack (record : InstanceRecord) : Prop := Node.ReadsAs ofNode? record.json record

theorem readsAs_records
    (reads : ∀ record ∈ records, Node.ReadsAs ofNode? record.json record.reread) :
    Node.ReadsAs recordsOfNode? (listJson records) (rereadRecords records) := by
  rw [funext recordsOfNode?_eq_list?, listJson, recordsJson_eq_map, rereadRecords_eq_map]
  exact Node.readsAs_list reads

theorem readsAs_lists {lists : List (List InstanceRecord)}
    (reads : ∀ records ∈ lists, ∀ record ∈ records,
      Node.ReadsAs ofNode? record.json record.reread) :
    Node.ReadsAs listsOfNode? (.array (listsJson lists)) (rereadLists lists) := by
  rw [funext listsOfNode?_eq_list?, listsJson_eq_map, rereadLists_eq_map]
  exact Node.readsAs_list fun records recordsMem => readsAs_records (reads records recordsMem)

/-- A parameter is told apart by its shape: a record is read as one, a text as nothing else, and
another value as whatever it looks like. -/
theorem readsAs_param {param : Param InstanceRecord}
    (reads : ∀ record, param = .block record → Node.ReadsAs ofNode? record.json record.reread) :
    Node.ReadsAs paramOfNode? param.json (rereadParam param) := by
  intro limit
  cases param with
  | block record =>
      have reads := reads record rfl limit
      have readable := Value.isSome_value?_cutAt record.json limit
      rw [Param.json, paramOfNode?, reads]
      by_cases fits : record.json.depth ≤ limit
      · rcases Option.isSome_iff_exists.mp (readable.mpr fits) with ⟨value, isValue⟩
        rw [if_pos fits, if_pos fits, paramOf?.eq_def, isValue]
        rfl
      · -- A record that is cut off is no other value either, so the parameter cannot be read.
        have noValue : (record.json.node.cutAt limit).value? = none := by
          rw [← Option.not_isSome_iff_eq_none, readable]
          exact fits
        rw [if_neg fits, if_neg fits, paramOf?.eq_def, noValue]
  | literal text =>
      simp [Param.json, Value.node, Node.cutAt, paramOfNode?, ofNode?, paramOf?, Node.value?,
        Value.depth, rereadParam]
  | other value =>
      rw [Param.json, rereadParam]
      by_cases fits : value.depth ≤ limit
      · rw [if_pos fits, Value.cutAt_node fits, paramOfNode?_node]
      · have noValue : (value.node.cutAt limit).value? = none := by
          rw [← Option.not_isSome_iff_eq_none, Value.isSome_value?_cutAt]
          exact fits
        rw [if_neg fits, paramOfNode?, paramOf?.eq_def, noValue]

/-- The written params read as what each of them reads as. -/
theorem readsAs_params {params : List (Param InstanceRecord)}
    (reads : ∀ record, .block record ∈ params → Node.ReadsAs ofNode? record.json record.reread) :
    Node.ReadsAs paramsOfNode? (.array (paramsJson params)) (rereadParams params) := by
  rw [funext paramsOfNode?_eq_list?, paramsJson_eq_map, rereadParams_eq_map]
  apply Node.readsAs_list
  intro param paramMem
  apply readsAs_param
  rintro record rfl
  exact reads record paramMem

/-- The field for the parameters of a record. -/
def paramsField (params : List (Param InstanceRecord)) : List (String × Value) :=
  if params.isEmpty then [] else [("params", .array (paramsJson params))]

/-- The field for the lists of a record. -/
def listsField (lists : List (List InstanceRecord)) : List (String × Value) :=
  if lists.isEmpty then [] else [("blocks", .array (listsJson lists))]

/-- What is read from a field that is left out if it would hold an empty list. -/
def present {Item : Type} (items : List Item) : Option (List Item) :=
  if items.isEmpty then none else some items

theorem getD_present {Item : Type} (items : List Item) : (present items).getD [] = items := by
  cases items <;> rfl

theorem partsOfFields?_listsField {lists : List (List InstanceRecord)}
    (reads : Node.ReadsAs listsOfNode? (.array (listsJson lists)) (rereadLists lists))
    (limit : Nat) :
    partsOfFields? (Node.cutFieldsAt limit (Value.fieldNodes (listsField lists))) =
      if Value.fieldsDepth (listsField lists) ≤ limit then
        some { blocks := present (rereadLists lists) }
      else none := by
  have read := reads limit
  cases lists with
  | nil => rfl
  | cons records lists =>
      by_cases fits : (Value.array (listsJson (records :: lists))).depth ≤ limit <;>
        simp [listsField, present, rereadLists, Value.fieldNodes, Node.cutFieldsAt, partsOfFields?,
          Value.fieldsDepth, read, fits]

/-- The params are read back beside the fields that follow them, up to the depth limit. -/
theorem partsOfFields?_paramsField {params : List (Param InstanceRecord)}
    {fields : List (String × Value)} {lists : Option (List (List InstanceRecord))} {limit : Nat}
    (reads : Node.ReadsAs paramsOfNode? (.array (paramsJson params)) (rereadParams params))
    (rest : partsOfFields? (Node.cutFieldsAt limit (Value.fieldNodes fields)) =
      if Value.fieldsDepth fields ≤ limit then some { blocks := lists } else none) :
    partsOfFields? (Node.cutFieldsAt limit (Value.fieldNodes (paramsField params ++ fields))) =
      if Value.fieldsDepth (paramsField params ++ fields) ≤ limit then
        some { params := present (rereadParams params), blocks := lists }
      else none := by
  have read := reads limit
  rw [rereadParams_eq_map] at read ⊢
  cases params with
  | nil => exact rest
  | cons param params =>
      have field : paramsField (param :: params) ++ fields =
          ("params", .array (paramsJson (param :: params))) :: fields := rfl
      rw [field]
      simp only [Value.fieldsDepth, Nat.max_le]
      by_cases fits : (Value.array (paramsJson (param :: params))).depth ≤ limit <;>
        by_cases restFits : Value.fieldsDepth fields ≤ limit <;>
          simp [present, Value.fieldNodes, Node.cutFieldsAt, partsOfFields?, read, rest, fits,
            restFits]

/-- Within every limit that a record keeps, its JSON form is read as one and the same record. -/
theorem readsAs_reread (record : InstanceRecord) :
    Node.ReadsAs ofNode? record.json record.reread := by
  induction record using induction with
  | inside record ih =>
      have paramsRead := readsAs_params fun inner paramMem =>
        ih inner (mem_nested_of_param paramMem)
      have listsRead := readsAs_lists fun records recordsMem inner innerMem =>
        ih inner (mem_nested_of_list recordsMem innerMem)
      rcases record with ⟨id, params, lists⟩
      have form : json ⟨id, params, lists⟩ =
        .object (("id", .string id) :: (paramsField params ++ listsField lists)) := rfl
      intro limit
      rw [form, Value.node, Value.depth]
      cases limit with
      | zero => simp [Node.cutAt, ofNode?]
      | succ limit =>
          have name := Node.readsAs_text id limit
          have rest := partsOfFields?_paramsField paramsRead
            (partsOfFields?_listsField listsRead limit)
          rw [Node.cutAt, ofNode?, Value.fieldNodes, Node.cutFieldsAt, partsOfFields?, rest,
            Value.fieldsDepth]
          by_cases fits : Value.fieldsDepth (paramsField params ++ listsField lists) ≤ limit <;>
            simp [fits, name, Value.depth, Parts.record?, getD_present, reread]

/-- Params are read back as they are when each value and each record among them is. -/
theorem rereadParams_eq_self_iff {params : List (Param InstanceRecord)} :
    rereadParams params = params ↔
      (∀ value, .other value ∈ params → paramOfValue value = .other value) ∧
        ∀ inner, .block inner ∈ params → inner.reread = inner := by
  rw [rereadParams_eq_map, map_eq_self_iff]
  constructor
  · intro same
    constructor
    · intro value valueMem
      exact same _ valueMem
    · intro inner innerMem
      exact Param.block.inj (same _ innerMem)
  · rintro ⟨others, inside⟩ param paramMem
    cases param with
    | block inner => rw [rereadParam, inside inner paramMem]
    | literal text => rfl
    | other value => exact others value paramMem

theorem rereadLists_eq_self_iff {lists : List (List InstanceRecord)} :
    rereadLists lists = lists ↔
      ∀ records ∈ lists, ∀ inner ∈ records, inner.reread = inner := by
  simp [rereadLists_eq_map, map_eq_self_iff, rereadRecords_eq_map]

/-- Something holds of every other value among the parameters of a record. -/
def OthersAre (Kept : Value → Prop) (record : InstanceRecord) : Prop :=
  ∀ value, .other value ∈ record.params → Kept value

/-- A record is read as it was written if and only if every other value in it is. -/
theorem reread_eq_self_iff :
    record.reread = record ↔
      record.Everywhere (OthersAre fun value => paramOfValue value = .other value) := by
  induction record using induction with
  | inside record ih =>
      rcases record with ⟨id, params, lists⟩
      rw [everywhere_iff, reread, mk.injEq, rereadParams_eq_self_iff, rereadLists_eq_self_iff]
      constructor
      · rintro ⟨-, ⟨others, inParams⟩, inLists⟩
        refine ⟨others, ?_⟩
        intro inner innerMem
        rw [← ih inner innerMem]
        rcases mem_nested_iff.mp innerMem with paramMem | ⟨records, recordsMem, innerMem⟩
        · exact inParams inner paramMem
        · exact inLists records recordsMem inner innerMem
      · rintro ⟨others, inside⟩
        refine ⟨rfl, ⟨others, ?_⟩, ?_⟩
        · intro inner paramMem
          have innerMem : inner ∈ nested ⟨id, params, lists⟩ := mem_nested_of_param paramMem
          exact (ih inner innerMem).mpr (inside inner innerMem)
        · intro records recordsMem inner innerMem
          have innerMem : inner ∈ nested ⟨id, params, lists⟩ :=
            mem_nested_of_list recordsMem innerMem
          exact (ih inner innerMem).mpr (inside inner innerMem)

/-- A record of texts and records only is read back unchanged. -/
theorem reread_of_isPlain (plain : record.Everywhere IsPlain) : record.reread = record := by
  rw [reread_eq_self_iff]
  apply plain.mono
  intro inner plain value valueMem
  cases plain _ valueMem

theorem rereadRecords_of_isPlain (plain : ∀ record ∈ records, record.Everywhere IsPlain) :
    rereadRecords records = records := by
  rw [rereadRecords_eq_map, map_eq_self_iff]
  exact fun record recordMem => reread_of_isPlain (plain record recordMem)

/-- A record without other values is read back within every limit that it keeps. -/
theorem readsBack_of_isPlain (plain : record.Everywhere IsPlain) : record.ReadsBack := by
  have reads := readsAs_reread record
  rw [reread_of_isPlain plain] at reads
  exact reads

/-- Each of the two texts of a list of records is read as one and the same list. -/
theorem listOfText?_reread {text : String} (legible : (listJson records).IsLegible)
    (isText : text ∈ [compactText records, prettyText records]) :
    listOfText? text =
      if (listJson records).depth ≤ Node.nestingLimit then some (rereadRecords records)
      else none := by
  have read : Node.ofText? text = some ((listJson records).node.cutAt Node.nestingLimit) := by
    rw [List.mem_cons, List.mem_singleton] at isText
    rcases isText with rfl | rfl
    · exact Value.ofText?_compact legible
    · exact Value.ofText?_pretty legible
  rw [listOfText?, read, Option.bind_some]
  exact readsAs_records (fun record _ => readsAs_reread record) _

/-- Either text of a plain list reads back as the list within the depth limit, and not at all beyond
it. -/
theorem listOfText?_eq {text : String}
    (plain : ∀ record ∈ records, record.Everywhere IsPlain)
    (isText : text ∈ [compactText records, prettyText records]) :
    listOfText? text =
      if (listJson records).depth ≤ Node.nestingLimit then some records else none := by
  have legible := isLegible_listJson fun record recordMem => isLegible_json (plain record recordMem)
  rw [listOfText?_reread legible isText, rereadRecords_of_isPlain plain]

end InstanceRecord

namespace Document

theorem everywhere_isPlain_records (document : Document) :
    ∀ record ∈ document.records, record.Everywhere InstanceRecord.IsPlain := by
  intro record recordMem
  rw [records, Block.stackRecords_eq_map] at recordMem
  rcases List.mem_map.mp recordMem with ⟨block, _, rfl⟩
  exact block.everywhere_isPlain_record

/-- A list of records without other values, such as the records of any document, is read back from
its text without blanks and from its indented text, if the text nests no more arrays and objects
than a text may. If it nests more, the text is no list of records, and loading it is an error. -/
theorem records_of_text :
    (∀ records : List InstanceRecord,
      (∀ record ∈ records, record.Everywhere InstanceRecord.IsPlain) →
        ∀ text ∈ [InstanceRecord.compactText records, InstanceRecord.prettyText records],
          ((InstanceRecord.listJson records).depth ≤ Node.nestingLimit →
            InstanceRecord.listOfText? text = some records) ∧
          (Node.nestingLimit < (InstanceRecord.listJson records).depth →
            InstanceRecord.listOfText? text = none ∧
              ∀ (document : Document) (catalog : Catalog),
                document.loadText catalog text = .error .json)) ∧
      ∀ document : Document,
        ∀ record ∈ document.records, record.Everywhere InstanceRecord.IsPlain := by
  refine ⟨?_, everywhere_isPlain_records⟩
  intro records plain text isText
  have read := InstanceRecord.listOfText?_eq plain isText
  constructor
  · intro fits
    rw [read, if_pos fits]
  · intro tooDeep
    rw [if_neg (Nat.not_le.mpr tooDeep)] at read
    refine ⟨read, ?_⟩
    intro document catalog
    rw [loadText, read]

/-- A literal with a bracket, a quote and a control character comes back from the text, and so does
a block in another block, with a letter outside ASCII in its identifier. -/
theorem records_of_text_quoted :
    ∃ records : List InstanceRecord,
      records = [⟨"s", [.literal "[\"\x01", .block ⟨"é", [], []⟩], []⟩] ∧
        InstanceRecord.compactText records =
          "[\x7b\"id\":\"s\",\"params\":[\"[\\\"\\u0001\",\x7b\"id\":\"é\"\x7d]\x7d]" ∧
          InstanceRecord.listOfText? (InstanceRecord.compactText records) = some records ∧
            InstanceRecord.listOfText? (InstanceRecord.prettyText records) = some records := by
  let inner : InstanceRecord := ⟨"é", [], []⟩
  let record : InstanceRecord := ⟨"s", [.literal "[\"\x01", .block inner], []⟩
  have innerPlain : inner.Everywhere InstanceRecord.IsPlain := by
    refine .intro ?_ ?_ <;> simp [inner, InstanceRecord.IsPlain, InstanceRecord.nested]
  have plain : ∀ other ∈ [record], other.Everywhere InstanceRecord.IsPlain := by
    rw [List.forall_mem_singleton]
    refine .intro ?_ ?_
    · simp [record, InstanceRecord.IsPlain, Param.IsPlain]
    · simpa [record, InstanceRecord.nested, Param.record?] using innerPlain
  have fits : (InstanceRecord.listJson [record]).depth ≤ Node.nestingLimit := by decide
  have read := records_of_text.1 [record] plain
  exact ⟨_, rfl, by decide +kernel, (read _ List.mem_cons_self).1 fits,
    (read _ (List.mem_cons_of_mem _ List.mem_cons_self)).1 fits⟩

end Document

end BlockEditor
