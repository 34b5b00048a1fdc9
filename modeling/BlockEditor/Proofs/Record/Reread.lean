import BlockEditor.Proofs.Json.Inside
import BlockEditor.Proofs.Record.Text

/-!
# Records read, written and read again

A record is read like every record with declared fields (`InstanceRecord.ofNode?_eq`). What has been
read from a tree without numbers but integers can be written within the limits of the tree, and what
is written gives no field twice (`InstanceRecord.readsKept`).

Only an other value can be read differently the second time: the fields that it gives twice are
written once, so it may have become a record (`InstanceRecord.rereadRecords_eq_self_iff`). A tree
that gives no field twice is read like its value (`InstanceRecord.readsAlike`), so records that come
from such a tree are the same again (`InstanceRecord.rereadRecords_of_tidy`).
-/

namespace BlockEditor

open Json

namespace Json.Members

variable {Item : Type} {members again : Members} {name key : String} {node parent : Node}
  {read : Node → Option Item}

/-- What a field that may be left out is read as. -/
def given? (members : Members) (name : String) (read : Node → Option Item) :
    Option (Option Item) :=
  members.withDefault name (fun node => (read node).map some) none

@[simp]
theorem given?_cons_self : given? ((name, node) :: members) name read = (read node).map some := by
  simp [given?, withDefault]

@[simp]
theorem given?_cons_of_ne (different : name ≠ key) :
    given? ((key, node) :: members) name read = members.given? name read := by
  simp [given?, withDefault, List.lookup_cons, beq_eq_false_iff_ne.mpr different]

theorem given?_of_none (leftOut : members.lookup name = none) :
    members.given? name read = some none := by
  simp [given?, withDefault, leftOut]

theorem given?_of_some (found : members.lookup name = some node) :
    members.given? name read = (read node).map some := by
  simp [given?, withDefault, found]

/-- What is read from a field in a tree is read from it in the value of the tree. -/
theorem required_eq (same : parent.SameMember (members.lookup name) (again.lookup name))
    (alike : ∀ child ∈ parent.children, ∀ inner, child.value? = some inner →
      read inner.node = read child) : again.required name read = members.required name read := by
  rcases same with ⟨leftOut, leftOutAgain⟩ | ⟨child, childMem, value, hasValue, given, givenAgain⟩
  · rw [required, required, leftOut, leftOutAgain]
  · rw [required, required, given, givenAgain]
    exact alike child childMem value hasValue

/-- A field with a default is read alike from two objects with the same member under its name. -/
theorem withDefault_eq (same : parent.SameMember (members.lookup name) (again.lookup name))
    (alike : ∀ child ∈ parent.children, ∀ inner, child.value? = some inner →
      read inner.node = read child) (item : Item) :
    again.withDefault name read item = members.withDefault name read item := by
  rcases same with ⟨leftOut, leftOutAgain⟩ | ⟨child, childMem, value, hasValue, given, givenAgain⟩
  · rw [withDefault, withDefault, leftOut, leftOutAgain]
  · rw [withDefault, withDefault, given, givenAgain]
    exact alike child childMem value hasValue

theorem eq_or_exists_of_withDefault {item other : Item}
    (found : members.withDefault name read other = some item) :
    item = other ∨ ∃ child, members.lookup name = some child ∧ read child = some item := by
  rw [withDefault] at found
  split at found
  · rename_i child given
    exact .inr ⟨child, given, found⟩
  · exact .inl (Option.some.inj found).symm

end Json.Members

namespace InstanceRecord

/-- The names of the fields of a record. -/
def fieldNames : List String := ["id", "params", "blocks"]

/-- Something holds of every other value that a parameter is or has in it. -/
def ParamKeeps (Kept : Value → Prop) : Param InstanceRecord → Prop
  | .block record => record.Everywhere (OthersAre Kept)
  | .literal _ => True
  | .other value => Kept value

variable {Kept : Value → Prop} {Holds : Node → Prop} {limit : Nat} {node : Node}
  {record : InstanceRecord} {params : List (Param InstanceRecord)}
  {lists : List (List InstanceRecord)} {value : Value}

/-- A record is good everywhere when its params and lists are. -/
theorem everywhere_othersAre (id : String) (inParams : ∀ param ∈ params, ParamKeeps Kept param)
    (inLists : ∀ records ∈ lists, ∀ inner ∈ records, inner.Everywhere (OthersAre Kept)) :
    Everywhere (OthersAre Kept) ⟨id, params, lists⟩ := by
  refine .intro ?_ ?_
  · intro value valueMem
    exact inParams _ valueMem
  · intro inner innerMem
    rcases mem_nested_iff.mp innerMem with paramMem | ⟨records, recordsMem, innerMem⟩
    · exact inParams _ paramMem
    · exact inLists records recordsMem inner innerMem

/-- The record with some declared fields; only the identifier must be among them. -/
def ofMembers? (members : Members) : Option InstanceRecord := do
  let id ← members.required "id" Node.text?
  let params ← members.withDefault "params" paramsOfNode? []
  let blocks ← members.withDefault "blocks" listsOfNode? []
  return ⟨id, params, blocks⟩

/-- The parts with some declared fields. -/
def partsOfMembers? (members : Members) : Option Parts := do
  let id ← members.given? "id" Node.text?
  let params ← members.given? "params" paramsOfNode?
  let blocks ← members.given? "blocks" listsOfNode?
  return ⟨id, params, blocks⟩

/-! Adding a field to the parts adds it to the declared fields, and is refused in both if the field
is there already. -/

theorem partsOfMembers?_id (members : Members) (node : Node) :
    ((partsOfMembers? members).bind fun parts =>
        if parts.id.isSome then none
        else (Node.text? node).bind fun id => some { parts with id := some id }) =
      (if (members.lookup "id").isSome then none else some (("id", node) :: members)).bind
        partsOfMembers? := by
  cases params : members.given? "params" paramsOfNode? <;>
    cases blocks : members.given? "blocks" listsOfNode? <;>
      cases found : members.lookup "id" with
      | none =>
          cases here : Node.text? node <;>
            simp [partsOfMembers?, Members.given?_of_none found, here, params, blocks]
      | some other =>
          cases earlier : Node.text? other <;>
            simp [partsOfMembers?, Members.given?_of_some found, earlier, params, blocks]

theorem partsOfMembers?_params (members : Members) (node : Node) :
    ((partsOfMembers? members).bind fun parts =>
        if parts.params.isSome then none
        else (paramsOfNode? node).bind fun params => some { parts with params := some params }) =
      (if (members.lookup "params").isSome then none else some (("params", node) :: members)).bind
        partsOfMembers? := by
  cases id : members.given? "id" Node.text? <;>
    cases blocks : members.given? "blocks" listsOfNode? <;>
      cases found : members.lookup "params" with
      | none =>
          cases here : paramsOfNode? node <;>
            simp [partsOfMembers?, Members.given?_of_none found, here, id, blocks]
      | some other =>
          cases earlier : paramsOfNode? other <;>
            simp [partsOfMembers?, Members.given?_of_some found, earlier, id, blocks]

theorem partsOfMembers?_blocks (members : Members) (node : Node) :
    ((partsOfMembers? members).bind fun parts =>
        if parts.blocks.isSome then none
        else (listsOfNode? node).bind fun blocks => some { parts with blocks := some blocks }) =
      (if (members.lookup "blocks").isSome then none else some (("blocks", node) :: members)).bind
        partsOfMembers? := by
  cases id : members.given? "id" Node.text? <;>
    cases params : members.given? "params" paramsOfNode? <;>
      cases found : members.lookup "blocks" with
      | none =>
          cases here : listsOfNode? node <;>
            simp [partsOfMembers?, Members.given?_of_none found, here, id, params]
      | some other =>
          cases earlier : listsOfNode? other <;>
            simp [partsOfMembers?, Members.given?_of_some found, earlier, id, params]

/-- Reading the fields one by one comes to collecting the declared members and reading those. -/
theorem partsOfFields?_eq (fields : List (Option String × Node)) :
    partsOfFields? fields = (Node.declared? fieldNames fields).bind partsOfMembers? := by
  induction fields with
  | nil => rfl
  | cons field fields ih =>
      rcases field with ⟨key, node⟩
      rw [partsOfFields?, Node.declared?, ih]
      cases key with
      | none => rfl
      | some key =>
          cases Node.declared? fieldNames fields with
          | none => rfl
          | some members =>
              by_cases isId : key = "id"
              · subst isId
                simpa [fieldNames] using partsOfMembers?_id members node
              by_cases isParams : key = "params"
              · subst isParams
                simpa [fieldNames] using partsOfMembers?_params members node
              by_cases isBlocks : key = "blocks"
              · subst isBlocks
                simpa [fieldNames] using partsOfMembers?_blocks members node
              · simp [fieldNames, isId, isParams, isBlocks]

/-- The parts make the record that the members spell. -/
theorem record?_of_members (members : Members) :
    (partsOfMembers? members).bind Parts.record? = ofMembers? members := by
  rw [partsOfMembers?, ofMembers?, Members.required, Members.withDefault, Members.withDefault]
  cases idGiven : members.lookup "id" <;> cases paramsGiven : members.lookup "params" <;>
    cases blocksGiven : members.lookup "blocks" <;>
      simp [Members.given?, Members.withDefault, idGiven, paramsGiven, blocksGiven, Parts.record?,
        Option.bind_assoc, Option.bind_map]

/-- A record is read like every record with declared fields, of which some may be left out. -/
theorem ofNode?_eq (node : Node) :
    ofNode? node = (node.members? fieldNames).bind ofMembers? := by
  cases node with
  | null | bool | number | string | unreadable => rfl
  | array items =>
      rw [ofNode?, Node.members?]
      rcases items with - | ⟨id, - | ⟨params, - | ⟨blocks, - | ⟨other, rest⟩⟩⟩⟩
      · rfl
      · simp [partsOfItems?, fieldNames, ofMembers?, Members.required, Members.withDefault,
          List.lookup_cons]
      · simp [partsOfItems?, fieldNames, ofMembers?, Members.required, Members.withDefault,
          List.lookup_cons]
      · simp [partsOfItems?, fieldNames, ofMembers?, Members.required, Members.withDefault,
          List.lookup_cons]
      · have tooMany : ¬(id :: params :: blocks :: other :: rest).length ≤ fieldNames.length := by
          simp only [List.length_cons, fieldNames, List.length_nil]
          omega
        rw [if_neg tooMany]
        rfl
  | object fields =>
      rw [ofNode?, partsOfFields?_eq, Node.members?, Option.bind_assoc,
        funext record?_of_members]

theorem ofNode?_of_block (read : paramOfNode? node = some (.block record)) :
    ofNode? node = some record := by
  rw [paramOfNode?, paramOf?.eq_def] at read
  split at read <;> simp_all

/-- An other value is what stands there, and it is neither a record nor a text. -/
theorem value?_of_other (read : paramOfNode? node = some (.other value)) :
    node.value? = some value ∧ ofNode? node = none ∧ ∀ text, value ≠ .string text := by
  rw [paramOfNode?, paramOf?.eq_def] at read
  split at read <;> simp_all

/-- What is read from a tree is written within a limit, without a field that is given twice. -/
def WritesWithin {Item : Type} (read : Node → Option Item) (write : Item → Value)
    (Good : Item → Prop) (limit : Nat) (node : Node) : Prop :=
  ∀ item, read node = some item →
    (write item).node.Within (Node.IsTidy fieldNames) limit ∧ Good item

/-- What each reader of records reads from a tree. -/
structure ReadsKept (Kept : Value → Prop) (limit : Nat) (node : Node) : Prop where
  record : WritesWithin ofNode? json (Everywhere (OthersAre Kept)) limit node
  params : WritesWithin paramsOfNode? (fun params => .array (paramsJson params))
    (fun params => ∀ param ∈ params, ParamKeeps Kept param) limit node
  records : WritesWithin recordsOfNode? listJson
    (fun records => ∀ record ∈ records, record.Everywhere (OthersAre Kept)) limit node
  lists : WritesWithin listsOfNode? (fun lists => .array (listsJson lists))
    (fun lists => ∀ records ∈ lists, ∀ record ∈ records, record.Everywhere (OthersAre Kept))
    limit node

/-- A list is written within the limit of its node when every item is. -/
theorem writesWithin_list {Item : Type} {read : Node → Option Item} {write : Item → Value}
    {Good : Item → Prop}
    (inside : ∀ child ∈ node.children, WritesWithin read write Good limit child) :
    WritesWithin (Node.list? read) (fun items => .array (items.map write))
      (fun items => ∀ item ∈ items, Good item) (limit + 1) node := by
  intro images readAll
  cases node with
  | null | bool | number | string | unreadable | object => cases readAll
  | array items =>
      have written : ∀ image ∈ images,
          (write image).node.Within (Node.IsTidy fieldNames) limit ∧ Good image := by
        intro image imageMem
        rcases exists_of_mapM readAll image imageMem with ⟨item, itemMem, readItem⟩
        exact inside item itemMem image readItem
      constructor
      · apply Node.within_array
        rw [List.forall_mem_map]
        exact fun image imageMem => (written image imageMem).1
      · exact fun image imageMem => (written image imageMem).2

theorem writesWithin_param (within : node.Within Node.IsWhole limit)
    (reads : WritesWithin ofNode? json (Everywhere (OthersAre Kept)) limit node)
    (kept : ∀ value, paramOfNode? node = some (.other value) → Kept value) :
    WritesWithin paramOfNode? Param.json (ParamKeeps Kept) limit node := by
  intro param read
  cases param with
  | block record => exact reads record (ofNode?_of_block read)
  | literal text => exact ⟨Node.within_string text, trivial⟩
  | other value =>
      exact ⟨Node.within_of_value? within (value?_of_other read).1, kept value read⟩

/-- A record nests as its lists do, of which the empty ones are left out. -/
theorem within_json (id : String)
    (paramsWithin : params ≠ [] →
      (Value.array (paramsJson params)).node.Within (Node.IsTidy fieldNames) limit)
    (listsWithin : lists ≠ [] →
      (Value.array (listsJson lists)).node.Within (Node.IsTidy fieldNames) limit) :
    (json ⟨id, params, lists⟩).node.Within (Node.IsTidy fieldNames) (limit + 1) := by
  have form : json ⟨id, params, lists⟩ =
    .object (("id", .string id) :: (paramsField params ++ listsField lists)) := rfl
  have distinct :
      ((("id", .string id) :: (paramsField params ++ listsField lists)).map Prod.fst).Nodup := by
    rw [paramsField, listsField]
    split <;> split <;> simp
  have fields : ∀ field ∈ ("id", .string id) :: (paramsField params ++ listsField lists),
      field.2.node.Within (Node.IsTidy fieldNames) limit := by
    rw [List.forall_mem_cons, List.forall_mem_append]
    refine ⟨Node.within_string id, ?_, ?_⟩
    · cases params with
      | nil => exact List.forall_mem_nil _
      | cons param params => exact List.forall_mem_singleton.mpr (paramsWithin (by simp))
    · cases lists with
      | nil => exact List.forall_mem_nil _
      | cons records lists => exact List.forall_mem_singleton.mpr (listsWithin (by simp))
  rw [form]
  exact Node.within_object distinct fields

/-- A record is written within the limit that its node keeps. -/
theorem writesWithin_record (inside : ∀ child ∈ node.children, ReadsKept Kept limit child) :
    WritesWithin ofNode? json (Everywhere (OthersAre Kept)) (limit + 1) node := by
  intro record read
  rw [ofNode?_eq, Option.bind_eq_some_iff] at read
  rcases read with ⟨members, found, read⟩
  simp only [ofMembers?, Option.bind_eq_bind, Option.bind_eq_some_iff] at read
  rcases read with ⟨id, _, params, paramsFound, lists, listsFound, ⟨⟩⟩
  have paramsRead : params = [] ∨ ∃ child ∈ node.children, paramsOfNode? child = some params := by
    rcases Members.eq_or_exists_of_withDefault paramsFound with leftOut | ⟨child, given, read⟩
    · exact .inl leftOut
    · exact .inr ⟨child, Node.mem_children_of_members? found given, read⟩
  have listsRead : lists = [] ∨ ∃ child ∈ node.children, listsOfNode? child = some lists := by
    rcases Members.eq_or_exists_of_withDefault listsFound with leftOut | ⟨child, given, read⟩
    · exact .inl leftOut
    · exact .inr ⟨child, Node.mem_children_of_members? found given, read⟩
  constructor
  · apply within_json id
    · intro nonempty
      rcases paramsRead with leftOut | ⟨child, childMem, read⟩
      · exact absurd leftOut nonempty
      · exact ((inside child childMem).params params read).1
    · intro nonempty
      rcases listsRead with leftOut | ⟨child, childMem, read⟩
      · exact absurd leftOut nonempty
      · exact ((inside child childMem).lists lists read).1
  · apply everywhere_othersAre id
    · rcases paramsRead with rfl | ⟨child, childMem, read⟩
      · exact List.forall_mem_nil _
      · exact ((inside child childMem).params params read).2
    · rcases listsRead with rfl | ⟨child, childMem, read⟩
      · exact List.forall_mem_nil _
      · exact ((inside child childMem).lists lists read).2

/-- What has been read from a tree without numbers but integers can be written within the limit of
the tree. The other values in it are some that stand as parameters in the tree. -/
theorem readsKept (within : node.Within Holds limit)
    (whole : ∀ node, Holds node → node.IsWhole)
    (kept : ∀ node, node.Everywhere Holds →
      ∀ value, paramOfNode? node = some (.other value) → Kept value) :
    ReadsKept Kept limit node := by
  induction within with
  | leaf here isLeaf =>
      rename_i node
      cases node with
      | array | object => cases isLeaf
      | null | bool | number | string | unreadable =>
          constructor <;>
            · intro item read
              cases read
  | branch here inside ih =>
      rename_i limit node
      have form : listJson = fun records => .array (records.map json) := by
        funext records
        rw [listJson, recordsJson_eq_map]
      constructor
      · exact writesWithin_record ih
      · rw [funext paramsOfNode?_eq_list?, funext paramsJson_eq_map]
        apply writesWithin_list
        intro child childMem
        have within := inside child childMem
        exact writesWithin_param (within.mono whole) (ih child childMem).record
          (kept child within.everywhere)
      · rw [funext recordsOfNode?_eq_list?, form]
        exact writesWithin_list fun child childMem => (ih child childMem).record
      · rw [funext listsOfNode?_eq_list?, funext listsJson_eq_map]
        exact writesWithin_list fun child childMem => (ih child childMem).records

/-- Two trees are read as the same things. -/
structure ReadsAlike (first second : Node) : Prop where
  text : first.text? = second.text?
  record : ofNode? first = ofNode? second
  params : paramsOfNode? first = paramsOfNode? second
  records : recordsOfNode? first = recordsOfNode? second
  lists : listsOfNode? first = listsOfNode? second

theorem ofMembers?_eq {members again : Members}
    (same : ∀ name ∈ fieldNames, node.SameMember (members.lookup name) (again.lookup name))
    (alike : ∀ child ∈ node.children, ∀ inner, child.value? = some inner →
      ReadsAlike inner.node child) : ofMembers? again = ofMembers? members := by
  have id := Members.required_eq (same "id" (by decide)) fun child childMem inner hasValue =>
    (alike child childMem inner hasValue).text
  have params := Members.withDefault_eq (same "params" (by decide))
    (fun child childMem inner hasValue => (alike child childMem inner hasValue).params) []
  have blocks := Members.withDefault_eq (same "blocks" (by decide))
    (fun child childMem inner hasValue => (alike child childMem inner hasValue).lists) []
  rw [ofMembers?, ofMembers?, id, params, blocks]

/-- A node that gives each field once reads as the value it stands for. -/
theorem readsAlike (once : node.Everywhere (Node.GivesOnce fieldNames))
    (hasValue : node.value? = some value) : ReadsAlike value.node node := by
  induction once generalizing value with
  | intro here inside ih =>
      rename_i node
      have alike : ∀ child ∈ node.children, ∀ inner, child.value? = some inner →
          ReadsAlike inner.node child := fun child childMem inner hasValue =>
        ih child childMem hasValue
      constructor
      · cases node with
        | null | bool | number | string =>
            cases hasValue
            rfl
        | unreadable => cases hasValue
        | array items =>
            rcases Option.map_eq_some_iff.mp hasValue with ⟨values, _, rfl⟩
            rfl
        | object fields =>
            rcases Option.map_eq_some_iff.mp hasValue with ⟨entries, _, rfl⟩
            rfl
      · rw [ofNode?_eq, ofNode?_eq]
        rcases Node.members?_of_value? here hasValue with
          ⟨none, noneAgain⟩ | ⟨members, again, found, foundAgain, same⟩
        · rw [none, noneAgain]
        · rw [found, foundAgain]
          exact ofMembers?_eq same alike
      · rw [paramsOfNode?_eq_list?, paramsOfNode?_eq_list?]
        apply Node.list?_of_value? hasValue
        intro child childMem inner childValue
        rw [paramOfNode?, paramOfNode?, (alike child childMem inner childValue).record,
          paramOf?.eq_def, paramOf?.eq_def, Value.value?_node, Node.sorted_of_value? childValue,
          childValue]
      · rw [recordsOfNode?_eq_list?, recordsOfNode?_eq_list?]
        apply Node.list?_of_value? hasValue
        exact fun child childMem inner childValue => (alike child childMem inner childValue).record
      · rw [listsOfNode?_eq_list?, listsOfNode?_eq_list?]
        apply Node.list?_of_value? hasValue
        exact fun child childMem inner childValue => (alike child childMem inner childValue).records

/-- An other value as it is read. -/
structure IsOther (value : Value) : Prop where
  /-- Objects have their fields in order. -/
  sorted : value.sorted = value
  /-- A text would have been read as a literal. -/
  noText : ∀ text, value ≠ .string text

theorem isOther_of_read (read : paramOfNode? node = some (.other value)) : IsOther value := by
  rcases value?_of_other read with ⟨hasValue, _, noText⟩
  exact ⟨Node.sorted_of_value? hasValue, noText⟩

/-- An other value is read as itself or as a record. -/
theorem IsOther.paramOfValue_eq_iff (isOther : IsOther value) :
    paramOfValue value = .other value ↔ ofNode? value.node = none := by
  have read := paramOfNode?_node value
  rw [paramOfNode?, paramOf?.eq_def, Value.value?_node, isOther.sorted] at read
  cases isRecord : ofNode? value.node with
  | some record =>
      rw [isRecord, Option.some.injEq] at read
      simp [← read]
  | none =>
      rw [isRecord] at read
      cases value with
      | string text => exact absurd rfl (isOther.noText text)
      | null | bool | number | array | object => simpa using (Option.some.inj read).symm

variable {records : List InstanceRecord}

theorem readsOthers (within : node.Within Node.IsWhole limit) : ReadsKept IsOther limit node :=
  readsKept within (fun _ whole => whole) fun _ _ _ found => isOther_of_read found

/-- What has been read is written without a field that is given twice. -/
theorem within_listJson (within : node.Within Node.IsWhole limit)
    (read : recordsOfNode? node = some records) :
    (listJson records).node.Within (Node.IsTidy fieldNames) limit :=
  ((readsOthers within).records records read).1

theorem recordsOfNode?_listJson (records : List InstanceRecord) :
    recordsOfNode? (listJson records).node = some (rereadRecords records) := by
  have reads := readsAs_records (fun record (_ : record ∈ records) => readsAs_reread record)
    (listJson records).depth
  rw [Value.cutAt_node (Nat.le_refl _), if_pos (Nat.le_refl _)] at reads
  exact reads

/-- Records that have been read are the same when they are read again if and only if no other value
in them looks like a record. -/
theorem rereadRecords_eq_self_iff (within : node.Within Node.IsWhole limit)
    (read : recordsOfNode? node = some records) :
    rereadRecords records = records ↔
      ∀ record ∈ records, record.Everywhere (OthersAre fun value => ofNode? value.node = none) := by
  have areOther := ((readsOthers within).records records read).2
  rw [rereadRecords_eq_map, map_eq_self_iff]
  refine forall₂_congr fun record recordMem => ?_
  rw [reread_eq_self_iff]
  constructor
  · intro same
    apply same.combine (areOther record recordMem)
    intro inner same areOther value valueMem
    exact (areOther value valueMem).paramOfValue_eq_iff.mp (same value valueMem)
  · intro noRecords
    apply noRecords.combine (areOther record recordMem)
    intro inner noRecords areOther value valueMem
    exact (areOther value valueMem).paramOfValue_eq_iff.mpr (noRecords value valueMem)

/-- Records from a tree that gives no field twice are the same when they are read again. -/
theorem rereadRecords_of_tidy (within : node.Within (Node.IsTidy fieldNames) limit)
    (read : recordsOfNode? node = some records) : rereadRecords records = records := by
  have kept : ReadsKept (fun value => ofNode? value.node = none) limit node := by
    apply readsKept within (fun _ tidy => tidy.whole)
    intro inner tidy value found
    rcases value?_of_other found with ⟨hasValue, noRecord, _⟩
    have once : inner.Everywhere (Node.GivesOnce fieldNames) := tidy.mono fun _ tidy => tidy.once
    rw [(readsAlike once hasValue).record, noRecord]
  rw [rereadRecords_eq_self_iff (within.mono fun _ tidy => tidy.whole) read]
  exact (kept.records records read).2

end InstanceRecord

end BlockEditor
