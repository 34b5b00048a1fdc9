import Mathlib.Data.List.Nodup
import BlockEditor.Proofs.Json.Number
import BlockEditor.Proofs.Json.Reading

/-!
# Values of trees

The value of a tree has the fields of every object in the order of their keys. For the tree of a
value this is `Value.sorted`, which is the value itself but for that order (`Value.value?_node`), so
a reader that finds fields by their names reads both alike (`Node.members?_object`,
`Node.members?_sorted`). A value that nests no more than a limit is left whole by it
(`Value.cutAt_node`). Values whose text is read back are built up by `Value.Writable`.
-/

namespace BlockEditor.Json

theorem map_eq_self_iff {Item : Type} {change : Item → Item} {items : List Item} :
    items.map change = items ↔ ∀ item ∈ items, change item = item := by
  induction items with
  | nil => simp
  | cons item items ih => simp [ih]

namespace Value

mutual

/-- The value with the fields of every object ordered by key. -/
def sorted : Value → Value
  | .null => .null
  | .bool value => .bool value
  | .number value => .number value
  | .string value => .string value
  | .array items => .array (sortedItems items)
  | .object fields => .object (sortedFields [] fields)
termination_by structural value => value

/-- The items of an array, each with its fields ordered. -/
def sortedItems : List Value → List Value
  | [] => []
  | item :: rest => item.sorted :: sortedItems rest
termination_by structural items => items

/-- The fields of an object, each with its own fields ordered, put in order between others. -/
def sortedFields (before : List (String × Value)) :
    List (String × Value) → List (String × Value)
  | [] => before
  | (key, value) :: rest => sortedFields (insertSorted key value.sorted before) rest
termination_by structural fields => fields

end

variable {fields before : List (String × Value)}

theorem sortedItems_eq_map (items : List Value) : sortedItems items = items.map sorted := by
  induction items with
  | nil => rfl
  | cons item items ih => rw [sortedItems, ih, List.map_cons]

/-- The items of an array are read as they are when sorted. -/
theorem itemValues?_nodes {items : List Value}
    (values : ∀ item ∈ items, item.node.value? = some item.sorted) :
    Node.itemValues? (itemNodes items) = some (sortedItems items) := by
  induction items with
  | nil => rfl
  | cons item items ih =>
      rw [List.forall_mem_cons] at values
      simp [itemNodes, Node.itemValues?, sortedItems, values.1, ih values.2]

/-- The fields of an object are read in order. -/
theorem fieldValues?_nodes (values : ∀ field ∈ fields, field.2.node.value? = some field.2.sorted)
    (before : List (String × Value)) :
    Node.fieldValues? before (fieldNodes fields) = some (sortedFields before fields) := by
  induction fields generalizing before with
  | nil => rfl
  | cons field fields ih =>
      rw [List.forall_mem_cons] at values
      simp [fieldNodes, Node.fieldValues?, sortedFields, values.1, ih values.2]

/-- The value of the tree of a value is the value with its fields in order. -/
theorem value?_node (value : Value) : value.node.value? = some value.sorted := by
  induction value using induction with
  | null => rfl
  | bool value => rfl
  | number value => rfl
  | string value => rfl
  | array items ih => rw [node, Node.value?, itemValues?_nodes ih, Option.map_some, sorted]
  | object fields ih => rw [node, Node.value?, fieldValues?_nodes ih, Option.map_some, sorted]

theorem keysIncrease_sortedFields (increase : KeysIncrease before) :
    KeysIncrease (sortedFields before fields) := by
  induction fields generalizing before with
  | nil => exact increase
  | cons field fields ih => exact ih (keysIncrease_insertSorted field.1 field.2.sorted increase)

/-- Putting fields in order leaves what stands under each key. -/
theorem lookup_sortedFields (distinct : (fields.map Prod.fst).Nodup)
    (before : List (String × Value)) (key : String) :
    (sortedFields before fields).lookup key =
      ((fields.lookup key).map sorted).or (before.lookup key) := by
  induction fields generalizing before with
  | nil => rfl
  | cons field fields ih =>
      rcases field with ⟨name, value⟩
      rcases List.nodup_cons.mp distinct with ⟨notMem, rest⟩
      rw [sortedFields, ih rest, lookup_insertSorted, List.lookup_cons]
      by_cases same : key = name
      · subst same
        simp [lookup_of_notMem notMem]
      · simp [same, beq_eq_false_iff_ne.mpr same]

/-- Fields in order stay as they are. -/
theorem sortedFields_eq_self (increase : KeysIncrease fields)
    (sorted : ∀ field ∈ fields, field.2.sorted = field.2) : sortedFields [] fields = fields := by
  let stored : SortedMap Value := ⟨fields, increase⟩
  have same : ⟨sortedFields [] fields, keysIncrease_sortedFields List.Pairwise.nil⟩ = stored := by
    apply SortedMap.ext_get?
    intro key
    rw [SortedMap.get?, lookup_sortedFields increase.nodup, List.lookup_nil, Option.or_none]
    cases found : fields.lookup key with
    | none => exact found.symm
    | some value =>
        have fieldMem := (stored.mem_entries_iff key value).mpr found
        rw [Option.map_some, sorted (key, value) fieldMem]
        exact found.symm
  exact congrArg SortedMap.entries same

/-- A field is looked up in the tree as in the object. -/
theorem lookup_fieldNodes (fields : List (String × Value)) (key : String) :
    (fieldNodes fields).lookup (some key) = (fields.lookup key).map node := by
  induction fields with
  | nil => rfl
  | cons field fields ih =>
      rcases field with ⟨name, value⟩
      by_cases same : key = name
      · simp [fieldNodes, same]
      · simp [fieldNodes, List.lookup_cons, beq_eq_false_iff_ne.mpr same, ih]

theorem count_fieldNodes (distinct : (fields.map Prod.fst).Nodup) (key : String) :
    ((fieldNodes fields).map Prod.fst).count (some key) ≤ 1 := by
  have keys : (fieldNodes fields).map Prod.fst = (fields.map Prod.fst).map some := by
    simp [fieldNodes_eq_map, Function.comp_def]
  rw [keys]
  exact List.nodup_iff_count_le_one.mp (distinct.map fun _ _ => Option.some.inj) _

/-- Items that are not too deep are left whole. -/
theorem cutItemsAt_nodes {items : List Value} {limit : Nat}
    (whole : ∀ item ∈ items, item.depth ≤ limit → item.node.cutAt limit = item.node)
    (fits : itemsDepth items ≤ limit) :
    Node.cutItemsAt limit (itemNodes items) = itemNodes items := by
  induction items with
  | nil => rfl
  | cons item items ih =>
      rw [List.forall_mem_cons] at whole
      rw [itemsDepth, Nat.max_le] at fits
      rw [itemNodes, Node.cutItemsAt, whole.1 fits.1, ih whole.2 fits.2]

theorem cutFieldsAt_nodes {limit : Nat}
    (whole : ∀ field ∈ fields, field.2.depth ≤ limit → field.2.node.cutAt limit = field.2.node)
    (fits : fieldsDepth fields ≤ limit) :
    Node.cutFieldsAt limit (fieldNodes fields) = fieldNodes fields := by
  induction fields with
  | nil => rfl
  | cons field fields ih =>
      rw [List.forall_mem_cons] at whole
      rw [fieldsDepth, Nat.max_le] at fits
      rw [fieldNodes, Node.cutFieldsAt, whole.1 fits.1, ih whole.2 fits.2]

/-- A limit that a value keeps leaves its tree whole. -/
theorem cutAt_node {value : Value} {limit : Nat} (fits : value.depth ≤ limit) :
    value.node.cutAt limit = value.node := by
  induction value using induction generalizing limit with
  | null => rfl
  | bool value => rfl
  | number value => rfl
  | string value => rfl
  | array items ih =>
      rw [depth] at fits
      rcases Nat.exists_eq_add_of_lt fits with ⟨room, rfl⟩
      rw [node, Node.cutAt, cutItemsAt_nodes (fun item itemMem => ih item itemMem) (by omega)]
  | object fields ih =>
      rw [depth] at fits
      rcases Nat.exists_eq_add_of_lt fits with ⟨room, rfl⟩
      rw [node, Node.cutAt, cutFieldsAt_nodes (fun field fieldMem => ih field fieldMem) (by omega)]

theorem itemsDepth_le_iff {items : List Value} {limit : Nat} :
    itemsDepth items ≤ limit ↔ ∀ item ∈ items, item.depth ≤ limit := by
  induction items with
  | nil => simp [itemsDepth]
  | cons item items ih => rw [itemsDepth, Nat.max_le, ih, List.forall_mem_cons]

theorem fieldsDepth_le_iff {limit : Nat} :
    fieldsDepth fields ≤ limit ↔ ∀ field ∈ fields, field.2.depth ≤ limit := by
  induction fields with
  | nil => simp [fieldsDepth]
  | cons field fields ih => rw [fieldsDepth, Nat.max_le, ih, List.forall_mem_cons]

/-- The text of a value is read back: its numbers are legible, and it nests no more than a limit. -/
structure Writable (limit : Nat) (value : Value) : Prop where
  /-- Every number is what its letters stand for. -/
  legible : value.IsLegible
  /-- Arrays and objects do not nest too deeply. -/
  shallow : value.depth ≤ limit

variable {limit more : Nat} {value : Value}

theorem Writable.mono (writable : value.Writable limit) (fits : limit ≤ more) :
    value.Writable more :=
  ⟨writable.legible, writable.shallow.trans fits⟩

theorem writable_string (text : String) : (string text).Writable limit :=
  ⟨isLegible_string text, Nat.zero_le limit⟩

theorem writable_null : null.Writable limit := by
  refine ⟨?_, Nat.zero_le limit⟩
  intro token tokenMem
  rw [List.mem_singleton.mp tokenMem]
  trivial

theorem writable_bool (value : Bool) : (bool value).Writable limit := by
  refine ⟨?_, Nat.zero_le limit⟩
  intro token tokenMem
  rw [List.mem_singleton.mp tokenMem]
  trivial

theorem writable_integer {value : Int} (inRange : IntegerRange value) :
    (number (.integer value inRange)).Writable limit :=
  ⟨isLegible_integer inRange, Nat.zero_le limit⟩

theorem writable_array {items : List Value} (writable : ∀ item ∈ items, item.Writable limit) :
    (array items).Writable (limit + 1) := by
  constructor
  · exact isLegible_array fun item itemMem => (writable item itemMem).legible
  · rw [depth, Nat.add_le_add_iff_right, itemsDepth_le_iff]
    exact fun item itemMem => (writable item itemMem).shallow

theorem writable_object (writable : ∀ field ∈ fields, field.2.Writable limit) :
    (object fields).Writable (limit + 1) := by
  constructor
  · exact isLegible_object fun field fieldMem => (writable field fieldMem).legible
  · rw [depth, Nat.add_le_add_iff_right, fieldsDepth_le_iff]
    exact fun field fieldMem => (writable field fieldMem).shallow

/-- The text of a value gives the tree of the value. -/
theorem Writable.ofSymbols?_compact (writable : value.Writable Node.nestingLimit) :
    Node.ofSymbols? (.ofString value.compact) = some value.node := by
  have read := ofText?_compact writable.legible
  rw [cutAt_node writable.shallow] at read
  exact read

/-- Both texts of a value give the value with its fields in order. -/
theorem Writable.ofText?_text (writable : value.Writable Node.nestingLimit) :
    ∀ text ∈ [value.compact, value.pretty], ofText? text = some value.sorted := by
  simp [ofText?, ofText?_compact writable.legible, ofText?_pretty writable.legible,
    cutAt_node writable.shallow, value?_node]

end Value

namespace Node

variable {Item : Type} {read : Node → Option Item} {fields : List (String × Value)}
  {names : List String}

/-- An array of things that are read back is read back as their list. -/
theorem list?_array {write : Item → Value} {items : List Item}
    (reads : ∀ item ∈ items, read (write item).node = some item) :
    list? read (Value.array (items.map write)).node = some items := by
  rw [Value.node, list?, items?, Option.bind_some, Value.itemNodes_eq_map, List.map_map]
  induction items with
  | nil => rfl
  | cons item items ih =>
      rw [List.forall_mem_cons] at reads
      simp [reads.1, ih reads.2]

/-- An object of things that are read back is read back as its entries. -/
theorem entries?_object {Stored : Type} (write : Stored → Value) (item : Stored → Item)
    {entries : List (String × Stored)}
    (reads : ∀ entry ∈ entries, read (write entry.2).node = some (item entry.2)) :
    entries? read (Value.object (entries.map fun entry => (entry.1, write entry.2))).node =
      some (entries.map fun entry => (entry.1, item entry.2)) := by
  rw [Value.node, entries?, Value.fieldNodes_eq_map, List.map_map]
  induction entries with
  | nil => rfl
  | cons entry entries ih =>
      rw [List.forall_mem_cons] at reads
      rw [List.map_cons, List.mapM_cons, ih reads.2]
      simp [reads.1]

/-- Declared fields that an object gives once are found under their names. -/
theorem declared?_of_once {fields : List (Option String × Node)}
    (known : ∀ field ∈ fields, field.1.isSome)
    (once : ∀ name ∈ names, (fields.map Prod.fst).count (some name) ≤ 1) :
    ∃ members, declared? names fields = some members ∧
      ∀ name, members.lookup name =
        if name ∈ names then fields.lookup (some name) else none := by
  induction fields with
  | nil => exact ⟨[], rfl, by simp⟩
  | cons field fields ih =>
      rcases field with ⟨key, node⟩
      rw [List.forall_mem_cons] at known
      rcases Option.isSome_iff_exists.mp known.1 with ⟨key, rfl⟩
      have rest : ∀ name ∈ names, (fields.map Prod.fst).count (some name) ≤ 1 := by
        intro name nameMem
        exact Nat.le_trans List.count_le_count_cons (once name nameMem)
      rcases ih known.2 rest with ⟨members, declared, lookups⟩
      by_cases isDeclared : key ∈ names
      · have notAgain : some key ∉ fields.map Prod.fst := by
          simpa [List.count_eq_zero] using once key isDeclared
        have fresh : members.lookup key = none := by
          rw [lookups, if_pos isDeclared, lookup_of_notMem notAgain]
        refine ⟨(key, node) :: members, ?_, ?_⟩
        · simp [declared?, declared, isDeclared, fresh]
        · intro name
          by_cases same : name = key
          · subst same
            simp [isDeclared]
          · simp [beq_eq_false_iff_ne.mpr same, List.lookup_cons, lookups]
      · refine ⟨members, ?_, ?_⟩
        · simp [declared?, declared, isDeclared]
        · intro name
          by_cases same : name = key
          · subst same
            simp [isDeclared, lookups]
          · simp [beq_eq_false_iff_ne.mpr same, List.lookup_cons, lookups]

/-- An object whose declared fields are found has only keys that can be read, and each declared one
at most once. -/
theorem once_of_declared? {fields : List (Option String × Node)} {members : Members}
    (found : declared? names fields = some members) :
    (∀ field ∈ fields, field.1.isSome) ∧
      ∀ name ∈ names, (fields.map Prod.fst).count (some name) ≤ 1 := by
  induction fields generalizing members with
  | nil => simp
  | cons field fields ih =>
      rcases field with ⟨key, node⟩
      simp only [declared?, Option.bind_eq_bind, Option.bind_eq_some_iff] at found
      rcases found with ⟨key, rfl, rest, foundRest, found⟩
      rcases ih foundRest with ⟨known, once⟩
      refine ⟨List.forall_mem_cons.mpr ⟨rfl, known⟩, ?_⟩
      intro name nameMem
      by_cases same : name = key
      · subst name
        rcases declared?_of_once known once with ⟨members, declared, lookups⟩
        cases foundRest.symm.trans declared
        have notAgain : some key ∉ fields.map Prod.fst := by
          rw [if_pos (by simpa using nameMem)] at found
          split at found
          · cases found
          · rename_i fresh
            simpa [lookups, nameMem] using fresh
        simp [List.count_eq_zero.mpr notAgain]
      · simpa [List.count_cons, Ne.symm same] using once name nameMem

/-- The declared fields that are found in an object are those that stand under their names. -/
theorem lookup_of_declared? {fields : List (Option String × Node)} {members : Members}
    (found : declared? names fields = some members) {name : String} (nameMem : name ∈ names) :
    members.lookup name = fields.lookup (some name) := by
  rcases once_of_declared? found with ⟨known, once⟩
  rcases declared?_of_once known once with ⟨others, declared, lookups⟩
  cases found.symm.trans declared
  rw [lookups, if_pos nameMem]

/-- The members of an object without a name twice are its fields with these names. -/
theorem declared?_fieldNodes (distinct : (fields.map Prod.fst).Nodup) (names : List String) :
    ∃ members, declared? names (Value.fieldNodes fields) = some members ∧
      ∀ name, members.lookup name =
        if name ∈ names then (fields.lookup name).map Value.node else none := by
  have once : ∀ name ∈ names, ((Value.fieldNodes fields).map Prod.fst).count (some name) ≤ 1 :=
    fun name _ => Value.count_fieldNodes distinct name
  have known : ∀ field ∈ Value.fieldNodes fields, field.1.isSome := by
    rw [Value.fieldNodes_eq_map]
    intro field fieldMem
    rcases List.mem_map.mp fieldMem with ⟨entry, _, rfl⟩
    rfl
  rcases declared?_of_once known once with ⟨members, declared, lookups⟩
  refine ⟨members, declared, ?_⟩
  intro name
  rw [lookups, Value.lookup_fieldNodes]

/-- The declared fields of an object are found under their names. -/
theorem members?_object (distinct : (fields.map Prod.fst).Nodup) (names : List String) :
    ∃ members, members? names (Value.object fields).node = some members ∧
      ∀ name ∈ names, members.lookup name = (fields.lookup name).map Value.node := by
  rcases declared?_fieldNodes distinct names with ⟨members, declared, lookups⟩
  refine ⟨members, declared, ?_⟩
  intro name nameMem
  rw [lookups, if_pos nameMem]

/-- They are found there as well when the fields have been put in order. -/
theorem members?_sorted (distinct : (fields.map Prod.fst).Nodup) (names : List String) :
    ∃ members, members? names (Value.object fields).sorted.node = some members ∧
      ∀ name ∈ names, members.lookup name =
        (fields.lookup name).map fun value => value.sorted.node := by
  have increase : KeysIncrease (Value.sortedFields [] fields) :=
    Value.keysIncrease_sortedFields List.Pairwise.nil
  rcases members?_object increase.nodup names with
    ⟨members, declared, lookups⟩
  refine ⟨members, by rw [Value.sorted, declared], ?_⟩
  intro name nameMem
  rw [lookups name nameMem, Value.lookup_sortedFields distinct, List.lookup_nil, Option.or_none,
    Option.map_map]
  rfl

end Node

end BlockEditor.Json
