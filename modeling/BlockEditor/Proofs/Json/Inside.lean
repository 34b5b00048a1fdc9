import BlockEditor.Proofs.Json.Sorted

/-!
# What holds of everything in a tree

`Node.Everywhere` says that something holds of a node and of everything in it, and `Node.Within`
says in addition that arrays and objects nest no more than a limit, as in the tree of every text
(`Node.Everywhere.within_text`). A value whose tree lies within a limit can be written if its
numbers are integers (`Value.writable_of_within`).

The value of a tree has the fields of every object in order (`Node.sorted_of_value?`) and gives each
of them once, even if the tree does not, and it lies within the limits of the tree
(`Node.within_of_value?`). If the tree gives no declared field twice, it has the same declared
fields as its value (`Node.members?_of_value?`), and lists are read from both alike
(`Node.list?_of_value?`).
-/

namespace BlockEditor.Json

section Lists

variable {Item Image : Type} {read : Item → Option Image} {item : Item} {items : List Item}
  {images : List Image}

theorem mapM_cons_eq_some :
    (item :: items).mapM read = some images ↔
      ∃ image rest, read item = some image ∧ items.mapM read = some rest ∧
        image :: rest = images := by
  simp [List.mapM_cons, Option.bind_eq_some_iff]

theorem length_of_mapM (readAll : items.mapM read = some images) :
    images.length = items.length := by
  induction items generalizing images with
  | nil =>
      cases readAll
      rfl
  | cons item items ih =>
      rcases mapM_cons_eq_some.mp readAll with ⟨image, rest, _, readRest, rfl⟩
      simp [ih readRest]

/-- What a list is read as has only what one of its items is read as. -/
theorem exists_of_mapM (readAll : items.mapM read = some images) :
    ∀ image ∈ images, ∃ item ∈ items, read item = some image := by
  induction items generalizing images with
  | nil =>
      cases readAll
      exact List.forall_mem_nil _
  | cons item items ih =>
      rcases mapM_cons_eq_some.mp readAll with ⟨first, rest, readFirst, readRest, rfl⟩
      intro image imageMem
      rcases List.mem_cons.mp imageMem with rfl | imageMem
      · exact ⟨item, List.mem_cons_self, readFirst⟩
      · rcases ih readRest image imageMem with ⟨other, otherMem, readOther⟩
        exact ⟨other, List.mem_cons_of_mem item otherMem, readOther⟩

/-- If a change of one item changes what is read of it, it changes this image and no other. -/
theorem mapM_modify (readAll : items.mapM read = some images) {index : Nat}
    (atIndex : items[index]? = some item) {change : Item → Item} {changeImage : Image → Image}
    (changed : ∀ image, read item = some image → read (change item) = some (changeImage image)) :
    (items.modify index change).mapM read = some (images.modify index changeImage) := by
  induction items generalizing index images with
  | nil => cases atIndex
  | cons first items ih =>
      rcases mapM_cons_eq_some.mp readAll with ⟨image, rest, readFirst, readRest, rfl⟩
      cases index with
      | zero =>
          cases atIndex
          exact mapM_cons_eq_some.mpr ⟨_, rest, changed image readFirst, readRest, rfl⟩
      | succ index =>
          exact mapM_cons_eq_some.mpr ⟨image, _, readFirst, ih readRest atIndex, rfl⟩

end Lists

namespace Node

/-- The nodes directly inside a node. -/
def children : Node → List Node
  | .array items => items
  | .object fields => fields.map Prod.snd
  | .null | .bool _ | .number _ | .string _ | .unreadable => []

/-- Whether a node is neither an array nor an object. -/
def isLeaf : Node → Bool
  | .array _ | .object _ => false
  | .null | .bool _ | .number _ | .string _ | .unreadable => true

theorem mem_children_of_field {fields : List (Option String × Node)} {field : Option String × Node}
    (fieldMem : field ∈ fields) : field.2 ∈ children (.object fields) :=
  List.mem_map.mpr ⟨field, fieldMem, rfl⟩

/-- What holds of a node whenever it holds of the nodes directly inside holds of all nodes. -/
@[elab_as_elim]
theorem induction {motive : Node → Prop}
    (inside : ∀ node : Node, (∀ child ∈ node.children, motive child) → motive node)
    (node : Node) : motive node := by
  apply @Node.rec motive (fun items => ∀ item ∈ items, motive item)
    (fun fields => ∀ field ∈ fields, motive field.2) (fun field => motive field.2)
  · exact inside .null (List.forall_mem_nil _)
  · exact fun value => inside (.bool value) (List.forall_mem_nil _)
  · exact fun value => inside (.number value) (List.forall_mem_nil _)
  · exact fun value => inside (.string value) (List.forall_mem_nil _)
  · exact inside .unreadable (List.forall_mem_nil _)
  · exact fun items inItems => inside (.array items) inItems
  · exact fun fields inFields => inside (.object fields) (List.forall_mem_map.mpr inFields)
  · exact List.forall_mem_nil _
  · exact fun _ _ holds inItems => List.forall_mem_cons.mpr ⟨holds, inItems⟩
  · exact List.forall_mem_nil _
  · exact fun _ _ holds inFields => List.forall_mem_cons.mpr ⟨holds, inFields⟩
  · exact fun _ _ holds => holds

/-- Something holds of a node and of everything in it. -/
inductive Everywhere (Holds : Node → Prop) : Node → Prop
  | intro {node : Node} (here : Holds node)
      (inside : ∀ child ∈ node.children, child.Everywhere Holds) : node.Everywhere Holds

/-- Something holds of everything in a tree, and its arrays and objects nest no more than a
limit. -/
inductive Within (Holds : Node → Prop) : Nat → Node → Prop
  | leaf {limit : Nat} {node : Node} (here : Holds node) (isLeaf : node.isLeaf = true) :
      node.Within Holds limit
  | branch {limit : Nat} {node : Node} (here : Holds node)
      (inside : ∀ child ∈ node.children, child.Within Holds limit) :
      node.Within Holds (limit + 1)

/-- A number is an integer. -/
def IsWhole (node : Node) : Prop :=
  ∀ number, node = .number number → ∃ value inRange, number = .integer value inRange

/-- An object gives each of some fields at most once. -/
def GivesOnce (names : List String) (node : Node) : Prop :=
  ∀ fields, node = .object fields →
    ∀ name ∈ names, (fields.map Prod.fst).count (some name) ≤ 1

/-- What a node is if it was written with integers for its numbers and no field twice. -/
structure IsTidy (names : List String) (node : Node) : Prop where
  /-- A number is an integer. -/
  whole : node.IsWhole
  /-- No field is given twice. -/
  once : node.GivesOnce names

variable {Holds Other : Node → Prop} {limit : Nat} {node : Node} {value : Value}
  {names : List String}

theorem Everywhere.mono (everywhere : node.Everywhere Holds)
    (weaken : ∀ node, Holds node → Other node) : node.Everywhere Other := by
  induction everywhere with
  | intro here inside ih => exact .intro (weaken _ here) ih

/-- A tree is tidy everywhere if it is whole everywhere and gives each name once everywhere. -/
theorem Everywhere.tidy (whole : node.Everywhere IsWhole)
    (once : node.Everywhere (GivesOnce names)) : node.Everywhere (IsTidy names) := by
  induction whole with
  | intro here inside ih =>
      cases once with
      | intro onceHere onceInside =>
          refine .intro ⟨here, onceHere⟩ ?_
          exact fun child childMem => ih child childMem (onceInside child childMem)

theorem Within.mono (within : node.Within Holds limit)
    (weaken : ∀ node, Holds node → Other node) : node.Within Other limit := by
  induction within with
  | leaf here isLeaf => exact .leaf (weaken _ here) isLeaf
  | branch here inside ih => exact .branch (weaken _ here) ih

/-- What holds within a depth holds everywhere. -/
theorem Within.everywhere (within : node.Within Holds limit) : node.Everywhere Holds := by
  induction within with
  | leaf here isLeaf =>
      refine .intro here ?_
      rename_i node
      cases node with
      | array | object => cases isLeaf
      | null | bool | number | string | unreadable => exact List.forall_mem_nil _
  | branch here inside ih => exact .intro here ih

theorem cutItemsAt_eq_map (limit : Nat) (items : List Node) :
    cutItemsAt limit items = items.map (cutAt limit) := by
  induction items with
  | nil => rfl
  | cons item items ih => rw [cutItemsAt, ih, List.map_cons]

theorem cutFieldsAt_eq_map (limit : Nat) (fields : List (Option String × Node)) :
    cutFieldsAt limit fields = fields.map fun field => (field.1, field.2.cutAt limit) := by
  induction fields with
  | nil => rfl
  | cons field fields ih => rw [cutFieldsAt, ih, List.map_cons]

/-- What has been cut at a limit nests no more than it allows. -/
theorem Everywhere.within (everywhere : (node.cutAt limit).Everywhere Holds) :
    (node.cutAt limit).Within Holds limit := by
  induction node using induction generalizing limit with
  | inside node ih =>
      cases everywhere with
      | intro here inside =>
          cases node with
          | null | bool | number | string | unreadable => exact .leaf here rfl
          | array items =>
              cases limit with
              | zero => exact .leaf here rfl
              | succ limit =>
                  refine .branch here ?_
                  rw [cutAt, children, cutItemsAt_eq_map] at inside ⊢
                  intro child childMem
                  have everywhere := inside child childMem
                  rcases List.mem_map.mp childMem with ⟨item, itemMem, rfl⟩
                  exact ih item itemMem everywhere
          | object fields =>
              cases limit with
              | zero => exact .leaf here rfl
              | succ limit =>
                  refine .branch here ?_
                  rw [cutAt, children, cutFieldsAt_eq_map, List.map_map] at inside ⊢
                  intro child childMem
                  have everywhere := inside child childMem
                  rcases List.mem_map.mp childMem with ⟨field, fieldMem, rfl⟩
                  exact ih field.2 (mem_children_of_field fieldMem) everywhere

/-- The tree of a text nests no more than a text may. -/
theorem Everywhere.within_text {text : String} (read : ofText? text = some node)
    (everywhere : node.Everywhere Holds) : node.Within Holds nestingLimit := by
  rw [ofText?, ofSymbols?, Option.map_eq_some_iff] at read
  rcases read with ⟨whole, _, rfl⟩
  exact everywhere.within

variable {fields : List (Option String × Node)} {before entries : List (String × Value)}

theorem itemValues?_eq_mapM (items : List Node) : itemValues? items = items.mapM value? := by
  induction items with
  | nil => rfl
  | cons item items ih => rw [itemValues?, ih, List.mapM_cons]

theorem fieldValues?_cons {field : Option String × Node} :
    fieldValues? before (field :: fields) = some entries ↔
      ∃ key value, field.1 = some key ∧ field.2.value? = some value ∧
        fieldValues? (insertSorted key value before) fields = some entries := by
  simp [fieldValues?, Option.bind_eq_some_iff]

/-- The fields that are read are in order. -/
theorem keysIncrease_of_fieldValues? (read : fieldValues? before fields = some entries)
    (increase : KeysIncrease before) : KeysIncrease entries := by
  induction fields generalizing before with
  | nil =>
      cases read
      exact increase
  | cons field fields ih =>
      rcases fieldValues?_cons.mp read with ⟨key, value, _, _, readRest⟩
      exact ih readRest (keysIncrease_insertSorted key value increase)

/-- Each field that is read comes from one in the text. -/
theorem exists_of_fieldValues? (read : fieldValues? before fields = some entries) :
    ∀ entry ∈ entries,
      entry ∈ before ∨ ∃ field ∈ fields, field.2.value? = some entry.2 := by
  induction fields generalizing before with
  | nil =>
      cases read
      exact fun _ entryMem => .inl entryMem
  | cons field fields ih =>
      rcases fieldValues?_cons.mp read with ⟨key, value, _, readHere, readRest⟩
      intro entry entryMem
      rcases ih readRest entry entryMem with inserted | ⟨other, otherMem, readOther⟩
      · rcases mem_insertSorted inserted with rfl | entryMem
        · exact .inr ⟨field, List.mem_cons_self, readHere⟩
        · exact .inl entryMem
      · exact .inr ⟨other, List.mem_cons_of_mem field otherMem, readOther⟩

/-- An object has a value only if it has all keys and values. -/
theorem known_of_fieldValues? (read : fieldValues? before fields = some entries) :
    ∀ field ∈ fields, field.1.isSome ∧ field.2.value?.isSome := by
  induction fields generalizing before with
  | nil => exact List.forall_mem_nil _
  | cons field fields ih =>
      rcases fieldValues?_cons.mp read with ⟨key, value, hasKey, hasValue, readRest⟩
      rw [List.forall_mem_cons]
      exact ⟨by simp [hasKey, hasValue], ih readRest⟩

/-- A field that an object gives at most once has the same value in the tree and in the value. -/
theorem lookup_of_fieldValues? (read : fieldValues? before fields = some entries) {name : String}
    (once : (fields.map Prod.fst).count (some name) ≤ 1) :
    entries.lookup name =
      ((fields.lookup (some name)).bind value?).or (before.lookup name) := by
  induction fields generalizing before with
  | nil =>
      cases read
      rfl
  | cons field fields ih =>
      rcases field with ⟨key, node⟩
      rcases fieldValues?_cons.mp read with ⟨key, value, ⟨⟩, hasValue, readRest⟩
      rw [ih readRest (Nat.le_trans List.count_le_count_cons once), lookup_insertSorted]
      by_cases same : name = key
      · subst same
        have notAgain : some name ∉ fields.map Prod.fst := by
          simpa [List.count_eq_zero] using once
        simp [lookup_of_notMem notAgain, hasValue]
      · simp [List.lookup_cons, same, beq_eq_false_iff_ne.mpr same]

/-- Objects in the value of a tree have their fields in order. -/
theorem sorted_of_value? (read : node.value? = some value) : value.sorted = value := by
  induction node using induction generalizing value with
  | inside node ih =>
      cases node with
      | null | bool | number | string =>
          cases read
          rfl
      | unreadable => cases read
      | array items =>
          rw [value?, itemValues?_eq_mapM, Option.map_eq_some_iff] at read
          rcases read with ⟨values, readAll, rfl⟩
          have sorted : ∀ value ∈ values, value.sorted = value := by
            intro value valueMem
            rcases exists_of_mapM readAll value valueMem with ⟨item, itemMem, readItem⟩
            exact ih item itemMem readItem
          rw [Value.sorted, Value.sortedItems_eq_map, map_eq_self_iff.mpr sorted]
      | object fields =>
          rw [value?, Option.map_eq_some_iff] at read
          rcases read with ⟨entries, readAll, rfl⟩
          have sorted : ∀ entry ∈ entries, entry.2.sorted = entry.2 := by
            intro entry entryMem
            rcases exists_of_fieldValues? readAll entry entryMem with
              never | ⟨field, fieldMem, readField⟩
            · cases never
            · exact ih field.2 (mem_children_of_field fieldMem) readField
          have increase := keysIncrease_of_fieldValues? readAll List.Pairwise.nil
          rw [Value.sorted, Value.sortedFields_eq_self increase sorted]

theorem within_leaf (whole : node.IsWhole) (isLeaf : node.isLeaf = true) :
    node.Within (IsTidy names) limit := by
  refine .leaf ⟨whole, ?_⟩ isLeaf
  rintro fields rfl
  cases isLeaf

theorem within_null : null.Within (IsTidy names) limit :=
  within_leaf (by simp [IsWhole]) rfl

theorem within_string (text : String) : (string text).Within (IsTidy names) limit :=
  within_leaf (by simp [IsWhole]) rfl

theorem within_integer {integer : Int} (inRange : IntegerRange integer) :
    (number (.integer integer inRange)).Within (IsTidy names) limit := by
  refine within_leaf ?_ rfl
  rintro number ⟨⟩
  exact ⟨integer, inRange, rfl⟩

theorem within_array {items : List Value}
    (inside : ∀ item ∈ items, item.node.Within (IsTidy names) limit) :
    (Value.array items).node.Within (IsTidy names) (limit + 1) := by
  apply Within.branch
  · constructor <;> simp [Value.node, IsWhole, GivesOnce]
  · simpa [Value.node, children, Value.itemNodes_eq_map] using inside

/-- An object without a name twice is one deeper than its values. -/
theorem within_object {fields : List (String × Value)} (distinct : (fields.map Prod.fst).Nodup)
    (inside : ∀ field ∈ fields, field.2.node.Within (IsTidy names) limit) :
    (Value.object fields).node.Within (IsTidy names) (limit + 1) := by
  apply Within.branch
  · constructor
    · simp [Value.node, IsWhole]
    · rintro others ⟨⟩ name _
      exact Value.count_fieldNodes distinct name
  · rw [Value.node, children, Value.fieldNodes_eq_map, List.map_map, List.forall_mem_map]
    exact inside

/-- The tree of a value that was read keeps the limit of the tree that it was read from, and it is
tidy even if the other tree gives fields twice. -/
theorem within_of_value? (within : node.Within IsWhole limit) (read : node.value? = some value) :
    value.node.Within (IsTidy names) limit := by
  induction within generalizing value with
  | leaf here isLeaf =>
      rename_i node
      cases node with
      | null | bool | number | string =>
          cases read
          exact within_leaf here rfl
      | unreadable => cases read
      | array | object => cases isLeaf
  | branch here inside ih =>
      rename_i node
      cases node with
      | null | bool | number | string =>
          cases read
          exact within_leaf here rfl
      | unreadable => cases read
      | array items =>
          rw [value?, itemValues?_eq_mapM, Option.map_eq_some_iff] at read
          rcases read with ⟨values, readAll, rfl⟩
          apply within_array
          intro value valueMem
          rcases exists_of_mapM readAll value valueMem with ⟨item, itemMem, readItem⟩
          exact ih item itemMem readItem
      | object fields =>
          rw [value?, Option.map_eq_some_iff] at read
          rcases read with ⟨entries, readAll, rfl⟩
          have increase := keysIncrease_of_fieldValues? readAll List.Pairwise.nil
          apply within_object increase.nodup
          intro entry entryMem
          rcases exists_of_fieldValues? readAll entry entryMem with
            never | ⟨field, fieldMem, readField⟩
          · cases never
          · exact ih field.2 (mem_children_of_field fieldMem) readField

variable {members : Members}

/-- A member that is found is the value of a field. -/
theorem exists_of_declared? (found : declared? names fields = some members) :
    ∀ member ∈ members, ∃ field ∈ fields, field.2 = member.2 := by
  induction fields generalizing members with
  | nil =>
      cases found
      exact List.forall_mem_nil _
  | cons field fields ih =>
      rcases field with ⟨key, node⟩
      simp only [declared?, Option.bind_eq_bind, Option.bind_eq_some_iff] at found
      rcases found with ⟨key, rfl, rest, foundRest, found⟩
      have inRest : ∀ member ∈ rest, ∃ field ∈ (some key, node) :: fields, field.2 = member.2 := by
        intro member memberMem
        rcases ih foundRest member memberMem with ⟨field, fieldMem, same⟩
        exact ⟨field, List.mem_cons_of_mem _ fieldMem, same⟩
      split at found
      · split at found
        · cases found
        · cases found
          rw [List.forall_mem_cons]
          exact ⟨⟨_, List.mem_cons_self, rfl⟩, inRest⟩
      · cases found
        exact inRest

/-- A member of a node is a child of it. -/
theorem mem_children_of_members? (found : members? names node = some members) {name : String}
    {child : Node} (isMember : members.lookup name = some child) : child ∈ node.children := by
  cases node with
  | null | bool | number | string | unreadable => cases found
  | array items =>
      rw [members?] at found
      split at found
      · cases found
        exact (List.of_mem_zip (mem_of_lookup isMember)).2
      · cases found
  | object fields =>
      rcases exists_of_declared? found _ (mem_of_lookup isMember) with ⟨field, fieldMem, same⟩
      have childMem := mem_children_of_field fieldMem
      rw [same] at childMem
      exact childMem

/-- A node inside a tree, and the tree of its value. -/
def SameMember (node : Node) (first second : Option Node) : Prop :=
  (first = none ∧ second = none) ∨
    ∃ child ∈ node.children, ∃ value, child.value? = some value ∧ first = some child ∧
      second = some value.node

theorem sameMember_zip {items : List Node} {values : List Value}
    (readAll : items.mapM value? = some values) (inside : ∀ item ∈ items, item ∈ node.children)
    (names : List String) (name : String) :
    node.SameMember ((names.zip items).lookup name)
      ((names.zip (values.map Value.node)).lookup name) := by
  induction items generalizing names values with
  | nil =>
      cases readAll
      exact .inl (by simp)
  | cons item items ih =>
      rcases mapM_cons_eq_some.mp readAll with ⟨value, rest, readItem, readRest, rfl⟩
      rw [List.forall_mem_cons] at inside
      cases names with
      | nil => exact .inl ⟨rfl, rfl⟩
      | cons first names =>
          rw [List.map_cons, List.zip_cons_cons, List.zip_cons_cons]
          by_cases same : name = first
          · subst same
            exact .inr ⟨item, inside.1, value, readItem, by simp, by simp⟩
          · simpa [List.lookup_cons, beq_eq_false_iff_ne.mpr same] using
              ih readRest inside.2 names

/-- A tree that gives no declared field twice has the same declared fields as its value. -/
theorem members?_of_value? (once : node.GivesOnce names) (hasValue : node.value? = some value) :
    (members? names node = none ∧ members? names value.node = none) ∨
      ∃ members again, members? names node = some members ∧
        members? names value.node = some again ∧
          ∀ name ∈ names, node.SameMember (members.lookup name) (again.lookup name) := by
  cases node with
  | null | bool | number | string =>
      cases hasValue
      exact .inl ⟨rfl, rfl⟩
  | unreadable => cases hasValue
  | array items =>
      rw [value?, itemValues?_eq_mapM, Option.map_eq_some_iff] at hasValue
      rcases hasValue with ⟨values, readAll, rfl⟩
      have sameLength := length_of_mapM readAll
      have inside : ∀ item ∈ items, item ∈ children (.array items) := fun _ itemMem => itemMem
      rw [Value.node, Value.itemNodes_eq_map, members?, members?, List.length_map, sameLength]
      split
      · refine .inr ⟨_, _, rfl, rfl, ?_⟩
        intro name _
        exact sameMember_zip readAll inside names name
      · exact .inl ⟨rfl, rfl⟩
  | object fields =>
      rw [value?, Option.map_eq_some_iff] at hasValue
      rcases hasValue with ⟨entries, readAll, rfl⟩
      have known := known_of_fieldValues? readAll
      have increase := keysIncrease_of_fieldValues? readAll List.Pairwise.nil
      have once := once fields rfl
      rcases declared?_of_once (fun field fieldMem => (known field fieldMem).1) once with
        ⟨members, found, lookups⟩
      rcases declared?_fieldNodes increase.nodup names with ⟨again, foundAgain, lookupsAgain⟩
      refine .inr ⟨members, again, found, foundAgain, ?_⟩
      intro name nameMem
      rw [lookups, lookupsAgain, if_pos nameMem, if_pos nameMem,
        lookup_of_fieldValues? readAll (once name nameMem), List.lookup_nil, Option.or_none]
      cases isField : fields.lookup (some name) with
      | none => exact .inl ⟨rfl, rfl⟩
      | some child =>
          have fieldMem := mem_of_lookup isField
          rcases Option.isSome_iff_exists.mp (known _ fieldMem).2 with ⟨inner, readInner⟩
          refine .inr ⟨child, mem_children_of_field fieldMem, inner, readInner, rfl, ?_⟩
          rw [Option.bind_some, readInner, Option.map_some]

variable {Item : Type} {read : Node → Option Item}

/-- Values that are read alike one by one are read alike as a list. -/
theorem mapM_values {items : List Node} {values : List Value}
    (readAll : items.mapM value? = some values)
    (alike : ∀ item ∈ items, ∀ inner, item.value? = some inner → read inner.node = read item) :
    (values.map Value.node).mapM read = items.mapM read := by
  induction items generalizing values with
  | nil =>
      cases readAll
      rfl
  | cons item items ih =>
      rcases mapM_cons_eq_some.mp readAll with ⟨value, rest, readItem, readRest, rfl⟩
      rw [List.forall_mem_cons] at alike
      rw [List.map_cons, List.mapM_cons, List.mapM_cons, alike.1 value readItem,
        ih readRest alike.2]

/-- A list is read from a tree and from its value alike if its items are. -/
theorem list?_of_value? (hasValue : node.value? = some value)
    (alike : ∀ child ∈ node.children, ∀ inner, child.value? = some inner →
      read inner.node = read child) : list? read value.node = list? read node := by
  cases node with
  | null | bool | number | string =>
      cases hasValue
      rfl
  | unreadable => cases hasValue
  | array items =>
      rw [value?, itemValues?_eq_mapM, Option.map_eq_some_iff] at hasValue
      rcases hasValue with ⟨values, readAll, rfl⟩
      rw [Value.node, Value.itemNodes_eq_map]
      exact mapM_values readAll alike
  | object fields =>
      rw [value?, Option.map_eq_some_iff] at hasValue
      rcases hasValue with ⟨entries, _, rfl⟩
      rfl

end Node

namespace Value

variable {value : Value} {limit : Nat}

/-- A value with no numbers but integers can be written. -/
theorem writable_of_within (within : value.node.Within Node.IsWhole limit) :
    value.Writable limit := by
  induction value using induction generalizing limit with
  | null => exact writable_null
  | bool value => exact writable_bool value
  | number number =>
      cases within.everywhere with
      | intro here inside =>
          rcases here number rfl with ⟨value, inRange, rfl⟩
          exact writable_integer inRange
  | string text => exact writable_string text
  | array items ih =>
      cases within with
      | leaf here isLeaf => cases isLeaf
      | branch here inside =>
          rw [node, Node.children, itemNodes_eq_map, List.forall_mem_map] at inside
          exact writable_array fun item itemMem => ih item itemMem (inside item itemMem)
  | object fields ih =>
      cases within with
      | leaf here isLeaf => cases isLeaf
      | branch here inside =>
          rw [node, Node.children, fieldNodes_eq_map, List.map_map, List.forall_mem_map] at inside
          exact writable_object fun field fieldMem => ih field fieldMem (inside field fieldMem)

end Value

end BlockEditor.Json
