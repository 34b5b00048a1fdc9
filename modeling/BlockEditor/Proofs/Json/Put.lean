import BlockEditor.Proofs.Json.Inside

/-!
# Values with one part replaced

`Value.put` gives an object another value under a key, and `Value.modifyItem` and
`Value.modifyField` change what stands at a place of an array or an object. A reader of declared
fields finds the new value under its key and everything else as before (`Node.members?_put`), and a
reader of lists reads a list with one other item (`Node.list?_modifyItem`).
-/

namespace BlockEditor.Json

/-- Inserting a new key adds one entry. -/
theorem insertSorted_perm {Item : Type} {key : String} {item : Item}
    {entries : List (String × Item)} (notMem : key ∉ entries.map Prod.fst) :
    (insertSorted key item entries).Perm ((key, item) :: entries) := by
  induction entries with
  | nil => exact .refl _
  | cons entry entries ih =>
      rcases entry with ⟨other, kept⟩
      simp only [List.map_cons, List.mem_cons, not_or] at notMem
      rw [insertSorted, if_neg notMem.1]
      split
      · exact .refl _
      · exact ((ih notMem.2).cons _).trans (.swap _ _ _)

namespace Value

/-- The fields of an object with a value under a key, in place of what may stand there. -/
def putField (key : String) (item : Value) (fields : List (String × Value)) :
    List (String × Value) :=
  insertSorted key item (fields.filter fun field => field.1 ≠ key)

/-- An object with a value under a key, in place of what may stand there. -/
def put (value : Value) (key : String) (item : Value) : Value :=
  match value with
  | .object fields => .object (putField key item fields)
  | value => value

/-- The item at an index of an array. -/
def item? (value : Value) (index : Nat) : Option Value :=
  match value with
  | .array items => items[index]?
  | _ => none

/-- An array in which the item at an index has been changed. -/
def modifyItem (value : Value) (index : Nat) (change : Value → Value) : Value :=
  match value with
  | .array items => .array (items.modify index change)
  | value => value

/-- An object in which the value under a key has been changed. -/
def modifyField (value : Value) (key : String) (change : Value → Value) : Value :=
  match value.field? key with
  | some item => value.put key (change item)
  | none => value

variable {fields : List (String × Value)}

/-- A field that is put is found under its key, and all others are found as before. -/
theorem lookup_putField (key name : String) (item : Value) (fields : List (String × Value)) :
    (putField key item fields).lookup name =
      if name = key then some item else fields.lookup name := by
  rw [putField, lookup_insertSorted]
  split
  · rfl
  · rename_i different
    induction fields with
    | nil => rfl
    | cons field fields ih =>
        rcases field with ⟨other, kept⟩
        by_cases same : other = key
        · subst other
          rw [List.filter_cons_of_neg (by simp), ih, List.lookup_cons,
            beq_eq_false_iff_ne.mpr different]
        · rw [List.filter_cons_of_pos (by simpa using same), List.lookup_cons, List.lookup_cons, ih]

theorem count_putField {name : String} (once : (fields.map Prod.fst).count name ≤ 1) (key : String)
    (item : Value) : ((putField key item fields).map Prod.fst).count name ≤ 1 := by
  have gone : key ∉ (fields.filter fun field => field.1 ≠ key).map Prod.fst := by simp
  rw [putField, ((insertSorted_perm gone).map Prod.fst).count_eq name, List.map_cons,
    List.count_cons]
  by_cases same : key = name
  · subst name
    rw [List.count_eq_zero.mpr gone, beq_self_eq_true, if_pos rfl]
  · rw [beq_eq_false_iff_ne.mpr same, if_neg Bool.false_ne_true, Nat.add_zero]
    exact Nat.le_trans ((List.filter_sublist.map Prod.fst).count_le name) once

end Value

namespace Node

variable {fields : List (String × Value)} {names : List String} {members : Members} {key : String}

/-- Another value under a declared key is found there, and everything else as before. -/
theorem members?_put (found : members? names (Value.object fields).node = some members)
    (keyMem : key ∈ names) (item : Value) :
    ∃ again, members? names ((Value.object fields).put key item).node = some again ∧
      again.lookup key = some item.node ∧
      ∀ name ∈ names, name ≠ key → again.lookup name = members.lookup name := by
  have sameCount : ∀ (fields : List (String × Value)) (name : String),
      ((Value.fieldNodes fields).map Prod.fst).count (some name) =
        (fields.map Prod.fst).count name := by
    intro fields name
    simp [Value.fieldNodes_eq_map, List.count_eq_countP, List.countP_map, Function.comp_def]
  have once := (once_of_declared? found).2
  have known : ∀ field ∈ Value.fieldNodes (Value.putField key item fields), field.1.isSome := by
    rw [Value.fieldNodes_eq_map]
    exact List.forall_mem_map.mpr fun _ _ => rfl
  have onceAgain : ∀ name ∈ names, ((Value.fieldNodes
      (Value.putField key item fields)).map Prod.fst).count (some name) ≤ 1 := by
    intro name nameMem
    rw [sameCount]
    exact Value.count_putField (sameCount fields name ▸ once name nameMem) key item
  rcases declared?_of_once known onceAgain with ⟨again, declared, lookups⟩
  refine ⟨again, declared, ?_, ?_⟩
  · rw [lookups, if_pos keyMem, Value.lookup_fieldNodes, Value.lookup_putField, if_pos rfl]
    rfl
  · intro name nameMem different
    rw [lookups, if_pos nameMem, Value.lookup_fieldNodes, Value.lookup_putField, if_neg different,
      ← Value.lookup_fieldNodes]
    exact (lookup_of_declared? found nameMem).symm

/-- A change of one item of a list changes what is read of this item and nothing else. -/
theorem list?_modifyItem {Item : Type} {read : Node → Option Item} {value item : Value}
    {images : List Item} {index : Nat} (readAll : list? read value.node = some images)
    (atIndex : value.item? index = some item) {change : Value → Value} {changeImage : Item → Item}
    (changed : ∀ image, read item.node = some image →
      read (change item).node = some (changeImage image)) :
    list? read (value.modifyItem index change).node = some (images.modify index changeImage) := by
  cases value with
  | array items =>
      rw [Value.node, list?, items?, Option.bind_some, Value.itemNodes_eq_map,
        List.mapM_map] at readAll
      rw [Value.modifyItem, Value.node, list?, items?, Option.bind_some, Value.itemNodes_eq_map,
        List.mapM_map]
      exact mapM_modify readAll atIndex changed
  | _ => cases atIndex

end Node

end BlockEditor.Json
