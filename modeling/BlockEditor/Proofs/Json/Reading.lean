import BlockEditor.Json.Reading
import BlockEditor.Proofs.Json.Tree

/-!
# Readers of trees and the nesting limit

A reader reads a value as an item if it gives the item wherever the nesting limit leaves the value
whole, and nothing where it does not. A reader of lists reads the values of its items as the list of
the items.
-/

namespace BlockEditor.Json

namespace Node

variable {Stored Item : Type} {read : Node → Option Item} {write : Stored → Value}
  {again : Stored → Item} {items : List Stored}

/-- Within every limit that a value keeps, a reader gives an item, and beyond it nothing. -/
def ReadsAs (read : Node → Option Item) (value : Value) (item : Item) : Prop :=
  ∀ limit, read (value.node.cutAt limit) = if value.depth ≤ limit then some item else none

theorem readsAs_text (text : String) : ReadsAs text? (.string text) text := by
  intro limit
  simp [Value.node, cutAt, text?, Value.depth]

/-- Items are read within a limit exactly if all of them keep it. -/
theorem mapM_cut {limit : Nat}
    (reads : ∀ item ∈ items, ReadsAs read (write item) (again item)) :
    (cutItemsAt limit (Value.itemNodes (items.map write))).mapM read =
      if Value.itemsDepth (items.map write) ≤ limit then some (items.map again) else none := by
  induction items with
  | nil => simp [Value.itemNodes, cutItemsAt, Value.itemsDepth]
  | cons item items ih =>
      rw [List.forall_mem_cons] at reads
      rw [List.map_cons, Value.itemNodes, cutItemsAt, List.mapM_cons, reads.1, ih reads.2,
        Value.itemsDepth]
      simp only [Nat.max_le]
      by_cases here : (write item).depth ≤ limit <;>
        by_cases there : Value.itemsDepth (items.map write) ≤ limit <;>
          simp [here, there]

/-- An array is read as the list of what its items are read as. -/
theorem readsAs_list (reads : ∀ item ∈ items, ReadsAs read (write item) (again item)) :
    ReadsAs (list? read) (.array (items.map write)) (items.map again) := by
  intro limit
  rw [Value.node, Value.depth]
  cases limit with
  | zero => simp [cutAt, list?, items?]
  | succ limit =>
      rw [cutAt, list?, items?, Option.bind_some, mapM_cut reads]
      simp only [Nat.succ_le_succ_iff]

end Node

end BlockEditor.Json
