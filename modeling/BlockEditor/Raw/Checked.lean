/-!
# Positions that have to be there

A list that is read or changed at a position has to have this position. The four operations here
end with an error if it has not: `item` reads, `write` replaces, `insertItem` puts an item between
two others, and `takeItem` takes one out.
-/

namespace BlockEditor

/-- A position that a list does not have. -/
structure OutOfRange where
  /-- The position. -/
  position : Nat
  /-- The number of items of the list. -/
  length : Nat
deriving DecidableEq, Repr

namespace Checked

variable {Item : Type}

/-- The item at a position. -/
def item (items : List Item) (position : Nat) : Except OutOfRange Item :=
  match items[position]? with
  | some item => .ok item
  | none => .error ⟨position, items.length⟩

/-- The list with another item at a position. -/
def write (items : List Item) (position : Nat) (item : Item) : Except OutOfRange (List Item) :=
  if position < items.length then .ok (items.set position item)
  else .error ⟨position, items.length⟩

/-- The list with one more item, which stands at a position; this may be the end of the list. -/
def insertItem (items : List Item) (position : Nat) (item : Item) :
    Except OutOfRange (List Item) :=
  if position ≤ items.length then .ok (items.insertIdx position item)
  else .error ⟨position, items.length⟩

/-- The item at a position, and the list without it. -/
def takeItem (items : List Item) (position : Nat) : Except OutOfRange (Item × List Item) :=
  match items[position]? with
  | some item => .ok (item, items.eraseIdx position)
  | none => .error ⟨position, items.length⟩

end Checked

end BlockEditor
