import BlockEditor.Raw.Checked
import Mathlib.Data.List.Forall2

/-!
# Checked computations and what they stand for

A computation with checked positions stands for a value if it ends without an error, with something
that is the same as the value in the sense of a given relation (`Checked.Yields`). Such statements
are put together along the steps of a computation. A loop along a list splits it at its position
into what it has passed and what is still to come; a position that is the number of items passed is
there as long as something is to come.
-/

namespace BlockEditor

variable {Raw Value OtherRaw OtherValue Item : Type}

namespace Checked

/-- A computation ends without an error, with something that is the same as a value. -/
def Yields (Same : Raw → Value → Prop) (result : Except OutOfRange Raw) (value : Value) : Prop :=
  ∃ raw, result = .ok raw ∧ Same raw value

variable {Same : Raw → Value → Prop} {SameOther : OtherRaw → OtherValue → Prop}
  {result : Except OutOfRange Raw} {value : Value}

theorem yields_ok {raw : Raw} (same : Same raw value) : Yields Same (.ok raw) value :=
  ⟨raw, rfl, same⟩

@[simp]
theorem ok_bind (raw : Raw) (next : Raw → Except OutOfRange OtherRaw) :
    (Except.ok raw >>= next) = next raw := rfl

theorem Yields.bind (first : Yields Same result value) {next : Raw → Except OutOfRange OtherRaw}
    {other : OtherValue} (goesOn : ∀ raw, Same raw value → Yields SameOther (next raw) other) :
    Yields SameOther (result >>= next) other := by
  rcases first with ⟨raw, rfl, same⟩
  exact goesOn raw same

theorem Yields.mono (yields : Yields Same result value) {Weaker : Raw → Value → Prop}
    (implies : ∀ raw, Same raw value → Weaker raw value) : Yields Weaker result value := by
  rcases yields with ⟨raw, done, same⟩
  exact ⟨raw, done, implies raw same⟩

theorem item_eq_ok {items : List Item} {position : Nat} {here : Item}
    (found : items[position]? = some here) : item items position = .ok here := by
  rw [item, found]

theorem write_eq_ok {items : List Item} {position : Nat} (inRange : position < items.length)
    (new : Item) : write items position new = .ok (items.set position new) := by
  rw [write, if_pos inRange]

theorem insertItem_eq_ok {items : List Item} {position : Nat} (inRange : position ≤ items.length)
    (new : Item) : insertItem items position new = .ok (items.insertIdx position new) := by
  rw [insertItem, if_pos inRange]

theorem takeItem_eq_ok {items : List Item} {position : Nat} {here : Item}
    (found : items[position]? = some here) :
    takeItem items position = .ok (here, items.eraseIdx position) := by
  rw [takeItem, found]

variable (passed rest : List Item) (here new : Item)

/-- Behind what a loop has passed stands the item that comes next. -/
@[simp]
theorem item_passed : item (passed ++ here :: rest) passed.length = .ok here :=
  item_eq_ok (by simp)

@[simp]
theorem write_passed :
    write (passed ++ here :: rest) passed.length new = .ok (passed ++ new :: rest) := by
  rw [write_eq_ok (by simp)]
  simp

@[simp]
theorem insertItem_passed :
    insertItem (passed ++ rest) passed.length new = .ok (passed ++ new :: rest) := by
  have between : (passed ++ rest).insertIdx passed.length new = passed ++ new :: rest := by
    induction passed with
    | nil => rfl
    | cons first others ih => simp [ih]
  rw [insertItem_eq_ok (by simp), between]

end Checked

variable {Same : Raw → Value → Prop} {SameOther : OtherRaw → OtherValue → Prop} {raws : List Raw}
  {values : List Value} {raw : Raw} {value : Value} {raw? : Option Raw} {value? : Option Value}

theorem rel_cases (same : Option.Rel Same raw? value?) :
    (raw? = none ∧ value? = none) ∨
      ∃ raw value, raw? = some raw ∧ value? = some value ∧ Same raw value := by
  cases same with
  | none => exact .inl ⟨rfl, rfl⟩
  | some same => exact .inr ⟨_, _, rfl, rfl, same⟩

/-- Partial steps that go on alike give results that are alike. -/
theorem rel_bind (same : Option.Rel Same raw? value?) {next : Raw → Option OtherRaw}
    {nextValue : Value → Option OtherValue}
    (goesOn : ∀ raw value, Same raw value → Option.Rel SameOther (next raw) (nextValue value)) :
    Option.Rel SameOther (raw?.bind next) (value?.bind nextValue) := by
  cases same with
  | none => exact .none
  | some same => exact goesOn _ _ same

/-- What is still to come at a position begins with the item there. -/
theorem of_drop_eq_cons {items rest : List Item} {position : Nat} {here : Item}
    (toCome : items.drop position = here :: rest) :
    items[position]? = some here ∧ items.drop (position + 1) = rest := by
  constructor
  · rw [← Nat.add_zero position, ← List.getElem?_drop, toCome]
    rfl
  · rw [← List.drop_drop, toCome]
    rfl

/-- Lists of the same items have the same items at every position. -/
theorem rel_getElem? (same : List.Forall₂ Same raws values) (position : Nat) :
    Option.Rel Same raws[position]? values[position]? := by
  induction same generalizing position with
  | nil => exact .none
  | cons here _ ih =>
      cases position with
      | zero => exact .some here
      | succ position => exact ih position

/-- Lists that are alike stay so when items that are alike are set at one position. -/
theorem forall₂_set (same : List.Forall₂ Same raws values) (position : Nat)
    (new : Same raw value) :
    List.Forall₂ Same (raws.set position raw) (values.set position value) := by
  induction same generalizing position with
  | nil => exact .nil
  | cons here rest ih =>
      cases position with
      | zero => exact .cons new rest
      | succ position => exact .cons here (ih position)

theorem forall₂_insertIdx (same : List.Forall₂ Same raws values) (position : Nat)
    (new : Same raw value) :
    List.Forall₂ Same (raws.insertIdx position raw) (values.insertIdx position value) := by
  induction same generalizing position with
  | nil =>
      cases position with
      | zero => exact .cons new .nil
      | succ position => exact .nil
  | cons here rest ih =>
      cases position with
      | zero => exact .cons new (.cons here rest)
      | succ position => exact .cons here (ih position)

theorem forall₂_eraseIdx (same : List.Forall₂ Same raws values) (position : Nat) :
    List.Forall₂ Same (raws.eraseIdx position) (values.eraseIdx position) := by
  induction same generalizing position with
  | nil => exact .nil
  | cons here rest ih =>
      cases position with
      | zero => exact rest
      | succ position => exact .cons here (ih position)

end BlockEditor
