/-!
# Computations that may end with an error

Readers and loaders give a result or an error and stop at the first error. These lemmas take such a
computation apart: it gives a result exactly when each of its parts does.
-/

namespace BlockEditor

variable {Error Value Result : Type} {first : Except Error Value}

theorem bind_eq_ok {next : Value → Except Error Result} {result : Result} :
    (first >>= next) = .ok result ↔ ∃ value, first = .ok value ∧ next value = .ok result := by
  cases first with
  | error error => simp [bind, Except.bind]
  | ok value => simp [bind, Except.bind]

theorem bind_eq_error {next : Value → Except Error Result} {error : Error} :
    (first >>= next) = .error error ↔
      first = .error error ∨ ∃ value, first = .ok value ∧ next value = .error error := by
  cases first with
  | error error => simp [bind, Except.bind]
  | ok value => simp [bind, Except.bind]

theorem map_eq_ok {change : Value → Result} {result : Result} :
    first.map change = .ok result ↔ ∃ value, first = .ok value ∧ change value = result := by
  cases first with
  | error error => simp [Except.map]
  | ok value => simp [Except.map]

theorem map_eq_error {change : Value → Result} {error : Error} :
    first.map change = .error error ↔ first = .error error := by
  cases first <;> simp [Except.map]

theorem exists_ok_iff : (∃ value, first = .ok value) ↔ first.map (fun _ => ()) = .ok () := by
  cases first with
  | error error => simp [Except.map]
  | ok value => simp [Except.map]

theorem map_bind {Image : Type} (change : Result → Image) (next : Value → Except Error Result) :
    (first >>= next).map change = first >>= fun value => (next value).map change := by
  cases first <;> rfl

/-- Two computations that go on from results that are the same up to what two functions forget are
the same up to what two others forget, if this holds of how they go on. -/
theorem map_bind_congr {OtherValue OtherResult Image ResultImage : Type}
    {second : Except Error OtherValue} {forget : Value → Image} {forgetOther : OtherValue → Image}
    {forgetResult : Result → ResultImage} {forgetOtherResult : OtherResult → ResultImage}
    {next : Value → Except Error Result} {otherNext : OtherValue → Except Error OtherResult}
    (same : first.map forget = second.map forgetOther)
    (agree : ∀ value other, forget value = forgetOther other →
      (next value).map forgetResult = (otherNext other).map forgetOtherResult) :
    (first >>= next).map forgetResult = (second >>= otherNext).map forgetOtherResult := by
  rcases first with error | value <;> rcases second with otherError | other
  · cases same
    rfl
  · cases same
  · cases same
  · exact agree value other (Except.ok.inj same)

section Check

variable {Thing : Type} {check : Thing → Except Error Unit} {things : List Thing} {error : Error}

/-- A check of all things passes exactly if it passes for each of them. -/
theorem forM_eq_ok : forM things check = .ok () ↔ ∀ thing ∈ things, check thing = .ok () := by
  induction things with
  | nil => exact ⟨fun _ _ thingMem => absurd thingMem List.not_mem_nil, fun _ => rfl⟩
  | cons thing rest ih =>
      rw [List.forM_cons, bind_eq_ok, List.forall_mem_cons, ← ih]
      constructor
      · rintro ⟨_, here, others⟩
        exact ⟨here, others⟩
      · rintro ⟨here, others⟩
        exact ⟨(), here, others⟩

/-- A check of several things ends with the error of the first thing that has one. -/
theorem forM_eq_error : forM things check = .error error ↔
    ∃ before thing after, things = before ++ thing :: after ∧
      (∀ other ∈ before, check other = .ok ()) ∧ check thing = .error error := by
  induction things with
  | nil =>
      constructor
      · intro done
        cases done
      · rintro ⟨before, thing, after, split, _⟩
        simp at split
  | cons first rest ih =>
      rw [List.forM_cons]
      cases here : check first with
      | error other =>
          constructor
          · intro same
            exact ⟨[], first, rest, rfl, by simp, here.trans same⟩
          · rintro ⟨before, thing, after, split, passed, fault⟩
            rcases List.cons_eq_append_iff.mp split with ⟨rfl, same⟩ | ⟨others, rfl, _⟩
            · cases same
              exact here.symm.trans fault
            · cases here.symm.trans (passed first List.mem_cons_self)
      | ok done =>
          refine ih.trans ⟨?_, ?_⟩
          · rintro ⟨before, thing, after, rfl, passed, fault⟩
            refine ⟨first :: before, thing, after, rfl, ?_, fault⟩
            exact List.forall_mem_cons.mpr ⟨here, passed⟩
          · rintro ⟨before, thing, after, split, passed, fault⟩
            rcases List.cons_eq_append_iff.mp split with ⟨rfl, same⟩ | ⟨others, rfl, rfl⟩
            · cases same
              cases here.symm.trans fault
            · exact ⟨others, thing, after, rfl, (List.forall_mem_cons.mp passed).2, fault⟩

end Check

section ReadFrom

variable {Thing Image : Type} {read : Nat → Thing → Except Error Image} {index : Nat}
  {things : List Thing} {images : List Image} {error : Error}

/-- What things are read as one after the other, each with its position from an index on. -/
def readFrom (read : Nat → Thing → Except Error Image) (index : Nat) :
    List Thing → Except Error (List Image)
  | [] => .ok []
  | thing :: rest => do
    let first ← read index thing
    let others ← readFrom read (index + 1) rest
    return first :: others

/-- Things are read from a position on, the first one there and the others behind it. -/
theorem readFrom_cons_eq_ok {thing : Thing} :
    readFrom read index (thing :: things) = .ok images ↔
      ∃ first others, read index thing = .ok first ∧
        readFrom read (index + 1) things = .ok others ∧ first :: others = images := by
  simp only [readFrom, bind_eq_ok, pure, Except.pure, Except.ok.injEq]
  constructor
  · rintro ⟨first, here, others, there, rfl⟩
    exact ⟨first, others, here, there, rfl⟩
  · rintro ⟨first, others, here, there, rfl⟩
    exact ⟨first, here, others, there, rfl⟩

theorem readFrom_cons_eq_error {thing : Thing} :
    readFrom read index (thing :: things) = .error error ↔
      read index thing = .error error ∨ ∃ first, read index thing = .ok first ∧
        readFrom read (index + 1) things = .error error := by
  simp only [readFrom, bind_eq_error, pure, Except.pure, reduceCtorEq, and_false, exists_false,
    or_false]

/-- Things are read as images exactly if at every position the thing is read as the image. -/
theorem readFrom_eq_ok :
    readFrom read index things = .ok images ↔
      images.length = things.length ∧ ∀ offset thing image, things[offset]? = some thing →
        images[offset]? = some image → read (index + offset) thing = .ok image := by
  induction things generalizing index images with
  | nil => simp [readFrom, eq_comm]
  | cons thing rest ih =>
      rw [readFrom_cons_eq_ok]
      constructor
      · rintro ⟨first, others, here, there, rfl⟩
        rcases ih.mp there with ⟨sameLength, each⟩
        refine ⟨congrArg Nat.succ sameLength, ?_⟩
        rintro (_ | offset) other image atOffset imageAtOffset
        · cases atOffset
          cases imageAtOffset
          exact here
        · rw [← Nat.add_assoc, Nat.add_right_comm]
          exact each offset other image atOffset imageAtOffset
      · rintro ⟨sameLength, each⟩
        cases images with
        | nil => cases sameLength
        | cons first others =>
            refine ⟨first, others, each 0 thing first rfl rfl, ?_, rfl⟩
            refine ih.mpr ⟨Nat.succ.inj sameLength, ?_⟩
            intro offset other image atOffset imageAtOffset
            rw [Nat.add_right_comm, Nat.add_assoc]
            exact each (offset + 1) other image atOffset imageAtOffset

/-- Things are read exactly if each of them is at its position. -/
theorem exists_readFrom :
    (∃ images, readFrom read index things = .ok images) ↔
      ∀ offset thing, things[offset]? = some thing →
        ∃ image, read (index + offset) thing = .ok image := by
  induction things generalizing index with
  | nil => simp [readFrom]
  | cons thing rest ih =>
      simp only [readFrom_cons_eq_ok]
      constructor
      · rintro ⟨_, first, others, here, there, rfl⟩ (_ | offset) other atOffset
        · cases atOffset
          exact ⟨first, here⟩
        · rw [← Nat.add_assoc, Nat.add_right_comm]
          exact ih.mp ⟨others, there⟩ offset other atOffset
      · intro each
        have later : ∀ offset other, rest[offset]? = some other →
            ∃ image, read (index + 1 + offset) other = .ok image := by
          intro offset other atOffset
          rw [Nat.add_right_comm, Nat.add_assoc]
          exact each (offset + 1) other atOffset
        rcases each 0 thing rfl with ⟨first, here⟩
        rcases ih.mpr later with ⟨others, there⟩
        exact ⟨first :: others, first, others, here, there, rfl⟩

/-- If what things can be read does not depend on their positions, then all of them are read exactly
if each one can be. -/
theorem exists_readFrom_iff {Readable : Thing → Prop}
    (anywhere : ∀ index thing, (∃ image, read index thing = .ok image) ↔ Readable thing) :
    (∃ images, readFrom read index things = .ok images) ↔ ∀ thing ∈ things, Readable thing := by
  simp only [exists_readFrom, anywhere, List.mem_iff_getElem?, forall_exists_index]
  exact forall_comm

/-- Reading things ends with the error of the first thing that has one. -/
theorem readFrom_eq_error :
    readFrom read index things = .error error ↔
      ∃ before thing after, things = before ++ thing :: after ∧
        (∃ images, readFrom read index before = .ok images) ∧
          read (index + before.length) thing = .error error := by
  induction things generalizing index with
  | nil => simp [readFrom]
  | cons first rest ih =>
      rw [readFrom_cons_eq_error, ih]
      constructor
      · rintro (here | ⟨image, here, before, thing, after, rfl, ⟨images, passed⟩, fault⟩)
        · exact ⟨[], first, rest, rfl, ⟨[], rfl⟩, here⟩
        · refine ⟨first :: before, thing, after, rfl, ⟨image :: images, ?_⟩, ?_⟩
          · exact readFrom_cons_eq_ok.mpr ⟨image, images, here, passed, rfl⟩
          · rw [List.length_cons, ← Nat.add_assoc, Nat.add_right_comm, fault]
      · rintro ⟨before, thing, after, split, ⟨images, passed⟩, fault⟩
        rcases List.cons_eq_append_iff.mp split with ⟨rfl, same⟩ | ⟨others, rfl, rfl⟩
        · cases same
          exact .inl fault
        · rcases readFrom_cons_eq_ok.mp passed with ⟨image, images, here, passed, _⟩
          refine .inr ⟨image, here, others, thing, after, rfl, ⟨images, passed⟩, ?_⟩
          rw [Nat.add_right_comm, Nat.add_assoc, ← List.length_cons, fault]

/-- If a change of one thing changes what is read of it, it changes this image and no other. -/
theorem readFrom_modify (readAll : readFrom read index things = .ok images) {offset : Nat}
    {change : Thing → Thing} {changeImage : Image → Image}
    (changed : ∀ thing image, things[offset]? = some thing →
      read (index + offset) thing = .ok image →
        read (index + offset) (change thing) = .ok (changeImage image)) :
    readFrom read index (things.modify offset change) =
      .ok (images.modify offset changeImage) := by
  rcases readFrom_eq_ok.mp readAll with ⟨sameLength, each⟩
  refine readFrom_eq_ok.mpr ⟨by simpa using sameLength, ?_⟩
  intro other otherThing image atOther imageAtOther
  rw [List.getElem?_modify, Option.map_eq_map, Option.map_eq_some_iff] at atOther imageAtOther
  rcases atOther with ⟨before, atOther, rfl⟩
  rcases imageAtOther with ⟨imageBefore, imageAtOther, rfl⟩
  have readBefore := each other before imageBefore atOther imageAtOther
  by_cases same : offset = other
  · subst same
    simpa using changed before imageBefore atOther readBefore
  · simpa [same] using readBefore

end ReadFrom

end BlockEditor
