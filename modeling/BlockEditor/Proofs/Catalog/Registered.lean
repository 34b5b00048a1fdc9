import BlockEditor.Proofs.Catalog.Marks
import BlockEditor.Proofs.Schema.Faults

/-!
# Registering a batch

A batch is registered as a whole or not at all. `Catalog.Registered` says what a catalog is after a
batch has been registered, in terms of the records of the batch: under an identifier lies the format
of the last record with it. `Catalog.AllOrNothing` adds when a batch is refused and with which
error: that of the first record that is refused at its position, and of this record the first one.
-/

namespace BlockEditor

open Json

/-- A format that no other one with its identifier follows is the last one with it. -/
theorem BlockFormat.lastNamed?_append_cons {id : String} {before after : List BlockFormat}
    {format : BlockFormat} (named : format.id = id) (others : ∀ other ∈ after, other.id ≠ id) :
    lastNamed? id (before ++ format :: after) = some format := by
  have behind : after.reverse.find? (fun format => decide (format.id = id)) = none := by
    simpa using others
  rw [lastNamed?, List.reverse_append, List.reverse_cons, List.append_assoc, List.find?_append,
    behind]
  simp [named]

namespace Catalog

variable {catalog after : Catalog} {batch : Value} {values : List Value} {count : Nat}
  {error : SchemaError}

/-- A catalog has become another one by the records of a batch, which are all accepted. -/
structure Registered (catalog : Catalog) (values : List Value) (after : Catalog) (count : Nat) :
    Prop where
  /-- The records are counted. -/
  counted : count = values.length
  /-- Each record gives a format at its position. -/
  accepted : ∀ index value, values[index]? = some value →
    ∃ format, SchemaRecord.formatAt index value = .ok format
  /-- Under an identifier lies the format of the last record that has it. -/
  last : ∀ before value rest id, values = before ++ value :: rest →
    value.field? "id" = some (.string id) →
    (∀ other ∈ rest, other.field? "id" ≠ some (.string id)) →
      ∃ format, SchemaRecord.formatAt before.length value = .ok format ∧
        after.lookup id = some format
  /-- Under an identifier that no record has lies what lay there before. -/
  others : ∀ id, (∀ value ∈ values, value.field? "id" ≠ some (.string id)) →
    after.lookup id = catalog.lookup id
  /-- Of the catalog only the formats have changed. -/
  rest : after = { catalog with formats := after.formats }

section Formats

variable {formats : List BlockFormat} (sameLength : formats.length = values.length)
  (each : ∀ index value format, values[index]? = some value → formats[index]? = some format →
    SchemaRecord.formatAt index value = .ok format)

include sameLength each

/-- The record that a format comes from has its identifier. -/
theorem exists_record {index : Nat} {format : BlockFormat}
    (atIndex : formats[index]? = some format) :
    ∃ value, values[index]? = some value ∧ value.field? "id" = some (.string format.id) := by
  rcases List.getElem?_eq_some_iff.mp atIndex with ⟨inRange, _⟩
  rw [sameLength] at inRange
  have valueAtIndex : values[index]? = some values[index] := List.getElem?_eq_getElem inRange
  exact ⟨_, valueAtIndex, SchemaRecord.field?_of_formatAt (each index _ _ valueAtIndex atIndex)⟩

/-- The record that no other one with its identifier follows gives the last format with this
identifier. -/
theorem lastNamed?_of_last {before rest : List Value} {value : Value} {id : String}
    (split : values = before ++ value :: rest) (named : value.field? "id" = some (.string id))
    (unnamed : ∀ other ∈ rest, other.field? "id" ≠ some (.string id)) :
    ∃ format, SchemaRecord.formatAt before.length value = .ok format ∧
      BlockFormat.lastNamed? id formats = some format := by
  subst split
  have inRange : before.length < formats.length := by
    rw [sameLength, List.length_append, List.length_cons]
    omega
  obtain ⟨format, atIndex⟩ : ∃ format, formats[before.length]? = some format :=
    ⟨_, List.getElem?_eq_getElem inRange⟩
  have read : SchemaRecord.formatAt before.length value = .ok format :=
    each _ _ _ (by simp) atIndex
  refine ⟨format, read, ?_⟩
  have sameId : format.id = id := by
    simpa [named] using (SchemaRecord.field?_of_formatAt read).symm
  have laterNames : ∀ other ∈ formats.drop (before.length + 1), other.id ≠ id := by
    intro other otherMem otherNamed
    rcases List.getElem?_of_mem otherMem with ⟨offset, atOffset⟩
    rw [List.getElem?_drop] at atOffset
    rcases exists_record sameLength each atOffset with ⟨record, atRecord, recordNamed⟩
    rw [Nat.add_assoc, List.getElem?_append_right (Nat.le_add_right _ _), Nat.add_sub_cancel_left,
      Nat.add_comm, List.getElem?_cons_succ] at atRecord
    exact unnamed record (List.mem_of_getElem? atRecord) (otherNamed ▸ recordNamed)
  have parts : formats.take before.length ++ format :: formats.drop (before.length + 1) =
      formats := by
    rcases List.getElem?_eq_some_iff.mp atIndex with ⟨_, rfl⟩
    rw [← List.drop_eq_getElem_cons inRange, List.take_append_drop]
  rw [← parts]
  exact BlockFormat.lastNamed?_append_cons sameId laterNames

/-- What is registered are the formats that the records give at their positions. -/
theorem registered_registerFormats (catalog : Catalog) :
    Registered catalog values (catalog.registerFormats formats) formats.length where
  counted := sameLength
  accepted index value atIndex := by
    rcases List.getElem?_eq_some_iff.mp atIndex with ⟨inRange, _⟩
    rw [← sameLength] at inRange
    exact ⟨formats[index], each index value _ atIndex (List.getElem?_eq_getElem inRange)⟩
  last before value rest id split named unnamed := by
    rcases lastNamed?_of_last sameLength each split named unnamed with ⟨format, read, found⟩
    refine ⟨format, read, ?_⟩
    rw [lookup_registerFormats, found, Option.some_or]
  others id unnamed := by
    apply lookup_registerFormats_of_notMem
    intro idMem
    rcases List.mem_map.mp idMem with ⟨format, formatMem, rfl⟩
    rcases List.getElem?_of_mem formatMem with ⟨index, atIndex⟩
    rcases exists_record sameLength each atIndex with ⟨value, valueAtIndex, named⟩
    exact unnamed value (List.mem_of_getElem? valueAtIndex) named
  rest := rfl

end Formats

/-- What comes of registering a batch. -/
structure AllOrNothing (catalog : Catalog) (batch : Value) : Prop where
  /-- A batch that is registered is a list of records, and all of them are registered. -/
  all : ∀ after count, catalog.register batch = .ok (after, count) →
    (Call.register batch).apply catalog = after ∧
      ∃ values, batch = .array values ∧ Registered catalog values after count
  /-- An error leaves the catalog as it is. -/
  nothing : ∀ error, catalog.register batch = .error error →
    catalog.takeBatch batch = (catalog, .error error) ∧
      (Call.register batch).apply catalog = catalog
  /-- A batch is registered exactly if it is a list of records that are each accepted at their
  positions. -/
  accepted_iff : (∃ result, catalog.register batch = .ok result) ↔
    ∃ values, batch = .array values ∧ ∀ index value, values[index]? = some value →
      ∃ format, SchemaRecord.formatAt index value = .ok format
  /-- Otherwise the error is that no list was given, or that of the first record that is not
  accepted at its position, whatever comes after it. -/
  error_iff : ∀ error, catalog.register batch = .error error ↔
    ((∀ values, batch ≠ .array values) ∧ error = .invalidRecord 0 .notABatch) ∨
      ∃ before value after, batch = .array (before ++ value :: after) ∧
        (∀ index other, before[index]? = some other →
          ∃ format, SchemaRecord.formatAt index other = .ok format) ∧
        SchemaRecord.formatAt before.length value = .error error
  /-- The error of a record is its first fault. -/
  fault_iff : ∀ index value error, SchemaRecord.formatAt index value = .error error ↔
    SchemaRecord.Fault index value error

theorem takeBatch_of_register_eq_error (failed : catalog.register batch = .error error) :
    catalog.takeBatch batch = (catalog, .error error) := by
  rw [takeBatch, register_eq_error.mp failed]

/-- A batch is registered as a whole or leaves the catalog as it is. -/
theorem register_all_or_nothing (catalog : Catalog) (batch : Value) :
    AllOrNothing catalog batch where
  all after count done := by
    rcases register_eq_ok.mp done with ⟨formats, read, rfl, rfl⟩
    rcases formatsOfBatch_eq_ok.mp read with ⟨values, rfl, sameLength, each⟩
    refine ⟨?_, values, rfl, registered_registerFormats sameLength each catalog⟩
    rw [Call.apply, takeBatch, read]
  nothing error failed := by
    have result := takeBatch_of_register_eq_error failed
    exact ⟨result, by rw [Call.apply, result]⟩
  accepted_iff := by
    rw [← exists_formatsOfBatch]
    constructor
    · rintro ⟨⟨after, count⟩, done⟩
      rcases register_eq_ok.mp done with ⟨formats, read, _⟩
      exact ⟨formats, read⟩
    · rintro ⟨formats, read⟩
      exact ⟨_, register_eq_ok.mpr ⟨formats, read, rfl, rfl⟩⟩
  error_iff error := by
    rw [register_eq_error, formatsOfBatch_eq_error]
    simp only [SchemaRecord.formatAt_eq_error]
  fault_iff _ _ _ := SchemaRecord.formatAt_eq_error

/-- Of two records with one identifier the last one counts. In a batch in which the second record
has an unknown element and the third one is no object, the fault is that of the second, and the
first one is not registered either. -/
theorem register_all_or_nothing_twice :
    ∃ (catalog after : Catalog) (first second unknown : Value) (format : BlockFormat),
      first = .object [("category", .natural 0), ("id", .string "beep"), ("lines", .array [])] ∧
      second = .object [("category", .natural 1), ("id", .string "beep"),
        ("lines", .array [.array [.object [("type", .string "CODE"), ("value", .null)]]])] ∧
      unknown = .object [("category", .natural 0), ("id", .string "tune"),
        ("lines", .array [.array [],
          .array [.object [("type", .string "text")], .object [("type", .string "note")]]])] ∧
      catalog.register (.array [first, second]) = .ok (after, 2) ∧
      format = .plain "beep" 1 [.columns [.child .untyped]] ∧ after.lookup "beep" = some format ∧
      after.lookup "loop" = catalog.lookup "loop" ∧
      catalog.register (.array [first, unknown, .null]) =
        .error (.unknownElementType "tune" 1 1 "note") ∧
      (Call.register (.array [first, unknown, .null])).apply catalog = catalog ∧
      (∀ after, catalog.register .null ≠ .ok after) := by
  let catalog := Catalog.run [.registerFormats [.plain "loop" 0 [.stack]]]
  let first : Value :=
    .object [("category", .natural 0), ("id", .string "beep"), ("lines", .array [])]
  let second : Value := .object [("category", .natural 1), ("id", .string "beep"),
    ("lines", .array [.array [.object [("type", .string "CODE"), ("value", .null)]]])]
  let unknown : Value := .object [("category", .natural 0), ("id", .string "tune"),
    ("lines", .array [.array [],
      .array [.object [("type", .string "text")], .object [("type", .string "note")]]])]
  let format : BlockFormat := .plain "beep" 1 [.columns [.child .untyped]]
  let after := catalog.registerFormats [.plain "beep" 0 [], format]
  have done : catalog.register (.array [first, second]) = .ok (after, 2) := by decide +kernel
  rcases (register_all_or_nothing catalog (.array [first, second])).all after 2 done with
    ⟨_, values, sameValues, registered⟩
  cases sameValues
  have read : SchemaRecord.formatAt 1 second = .ok format := by decide +kernel
  rcases registered.last [first] second [] "beep" rfl rfl (List.forall_mem_nil _) with
    ⟨other, readOther, found⟩
  cases read.symm.trans readOther
  have refusal := register_all_or_nothing catalog (.array [first, unknown, .null])
  have failed : catalog.register (.array [first, unknown, .null]) =
      .error (.unknownElementType "tune" 1 1 "note") := by
    refine (refusal.error_iff _).mpr (.inr ⟨[first], unknown, [.null], rfl, ?_, by decide +kernel⟩)
    rintro (_ | index) other atIndex
    · cases atIndex
      exact ⟨.plain "beep" 0 [], by decide +kernel⟩
    · cases atIndex
  refine ⟨catalog, after, first, second, unknown, format, rfl, rfl, rfl, done, rfl, found, ?_,
    failed, (refusal.nothing _ failed).2, ?_⟩
  · exact registered.others "loop" (by decide +kernel)
  · intro result accepted
    rcases (register_all_or_nothing catalog .null).accepted_iff.mp ⟨result, accepted⟩ with
      ⟨_, never, _⟩
    cases never

end Catalog

end BlockEditor
