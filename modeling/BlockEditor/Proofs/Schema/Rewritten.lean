import BlockEditor.Proofs.Schema.RoundTrip

/-!
# Batches written again

A line of a record without elements is a stack, so no format that is read from a batch has a row
without slots (`hasSlots_of_formatsOfBatch`). These are the formats that come back when they are
written: the formats of any batch are those of the batch that is written from them, also if the
latter has been text in between (`formatsOfBatch_rewritten`).
-/

namespace BlockEditor

open Json

theorem FormatLine.ofSlots_ne (slots : List Slot) : ofSlots slots ≠ .columns [] := by
  cases slots <;> simp [ofSlots]

namespace SchemaRecord

theorem hasSlots_of_formatLines {id : String} {line : Nat} {elements : List (List ElementRecord)}
    {lines : List FormatLine} (read : formatLines id line elements = .ok lines) :
    FormatLine.columns [] ∉ lines := by
  induction elements generalizing line lines with
  | nil =>
      cases read
      exact List.not_mem_nil
  | cons first rest ih =>
      rcases bind_eq_ok.mp read with ⟨slots, _, read⟩
      rcases bind_eq_ok.mp read with ⟨others, readOthers, result⟩
      cases result
      simp only [List.mem_cons, not_or]
      exact ⟨(FormatLine.ofSlots_ne slots).symm, ih readOthers⟩

/-- A format that is read has no line without slots. -/
theorem hasSlots_format {record : SchemaRecord} {format : BlockFormat}
    (read : record.format = .ok format) : format.HasSlots := by
  rcases bind_eq_ok.mp read with ⟨lines, readLines, result⟩
  cases result
  exact hasSlots_of_formatLines readLines

end SchemaRecord

theorem hasSlots_of_formatsFrom {index : Nat} {values : List Value} {formats : List BlockFormat}
    (read : formatsFrom index values = .ok formats) : ∀ format ∈ formats, format.HasSlots := by
  induction values generalizing index formats with
  | nil =>
      cases read
      exact List.forall_mem_nil _
  | cons value values ih =>
      rcases bind_eq_ok.mp read with ⟨record, _, read⟩
      rcases bind_eq_ok.mp read with ⟨first, readFirst, read⟩
      rcases bind_eq_ok.mp read with ⟨others, readOthers, result⟩
      cases result
      exact List.forall_mem_cons.mpr ⟨SchemaRecord.hasSlots_format readFirst, ih readOthers⟩

/-- No format of a batch has a row without slots. -/
theorem hasSlots_of_formatsOfBatch {batch : Value} {formats : List BlockFormat}
    (read : formatsOfBatch batch = .ok formats) : ∀ format ∈ formats, format.HasSlots := by
  cases batch with
  | array values => exact hasSlots_of_formatsFrom read
  | _ => cases read

/-- Formats come back whole from the batch that is written from them exactly if none of them has a
row without slots, and both texts of this batch give the batch. The formats of any batch are of this
kind, so reading, writing and reading again is the same as reading. -/
theorem formatsOfBatch_rewritten :
    (∀ formats : List BlockFormat,
      (∀ text ∈ [(batchOfFormats formats).compact, (batchOfFormats formats).pretty],
        Value.ofText? text = some (batchOfFormats formats).sorted) ∧
      (formatsOfBatch (batchOfFormats formats).sorted = .ok formats ↔
        ∀ format ∈ formats, format.HasSlots)) ∧
    ∀ (batch : Value) (formats : List BlockFormat), formatsOfBatch batch = .ok formats →
      (∀ format ∈ formats, format.HasSlots) ∧
        formatsOfBatch (batchOfFormats formats).sorted = formatsOfBatch batch := by
  constructor
  · intro formats
    have writable := (writable_batchOfFormats formats).mono (by decide : 5 ≤ Node.nestingLimit)
    exact ⟨writable.ofText?_text, hasSlots_of_formatsOfBatch, formatsOfBatch_sorted⟩
  · intro batch formats read
    have hasSlots := hasSlots_of_formatsOfBatch read
    exact ⟨hasSlots, (formatsOfBatch_sorted hasSlots).trans read.symm⟩

/-- A record that gives a number as a type, an element type in capitals, and a list of parameters
without entries: the format is the same when it is written and read again. -/
theorem formatsOfBatch_rewritten_lenient :
    ∃ (batch : Value) (format : BlockFormat),
      batch = .array [.object [("category", .natural 3), ("descParams", .array []),
        ("id", .string "loop"),
        ("lines", .array [.array [], .array [.object [("type", .string "TEXT")]]]),
        ("returns", .string "num"), ("takes", .natural 5)]] ∧
      format = { BlockFormat.plain "loop" 3 [.stack, .columns [.label ""]] with
        produces := some .num, parameterDocs := some [] } ∧
      formatsOfBatch batch = .ok [format] ∧ format.HasSlots ∧
      Value.ofText? (batchOfFormats [format]).compact = some (batchOfFormats [format]).sorted ∧
      formatsOfBatch (batchOfFormats [format]).sorted = .ok [format] := by
  let batch : Value := .array [.object [("category", .natural 3), ("descParams", .array []),
    ("id", .string "loop"),
    ("lines", .array [.array [], .array [.object [("type", .string "TEXT")]]]),
    ("returns", .string "num"), ("takes", .natural 5)]]
  let format : BlockFormat := { BlockFormat.plain "loop" 3 [.stack, .columns [.label ""]] with
    produces := some .num, parameterDocs := some [] }
  have read : formatsOfBatch batch = .ok [format] := by decide +kernel
  rcases formatsOfBatch_rewritten.2 batch _ read with ⟨hasSlots, again⟩
  exact ⟨batch, format, rfl, rfl, read, hasSlots format List.mem_cons_self,
    (formatsOfBatch_rewritten.1 _).1 _ List.mem_cons_self, again.trans read⟩

end BlockEditor
