import BlockEditor.Json.Node
import BlockEditor.Proofs.Json.Lexing

/-!
# Trees read back

The tokens of a value give the tree of the value again (`Value.ofTokens?_tokens`), and no two words
among them follow each other, so the texts of a value give its tree as well. `Value.depth` is the
number of arrays and objects that lie inside each other; the nesting limit leaves the tree of a
value whole exactly if the value is no deeper (`Value.isSome_value?_cutAt`).
-/

namespace BlockEditor.Json

open BlockEditor.Text

namespace Value

/-- What holds of a value whenever it holds of its items, or of the values of its fields, holds of
all values. -/
@[elab_as_elim]
theorem induction {motive : Value → Prop} (null : motive .null)
    (bool : ∀ value, motive (.bool value)) (number : ∀ value, motive (.number value))
    (string : ∀ value, motive (.string value))
    (array : ∀ items, (∀ item ∈ items, motive item) → motive (.array items))
    (object : ∀ fields : List (String × Value),
      (∀ field ∈ fields, motive field.2) → motive (.object fields))
    (value : Value) : motive value := by
  apply @Value.rec motive (fun items => ∀ item ∈ items, motive item)
    (fun fields => ∀ field ∈ fields, motive field.2) (fun field => motive field.2)
  · exact null
  · exact bool
  · exact number
  · exact string
  · exact array
  · exact object
  · exact List.forall_mem_nil _
  · intro item items holds inItems
    exact List.forall_mem_cons.mpr ⟨holds, inItems⟩
  · exact List.forall_mem_nil _
  · intro field fields holds inFields
    exact List.forall_mem_cons.mpr ⟨holds, inFields⟩
  · exact fun _ _ holds => holds

/-- The tokens of a field. -/
def tokensOfField (field : String × Value) : List Token :=
  .string field.1 :: .colon :: field.2.tokens

theorem itemTokens_eq_map (items : List Value) : itemTokens items = items.map tokens := by
  induction items with
  | nil => rfl
  | cons item items ih => rw [itemTokens, ih, List.map_cons]

theorem fieldTokens_eq_map (fields : List (String × Value)) :
    fieldTokens fields = fields.map tokensOfField := by
  induction fields with
  | nil => rfl
  | cons field fields ih => rw [fieldTokens, ih, List.map_cons, tokensOfField]

theorem itemNodes_eq_map (items : List Value) : itemNodes items = items.map node := by
  induction items with
  | nil => rfl
  | cons item items ih => rw [itemNodes, ih, List.map_cons]

theorem fieldNodes_eq_map (fields : List (String × Value)) :
    fieldNodes fields = fields.map fun field => (some field.1, field.2.node) := by
  induction fields with
  | nil => rfl
  | cons field fields ih => rw [fieldNodes, ih, List.map_cons]

theorem commaSeparated_cons (item : List Token) (items : List (List Token)) :
    commaSeparated (item :: items) = item ++ items.flatMap (Token.comma :: ·) := by
  induction items generalizing item with
  | nil => rw [commaSeparated, List.flatMap_nil, List.append_nil]
  | cons next items ih => rw [commaSeparated, ih, List.flatMap_cons, List.cons_append]

/-- Between commas stand the tokens of the items. -/
theorem mem_commaSeparated {token : Token} {items : List (List Token)}
    (tokenMem : token ∈ commaSeparated items) :
    token = .comma ∨ ∃ item ∈ items, token ∈ item := by
  cases items with
  | nil => cases tokenMem
  | cons item items =>
      rw [commaSeparated_cons, List.mem_append, List.mem_flatMap] at tokenMem
      rcases tokenMem with inFirst | ⟨later, laterMem, inLater⟩
      · exact .inr ⟨item, List.mem_cons_self, inFirst⟩
      · rcases List.mem_cons.mp inLater with rfl | inLater
        · exact .inl rfl
        · exact .inr ⟨later, List.mem_cons_of_mem item laterMem, inLater⟩

/-- A mark may stand next to everything. -/
theorem isChain_append_mark {first second : List Token} {mark : Token}
    (isMark : mark.isWord = false) (firstApart : first.IsChain Token.Apart)
    (secondApart : second.IsChain Token.Apart) :
    (first ++ mark :: second).IsChain Token.Apart := by
  refine List.isChain_append.mpr ⟨firstApart, ?_, ?_⟩
  · exact List.isChain_cons.mpr ⟨fun _ _ => .inl isMark, secondApart⟩
  · rintro token _ next ⟨⟩
    exact .inr isMark

/-- Items that are separated by commas keep their words apart. -/
theorem isChain_commaSeparated {items : List (List Token)}
    (apart : ∀ item ∈ items, item.IsChain Token.Apart) :
    (commaSeparated items).IsChain Token.Apart := by
  induction items using commaSeparated.induct with
  | case1 => exact .nil
  | case2 item => exact apart item List.mem_cons_self
  | case3 item next items ih =>
      rw [List.forall_mem_cons] at apart
      exact isChain_append_mark rfl apart.1 (ih apart.2)

/-- No two words follow each other in the tokens of a value. -/
theorem isChain_tokens (value : Value) : value.tokens.IsChain Token.Apart := by
  induction value using induction with
  | null => exact .singleton _
  | bool value => exact .singleton _
  | number value => exact .singleton _
  | string value => exact .singleton _
  | array items ih =>
      rw [tokens, itemTokens_eq_map]
      apply isChain_append_mark rfl _ .nil
      apply List.isChain_cons.mpr ⟨fun _ _ => .inl rfl, isChain_commaSeparated _⟩
      simpa using ih
  | object fields ih =>
      rw [tokens, fieldTokens_eq_map]
      apply isChain_append_mark rfl _ .nil
      apply List.isChain_cons.mpr ⟨fun _ _ => .inl rfl, isChain_commaSeparated _⟩
      intro item itemMem
      rcases List.mem_map.mp itemMem with ⟨field, fieldMem, rfl⟩
      have apart : ([Token.string field.1] ++ .colon :: field.2.tokens).IsChain Token.Apart :=
        isChain_append_mark rfl (.singleton _) (ih field fieldMem)
      exact apart

variable {frames : List Frame} {rest : List Token}

/-- An array that has just been opened may begin with any value. -/
theorem build_firstItem (value : Value) :
    Node.build .firstItem frames (value.tokens ++ rest) =
      Node.build .value frames (value.tokens ++ rest) := by
  cases value <;> rfl

/-- The items of an array are built one after the other. -/
theorem build_items {items : List Value}
    (readsBack : ∀ item ∈ items, ∀ frames rest,
      Node.build .value frames (item.tokens ++ rest) = Node.build (.after item.node) frames rest)
    (node : Node) (before : List Node) :
    Node.build (.after node) (.array before :: frames)
        ((items.map tokens).flatMap (Token.comma :: ·) ++ .closeArray :: rest) =
      Node.build (.after (.array (before.reverse ++ node :: items.map Value.node))) frames
        rest := by
  -- The frame holds the finished items in reverse, so nothing may be assumed about them.
  induction items generalizing node before with
  | nil => simp [Node.build, Node.stepToken]
  | cons item items ih =>
      rw [List.forall_mem_cons] at readsBack
      simp only [List.map_cons, List.flatMap_cons, List.cons_append, List.append_assoc]
      rw [Node.build, Node.stepToken]
      simp only []
      rw [readsBack.1, ih readsBack.2]
      simp

/-- The fields of an object are built one after the other. -/
theorem build_fields {fields : List (String × Value)}
    (readsBack : ∀ field ∈ fields, ∀ frames rest,
      Node.build .value frames (field.2.tokens ++ rest) =
        Node.build (.after field.2.node) frames rest)
    (node : Node) (key : Option String) (before : List (Option String × Node)) :
    Node.build (.after node) (.field before key :: frames)
        ((fields.map tokensOfField).flatMap (Token.comma :: ·) ++ .closeObject :: rest) =
      Node.build (.after (.object (before.reverse ++ (key, node) ::
        fields.map fun field => (some field.1, field.2.node)))) frames rest := by
  induction fields generalizing node key before with
  | nil => simp [Node.build, Node.stepToken]
  | cons field fields ih =>
      rw [List.forall_mem_cons] at readsBack
      simp only [List.map_cons, List.flatMap_cons, List.cons_append, List.append_assoc,
        tokensOfField]
      simp only [Node.build, Node.stepToken, Node.beginField, Node.key?]
      rw [readsBack.1, ih readsBack.2]
      simp

/-- The tokens of a value are read as the tree of the value, wherever they stand. -/
theorem build_tokens (value : Value) (frames : List Frame) (rest : List Token) :
    Node.build .value frames (value.tokens ++ rest) =
      Node.build (.after value.node) frames rest := by
  induction value using induction generalizing frames rest with
  | null => rfl
  | bool value => rfl
  | number value => rfl
  | string value => rfl
  | array items ih =>
      rw [tokens, node, itemTokens_eq_map, itemNodes_eq_map]
      cases items with
      | nil => rfl
      | cons item items =>
          rw [List.forall_mem_cons] at ih
          rw [List.map_cons, commaSeparated_cons]
          simp only [List.cons_append, List.append_assoc, List.nil_append]
          rw [Node.build, Node.stepToken, Node.beginValue]
          simp only []
          rw [build_firstItem, ih.1, build_items ih.2]
          rfl
  | object fields ih =>
      rw [tokens, node, fieldTokens_eq_map, fieldNodes_eq_map]
      cases fields with
      | nil => rfl
      | cons field fields =>
          rw [List.forall_mem_cons] at ih
          rw [List.map_cons, commaSeparated_cons]
          simp only [List.cons_append, List.append_assoc, List.nil_append, tokensOfField]
          simp only [Node.build, Node.stepToken, Node.beginValue, Node.beginField, Node.key?]
          rw [ih.1, build_fields ih.2]
          rfl

theorem ofTokens?_tokens (value : Value) : Node.ofTokens? value.tokens = some value.node := by
  have built := build_tokens value [] []
  rw [List.append_nil] at built
  exact built

/-- A value is legible if its numbers are. -/
def IsLegible (value : Value) : Prop := ∀ token ∈ value.tokens, token.IsLegible

theorem isLegible_string (text : String) : (string text).IsLegible := by
  intro token tokenMem
  rw [List.mem_singleton.mp tokenMem]
  trivial

/-- An array of legible items is legible. -/
theorem isLegible_array {items : List Value} (legible : ∀ item ∈ items, item.IsLegible) :
    (array items).IsLegible := by
  intro token tokenMem
  rw [tokens, itemTokens_eq_map, List.mem_append, List.mem_cons, List.mem_singleton] at tokenMem
  rcases tokenMem with (rfl | tokenMem) | rfl
  · trivial
  · rcases mem_commaSeparated tokenMem with rfl | ⟨list, listMem, tokenMem⟩
    · trivial
    · rcases List.mem_map.mp listMem with ⟨item, itemMem, rfl⟩
      exact legible item itemMem token tokenMem
  · trivial

theorem isLegible_object {fields : List (String × Value)}
    (legible : ∀ field ∈ fields, field.2.IsLegible) : (object fields).IsLegible := by
  intro token tokenMem
  rw [tokens, fieldTokens_eq_map, List.mem_append, List.mem_cons, List.mem_singleton] at tokenMem
  rcases tokenMem with (rfl | tokenMem) | rfl
  · trivial
  · rcases mem_commaSeparated tokenMem with rfl | ⟨list, listMem, tokenMem⟩
    · trivial
    · rcases List.mem_map.mp listMem with ⟨field, fieldMem, rfl⟩
      rw [tokensOfField, List.mem_cons, List.mem_cons] at tokenMem
      rcases tokenMem with rfl | rfl | tokenMem
      · trivial
      · trivial
      · exact legible field fieldMem token tokenMem
  · trivial

/-- The compact text of a legible value is read as its tree, cut at the nesting limit. -/
theorem ofText?_compact {value : Value} (legible : value.IsLegible) :
    Node.ofText? value.compact = some (value.node.cutAt Node.nestingLimit) := by
  rw [Node.ofText?, Node.ofSymbols?, compact, tokens?_compactText legible value.isChain_tokens,
    Option.bind_some, ofTokens?_tokens, Option.map_some]

/-- The indented text of a legible value is read as its tree, cut at the nesting limit. -/
theorem ofText?_pretty {value : Value} (legible : value.IsLegible) :
    Node.ofText? value.pretty = some (value.node.cutAt Node.nestingLimit) := by
  rw [Node.ofText?, Node.ofSymbols?, pretty, tokens?_prettyText legible value.isChain_tokens,
    Option.bind_some, ofTokens?_tokens, Option.map_some]

mutual

/-- How many arrays and objects lie inside each other. -/
def depth : Value → Nat
  | .null | .bool _ | .number _ | .string _ => 0
  | .array items => itemsDepth items + 1
  | .object fields => fieldsDepth fields + 1
termination_by structural value => value

/-- How many arrays and objects lie inside each other in the items of an array. -/
def itemsDepth : List Value → Nat
  | [] => 0
  | item :: rest => max item.depth (itemsDepth rest)
termination_by structural items => items

/-- How many arrays and objects lie inside each other in the fields of an object. -/
def fieldsDepth : List (String × Value) → Nat
  | [] => 0
  | (_, value) :: rest => max value.depth (fieldsDepth rest)
termination_by structural fields => fields

end

/-- The cut items of an array are read exactly if none of them is too deep. -/
theorem isSome_itemValues?_cut {items : List Value} {limit : Nat}
    (readable : ∀ item ∈ items, (item.node.cutAt limit).value?.isSome ↔ item.depth ≤ limit) :
    (Node.itemValues? (Node.cutItemsAt limit (itemNodes items))).isSome ↔
      itemsDepth items ≤ limit := by
  induction items with
  | nil => simp [itemNodes, Node.cutItemsAt, Node.itemValues?, itemsDepth]
  | cons item items ih =>
      rw [List.forall_mem_cons] at readable
      rw [itemNodes, Node.cutItemsAt, Node.itemValues?, itemsDepth, Nat.max_le, ← readable.1,
        ← ih readable.2]
      cases (item.node.cutAt limit).value? <;>
        cases Node.itemValues? (Node.cutItemsAt limit (itemNodes items)) <;> simp

theorem isSome_fieldValues?_cut {fields : List (String × Value)} {limit : Nat}
    (readable : ∀ field ∈ fields,
      (field.2.node.cutAt limit).value?.isSome ↔ field.2.depth ≤ limit)
    (before : List (String × Value)) :
    (Node.fieldValues? before (Node.cutFieldsAt limit (fieldNodes fields))).isSome ↔
      fieldsDepth fields ≤ limit := by
  induction fields generalizing before with
  | nil => simp [fieldNodes, Node.cutFieldsAt, Node.fieldValues?, fieldsDepth]
  | cons field fields ih =>
      rcases field with ⟨key, value⟩
      rw [List.forall_mem_cons] at readable
      rw [fieldNodes, Node.cutFieldsAt, Node.fieldValues?, fieldsDepth, Nat.max_le, ← readable.1]
      cases (value.node.cutAt limit).value? with
      | none => simp
      | some value => simpa using ih readable.2 (insertSorted key value before)

/-- The limit leaves a value whole exactly if the value is not deeper. -/
theorem isSome_value?_cutAt (value : Value) (limit : Nat) :
    (value.node.cutAt limit).value?.isSome ↔ value.depth ≤ limit := by
  induction value using induction generalizing limit with
  | null => simp [node, Node.cutAt, Node.value?, depth]
  | bool value => simp [node, Node.cutAt, Node.value?, depth]
  | number value => simp [node, Node.cutAt, Node.value?, depth]
  | string value => simp [node, Node.cutAt, Node.value?, depth]
  | array items ih =>
      cases limit with
      | zero => simp [node, Node.cutAt, Node.value?, depth]
      | succ limit =>
          rw [node, Node.cutAt, Node.value?, Option.isSome_map, depth, Nat.succ_le_succ_iff]
          exact isSome_itemValues?_cut fun item itemMem => ih item itemMem limit
  | object fields ih =>
      cases limit with
      | zero => simp [node, Node.cutAt, Node.value?, depth]
      | succ limit =>
          rw [node, Node.cutAt, Node.value?, Option.isSome_map, depth, Nat.succ_le_succ_iff]
          exact isSome_fieldValues?_cut (fun field fieldMem => ih field fieldMem limit) []

end Value

end BlockEditor.Json
