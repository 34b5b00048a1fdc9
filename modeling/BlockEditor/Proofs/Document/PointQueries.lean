import BlockEditor.Proofs.Block.Fields
import BlockEditor.Proofs.Block.Outline
import BlockEditor.Proofs.Document.WellFormed

/-!
# Point queries

Three queries and an edit are about the field under a point: the text in it, the type of the texts
that it takes, and putting a text into it. Each of them follows the path of the hit again to the
block with the field. `FieldQueries` says what all of them answer in terms of the hit and of the
blocks that paths lead to, and `TextPut` what the edit leaves: the text in the column that was hit,
and otherwise nothing but sizes has changed. Blocks and documents are treated alike by speaking only
of what a path leads to; `Document.fieldQueries_agree` states both.
-/

namespace BlockEditor

/-- A field of an input is hit, according to the format of the block with the field. -/
def Hit.OnInput (get? : BlockPath → Option Block) (hit : Option Hit) : Prop :=
  ∃ path line column owner kind, hit = some (.field path line column) ∧ get? path = some owner ∧
    (owner.format.slotsOfLine line)[column]? = some (.child kind) ∧ kind.isInput = true

/-- The answers to the queries for a text and for a type, and the answer to putting a text there,
agree with what is hit. -/
structure FieldQueries (get? : BlockPath → Option Block) (hit : Option Hit)
    (text : Option String) (type : Option ValueType) (taken : Bool) : Prop where
  /-- There is a text exactly where a field is hit. -/
  text_iff : text.isSome = true ↔ ∃ path line column, hit = some (.field path line column)
  /-- A field that is hit is a child column without a block, and the text is its literal. -/
  column : ∀ path line column, hit = some (.field path line column) →
    ∃ owner kind content size, get? path = some owner ∧
      (owner.format.slotsOfLine line)[column]? = some (.child kind) ∧
      owner.cell? line column = some (.column kind content size) ∧ content.block? = none ∧
      text = some (content.literal?.getD "")
  /-- There is a type exactly where a field of an input is hit. -/
  type_iff : type.isSome = true ↔ Hit.OnInput get? hit
  /-- A text is taken exactly where a field of an input is hit. -/
  taken_iff : taken = true ↔ Hit.OnInput get? hit

/-- A text has been put into a column of the block at the end of a path, and apart from sizes
nothing else has changed. -/
structure TextPut (before after : BlockPath → Option Block) (path : BlockPath)
    (line column : Nat) (text : String) : Prop where
  /-- The block at the end of the path has the text in the column; its format, its stacks and all
  other columns are the same. -/
  here : ∃ old new kind size, before path = some old ∧ after path = some new ∧
    new.cell? line column = some (.column kind (.ofText text) size) ∧
    new.format = old.format ∧ new.shape = old.shape ∧
    new.lines.map Line.children? = old.lines.map Line.children? ∧
    ∀ otherLine otherColumn, ¬(otherLine = line ∧ otherColumn = column) →
      (new.cell? otherLine otherColumn).map Cell.outline =
        (old.cell? otherLine otherColumn).map Cell.outline
  /-- At every other path there is a block with the same outline, or there is none as before. -/
  others : ∀ other, other ≠ path →
    (after other).map Block.outline = (before other).map Block.outline

namespace Hit

variable {get? : BlockPath → Option Block} {hit : Option Hit} {style : Style} {written : String}

/-- The text in a field that is hit. -/
def textIn (get? : BlockPath → Option Block) : Option Hit → Option String
  | some (.field path line column) => (get? path).bind fun owner => owner.value? line column
  | _ => none

/-- The type of the texts that a field takes which is hit. -/
def typeIn (get? : BlockPath → Option Block) : Option Hit → Option ValueType
  | some (.field path line column) => (get? path).bind fun owner => owner.literalType? line column
  | _ => none

/-- Whether a field that is hit takes a text. -/
def takesIn (style : Style) (text : String) (get? : BlockPath → Option Block) : Option Hit → Bool
  | some (.field path line column) =>
    (get? path).any fun owner => (owner.typeText style line column text).2
  | _ => false

end Hit

theorem ColumnKind.isSome_literalType? (kind : ColumnKind) :
    kind.literalType?.isSome = kind.isInput := by
  cases kind <;> rfl

theorem Block.typeText_eq_true_iff {owner : Block} {line column : Nat} {kind : ColumnKind}
    {content : Content Block} {size : Size}
    (atCell : owner.cell? line column = some (.column kind content size))
    (noBlock : content.block? = none) (style : Style) (text : String) :
    (typeText style line column text owner).2 = true ↔ kind.isInput = true := by
  cases isInput : kind.isInput <;> simp [typeText, atCell, isInput, noBlock]

/-- Where a hit names what is there, and blocks have the lines of their formats, what is asked of
the hit agrees with it. -/
theorem Hit.fieldQueries {get? : BlockPath → Option Block} {hit : Option Hit}
    (isIn : ∀ found, hit = some found → found.IsIn get?)
    (shaped : ∀ path owner, get? path = some owner → owner.shape = owner.format.lines)
    (style : Style) (written : String) :
    FieldQueries get? hit (textIn get? hit) (typeIn get? hit) (takesIn style written get? hit) := by
  rcases hit with _ | path | ⟨path, line, column⟩
  · constructor <;> simp [textIn, typeIn, takesIn, OnInput]
  · constructor <;> simp [textIn, typeIn, takesIn, OnInput]
  · rcases isIn _ rfl with ⟨owner, kind, content, size, reached, atCell, noBlock⟩
    have atSlot : (owner.format.slotsOfLine line)[column]? = some (.child kind) := by
      rw [← Block.map_slot_cell? (shaped path owner reached), atCell]
      rfl
    -- The format has the kind of the column that was hit, so the queries, which look at the block,
    -- and `OnInput`, which looks at the format, are about the same kind.
    have onInput : OnInput get? (some (.field path line column)) ↔ kind.isInput = true := by
      constructor
      · rintro ⟨_, _, _, other, otherKind, ⟨⟩, otherReached, otherAtSlot, isInput⟩
        rw [reached] at otherReached
        cases otherReached
        rw [atSlot] at otherAtSlot
        cases otherAtSlot
        exact isInput
      · intro isInput
        exact ⟨path, line, column, owner, kind, rfl, reached, atSlot, isInput⟩
    constructor
    case text_iff =>
      simp [textIn, reached, Block.value?, atCell]
    case column =>
      rintro _ _ _ ⟨⟩
      exact ⟨owner, kind, content, size, reached, atSlot, atCell, noBlock,
        by simp [textIn, reached, Block.value?, atCell, Cell.content]⟩
    case type_iff =>
      rw [onInput, ← kind.isSome_literalType?]
      simp [typeIn, reached, Block.literalType?, atCell]
    case taken_iff =>
      rw [onInput, ← Block.typeText_eq_true_iff atCell noBlock style written]
      simp [takesIn, reached]

namespace Block

variable {style : Style} {block after : Block} {steps : List Step} {line column : Nat}
  {text : String}

/-- Putting a text into a column changes nothing else in the block with the column. -/
theorem typeText_taken {owner : Block}
    (taken : (typeText style line column text owner).2 = true) :
    ∃ kind old size, owner.cell? line column = some (.column kind old size) ∧ old.block? = none ∧
      (typeText style line column text owner).1 =
        (owner.setContent line column (.ofText text)).measured style := by
  rcases typeText_cases style line column text owner with
    same | ⟨kind, old, size, atCell, _, noBlock, same⟩
  · simp [same] at taken
  · exact ⟨kind, old, size, atCell, noBlock, by rw [same]⟩

theorem shape_setContent {kind : ColumnKind} {old : Content Block} {size : Size}
    (atCell : block.cell? line column = some (.column kind old size)) (content : Content Block) :
    (block.setContent line column content).shape = block.shape := by
  rcases cell?_eq_some atCell with ⟨cells, lineSize, atLine, atColumn⟩
  rw [setContent_eq_setLine atLine, modify_eq_set atColumn]
  exact map_set_eq_map atLine (Line.shape_set atColumn (Cell.slot_withContent _ content) lineSize)

theorem children?_setContent (block : Block) (line column : Nat) (content : Content Block) :
    (block.setContent line column content).lines.map Line.children? =
      block.lines.map Line.children? := by
  rw [setContent]
  split
  · rename_i cells size atLine
    exact map_set_eq_map atLine rfl
  · rfl

/-- If a block at the end of a path takes a text, then the text is in the column and nothing else
has changed. -/
theorem textPut_of_updateAt
    (updated : updateAt style (typeText style line column text) steps block = some (after, true)) :
    TextPut block.get? after.get? ⟨steps⟩ line column text := by
  rcases updateAt_target updated with ⟨owner, reached, taken, reachedAfter⟩
  rcases typeText_taken taken.symm with ⟨kind, old, size, atCell, noBlock, changed⟩
  constructor
  case here =>
    rw [changed, measured_measured] at reachedAfter
    have filled : ((owner.setContent line column (.ofText text)).measured style).cell? line column =
        some ((Cell.column kind (.ofText text) size).measured style) := by
      rw [cell?_measured, cell?_setContent atCell, if_pos ⟨rfl, rfl⟩, Option.map_some]
    refine ⟨owner, _, kind, _, reached, reachedAfter, filled, ?_, ?_, ?_, ?_⟩
    · rw [format_measured, format_setContent]
    · rw [shape_measured, shape_setContent atCell]
    · rw [lines_measured, List.map_map, ← children?_setContent owner line column (.ofText text)]
      simp [Function.comp_def]
    · intro otherLine otherColumn different
      rw [cell?_measured, cell?_setContent atCell, if_neg different]
      simp [Function.comp_def]
  case others =>
    rintro ⟨other⟩ different
    refine map_outline_updateAt updated ?_ (fun same => different (congrArg BlockPath.mk same))
    intro target step targetReached
    cases reached.symm.trans targetReached
    rw [changed, child?_measured, child?_setContent atCell]
    split
    · rename_i atStep
      rw [atStep, child?_of_cell? atCell, Content.block?_ofText]
      exact noBlock.symm
    · rfl

/-- Putting a text into the field that is hit is an edit at the end of the path of the hit. -/
theorem setValueAt_of_hit {x y : Float32} {path : BlockPath} {owner : Block}
    (found : block.hit? style.config x y = some (.field path line column))
    (reached : block.get? path = some owner) (text : String) :
    updateAt style (typeText style line column text) path.steps block =
        some (block.setValueAt style text x y) ∧
      (block.setValueAt style text x y).2 = (typeText style line column text owner).2 := by
  have reachable : ∃ after, updateAt style (typeText style line column text) path.steps block =
      some (after, (typeText style line column text owner).2) := updateAt_exists _ reached
  rcases reachable with ⟨after, updated⟩
  have answer : block.setValueAt style text x y =
      (after, (typeText style line column text owner).2) := by
    simp [setValueAt, found, updated]
  rw [answer]
  exact ⟨updated, rfl⟩

/-- A text is taken at a point of a block exactly if the field that is hit takes it. -/
theorem setValueAt_eq_takesIn (style : Style) (block : Block) (text : String) (x y : Float32) :
    (block.setValueAt style text x y).2 =
      Hit.takesIn style text block.get? (block.hit? style.config x y) := by
  rcases found : block.hit? style.config x y with _ | path | ⟨path, line, column⟩
  · simp [setValueAt, found, Hit.takesIn]
  · simp [setValueAt, found, Hit.takesIn]
  · rcases isIn_of_hit? found with ⟨owner, _, _, _, reached, _⟩
    rw [(setValueAt_of_hit found reached text).2, Hit.takesIn, reached, Option.any_some]

/-- A text that is taken at a point of a block is put into the field that is hit. -/
theorem textPut_of_setValueAt {x y : Float32}
    (taken : (block.setValueAt style text x y).2 = true) :
    ∃ path line column, block.hit? style.config x y = some (.field path line column) ∧
      TextPut block.get? (block.setValueAt style text x y).1.get? path line column text := by
  rw [setValueAt_eq_takesIn] at taken
  rcases found : block.hit? style.config x y with _ | path | ⟨path, line, column⟩
  · rw [found] at taken
    cases taken
  · rw [found] at taken
    cases taken
  · rcases isIn_of_hit? found with ⟨owner, _, _, _, reached, _⟩
    have updated := (setValueAt_of_hit found reached text).1
    rw [← setValueAt_eq_takesIn] at taken
    refine ⟨path, line, column, rfl, ?_⟩
    have answered : block.setValueAt style text x y =
        ((block.setValueAt style text x y).1, true) := by rw [← taken]
    rw [answered] at updated
    exact textPut_of_updateAt updated

end Block

namespace Document

variable {catalog : Catalog} {document : Document}

/-- Putting a text into the field that is hit is an edit of the top-level block in which the path of
the hit goes on. -/
theorem setValueAt_of_hit {x y : Float32} {path : BlockPath} {line column : Nat} {owner : Block}
    (found : document.hit? x y = some (.field path line column))
    (reached : document.get? path = some owner) (catalog : Catalog) (text : String) :
    ∃ index rest block changed, path = ⟨⟨0, index⟩ :: rest⟩ ∧
      document.blocks[index]? = some block ∧
      Block.updateAt (document.style catalog)
          (Block.typeText (document.style catalog) line column text) rest block =
        some (changed, (Block.typeText (document.style catalog) line column text owner).2) ∧
      document.setValueAt catalog text x y =
        (document.withBlocks (document.blocks.set index changed),
          (Block.typeText (document.style catalog) line column text owner).2) := by
  rcases get?_eq_some reached with ⟨index, rest, block, steps, atIndex, inBlock⟩
  have reachable : ∃ changed, Block.updateAt (document.style catalog)
      (Block.typeText (document.style catalog) line column text) rest block =
        some (changed, (Block.typeText (document.style catalog) line column text owner).2) :=
    Block.updateAt_exists _ inBlock
  rcases reachable with ⟨changed, updated⟩
  refine ⟨index, rest, block, changed, congrArg BlockPath.mk steps, atIndex, updated, ?_⟩
  simp [setValueAt, found, edit, steps, atIndex, updated]

/-- A text that is put into a column of a top-level block or of a block inside it is put there in
the document. -/
theorem textPut_set {index : Nat} {block changed : Block} {rest : List Step} {line column : Nat}
    {text : String} (atIndex : document.blocks[index]? = some block)
    (put : TextPut block.get? changed.get? ⟨rest⟩ line column text) :
    TextPut document.get? (document.withBlocks (document.blocks.set index changed)).get?
      ⟨⟨0, index⟩ :: rest⟩ line column text := by
  rcases List.getElem?_eq_some_iff.mp atIndex with ⟨inRange, _⟩
  have afterwards : (document.blocks.set index changed)[index]? = some changed := by
    simp [inRange]
  constructor
  case here =>
    rcases put.here with ⟨old, new, kind, size, reached, reachedAfter, same⟩
    have reached : block.descendant? rest = some old := reached
    have reachedAfter : changed.descendant? rest = some new := reachedAfter
    exact ⟨old, new, kind, size, by simp [atIndex, reached], by simp [afterwards, reachedAfter],
      same⟩
  case others =>
    rintro ⟨_ | ⟨⟨first, position⟩, other⟩⟩ different
    · rfl
    · by_cases onRoot : first = 0
      · subst first
        by_cases samePosition : position = index
        · subst position
          have inside := put.others ⟨other⟩ (by rintro ⟨⟩; exact different rfl)
          simpa [atIndex, afterwards, Block.get?] using inside
        · simp [Ne.symm samePosition]
      · simp [get?, onRoot]

/-- A text is taken at a point of a document exactly if the field that is hit takes it. -/
theorem setValueAt_eq_takesIn (catalog : Catalog) (document : Document) (text : String)
    (x y : Float32) :
    (document.setValueAt catalog text x y).2 =
      Hit.takesIn (document.style catalog) text document.get? (document.hit? x y) := by
  rcases found : document.hit? x y with _ | path | ⟨path, line, column⟩
  · simp [setValueAt, found, Hit.takesIn]
  · simp [setValueAt, found, Hit.takesIn]
  · rcases isIn_of_hit? found with ⟨owner, _, _, _, reached, _⟩
    rcases setValueAt_of_hit found reached catalog text with ⟨_, _, _, _, _, _, _, answer⟩
    rw [answer, Hit.takesIn, reached, Option.any_some]

/-- A text that is taken at a point of a document is put into the field that is hit. -/
theorem textPut_of_setValueAt {text : String} {x y : Float32}
    (taken : (document.setValueAt catalog text x y).2 = true) :
    ∃ path line column, document.hit? x y = some (.field path line column) ∧
      TextPut document.get? (document.setValueAt catalog text x y).1.get? path line column
        text := by
  rcases found : document.hit? x y with _ | path | ⟨path, line, column⟩
  · simp [setValueAt, found] at taken
  · simp [setValueAt, found] at taken
  · rcases isIn_of_hit? found with ⟨owner, _, _, _, reached, _⟩
    rcases setValueAt_of_hit found reached catalog text with
      ⟨index, rest, block, changed, rfl, atIndex, updated, answer⟩
    rw [answer] at taken ⊢
    rw [taken] at updated
    exact ⟨_, line, column, rfl, textPut_set atIndex (Block.textPut_of_updateAt updated)⟩

/-- In a document of well-formed blocks, at every point, the queries for a text and for a type and
the answer to putting a text there agree with what is hit: there is a text exactly where a field is
hit, which is a child column without a block; there is a type, and a text is taken, exactly where
this column is an input. If a text is taken, it is in the column that was hit afterwards, and apart
from sizes nothing else has changed. The same holds of the queries to a single block. -/
theorem fieldQueries_agree :
    (∀ (document : Document) (catalog : Catalog) (text : String) (x y : Float32),
      document.WellFormed →
        FieldQueries document.get? (document.hit? x y) (document.valueAt? x y)
            (document.literalTypeAt? x y) (document.setValueAt catalog text x y).2 ∧
          ((document.setValueAt catalog text x y).2 = true → ∃ path line column,
            document.hit? x y = some (.field path line column) ∧
              TextPut document.get? (document.setValueAt catalog text x y).1.get? path line column
                text)) ∧
      ∀ (style : Style) (block : Block) (text : String) (x y : Float32), block.WellFormed →
        FieldQueries block.get? (block.hit? style.config x y) (block.valueAt? style.config x y)
            (block.literalTypeAt? style.config x y) (block.setValueAt style text x y).2 ∧
          ((block.setValueAt style text x y).2 = true → ∃ path line column,
            block.hit? style.config x y = some (.field path line column) ∧
              TextPut block.get? (block.setValueAt style text x y).1.get? path line column
                text) := by
  constructor
  · intro document catalog text x y wellFormed
    have shaped : ∀ path owner, document.get? path = some owner →
        owner.shape = owner.format.lines := by
      intro path owner reached
      exact (wellFormed.get? reached).here.shape
    refine ⟨?_, textPut_of_setValueAt⟩
    rw [setValueAt_eq_takesIn]
    exact Hit.fieldQueries (fun _ => isIn_of_hit?) shaped _ text
  · intro style block text x y wellFormed
    have shaped : ∀ path owner, block.get? path = some owner →
        owner.shape = owner.format.lines := by
      intro path owner reached
      exact (wellFormed path.steps owner reached).shape
    refine ⟨?_, Block.textPut_of_setValueAt⟩
    rw [Block.setValueAt_eq_takesIn]
    exact Hit.fieldQueries (fun _ => Block.isIn_of_hit?) shaped style text

/-- A text is put into the free input under a point, both of a document with one block and of this
block alone, and is found there afterwards. -/
theorem fieldQueries_agree_loop :
    ∃ (document : Document) (block : Block), document.WellFormed ∧ block.WellFormed ∧
      (document.setValueAt .empty "12" 60 20).2 = true ∧
      (document.setValueAt .empty "12" 60 20).1.valueAt? 60 20 = some "12" ∧
      Hit.OnInput document.get? (document.hit? 60 20) ∧
      (block.setValueAt (Catalog.empty.style .standard) "12" 52 12).2 = true ∧
      Hit.OnInput block.get?
        (block.hit? (Catalog.empty.style .standard).config 52 12) := by
  let format : BlockFormat :=
    .plain "loop" 0 [.columns [.label "loop", .child (.input .num)], .stack]
  let block := Block.fresh (Catalog.empty.style .standard) format
  let document := (Call.apply .empty (.empty .standard) (.insertAt block 0 0)).1
  have blockWellFormed : block.WellFormed := Block.invariant_consistent.everywhere_fresh _ format
  have wellFormed : document.WellFormed := by
    intro other otherMem
    cases List.mem_singleton.mp otherMem
    exact blockWellFormed
  have taken : (document.setValueAt .empty "12" 60 20).2 = true := by decide +kernel
  have takenAlone : (block.setValueAt (Catalog.empty.style .standard) "12" 52 12).2 = true := by
    decide +kernel
  have queries := (fieldQueries_agree.1 document .empty "12" 60 20 wellFormed).1
  have queriesAlone :=
    (fieldQueries_agree.2 (Catalog.empty.style .standard) block "12" 52 12 blockWellFormed).1
  exact ⟨document, block, wellFormed, blockWellFormed, taken, by decide +kernel,
    queries.taken_iff.mp taken, takenAlone, queriesAlone.taken_iff.mp takenAlone⟩

end Document

end BlockEditor
