import BlockEditor.Block.Hit
import BlockEditor.Proofs.Block.Edges
import BlockEditor.Proofs.Block.Nested

/-!
# What a hit says is true

Going down from a block to the point, every layer either stops at the block itself, names one of its
fields, or goes on in a block directly inside, with the point shifted into the frame of that block.
So whatever a hit says of the blocks and of the point is true (`Block.soundIn_of_hit?`): the point
lies in all blocks on the path of the hit, and if a field is hit, it lies on the column of the
field. In particular the path of a hit leads to a block, and the field of a hit is a column of that
block without a block in it (`Block.isIn_of_hit?`).
-/

namespace BlockEditor

variable {config : LayoutConfig} {block child : Block} {hit inner : Hit} {step : Step}
  {located : Located} {x y top left : Float32}

/-- A point of a block lies on a column that holds no block. -/
structure FieldUnder (config : LayoutConfig) (located : Located) (line column : Nat)
    (cells : List (Cell Block)) (row : Size) (kind : ColumnKind) (content : Content Block)
    (size : Size) : Prop where
  /-- The row is the first line that reaches down to the point. -/
  lineUnder : LineUnder located.block.lines located.y line (.columns cells row)
  /-- The column is the first cell that reaches as far right as the point. -/
  cellUnder : CellUnder config cells located.x column (.column kind content size)
  /-- The point is not in the padding before the first cell. -/
  beyondPadding : ¬located.x < config.innerPaddingHorizontal
  /-- The point is not in the padding between the cell before and the column. -/
  beyondGap : 0 < column → ¬located.x ≤ cellLeft config cells column
  /-- The column holds no block. -/
  noBlock : content.block? = none
  /-- The point is not above the column. -/
  top_le : cellTop row (.column kind content size) ≤ located.y - lineTop located.block.lines line
  /-- The point is not below the column. -/
  le_bottom : located.y - lineTop located.block.lines line ≤
    cellTop row (.column kind content size) + size.height

namespace Hit

/-- What a hit names is there among the blocks that paths lead to: a block at the end of its path,
and a column of this block that holds no block if the hit is a field. -/
def IsIn (get? : BlockPath → Option Block) : Hit → Prop
  | .body path => ∃ owner, get? path = some owner
  | .field path line column => ∃ owner kind content size, get? path = some owner ∧
      owner.cell? line column = some (.column kind content size) ∧ content.block? = none

/-- The point lies on a column of a block that holds no block. -/
def OnField (config : LayoutConfig) (line column : Nat) (located : Located) : Prop :=
  ∃ cells row kind content size,
    FieldUnder config located line column cells row kind content size

/-- What a hit in a block says is true of the point. -/
structure SoundIn (config : LayoutConfig) (block : Block) (x y : Float32) (hit : Hit) : Prop where
  /-- The point lies in each block on the path. -/
  inside : ∀ steps, steps <+: hit.path.steps →
    ∃ located, block.locate? config x y steps = some located ∧ located.IsInside
  /-- If the hit is a field, the point lies on it. -/
  onField : ∀ path line column, hit = .field path line column →
    ∃ located, block.locate? config x y path.steps = some located ∧
      OnField config line column located

theorem path_within (hit : Hit) (step : Step) : (hit.within step).path = hit.path.within step := by
  cases hit <;> rfl

theorem soundIn_here (isInside : block.size.contains x y = true) :
    here.SoundIn config block x y where
  inside steps onPath := by
    cases List.prefix_nil.mp onPath
    exact ⟨_, rfl, isInside⟩
  onField path line column isField := by cases isField

/-- A hit of a field is sound if the point is in the block and on the field. -/
theorem soundIn_field {line column : Nat} (isInside : block.size.contains x y = true)
    (onField : OnField config line column ⟨block, x, y⟩) :
    (field .root line column).SoundIn config block x y where
  inside steps onPath := by
    cases List.prefix_nil.mp onPath
    exact ⟨_, rfl, isInside⟩
  onField path line column isField := by
    cases isField
    exact ⟨_, rfl, onField⟩

/-- What a hit says of the blocks on its path after the first step is what it says from there. -/
theorem SoundIn.within (sound : inner.SoundIn config located.block located.x located.y)
    (found : block.locateChild? config x y step = some located)
    (isInside : block.size.contains x y = true) :
    (inner.within step).SoundIn config block x y where
  inside steps onPath := by
    cases steps with
    | nil => exact ⟨_, rfl, isInside⟩
    | cons first rest =>
        rw [path_within, BlockPath.within, List.cons_prefix_cons] at onPath
        rcases onPath with ⟨rfl, onPath⟩
        rcases sound.inside rest onPath with ⟨deeper, reached, deeperInside⟩
        exact ⟨deeper, by simp [Block.locate?, found, reached], deeperInside⟩
  onField path line column isField := by
    cases inner with
    | body path => cases isField
    | field innerPath innerLine innerColumn =>
        cases isField
        rcases sound.onField innerPath line column rfl with ⟨deeper, reached, onField⟩
        exact ⟨deeper, by simp [Block.locate?, BlockPath.within, found, reached], onField⟩

end Hit

namespace Block

/-- Locating a block finds the one to which the steps lead. -/
theorem block_locate? (config : LayoutConfig) (x y : Float32) (block : Block) (steps : List Step) :
    (block.locate? config x y steps).map Located.block = block.descendant? steps := by
  have atStep : ∀ (block : Block) (x y : Float32) (step : Step),
      (block.locateChild? config x y step).map Located.block = block.child? step := by
    intro block x y step
    rw [locateChild?, child?]
    rcases block.lines[step.line]? with _ | ⟨cells, size⟩ | ⟨children, size⟩
    · rfl
    · simp only [Option.bind_some, Line.locate?, Line.child?]
      rcases cells[step.position]? with _ | cell
      · rfl
      · cases holds : cell.content.block? <;> simp [holds]
    · simp [Line.locate?, stackLocate?, Line.child?, Function.comp_def]
  induction steps generalizing block x y with
  | nil => rfl
  | cons step rest ih =>
      rw [descendant?_cons, ← atStep block x y step, locate?]
      cases block.locateChild? config x y step with
      | none => rfl
      | some located => exact ih located.x located.y located.block

theorem locate?_eq_some {steps : List Step}
    (found : block.locate? config x y steps = some located) :
    block.descendant? steps = some located.block := by
  rw [← block_locate? config x y block steps, found, Option.map_some]

theorem locateChild?_eq_some (found : block.locateChild? config x y step = some located) :
    block.child? step = some located.block := by
  have reached : block.descendant? [step] = some located.block :=
    locate?_eq_some (by rw [locate?, found]; rfl)
  simpa using reached

/-- Outside a block nothing is hit; inside it, its lines are asked. -/
theorem hit?_eq (config : LayoutConfig) (x y : Float32) (block : Block) :
    block.hit? config x y =
      if block.size.contains x y then hitLines config x y 0 0 block.lines else none := by
  cases block
  rfl

/-- A hit in a stack is a hit in one of its blocks, at the point shifted by the edge above this
block. -/
theorem hitStack_eq_some {children : List Block} {line position : Nat}
    (done : hitStack config x y line position top children = some hit) :
    ∃ place child inner, children[place]? = some child ∧
      hit? config x (y - nearEdge Block.height (· + config.elementPaddingVertical) top children
        place) child = some inner ∧
      hit = inner.within ⟨line, position + place⟩ := by
  induction children generalizing position top with
  | nil => cases done
  | cons child rest ih =>
      rw [hitStack] at done
      split at done
      · split at done
        · cases done
        · rcases Option.map_eq_some_iff.mp done with ⟨inner, found, rfl⟩
          exact ⟨0, child, inner, rfl, found, rfl⟩
      · split at done
        · cases done
        · rcases ih done with ⟨place, other, inner, atPlace, found, rfl⟩
          refine ⟨place + 1, other, inner, atPlace, found, ?_⟩
          rw [Nat.add_assoc, Nat.add_comm 1]

/-- A hit in a cell is the block itself, the field that is there, or a hit in the cell's block. -/
theorem hitCell_eq_some {cell : Cell Block}
    (done : hitCell config x y top step cell = some hit) :
    hit = .here ∨
      (hit = .field .root step.line step.position ∧ top ≤ y ∧ y ≤ top + cell.size.height ∧
        ∃ kind content size, cell = .column kind content size ∧ content.block? = none) ∨
      ∃ child inner, cell.content.block? = some child ∧
        hit? config (x - config.elementPaddingHorizontal) (y - top - config.elementPaddingVertical)
          child = some inner ∧
        hit = inner.within step := by
  cases cell with
  | label text size =>
      cases done
      exact .inl rfl
  | column kind content size =>
      cases content with
      | empty =>
          rw [hitCell] at done
          split at done
          · rename_i within
            rw [Bool.and_eq_true, decide_eq_true_eq, decide_eq_true_eq] at within
            cases done
            exact .inr (.inl ⟨rfl, within.1, within.2, kind, .empty, size, rfl, rfl⟩)
          · cases done
            exact .inl rfl
      | literal text =>
          rw [hitCell] at done
          split at done
          · rename_i within
            rw [Bool.and_eq_true, decide_eq_true_eq, decide_eq_true_eq] at within
            cases done
            exact .inr (.inl ⟨rfl, within.1, within.2, kind, .literal text, size, rfl, rfl⟩)
          · cases done
            exact .inl rfl
      | block child =>
          rw [hitCell] at done
          split at done
          · rcases Option.map_eq_some_iff.mp done with ⟨inner, found, rfl⟩
            exact .inr (.inr ⟨child, inner, rfl, found, rfl⟩)
          · cases done
            exact .inl rfl

/-- A hit in columns is the block itself or a hit in the first cell that reaches to the point. -/
theorem hitCells_eq_some {cells : List (Cell Block)} {row : Size} {line column : Nat}
    (done : hitCells config x y row.height line column left cells = some hit) :
    hit = .here ∨
      ∃ offset cell, FirstReaching Cell.width (· + config.innerPaddingHorizontal) left cells x
          offset cell ∧
        (0 < offset →
          ¬x ≤ nearEdge Cell.width (· + config.innerPaddingHorizontal) left cells offset) ∧
        hitCell config
          (x - nearEdge Cell.width (· + config.innerPaddingHorizontal) left cells offset) y
          (cellTop row cell) ⟨line, column + offset⟩ cell = some hit := by
  induction cells generalizing column left with
  | nil =>
      cases done
      exact .inl rfl
  | cons cell rest ih =>
      rw [hitCells] at done
      split at done
      · rename_i reaches
        exact .inr ⟨0, cell, firstReaching_head reaches, by simp, done⟩
      · rename_i ends
        split at done
        · cases done
          exact .inl rfl
        · rename_i beyond
          rcases ih done with here | ⟨offset, other, first, beyondGap, found⟩
          · exact .inl here
          · refine .inr ⟨offset + 1, other, firstReaching_cons ends first, ?_, ?_⟩
            · intro _
              cases offset with
              | zero => exact beyond
              | succ offset => exact beyondGap (Nat.succ_pos offset)
            · rwa [Nat.add_assoc, Nat.add_comm 1] at found

/-- A hit in lines is the block itself or a hit in the first line that reaches to the point. -/
theorem hitLines_eq_some {lines : List (Line Block)} {index : Nat}
    (done : hitLines config x y index top lines = some hit) :
    hit = .here ∨
      ∃ offset line, FirstReaching Line.height noGap top lines y offset line ∧
        hitLine config x (y - nearEdge Line.height noGap top lines offset) (index + offset) line =
          some hit := by
  induction lines generalizing index top with
  | nil =>
      rw [hitLines] at done
      split at done
      · cases done
        exact .inl rfl
      · cases done
  | cons line rest ih =>
      rw [hitLines] at done
      split at done
      · rename_i reaches
        split at done
        · cases done
        · exact .inr ⟨0, line, firstReaching_head reaches, done⟩
      · rename_i ends
        rcases ih done with here | ⟨offset, other, first, found⟩
        · exact .inl here
        · refine .inr ⟨offset + 1, other, firstReaching_cons ends first, ?_⟩
          rwa [Nat.add_assoc, Nat.add_comm 1] at found

/-- A line stops the search at the block, names one of its fields, or goes on in a block of it. -/
theorem soundIn_of_hitLine {index : Nat} {line : Line Block}
    (isInside : block.size.contains x y = true) (lineUnder : LineUnder block.lines y index line)
    (done : hitLine config x (y - lineTop block.lines index) index line = some hit)
    (inside : ∀ step located, block.locateChild? config x y step = some located → ∀ inner,
      located.block.hit? config located.x located.y = some inner →
        inner.SoundIn config located.block located.x located.y) :
    hit.SoundIn config block x y := by
  have atLine := lineUnder.here
  cases line with
  | columns cells row =>
      rw [hitLine] at done
      split at done
      · cases done
        exact Hit.soundIn_here isInside
      · rename_i beyondPadding
        rcases hitCells_eq_some done with rfl | ⟨column, cell, cellUnder, beyondGap, done⟩
        · exact Hit.soundIn_here isInside
        · rw [Nat.zero_add] at done
          rcases hitCell_eq_some done with rfl |
            ⟨rfl, top_le, le_bottom, kind, content, size, rfl, noBlock⟩ |
            ⟨child, inner, holds, found, rfl⟩
          · exact Hit.soundIn_here isInside
          · exact Hit.soundIn_field isInside ⟨cells, row, kind, content, size, lineUnder, cellUnder,
              beyondPadding, beyondGap, noBlock, top_le, le_bottom⟩
          · have atStep : block.locateChild? config x y ⟨index, column⟩ = some
                ⟨child, x - cellLeft config cells column - config.elementPaddingHorizontal,
                  y - lineTop block.lines index - cellTop row cell -
                    config.elementPaddingVertical⟩ := by
              simp [locateChild?, atLine, Line.locate?, cellUnder.here, holds]
            exact (inside _ _ atStep inner found).within atStep isInside
  | stack children size =>
      rw [hitLine] at done
      split at done
      · cases done
        exact Hit.soundIn_here isInside
      · split at done
        · cases done
        · rcases hitStack_eq_some done with ⟨place, child, inner, atPlace, found, rfl⟩
          rw [Nat.zero_add]
          have atStep : block.locateChild? config x y ⟨index, place⟩ = some
              ⟨child, x - (config.elementPaddingHorizontal + config.emptyLineWidth),
                y - lineTop block.lines index - config.elementPaddingVertical -
                  stackTop config children place⟩ := by
            simp [locateChild?, atLine, Line.locate?, stackLocate?, atPlace]
          exact (inside _ _ atStep inner found).within atStep isInside

/-- What a hit in a block says is true. -/
theorem soundIn_of_hit? (found : block.hit? config x y = some hit) :
    hit.SoundIn config block x y := by
  induction block using Block.induction generalizing x y hit with
  | inside block ih =>
      rw [hit?_eq] at found
      split at found
      · rename_i isInside
        rcases hitLines_eq_some found with rfl | ⟨index, line, lineUnder, done⟩
        · exact Hit.soundIn_here isInside
        · rw [Nat.zero_add] at done
          apply soundIn_of_hitLine isInside lineUnder done
          intro step located atStep inner inChild
          exact ih step located.block (locateChild?_eq_some atStep) inChild
      · cases found

/-- What a hit in a block names is there. -/
theorem isIn_of_hit? (found : block.hit? config x y = some hit) : hit.IsIn block.get? := by
  have sound := soundIn_of_hit? found
  cases hit with
  | body path =>
      rcases sound.inside path.steps List.prefix_rfl with ⟨located, reached, _⟩
      exact ⟨located.block, locate?_eq_some reached⟩
  | field path line column =>
      rcases sound.onField path line column rfl with
        ⟨located, reached, cells, row, kind, content, size, under⟩
      refine ⟨located.block, kind, content, size, locate?_eq_some reached, ?_, under.noBlock⟩
      simp [cell?, Line.cell?, under.lineUnder.here, under.cellUnder.here]

end Block

end BlockEditor
