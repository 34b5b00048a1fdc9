import BlockEditor.Block.Drop
import BlockEditor.Proofs.Block.Edges

/-!
# The stacks around a point

`nextStack?` is the first stack line that reaches down to a point, and `previousStack?` the last one
before it. A drop that goes by midpoints goes to one of the two, or to the edge of the block where
there is none (`chooseStack_stackSpans`). The search for them is a single walk that remembers the
last stack it has passed, so what it chooses is shown for an arbitrary remembered stack
(`chooseStack_eq`).
-/

namespace BlockEditor

/-- The lower edge of the line at an index. -/
def lineBottom (lines : List (Line Block)) (index : Nat) : Float32 :=
  lineTop lines index + lines[index]?.elim 0 Line.height

/-- The positions of the stack lines. -/
def stackLines (lines : List (Line Block)) : List Nat :=
  (List.range lines.length).filter fun index => lines[index]?.any Line.isStack

/-- The first stack line that reaches down to a point. -/
def nextStack? (lines : List (Line Block)) (y : Float32) : Option Nat :=
  (stackLines lines).find? fun index => y ≤ lineBottom lines index

/-- The last stack line before the first one that reaches down to a point, or the last one of all if
none does. -/
def previousStack? (lines : List (Line Block)) (y : Float32) : Option Nat :=
  ((stackLines lines).takeWhile fun index => some index ≠ nextStack? lines y).getLast?

/-- The middle between the end of the stack before a point and the beginning of the next one. Where
there is no stack, the edge of the block with the given height stands for it. -/
def stackMiddle (lines : List (Line Block)) (height y : Float32) : Float32 :=
  (((previousStack? lines y).map (lineBottom lines)).getD 0 +
    ((nextStack? lines y).map (lineTop lines)).getD height) / 2

variable {lines : List (Line Block)} {y : Float32} {index : Nat}

/-- What is listed as a stack line is one. -/
theorem stack_of_mem_stackLines (indexMem : index ∈ stackLines lines) :
    ∃ children size, lines[index]? = some (.stack children size) := by
  have isStack := (List.mem_filter.mp indexMem).2
  rcases atLine : lines[index]? with _ | ⟨cells, size⟩ | ⟨children, size⟩
  · simp [atLine] at isStack
  · simp [atLine, Line.isStack] at isStack
  · exact ⟨children, size, rfl⟩

theorem stack_of_nextStack? (isNext : nextStack? lines y = some index) :
    ∃ children size, lines[index]? = some (.stack children size) :=
  stack_of_mem_stackLines (List.mem_of_find?_eq_some isNext)

theorem stack_of_previousStack? (isPrevious : previousStack? lines y = some index) :
    ∃ children size, lines[index]? = some (.stack children size) :=
  stack_of_mem_stackLines ((List.takeWhile_sublist _).mem (List.mem_of_getLast? isPrevious))

/-- The spans of stacks are the stack lines with their edges. -/
theorem stackSpans_eq (index : Nat) (top : Float32) (lines : List (Line Block)) :
    stackSpans index top lines = (stackLines lines).map fun offset =>
      ⟨index + offset, nearEdge Line.height noGap top lines offset,
        nearEdge Line.height noGap top lines offset + lines[offset]?.elim 0 Line.height⟩ := by
  induction lines generalizing index top with
  | nil => rfl
  | cons line rest ih =>
      have later : stackLines (line :: rest) =
          if line.isStack then 0 :: (stackLines rest).map (· + 1)
          else (stackLines rest).map (· + 1) := by
        simp [stackLines, List.range_succ_eq_map, List.filter_cons, List.filter_map,
          Function.comp_def]
      rw [stackSpans, later, ih]
      split <;> simp [Line.height, Function.comp_def, Nat.add_assoc, Nat.add_comm 1]

theorem match_midpointSide {Answer : Type} (y previousEnd nextStart : Float32)
    (previous next : Answer) :
    (match midpointSide y previousEnd nextStart with
      | .previous => previous
      | .next => next) = if y ≤ (previousEnd + nextStart) / 2 then previous else next := by
  rw [midpointSide]
  by_cases upToMiddle : y ≤ (previousEnd + nextStart) / 2
  · rw [if_pos upToMiddle, if_pos upToMiddle]
  · rw [if_neg upToMiddle, if_neg upToMiddle]

/-- The choice is made by the first span that ends at or below the point, and the one before it. -/
theorem chooseStack_eq (y height : Float32) (previous : Option StackSpan)
    (spans : List StackSpan) :
    chooseStack y height previous spans =
      let next := spans.find? fun span => y ≤ span.bottom
      let before := (spans.takeWhile fun span => !decide (y ≤ span.bottom)).getLast?.or previous
      if y ≤ ((before.map StackSpan.bottom).getD 0 + (next.map StackSpan.top).getD height) / 2 then
        (before.map fun span => .last span.line).getD .above
      else (next.map fun span => .first span.line).getD .below := by
  induction spans generalizing previous with
  | nil => exact match_midpointSide y _ height _ StackChoice.below
  | cons span rest ih =>
      rw [chooseStack]
      split
      · rename_i reaches
        refine (match_midpointSide y _ span.top _ (StackChoice.first span.line)).trans ?_
        simp [reaches]
      · rename_i ends
        simp [ih, ends, List.getLast?_cons]

/-- What comes before the first thing with a property is what comes before any with it. -/
theorem takeWhile_ne_find? {Thing : Type} [DecidableEq Thing] (holds : Thing → Bool)
    (things : List Thing) :
    (things.takeWhile fun thing => some thing ≠ things.find? holds) =
      things.takeWhile fun thing => !holds thing := by
  induction things with
  | nil => rfl
  | cons thing rest ih =>
      cases held : holds thing with
      | true => simp [held]
      | false =>
          have isOther : some thing ≠ rest.find? holds := by
            intro found
            rw [List.find?_some found.symm] at held
            cases held
          rw [List.find?_cons_of_neg (by simp [held])]
          simp [held, isOther, ← ih]

/-- Up to the middle between two stacks the one before is chosen, and beyond it the one after. -/
theorem chooseStack_stackSpans (y height : Float32) (lines : List (Line Block)) :
    chooseStack y height none (stackSpans 0 0 lines) =
      if y ≤ stackMiddle lines height y then ((previousStack? lines y).map .last).getD .above
      else ((nextStack? lines y).map .first).getD .below := by
  have spans : stackSpans 0 0 lines = (stackLines lines).map fun index =>
      ⟨index, lineTop lines index, lineBottom lines index⟩ := by
    simpa [lineTop, lineBottom] using stackSpans_eq 0 0 lines
  rw [stackMiddle, previousStack?, nextStack?, takeWhile_ne_find?, chooseStack_eq, spans]
  simp [List.find?_map, List.takeWhile_map, List.getLast?_map, Function.comp_def]

/-- A drop that goes by midpoints finds a stack on the line that it goes to. -/
theorem Block.stack_of_chooseStack {height : Float32}
    (chosen : chooseStack y height none (stackSpans 0 0 lines) = .first index ∨
      chooseStack y height none (stackSpans 0 0 lines) = .last index) :
    ∃ children size, lines[index]? = some (.stack children size) := by
  rw [chooseStack_stackSpans] at chosen
  split at chosen
  · cases isPrevious : previousStack? lines y with
    | none => simp [isPrevious] at chosen
    | some line =>
        have same : line = index := by simpa [isPrevious] using chosen
        exact same ▸ stack_of_previousStack? isPrevious
  · cases isNext : nextStack? lines y with
    | none => simp [isNext] at chosen
    | some line =>
        have same : line = index := by simpa [isNext] using chosen
        exact same ▸ stack_of_nextStack? isNext

end BlockEditor
