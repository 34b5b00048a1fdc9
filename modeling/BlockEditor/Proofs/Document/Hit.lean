import BlockEditor.Proofs.Document.WellFormed

/-!
# Hit tests are sound

A hit test goes down from the document to the block under a point and shifts the point on the way.
`Document.locate?` does the same along a given path, without looking at the point. Along the path of
a hit, and along every path that leads to a block around it, the shifted point lies in the block,
and if the hit is a field, the point lies on the column that the hit names
(`Document.located_of_hit`).
-/

namespace BlockEditor

namespace Document

variable {document : Document} {x y : Float32} {hit : Hit} {path : BlockPath} {located : Located}

/-- A point of a document in the frame of the block at the end of a path. -/
def locate? (document : Document) (x y : Float32) (path : BlockPath) : Option Located :=
  let config := document.geometry.config
  match path.steps with
  | [] => none
  | step :: rest =>
    if step.line = 0 then
      (stackLocate? config (x - config.elementPaddingHorizontal)
        (y - config.elementPaddingVertical) document.blocks step.position).bind fun top =>
          top.block.locate? config top.x top.y rest
    else none

/-- A hit in a document is a hit in a top-level block, seen from one step further out. -/
theorem hit?_eq_some (found : document.hit? x y = some hit) :
    ∃ place top inner, stackLocate? document.geometry.config
        (x - document.geometry.config.elementPaddingHorizontal)
        (y - document.geometry.config.elementPaddingVertical) document.blocks place = some top ∧
      top.block.hit? document.geometry.config top.x top.y = some inner ∧
      hit = inner.within ⟨0, place⟩ := by
  rw [hit?] at found
  split at found
  · cases found
  · rcases Block.hitStack_eq_some found with ⟨place, block, inner, atPlace, inBlock, rfl⟩
    refine ⟨place, _, inner, by rw [stackLocate?, atPlace]; rfl, inBlock, by rw [Nat.zero_add]⟩

/-- A block that is located in a document is the one at the path. -/
theorem get?_of_locate? (reached : document.locate? x y path = some located) :
    document.get? path = some located.block := by
  rcases path with ⟨_ | ⟨step, rest⟩⟩
  · cases reached
  · rw [locate?] at reached
    simp only at reached
    split at reached
    · rename_i onRoot
      rcases Option.bind_eq_some_iff.mp reached with ⟨top, inStack, reached⟩
      rcases Option.map_eq_some_iff.mp inStack with ⟨block, atPlace, isTop⟩
      cases isTop
      simp [get?, onRoot, atPlace, Block.locate?_eq_some reached]
    · cases reached

/-- Whatever a hit in a document of well-formed blocks says is true. It leads to a top-level block
or further; all blocks on the way are there, and the point, shifted step by step into the frame of
each of them, lies in its rectangle. If the hit is a field, it is a child column without a block:
the first one that reaches as far right as the point, in the first line that reaches as far down,
with the point not in the padding before it and between its upper and its lower edge. -/
theorem located_of_hit (wellFormed : document.WellFormed) (found : document.hit? x y = some hit) :
    hit.path ≠ .root ∧
      (∀ path : BlockPath, path ≠ .root → hit.path.hasPrefix path = true →
        ∃ located, document.locate? x y path = some located ∧
          document.get? path = some located.block ∧ located.IsInside) ∧
      ∀ path line column, hit = .field path line column →
        ∃ located cells row kind content size, document.locate? x y path = some located ∧
          document.get? path = some located.block ∧
          FieldUnder document.geometry.config located line column cells row kind content size ∧
          (located.block.format.slotsOfLine line)[column]? = some (.child kind) := by
  rcases hit?_eq_some found with ⟨place, top, inner, atPlace, inBlock, rfl⟩
  have sound := Block.soundIn_of_hit? inBlock
  -- From the top-level block on, the path is followed as in the block itself.
  have onward : ∀ rest, document.locate? x y ⟨⟨0, place⟩ :: rest⟩ =
      top.block.locate? document.geometry.config top.x top.y rest := by
    intro rest
    simp [locate?, atPlace]
  refine ⟨?_, ?_, ?_⟩
  · rw [Hit.path_within]
    simp [BlockPath.within, BlockPath.root]
  · rintro ⟨_ | ⟨step, rest⟩⟩ notRoot onPath
    · exact absurd rfl notRoot
    · rw [Hit.path_within, BlockPath.hasPrefix, BlockPath.within, List.isPrefixOf_iff_prefix,
        List.cons_prefix_cons] at onPath
      rcases onPath with ⟨rfl, onPath⟩
      rcases sound.inside rest onPath with ⟨located, reached, isInside⟩
      have reached := (onward rest).trans reached
      exact ⟨located, reached, get?_of_locate? reached, isInside⟩
  · intro path line column isField
    cases inner with
    | body innerPath => cases isField
    | field innerPath innerLine innerColumn =>
        cases isField
        rcases sound.onField innerPath line column rfl with
          ⟨located, reached, cells, row, kind, content, size, under⟩
        have reached := (onward innerPath.steps).trans reached
        have inDocument := get?_of_locate? reached
        refine ⟨located, cells, row, kind, content, size, reached, inDocument, under, ?_⟩
        have atCell : located.block.cell? line column = some (.column kind content size) := by
          simp [Block.cell?, Line.cell?, under.lineUnder.here, under.cellUnder.here]
        rw [← Block.map_slot_cell? (wellFormed.get? inDocument).here.shape, atCell]
        rfl

/-- A point on the free input of a block that was put into the stack of another one. -/
theorem located_of_hit_nested :
    ∃ (document : Document) (located : Located), document.WellFormed ∧
      document.hit? 80 48 = some (.field ⟨[⟨0, 0⟩, ⟨1, 0⟩]⟩ 0 1) ∧
        document.locate? 80 48 ⟨[⟨0, 0⟩, ⟨1, 0⟩]⟩ = some located ∧
          Hit.OnField document.geometry.config 0 1 located := by
  let format : BlockFormat :=
    .plain "loop" 0 [.columns [.label "loop", .child (.input .num)], .stack]
  let style := Catalog.empty.style .standard
  let inner := Block.fresh style format
  let outer := ((Block.Edit.pushChild 1 inner).apply style inner).1
  let document := (Call.apply .empty (.empty .standard) (.insertAt outer 0 0)).1
  have innerWellFormed : inner.WellFormed := Block.invariant_consistent.everywhere_fresh _ format
  have outerWellFormed : outer.WellFormed := by
    refine (Block.invariant_consistent.everywhere_apply _ ?_ innerWellFormed).1
    intro child isHanded
    cases Option.mem_some_iff.mp isHanded
    exact innerWellFormed
  have wellFormed : document.WellFormed := by
    intro other otherMem
    cases List.mem_singleton.mp otherMem
    exact outerWellFormed
  have found : document.hit? 80 48 = some (.field ⟨[⟨0, 0⟩, ⟨1, 0⟩]⟩ 0 1) := by decide +kernel
  rcases (located_of_hit wellFormed found).2.2 _ _ _ rfl with
    ⟨located, cells, row, kind, content, size, reached, _, under, _⟩
  exact ⟨document, located, wellFormed, found, reached, cells, row, kind, content, size, under⟩

end Document

end BlockEditor
