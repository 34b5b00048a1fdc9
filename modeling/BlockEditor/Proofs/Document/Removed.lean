import BlockEditor.Proofs.Block.Taken
import BlockEditor.Proofs.Document.WellFormed

/-!
# Removing a block from a document

A path is followed in one way to find a block and in another one to take it out: the top-level
blocks, the stacks and the columns each have their own. `Document.remove_removed` says that the two
agree on every path, and `Document.Removed` what becomes of the document, block by block. A removal
at a point takes out the block that a hit test names, which is always there.
-/

namespace BlockEditor

namespace Document

/-- A document has become another one by taking a block out of a place of the block at the end of a
path, or of the stack of top-level blocks if the path is empty. -/
structure Removed (catalog : Catalog) (before after : Document) (taken : Block)
    (owner : BlockPath) (place : Place) : Prop where
  /-- The block was in its place. -/
  reached : before.get? (owner.child place.step) = some taken
  /-- The stack of top-level blocks has lost just the place, or the place was one of the block at
  the end of the path: a stack that has lost just the place, or a column that is empty now. -/
  emptied :
    (owner = .root ∧ ∃ index, place = .inStack 0 index ∧
        after.blocks = before.blocks.eraseIdx index) ∨
      ∃ target left, before.get? owner = some target ∧
        place.Empties (before.style catalog) taken target left ∧ after.get? owner = some left
  /-- The other blocks next to the place and everything in them are the same, in the same order. -/
  beside : ∀ step rest, place.moved step ≠ place.step →
    after.get? ((owner.child step).join rest) =
      before.get? ((owner.child (place.moved step)).join rest)
  /-- Blocks that are neither on the way to the place nor behind it are the same. -/
  apart : ∀ path : BlockPath, owner.hasPrefix path = false → path.hasPrefix owner = false →
    after.get? path = before.get? path
  /-- A block on the way has got another block where the way goes on, and has been measured. Sizes
  and that block aside it is the same. -/
  above : ∀ (upper : BlockPath) (step : Step) (lower : BlockPath) (old : Block),
    owner = (upper.child step).join lower → before.get? upper = some old →
    ∃ changed, after.get? (upper.child step) = some changed ∧
      after.get? upper = some ((old.setChild step changed).measured (before.style catalog)) ∧
      ((old.setChild step changed).measured (before.style catalog)).outline = old.outline
  /-- Of the document itself only the blocks and their extent have changed. -/
  rest : after = before.withBlocks after.blocks

variable {catalog : Catalog} {document : Document} {taken : Block} {path : BlockPath}

/-- Taking a block from the top is a removal. -/
theorem removed_top {index : Nat} (atIndex : document.blocks[index]? = some taken) :
    Removed catalog document (document.withBlocks (document.blocks.eraseIdx index)) taken .root
      (.inStack 0 index) where
  reached := by simp [BlockPath.child, BlockPath.root, Place.step, atIndex]
  emptied := .inl ⟨rfl, index, rfl, rfl⟩
  beside step rest _ := by
    rcases step with ⟨line, position⟩
    by_cases onRoot : line = 0
    · subst line
      by_cases behind : index ≤ position
      · simp [BlockPath.child, BlockPath.join, BlockPath.root, Place.moved, behind,
          List.getElem?_eraseIdx_of_ge behind]
      · simp [BlockPath.child, BlockPath.join, BlockPath.root, Place.moved, behind,
          List.getElem?_eraseIdx_of_lt (Nat.lt_of_not_le behind)]
    · simp [BlockPath.child, BlockPath.join, BlockPath.root, Place.moved, get?, onRoot]
  apart path _ notBelow := by
    simp [BlockPath.hasPrefix, BlockPath.root] at notBelow
  above upper step lower old onWay _ := by
    simp [BlockPath.root, BlockPath.child, BlockPath.join] at onWay
  rest := rfl

/-- Taking a block out of one in the document is a removal. -/
theorem removed_inside {index : Nat} {owner : List Step} {place : Place} {block left : Block}
    (atIndex : document.blocks[index]? = some block)
    (gone : Block.Taken (document.style catalog) taken owner place block left) :
    Removed catalog document (document.withBlocks (document.blocks.set index left)) taken
      ⟨⟨0, index⟩ :: owner⟩ place := by
  rcases List.getElem?_eq_some_iff.mp atIndex with ⟨inRange, _⟩
  have afterwards : (document.blocks.set index left)[index]? = some left := by
    simp [inRange]
  constructor
  case reached => simp [BlockPath.child, atIndex, gone.reached]
  case emptied =>
    rcases gone.target with ⟨target, emptied, reached, empties, reachedAfter⟩
    exact .inr ⟨target, emptied, by simp [atIndex, reached], empties,
      by simp [afterwards, reachedAfter]⟩
  case beside =>
    intro step rest different
    simp only [BlockPath.child, BlockPath.join, List.cons_append, List.append_assoc, get?_top,
      atIndex, Option.bind_some, List.nil_append, blocks_withBlocks, afterwards]
    exact gone.beside different rest.steps
  case apart =>
    intro path notAbove notBelow
    refine get?_set_of_apart atIndex ?_ notAbove notBelow
    intro rest above below
    exact gone.apart above below
  case above =>
    intro upper step lower old onWay found
    rcases get?_eq_some_of_above atIndex onWay found with ⟨upper, rfl, rfl, found⟩
    rcases gone.above found with ⟨inner, reached, reachedAfter, sameOutline⟩
    exact ⟨inner, by simp [BlockPath.child, afterwards, reached],
      by simp [afterwards, reachedAfter], sameOutline⟩
  case rest => rfl

/-- The block at the end of a path is taken out of exactly one place. -/
theorem exists_removed (catalog : Catalog) (found : document.get? path = some taken) :
    ∃ owner place, path = owner.child place.step ∧
      Removed catalog document (document.remove catalog path).1 taken owner place := by
  rcases get?_eq_some found with ⟨index, rest, block, steps, atIndex, reached⟩
  rcases path with ⟨_⟩
  cases steps
  -- The last step of the path names the place, and what comes before it the block around it.
  rcases List.eq_nil_or_concat rest with rfl | ⟨owner, step, rfl⟩
  · cases reached
    refine ⟨.root, .inStack 0 index, rfl, ?_⟩
    simpa [remove, atIndex] using removed_top atIndex
  · rw [List.concat_eq_append] at reached ⊢
    rcases Block.detach_taken (document.style catalog) reached with ⟨place, rfl, gone⟩
    refine ⟨⟨⟨0, index⟩ :: owner⟩, place, rfl, ?_⟩
    simpa [remove, atIndex] using removed_inside atIndex gone

/-- At the path of a hit there is a block. -/
theorem exists_of_hit? {x y : Float32} {hit : Hit} (found : document.hit? x y = some hit) :
    ∃ block, document.get? hit.path = some block := by
  have isIn := isIn_of_hit? found
  cases hit with
  | body path => exact isIn
  | field path line column =>
      rcases isIn with ⟨owner, _, _, _, reached, _⟩
      exact ⟨owner, reached⟩

/-- A removal by path hands out the block that the path leads to, and nothing if it leads nowhere.
This block is taken out of its place, and everything else stays as it is. A removal at a point hands
out a block exactly if something is hit there, and it is the removal by the path of the hit. -/
theorem remove_removed (catalog : Catalog) (document : Document) :
    (∀ path, (document.remove catalog path).2 = document.get? path) ∧
      (∀ path taken, document.get? path = some taken →
        ∃ owner place, path = owner.child place.step ∧
          Removed catalog document (document.remove catalog path).1 taken owner place) ∧
      (∀ x y, (∃ taken, (document.removeAt catalog x y).2 = some taken) ↔
        ∃ hit, document.hit? x y = some hit) ∧
      ∀ x y hit, document.hit? x y = some hit →
        document.removeAt catalog x y = document.remove catalog hit.path ∧
          ∃ taken, document.get? hit.path = some taken := by
  refine ⟨answer_remove catalog document, fun path taken => exists_removed catalog, ?_, ?_⟩
  · intro x y
    rw [removeAt]
    cases found : document.hit? x y with
    | none => simp
    | some hit => simpa [answer_remove] using exists_of_hit? found
  · intro x y hit found
    exact ⟨by simp [removeAt, found], exists_of_hit? found⟩

/-- At a point in a block that was put into the stack of another one, this block is removed. -/
theorem remove_removed_nested :
    ∃ (catalog : Catalog) (document : Document) (hit : Hit) (taken : Block),
      document.hit? 40 48 = some hit ∧ hit.path = ⟨[⟨0, 0⟩, ⟨1, 0⟩]⟩ ∧
        document.get? hit.path = some taken ∧
          (document.removeAt catalog 40 48).2 = some taken ∧
            ∃ owner place, hit.path = owner.child place.step ∧
              Removed catalog document (document.removeAt catalog 40 48).1 taken owner place := by
  let format : BlockFormat :=
    .plain "loop" 0 [.columns [.label "loop", .child (.input .num)], .stack]
  let catalog := Catalog.empty.registerFormats [format]
  let attached := (Call.apply catalog (.empty .standard) (.attachNew "loop")).1
  let document := (Call.apply catalog attached
    (.edit ⟨[⟨0, 0⟩]⟩ (.pushChild 1 (.fresh (catalog.style .standard) format)))).1
  have inside : (document.hit? 40 48).map Hit.path = some ⟨[⟨0, 0⟩, ⟨1, 0⟩]⟩ := by decide +kernel
  rcases Option.map_eq_some_iff.mp inside with ⟨hit, found, atPath⟩
  rcases remove_removed catalog document with ⟨answers, removes, _, atPoint⟩
  rcases atPoint 40 48 hit found with ⟨same, taken, reached⟩
  refine ⟨catalog, document, hit, taken, found, atPath, reached, ?_, ?_⟩
  · rw [same, answers, reached]
  · rw [same]
    exact removes hit.path taken reached

end Document

end BlockEditor
