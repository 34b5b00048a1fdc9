import BlockEditor.Proofs.Block.Hit
import BlockEditor.Proofs.Block.WellFormed
import BlockEditor.Proofs.Document.Run

/-!
# Well-formed documents

A document is well formed if its blocks are. What a hit test names is there in any document
(`Document.isIn_of_hit?`).
-/

namespace BlockEditor

namespace Document

variable {document : Document}

/-- Every block of a document is well formed. -/
def WellFormed (document : Document) : Prop := document.Everywhere Block.Consistent

/-- What a hit in a document names is there. -/
theorem isIn_of_hit? {x y : Float32} {hit : Hit} (found : document.hit? x y = some hit) :
    hit.IsIn document.get? := by
  rw [Document.hit?] at found
  split at found
  · cases found
  · rcases Block.hitStack_eq_some found with
      ⟨position, block, inner, atPosition, inBlock, rfl⟩
    have isIn := Block.isIn_of_hit? inBlock
    rw [Nat.zero_add]
    cases inner with
    | body path =>
        rcases isIn with ⟨owner, reached⟩
        exact ⟨owner, by simp [BlockPath.within, atPosition, ← reached, Block.get?]⟩
    | field path line column =>
        rcases isIn with ⟨owner, kind, content, size, reached, atCell, noBlock⟩
        exact ⟨owner, kind, content, size,
          by simp [BlockPath.within, atPosition, ← reached, Block.get?], atCell, noBlock⟩

end Document

end BlockEditor
