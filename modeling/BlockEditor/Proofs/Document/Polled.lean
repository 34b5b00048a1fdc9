import BlockEditor.Proofs.Document.Drop
import BlockEditor.Proofs.Document.Recordwise
import BlockEditor.Proofs.Document.Refused
import BlockEditor.Proofs.Record.Edited

/-!
# What a document makes known

A document makes its records known when it is filled from records and when a poll finds that they
are not those that were last made known. `Document.told` lists what is made known in a run of
events, and `Document.published_run` says that the document remembers the last of it. So a poll
answers exactly if the records have changed since then (`Document.pollChange_exact`), whatever has
been done in between. Nothing is to be made known after a layout or a refusal, because these leave
the records as they are even where the sizes change.
-/

namespace BlockEditor

variable {style : Style}

namespace Block

variable {block : Block}

/-- Where no block is detached, the record stays as it is. -/
theorem record_detach_of_refused {path : BlockPath} (refused : (block.detach style path).2 = none) :
    (block.detach style path).1.record = block.record := by
  rw [detach_eq] at refused ⊢
  split at refused
  · rfl
  · refine record_updateAt_getD ?_ refused
    intro inner refusedInside
    rw [takeChild_unchanged refusedInside]

theorem record_setValueAt_of_refused {text : String} {x y : Float32}
    (refused : (block.setValueAt style text x y).2 = false) :
    (block.setValueAt style text x y).1.record = block.record := by
  rw [setValueAt] at refused ⊢
  split at refused
  · refine record_updateAt_getD ?_ refused
    intro inner refusedInside
    rw [typeText_unchanged refusedInside]
  · rfl

theorem record_removeAt_of_refused {x y : Float32}
    (refused : (block.removeAt style x y).2 = none) :
    (block.removeAt style x y).1.record = block.record := by
  rw [removeAt] at refused ⊢
  split at refused
  · exact record_detach_of_refused refused
  · rfl

/-- A block that refuses an edit has the same record afterwards. -/
theorem Edit.record_of_refused {edit : Edit} (refused : edit.Refused style block) :
    (edit.apply style block).1.record = block.record := by
  cases edit with
  | setLiteral line column text => exact congrArg record (typeText_unchanged refused)
  | placeChild line column child => rw [apply, placeChild_unchanged refused]
  | insertChild line index child => rw [apply, insertChild_unchanged refused]
  | pushChild line child => rw [apply, pushChild_unchanged refused]
  | takeChild step => rw [apply, takeChild_unchanged refused]
  | detach path => exact record_detach_of_refused refused
  | setValueAt text x y => exact record_setValueAt_of_refused refused
  | removeAt x y => exact record_removeAt_of_refused refused
  | relayout => cases refused

end Block

namespace Document

variable {catalog otherCatalog : Catalog} {document after : Document} {path : BlockPath}

theorem records_set {index : Nat} {block changed : Block}
    (atIndex : document.blocks[index]? = some block) (same : changed.record = block.record) :
    (document.withBlocks (document.blocks.set index changed)).records = document.records := by
  rw [records, records, Block.stackRecords_eq_map, Block.stackRecords_eq_map]
  exact map_set_eq_map atIndex same

theorem records_relayout (catalog : Catalog) (document : Document) :
    (document.relayout catalog).records = document.records := by
  simp [records, relayout, Block.relaidStack_eq_map, Block.stackRecords_eq_map,
    Block.record_relaid]

theorem records_setGeometry (catalog : Catalog) (document : Document) (geometry : Geometry) :
    (document.setGeometry catalog geometry).records = document.records :=
  records_relayout catalog { document with geometry }

/-- An edit that keeps the record of the block at the end of the path keeps all records. -/
theorem records_edit {Answer : Type} {change : Block → Block × Answer}
    (keeps : ∀ target, document.get? path = some target →
      (change target).1.record = target.record) (answer : Answer) :
    ((document.edit catalog path change).getD (document, answer)).1.records = document.records := by
  cases done : document.edit catalog path change with
  | none => rfl
  | some result =>
      rcases edit_eq_some done with ⟨index, rest, block, changed, steps, atIndex, updated, same⟩
      rw [Option.getD_some, same]
      refine records_set atIndex (Block.record_updateAt updated ?_)
      intro target reached
      rcases path with ⟨_⟩
      cases steps
      exact keeps target (by simp [atIndex, reached])

theorem records_remove_of_refused (refused : (document.remove catalog path).2 = none) :
    (document.remove catalog path).1.records = document.records := by
  rcases remove_cases catalog document path with
    same | ⟨_, _, _, _, same⟩ | ⟨index, rest, block, _, _, atIndex, same⟩
  · rw [same]
  · simp [same] at refused
  · rw [same] at refused ⊢
    exact records_set atIndex (Block.record_detach_of_refused refused)

theorem records_setValueAt_of_refused {text : String} {x y : Float32}
    (refused : (document.setValueAt catalog text x y).2 = false) :
    (document.setValueAt catalog text x y).1.records = document.records := by
  rw [setValueAt] at refused ⊢
  split at refused
  · rename_i path line column _
    refine records_edit ?_ _
    intro target reached
    rcases edit_exists catalog (Block.typeText (document.style catalog) line column text)
      reached with ⟨after, done⟩
    rw [done, Option.getD_some] at refused
    rw [Block.typeText_unchanged refused]
  · rfl

theorem records_removeAt_of_refused {x y : Float32}
    (refused : (document.removeAt catalog x y).2 = none) :
    (document.removeAt catalog x y).1.records = document.records := by
  rw [removeAt] at refused ⊢
  split at refused
  · exact records_remove_of_refused refused
  · rfl

/-- A document that refuses a call has the same records afterwards. -/
theorem Call.records_of_refused {call : Call} (refused : call.Refused catalog document) :
    (call.apply catalog document).1.records = document.records := by
  cases call with
  | attachNew id =>
      rcases refused with ⟨error, refused⟩
      simp [apply, refused, Except.toOption]
  | loadText text =>
      rcases refused with ⟨error, refused⟩
      simp [apply, refused, Except.toOption]
  | edit path change =>
      refine records_edit ?_ _
      intro target reached
      exact Block.Edit.record_of_refused (refused target reached)
  | setValueAt text x y => exact records_setValueAt_of_refused refused
  | remove path => exact records_remove_of_refused refused
  | removeAt x y => exact records_removeAt_of_refused refused
  | load records => cases refused
  | clear => cases refused
  | relayout => cases refused
  | setGeometry geometry => cases refused
  | insertAt block x y => cases refused
  | pollChange => cases refused

/-- A document has the same records after a block was removed and put back into its place, whatever
sizes have changed on the way. -/
theorem records_of_put_back {taken : Block} {owner : BlockPath} {place : Place}
    (found : document.get? path = some taken)
    (landed : Landed otherCatalog (document.remove catalog path).1 taken owner place after)
    (back : owner.child place.step = path) : after.records = document.records := by
  rcases get?_eq_some found with ⟨index, rest, block, steps, atIndex, reached⟩
  rcases path with ⟨_⟩
  cases steps
  rcases List.eq_nil_or_concat rest with rfl | ⟨inner, step, rfl⟩
  · cases reached
    cases landed with
    | top inRange =>
        cases back
        rcases List.getElem?_eq_some_iff.mp atIndex with ⟨indexInRange, rfl⟩
        have restored : (document.remove catalog ⟨[⟨0, index⟩]⟩).1.blocks.insertIdx index
            document.blocks[index] = document.blocks := by
          simp [remove, atIndex, List.insertIdx_eraseIdx_getElem indexInRange]
        rw [records, blocks_withBlocks, restored, records]
    | inside atOther put => simp [BlockPath.child] at back
  · rw [List.concat_eq_append] at reached landed back
    rcases Block.detach_taken (document.style catalog) reached with ⟨emptied, rfl, gone⟩
    cases landed with
    | top inRange => simp [BlockPath.child, BlockPath.root] at back
    | @inside otherIndex otherOwner place otherBlock changed atOther put =>
        simp only [BlockPath.child, List.cons_append, BlockPath.mk.injEq, List.cons.injEq,
          Step.mk.injEq, true_and] at back
        rcases back with ⟨rfl, back⟩
        rcases List.append_inj' back rfl with ⟨rfl, lastSteps⟩
        rcases List.getElem?_eq_some_iff.mp atIndex with ⟨inRange, _⟩
        have left : ((document.remove catalog ⟨⟨0, otherIndex⟩ :: (otherOwner ++
            [emptied.step])⟩).1.blocks) = document.blocks.set otherIndex
              (block.detach (document.style catalog) ⟨otherOwner ++ [emptied.step]⟩).1 := by
          simp [remove, atIndex]
        rw [left, List.getElem?_set_self inRange] at atOther
        cases atOther
        have same := gone.record_put_back put (List.cons.inj lastSteps).1
        rw [records, blocks_withBlocks, left, List.set_set]
        exact records_set atIndex same

/-- A call that only computes sizes. -/
inductive Call.IsLayout : Call → Prop where
  | relayout : IsLayout .relayout
  | setGeometry (geometry : Geometry) : IsLayout (.setGeometry geometry)
  | relayoutAt (path : BlockPath) : IsLayout (.edit path .relayout)

/-- Something that happens to a document. -/
inductive Event where
  /-- A call, with the catalog that there is at the time. -/
  | asked (catalog : Catalog) (call : Call)
  /-- Any change of the block at the end of a path. -/
  | changed (catalog : Catalog) (path : BlockPath) (change : Block → Block)

namespace Event

/-- The document after an event. -/
def apply (document : Document) : Event → Document
  | .asked catalog call => (call.apply catalog document).1
  | .changed catalog path change =>
      ((document.edit catalog path fun block => (change block, ())).getD (document, ())).1

/-- The records that an event makes known: those that a poll gives out, or those of the document
after it has been filled. -/
def told? (document : Document) : Event → Option (List InstanceRecord)
  | .asked catalog (.load records) => some (document.load catalog records).1.records
  | .asked catalog (.loadText text) =>
      (document.loadText catalog text).toOption.map fun loaded => loaded.1.records
  | .asked _ .pollChange => document.pollChange.2
  | _ => none

/-- An event only computes sizes, or is refused, or changes a block into one with the same
record. -/
def Silent (document : Document) : Event → Prop
  | .asked catalog call => call.IsLayout ∨ call.Refused catalog document
  | .changed _ path change => ∀ target, document.get? path = some target →
      (change target).record = target.record

end Event

/-- The document after a run of events. -/
def run (document : Document) (events : List Event) : Document :=
  events.foldl Event.apply document

/-- The records that a run of events makes known, one time after the other. -/
def told (document : Document) : List Event → List (List InstanceRecord)
  | [] => []
  | event :: rest => (event.told? document).toList ++ (event.apply document).told rest

/-- Every event of a run is silent. -/
def Quiet (document : Document) : List Event → Prop
  | [] => True
  | event :: rest => event.Silent document ∧ (event.apply document).Quiet rest

variable {event : Event} {events : List Event}

/-- An edit makes nothing known. -/
theorem published_edit {Answer : Type} (catalog : Catalog) (document : Document) (path : BlockPath)
    (change : Block → Block × Answer) (answer : Answer) :
    ((document.edit catalog path change).getD (document, answer)).1.published =
      document.published := by
  cases done : document.edit catalog path change with
  | none => rfl
  | some result =>
      rcases edit_eq_some done with ⟨_, _, _, _, _, _, _, same⟩
      rw [Option.getD_some, same]
      rfl

theorem published_remove (catalog : Catalog) (document : Document) (path : BlockPath) :
    (document.remove catalog path).1.published = document.published := by
  rcases remove_cases catalog document path with
    same | ⟨_, _, _, _, same⟩ | ⟨_, _, _, _, _, _, same⟩ <;> rw [same] <;> rfl

/-- What an event makes known is what the document remembers from then on. -/
theorem Event.published_apply (document : Document) (event : Event) :
    (event.apply document).published = (event.told? document).getD document.published := by
  cases event with
  | changed catalog path change => exact published_edit catalog document path _ ()
  | asked catalog call =>
      cases call with
      | attachNew id =>
          rw [apply, Call.apply, attachNew, Block.ofId]
          cases catalog.lookup id <;> rfl
      | load records => rfl
      | loadText text =>
          rw [apply, Call.apply, told?, loadText]
          cases InstanceRecord.listOfText? text <;> rfl
      | clear => rfl
      | relayout => rfl
      | setGeometry geometry => rfl
      | edit path change => exact published_edit catalog document path _ _
      | setValueAt text x y =>
          rw [apply, Call.apply, setValueAt]
          split
          · exact published_edit catalog document _ _ _
          · rfl
      | remove path => exact published_remove catalog document path
      | removeAt x y =>
          rw [apply, Call.apply, removeAt]
          split
          · exact published_remove catalog document _
          · rfl
      | insertAt block x y => rfl
      | pollChange =>
          rw [apply, Call.apply, told?, pollChange]
          split <;> rfl

/-- After a run of events a document remembers what was last made known in it. -/
theorem published_run (document : Document) (events : List Event) :
    (document.run events).published = (document.told events).getLastD document.published := by
  induction events generalizing document with
  | nil => rfl
  | cons event rest ih =>
      have later : (document.run (event :: rest)).published =
          ((event.apply document).told rest).getLastD (event.apply document).published :=
        ih (event.apply document)
      rw [later, Event.published_apply, told]
      cases event.told? document with
      | none => rfl
      | some records =>
          simp only [Option.toList_some, List.singleton_append, Option.getD_some]
          rw [List.getLastD_cons]

/-- An event that is silent leaves the records as they are. -/
theorem records_of_silent (silent : event.Silent document) :
    (event.apply document).records = document.records := by
  cases event with
  | changed catalog path change =>
      refine records_edit ?_ ()
      intro target reached
      exact silent target reached
  | asked catalog call =>
      rcases silent with isLayout | refused
      · cases isLayout with
        | relayout => exact records_relayout catalog document
        | setGeometry geometry => exact records_setGeometry catalog document geometry
        | relayoutAt path =>
            refine records_edit ?_ _
            intro target _
            exact Block.record_relaid _ target
      · exact Call.records_of_refused refused

/-- An event that is silent makes nothing known. -/
theorem told?_of_silent (silent : event.Silent document) : event.told? document = none := by
  cases event with
  | changed catalog path change => rfl
  | asked catalog call =>
      rcases silent with isLayout | refused
      · cases isLayout <;> rfl
      · cases call with
        | load records => cases refused
        | loadText text =>
            rcases refused with ⟨error, refused⟩
            simp [Event.told?, refused, Except.toOption]
        | pollChange => cases refused
        | _ => rfl

/-- Silent events leave the records and what is known of them. -/
theorem quiet_kept (quiet : document.Quiet events) :
    (document.run events).records = document.records ∧
      (document.run events).published = document.published := by
  induction events generalizing document with
  | nil => exact ⟨rfl, rfl⟩
  | cons event rest ih =>
      have later := ih quiet.2
      rw [records_of_silent quiet.1, Event.published_apply, told?_of_silent quiet.1] at later
      exact later

/-- A poll gives out the records unless they are those that were made known. -/
theorem answer_pollChange (document : Document) :
    document.pollChange.2 =
      if document.records = document.published then none else some document.records := by
  rw [pollChange]
  split <;> rfl

/-- What polls of a document answer after events, of which the first ones have filled an empty
document. -/
structure PollsExactly (geometry : Geometry) (events : List Event) (document : Document) :
    Prop where
  /-- A poll gives out the records exactly if they are not those that were last made known, or none
  before anything was. -/
  answer : document.pollChange.2 =
    if document.records = ((empty geometry).told events).getLastD [] then none
    else some document.records
  /-- A second poll gives out nothing. -/
  again : document.pollChange.1.pollChange = (document.pollChange.1, none)
  /-- Events that only compute sizes, are refused or keep the records of what they change make no
  poll answer. -/
  quiet : ∀ more, document.Quiet more →
    (document.run more).pollChange.2 = document.pollChange.2
  /-- After events that make nothing known a poll is silent exactly if the records are the same
  again. -/
  silent_iff : ∀ more, document.pollChange.2 = none → document.told more = [] →
    ((document.run more).pollChange.2 = none ↔ (document.run more).records = document.records)
  /-- This is so if a block was removed and put back at its path, with whatever catalogs. -/
  putBack : ∀ catalog otherCatalog path taken x y owner place, document.get? path = some taken →
    owner.child place.step = path →
    Landed otherCatalog (document.remove catalog path).1 taken owner place
      ((document.remove catalog path).1.insertAt otherCatalog taken x y) →
    (document.run [.asked catalog (.remove path),
      .asked otherCatalog (.insertAt taken x y)]).pollChange.2 = document.pollChange.2

/-- After any run of events, polls answer exactly if there is something to be made known. -/
theorem pollChange_exact {geometry : Geometry} {events : List Event}
    (reached : (empty geometry).run events = document) :
    PollsExactly geometry events document where
  answer := by
    rw [answer_pollChange, ← reached, published_run]
    rfl
  again := by
    apply pollChange_of_published
    rw [pollChange]
    split
    · rename_i known
      exact known.symm
    · rfl
  quiet more quiet := by
    rcases quiet_kept quiet with ⟨sameRecords, samePublished⟩
    rw [answer_pollChange, answer_pollChange, sameRecords, samePublished]
  silent_iff more nothingNew nothingTold := by
    have known : document.records = document.published := by
      rw [answer_pollChange] at nothingNew
      simpa using nothingNew
    rw [answer_pollChange, published_run, nothingTold, List.getLastD_nil, ← known]
    simp
  putBack catalog otherCatalog path taken x y owner place found back landed := by
    have sameRecords : (document.run [.asked catalog (.remove path),
        .asked otherCatalog (.insertAt taken x y)]).records = document.records :=
      records_of_put_back found landed back
    have samePublished : (document.run [.asked catalog (.remove path),
        .asked otherCatalog (.insertAt taken x y)]).published = document.published :=
      published_run document _
    rw [answer_pollChange, answer_pollChange, sameRecords, samePublished]

/-- After a block was put into another one and a poll has made this known, neither a refused call
and a layout make a poll answer, nor that the outer block is removed and dropped again, though the
removal alone would. -/
theorem pollChange_exact_put_back :
    ∃ (catalog : Catalog) (events : List Event) (document : Document) (outer : Block),
      (empty .standard).run events = document ∧
      (empty .standard).told events =
        [[⟨"loop", [.literal ""], [[⟨"loop", [.literal ""], [[]]⟩]]⟩]] ∧
      document.pollChange.2 = none ∧
      (document.run [.asked catalog (.attachNew "gone"),
        .asked catalog (.setGeometry .standard)]).pollChange.2 = none ∧
      (document.remove catalog ⟨[⟨0, 0⟩]⟩).2 = some outer ∧
      (document.remove catalog ⟨[⟨0, 0⟩]⟩).1.pollChange.2 = some [] ∧
      (document.run [.asked catalog (.remove ⟨[⟨0, 0⟩]⟩),
        .asked catalog (.insertAt outer 40 41)]).pollChange.2 = none := by
  let format : BlockFormat :=
    .plain "loop" 0 [.columns [.label "loop", .child (.input .num)], .stack]
  let catalog := Catalog.empty.registerFormats [format]
  let events : List Event := [.asked catalog (.attachNew "loop"),
    .asked catalog (.edit ⟨[⟨0, 0⟩]⟩ (.pushChild 1 (.fresh (catalog.style .standard) format))),
    .asked catalog .pollChange]
  let document := (empty .standard).run events
  have polls := pollChange_exact (rfl : (empty .standard).run events = document)
  have nothing : document.pollChange.2 = none := by decide +kernel
  have silent : document.Quiet [.asked catalog (.attachNew "gone"),
      .asked catalog (.setGeometry .standard)] :=
    ⟨.inr ⟨.unknownFormat "gone", rfl⟩, .inl (.setGeometry _), trivial⟩
  have inside : ∃ outer, document.get? ⟨[⟨0, 0⟩]⟩ = some outer := ⟨_, rfl⟩
  rcases inside with ⟨outer, inside⟩
  have landed : Landed catalog (document.remove catalog ⟨[⟨0, 0⟩]⟩).1 outer .root (.inStack 0 0)
      ((document.remove catalog ⟨[⟨0, 0⟩]⟩).1.insertAt catalog outer 40 41) :=
    .top (Nat.le_refl 0)
  refine ⟨catalog, events, document, outer, rfl, ?_, nothing, ?_, ?_, ?_, ?_⟩
  · decide +kernel
  · rw [polls.quiet _ silent, nothing]
  · rw [answer_remove, inside]
  · decide +kernel
  · rw [polls.putBack _ _ _ _ _ _ _ _ inside rfl landed, nothing]

end Document

end BlockEditor
