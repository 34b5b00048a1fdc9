import BlockEditor.Proofs.Catalog.Kept
import BlockEditor.Proofs.Record.Erased
import BlockEditor.Proofs.Record.Filled

/-!
# Records after refreshes

A document outlives the refreshes of the catalog that its blocks were built with. As long as no
call registers a format that a record mentions (`Catalog.Spares`), every format that the record
needs stays where it is, up to its deprecation mark, whether calls succeed or not. The record is
then still accepted and builds the same tree up to these marks, and the sizes in it change only with
the texts that are shown (`Block.ofRecord_refreshed`).
-/

namespace BlockEditor

open Json

namespace Catalog

/-- None of the formats that calls register, one call after the other, has an identifier that occurs
anywhere in a record. -/
def Spares (record : InstanceRecord) (catalog : Catalog) : List Call → Prop
  | [] => True
  | call :: rest =>
    (record.Everywhere fun inner => inner.id ∉ (call.brought catalog).map BlockFormat.id) ∧
      Spares record (call.apply catalog) rest

/-- The formats that a record needs stay, up to their marks. -/
theorem Spares.unmarked_lookup {record : InstanceRecord} {catalog : Catalog} {calls : List Call}
    (spares : catalog.Spares record calls) :
    record.Everywhere fun inner =>
      ((calls.foldl Call.apply catalog).lookup inner.id).map BlockFormat.unmarked =
        (catalog.lookup inner.id).map BlockFormat.unmarked := by
  induction calls generalizing catalog with
  | nil =>
      induction record using InstanceRecord.induction with
      | inside record ih => exact .intro rfl fun inner innerMem => ih inner innerMem trivial
  | cons call rest ih =>
      rcases spares with ⟨notBrought, spares⟩
      apply notBrought.combine (ih spares)
      intro inner notMem kept
      exact kept.trans (unmarked_lookup_apply call notMem)

/-- Calls that are about formats and categories only keep the texts and the active language. -/
theorem sameLabels_foldl (catalog : Catalog) (calls : List Call)
    (keep : ∀ call ∈ calls, call.keepsLabels = true) :
    (calls.foldl Call.apply catalog).SameLabels catalog := by
  induction calls generalizing catalog with
  | nil => exact ⟨rfl, rfl⟩
  | cons call rest ih =>
      rcases List.forall_mem_cons.mp keep with ⟨keeps, restKeep⟩
      rcases call.keepsLabels_apply keeps with ⟨texts, language⟩
      rcases ih (call.apply catalog) restKeep with ⟨otherTexts, otherLanguage⟩
      exact ⟨otherTexts.trans texts, otherLanguage.trans language⟩

theorem style_of_sameLabels {catalog after : Catalog} (same : SameLabels after catalog)
    (geometry : Geometry) : after.style geometry = catalog.style geometry := by
  rw [style, style, localize_of_sameLabels same]

end Catalog

namespace Block

/-- A record that a catalog accepts is still accepted after calls to the catalog that register no
format with an identifier in the record. It builds the same tree, up to the marks of formats and
sizes; up to the marks alone if the texts and the active language are the same. -/
theorem ofRecord_refreshed {catalog : Catalog} {geometry : Geometry} {record : InstanceRecord}
    {block : Block} {calls : List Catalog.Call}
    (built : ofRecord catalog (catalog.style geometry) record = .ok block)
    (spared : catalog.Spares record calls) :
    ∃ rebuilt, ofRecord (calls.foldl Catalog.Call.apply catalog)
        ((calls.foldl Catalog.Call.apply catalog).style geometry) record = .ok rebuilt ∧
      rebuilt.bare = block.bare ∧
        ((calls.foldl Catalog.Call.apply catalog).SameLabels catalog →
          rebuilt.unmarked = block.unmarked) := by
  have kept := spared.unmarked_lookup
  have sameBare := map_ofRecord_eq
    (forgets_bare ((calls.foldl Catalog.Call.apply catalog).style geometry)
      (catalog.style geometry)) kept
  rw [built] at sameBare
  rcases map_eq_ok.mp sameBare with ⟨rebuilt, rebuiltOk, bare⟩
  refine ⟨rebuilt, rebuiltOk, bare, ?_⟩
  intro sameLabels
  rw [Catalog.style_of_sameLabels sameLabels] at rebuiltOk
  have sameUnmarked := map_ofRecord_eq (forgets_unmarked (catalog.style geometry)) kept
  rw [built, rebuiltOk] at sameUnmarked
  exact Except.ok.inj sameUnmarked

/-- A block in a block, with formats that a refresh leaves out, is built again with these formats,
which are deprecated now. -/
theorem ofRecord_refreshed_loop :
    ∃ (catalog after : Catalog) (record : InstanceRecord) (block rebuilt inner : Block),
      after = [.beginRefresh, .commitRefresh (batchOfFormats [.plain "honk" 0 []])].foldl
          Catalog.Call.apply catalog ∧
        record = ⟨"loop", [.literal "3"], [[⟨"beep", [], []⟩]]⟩ ∧
          ofRecord catalog (catalog.style .standard) record = .ok block ∧
            ofRecord after (after.style .standard) record = .ok rebuilt ∧
              rebuilt.unmarked = block.unmarked ∧ block.format.deprecated = false ∧
                rebuilt.format.deprecated = true ∧ rebuilt.child? ⟨1, 0⟩ = some inner ∧
                  inner.format.id = "beep" ∧ inner.format.deprecated = true := by
  let loop : BlockFormat :=
    .plain "loop" 0 [.columns [.label "loop", .child (.input .num)], .stack]
  let catalog := Catalog.empty.registerFormats [loop, .plain "beep" 0 []]
  let record : InstanceRecord := ⟨"loop", [.literal "3"], [[⟨"beep", [], []⟩]]⟩
  let calls : List Catalog.Call :=
    [.beginRefresh, .commitRefresh (batchOfFormats [.plain "honk" 0 []])]
  have spared : catalog.Spares record calls := by
    have leavesOut : ∀ brought : List String, "loop" ∉ brought → "beep" ∉ brought →
        record.Everywhere fun part => part.id ∉ brought := by
      intro brought noLoop noBeep
      refine .intro noLoop fun inner innerMem => ?_
      cases List.mem_singleton.mp innerMem
      exact .intro noBeep fun _ never => by cases never
    exact ⟨leavesOut _ (by decide) (by decide), leavesOut _ (by decide +kernel) (by decide +kernel),
      trivial⟩
  have offered : ((ofRecord catalog (catalog.style .standard) record).toOption.map fun block =>
      block.format.deprecated) = some false := by
    decide +kernel
  have retired : ((ofRecord (calls.foldl Catalog.Call.apply catalog)
      ((calls.foldl Catalog.Call.apply catalog).style .standard) record).toOption.map fun block =>
        (block.format.deprecated, (block.child? ⟨1, 0⟩).map fun inner =>
          (inner.format.id, inner.format.deprecated))) = some (true, some ("beep", true)) := by
    decide +kernel
  cases built : ofRecord catalog (catalog.style .standard) record with
  | error error =>
      rw [built] at offered
      cases offered
  | ok block =>
      rcases ofRecord_refreshed built spared with ⟨rebuilt, rebuiltOk, _, same⟩
      have sameLabels := Catalog.sameLabels_foldl catalog calls (by decide)
      rw [built] at offered
      rw [rebuiltOk] at retired
      simp only [Except.toOption, Option.map_some, Option.some.injEq, Prod.mk.injEq]
        at offered retired
      rcases Option.map_eq_some_iff.mp retired.2 with ⟨inner, atInner, isBeep⟩
      exact ⟨catalog, _, record, block, rebuilt, inner, rfl, rfl, built, rebuiltOk, same sameLabels,
        offered, retired.1, atInner, congrArg Prod.fst isBeep, congrArg Prod.snd isBeep⟩

end Block

end BlockEditor
