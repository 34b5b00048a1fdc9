import Mathlib.Data.List.Nodup
import BlockEditor.Catalog.Palette
import BlockEditor.Proofs.Catalog.Keyed

/-!
# The palette as a partition

A list falls into the parts that have one value of a key each, if the values are taken from a list
without repetitions that has them all (`perm_flatMap_filter`). The palette takes the categories of
the formats that are offered, without repetitions and increasing, so its groups are a partition of
these formats. If every format is stored under its own identifier, each identifier stands in the
palette once, and the identifiers of a group increase (`Catalog.palette_partition`).
-/

namespace BlockEditor

theorem mem_insertDistinct {number other : Nat} {numbers : List Nat} :
    other ∈ insertDistinct number numbers ↔ other = number ∨ other ∈ numbers := by
  induction numbers with
  | nil => simp [insertDistinct]
  | cons first rest ih =>
      rw [insertDistinct]
      split
      · simp
      · split
        · rename_i same
          simp [same]
        · simp [ih, or_left_comm]

/-- Inserting keeps numbers strictly increasing. -/
theorem pairwise_insertDistinct {number : Nat} {numbers : List Nat}
    (increase : numbers.Pairwise (· < ·)) : (insertDistinct number numbers).Pairwise (· < ·) := by
  induction numbers with
  | nil => exact List.pairwise_singleton _ _
  | cons first rest ih =>
      rcases List.pairwise_cons.mp increase with ⟨above, restIncrease⟩
      rw [insertDistinct]
      split
      · rename_i below
        refine List.Pairwise.cons ?_ increase
        intro other otherMem
        rcases List.mem_cons.mp otherMem with rfl | otherMem
        · exact below
        · exact Nat.lt_trans below (above other otherMem)
      · split
        · exact increase
        · refine List.Pairwise.cons ?_ (ih restIncrease)
          intro other otherMem
          rcases mem_insertDistinct.mp otherMem with rfl | otherMem
          · omega
          · exact above other otherMem

theorem mem_distinctSorted {number : Nat} {numbers : List Nat} :
    number ∈ distinctSorted numbers ↔ number ∈ numbers := by
  induction numbers with
  | nil => rfl
  | cons first rest ih =>
      have added : distinctSorted (first :: rest) =
          insertDistinct first (distinctSorted rest) := rfl
      rw [added, mem_insertDistinct, ih, List.mem_cons]

theorem pairwise_distinctSorted (numbers : List Nat) :
    (distinctSorted numbers).Pairwise (· < ·) := by
  induction numbers with
  | nil => exact List.Pairwise.nil
  | cons first rest ih => exact pairwise_insertDistinct ih

/-- A list is what its parts are together, one for each value of a key. -/
theorem perm_flatMap_filter {Item : Type} {key : Item → Nat} {keys : List Nat}
    (distinct : keys.Nodup) {items : List Item} (covered : ∀ item ∈ items, key item ∈ keys) :
    (keys.flatMap fun value => items.filter fun item => key item == value).Perm items := by
  induction keys generalizing items with
  | nil =>
      have noItems : items = [] := List.eq_nil_iff_forall_not_mem.mpr fun item itemMem =>
        List.not_mem_nil (covered item itemMem)
      rw [noItems]
      exact List.Perm.refl _
  | cons first rest ih =>
      rcases List.nodup_cons.mp distinct with ⟨notMem, restDistinct⟩
      -- The other parts do not meet the first one.
      have others : (rest.flatMap fun value => items.filter fun item => key item == value) =
          rest.flatMap fun value =>
            (items.filter fun item => !(key item == first)).filter fun item =>
              key item == value := by
        apply List.flatMap_congr
        intro value valueMem
        rw [List.filter_filter]
        apply List.filter_congr
        intro item _
        have different : value ≠ first := fun same => notMem (same ▸ valueMem)
        by_cases hasValue : key item = value
        · simp [hasValue, different]
        · simp [hasValue]
      rw [List.flatMap_cons, others]
      refine List.Perm.trans (List.Perm.append_left _ (ih restDistinct ?_))
        (List.filter_append_perm _ items)
      intro item itemMem
      rcases List.mem_filter.mp itemMem with ⟨itemMem, notFirst⟩
      rcases List.mem_cons.mp (covered item itemMem) with isFirst | inRest
      · simp [isFirst] at notFirst
      · exact inRest

namespace Catalog

variable {catalog : Catalog}

/-- Groups of entries are a partition of the formats that a catalog offers. -/
structure Partition (catalog : Catalog) (groups : List PaletteGroup) : Prop where
  /-- The groups are in the order of their categories, and no two have the same one. -/
  increasing : (groups.map PaletteGroup.index).Pairwise (· < ·)
  /-- Every group has entries. -/
  inhabited : ∀ group ∈ groups, group.entries ≠ []
  /-- The identifiers of a group increase. -/
  inOrder : ∀ group ∈ groups, (group.entries.map Prod.fst).Pairwise (· < ·)
  /-- What is offered stands in the group of its category under its shown name, and nothing else
  stands there. -/
  placed : ∀ index id name,
    (∃ group ∈ groups, group.index = index ∧ (id, name) ∈ group.entries) ↔
      ∃ format, catalog.lookup id = some format ∧ format.deprecated = false ∧
        format.category.toNat = index ∧ catalog.nameOf format = name
  /-- What is offered stands in one place, and what is deprecated in none. -/
  once : ∀ id format, catalog.lookup id = some format →
    ((groups.flatMap PaletteGroup.entries).map Prod.fst).count id =
      if format.deprecated then 0 else 1
  /-- All identifiers together are those of the formats that are offered. -/
  perm : ((groups.flatMap PaletteGroup.entries).map Prod.fst).Perm
    (catalog.insertable.map BlockFormat.id)

/-- Offered formats are listed by increasing identifier. -/
theorem pairwise_ids_insertable (keyed : catalog.Keyed) :
    (catalog.insertable.map BlockFormat.id).Pairwise (· < ·) := by
  have increase : (catalog.allFormats.map BlockFormat.id).Pairwise (· < ·) := by
    rw [ids_of_keyed keyed, SortedMap.keys, List.pairwise_map]
    exact catalog.formats.increase
  rw [List.pairwise_map] at increase ⊢
  exact increase.filter _

/-- A format is offered once, or not at all if it is deprecated. -/
theorem count_ids_insertable (keyed : catalog.Keyed) {id : String} {format : BlockFormat}
    (found : catalog.lookup id = some format) :
    (catalog.insertable.map BlockFormat.id).count id = if format.deprecated then 0 else 1 := by
  have isOffered : id ∈ catalog.insertable.map BlockFormat.id ↔ format.deprecated = false := by
    rw [List.mem_map, offered_iff_lookup keyed id]
    simp [found]
  have distinct : (catalog.insertable.map BlockFormat.id).Nodup :=
    (pairwise_ids_insertable keyed).imp Std.ne_of_lt
  split
  · rename_i deprecated
    exact List.count_eq_zero_of_not_mem (by simp [isOffered, deprecated])
  · rename_i notDeprecated
    exact List.count_eq_one_of_mem distinct (by simpa [isOffered] using notDeprecated)

/-- A group lists the formats of its category, in the order of the list. -/
theorem ids_paletteGroup (catalog : Catalog) (formats : List BlockFormat) (index : Nat) :
    (catalog.paletteGroup formats index).entries.map Prod.fst =
      (formats.filter fun format => format.category.toNat == index).map BlockFormat.id := by
  simp [paletteGroup, Function.comp_def]

/-- A group lists the offered formats of its category, with the names that are shown. -/
theorem mem_entries_paletteGroup (keyed : catalog.Keyed) {index : Nat} {id name : String} :
    (id, name) ∈ (catalog.paletteGroup catalog.insertable index).entries ↔
      ∃ format, catalog.lookup id = some format ∧ format.deprecated = false ∧
        format.category.toNat = index ∧ catalog.nameOf format = name := by
  simp only [paletteGroup, List.mem_map, List.mem_filter, mem_insertable_iff, beq_iff_eq,
    Prod.mk.injEq]
  constructor
  · rintro ⟨format, ⟨⟨other, found, offered⟩, inCategory⟩, rfl, named⟩
    exact ⟨format, (keyed other format found).symm ▸ found, offered, inCategory, named⟩
  · rintro ⟨format, found, offered, inCategory, named⟩
    exact ⟨format, ⟨⟨id, found, offered⟩, inCategory⟩, keyed id format found, named⟩

theorem mem_palette {group : PaletteGroup} :
    group ∈ catalog.palette ↔ ∃ format ∈ catalog.insertable,
      catalog.paletteGroup catalog.insertable format.category.toNat = group := by
  simp only [palette, List.mem_map, mem_distinctSorted, exists_exists_and_eq_and]

/-- All groups together list each offered format once. -/
theorem perm_ids_palette (catalog : Catalog) :
    ((catalog.palette.flatMap PaletteGroup.entries).map Prod.fst).Perm
      (catalog.insertable.map BlockFormat.id) := by
  have distinct : (distinctSorted (catalog.insertable.map fun format =>
      format.category.toNat)).Nodup := (pairwise_distinctSorted _).imp Nat.ne_of_lt
  have covered : ∀ format ∈ catalog.insertable, format.category.toNat ∈
      distinctSorted (catalog.insertable.map fun format => format.category.toNat) :=
    fun format formatMem => mem_distinctSorted.mpr (List.mem_map_of_mem formatMem)
  have parts := perm_flatMap_filter distinct covered
  have ids := parts.map BlockFormat.id
  rw [List.map_flatMap] at ids ⊢
  simpa only [palette, List.flatMap_map, ids_paletteGroup] using ids

/-- The palette is a partition of the formats that are offered, whatever categories they have. -/
theorem palette_partition (keyed : catalog.Keyed) : catalog.Partition catalog.palette where
  increasing := by
    simpa [palette, paletteGroup, Function.comp_def] using pairwise_distinctSorted _
  inhabited group groupMem := by
    rcases mem_palette.mp groupMem with ⟨format, formatMem, rfl⟩
    have inGroup : format ∈ catalog.insertable.filter fun other =>
        other.category.toNat == format.category.toNat := by simp [formatMem]
    simpa [paletteGroup] using List.ne_nil_of_mem inGroup
  inOrder group groupMem := by
    rcases mem_palette.mp groupMem with ⟨format, _, rfl⟩
    rw [ids_paletteGroup, List.pairwise_map]
    exact (List.pairwise_map.mp (pairwise_ids_insertable keyed)).filter _
  placed index id name := by
    rw [← mem_entries_paletteGroup keyed]
    constructor
    · rintro ⟨group, groupMem, rfl, entryMem⟩
      rcases mem_palette.mp groupMem with ⟨format, _, rfl⟩
      exact entryMem
    · intro entryMem
      rcases (mem_entries_paletteGroup keyed).mp entryMem with ⟨format, found, offered, rfl, _⟩
      have formatMem : format ∈ catalog.insertable := mem_insertable_iff.mpr ⟨id, found, offered⟩
      exact ⟨_, mem_palette.mpr ⟨format, formatMem, rfl⟩, rfl, entryMem⟩
  once id format found := by
    rw [catalog.perm_ids_palette.count_eq id, count_ids_insertable keyed found]
  perm := catalog.perm_ids_palette

/-- A category far beyond the table has a group, and a deprecated format is in none. -/
theorem palette_partition_unknown :
    ∃ catalog : Catalog, catalog.Keyed ∧ catalog.Partition catalog.palette ∧
      catalog.palette.map (fun group => (group.index, group.entries)) =
        [(0, [("wait", "wait")]),
          (18446744073709551615, [("beep", "Beep"), ("honk", "honk")])] := by
  let far : UInt64 := 18446744073709551615
  let named := Catalog.empty.mergeTranslations (.insert .empty "default" "beep" "Beep")
  let catalog := named.registerFormats
    [.plain "wait" 0 [], .plain "honk" far [],
      { BlockFormat.plain "beep" far [] with name := "@beep" },
      { BlockFormat.plain "mute" 1 [] with deprecated := true }]
  have noFormats : named.Keyed := by
    intro id format found
    cases found
  have keyed : catalog.Keyed := noFormats.registerFormats _
  exact ⟨catalog, keyed, palette_partition keyed, by decide +kernel⟩

end Catalog

end BlockEditor
