import BlockEditor.Proofs.Catalog.Aborted
import Mathlib.Data.List.Dedup

/-!
# What committing a refresh does

A commit registers the formats of its batch and ends the refresh; its summary compares the
identifiers of the batch with those that were known before (`Catalog.Committed`). The lists of the
summary never share an identifier, and together they name all that is known afterwards. An
identifier that the batch has more than once is listed as often as it is there, however, so the
summary counts each one once only if the batch does (`Catalog.ids_of_commitRefresh`).
-/

namespace BlockEditor

open Json

/-- All identifiers that a summary lists. -/
def RefreshSummary.ids (summary : RefreshSummary) : List String :=
  summary.added ++ summary.replaced ++ summary.retired

namespace Catalog

variable {catalog after : Catalog} {formats : List BlockFormat} {summary : RefreshSummary}
  {batch : Value} {id : String}

/-- A catalog has become another one by a commit of formats, and the summary says what this has
changed. -/
structure Committed (before : Catalog) (formats : List BlockFormat) (after : Catalog)
    (summary : RefreshSummary) : Prop where
  /-- The last format with an identifier is found under it; without one, what was there before. -/
  found : ∀ id, after.lookup id = (BlockFormat.lastNamed? id formats).or (before.lookup id)
  /-- The refresh is over. -/
  ended : after.isRefreshing = false
  /-- The categories are the same. -/
  categories : after.categories = before.categories
  /-- Texts and active language are the same. -/
  labels : after.SameLabels before
  /-- Added are the identifiers of the formats that were not known before. -/
  added : ∀ id, id ∈ summary.added ↔ id ∈ formats.map BlockFormat.id ∧ before.contains id = false
  /-- Replaced are the identifiers of the formats that were known before. -/
  replaced : ∀ id, id ∈ summary.replaced ↔
    id ∈ formats.map BlockFormat.id ∧ before.contains id = true
  /-- Retired are the identifiers that were known before and that no format has. -/
  retired : ∀ id, id ∈ summary.retired ↔
    id ∉ formats.map BlockFormat.id ∧ before.contains id = true
  /-- All lists are in order. -/
  inOrder : summary.added.Pairwise (· ≤ ·) ∧ summary.replaced.Pairwise (· ≤ ·) ∧
    summary.retired.Pairwise (· ≤ ·)

theorem mem_formatKeys_iff : id ∈ catalog.formats.keys ↔ catalog.contains id = true := by
  rw [SortedMap.mem_keys_iff, contains, SortedMap.contains, Option.isSome_iff_exists]

/-- Added are the identifiers of the batch that are not known. -/
theorem mem_added_iff :
    id ∈ (catalog.summary formats).added ↔
      id ∈ formats.map BlockFormat.id ∧ catalog.contains id = false := by
  rw [summary, List.mem_mergeSort, List.mem_filter, Bool.not_eq_true']

theorem mem_replaced_iff :
    id ∈ (catalog.summary formats).replaced ↔
      id ∈ formats.map BlockFormat.id ∧ catalog.contains id = true := by
  rw [summary, List.mem_mergeSort, List.mem_filter]

/-- Retired are the known identifiers that the batch does not have. -/
theorem mem_retired_iff :
    id ∈ (catalog.summary formats).retired ↔
      id ∉ formats.map BlockFormat.id ∧ catalog.contains id = true := by
  rw [summary, List.mem_filter, mem_formatKeys_iff, and_comm]
  simp

theorem pairwise_inOrder (ids : List String) :
    (ids.mergeSort fun first second => first ≤ second).Pairwise (· ≤ ·) := by
  have transitive : ∀ first second third : String, decide (first ≤ second) = true →
      decide (second ≤ third) = true → decide (first ≤ third) = true := by
    intro first second third below above
    rw [decide_eq_true_eq] at below above ⊢
    exact String.le_trans below above
  have total : ∀ first second : String,
      (decide (first ≤ second) || decide (second ≤ first)) = true := by
    intro first second
    rw [Bool.or_eq_true, decide_eq_true_eq, decide_eq_true_eq]
    exact String.le_total first second
  exact (List.pairwise_mergeSort transitive total ids).imp of_decide_eq_true

theorem pairwise_retired : (catalog.summary formats).retired.Pairwise (· < ·) := by
  apply List.Pairwise.filter
  rw [SortedMap.keys, List.pairwise_map]
  exact catalog.formats.increase

/-- Registering formats and ending the refresh is a commit, with the summary of the formats. -/
theorem committed_registerFormats (catalog : Catalog) (formats : List BlockFormat) :
    Committed catalog formats { catalog.registerFormats formats with refresh := none }
      (catalog.summary formats) where
  found := lookup_registerFormats catalog formats
  ended := rfl
  categories := rfl
  labels := ⟨rfl, rfl⟩
  added _ := mem_added_iff
  replaced _ := mem_replaced_iff
  retired _ := mem_retired_iff
  inOrder := ⟨pairwise_inOrder _, pairwise_inOrder _, pairwise_retired.imp Std.le_of_lt⟩

/-- A refresh that goes on is committed exactly with the batches that are not faulty, and then the
formats of the batch are registered and the summary says what is new, replaced and left out. A
commit that fails, as every one outside a refresh does, changes nothing. -/
theorem commitRefresh_committed (catalog : Catalog) (batch : Value) :
    (∀ after summary, catalog.commitRefresh batch = .ok (after, summary) →
      ∃ formats, formatsOfBatch batch = .ok formats ∧
        Committed catalog formats after summary) ∧
      ((∃ result, catalog.commitRefresh batch = .ok result) ↔
        catalog.isRefreshing = true ∧ ∃ formats, formatsOfBatch batch = .ok formats) ∧
      (catalog.isRefreshing = false →
        catalog.commitRefresh batch = .error .noRefreshInProgress) ∧
      ∀ error, catalog.commitRefresh batch = .error error →
        (Call.commitRefresh batch).apply catalog = catalog := by
  refine ⟨?_, ?_, ?_, ?_⟩
  · intro after summary done
    rcases commitRefresh_eq_ok.mp done with ⟨_, formats, read, rfl, rfl⟩
    exact ⟨formats, read, committed_registerFormats catalog formats⟩
  · constructor
    · rintro ⟨⟨after, summary⟩, done⟩
      rcases commitRefresh_eq_ok.mp done with ⟨refreshing, formats, read, _⟩
      exact ⟨refreshing, formats, read⟩
    · rintro ⟨refreshing, formats, read⟩
      exact ⟨_, commitRefresh_eq_ok.mpr ⟨refreshing, formats, read, rfl, rfl⟩⟩
  · intro settled
    exact commitRefresh_eq_error.mpr (.inl ⟨settled, rfl⟩)
  · intro error failed
    rw [Call.apply, commitBatch_of_error failed]

/-- A refresh replaces one of two formats twice, adds a new one and leaves the other one out. The
later one of the two replacements is found, and outside a refresh the same batch is refused. -/
theorem commitRefresh_committed_twice :
    ∃ (catalog after : Catalog) (batch : Value) (summary : RefreshSummary),
      catalog.Keyed ∧ catalog.commitRefresh batch = .ok (after, summary) ∧
        after.lookup "honk" = some (.plain "honk" 2 []) ∧
          after.lookup "old" = catalog.lookup "old" ∧ after.isRefreshing = false ∧
            "beep" ∈ summary.added ∧ "honk" ∈ summary.replaced ∧ "old" ∈ summary.retired ∧
              after.commitRefresh batch = .error .noRefreshInProgress := by
  let calls : List Call := [.registerFormats [.plain "honk" 0 [], .plain "old" 0 []], .beginRefresh]
  let formats : List BlockFormat := [.plain "honk" 1 [], .plain "beep" 0 [], .plain "honk" 2 []]
  let batch := (batchOfFormats formats).sorted
  have read : formatsOfBatch batch = .ok formats :=
    formatsOfBatch_sorted (by simp [formats, BlockFormat.HasSlots, BlockFormat.plain])
  rcases commitRefresh_committed (run calls) batch with ⟨changes, accepted_iff, _⟩
  rcases accepted_iff.mpr ⟨rfl, formats, read⟩ with ⟨⟨after, summary⟩, done⟩
  rcases changes after summary done with ⟨readAs, readAgain, committed⟩
  cases readAgain.symm.trans read
  refine ⟨run calls, after, batch, summary, keyed_run calls, done, ?_, ?_, committed.ended,
    ?_, ?_, ?_, (commitRefresh_committed after batch).2.2.1 committed.ended⟩
  · exact committed.found "honk"
  · exact committed.found "old"
  · exact (committed.added "beep").mpr (by decide +kernel)
  · exact (committed.replaced "honk").mpr (by decide +kernel)
  · exact (committed.retired "old").mpr (by decide +kernel)

/-- Known after registering are the identifiers of the formats and those that were known before. -/
theorem contains_registerFormats :
    (catalog.registerFormats formats).contains id = true ↔
      id ∈ formats.map BlockFormat.id ∨ catalog.contains id = true := by
  have found := congrArg Option.isSome (lookup_registerFormats catalog formats id)
  have known : (catalog.registerFormats formats).contains id =
      ((BlockFormat.lastNamed? id formats).isSome || catalog.contains id) := by
    rwa [Option.isSome_or] at found
  rw [known, Bool.or_eq_true, BlockFormat.isSome_lastNamed?]

/-- What a summary lists are the identifiers of the formats, each as often as there are formats with
it, and those that are retired. -/
theorem ids_perm (catalog : Catalog) (formats : List BlockFormat) :
    (catalog.summary formats).ids.Perm
      (formats.map BlockFormat.id ++ (catalog.summary formats).retired) := by
  let ids := formats.map BlockFormat.id
  have split : ((catalog.summary formats).added ++ (catalog.summary formats).replaced).Perm
      (ids.filter (fun id => !catalog.contains id) ++ ids.filter fun id => catalog.contains id) :=
    (List.mergeSort_perm _ _).append (List.mergeSort_perm _ _)
  have joined : (ids.filter (fun id => !catalog.contains id) ++
      ids.filter fun id => catalog.contains id).Perm ids :=
    List.perm_append_comm.trans (List.filter_append_perm _ ids)
  exact (split.trans joined).append_right _

theorem nodup_retired : (catalog.summary formats).retired.Nodup := by
  apply pairwise_retired.imp
  rintro first second below rfl
  exact String.lt_irrefl first below

theorem disjoint_retired :
    (formats.map BlockFormat.id).Disjoint (catalog.summary formats).retired := by
  intro id idMem isRetired
  exact (mem_retired_iff.mp isRetired).1 idMem

/-- The summary names exactly what is known afterwards. -/
theorem mem_ids_iff :
    id ∈ (catalog.summary formats).ids ↔ (catalog.registerFormats formats).contains id = true := by
  rw [(ids_perm catalog formats).mem_iff, List.mem_append, mem_retired_iff,
    contains_registerFormats]
  by_cases idMem : id ∈ formats.map BlockFormat.id
  · simp [idMem]
  · simp [idMem]

/-- An identifier is listed as often as the batch has it, and once if the batch does not have it. -/
theorem count_ids (idMem : id ∈ (catalog.summary formats).ids) :
    (catalog.summary formats).ids.count id = max 1 ((formats.map BlockFormat.id).count id) := by
  rw [(ids_perm catalog formats).mem_iff, List.mem_append] at idMem
  rw [(ids_perm catalog formats).count_eq, List.count_append]
  by_cases inBatch : id ∈ formats.map BlockFormat.id
  · have notRetired : (catalog.summary formats).retired.count id = 0 :=
      List.count_eq_zero_of_not_mem (disjoint_retired inBatch)
    have listed : 0 < (formats.map BlockFormat.id).count id := List.count_pos_iff.mpr inBatch
    omega
  · have notListed : (formats.map BlockFormat.id).count id = 0 :=
      List.count_eq_zero_of_not_mem inBatch
    have retiredOnce : (catalog.summary formats).retired.count id = 1 :=
      List.count_eq_one_of_mem nodup_retired (idMem.resolve_left inBatch)
    omega

/-- No identifier is listed twice exactly if the batch has none twice. -/
theorem nodup_ids_iff :
    (catalog.summary formats).ids.Nodup ↔ (formats.map BlockFormat.id).Nodup := by
  rw [(ids_perm catalog formats).nodup_iff, List.nodup_append']
  constructor
  · exact And.left
  · intro distinct
    exact ⟨distinct, nodup_retired, disjoint_retired⟩

/-- The known identifiers grow by those that are added, each counted once. -/
theorem keys_registerFormats_perm (catalog : Catalog) (formats : List BlockFormat) :
    (catalog.registerFormats formats).formats.keys.Perm
      (catalog.formats.keys ++ (catalog.summary formats).added.dedup) := by
  -- Neither side has an identifier twice, so it is enough that both have the same ones.
  have apart : catalog.formats.keys.Disjoint (catalog.summary formats).added.dedup := by
    intro id known isAdded
    have unknown := (mem_added_iff.mp (List.mem_dedup.mp isAdded)).2
    rw [mem_formatKeys_iff.mp known] at unknown
    cases unknown
  have distinct : (catalog.formats.keys ++ (catalog.summary formats).added.dedup).Nodup :=
    List.nodup_append'.mpr ⟨catalog.formats.increase.nodup, List.nodup_dedup _, apart⟩
  apply (List.perm_ext_iff_of_nodup (SortedMap.increase _).nodup distinct).mpr
  intro id
  have known : id ∈ (catalog.registerFormats formats).formats.keys ↔
      id ∈ formats.map BlockFormat.id ∨ catalog.contains id = true :=
    mem_formatKeys_iff.trans contains_registerFormats
  rw [List.mem_append, List.mem_dedup, mem_added_iff, mem_formatKeys_iff]
  refine known.trans ?_
  cases catalog.contains id <;> simp

theorem size_registerFormats (catalog : Catalog) (formats : List BlockFormat) :
    (catalog.registerFormats formats).formats.size =
      catalog.formats.size + (catalog.summary formats).added.dedup.length := by
  have sameLength := (keys_registerFormats_perm catalog formats).length_eq
  simpa [SortedMap.keys, SortedMap.size] using sameLength

/-- The lists of the summary of a commit have nothing in common, and together they name all that is
known afterwards. An identifier is listed as often as the batch has it, or once if the batch does
not have it; so no identifier is listed twice exactly if the batch has none twice. The number of
known formats grows by the number of different identifiers that are added, so it grows by the length
of their list exactly if none of them is added twice. -/
theorem ids_of_commitRefresh
    (committed : catalog.commitRefresh batch = .ok (after, summary)) :
    ∃ formats, formatsOfBatch batch = .ok formats ∧
      (∀ id, id ∈ summary.ids ↔ after.contains id = true) ∧
      summary.added.Disjoint summary.replaced ∧ summary.added.Disjoint summary.retired ∧
      summary.replaced.Disjoint summary.retired ∧
      (∀ id ∈ summary.ids,
        summary.ids.count id = max 1 ((formats.map BlockFormat.id).count id)) ∧
      (summary.ids.Nodup ↔ (formats.map BlockFormat.id).Nodup) ∧
      after.formats.size = catalog.formats.size + summary.added.dedup.length ∧
      (after.formats.size = catalog.formats.size + summary.added.length ↔
        summary.added.Nodup) := by
  rcases commitRefresh_eq_ok.mp committed with ⟨_, formats, read, rfl, rfl⟩
  have size := size_registerFormats catalog formats
  refine ⟨formats, read, fun id => mem_ids_iff, ?_, ?_, ?_, fun id => count_ids, nodup_ids_iff,
    size, ?_⟩
  · intro id isAdded isReplaced
    have unknown := (mem_added_iff.mp isAdded).2
    rw [(mem_replaced_iff.mp isReplaced).2] at unknown
    cases unknown
  · intro id isAdded
    exact disjoint_retired (mem_added_iff.mp isAdded).1
  · intro id isReplaced
    exact disjoint_retired (mem_replaced_iff.mp isReplaced).1
  · have grows : (catalog.registerFormats formats).formats.size =
        catalog.formats.size + (catalog.summary formats).added.length ↔
          (catalog.summary formats).added.dedup.length =
            (catalog.summary formats).added.length := by
      rw [size, Nat.add_left_cancel_iff]
    refine grows.trans ?_
    rw [← List.dedup_eq_self]
    constructor
    · exact (List.dedup_sublist _).eq_of_length
    · exact congrArg List.length

/-- With a batch in which no identifier stands twice, a refresh that adds, replaces and retires one
format each lists three identifiers, and the catalog has one more format. -/
theorem ids_of_commitRefresh_once :
    ∃ (catalog after : Catalog) (batch : Value) (summary : RefreshSummary),
      catalog.Keyed ∧ catalog.commitRefresh batch = .ok (after, summary) ∧
        summary = ⟨["beep"], ["honk"], ["old"]⟩ ∧ summary.ids.Nodup ∧
          after.formats.size = catalog.formats.size + summary.added.length := by
  let calls : List Call := [.registerFormats [.plain "honk" 0 [], .plain "old" 0 []], .beginRefresh]
  let formats : List BlockFormat := [.plain "honk" 1 [], .plain "beep" 0 []]
  let batch := (batchOfFormats formats).sorted
  have read : formatsOfBatch batch = .ok formats :=
    formatsOfBatch_sorted (by simp [formats, BlockFormat.HasSlots, BlockFormat.plain])
  have committed := commitRefresh_eq_ok.mpr ⟨(rfl : (run calls).isRefreshing = true), formats, read,
    rfl, rfl⟩
  have lists : (run calls).summary formats = ⟨["beep"], ["honk"], ["old"]⟩ := by decide +kernel
  rcases ids_of_commitRefresh committed with
    ⟨_, readAgain, _, _, _, _, _, nodup_iff, _, grows_iff⟩
  cases readAgain.symm.trans read
  exact ⟨_, _, batch, _, keyed_run calls, committed, lists, nodup_iff.mpr (by decide),
    grows_iff.mpr (by rw [lists]; decide)⟩

/-- An identifier that is not known and stands twice in a batch is listed twice as added, although
the catalog has only one more format. -/
theorem beep_is_added_twice :
    ∃ (catalog after : Catalog) (batch : Value) (summary : RefreshSummary),
      batch = (batchOfFormats [.plain "beep" 0 [], .plain "beep" 1 []]).sorted ∧
        catalog.Keyed ∧ catalog.commitRefresh batch = .ok (after, summary) ∧
          summary.added = ["beep", "beep"] ∧ ¬summary.ids.Nodup ∧ catalog.formats.size = 0 ∧
            after.formats.size = 1 := by
  let formats : List BlockFormat := [.plain "beep" 0 [], .plain "beep" 1 []]
  have read : formatsOfBatch (batchOfFormats formats).sorted = .ok formats :=
    formatsOfBatch_sorted (by simp [formats, BlockFormat.HasSlots, BlockFormat.plain])
  have committed := commitRefresh_eq_ok.mpr
    ⟨(rfl : (run [.beginRefresh]).isRefreshing = true), formats, read, rfl, rfl⟩
  -- The recursion of `List.mergeSort` is well founded and is not evaluated on two identifiers.
  have sorted : ["beep", "beep"].mergeSort (fun first second => first ≤ second) =
      ["beep", "beep"] :=
    List.mergeSort_of_pairwise (by decide)
  have unknown : ["beep", "beep"].filter (fun id => !(run [.beginRefresh]).contains id) =
      ["beep", "beep"] := rfl
  have added : ((run [.beginRefresh]).summary formats).added = ["beep", "beep"] := by
    rw [← sorted, ← unknown]
    rfl
  refine ⟨_, _, _, _, rfl, keyed_run _, committed, added, ?_, rfl, by decide +kernel⟩
  rw [nodup_ids_iff]
  decide

end Catalog

end BlockEditor
