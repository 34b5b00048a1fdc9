import BlockEditor.Proofs.Catalog.Tables
import BlockEditor.Proofs.Store.Confined

/-!
# A library and its directory

A function library that keeps its directory itself mirrors one in the file system if both have the
same entries under names of functions, and none of these entries is a link (`LocalLibrary.Mirrors`).
A request is answered alike by both and leaves them mirroring each other
(`LocalLibrary.Mirrors.serve`), so any sequence of requests is answered alike
(`LocalLibrary.Mirrors.answers_eq`). Every open library without links among its functions is
mirrored (`LocalLibrary.exists_mirrors`).
-/

namespace BlockEditor

open Text

variable {files : FileSystem} {name query : String}

namespace FunctionLibrary

variable {library : FunctionLibrary} {request : Request}

/-- The answers to requests, one after the other. -/
def answers (library : FunctionLibrary) :
    List (String × Request) → List (Except StoreError Reply)
  | [] => []
  | (name, request) :: rest =>
    (library.serve name request).2 :: (library.serve name request).1.answers rest

theorem under?_change (change : Change) :
    (library.change name change).under? query =
      if query = name then
        match change with
        | .keep => library.under? name
        | .put content => some (.file content)
        | .erase => none
      else library.under? query := by
  cases change with
  | keep =>
      split
      · rename_i same
        rw [same]
        rfl
      · rfl
  | put content => exact SortedMap.get?_insert _ _ _ _
  | erase => exact SortedMap.get?_erase _ _ _

/-- Something is put under a name only if there is room for the name. -/
theorem hasRoom_of_act {entry : Option Entry} {room : Bool} {content : Symbols}
    (puts : (request.act name room entry).1 = .put content) : room = true := by
  have stored : ∀ text, (storeIn room entry text).1 = .put content → room = true := by
    intro text puts
    rw [storeIn] at puts
    split at puts
    · rename_i fits
      exact (Bool.and_eq_true_iff.mp fits).1
    · cases puts
  cases request with
  | create =>
      rcases entry with _ | entry
      · cases room with
        | false => cases puts
        | true => rfl
      · cases puts
  | remove => rcases entry with _ | _ | _ <;> cases puts
  | read => cases puts
  | write records => exact stored _ puts
  | openInto document catalog => cases puts
  | save document => exact stored _ puts
  | contains => rcases entry with _ | _ | _ <;> cases puts

end FunctionLibrary

namespace LocalLibrary

open FunctionLibrary

variable {library : LocalLibrary} {running : FunctionLibrary}

/-- The answers to requests, one after the other. -/
def answers (library : LocalLibrary) (files : FileSystem) :
    List (String × Request) → List (Except StoreError Reply)
  | [] => []
  | (name, request) :: rest =>
    (library.serve files name request).2 ::
      library.answers (library.serve files name request).1 rest

/-- A library that keeps its directory itself has the entries of one in the file system. -/
structure Mirrors (library : LocalLibrary) (files : FileSystem) (running : FunctionLibrary) :
    Prop where
  isOpen : library.IsOpen files
  /-- The entries under the names of functions are the same, and no links. -/
  entries : ∀ name, isFunctionName name = true →
    (files.at? (library.root ++ [name])).map Item.plain? = (running.under? name).map some
  /-- The names are as long as a file system allows at most. -/
  fits : ∀ name, isFunctionName name = true → running.under? name ≠ none → hasRoom name = true

namespace Mirrors

theorem hasNoLink (mirrors : library.Mirrors files running) (isName : isFunctionName name = true) :
    files.HasNoLink (library.root ++ [name]) := by
  intro target isLink
  have same := mirrors.entries name isName
  rw [isLink] at same
  cases under : running.under? name with
  | none =>
      rw [under] at same
      cases same
  | some entry =>
      rw [under] at same
      cases same

/-- Under every name of a function the two libraries hold the same. -/
theorem plainAt?_eq (mirrors : library.Mirrors files running)
    (isName : isFunctionName name = true) :
    files.plainAt? (hasRoom name) (library.root ++ [name]) = running.under? name := by
  have same := mirrors.entries name isName
  rw [FileSystem.plainAt?]
  cases under : running.under? name with
  | none =>
      rw [under] at same
      have nothing : files.at? (library.root ++ [name]) = none := Option.map_eq_none_iff.mp same
      simp [nothing]
  | some entry =>
      rw [under] at same
      rcases Option.map_eq_some_iff.mp same with ⟨item, there, isEntry⟩
      have room := mirrors.fits name isName (by simp [under])
      rw [if_pos room, there]
      exact isEntry

/-- The same change on both sides keeps one library the mirror of the other. -/
theorem change (mirrors : library.Mirrors files running) (isName : isFunctionName name = true)
    {after : Change} (fits : ∀ content, after = .put content → hasRoom name = true)
    (isOpen : library.IsOpen (files.change (library.root ++ [name]) after)) :
    library.Mirrors (files.change (library.root ++ [name]) after) (running.change name after) := by
  refine ⟨isOpen, fun query isQuery => ?_, fun query isQuery there => ?_⟩
  · rw [FileSystem.at?_change (by simp), under?_change]
    by_cases same : query = name
    · subst query
      cases after with
      | keep => simpa using mirrors.entries name isName
      | put content => simp [Item.plain?]
      | erase => simp
    · simpa [same] using mirrors.entries query isQuery
  · rw [under?_change] at there
    by_cases same : query = name
    · subst query
      cases after with
      | keep => exact mirrors.fits name isName (by simpa using there)
      | put content => exact fits content rfl
      | erase => simp at there
    · exact mirrors.fits query isQuery (by simpa [same] using there)

/-- Both libraries give the same answer to a request, and mirror each other afterwards. -/
theorem serve (mirrors : library.Mirrors files running) (name : String) (request : Request) :
    (library.serve files name request).2 = (running.serve name request).2 ∧
      library.Mirrors (library.serve files name request).1 (running.serve name request).1 := by
  by_cases isName : isFunctionName name = true
  · have isOpen := ((confined isName request).keeps files mirrors.isOpen).1
    rw [LocalLibrary.serve_eq mirrors.isOpen isName (mirrors.hasNoLink isName),
      mirrors.plainAt?_eq isName] at isOpen ⊢
    rw [FunctionLibrary.serve_eq isName]
    exact ⟨rfl, mirrors.change isName (fun _ => hasRoom_of_act) isOpen⟩
  · rw [LocalLibrary.serve_of_not_isFunctionName isName,
      FunctionLibrary.serve_of_not_isFunctionName isName]
    exact ⟨rfl, mirrors⟩

end Mirrors

/-- A name and what stands under it, unless this is a link. -/
def named? (placed : String × Item) : Option (String × Entry) :=
  placed.2.plain?.map fun entry => (placed.1, entry)

theorem get?_ofList_named (files : FileSystem) (location : Location) (name : String) :
    (SortedMap.ofList ((files.entriesIn location).filterMap named?)).get? name =
      (files.at? (location ++ [name])).bind Item.plain? := by
  have distinct : (((files.entriesIn location).filterMap named?).reverse.map Prod.fst).Nodup := by
    rw [List.map_reverse, List.nodup_reverse]
    apply List.pairwise_map.mpr
    apply (files.pairwise_entriesIn location).filterMap
    rintro first second different _ isFirst _ isSecond
    rcases Option.map_eq_some_iff.mp isFirst with ⟨_, _, rfl⟩
    rcases Option.map_eq_some_iff.mp isSecond with ⟨_, _, rfl⟩
    exact different
  ext entry
  rw [SortedMap.get?_ofList, Option.bind_eq_some_iff]
  constructor
  · intro found
    have member := List.mem_reverse.mp (mem_of_lookup found)
    rcases List.mem_filterMap.mp member with ⟨⟨other, item⟩, placed, isEntry⟩
    rcases Option.map_eq_some_iff.mp isEntry with ⟨_, kind, same⟩
    cases same
    exact ⟨item, FileSystem.mem_entriesIn.mp placed, kind⟩
  · rintro ⟨item, there, kind⟩
    refine lookup_of_mem distinct (List.mem_reverse.mpr (List.mem_filterMap.mpr ?_))
    exact ⟨(name, item), FileSystem.mem_entriesIn.mpr there, by simp [named?, kind]⟩

/-- Every open library without links among its functions is mirrored. -/
theorem exists_mirrors (isOpen : library.IsOpen files)
    (noLinks : library.HasNoLinks files)
    (fits : ∀ name, isFunctionName name = true → files.at? (library.root ++ [name]) ≠ none →
      hasRoom name = true) :
    ∃ running, library.Mirrors files running := by
  let running : FunctionLibrary := ⟨⟨.ofList ((files.entriesIn library.root).filterMap named?)⟩⟩
  have under : ∀ name, running.under? name =
      (files.at? (library.root ++ [name])).bind Item.plain? :=
    get?_ofList_named files library.root
  refine ⟨running, isOpen, fun name isName => ?_, fun name isName there => ?_⟩
  · rw [under]
    rcases there : files.at? (library.root ++ [name]) with _ | content | writable | target
    · rfl
    · rfl
    · rfl
    · exact absurd there (noLinks name isName target)
  · refine fits name isName fun nothing => there ?_
    rw [under, nothing]
    rfl

end LocalLibrary

end BlockEditor
