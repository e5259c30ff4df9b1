import Pipework.Proofs.FileTree.Replacement
import Pipework.Proofs.Graph.Document
import Pipework.Storage.Files
import Pipework.Store

/-!
# Stores that work on one graph

A store that has loaded a graph from where it can be written back holds this graph and nothing
else (`Store.working`). Each request takes it from one such store to the next, as it takes the
graph to the next (`Store.apply_working`), and a save writes the text of the graph
(`Store.save_working`).
-/

namespace Pipework

/-! ## Places to write to -/

/-- The storage has a place for the document of a key: it can always be written, changes nothing
else, and what was written is what is read. `written` tells the storage by these bytes. -/
structure Storage.Slot {σ : Type} [Storage σ] (key : String) (written : ByteArray → σ) :
    Prop where
  read (bytes : ByteArray) : Storage.read (written bytes) key = .ok bytes
  write (bytes next : ByteArray) : Storage.write (written bytes) key next = (.done, written next)

namespace FileStorage

theorem withoutEndSlashes_directory
    (path : String) :
    FileTree.withoutEndSlashes ((Path.parent? path).getD "") = (Path.parent? path).getD "" := by
  cases isParent : Path.parent? path with
  | none => decide
  | some parent => exact Path.withoutEndSlashes_parent isParent

theorem write_eq_done_iff
    {storage next : FileStorage} {key : String} {bytes : ByteArray} :
    Storage.write storage key bytes = (.done, next) ↔
      ∃ path, storage.path key = .ok path ∧
        ∃ ready, storage.tree.makeDirectories ((Path.parent? path).getD "") = (.ok (), ready) ∧
          ∃ name, Path.fileName? path = some name ∧
            ∃ tree, ready.replaceFile path name bytes = (.ok (), tree) ∧
              next = { storage with tree } := by
  simp only [Storage.write]
  cases storage.path key with
  | error error => simp
  | ok path =>
      simp only [replace, Except.ok.injEq, exists_eq_left']
      rcases storage.tree.makeDirectories ((Path.parent? path).getD "") with ⟨⟨error⟩ | _, ready⟩
      · simp
      · cases Path.fileName? path with
        | none => simp
        | some name =>
            simp only [Prod.mk.injEq, true_and, exists_eq_left', Option.some.injEq]
            rcases ready.replaceFile path name bytes with ⟨⟨error⟩ | _, left⟩
            · simp
            · simp [eq_comm]

/-- A file that was written once can be written again and again. -/
theorem slot_of_write
    {storage next : FileStorage} {key : String} {bytes : ByteArray}
    (isWritten : Storage.write storage key bytes = (.done, next)) :
    ∃ written, Storage.Slot key written ∧ next = written bytes ∧
      ∀ contents, (written contents).root = storage.root := by
  obtain ⟨path, isPath, ready, made, name, isName, tree, replaced, rfl⟩ :=
    write_eq_done_iff.mp isWritten
  obtain ⟨place, rfl, again⟩ := FileTree.replaceFile_again isName replaced
  let written (contents : ByteArray) : FileStorage :=
    { storage with tree := ready.put place (.file contents) }
  have samePath (contents : ByteArray) : (written contents).path key = .ok path := isPath
  refine ⟨written, ⟨?_, ?_⟩, rfl, fun _ => rfl⟩
  · intro contents
    obtain ⟨_, isRead, _⟩ := again contents
    have found : FileTree.readFile (written contents).tree path = .ok contents := isRead
    simp only [Storage.read, look, samePath contents, bind, Except.bind, found]
    rfl
  · intro contents later
    obtain ⟨keeps, _, isReplaced⟩ := again contents
    have plain := withoutEndSlashes_directory path
    have present := (FileTree.isDirectory_of_makeDirectories plain made).imp_right keeps.isDirectory
    have nothingToMake := FileTree.makeDirectories_of_isDirectory plain present
    exact write_eq_done_iff.mpr ⟨path, samePath contents, _, nothingToMake, name, isName, _,
      isReplaced later, rfl⟩

end FileStorage

/-! ## One graph -/

namespace Store

variable {σ : Type} [Storage σ]

/-- The store that has only loaded one graph, which may have changed since. -/
def working (registry : Registry) (saveTimeout : UInt64) (key : String) (graph : Graph)
    (storage : σ) : Store σ :=
  ⟨registry, saveTimeout, Table.empty.insert key graph, storage⟩

variable {registry : Registry} {saveTimeout : UInt64} {key : String}

omit [Storage σ] in
theorem graph_working
    (graph : Graph) (storage : σ) :
    (working registry saveTimeout key graph storage).graph key = .ok graph := by
  rw [Store.graph, working, Table.get?_insert, if_pos rfl]

omit [Storage σ] in
theorem insert_empty
    (graph : Graph) (storage : σ) :
    (empty registry saveTimeout storage).insert key graph =
      .ok (working registry saveTimeout key graph storage) := rfl

omit [Storage σ] in
/-- A request leaves under its key what it leaves of the graph. -/
theorem change_of_loaded
    {store : Store σ} {graph : Graph} (loaded : store.graph key = .ok graph)
    (request : Request) :
    store.change key request =
      ((graph.apply store.registry request).map fun _ => (),
        { store with graphs := store.graphs.insert key (graph.step store.registry request) }) := by
  rw [change, loaded]
  simp only
  rw [Graph.step, InPlace.apply_on]
  cases graph.apply store.registry request <;> rfl

omit [Storage σ] in
theorem change_working
    (graph : Graph) (storage : σ) (request : Request) :
    (working registry saveTimeout key graph storage).change key request =
      ((graph.apply registry request).map fun _ => (),
        working registry saveTimeout key (graph.step registry request) storage) := by
  rw [change_of_loaded (graph_working graph storage)]
  simp only [working, Table.insert_insert]

/-- A save succeeds when the text of the graph is written. -/
theorem save_eq_ok_iff
    {store next : Store σ} {graph : Graph} (loaded : store.graph key = .ok graph) :
    store.save key = (.ok (), next) ↔
      ∃ storage, Storage.write store.storage key graph.text.toUTF8 = (.done, storage) ∧
        next = { store with storage } := by
  unfold save
  rw [loaded]
  simp only
  cases Storage.write store.storage key graph.text.toUTF8 with
  | mk result storage => cases result <;> simp [eq_comm]

/-- What is not a save is a change. -/
theorem apply_of_ne_save
    (store : Store σ) (key : String) {request : Request} (notSave : request ≠ .save) :
    store.apply key request = store.change key request := by
  cases request with
  | save => exact absurd rfl notSave
  | _ => rfl

variable {written : ByteArray → σ} (slot : Storage.Slot key written)

include slot

theorem load_of_read
    {bytes : ByteArray} {graph : Graph} (isRead : Graph.read registry bytes = .ok graph) :
    (empty registry saveTimeout (written bytes)).load key =
      .ok (working registry saveTimeout key graph (written bytes)) := by
  have free : (empty registry saveTimeout (written bytes)).graphs.contains key = false := rfl
  have stored : Storage.read (empty registry saveTimeout (written bytes)).storage key =
      .ok bytes := slot.read bytes
  have sameRegistry : (empty registry saveTimeout (written bytes)).registry = registry := rfl
  rw [load, free, stored, sameRegistry]
  simp only [bind, Except.bind, isRead]
  exact insert_empty graph (written bytes)

theorem save_working
    (graph : Graph) (bytes : ByteArray) :
    (working registry saveTimeout key graph (written bytes)).save key =
      (.ok (), working registry saveTimeout key graph (written graph.text.toUTF8)) := by
  have stored : Storage.write (working registry saveTimeout key graph (written bytes)).storage key
      graph.text.toUTF8 = (.done, written graph.text.toUTF8) := slot.write bytes _
  rw [save, graph_working]
  simp only [stored]
  rfl

/-- A request does to the graph of a store what it does to the graph. Only a save writes. -/
theorem apply_working
    (graph : Graph) (bytes : ByteArray) (request : Request) :
    ∃ next, (working registry saveTimeout key graph (written bytes)).apply key request =
      ((graph.apply registry request).map fun _ => (),
        working registry saveTimeout key (graph.step registry request) (written next)) := by
  by_cases isSave : request = .save
  · rw [isSave]
    exact ⟨graph.text.toUTF8, save_working slot graph bytes⟩
  · refine ⟨bytes, ?_⟩
    rw [apply_of_ne_save _ _ isSave, change_working]

end Store

end Pipework
