import Pipework.Graph.InPlace
import Pipework.Graph.Stored
import Pipework.Package
import Pipework.Storage

/-!
Stores: graphs that are loaded for work, above a storage where their documents are kept.

What puts a graph into a store, or takes one out of it, does so at the very end, and gives the next
store or an error. To change a graph and to save it gives both a result and a store: a graph is
changed in place, and a storage may be touched by a write that fails.
-/

namespace Pipework

/-- Loaded graphs by their keys, above a storage. -/
structure Store (σ : Type) where
  registry : Registry
  /-- How long a save may take, in milliseconds. -/
  saveTimeout : UInt64
  graphs : Table String Graph
  storage : σ

/-- How long a save may take when nothing else is said. -/
def defaultSaveTimeout : UInt64 := 5000

namespace Store

variable {σ : Type}

/-- A store without graphs. -/
def empty (registry : Registry) (saveTimeout : UInt64) (storage : σ) : Store σ :=
  ⟨registry, saveTimeout, Table.empty, storage⟩

/-- The graph under a key. -/
def graph (store : Store σ) (key : String) : Except Error Graph :=
  match store.graphs.get? key with
  | some graph => .ok graph
  | none => .error (.graphNotFound key)

/-- The store with a graph under a key, which has to be free. -/
def insert (store : Store σ) (key : String) (graph : Graph) : Except Error (Store σ) :=
  if store.graphs.contains key then .error (.graphLoaded key)
  else .ok { store with graphs := store.graphs.insert key graph }

/-- Puts a consistent graph under a key. -/
def create (store : Store σ) (key : String) (graph : Graph) : Except Error (Store σ) := do
  graph.requireConsistent
  store.insert key graph

/-- Takes the graph under a key out of the store. -/
def unload (store : Store σ) (key : String) : Except Error (Graph × Store σ) := do
  let graph ← store.graph key
  return (graph, { store with graphs := store.graphs.erase key })

/-- The keys of all graphs, in order. -/
def keys (store : Store σ) : List String := store.graphs.keys

/-- The package of the graph under a key. -/
def generate (store : Store σ) (key : String) : Except Error Package := do
  (← store.graph key).package

variable [Storage σ]

/-- Reads the document of a key and puts its graph under the key, which has to be free. -/
def load (store : Store σ) (key : String) : Except Error (Store σ) := do
  if store.graphs.contains key then throw (.graphLoaded key)
  let bytes ← Storage.read store.storage key
  let graph ← Graph.read store.registry bytes
  store.insert key graph

/-- Loads several graphs, up to the first that cannot be loaded. -/
def loadAll (store : Store σ) : List String → Except Error Unit × Store σ
  | [] => (.ok (), store)
  | key :: rest =>
      match store.load key with
      | .error error => (.error error, store)
      | .ok loaded => loaded.loadAll rest

/-- Writes the document of the graph under a key. -/
def save (store : Store σ) (key : String) : Except Error Unit × Store σ :=
  match store.graph key with
  | .error error => (.error error, store)
  | .ok graph =>
      match Storage.write store.storage key graph.text.toUTF8 with
      | (.done, storage) => (.ok (), { store with storage })
      | (.failed error, storage) => (.error error, { store with storage })
      | (.unfinished, storage) =>
          (.error (.saveTimeout key store.saveTimeout), { store with storage })

/-- Changes the graph under a key in place, as a request asks. -/
def change (store : Store σ) (key : String) (request : Request) : Except Error Unit × Store σ :=
  match store.graph key with
  | .error error => (.error error, store)
  | .ok graph =>
      let (result, left) := (InPlace.apply store.registry request).on graph
      (result, { store with graphs := store.graphs.insert key left })

/-- Does what a request asks with the graph under a key. -/
def apply (store : Store σ) (key : String) : Request → Except Error Unit × Store σ
  | .save => store.save key
  | request => store.change key request

end Store

end Pipework
