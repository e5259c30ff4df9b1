import Pipework.Proofs.Except
import Pipework.Proofs.Store
import Pipework.Proofs.Table

/-!
# Stores touch one graph at a time

What is asked of a store concerns the graph under one key (`Store.Operation`). One rule for each
operation says when it is granted and what it makes of the store (`Store.Grants`), and stores go by
these rules (`Store.perform_eq_ok_iff`). What is not granted leaves everything as it was, also when
writes fail or never end, and although graphs are changed in place (`Store.eq_of_change_error`);
what is granted leaves the graphs and documents of other keys, and only a save writes. Graphs that
are loaded in a row are added up to the first that cannot be loaded (`Store.perform_isolated`). So
a graph that no step of a run names is the same after the run (`Store.performAll_agreesOutside`).
-/

namespace Pipework

namespace Store

variable {σ : Type}

/-! ## Operations -/

/-- What can be asked of a store about the graph under a key. -/
inductive Operation where
  | create (graph : Graph)
  | load
  | unload
  | save
  | apply (request : Request)
  | read
  | generate

inductive Answer where
  | done
  | graph (graph : Graph)
  | package (package : Package)

/-- The operation asks for the document of the graph to be written. -/
def Operation.saves : Operation → Bool
  | .save | .apply .save => true
  | _ => false

theorem Operation.saves_apply_iff
    {request : Request} :
    (Operation.apply request).saves = true ↔ request = .save := by
  cases request <;> simp [Operation.saves]

/-- A store goes on as the next one when there is one, and as it is after an error. -/
def settle (store : Store σ) : Except Error (Answer × Store σ) → Except Error Answer × Store σ
  | .ok (answer, next) => (.ok answer, next)
  | .error error => (.error error, store)

/-- The outcome of an operation that gives nothing back. -/
def answered : Except Error Unit × Store σ → Except Error Answer × Store σ
  | (result, next) => (result.map fun _ => .done, next)

/-- What an operation gives, and the store after it. -/
def perform [Storage σ] (store : Store σ) (key : String) :
    Operation → Except Error Answer × Store σ
  | .create graph => store.settle <| (store.create key graph).map (Answer.done, ·)
  | .load => store.settle <| (store.load key).map (Answer.done, ·)
  | .unload => store.settle <| (store.unload key).map (Prod.map Answer.graph id)
  | .save => answered (store.save key)
  | .apply request => answered (store.apply key request)
  | .read => store.settle <| (store.graph key).map (Answer.graph ·, store)
  | .generate => store.settle <| (store.generate key).map (Answer.package ·, store)

/-- The store after several operations, each on its own key, of which some may be refused. -/
def performAll [Storage σ] (store : Store σ) (steps : List (String × Operation)) : Store σ :=
  steps.foldl (fun current step => (current.perform step.1 step.2).2) store

def put (store : Store σ) (key : String) (graph : Graph) : Store σ :=
  { store with graphs := store.graphs.insert key graph }

def drop (store : Store σ) (key : String) : Store σ :=
  { store with graphs := store.graphs.erase key }

/-- The store over a memory in which the document of a graph is written. -/
def write (store : Store MemoryStorage) (key : String) (graph : Graph) : Store MemoryStorage :=
  { store with storage := store.storage.put key graph.text.toUTF8 }

/-! ## When an operation is granted -/

/-- When an operation is granted, with which answer, and what it makes of a store. -/
inductive Grants (store : Store MemoryStorage) (key : String) :
    Operation → Answer → Store MemoryStorage → Prop
  | create {graph : Graph} (free : store.graphs.get? key = none)
      (consistent : graph.requireConsistent = .ok ()) :
      Grants store key (.create graph) .done (store.put key graph)
  | load {bytes : ByteArray} {graph : Graph} (free : store.graphs.get? key = none)
      (stored : Storage.read store.storage key = .ok bytes)
      (isRead : Graph.read store.registry bytes = .ok graph) :
      Grants store key .load .done (store.put key graph)
  | unload {graph : Graph} (loaded : store.graphs.get? key = some graph) :
      Grants store key .unload (.graph graph) (store.drop key)
  | save {graph : Graph} {operation : Operation} (asked : operation.saves = true)
      (loaded : store.graphs.get? key = some graph) (works : store.storage.mode = .working) :
      Grants store key operation .done (store.write key graph)
  | change {graph changed : Graph} {request : Request} (notSave : request ≠ .save)
      (loaded : store.graphs.get? key = some graph)
      (granted : graph.apply store.registry request = .ok changed) :
      Grants store key (.apply request) .done (store.put key changed)
  | read {graph : Graph} (loaded : store.graphs.get? key = some graph) :
      Grants store key .read (.graph graph) store
  | generate {graph : Graph} {package : Package} (loaded : store.graphs.get? key = some graph)
      (made : graph.package = .ok package) :
      Grants store key .generate (.package package) store

section Outcomes

variable {store next : Store σ} {answer : Answer} {error : Error}

theorem settle_map_eq_ok_iff
    {α : Type} {result : Except Error α} {tell : α → Answer × Store σ} :
    store.settle (result.map tell) = (.ok answer, next) ↔
      ∃ found, result = .ok found ∧ (tell found).1 = answer ∧ (tell found).2 = next := by
  cases result <;> simp [settle, Except.map]

theorem eq_of_settle_error
    {result : Except Error (Answer × Store σ)}
    (refused : store.settle result = (.error error, next)) :
    next = store := by
  cases result <;> simp_all [settle]

theorem answered_eq_ok_iff
    {outcome : Except Error Unit × Store σ} :
    answered outcome = (.ok answer, next) ↔ .done = answer ∧ outcome = (.ok (), next) := by
  obtain ⟨result, after⟩ := outcome
  cases result <;> simp [answered, Except.map]

theorem answered_eq_error_iff
    {outcome : Except Error Unit × Store σ} :
    answered outcome = (.error error, next) ↔ outcome = (.error error, next) := by
  obtain ⟨result, after⟩ := outcome
  cases result <;> simp [answered, Except.map]

end Outcomes

section Parts

variable {store next : Store σ} {key : String} {graph : Graph}

theorem graph_eq_ok_iff :
    store.graph key = .ok graph ↔ store.graphs.get? key = some graph := by
  rw [Store.graph]
  cases store.graphs.get? key <;> simp

theorem insert_eq_ok_iff :
    store.insert key graph = .ok next ↔
      store.graphs.get? key = none ∧ next = store.put key graph := by
  rw [insert, ← Table.contains_eq_false_iff]
  cases store.graphs.contains key <;> simp [put, eq_comm]

theorem create_eq_ok_iff :
    store.create key graph = .ok next ↔
      store.graphs.get? key = none ∧ graph.requireConsistent = .ok () ∧
        next = store.put key graph := by
  rw [create, check_bind_eq_ok_iff, insert_eq_ok_iff]
  exact and_left_comm

theorem unload_eq_ok_iff :
    store.unload key = .ok (graph, next) ↔
      store.graphs.get? key = some graph ∧ next = store.drop key := by
  simp only [unload, bind_eq_ok_iff, graph_eq_ok_iff, pure_eq_ok_iff, Prod.mk.injEq]
  constructor
  · rintro ⟨found, loaded, rfl, rfl⟩
    exact ⟨loaded, rfl⟩
  · rintro ⟨loaded, rfl⟩
    exact ⟨graph, loaded, rfl, rfl⟩

theorem generate_eq_ok_iff
    {package : Package} :
    store.generate key = .ok package ↔
      ∃ graph, store.graphs.get? key = some graph ∧ graph.package = .ok package := by
  simp only [generate, bind_eq_ok_iff, graph_eq_ok_iff]

theorem change_of_missing
    (missing : store.graphs.get? key = none) (request : Request) :
    store.change key request = (.error (.graphNotFound key), store) := by
  rw [change, Store.graph, missing]

theorem change_eq_ok_iff
    {request : Request} :
    store.change key request = (.ok (), next) ↔
      ∃ graph, store.graphs.get? key = some graph ∧
        ∃ changed, graph.apply store.registry request = .ok changed ∧
          next = store.put key changed := by
  cases found : store.graphs.get? key with
  | none =>
      rw [change_of_missing found]
      simp
  | some graph =>
      rw [change_of_loaded (graph_eq_ok_iff.mpr found)]
      cases outcome : graph.apply store.registry request with
      | error error => simp [Except.map, outcome]
      | ok changed =>
          rw [Graph.step_of_granted outcome]
          simp [Except.map, outcome, put, eq_comm]

/-- What a refused change leaves under its key is the graph that was there. -/
theorem eq_of_change_error
    {request : Request} {error : Error}
    (refused : store.change key request = (.error error, next)) :
    next = store := by
  cases found : store.graphs.get? key with
  | none =>
      rw [change_of_missing found] at refused
      exact (Prod.mk.inj refused).2.symm
  | some graph =>
      rw [change_of_loaded (graph_eq_ok_iff.mpr found)] at refused
      cases outcome : graph.apply store.registry request with
      | error error =>
          rw [Graph.step_of_refused outcome, Table.insert_of_get? found] at refused
          exact (Prod.mk.inj refused).2.symm
      | ok changed =>
          rw [outcome] at refused
          exact nomatch (Prod.mk.inj refused).1

theorem load_eq_ok_iff
    [Storage σ] :
    store.load key = .ok next ↔
      store.graphs.get? key = none ∧
        ∃ bytes, Storage.read store.storage key = .ok bytes ∧
          ∃ graph, Graph.read store.registry bytes = .ok graph ∧ next = store.put key graph := by
  simp only [load, ite_throw_eq_ok_iff, bind_eq_ok_iff, insert_eq_ok_iff, Bool.not_eq_true,
    Table.contains_eq_false_iff]
  constructor
  · rintro ⟨free, bytes, stored, graph, isRead, -, rfl⟩
    exact ⟨free, bytes, stored, graph, isRead, rfl⟩
  · rintro ⟨free, bytes, stored, graph, isRead, rfl⟩
    exact ⟨free, bytes, stored, graph, isRead, free, rfl⟩

end Parts

/-- A save over a memory writes everything or nothing. -/
theorem save_memory
    (store : Store MemoryStorage) (key : String) :
    store.save key =
      match store.graphs.get? key, store.storage.mode with
      | none, _ => (.error (.graphNotFound key), store)
      | some graph, .working => (.ok (), store.write key graph)
      | some _, .stuck => (.error (.saveTimeout key store.saveTimeout), store)
      | some _, .broken => (.error (.system .brokenStorage), store) := by
  rw [save, Store.graph]
  cases store.graphs.get? key with
  | none => rfl
  | some graph =>
      cases mode : store.storage.mode <;> simp [Storage.write, mode, write]

section Perform

variable {store next : Store MemoryStorage} {key : String} {answer : Answer} {error : Error}

theorem save_memory_eq_ok_iff :
    store.save key = (.ok (), next) ↔
      ∃ graph, store.graphs.get? key = some graph ∧ store.storage.mode = .working ∧
        next = store.write key graph := by
  rw [save_memory]
  cases store.graphs.get? key <;> cases store.storage.mode <;> simp [eq_comm]

theorem eq_of_save_memory_error
    (refused : store.save key = (.error error, next)) :
    next = store := by
  rw [save_memory] at refused
  split at refused <;> simp_all

theorem eq_of_apply_error
    {request : Request} (refused : store.apply key request = (.error error, next)) :
    next = store := by
  by_cases isSave : request = .save
  · rw [isSave] at refused
    exact eq_of_save_memory_error refused
  · rw [apply_of_ne_save store key isSave] at refused
    exact eq_of_change_error refused

theorem perform_of_saves
    {operation : Operation} (asked : operation.saves = true) :
    store.perform key operation = answered (store.save key) := by
  cases operation with
  | save => rfl
  | apply request =>
      rw [Operation.saves_apply_iff.mp asked]
      rfl
  | _ => exact Bool.noConfusion asked

theorem grants_of_perform
    {operation : Operation} (performed : store.perform key operation = (.ok answer, next)) :
    Grants store key operation answer next := by
  by_cases asked : operation.saves = true
  · rw [perform_of_saves asked] at performed
    obtain ⟨rfl, saved⟩ := answered_eq_ok_iff.mp performed
    obtain ⟨graph, loaded, works, rfl⟩ := save_memory_eq_ok_iff.mp saved
    exact .save asked loaded works
  cases operation with
  | create graph =>
      obtain ⟨_, created, rfl, rfl⟩ := settle_map_eq_ok_iff.mp performed
      obtain ⟨free, consistent, rfl⟩ := create_eq_ok_iff.mp created
      exact .create free consistent
  | load =>
      obtain ⟨_, isLoaded, rfl, rfl⟩ := settle_map_eq_ok_iff.mp performed
      obtain ⟨free, bytes, stored, graph, isRead, rfl⟩ := load_eq_ok_iff.mp isLoaded
      exact .load free stored isRead
  | unload =>
      obtain ⟨⟨graph, after⟩, unloaded, rfl, rfl⟩ := settle_map_eq_ok_iff.mp performed
      obtain ⟨loaded, rfl⟩ := unload_eq_ok_iff.mp unloaded
      exact .unload loaded
  | save => exact absurd rfl asked
  | apply request =>
      have notSave : request ≠ .save := mt Operation.saves_apply_iff.mpr asked
      obtain ⟨rfl, applied⟩ := answered_eq_ok_iff.mp performed
      have isApplied := (apply_of_ne_save store key notSave).symm.trans applied
      obtain ⟨graph, loaded, changed, isChanged, rfl⟩ := change_eq_ok_iff.mp isApplied
      exact .change notSave loaded isChanged
  | read =>
      obtain ⟨graph, loaded, rfl, rfl⟩ := settle_map_eq_ok_iff.mp performed
      exact .read (graph_eq_ok_iff.mp loaded)
  | generate =>
      obtain ⟨package, generated, rfl, rfl⟩ := settle_map_eq_ok_iff.mp performed
      obtain ⟨graph, loaded, made⟩ := generate_eq_ok_iff.mp generated
      exact .generate loaded made

theorem Grants.perform
    {operation : Operation} (grants : Grants store key operation answer next) :
    store.perform key operation = (.ok answer, next) := by
  cases grants with
  | create free consistent =>
      have created := create_eq_ok_iff.mpr ⟨free, consistent, rfl⟩
      exact settle_map_eq_ok_iff.mpr ⟨_, created, rfl, rfl⟩
  | load free stored isRead =>
      have isLoaded := load_eq_ok_iff.mpr ⟨free, _, stored, _, isRead, rfl⟩
      exact settle_map_eq_ok_iff.mpr ⟨_, isLoaded, rfl, rfl⟩
  | unload loaded =>
      have unloaded := unload_eq_ok_iff.mpr ⟨loaded, rfl⟩
      exact settle_map_eq_ok_iff.mpr ⟨_, unloaded, rfl, rfl⟩
  | save asked loaded works =>
      have saved := save_memory_eq_ok_iff.mpr ⟨_, loaded, works, rfl⟩
      rw [perform_of_saves asked]
      exact answered_eq_ok_iff.mpr ⟨rfl, saved⟩
  | change notSave loaded granted =>
      have changed := change_eq_ok_iff.mpr ⟨_, loaded, _, granted, rfl⟩
      exact answered_eq_ok_iff.mpr ⟨rfl, (apply_of_ne_save store key notSave).trans changed⟩
  | read loaded =>
      exact settle_map_eq_ok_iff.mpr ⟨_, graph_eq_ok_iff.mpr loaded, rfl, rfl⟩
  | generate loaded made =>
      have generated := generate_eq_ok_iff.mpr ⟨_, loaded, made⟩
      exact settle_map_eq_ok_iff.mpr ⟨_, generated, rfl, rfl⟩

theorem perform_eq_ok_iff
    {operation : Operation} :
    store.perform key operation = (.ok answer, next) ↔ Grants store key operation answer next :=
  ⟨grants_of_perform, Grants.perform⟩

/-- What is refused leaves the store as it was. -/
theorem eq_of_perform_error
    {operation : Operation} (refused : store.perform key operation = (.error error, next)) :
    next = store := by
  cases operation with
  | save => exact eq_of_save_memory_error (answered_eq_error_iff.mp refused)
  | apply request => exact eq_of_apply_error (answered_eq_error_iff.mp refused)
  | _ => exact eq_of_settle_error refused

end Perform

/-! ## What stays -/

/-- Two stores agree on all but some keys: on the graphs, on the documents, and on how they work. -/
structure AgreesOutside (store : Store MemoryStorage) (keys : List String)
    (next : Store MemoryStorage) : Prop where
  registry : next.registry = store.registry
  saveTimeout : next.saveTimeout = store.saveTimeout
  mode : next.storage.mode = store.storage.mode
  graph {key : String} (elsewhere : key ∉ keys) : next.graphs.get? key = store.graphs.get? key
  document {key : String} (elsewhere : key ∉ keys) :
    next.storage.documents.get? key = store.storage.documents.get? key

namespace AgreesOutside

variable {first second third store : Store MemoryStorage} {key : String}

theorem refl
    (store : Store MemoryStorage) (keys : List String) :
    store.AgreesOutside keys store :=
  ⟨rfl, rfl, rfl, fun _ => rfl, fun _ => rfl⟩

theorem append
    {keys moreKeys : List String} (before : first.AgreesOutside keys second)
    (after : second.AgreesOutside moreKeys third) :
    first.AgreesOutside (keys ++ moreKeys) third where
  registry := after.registry.trans before.registry
  saveTimeout := after.saveTimeout.trans before.saveTimeout
  mode := after.mode.trans before.mode
  graph elsewhere := by
    rw [List.mem_append, not_or] at elsewhere
    exact (after.graph elsewhere.2).trans (before.graph elsewhere.1)
  document elsewhere := by
    rw [List.mem_append, not_or] at elsewhere
    exact (after.document elsewhere.2).trans (before.document elsewhere.1)

theorem of_graphs
    {graphs : Table String Graph}
    (same : ∀ other, other ≠ key → graphs.get? other = store.graphs.get? other) :
    store.AgreesOutside [key] { store with graphs } where
  registry := rfl
  saveTimeout := rfl
  mode := rfl
  graph elsewhere := same _ (List.ne_of_not_mem_cons elsewhere)
  document _ := rfl

theorem put
    (store : Store MemoryStorage) (key : String) (graph : Graph) :
    store.AgreesOutside [key] (store.put key graph) := by
  refine of_graphs fun other elsewhere => ?_
  rw [Table.get?_insert, if_neg elsewhere]

theorem drop
    (store : Store MemoryStorage) (key : String) :
    store.AgreesOutside [key] (store.drop key) := by
  refine of_graphs fun other elsewhere => ?_
  rw [Table.get?_erase, if_neg elsewhere]

theorem write
    (store : Store MemoryStorage) (key : String) (graph : Graph) :
    store.AgreesOutside [key] (store.write key graph) where
  registry := rfl
  saveTimeout := rfl
  mode := rfl
  graph _ := rfl
  document elsewhere := by
    have other := List.ne_of_not_mem_cons elsewhere
    exact (Table.get?_insert _ _ _ _).trans (if_neg other)

end AgreesOutside

theorem Grants.agreesOutside
    {store next : Store MemoryStorage} {key : String} {operation : Operation} {answer : Answer}
    (grants : Grants store key operation answer next) :
    store.AgreesOutside [key] next := by
  cases grants with
  | create | load | change => exact .put store key _
  | unload => exact .drop store key
  | save => exact .write store key _
  | read | generate => exact .refl store [key]

theorem perform_agreesOutside
    (store : Store MemoryStorage) (key : String) (operation : Operation) :
    store.AgreesOutside [key] (store.perform key operation).2 := by
  rcases performed : store.perform key operation with ⟨error | answer, next⟩
  · rw [eq_of_perform_error performed]
    exact .refl store [key]
  · exact (perform_eq_ok_iff.mp performed).agreesOutside

/-- A run leaves what none of its steps is about. -/
theorem performAll_agreesOutside
    (store : Store MemoryStorage) (steps : List (String × Operation)) :
    store.AgreesOutside (steps.map Prod.fst) (store.performAll steps) := by
  induction steps generalizing store with
  | nil => exact .refl store []
  | cons step rest inductionHypothesis =>
      have first := perform_agreesOutside store step.1 step.2
      exact first.append (inductionHypothesis (store.perform step.1 step.2).2)

/-! ## Several graphs at once -/

section LoadAll

variable [Storage σ]

/-- A store has become another one by graphs that were loaded under some keys, each from its
document, and by nothing else. -/
structure Loads (store : Store σ) (keys : List String) (next : Store σ) : Prop where
  registry : next.registry = store.registry
  saveTimeout : next.saveTimeout = store.saveTimeout
  storage : next.storage = store.storage
  keysNodup : keys.Nodup
  free {key : String} (listed : key ∈ keys) : store.graphs.get? key = none
  loaded {key : String} (listed : key ∈ keys) :
    ∃ bytes, Storage.read store.storage key = .ok bytes ∧
      ∃ graph, Graph.read store.registry bytes = .ok graph ∧ next.graphs.get? key = some graph
  kept {key : String} (elsewhere : key ∉ keys) : next.graphs.get? key = store.graphs.get? key

theorem Loads.nil
    (store : Store σ) :
    store.Loads [] store :=
  ⟨rfl, rfl, rfl, List.nodup_nil, nofun, nofun, fun _ => rfl⟩

theorem Loads.cons
    {store second last : Store σ} {key : String} {rest : List String}
    (first : store.load key = .ok second) (others : second.Loads rest last) :
    store.Loads (key :: rest) last := by
  obtain ⟨free, bytes, stored, graph, isRead, rfl⟩ := load_eq_ok_iff.mp first
  have found (other : String) :
      (store.put key graph).graphs.get? other =
        if other = key then some graph else store.graphs.get? other :=
    Table.get?_insert store.graphs key other graph
  -- A key that came twice would not be free the second time.
  have keyNotListed : key ∉ rest := by
    intro listed
    have absent := others.free listed
    rw [found, if_pos rfl] at absent
    exact absurd absent (Option.some_ne_none graph)
  have elsewhere {other : String} (listed : other ∈ rest) : other ≠ key :=
    fun same => keyNotListed (same ▸ listed)
  refine ⟨others.registry, others.saveTimeout, others.storage,
    List.nodup_cons.mpr ⟨keyNotListed, others.keysNodup⟩, ?_, ?_, ?_⟩
  · intro other listed
    rcases List.mem_cons.mp listed with rfl | inRest
    · exact free
    · have absent := others.free inRest
      rwa [found, if_neg (elsewhere inRest)] at absent
  · intro other listed
    rcases List.mem_cons.mp listed with rfl | inRest
    · refine ⟨bytes, stored, graph, isRead, ?_⟩
      rw [others.kept keyNotListed, found, if_pos rfl]
    · exact others.loaded inRest
  · intro other notListed
    rw [List.mem_cons, not_or] at notListed
    rw [others.kept notListed.2, found, if_neg notListed.1]

/-- How loading several graphs ends: all are there, or those before the first that cannot be
loaded. -/
inductive LoadsInTurn (store : Store σ) : List String → Except Error Unit × Store σ → Prop
  | all {keys : List String} {next : Store σ} (loads : store.Loads keys next) :
      LoadsInTurn store keys (.ok (), next)
  | upTo {done rest : List String} {key : String} {next : Store σ} {error : Error}
      (loads : store.Loads done next) (refused : next.load key = .error error) :
      LoadsInTurn store (done ++ key :: rest) (.error error, next)

theorem loadAll_loadsInTurn
    (store : Store σ) (keys : List String) :
    store.LoadsInTurn keys (store.loadAll keys) := by
  induction keys generalizing store with
  | nil => exact .all (.nil store)
  | cons key rest inductionHypothesis =>
      rw [loadAll]
      cases first : store.load key with
      | error error => exact .upTo (.nil store) first
      | ok second =>
          have others := inductionHypothesis second
          simp only
          generalize second.loadAll rest = outcome at others ⊢
          cases others with
          | all loads => exact .all (.cons first loads)
          | upTo loads refused => exact .upTo (.cons first loads) refused

end LoadAll

/-! ## Isolation -/

/-- An operation on the graph under a key changes nothing under other keys, and nothing at all
when it is refused. The storage is changed by saves alone, which put the text of the graph under
its key and change no graph. When graphs are loaded in a row and one cannot be loaded, those before
it are added and nothing else is. -/
theorem perform_isolated
    (store : Store MemoryStorage) :
    (∀ key operation, store.AgreesOutside [key] (store.perform key operation).2) ∧
    (∀ key operation error next,
      store.perform key operation = (.error error, next) → next = store) ∧
    (∀ key operation answer next,
      store.perform key operation = (.ok answer, next) →
        if operation.saves then
          ∃ graph, store.graph key = .ok graph ∧
            next = { store with storage := store.storage.put key graph.text.toUTF8 }
        else next.storage = store.storage) ∧
    (∀ keys next, store.loadAll keys = (.ok (), next) → store.Loads keys next) ∧
    (∀ keys error next,
      store.loadAll keys = (.error error, next) →
        ∃ done key rest, keys = done ++ key :: rest ∧ store.Loads done next ∧
          next.load key = .error error) := by
  refine ⟨perform_agreesOutside store, fun _ _ _ _ => eq_of_perform_error, ?_, ?_, ?_⟩
  · intro key operation answer next performed
    cases perform_eq_ok_iff.mp performed with
    | save asked loaded _ =>
        rw [asked, if_pos rfl]
        exact ⟨_, graph_eq_ok_iff.mpr loaded, rfl⟩
    | change notSave _ _ =>
        rw [if_neg (mt Operation.saves_apply_iff.mp notSave)]
        rfl
    | _ => rfl
  · intro keys next allLoaded
    have inTurn := loadAll_loadsInTurn store keys
    rw [allLoaded] at inTurn
    cases inTurn with
    | all loads => exact loads
  · intro keys error next stopped
    have inTurn := loadAll_loadsInTurn store keys
    rw [stopped] at inTurn
    cases inTurn with
    | upTo loads refused => exact ⟨_, _, _, rfl, loads, refused⟩

end Store

end Pipework
