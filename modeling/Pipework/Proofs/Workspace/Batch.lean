import Mathlib.Data.List.Permutation
import Pipework.CommandLine
import Pipework.Proofs.Except
import Pipework.Proofs.Store

/-!
# Requests one by one and all at once

Requests can be made with a process for each, which reads the document of a graph and writes it
again (`Workspace.editEach`), or within one store that holds the graph. Both end in the same
files (`Workspace.batch_agrees`): what a process writes is read by the next as the very graph that
a store would hold, and a request that is refused leaves nothing behind.
-/

namespace Pipework

/-- The store after some requests in turn, of which some may be refused. -/
def Store.applyAll {σ : Type} [Storage σ] (store : Store σ) (key : String)
    (requests : List Request) : Store σ :=
  requests.foldl (fun current request => (current.apply key request).2) store

/-- What a store makes of requests in turn, up to the first that is refused. -/
def Store.applyInTurn {σ : Type} [Storage σ] (store : Store σ) (key : String) :
    List Request → Except Error Unit × Store σ
  | [] => (.ok (), store)
  | request :: rest =>
      match store.apply key request with
      | (.ok (), next) => next.applyInTurn key rest
      | (.error error, next) => (.error error, next)

namespace Workspace

/-! ## A process for each request -/

/-- What a process does that edits a graph of a project: it changes the graph as a request asks,
and saves it if that succeeds. -/
def editOnce (project : Project) (graph : String) (tree : FileTree) (request : Request) :
    Except Failure Unit × FileTree :=
  match (ofProject tree project).edit graph request with
  | .ok changed => changed.save graph
  | .error failure => (.error failure, tree)

/-- The files after a process for each of some requests. -/
def editEach (project : Project) (graph : String) (tree : FileTree) (requests : List Request) :
    FileTree :=
  requests.foldl (fun current request => (editOnce project graph current request).2) tree

/-- The requests before the first for which the process fails. -/
def editsBeforeFailure (project : Project) (graph : String) (tree : FileTree) :
    List Request → List Request
  | [] => []
  | request :: rest =>
      let edited := editOnce project graph tree request
      if edited.1.isOk then request :: editsBeforeFailure project graph edited.2 rest else []

/-! ## Files that hold a graph -/

/-- The workspace that has only loaded one graph, which may have changed since. -/
def working (project : Project) (graph : String) (content : Graph) (storage : FileStorage) :
    Workspace :=
  ⟨project, Store.working Registry.builtin project.settings.saveTimeout (graphKey graph) content
    storage⟩

/-- The files in which the document of a graph has been written. -/
def filesWith (written : ByteArray → FileStorage) (content : Graph) : FileTree :=
  (written content.text.toUTF8).tree

/-- Among the files of a project there is a place for the document of a graph. -/
structure HasPlace (project : Project) (graph : String) (written : ByteArray → FileStorage) :
    Prop extends Storage.Slot (graphKey graph) written where
  root (bytes : ByteArray) : (written bytes).root = project.graphsPath

section Files

variable {project : Project} {graph : String} {written : ByteArray → FileStorage}
variable {content next : Graph} {request : Request}

theorem storage_filesWith
    (place : HasPlace project graph written) (content : Graph) :
    (⟨project.graphsPath, filesWith written content⟩ : FileStorage) =
      written content.text.toUTF8 := by
  rw [← place.root content.text.toUTF8]
  rfl

theorem load_filesWith
    (place : HasPlace project graph written) (built : Graph.Built Registry.builtin content) :
    (ofProject (filesWith written content) project).load graph =
      .ok (working project graph content (written content.text.toUTF8)) := by
  have isRead : Graph.read Registry.builtin content.text.toUTF8 = .ok content :=
    Graph.read_text_of_consistent built.consistent built.legal
  rw [load, ofProject, storage_filesWith place]
  simp only [Store.load_of_read place.toSlot isRead]
  rfl

theorem save_working
    (place : HasPlace project graph written) (content : Graph) (bytes : ByteArray) :
    (working project graph content (written bytes)).save graph =
      (.ok (), filesWith written content) := by
  rw [save, working, Store.save_working place.toSlot]
  rfl

theorem change_working
    (project : Project) (graph : String) (content : Graph) (storage : FileStorage)
    (request : Request) :
    (working project graph content storage).change graph request =
      (content.apply Registry.builtin request).map fun next =>
        working project graph next storage := by
  rw [change, working, Store.change_working]
  cases outcome : content.apply Registry.builtin request with
  | ok next =>
      rw [Graph.step_of_granted outcome]
      rfl
  | error error => rfl

theorem edit_filesWith
    (place : HasPlace project graph written) (built : Graph.Built Registry.builtin content)
    (request : Request) :
    (ofProject (filesWith written content) project).edit graph request =
      orFailWith (request.op ++ " failed on graph '" ++ graph ++ "'")
        ((content.apply Registry.builtin request).map fun next =>
          working project graph next (written content.text.toUTF8)) := by
  rw [edit, load_filesWith place built, ← change_working]
  rfl

theorem editOnce_of_granted
    (place : HasPlace project graph written) (built : Graph.Built Registry.builtin content)
    (granted : content.apply Registry.builtin request = .ok next) :
    editOnce project graph (filesWith written content) request =
      (.ok (), filesWith written next) := by
  unfold editOnce
  rw [edit_filesWith place built, granted]
  exact save_working place next content.text.toUTF8

theorem editOnce_of_refused
    (place : HasPlace project graph written) (built : Graph.Built Registry.builtin content)
    {error : Error} (refused : content.apply Registry.builtin request = .error error) :
    ∃ failure, editOnce project graph (filesWith written content) request =
      (.error failure, filesWith written content) := by
  unfold editOnce
  rw [edit_filesWith place built, refused]
  exact ⟨_, rfl⟩

/-! ## Many requests -/

/-- Processes leave in the files the graph to which their requests lead in memory. -/
theorem editEach_eq
    (place : HasPlace project graph written) (built : Graph.Built Registry.builtin content)
    (requests : List Request) :
    editEach project graph (filesWith written content) requests =
      filesWith written (content.run Registry.builtin requests) := by
  induction requests generalizing content with
  | nil => rfl
  | cons request rest inductionHypothesis =>
      have first : (editOnce project graph (filesWith written content) request).2 =
          filesWith written (content.step Registry.builtin request) := by
        cases applied : content.apply Registry.builtin request with
        | ok next => rw [editOnce_of_granted place built applied, Graph.step_of_granted applied]
        | error error =>
            obtain ⟨failure, refused⟩ := editOnce_of_refused place built applied
            rw [refused, Graph.step_of_refused applied]
      rw [editEach, List.foldl_cons, first]
      exact inductionHypothesis (built.step request)

/-- What processes leave in the file of a graph is the text of the graph after their requests. -/
theorem read_editEach
    (place : HasPlace project graph written) (built : Graph.Built Registry.builtin content)
    (requests : List Request) :
    Storage.read
        (FileStorage.mk project.graphsPath
          (editEach project graph (filesWith written content) requests))
        (graphKey graph) =
      .ok (content.run Registry.builtin requests).text.toUTF8 := by
  rw [editEach_eq place built, storage_filesWith place]
  exact place.read _

theorem apply_working
    (place : HasPlace project graph written) (content : Graph) (bytes : ByteArray)
    (request : Request) :
    ∃ next, (working project graph content (written bytes)).store.apply (graphKey graph) request =
      ((content.apply Registry.builtin request).map fun _ => (),
        (working project graph (content.step Registry.builtin request) (written next)).store) :=
  Store.apply_working place.toSlot content bytes request

theorem applyAll_working
    (place : HasPlace project graph written) (content : Graph) (bytes : ByteArray)
    (requests : List Request) :
    ∃ last, (working project graph content (written bytes)).store.applyAll (graphKey graph)
        requests =
      (working project graph (content.run Registry.builtin requests) (written last)).store := by
  induction requests generalizing content bytes with
  | nil => exact ⟨bytes, rfl⟩
  | cons request rest inductionHypothesis =>
      obtain ⟨next, applied⟩ := apply_working place content bytes request
      obtain ⟨last, same⟩ :=
        inductionHypothesis (content.step Registry.builtin request) next
      refine ⟨last, ?_⟩
      rw [Store.applyAll, List.foldl_cons, applied]
      exact same

theorem editsBeforeFailure_of_granted
    (place : HasPlace project graph written) (built : Graph.Built Registry.builtin content)
    (granted : content.apply Registry.builtin request = .ok next) (rest : List Request) :
    editsBeforeFailure project graph (filesWith written content) (request :: rest) =
      request :: editsBeforeFailure project graph (filesWith written next) rest := by
  rw [editsBeforeFailure, editOnce_of_granted place built granted]
  rfl

theorem editsBeforeFailure_of_refused
    (place : HasPlace project graph written) (built : Graph.Built Registry.builtin content)
    {error : Error} (refused : content.apply Registry.builtin request = .error error)
    (rest : List Request) :
    editsBeforeFailure project graph (filesWith written content) (request :: rest) = [] := by
  obtain ⟨failure, failed⟩ := editOnce_of_refused place built refused
  rw [editsBeforeFailure, failed]
  rfl

/-- A store makes in turn the requests that processes make before the first of them fails. -/
theorem applyInTurn_working
    (place : HasPlace project graph written) (built : Graph.Built Registry.builtin content)
    (bytes : ByteArray) (requests : List Request) :
    let done := editsBeforeFailure project graph (filesWith written content) requests
    ∃ result last,
      (working project graph content (written bytes)).store.applyInTurn (graphKey graph) requests =
        (result, (working project graph (content.run Registry.builtin done)
          (written last)).store) ∧
        (result = .ok () ↔ done = requests) := by
  induction requests generalizing content bytes with
  | nil => exact ⟨.ok (), bytes, rfl, fun _ => rfl, fun _ => rfl⟩
  | cons request rest inductionHypothesis =>
      obtain ⟨stored, inStore⟩ := apply_working place content bytes request
      rw [Store.applyInTurn, inStore]
      cases applied : content.apply Registry.builtin request with
      | ok next =>
          rw [editsBeforeFailure_of_granted place built applied rest,
            Graph.step_of_granted applied]
          obtain ⟨result, last, inTurn, succeeds⟩ :=
            inductionHypothesis (built.of_apply applied) stored
          refine ⟨result, last, ?_, ?_⟩
          · rw [Graph.run_cons, Graph.step_of_granted applied]
            exact inTurn
          · rw [succeeds, List.cons_inj_right]
      | error error =>
          rw [editsBeforeFailure_of_refused place built applied rest,
            Graph.step_of_refused applied]
          exact ⟨.error error, stored, rfl, iff_of_false (by simp) (by simp)⟩

end Files

/-! ## Scripts -/

section Scripts

variable {request : Request}

theorem applyLines_skip
    (store : Store FileStorage) (key : String) {line : String} (number : Nat)
    (rest : List (String × Nat)) (noRequest : requestLine? line = none) :
    applyLines store key ((line, number) :: rest) = applyLines store key rest := by
  conv_lhs => unfold applyLines
  rw [noRequest]

theorem applyLines_of_granted
    {store next : Store FileStorage} {key line text : String} (number : Nat)
    (rest : List (String × Nat)) (isRequest : requestLine? line = some text)
    (isText : Request.ofText text = .ok request)
    (granted : store.apply key request = (.ok (), next)) :
    applyLines store key ((line, number) :: rest) = applyLines next key rest := by
  have applied : applyLine store key text = (.ok (), next) := by
    rw [applyLine, isText]
    simp only [granted]
    rfl
  conv_lhs => unfold applyLines
  rw [isRequest]
  simp only [applied]

theorem applyLines_of_refused
    {store next : Store FileStorage} {key line text : String} {error : Error} (number : Nat)
    (rest : List (String × Nat)) (isRequest : requestLine? line = some text)
    (isText : Request.ofText text = .ok request)
    (refused : store.apply key request = (.error error, next)) :
    ∃ failure, applyLines store key ((line, number) :: rest) = (.error failure, next) := by
  have applied : ∃ reason, applyLine store key text = (.error reason, next) := by
    rw [applyLine, isText]
    simp only [refused]
    exact ⟨_, rfl⟩
  obtain ⟨reason, applied⟩ := applied
  refine ⟨⟨"line " ++ toString number, [reason]⟩, ?_⟩
  conv_lhs => unfold applyLines
  rw [isRequest]
  simp only [applied]

/-- The lines of a script do what the requests that they are do in turn. -/
theorem applyLines_eq
    (store : Store FileStorage) (key : String) (lines : List (String × Nat))
    {requests : List Request}
    (isScript : ((lines.map Prod.fst).filterMap requestLine?).map Request.ofText =
      requests.map .ok) :
    (applyLines store key lines).2 = (store.applyInTurn key requests).2 ∧
      ((applyLines store key lines).1 = .ok () ↔
        (store.applyInTurn key requests).1 = .ok ()) := by
  -- A line that is no request takes nothing from the requests, so the induction is on the lines.
  induction lines generalizing store requests with
  | nil =>
      have noRequests : requests = [] := by simpa using isScript.symm
      rw [noRequests]
      exact ⟨rfl, iff_of_true rfl rfl⟩
  | cons line rest inductionHypothesis =>
      obtain ⟨line, number⟩ := line
      rw [List.map_cons] at isScript
      cases isRequest : requestLine? line with
      | none =>
          rw [List.filterMap_cons_none isRequest] at isScript
          rw [applyLines_skip store key number rest isRequest]
          exact inductionHypothesis store isScript
      | some text =>
          rw [List.filterMap_cons_some isRequest, List.map_cons] at isScript
          cases requests with
          | nil => exact absurd isScript (List.cons_ne_nil _ _)
          | cons request others =>
              obtain ⟨isText, isRest⟩ := List.cons.inj isScript
              rw [Store.applyInTurn]
              rcases outcome : store.apply key request with ⟨⟨error⟩ | _, next⟩
              · obtain ⟨failure, stopped⟩ :=
                  applyLines_of_refused number rest isRequest isText outcome
                rw [stopped]
                exact ⟨rfl, iff_of_false (by simp) (by simp)⟩
              · rw [applyLines_of_granted number rest isRequest isText outcome]
                exact inductionHypothesis next isRest

theorem applyScript_filesWith
    {project : Project} {graph : String} {written : ByteArray → FileStorage} {content : Graph}
    (place : HasPlace project graph written) (built : Graph.Built Registry.builtin content)
    {script : String} {requests : List Request}
    (isScript : ((Text.linesOf script).filterMap requestLine?).map Request.ofText =
      requests.map .ok) :
    let done := editsBeforeFailure project graph (filesWith written content) requests
    ∃ result, (ofProject (filesWith written content) project).applyScript graph script =
        (result, editEach project graph (filesWith written content) done) ∧
      (result = .ok () ↔ done = requests) := by
  intro done
  rw [← List.zipIdx_map_fst 1 (Text.linesOf script)] at isScript
  obtain ⟨result, last, inTurn, succeeds⟩ :=
    applyInTurn_working place built content.text.toUTF8 requests
  obtain ⟨sameStore, sameResult⟩ :=
    applyLines_eq (working project graph content (written content.text.toUTF8)).store
      (graphKey graph) ((Text.linesOf script).zipIdx 1) isScript
  rw [inTurn] at sameStore sameResult
  refine ⟨_, ?_, sameResult.trans succeeds⟩
  rw [editEach_eq place built, applyScript, load_filesWith place built]
  have saved : Workspace.save
      { working project graph content (written content.text.toUTF8) with
        store := (working project graph (content.run Registry.builtin done) (written last)).store }
      graph = (.ok (), filesWith written (content.run Registry.builtin done)) :=
    save_working place (content.run Registry.builtin done) last
  simp only [sameStore]
  rw [saved]

end Scripts

/-! ## Graphs that a project has got -/

theorem newGraph_eq_ok_iff
    {tree : FileTree} {project : Project} {graph : String} {packagePath? : Option String}
    {isCommand : Bool} {created : Workspace} :
    let files : FileStorage := ⟨project.graphsPath, tree⟩
    let name := graphStem (graphKey graph)
    (ofProject tree project).newGraph graph packagePath? isCommand = .ok created ↔
      (∃ path, files.path (graphKey graph) = .ok path) ∧
        Storage.holds files (graphKey graph) = .ok false ∧
        created = working project graph
          (Graph.empty name (packagePath?.getD ("example.com/" ++ name)) isCommand) files := by
  intro files name
  have isCreated (content : Graph) (sound : content.requireConsistent = .ok ()) :
      (ofProject tree project).store.create (graphKey graph) content =
        .ok (working project graph content files).store := by
    rw [Store.create, sound]
    exact Store.insert_empty content files
  rw [newGraph]
  simp only [bind_eq_ok_iff, orFail, mapError_eq_ok_iff, ite_throw_eq_ok_iff, pure_eq_ok_iff]
  rw [isCreated _ rfl]
  constructor
  · rintro ⟨path, isPath, held, isHeld, free, store, isStore, rfl⟩
    rw [Bool.eq_false_iff.mpr free] at isHeld
    rw [← Except.ok.inj isStore]
    exact ⟨⟨path, isPath⟩, isHeld, rfl⟩
  · rintro ⟨⟨path, isPath⟩, isHeld, rfl⟩
    exact ⟨path, isPath, false, isHeld, Bool.false_ne_true, _, rfl, rfl⟩

theorem save_eq_ok_iff
    {project : Project} {graph : String} {content : Graph} {storage : FileStorage}
    {start : FileTree} :
    (working project graph content storage).save graph = (.ok (), start) ↔
      ∃ next, Storage.write storage (graphKey graph) content.text.toUTF8 = (.done, next) ∧
        start = next.tree := by
  have loaded : (working project graph content storage).store.graph (graphKey graph) =
      .ok content := Store.graph_working content storage
  constructor
  · intro saved
    cases inStore : (working project graph content storage).store.save (graphKey graph) with
    | mk result store =>
        rw [save, inStore] at saved
        obtain ⟨passed, rfl⟩ := Prod.mk.inj saved
        rw [mapError_eq_ok_iff.mp passed] at inStore
        obtain ⟨next, isWritten, rfl⟩ := (Store.save_eq_ok_iff loaded).mp inStore
        exact ⟨next, isWritten, rfl⟩
  · rintro ⟨next, isWritten, rfl⟩
    rw [save, (Store.save_eq_ok_iff loaded).mpr ⟨next, isWritten, rfl⟩]
    rfl

theorem hasPlace_of_save
    {tree start : FileTree} {project : Project} {graph : String} {content : Graph}
    (saved : (working project graph content ⟨project.graphsPath, tree⟩).save graph =
      (.ok (), start)) :
    ∃ written, HasPlace project graph written ∧ start = filesWith written content := by
  obtain ⟨next, isWritten, rfl⟩ := save_eq_ok_iff.mp saved
  obtain ⟨written, slot, last, root⟩ := FileStorage.slot_of_write isWritten
  exact ⟨written, ⟨slot, root⟩, congrArg FileStorage.tree last⟩

/-! ## Programs -/

theorem ofPath_of_project
    {tree : FileTree} {project : Project} {config : String}
    (isProject : Project.loadOrDefault tree config = .ok project) :
    ofPath tree config = .ok (ofProject tree project) := by
  rw [ofPath, isProject]
  rfl

/-- A command that changes a graph by a request is such a process. -/
theorem changeByRequest_eq
    {tree : FileTree} {project : Project} {config : String}
    (isProject : Project.loadOrDefault tree config = .ok project) (graph : String)
    (request : Request) :
    CommandLine.changeByRequest tree config graph (.ok request) =
      editOnce project graph tree request := by
  unfold editOnce CommandLine.changeByRequest CommandLine.changeGraph
  rw [ofPath_of_project isProject]
  rfl

theorem perform_applyScript
    {surroundings : CommandLine.Surroundings} {tree : FileTree} {project : Project}
    {config input script : String} (graph : String)
    (isProject : Project.loadOrDefault tree config = .ok project)
    (isText : CommandLine.scriptText surroundings tree input = .ok script) :
    CommandLine.Command.perform surroundings tree config (.applyScript graph input) =
      .ofChange ((ofProject tree project).applyScript graph script) := by
  have applied : CommandLine.applyScript surroundings tree config graph input =
      (ofProject tree project).applyScript graph script := by
    unfold CommandLine.applyScript CommandLine.withWorkspace
    rw [isText]
    simp only [ofPath_of_project isProject]
  exact congrArg CommandLine.Effect.ofChange applied

theorem tree_run_ofChange
    (change : Except Failure Unit × FileTree) :
    (CommandLine.Effect.ofChange change).run.tree = change.2 := by
  obtain ⟨result, tree⟩ := change
  cases result <;> rfl

theorem code_run_ofChange
    (change : Except Failure Unit × FileTree) :
    (CommandLine.Effect.ofChange change).run.status.code = 0 ↔ change.1 = .ok () := by
  obtain ⟨result, tree⟩ := change
  cases result with
  | ok _ => exact iff_of_true rfl rfl
  | error failure =>
      have notWell : CommandLine.Status.failure.code ≠ 0 := by decide
      exact iff_of_false notWell nofun

/-- For a graph that was made and saved, the processes that make some requests one by one leave
the same files as a store that loads the graph, makes all of them and saves it; the file of the
graph holds the text of what the requests make of an empty graph. Where the same requests are the
lines of a script, a process that applies it leaves the files that are there before the first
request that fails, and it ends well exactly when none does. -/
theorem batch_agrees
    {tree start : FileTree} {project : Project} {graph : String} {packagePath? : Option String}
    {isCommand : Bool} {created : Workspace}
    (isNew : (ofProject tree project).newGraph graph packagePath? isCommand = .ok created)
    (saved : created.save graph = (.ok (), start))
    (requests : List Request) :
    let name := graphStem (graphKey graph)
    let content := Graph.empty name (packagePath?.getD ("example.com/" ++ name)) isCommand
    Storage.read (FileStorage.mk project.graphsPath (editEach project graph start requests))
        (graphKey graph) = .ok (content.run Registry.builtin requests).text.toUTF8 ∧
    (∃ loaded, (ofProject start project).load graph = .ok loaded ∧
      Workspace.save
        { loaded with store := loaded.store.applyAll (graphKey graph) requests } graph =
          (.ok (), editEach project graph start requests)) ∧
    ∀ {surroundings : CommandLine.Surroundings} {config input script : String},
      Project.loadOrDefault start config = .ok project →
      CommandLine.scriptText surroundings start input = .ok script →
      ((Text.linesOf script).filterMap requestLine?).map Request.ofText = requests.map .ok →
      let done := editsBeforeFailure project graph start requests
      let run := (CommandLine.Command.perform surroundings start config
        (.applyScript graph input)).run
      run.tree = editEach project graph start done ∧
        (run.status.code = 0 ↔ done = requests) := by
  intro name content
  obtain ⟨_, _, rfl⟩ := newGraph_eq_ok_iff.mp isNew
  obtain ⟨written, place, rfl⟩ := hasPlace_of_save saved
  have built : Graph.Built Registry.builtin content := Graph.Built.empty _ _ _ _
  refine ⟨read_editEach place built requests, ?_, ?_⟩
  · refine ⟨_, load_filesWith place built, ?_⟩
    obtain ⟨last, applied⟩ := applyAll_working place _ _ requests
    rw [applied, editEach_eq place built]
    exact save_working place _ last
  · intro surroundings config input script isProject isText isScript done run
    obtain ⟨result, applied, succeeds⟩ := applyScript_filesWith place built isScript
    have performed := perform_applyScript graph isProject isText
    rw [applied] at performed
    have isRun : run = (CommandLine.Effect.ofChange
        (result, editEach project graph (filesWith written _) done)).run :=
      congrArg CommandLine.Effect.run performed
    rw [isRun]
    exact ⟨tree_run_ofChange _, (code_run_ofChange _).trans succeeds⟩

/-- A directory without files. -/
def noFiles : FileTree := ⟨Table.empty, []⟩

/-- A script in which the second of three requests fails. -/
def brokenScript : String :=
  Text.ofLines
    ["[\"SetGraphProperties\",\"h\",\"p\",true]", "# there is no such node",
      "[\"DeleteNode\",\"a\"]", "[\"Save\"]"]

theorem requests_brokenScript :
    ((Text.linesOf brokenScript).filterMap requestLine?).map Request.ofText =
      [.ok (.setGraphProperties ⟨"h", "p", true⟩), .ok (.deleteNode "a"), .ok .save] := by
  have texts : (Text.linesOf brokenScript).filterMap requestLine? =
      ["[\"SetGraphProperties\",\"h\",\"p\",true]", "[\"DeleteNode\",\"a\"]",
        "[\"Save\"]"] := by decide +kernel
  have isFirst : Request.ofText "[\"SetGraphProperties\",\"h\",\"p\",true]" =
      .ok (.setGraphProperties ⟨"h", "p", true⟩) := by cbv
  have isSecond : Request.ofText "[\"DeleteNode\",\"a\"]" = .ok (.deleteNode "a") := by cbv
  have isThird : Request.ofText "[\"Save\"]" = .ok .save := by cbv
  rw [texts, List.map_cons, List.map_cons, List.map_singleton, isFirst, isSecond, isThird]

theorem batch_agrees_brokenScript :
    let project := Project.ofDirectory "."
    let first := Request.setGraphProperties ⟨"h", "p", true⟩
    let requests := [first, .deleteNode "a", .save]
    let surroundings : CommandLine.Surroundings :=
      ⟨fun _ _ => .error .notFound, .ok brokenScript, none⟩
    let name := graphStem (graphKey "g")
    let content := Graph.empty name ((none : Option String).getD ("example.com/" ++ name)) false
    ∃ created start, (ofProject noFiles project).newGraph "g" none false = .ok created ∧
      created.save "g" = (.ok (), start) ∧
      Storage.read (FileStorage.mk project.graphsPath (editEach project "g" start requests))
        (graphKey "g") = .ok (content.run Registry.builtin requests).text.toUTF8 ∧
      (∃ loaded, (ofProject start project).load "g" = .ok loaded ∧
        Workspace.save { loaded with store := loaded.store.applyAll (graphKey "g") requests } "g" =
          (.ok (), editEach project "g" start requests)) ∧
      let run := (CommandLine.Command.perform surroundings start "chanweave.yaml"
        (.applyScript "g" "-")).run
      editsBeforeFailure project "g" start requests = [first] ∧
        run.tree = editEach project "g" start [first] ∧ run.status.code ≠ 0 := by
  intro project first requests surroundings name content
  let files : FileStorage := ⟨project.graphsPath, noFiles⟩
  let written := Storage.write files (graphKey "g") content.text.toUTF8
  have isPath : files.path (graphKey "g") = .ok "./graphs/g.json" := by decide +kernel
  have isFree : Storage.holds files (graphKey "g") = .ok false := by decide +kernel
  have isDone : written.1 = .done := by decide +kernel
  have isWritten : written = (.done, written.2) := by rw [← isDone]
  have isNew : (ofProject noFiles project).newGraph "g" none false =
      .ok (working project "g" content files) :=
    newGraph_eq_ok_iff.mpr ⟨⟨_, isPath⟩, isFree, rfl⟩
  have saved : (working project "g" content files).save "g" = (.ok (), written.2.tree) :=
    save_eq_ok_iff.mpr ⟨written.2, isWritten, rfl⟩
  have isProject : Project.loadOrDefault written.2.tree "chanweave.yaml" = .ok project := by
    decide +kernel
  have stops : editsBeforeFailure project "g" written.2.tree requests = [first] := by
    obtain ⟨place, hasPlace, isPlace⟩ := hasPlace_of_save saved
    have built : Graph.Built Registry.builtin content := Graph.Built.empty _ _ _ _
    have granted : content.apply Registry.builtin first =
        .ok (content.setProperties ⟨"h", "p", true⟩) := rfl
    rw [isPlace, editsBeforeFailure_of_granted hasPlace built granted,
      editsBeforeFailure_of_refused hasPlace (built.of_apply granted) rfl]
  obtain ⟨isRead, inMemory, applied⟩ := batch_agrees isNew saved requests
  have isText : CommandLine.scriptText surroundings written.2.tree "-" = .ok brokenScript := rfl
  obtain ⟨sameFiles, endsWell⟩ := applied isProject isText requests_brokenScript
  rw [stops] at sameFiles endsWell
  have failed : [first] ≠ requests := fun same => nomatch (List.cons.inj same).2
  refine ⟨working project "g" content files, written.2.tree, isNew, saved, isRead, inMemory,
    stops, sameFiles, fun well => failed (endsWell.mp well)⟩

end Workspace

end Pipework
