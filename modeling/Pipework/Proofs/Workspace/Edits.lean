import Pipework.Proofs.FileTree.Below
import Pipework.Proofs.FileTree.Changes
import Pipework.Proofs.Store.Isolation
import Pipework.Proofs.Workspace.Batch

/-!
# What an edit touches

A command that edits a graph either fails, and then no file is another than before, or it writes
the one file of this graph, below the directory of the graphs, and what it writes is the text of
the edited graph (`CommandLine.edit_touches_one_file`). Whatever keeps the command from an edit
leaves the tree as it was; a save that fails can at most leave directories behind.
-/

namespace Pipework

open FileTree (MakesDirectories WritesFile)

/-! ## Writes to files -/

namespace FileStorage

/-- Where a path leads that is the one of a key, below the place where the root leads. -/
structure IsPlaceOf (tree : FileTree) (root key : String) (place : Place) : Prop where
  leads : tree.locate (Path.join root key) = .ok place
  below : ∃ base rest, tree.walk (tree.startOf root) (FileTree.namesOf root) = .ok base ∧
    rest ≠ [] ∧ place = base ++ rest

variable {storage next : FileStorage} {key : String} {bytes : ByteArray}

/-- A write that fails changes no file. -/
theorem makes_of_write
    {result : WriteResult} (isWritten : Storage.write storage key bytes = (result, next))
    (notDone : result ≠ .done) :
    MakesDirectories storage.tree next.tree := by
  simp only [Storage.write] at isWritten
  split at isWritten
  · obtain ⟨_, rfl⟩ := Prod.mk.inj isWritten
    exact .refl _
  · rename_i path _
    have makes := FileTree.makeDirectories_makes storage.tree ((Path.parent? path).getD "")
    rw [replace] at isWritten
    split at isWritten
    · rename_i made
      rw [made] at makes
      obtain ⟨_, rfl⟩ := Prod.mk.inj isWritten
      exact makes
    · rename_i made
      rw [made] at makes
      split at isWritten
      · obtain ⟨_, rfl⟩ := Prod.mk.inj isWritten
        exact makes
      · rename_i name isName
        split at isWritten
        · rename_i refused
          obtain ⟨_, rfl⟩ := Prod.mk.inj isWritten
          rw [FileTree.eq_of_replaceFile_error isName refused]
          exact makes
        · exact absurd (Prod.mk.inj isWritten).1.symm notDone

theorem writes_of_write
    (isWritten : Storage.write storage key bytes = (.done, next)) :
    ∃ place, IsPlaceOf next.tree storage.root key place ∧
      WritesFile storage.tree next.tree place bytes := by
  obtain ⟨path, isPath, ready, made, name, isName, tree, replaced, rfl⟩ :=
    write_eq_done_iff.mp isWritten
  have makes := FileTree.makeDirectories_makes storage.tree ((Path.parent? path).getD "")
  rw [made] at makes
  obtain ⟨place, target, writes⟩ := FileTree.replaceFile_writes isName replaced
  have keeps := writes.keepsDirectories
  obtain ⟨_, _, rfl⟩ := pathBelow_eq_ok_iff.mp isPath
  obtain ⟨base, rest, leads, filled, isPlace⟩ := below_of_moveTarget isPath target
  rw [← keeps.startOf] at leads
  exact ⟨place,
    ⟨keeps.locate (FileTree.locate_of_moveTarget target), base, rest, keeps.walk leads, filled,
      isPlace⟩,
    writes.after_makes makes⟩

end FileStorage

/-! ## Graphs that are found -/

/-- What files hold under a key: a graph, or nothing at all. -/
inductive FileStorage.Finds (files : FileStorage) (key : String) : Option Graph → Prop
  | nothing (free : Storage.holds files key = .ok false) : files.Finds key none
  | graph {bytes : ByteArray} {content : Graph} (stored : Storage.read files key = .ok bytes)
      (isRead : Graph.read Registry.builtin bytes = .ok content) : files.Finds key (some content)

namespace Workspace

variable {tree : FileTree} {project : Project} {graph : String} {changed : Workspace}

theorem load_eq_ok_iff :
    (ofProject tree project).load graph = .ok changed ↔
      ∃ content, FileStorage.Finds ⟨project.graphsPath, tree⟩ (graphKey graph) (some content) ∧
        changed = working project graph content ⟨project.graphsPath, tree⟩ := by
  rw [load]
  simp only [bind_eq_ok_iff, pure_eq_ok_iff, orFailWith, mapError_eq_ok_iff,
    Store.load_eq_ok_iff]
  constructor
  · rintro ⟨_, ⟨_, bytes, stored, content, isRead, rfl⟩, rfl⟩
    exact ⟨content, .graph stored isRead, rfl⟩
  · rintro ⟨content, finds, rfl⟩
    cases finds with
    | graph stored isRead => exact ⟨_, ⟨rfl, _, stored, content, isRead, rfl⟩, rfl⟩

theorem change_working_eq_ok_iff
    {content : Graph} {files : FileStorage} {request : Request} :
    (working project graph content files).change graph request = .ok changed ↔
      ∃ made, content.apply Registry.builtin request = .ok made ∧
        changed = working project graph made files := by
  rw [change_working, map_eq_ok_iff]
  simp only [eq_comm]

theorem edit_eq_ok_iff
    {request : Request} :
    (ofProject tree project).edit graph request = .ok changed ↔
      ∃ content, FileStorage.Finds ⟨project.graphsPath, tree⟩ (graphKey graph) (some content) ∧
        ∃ made, content.apply Registry.builtin request = .ok made ∧
          changed = working project graph made ⟨project.graphsPath, tree⟩ := by
  simp only [edit, bind_eq_ok_iff, load_eq_ok_iff, orFailWith, mapError_eq_ok_iff]
  constructor
  · rintro ⟨_, ⟨content, finds, rfl⟩, isChanged⟩
    exact ⟨content, finds, change_working_eq_ok_iff.mp isChanged⟩
  · rintro ⟨content, finds, isMade⟩
    exact ⟨_, ⟨content, finds, rfl⟩, change_working_eq_ok_iff.mpr isMade⟩

theorem graph_working
    (content : Graph) (files : FileStorage) :
    (working project graph content files).graph graph = .ok content := by
  rw [Workspace.graph, working, Store.graph_working]
  rfl

theorem setGraph_eq_ok_iff
    {changes : GraphChanges} :
    (ofProject tree project).setGraph graph changes = .ok changed ↔
      ∃ content, FileStorage.Finds ⟨project.graphsPath, tree⟩ (graphKey graph) (some content) ∧
        ∃ made, content.apply Registry.builtin (.setGraphProperties (changes.request content)) =
            .ok made ∧
          changed = working project graph made ⟨project.graphsPath, tree⟩ := by
  simp only [setGraph, bind_eq_ok_iff, load_eq_ok_iff, orFail, mapError_eq_ok_iff]
  constructor
  · rintro ⟨_, ⟨content, finds, rfl⟩, found, isFound, isChanged⟩
    rw [graph_working] at isFound
    rw [← Except.ok.inj isFound] at isChanged
    exact ⟨content, finds, change_working_eq_ok_iff.mp isChanged⟩
  · rintro ⟨content, finds, isMade⟩
    exact ⟨_, ⟨content, finds, rfl⟩, content, graph_working content _,
      change_working_eq_ok_iff.mpr isMade⟩

/-- What becomes of a loaded graph when a node is to be set in it. -/
theorem setLoadedNode_eq_ok_iff
    (content : Graph) (part? : Option Json.Value) {name : String} {changes : NodeChanges} :
    (match content.node? name with
      | none => throw (Failure.plain ("Node '" ++ name ++ "' not found in graph '" ++ graph ++ "'"))
      | some node =>
          let request := Request.setNodeProperties (changes.request name node part?)
          orFailWith (request.op ++ " failed on graph '" ++ graph ++ "'")
            ((working project graph content ⟨project.graphsPath, tree⟩).change graph request)) =
      .ok changed ↔
    ∃ node, content.node? name = some node ∧
      ∃ made, content.apply Registry.builtin
          (.setNodeProperties (changes.request name node part?)) = .ok made ∧
        changed = working project graph made ⟨project.graphsPath, tree⟩ := by
  cases content.node? name with
  | none => simp [throw, throwThe, MonadExceptOf.throw]
  | some node =>
      simp only [orFailWith, mapError_eq_ok_iff, change_working_eq_ok_iff, Option.some.injEq,
        exists_eq_left']

theorem setNode_eq_ok_iff
    {name : String} {changes : NodeChanges} :
    (ofProject tree project).setNode graph name changes = .ok changed ↔
      ∃ content, FileStorage.Finds ⟨project.graphsPath, tree⟩ (graphKey graph) (some content) ∧
        ∃ part?, changes.part?.mapM readPart = .ok part? ∧
          ∃ node, content.node? name = some node ∧
            ∃ made, content.apply Registry.builtin
                (.setNodeProperties (changes.request name node part?)) = .ok made ∧
              changed = working project graph made ⟨project.graphsPath, tree⟩ := by
  simp only [setNode, bind_eq_ok_iff, load_eq_ok_iff]
  constructor
  · rintro ⟨_, ⟨content, finds, rfl⟩, part?, isPart, found, isFound, isChanged⟩
    rw [graph_working] at isFound
    rw [← Except.ok.inj isFound] at isChanged
    exact ⟨content, finds, part?, isPart, (setLoadedNode_eq_ok_iff content part?).mp isChanged⟩
  · rintro ⟨content, finds, part?, isPart, isMade⟩
    exact ⟨_, ⟨content, finds, rfl⟩, part?, isPart, content, graph_working content _,
      (setLoadedNode_eq_ok_iff content part?).mpr isMade⟩

/-- A save that fails changes no file. -/
theorem makes_of_save
    {content : Graph} {files : FileStorage} {failure : Failure} {next : FileTree}
    (failed : (working project graph content files).save graph = (.error failure, next)) :
    MakesDirectories files.tree next := by
  have loaded : (working project graph content files).store.graph (graphKey graph) =
      .ok content := Store.graph_working content files
  have sameFiles : (working project graph content files).store.storage = files := rfl
  rcases isWritten : Storage.write files (graphKey graph) content.text.toUTF8 with ⟨result, after⟩
  simp only [save, Store.save, loaded, sameFiles, isWritten] at failed
  cases result with
  | done => cases (Prod.mk.inj failed).1
  | failed error =>
      rw [← (Prod.mk.inj failed).2]
      exact FileStorage.makes_of_write isWritten (by simp)
  | unfinished =>
      rw [← (Prod.mk.inj failed).2]
      exact FileStorage.makes_of_write isWritten (by simp)

end Workspace

/-! ## Editing commands -/

namespace CommandLine

/-- The graph that a command edits, as the user names it. -/
def Command.edited? : Command → Option String
  | .newGraph graph _ _ => some graph
  | .setGraph graph _ => some graph
  | .addNode graph _ _ _ => some graph
  | .removeNode graph _ => some graph
  | .setNode graph _ _ => some graph
  | .moveNode graph _ _ _ => some graph
  | .addChannel graph _ _ _ _ _ => some graph
  | .removeChannel graph _ => some graph
  | .connectPin graph _ _ => some graph
  | .disconnectPin graph _ => some graph
  | .init .. | .showGraph .. | .checkGraphs .. | .applyScript .. | .generate .. | .build ..
  | .run .. | .parts => none

/-- The request that a command makes of a graph as it is, unless what it says is no request. -/
def Command.request? (content : Graph) : Command → Option Request
  | .setGraph _ changes => some (.setGraphProperties (changes.request content))
  | .addNode _ name partType options => (options.request name partType).toOption
  | .removeNode _ name => some (.deleteNode name)
  | .setNode _ name changes => do
      let node ← content.node? name
      let part? ← (changes.part?.mapM readPart).toOption
      return .setNodeProperties (changes.request name node part?)
  | .moveNode _ node x y => some (.setPosition { node, x, y })
  | .addChannel _ name first second type capacity =>
      (channelRequest name first second type capacity).toOption
  | .removeChannel _ name => some (.deleteChannel name)
  | .connectPin _ pin channel =>
      (readEndpoint pin).toOption.map fun endpoint => .connectPin { endpoint, channel }
  | .disconnectPin _ pin => (readEndpoint pin).toOption.map .disconnectPin
  | _ => none

/-- The graph that a command puts where there is none. -/
def Command.fresh? : Command → Option Graph
  | .newGraph graph packagePath? isCommand =>
      let name := graphStem (graphKey graph)
      some (Graph.empty name (packagePath?.getD ("example.com/" ++ name)) isCommand)
  | _ => none

/-- What a command makes of the graph that it edits, or of nothing where a graph is to be. -/
def Command.edit? (command : Command) : Option Graph → Option Graph
  | none => command.fresh?
  | some content =>
      (command.request? content).bind fun request =>
        (content.apply Registry.builtin request).toOption

/-- A command makes a graph of what files hold under the name of the one that it edits. -/
def Command.Makes (command : Command) (files : FileStorage) (graph : String) (made : Graph) :
    Prop :=
  ∃ found, files.Finds (graphKey graph) found ∧ command.edit? found = some made

theorem toOption_eq_some_iff
    {ε α : Type} {result : Except ε α} {value : α} :
    result.toOption = some value ↔ result = .ok value := by
  cases result with
  | error error => exact iff_of_false nofun nofun
  | ok found => simp [Except.toOption]

section Outcomes

variable {tree : FileTree} {config graph : String} {command : Command}

theorem Command.makes_iff_of_request
    {files : FileStorage} {made : Graph} (fromGraph : command.fresh? = none) :
    command.Makes files graph made ↔
      ∃ content, files.Finds (graphKey graph) (some content) ∧
        ∃ request, command.request? content = some request ∧
          content.apply Registry.builtin request = .ok made := by
  have edit_iff (content : Graph) : command.edit? (some content) = some made ↔
      ∃ request, command.request? content = some request ∧
        content.apply Registry.builtin request = .ok made := by
    simp only [edit?, Option.bind_eq_some_iff, toOption_eq_some_iff]
  constructor
  · rintro ⟨found, finds, isMade⟩
    cases found with
    | none =>
        rw [edit?, fromGraph] at isMade
        exact nomatch isMade
    | some content => exact ⟨content, finds, (edit_iff content).mp isMade⟩
  · rintro ⟨content, finds, isMade⟩
    exact ⟨some content, finds, (edit_iff content).mpr isMade⟩

/-- How a command that edits a graph ends: it has made a graph, which is saved, or it has not, and
then the tree is as it was. -/
inductive Command.Ends (command : Command) (tree : FileTree) (config graph : String) :
    Except Failure Unit × FileTree → Prop
  | saved {project : Project} {made : Graph}
      (isProject : Project.loadOrDefault tree config = .ok project)
      (makes : command.Makes ⟨project.graphsPath, tree⟩ graph made) :
      command.Ends tree config graph
        ((Workspace.working project graph made ⟨project.graphsPath, tree⟩).save graph)
  | refused (failure : Failure)
      (noGraph : ∀ {project made}, Project.loadOrDefault tree config = .ok project →
        ¬ command.Makes ⟨project.graphsPath, tree⟩ graph made) :
      command.Ends tree config graph (.error failure, tree)

theorem Command.ends_changeGraph
    {change : Workspace → Except Failure Workspace}
    (isChange : ∀ {project changed}, change (Workspace.ofProject tree project) = .ok changed ↔
      ∃ made, command.Makes ⟨project.graphsPath, tree⟩ graph made ∧
        changed = Workspace.working project graph made ⟨project.graphsPath, tree⟩) :
    command.Ends tree config graph (changeGraph tree config graph change) := by
  unfold changeGraph
  cases isProject : Project.loadOrDefault tree config with
  | error error =>
      have notOpen : Workspace.ofPath tree config =
          .error ((Failure.ofError error).within "Failed to load configuration") := by
        rw [Workspace.ofPath, isProject]
        rfl
      rw [notOpen]
      simp only [bind, Except.bind]
      refine .refused _ fun found => ?_
      rw [isProject] at found
      cases found
  | ok project =>
      rw [Workspace.ofPath_of_project isProject]
      simp only [bind, Except.bind]
      cases outcome : change (Workspace.ofProject tree project) with
      | error failure =>
          simp only
          refine .refused failure fun {other made} found makes => ?_
          rw [isProject] at found
          rw [← Except.ok.inj found] at makes
          have granted := isChange.mpr ⟨made, makes, rfl⟩
          rw [outcome] at granted
          cases granted
      | ok changed =>
          obtain ⟨made, makes, rfl⟩ := isChange.mp outcome
          simp only
          exact .saved isProject makes

theorem Command.ends_of_request
    {change : Workspace → Except Failure Workspace} (fromGraph : command.fresh? = none)
    (isChange : ∀ {project changed}, change (Workspace.ofProject tree project) = .ok changed ↔
      ∃ content, FileStorage.Finds ⟨project.graphsPath, tree⟩ (graphKey graph) (some content) ∧
        ∃ request, command.request? content = some request ∧
          ∃ made, content.apply Registry.builtin request = .ok made ∧
            changed = Workspace.working project graph made ⟨project.graphsPath, tree⟩) :
    command.Ends tree config graph (changeGraph tree config graph change) := by
  refine ends_changeGraph fun {project changed} => isChange.trans ?_
  simp only [makes_iff_of_request fromGraph]
  constructor
  · rintro ⟨content, finds, request, isRequest, made, isMade, rfl⟩
    exact ⟨made, ⟨content, finds, request, isRequest, isMade⟩, rfl⟩
  · rintro ⟨made, ⟨content, finds, request, isRequest, isMade⟩, rfl⟩
    exact ⟨content, finds, request, isRequest, made, isMade, rfl⟩

theorem Command.ends_changeByRequest
    {request : Except Failure Request} (fromGraph : command.fresh? = none)
    (isRequest : ∀ content, command.request? content = request.toOption) :
    command.Ends tree config graph (changeByRequest tree config graph request) := by
  cases request with
  | error failure =>
      refine .refused failure fun _ makes => ?_
      obtain ⟨content, _, found, isFound, _⟩ := (makes_iff_of_request fromGraph).mp makes
      rw [isRequest] at isFound
      exact nomatch isFound
  | ok request =>
      refine ends_of_request fromGraph fun {project changed} => ?_
      simp only [Workspace.edit_eq_ok_iff, isRequest, toOption_eq_some_iff, Except.ok.injEq,
        exists_eq_left']

theorem isPath_of_holds
    {files : FileStorage} {key : String} {held : Bool}
    (isHeld : Storage.holds files key = .ok held) :
    ∃ path, files.path key = .ok path := by
  simp only [Storage.holds, FileStorage.look, bind_eq_ok_iff] at isHeld
  obtain ⟨path, isPath, _⟩ := isHeld
  exact ⟨path, isPath⟩

theorem Command.ends_newGraph
    (packagePath? : Option String) (isCommand : Bool) :
    (newGraph graph packagePath? isCommand).Ends tree config graph
      (changeGraph tree config graph fun workspace =>
        workspace.newGraph graph packagePath? isCommand) := by
  refine ends_changeGraph fun {project changed} => Workspace.newGraph_eq_ok_iff.trans ?_
  constructor
  · rintro ⟨_, free, rfl⟩
    exact ⟨_, ⟨none, .nothing free, rfl⟩, rfl⟩
  · rintro ⟨made, ⟨found, finds, isMade⟩, rfl⟩
    cases finds with
    | nothing free =>
        rw [← Option.some.inj isMade]
        exact ⟨isPath_of_holds free, free, rfl⟩
    | graph _ _ => exact nomatch isMade

theorem Command.ends_setGraph
    (changes : GraphChanges) :
    (setGraph graph changes).Ends tree config graph
      (changeGraph tree config graph fun workspace => workspace.setGraph graph changes) := by
  refine ends_of_request rfl fun {project changed} => ?_
  simp only [Workspace.setGraph_eq_ok_iff, request?, Option.some.injEq, exists_eq_left']

theorem Command.ends_addNode
    (name partType : String) (options : NodeOptions) :
    (addNode graph name partType options).Ends tree config graph
      (changeGraph tree config graph fun workspace =>
        workspace.addNode graph name partType options) := by
  refine ends_of_request rfl fun {project changed} => ?_
  simp only [Workspace.addNode, bind_eq_ok_iff, Workspace.edit_eq_ok_iff, request?,
    toOption_eq_some_iff]
  constructor
  · rintro ⟨request, isRequest, content, finds, made⟩
    exact ⟨content, finds, request, isRequest, made⟩
  · rintro ⟨content, finds, request, isRequest, made⟩
    exact ⟨request, isRequest, content, finds, made⟩

theorem Command.ends_setNode
    (name : String) (changes : NodeChanges) :
    (setNode graph name changes).Ends tree config graph
      (changeGraph tree config graph fun workspace =>
        workspace.setNode graph name changes) := by
  refine ends_of_request rfl fun {project changed} => ?_
  simp only [Workspace.setNode_eq_ok_iff, request?, bind, Option.bind_eq_some_iff,
    toOption_eq_some_iff, pure, Option.some.injEq]
  refine exists_congr fun content => and_congr_right fun _ => ?_
  constructor
  · rintro ⟨part?, isPart, node, isNode, made⟩
    exact ⟨_, ⟨node, isNode, part?, isPart, rfl⟩, made⟩
  · rintro ⟨_, ⟨node, isNode, part?, isPart, rfl⟩, made⟩
    exact ⟨part?, isPart, node, isNode, made⟩

theorem toOption_map
    {ε α β : Type} (result : Except ε α) (change : α → β) :
    (result.map change).toOption = result.toOption.map change := by
  cases result <;> rfl

/-- A command that edits a graph makes one and saves it, or leaves the tree as it is. -/
theorem Command.ends_perform
    (edits : command.edited? = some graph) (surroundings : Surroundings) (tree : FileTree)
    (config : String) :
    ∃ change, command.perform surroundings tree config = .ofChange change ∧
      command.Ends tree config graph change := by
  cases command with
  | newGraph name packagePath? isCommand =>
      obtain rfl := Option.some.inj edits
      exact ⟨_, rfl, ends_newGraph packagePath? isCommand⟩
  | setGraph name changes =>
      obtain rfl := Option.some.inj edits
      exact ⟨_, rfl, ends_setGraph changes⟩
  | addNode name node partType options =>
      obtain rfl := Option.some.inj edits
      exact ⟨_, rfl, ends_addNode node partType options⟩
  | setNode name node changes =>
      obtain rfl := Option.some.inj edits
      exact ⟨_, rfl, ends_setNode node changes⟩
  | removeNode name node =>
      obtain rfl := Option.some.inj edits
      exact ⟨_, rfl, ends_changeByRequest rfl fun _ => rfl⟩
  | moveNode name node x y =>
      obtain rfl := Option.some.inj edits
      exact ⟨_, rfl, ends_changeByRequest rfl fun _ => rfl⟩
  | addChannel name channel first second type capacity =>
      obtain rfl := Option.some.inj edits
      exact ⟨_, rfl, ends_changeByRequest rfl fun _ => rfl⟩
  | removeChannel name channel =>
      obtain rfl := Option.some.inj edits
      exact ⟨_, rfl, ends_changeByRequest rfl fun _ => rfl⟩
  | connectPin name pin channel =>
      obtain rfl := Option.some.inj edits
      exact ⟨_, rfl, ends_changeByRequest rfl fun _ => (toOption_map _ _).symm⟩
  | disconnectPin name pin =>
      obtain rfl := Option.some.inj edits
      exact ⟨_, rfl, ends_changeByRequest rfl fun _ => (toOption_map _ _).symm⟩
  | init _ _ => exact nomatch edits
  | showGraph _ _ => exact nomatch edits
  | checkGraphs _ => exact nomatch edits
  | applyScript _ _ => exact nomatch edits
  | generate _ _ => exact nomatch edits
  | build _ _ => exact nomatch edits
  | run _ _ => exact nomatch edits
  | parts => exact nomatch edits

end Outcomes

/-! ## Programs that edit -/

theorem Command.Ends.fails
    {tree : FileTree} {config graph : String} {command : Command}
    {change : Except Failure Unit × FileTree} (ends : command.Ends tree config graph change)
    (failed : change.1 ≠ .ok ()) :
    MakesDirectories tree change.2 ∧ (change.2 = tree ∨
      ∃ project made, Project.loadOrDefault tree config = .ok project ∧
        command.Makes ⟨project.graphsPath, tree⟩ graph made) := by
  cases ends with
  | refused failure _ => exact ⟨.refl tree, .inl rfl⟩
  | @saved project made isProject makes =>
      rcases outcome : (Workspace.working project graph made ⟨project.graphsPath, tree⟩).save graph
        with ⟨result, next⟩
      rw [outcome] at failed
      cases result with
      | ok _ => exact absurd rfl failed
      | error failure =>
          exact ⟨Workspace.makes_of_save outcome, .inr ⟨project, made, isProject, makes⟩⟩

theorem Command.Ends.succeeds
    {tree : FileTree} {config graph : String} {command : Command}
    {change : Except Failure Unit × FileTree} (ends : command.Ends tree config graph change)
    (succeeded : change.1 = .ok ()) :
    ∃ project made, Project.loadOrDefault tree config = .ok project ∧
      command.Makes ⟨project.graphsPath, tree⟩ graph made ∧
      ∃ place, FileStorage.IsPlaceOf change.2 project.graphsPath (graphKey graph) place ∧
        WritesFile tree change.2 place made.text.toUTF8 := by
  cases ends with
  | refused failure _ => exact nomatch succeeded
  | @saved project made isProject makes =>
      rcases outcome : (Workspace.working project graph made ⟨project.graphsPath, tree⟩).save graph
        with ⟨result, next⟩
      rw [outcome] at succeeded
      rw [show result = .ok () from succeeded] at outcome
      obtain ⟨storage, isWritten, rfl⟩ := Workspace.save_eq_ok_iff.mp outcome
      obtain ⟨place, isPlace, writes⟩ := FileStorage.writes_of_write isWritten
      exact ⟨project, made, isProject, makes, place, isPlace, writes⟩

/-- Words that are not understood change nothing. A command that edits a graph and fails changes
no file: it leaves the tree as it was, unless the graph was made and only its save has failed, and
then at most directories are new. A command that ends well has written one file, the one of its
graph below the directory of the graphs, with the text of what it makes of the graph in it. -/
theorem edit_touches_one_file
    (surroundings : Surroundings) (tree : FileTree) (words : List String) :
    let run := CommandLine.run surroundings tree words
    (grammar.read words = .misuse → run.status.code ≠ 0 ∧ run.tree = tree) ∧
    ∀ {options : List (String × String)} {command : Command} {graph : String},
      grammar.read words = .understood options command → command.edited? = some graph →
      let config := configOf options surroundings.config?
      (run.status.code ≠ 0 →
        MakesDirectories tree run.tree ∧ (run.tree = tree ∨
          ∃ project made, Project.loadOrDefault tree config = .ok project ∧
            command.Makes ⟨project.graphsPath, tree⟩ graph made)) ∧
      (run.status.code = 0 →
        ∃ project made, Project.loadOrDefault tree config = .ok project ∧
          command.Makes ⟨project.graphsPath, tree⟩ graph made ∧
          ∃ place, FileStorage.IsPlaceOf run.tree project.graphsPath (graphKey graph) place ∧
            WritesFile tree run.tree place made.text.toUTF8) := by
  intro run
  constructor
  · intro misunderstood
    have isRun : run = ⟨.misuse, tree, "", misuseText⟩ := by
      simp only [run, CommandLine.run, misunderstood]
    have notWell : Status.misuse.code ≠ 0 := by decide
    rw [isRun]
    exact ⟨notWell, rfl⟩
  · intro options command graph understood edits config
    obtain ⟨change, performed, ends⟩ := Command.ends_perform edits surroundings tree config
    have isRun : run = (Effect.ofChange change).run := by
      simp only [run, CommandLine.run, understood]
      exact congrArg Effect.run performed
    rw [isRun, Workspace.tree_run_ofChange]
    simp only [ne_eq, Workspace.code_run_ofChange]
    exact ⟨ends.fails, ends.succeeds⟩

theorem edit_touches_one_file_newGraph :
    let surroundings : Surroundings := ⟨fun _ _ => .error .notFound, .ok "", none⟩
    let run := CommandLine.run surroundings Workspace.noFiles ["graph", "new", "g"]
    grammar.read ["graph", "new", "g"] = .understood [] (.newGraph "g" none false) ∧
      run.status.code = 0 ∧
      ∃ place, FileStorage.IsPlaceOf run.tree "./graphs" "g.json" place ∧
        WritesFile Workspace.noFiles run.tree place
          (Graph.empty "g" "example.com/g" false).text.toUTF8 := by
  intro surroundings run
  have understood : grammar.read ["graph", "new", "g"] =
      .understood [] (.newGraph "g" none false) := rfl
  have endsWell : run.status.code = 0 := by decide +kernel
  have isDefault : Project.loadOrDefault Workspace.noFiles "chanweave.yaml" =
      .ok (Project.ofDirectory ".") := by decide +kernel
  have touches := (edit_touches_one_file surroundings Workspace.noFiles ["graph", "new", "g"]).2
    understood rfl
  obtain ⟨project, made, isProject, ⟨found, finds, isMade⟩, place, isPlace, writes⟩ :=
    touches.2 endsWell
  rw [show configOf [] surroundings.config? = "chanweave.yaml" from rfl, isDefault] at isProject
  rw [← Except.ok.inj isProject] at isPlace
  refine ⟨understood, endsWell, place, isPlace, ?_⟩
  cases finds with
  | nothing _ =>
      rw [← Option.some.inj isMade] at writes
      exact writes
  | graph _ _ => cases isMade

end CommandLine

end Pipework
