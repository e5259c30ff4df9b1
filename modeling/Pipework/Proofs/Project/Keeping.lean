import Pipework.CommandLine
import Pipework.Proofs.Project.Start
import Pipework.Proofs.Workspace.Batch

/-!
# Files in which a project is started

A directory in which a project is started may hold files already. Where settings are among them the
start is refused, but the other first files are written over what is there: a file keeps its
contents exactly when it is neither the one under the path of the first graph nor, where the start
ends well, the one under the path of what version control leaves out
(`CommandLine.entryAt?_init_iff`).
-/

namespace Pipework

namespace Project

variable {tree ready final : FileTree} {path name : String} {name? : Option String}
  {graph : Graph} {place home : Place} {contents : ByteArray}

/-- A project can be started in a directory: it is there or can be made, the name of the project
is known, and there are no settings yet. -/
def Starts (tree : FileTree) (path : String) (name? : Option String) : Prop :=
  ∃ ready name, ensureDirectory path tree = (.ok (), ready) ∧
    startName ready path name? = .ok name

/-! ## The first files in a directory that is there -/

/-- How far the first files of a project were written in a directory where something is. -/
structure Begins (ready : FileTree) (path name : String) (graph : Graph) (home : Place)
    (front back : List (String × String)) (final : FileTree) : Prop where
  leads : ready.locate path = .ok home
  present : (ready.entryAt? home).isSome = true
  noSettings : ready.hasEntry (Path.join path settingsFile) = false
  files : startFiles path name graph = front ++ back
  writes : FileTree.WritesInTurn (ready.makeDirectories (Path.join path "graphs")).2 front final
  stops : (ready.makeDirectories (Path.join path "graphs")).1 = .ok () →
    ∀ file ∈ back.head?, ∀ next, final.writeFile file.1 file.2.toUTF8 ≠ .ok next

theorem exists_begins
    {outcome : Except OsError Unit} (isName : startName ready path name? = .ok name)
    (done : writeStart path name graph ready = (outcome, final)) :
    ∃ home front back, Begins ready path name graph home front back final ∧
      (outcome = .ok () ↔ back = []) := by
  obtain ⟨home, isHome, _, noSettings⟩ := startName_eq_ok_iff.mp isName
  obtain ⟨leads, present⟩ := FileTree.canonical_eq_ok_iff.mp isHome
  rw [writeStart, FileTree.inTurn, FileTree.makingDirectories] at done
  cases made : ready.makeDirectories (Path.join path "graphs") with
  | mk result partly =>
      rw [made] at done
      cases result with
      | error error =>
          obtain ⟨rfl, rfl⟩ := Prod.mk.inj done
          refine ⟨home, [], startFiles path name graph, ⟨leads, present, noSettings, rfl, ?_, ?_⟩, ?_⟩
          · rw [made]
            exact .nil _
          · rw [made]
            intro isMade
            cases isMade
          · refine iff_of_false (fun isDone => ?_) (List.cons_ne_nil _ _)
            cases isDone
      | ok _ =>
          have onwards : FileTree.inTurn ((startFiles path name graph).map fun file =>
              FileTree.writing file.1 file.2) partly = (outcome, final) := done
          obtain ⟨front, back, files, writes, ends, stops⟩ :=
            FileTree.exists_written_of_inTurn onwards
          refine ⟨home, front, back, ⟨leads, present, noSettings, files, ?_, fun _ => stops⟩, ends⟩
          rw [made]
          exact writes

theorem withoutEndSlashes_graphs
    (path : String) :
    FileTree.withoutEndSlashes (Path.join path "graphs") = Path.join path "graphs" := by
  obtain ⟨front, joined⟩ := Path.exists_join path
  rw [joined (by decide)]
  exact Path.withoutEndSlashes_of_end front.toList String.toList_append (by decide) (by decide)

/-- The paths of the first graph and of what version control leaves out lead to different
places. -/
theorem locate_graph_ne
    (leads : tree.locate (Path.join path "graphs/hello.json") = .ok place) :
    tree.locate (Path.join path ".gitignore") ≠ .ok place := by
  intro leadsToo
  have isGraph : place.getLast? = some "hello.json" :=
    FileTree.getLast?_of_locate_join (by decide) (by decide) (by decide) leads
  have isIgnored : place.getLast? = some ".gitignore" :=
    FileTree.getLast?_of_locate_join (by decide) (by decide) (by decide) leadsToo
  rw [isGraph] at isIgnored
  exact absurd (Option.some.inj isIgnored) (by decide)

namespace Begins

variable {front back : List (String × String)}
  (begins : Begins ready path name graph home front back final)

include begins

theorem keepsDirectories :
    FileTree.KeepsDirectories ready final :=
  (FileTree.makeDirectories_makes ready (Path.join path "graphs")).keepsDirectories.trans
    begins.writes.keepsDirectories

/-- Where a path leads on behind that of the project in the end, the project has been in a
directory before. -/
theorem directory
    {other : String} (relative : Path.isAbsolute other = false) (filled : other ≠ "")
    (someStep : FileTree.stepsOf other ≠ [])
    (leads : final.locate (Path.join path other) = .ok place) :
    ready.entryAt? home = some .directory := by
  have inEnd := FileTree.directory_of_locate_join relative filled
    (begins.keepsDirectories.locate begins.leads) someStep leads
  obtain ⟨entry, isEntry⟩ := Option.isSome_iff_exists.mp begins.present
  cases entry with
  | directory => exact isEntry
  | file contents =>
      have makes := FileTree.makeDirectories_makes ready (Path.join path "graphs")
      obtain ⟨others, isFile⟩ :=
        begins.writes.isFile ⟨contents, (makes.file_iff home contents).mpr isEntry⟩
      rw [inEnd] at isFile
      cases isFile

/-- One step behind the path of the project leads where it led before. -/
theorem locate_of_step
    {other step : String} (relative : Path.isAbsolute other = false) (filled : other ≠ "")
    (isStep : FileTree.stepsOf other = [step])
    (leads : final.locate (Path.join path other) = .ok place) :
    ready.locate (Path.join path other) = .ok place := by
  have someStep : FileTree.stepsOf other ≠ [] := isStep ▸ List.cons_ne_nil step []
  have isDirectory := begins.directory relative filled someStep leads
  have toHome := begins.keepsDirectories.locate begins.leads
  obtain ⟨isPath, walks⟩ := (FileTree.locate_join_eq_ok_iff relative filled toHome).mp leads
  rw [isStep, FileTree.walk_cons_eq_ok_iff] at walks
  refine (FileTree.locate_join_eq_ok_iff relative filled begins.leads).mpr ⟨isPath, ?_⟩
  rw [isStep]
  exact FileTree.walk_cons_eq_ok_iff.mpr ⟨isDirectory, walks.2⟩

/-- The settings are not written over a file. -/
theorem settings_elsewhere
    (held : ready.entryAt? place = some (.file contents)) :
    final.locate (Path.join path settingsFile) ≠ .ok place := by
  intro leads
  have isStep : FileTree.stepsOf settingsFile = [settingsFile] := by decide
  have leadsBefore := begins.locate_of_step (by decide) (by decide) isStep leads
  have noSettings := begins.noSettings
  rw [FileTree.hasEntry_eq_isSome leadsBefore, held] at noSettings
  cases noSettings

/-- Where the path of the first graph leads in the end, it leads through the directory of the
graphs. -/
theorem graphs_directory
    (leads : final.locate (Path.join path "graphs/hello.json") = .ok place) :
    final.entryAt? (home ++ ["graphs"]) = some .directory := by
  have toHome := begins.keepsDirectories.locate begins.leads
  have isSteps : FileTree.stepsOf "graphs/hello.json" = ["graphs", "hello.json"] := by decide
  have walks := ((FileTree.locate_join_eq_ok_iff (by decide) (by decide) toHome).mp leads).2
  rw [isSteps, FileTree.walk_cons_eq_ok_iff, FileTree.walk_cons_eq_ok_iff] at walks
  exact walks.2.2.1

/-- A name that is no longer than the path of the first graph leads to its place from the start,
if that path leads somewhere in the end. -/
theorem locate_name
    (leads : final.locate (Path.join path "graphs/hello.json") = .ok place) {other : String}
    (isName : Path.IsName other) (noNull : '\x00' ∉ other.toList)
    (noLonger : other.utf8ByteSize ≤ "graphs/hello.json".utf8ByteSize) :
    ready.locate (Path.join path other) = .ok (home ++ [other]) := by
  have isDirectory := begins.directory (by decide) (by decide) (by decide) leads
  have isPath := (FileTree.locate_eq_ok_iff.mp leads).1
  have longest : "graphs/hello.json".utf8ByteSize ≤ FileTree.longestName := by decide
  exact FileTree.locate_join_of_name isName (noLonger.trans longest)
    (FileTree.requirePath_join_of_shorter isName.isAbsolute isName.filled noNull noLonger
      (by decide) isPath) begins.leads isDirectory

/-- Where the path of the first graph leads in the end, the directory of the graphs could be made,
and no directory was made where the settings go. -/
theorem makes_graphs
    (leads : final.locate (Path.join path "graphs/hello.json") = .ok place) :
    (ready.makeDirectories (Path.join path "graphs")).1 = .ok () ∧
      ∃ settings, ready.locate (Path.join path settingsFile) = .ok settings ∧
        (ready.makeDirectories (Path.join path "graphs")).2.entryAt? settings = none := by
  have toGraphs : ready.locate (Path.join path "graphs") = .ok (home ++ ["graphs"]) :=
    begins.locate_name leads (by decide) (by decide) (by decide)
  have toSettings : ready.locate (Path.join path settingsFile) = .ok (home ++ [settingsFile]) :=
    begins.locate_name leads (by decide) (by decide) (by decide)
  have nothing : ready.entryAt? (home ++ [settingsFile]) = none := by
    have noSettings := begins.noSettings
    rw [FileTree.hasEntry_eq_isSome toSettings] at noSettings
    exact Option.isNone_iff_eq_none.mp (Option.isSome_eq_false_iff.mp noSettings)
  have made := FileTree.makeDirectories_of_locate (withoutEndSlashes_graphs path) toGraphs
  cases found : ready.entryAt? (home ++ ["graphs"]) with
  | none =>
      rw [found] at made
      rw [made]
      refine ⟨rfl, _, toSettings, ?_⟩
      rw [FileTree.entryAt?_put _ (by simp), if_neg (by simp [settingsFile]), nothing]
  | some entry =>
      rw [found] at made
      cases entry with
      | directory =>
          rw [made]
          exact ⟨rfl, _, toSettings, nothing⟩
      | file contents =>
          have writes := begins.writes
          rw [made] at writes
          obtain ⟨others, isFile⟩ := writes.isFile ⟨contents, found⟩
          rw [begins.graphs_directory leads] at isFile
          cases isFile

/-- Where a file is under the path of the first graph, the first graph is written. -/
theorem graph_written
    (held : ready.entryAt? place = some (.file contents))
    (leads : final.locate (Path.join path "graphs/hello.json") = .ok place) :
    (Path.join path "graphs/hello.json", graph.text) ∈ front := by
  obtain ⟨isMade, settings, toSettings, nothing⟩ := begins.makes_graphs leads
  have files := begins.files
  have writes := begins.writes
  have stops := begins.stops isMade
  -- Neither the settings nor the graph is the file at which the writes stop.
  rcases front with _ | ⟨first, _ | ⟨second, more⟩⟩
  · rw [List.nil_append] at files
    rw [← files] at stops
    refine absurd (FileTree.writeFile_eq_ok_iff.mpr ⟨settings,
      begins.keepsDirectories.locate toSettings, ?_, rfl⟩) (stops _ rfl _)
    cases writes
    rw [nothing]
    exact nofun
  · rw [List.singleton_append] at files
    rw [← (List.cons.inj files).2] at stops
    refine absurd (FileTree.writeFile_eq_ok_iff.mpr ⟨place, leads, ?_, rfl⟩) (stops _ rfl _)
    have makes := FileTree.makeDirectories_makes ready (Path.join path "graphs")
    obtain ⟨others, isFile⟩ := writes.isFile ⟨contents, (makes.file_iff place contents).mpr held⟩
    rw [isFile]
    exact nofun
  · obtain ⟨_, files⟩ := List.cons.inj files
    rw [(List.cons.inj files).1]
    exact List.mem_cons_of_mem first List.mem_cons_self

/-- What is written is one of the first files; the last of them only when all are written. -/
theorem write_cases
    {write : String × String} (isWrite : write ∈ front) :
    write = (Path.join path settingsFile, Settings.initialText name) ∨
      write = (Path.join path "graphs/hello.json", graph.text) ∨
        write = (Path.join path ".gitignore", ignoredFiles) ∧ back = [] := by
  by_cases atEnd : back = []
  · have member := List.mem_append_left back isWrite
    rw [← begins.files] at member
    simpa [startFiles, atEnd] using member
  · have notLast : write ∈ (startFiles path name graph).dropLast := by
      rw [begins.files, List.dropLast_append_of_ne_nil atEnd]
      exact List.mem_append_left back.dropLast isWrite
    have isFirst : write = (Path.join path settingsFile, Settings.initialText name) ∨
        write = (Path.join path "graphs/hello.json", graph.text) := by
      simpa [startFiles] using notLast
    exact isFirst.imp_right Or.inl

variable (held : ready.entryAt? place = some (.file contents))

include held

/-- A file under the path of the first graph holds this graph in the end. -/
theorem holds_graph
    (leads : final.locate (Path.join path "graphs/hello.json") = .ok place) :
    final.entryAt? place = some (.file graph.text.toUTF8) := by
  refine begins.writes.written (begins.graph_written held leads) leads ?_
  intro write isWrite leadsToo
  rcases begins.write_cases isWrite with rfl | rfl | ⟨rfl, _⟩
  · exact absurd leadsToo (begins.settings_elsewhere held)
  · rfl
  · exact absurd leadsToo (locate_graph_ne leads)

/-- When all first files are written, a file under the path of the last one holds what it does. -/
theorem holds_ignored
    (leads : final.locate (Path.join path ".gitignore") = .ok place) (atEnd : back = []) :
    final.entryAt? place = some (.file ignoredFiles.toUTF8) := by
  have isLast : (Path.join path ".gitignore", ignoredFiles) ∈ front := by
    have files := begins.files
    rw [atEnd, List.append_nil] at files
    rw [← files]
    simp [startFiles]
  refine begins.writes.written isLast leads ?_
  intro write isWrite leadsToo
  rcases begins.write_cases isWrite with rfl | rfl | ⟨rfl, _⟩
  · exact absurd leadsToo (begins.settings_elsewhere held)
  · exact absurd leads (locate_graph_ne leadsToo)
  · rfl

/-- Any other file keeps its contents. -/
theorem holds_same
    (notGraph : final.locate (Path.join path "graphs/hello.json") ≠ .ok place)
    (notIgnored : back = [] → final.locate (Path.join path ".gitignore") ≠ .ok place) :
    final.entryAt? place = some (.file contents) := by
  have makes := FileTree.makeDirectories_makes ready (Path.join path "graphs")
  refine begins.writes.present ((makes.file_iff place contents).mpr held) ?_
  intro write isWrite
  rcases begins.write_cases isWrite with rfl | rfl | ⟨rfl, atEnd⟩
  · exact begins.settings_elsewhere held
  · exact notGraph
  · exact notIgnored atEnd

end Begins

theorem file_eq_iff
    {found wanted : ByteArray} :
    some (FileEntry.file found) = some (.file wanted) ↔ wanted = found := by
  rw [Option.some.injEq, FileEntry.file.injEq, eq_comm]

/-- What a file holds when the first files of a project were written around it. -/
theorem entryAt?_writeStart_iff
    {outcome : Except OsError Unit} (isName : startName ready path name? = .ok name)
    (done : writeStart path name graph ready = (outcome, final))
    (held : ready.entryAt? place = some (.file contents)) :
    final.entryAt? place = some (.file contents) ↔
      (final.locate (Path.join path "graphs/hello.json") = .ok place →
        contents = graph.text.toUTF8) ∧
      (final.locate (Path.join path ".gitignore") = .ok place → outcome = .ok () →
        contents = ignoredFiles.toUTF8) := by
  obtain ⟨home, front, back, begins, ends⟩ := exists_begins isName done
  rw [ends]
  by_cases isGraph : final.locate (Path.join path "graphs/hello.json") = .ok place
  · have notIgnored := locate_graph_ne isGraph
    rw [begins.holds_graph held isGraph, file_eq_iff]
    exact ⟨fun same => ⟨fun _ => same, fun leads => absurd leads notIgnored⟩,
      fun both => both.1 isGraph⟩
  · by_cases isIgnored : final.locate (Path.join path ".gitignore") = .ok place ∧ back = []
    · rw [begins.holds_ignored held isIgnored.1 isIgnored.2, file_eq_iff]
      exact ⟨fun same => ⟨fun leads => absurd leads isGraph, fun _ _ => same⟩,
        fun both => both.2 isIgnored.1 isIgnored.2⟩
    · have isSame := begins.holds_same held isGraph fun atEnd leads => isIgnored ⟨leads, atEnd⟩
      exact iff_of_true isSame ⟨fun leads => absurd leads isGraph,
        fun leads atEnd => absurd ⟨leads, atEnd⟩ isIgnored⟩

/-! ## Starting a project -/

theorem ensureDirectory_makes
    (tree : FileTree) (path : String) :
    FileTree.MakesDirectories tree (ensureDirectory path tree).2 := by
  rw [ensureDirectory]
  split
  · exact .refl tree
  · exact FileTree.makeDirectories_makes tree path

/-- A start that is refused makes at most the directory of the project; any other one writes the
first files there. -/
theorem start_cases
    {result : Except Failure Unit} (done : start tree path name? = (result, final)) :
    (result ≠ .ok () ∧ FileTree.MakesDirectories tree final ∧
        (Starts tree path name? → ∀ graph, Graph.hello ≠ .ok graph)) ∨
      ∃ ready name graph outcome, FileTree.MakesDirectories tree ready ∧
        Starts tree path name? ∧ startName ready path name? = .ok name ∧
          Graph.hello = .ok graph ∧ writeStart path name graph ready = (outcome, final) ∧
            (result = .ok () ↔ outcome = .ok ()) := by
  have makes := ensureDirectory_makes tree path
  rw [start] at done
  cases isReady : ensureDirectory path tree with
  | mk outcome ready =>
      rw [isReady] at makes done
      cases outcome with
      | error error =>
          obtain ⟨rfl, rfl⟩ := Prod.mk.inj done
          refine Or.inl ⟨fun isDone => ?_, makes, ?_⟩
          · cases isDone
          · rintro ⟨_, _, isMade, _⟩
            rw [isReady] at isMade
            cases isMade
      | ok _ =>
          cases isName : startName ready path name? with
          | error failure =>
              simp only [isName] at done
              obtain ⟨rfl, rfl⟩ := Prod.mk.inj done
              refine Or.inl ⟨fun isDone => ?_, makes, ?_⟩
              · cases isDone
              · rintro ⟨_, _, isMade, isNameToo⟩
                rw [isReady] at isMade
                cases isMade
                rw [isName] at isNameToo
                cases isNameToo
          | ok name =>
              cases isGraph : Graph.hello with
              | error error =>
                  simp only [isName, isGraph] at done
                  obtain ⟨rfl, rfl⟩ := Prod.mk.inj done
                  refine Or.inl ⟨fun isDone => ?_, makes, fun _ graph isGraph => ?_⟩
                  · cases isDone
                  · cases isGraph
              | ok graph =>
                  simp only [isName, isGraph] at done
                  obtain ⟨rfl, rfl⟩ := Prod.mk.inj done
                  exact Or.inr ⟨ready, name, graph, _, makes, ⟨ready, name, isReady, isName⟩,
                    isName, rfl, rfl, mapError_eq_ok_iff⟩

/-- What a file holds when a project was started, or was not, in a tree. -/
theorem entryAt?_start_iff
    {result : Except Failure Unit} (done : start tree path name? = (result, final))
    (held : tree.entryAt? place = some (.file contents)) :
    final.entryAt? place = some (.file contents) ↔
      (final.locate (Path.join path "graphs/hello.json") = .ok place → Starts tree path name? →
        ∀ graph, Graph.hello = .ok graph → contents = graph.text.toUTF8) ∧
      (final.locate (Path.join path ".gitignore") = .ok place → result = .ok () →
        contents = ignoredFiles.toUTF8) := by
  rcases start_cases done with ⟨refused, makes, notStarts⟩ |
    ⟨ready, name, graph, outcome, makes, starts, isName, isGraph, written, ends⟩
  · exact iff_of_true ((makes.file_iff place contents).mpr held)
      ⟨fun _ starts graph isGraph => absurd isGraph (notStarts starts graph),
        fun _ isDone => absurd isDone refused⟩
  · rw [entryAt?_writeStart_iff isName written ((makes.file_iff place contents).mpr held), ends]
    refine and_congr_left fun _ => ⟨fun same leads _ other isOther => ?_, fun same leads => ?_⟩
    · obtain rfl := Except.ok.inj (isGraph.symm.trans isOther)
      exact same leads
    · exact same leads starts graph isGraph

end Project

namespace CommandLine

/-- Whether or not a project can be started, a file keeps its contents unless it is where the first
graph goes, past the check for settings, or where what version control leaves out goes, in a start
that ends well; these two are written over. -/
theorem entryAt?_init_iff
    (surroundings : Surroundings) (tree : FileTree) (config path : String)
    (name? : Option String) (place : Place) (contents : ByteArray)
    (held : tree.entryAt? place = some (.file contents)) :
    let run := ((Command.init path name?).perform surroundings tree config).run
    run.tree.entryAt? place = some (.file contents) ↔
      (run.tree.locate (Path.join path "graphs/hello.json") = .ok place →
        Project.Starts tree path name? →
          ∀ graph, Graph.hello = .ok graph → contents = graph.text.toUTF8) ∧
      (run.tree.locate (Path.join path ".gitignore") = .ok place → run.status.code = 0 →
        contents = Project.ignoredFiles.toUTF8) := by
  intro run
  have isTree : run.tree = (Project.start tree path name?).2 := Workspace.tree_run_ofChange _
  have endsWell_iff : run.status.code = 0 ↔ (Project.start tree path name?).1 = .ok () :=
    Workspace.code_run_ofChange _
  rw [isTree, endsWell_iff]
  exact Project.entryAt?_start_iff rfl held

/-- A directory without settings, with a graph and with something that version control leaves
out. -/
def withoutSettings : FileTree :=
  ⟨Table.ofList [([".gitignore"], .file "node_modules/\n".toUTF8), (["graphs"], .directory),
    (["graphs", "hello.json"], .file "mine".toUTF8)], []⟩

/-- Both files are written over. -/
theorem entryAt?_init_withoutSettings :
    let surroundings : Surroundings := ⟨fun _ _ => .error .notFound, .ok "", none⟩
    let run := ((Command.init "." (some "p")).perform surroundings withoutSettings
      "chanweave.yaml").run
    withoutSettings.entryAt? [".gitignore"] = some (.file "node_modules/\n".toUTF8) ∧
      withoutSettings.entryAt? ["graphs", "hello.json"] = some (.file "mine".toUTF8) ∧
        run.status.code = 0 ∧
          run.tree.entryAt? [".gitignore"] ≠ some (.file "node_modules/\n".toUTF8) ∧
            run.tree.entryAt? ["graphs", "hello.json"] ≠ some (.file "mine".toUTF8) := by
  intro surroundings run
  have ignored : withoutSettings.entryAt? [".gitignore"] =
      some (.file "node_modules/\n".toUTF8) := by decide +kernel
  have mine : withoutSettings.entryAt? ["graphs", "hello.json"] =
      some (.file "mine".toUTF8) := by decide +kernel
  have endsWell : run.status.code = 0 := by decide +kernel
  have iff_of_held {place : Place} {contents : ByteArray}
      (held : withoutSettings.entryAt? place = some (.file contents)) :=
    entryAt?_init_iff surroundings withoutSettings "chanweave.yaml" "." (some "p") place contents
      held
  refine ⟨ignored, mine, endsWell, fun isSame => ?_, fun isSame => ?_⟩
  · have leads : run.tree.locate (Path.join "." ".gitignore") = .ok [".gitignore"] := by
      decide +kernel
    exact absurd (((iff_of_held ignored).mp isSame).2 leads endsWell) (by decide +kernel)
  · have leads : run.tree.locate (Path.join "." "graphs/hello.json") =
        .ok ["graphs", "hello.json"] := by decide +kernel
    have starts : Project.Starts withoutSettings "." (some "p") :=
      ⟨withoutSettings, "p", by decide +kernel, by decide +kernel⟩
    obtain ⟨graph, isGraph⟩ := exists_eq_ok_of_isOk (show Graph.hello.isOk = true by decide +kernel)
    have same := ((iff_of_held mine).mp isSame).1 leads starts graph isGraph
    -- The text of a graph opens with a brace.
    have opens : graph.text.toList.head? = some '\x7b' := by
      rw [Graph.text, Json.Value.pretty, String.toList_append, String.toList_ofList]
      rfl
    rw [← String.toByteArray_inj.mp same] at opens
    exact absurd opens (by decide)

end CommandLine

end Pipework
