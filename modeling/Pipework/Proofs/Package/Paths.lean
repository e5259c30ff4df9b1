import Pipework.Proofs.Go.StringLiteral
import Pipework.Proofs.Package.Files
import Pipework.Proofs.Text.Lines

/-!
# Paths in the files of a package

The imports of the parts and the path of the module are put between quotes as they are, and the
path of the module into a line of the module file. That is right exactly for the paths in which no
character has a meaning of its own there. The check of imports refuses quotes and line feeds but
lets a backslash pass, and no path of a package is refused (`Graph.package_paths_iff`).
-/

namespace Pipework

/-! ## Imports of a source -/

namespace Go

/-- The lines between those that open and close the imports of a source. -/
def importBlock (source : String) : List String :=
  (((Text.linesOf source).dropWhile (· ≠ "import (")).drop 1).takeWhile (· ≠ ")")

/-- Whether a line starts with the word by which a source imports something. -/
def isImportLine (line : String) : Bool := "import".toList.isPrefixOf line.toList

/-- The first line of a source that imports something. -/
def importLine? (source : String) : Option String := (Text.linesOf source).find? isImportLine

/-- A line is an opening and one string literal, which spells a path. -/
def Spells (opening line path : String) : Prop :=
  ∃ literal, line.toList = opening.toList ++ literal ∧
    StringLiteral literal (Text.bytes path.toList)

theorem spells_iff
    {opening line path : String}
    (quoted : line.toList = opening.toList ++ ('"' :: path.toList ++ ['"'])) :
    Spells opening line path ↔ ∀ character ∈ path.toList, IsPlain character := by
  rw [Spells, quoted, ← stringLiteral_quoted_iff]
  constructor
  · intro spells
    obtain ⟨literal, same, isLiteral⟩ := spells
    exact List.append_cancel_left same ▸ isLiteral
  · intro isLiteral
    exact ⟨_, rfl, isLiteral⟩

end Go

/-! ## Checked imports -/

namespace Part.Code

variable {code : Code} {path : String}

theorem isImportPath_of_fault
    (sound : code.fault = none) (member : path ∈ code.imports) :
    isImportPath path = true := by
  rw [fault] at sound
  split at sound
  · exact nomatch sound
  · have noFault := List.findSome?_eq_none_iff.mp sound path member
    rw [importFault] at noFault
    split at noFault
    · exact nomatch noFault
    · rename_i accepted
      rwa [Bool.not_eq_true, Bool.not_eq_false'] at accepted

theorem ends_not_mem_of_isImportPath
    (accepted : isImportPath path = true) :
    '"' ∉ path.toList ∧ '\n' ∉ path.toList := by
  rw [isImportPath, Bool.and_eq_true, List.all_eq_true] at accepted
  constructor <;> intro member
  · exact absurd (accepted.2 '"' member) (by decide)
  · exact absurd (accepted.2 '\n' member) (by decide)

end Part.Code

/-! ## Lines of the files -/

namespace Source

open Text (IsLine)

theorem feed_not_mem_literalChar
    (character : Char) :
    '\n' ∉ Go.literalChar character := by
  have digits : ∀ value < 16, Json.hexDigit value ≠ '\n' := by decide
  rw [Go.literalChar]
  split_ifs with isQuote isBackslash isFeed isReturn isTab isControl
  · decide
  · decide
  · decide
  · decide
  · decide
  · have small : character.toNat < 0x80 := by
      rw [Bool.or_eq_true, decide_eq_true_iff, decide_eq_true_iff] at isControl
      omega
    have high := digits (character.toNat / 16) (by omega)
    have low := digits (character.toNat % 16) (by omega)
    simp [Ne.symm high, Ne.symm low]
  · rw [List.mem_singleton]
    exact Ne.symm isFeed

theorem mark_eq
    (name : String) :
    mark name =
      "// Code generated by chanweave from graph " ++ (Go.literal name ++ ". DO NOT EDIT.") := by
  rw [← String.append_assoc]
  rfl

/-- The line that says how a source came about is one line, whatever the graph is called. -/
theorem isLine_mark
    (name : String) :
    IsLine (mark name).toList := by
  have noFeed : '\n' ∉ (Go.literal name).toList := by
    rw [Go.literal, String.toList_ofList, List.cons_append, List.mem_cons, List.mem_append,
      List.mem_flatMap]
    rintro (isQuote | ⟨character, _, member⟩ | atEnd)
    · exact absurd isQuote (by decide)
    · exact feed_not_mem_literalChar character member
    · exact absurd atEnd (by decide)
  have ending : IsLine ". DO NOT EDIT.".toList := by decide
  rw [mark_eq, String.toList_append, String.toList_append, ← List.append_assoc]
  refine ending.behind (by decide) ?_
  rw [List.mem_append, not_or]
  exact ⟨by decide, noFeed⟩

theorem isLine_package
    (graph : Graph) :
    IsLine ("package " ++ graph.packageName).toList := by
  have absent {ending : Char} (inFront : ending ∉ "package ".toList)
      (strange : ¬ isNamePart ending = true) :
      ending ∉ ("package " ++ graph.packageName).toList := by
    rw [String.toList_append, List.mem_append, not_or]
    exact ⟨inFront, fun inName => strange (Graph.isNamePart_of_mem_packageName inName)⟩
  exact Text.isLine_of_not_mem (absent (by decide) (by decide)) (absent (by decide) (by decide))

theorem isLine_quoted
    {opening : String} (oneLine : '\n' ∉ opening.toList) {path : String}
    (pathOneLine : '\n' ∉ path.toList) :
    IsLine (opening ++ path ++ "\"").toList := by
  have ending : IsLine "\"".toList := by decide
  rw [String.toList_append, String.toList_append]
  refine ending.behind (by decide) ?_
  rw [List.mem_append, not_or]
  exact ⟨oneLine, pathOneLine⟩

theorem append_ne
    {front whole : String} (apart : ¬ front.toList <+: whole.toList) (back : String) :
    front ++ back ≠ whole := by
  rintro rfl
  rw [String.toList_append] at apart
  exact apart (List.prefix_append _ _)

section Imports

variable {graph : Graph}

theorem mem_imports_iff
    {path : String} :
    path ∈ (imports graph.wiring).toList ↔
      path = "sync" ∨ ∃ node ∈ graph.enabledNodes, path ∈ node.part.imports := by
  rw [KeySet.mem_toList_iff, imports, KeySet.contains_ofList, decide_eq_true_iff, List.mem_cons,
    List.mem_flatMap]
  simp only [Graph.wiring, List.mem_map, exists_exists_and_eq_and, Node.wired]

/-- No import that was checked ends its line or its quotes; nor do the imports of other parts. -/
theorem ends_not_mem_import
    (checked : ∀ node ∈ graph.enabledNodes, ∀ code, node.part = .code code → code.fault = none)
    {path : String} (isImport : path ∈ (imports graph.wiring).toList) :
    '"' ∉ path.toList ∧ '\n' ∉ path.toList := by
  have own : ∀ path ∈ ["sync", "log", "net/http"], '"' ∉ path.toList ∧ '\n' ∉ path.toList := by
    decide
  rcases mem_imports_iff.mp isImport with rfl | ⟨node, enabled, inPart⟩
  · exact own "sync" (by decide)
  · cases isPart : node.part with
    | code code =>
        rw [isPart] at inPart
        have sound := Part.Code.isImportPath_of_fault (checked node enabled code isPart) inPart
        exact Part.Code.ends_not_mem_of_isImportPath sound
    | httpServer _ =>
        rw [isPart] at inPart
        exact own path (List.mem_cons_of_mem _ inPart)
    | join _ =>
        rw [isPart] at inPart
        exact own path (List.mem_cons.mpr (Or.inl (List.mem_singleton.mp inPart)))
    | broadcast _ =>
        rw [isPart] at inPart
        exact absurd inPart List.not_mem_nil
    | filter _ =>
        rw [isPart] at inPart
        exact absurd inPart List.not_mem_nil
    | sink _ =>
        rw [isPart] at inPart
        exact absurd inPart List.not_mem_nil

/-- Each import of a main file has a line, and nothing else stands between the lines that open
and close the imports. -/
theorem importBlock_main
    (oneLine : ∀ path ∈ (imports graph.wiring).toList, '\n' ∉ path.toList) :
    Go.importBlock (main graph graph.packageName) =
      (imports graph.wiring).toList.map importLine := by
  let opening := [mark graph.name, "", "package " ++ graph.packageName, ""]
  let importLines := (imports graph.wiring).toList.map importLine
  obtain ⟨rest, parts⟩ : ∃ rest, main graph graph.packageName =
      Text.ofLines (opening ++ "import (" :: (importLines ++ ")" :: rest)) :=
    ⟨_, by
      simp only [main, opening, importLines, List.append_assoc, List.cons_append,
        List.nil_append]
      rfl⟩
  have openingAreLines : ∀ line ∈ opening, IsLine line.toList := by
    have emptyLine : IsLine "".toList := by decide
    simp only [opening, List.forall_mem_cons]
    exact ⟨isLine_mark graph.name, emptyLine, isLine_package graph, emptyLine, nofun⟩
  have importsAreLines : ∀ line ∈ importLines, IsLine line.toList := by
    rw [List.forall_mem_map]
    exact fun path member => isLine_quoted (by decide) (oneLine path member)
  have read : Text.linesOf (main graph graph.packageName) =
      opening ++ "import (" :: (importLines ++ ")" :: Text.linesOf (Text.ofLines rest)) := by
    rw [parts, Text.linesOf_ofLines_append openingAreLines, Text.linesOf_ofLines_cons (by decide),
      Text.linesOf_ofLines_append importsAreLines, Text.linesOf_ofLines_cons (by decide)]
  have opens : ∀ line ∈ opening, decide (line ≠ "import (") = true := by
    simp only [opening, List.forall_mem_cons, decide_eq_true_iff]
    exact ⟨mark_eq graph.name ▸ append_ne (by decide) _, by decide, append_ne (by decide) _,
      by decide, nofun⟩
  have goesOn : ∀ line ∈ importLines, decide (line ≠ ")") = true := by
    simp only [importLines, List.forall_mem_map, decide_eq_true_iff, importLine,
      String.append_assoc]
    exact fun path _ => append_ne (by decide) _
  rw [Go.importBlock, read, List.dropWhile_append_of_pos opens,
    List.dropWhile_cons_of_neg (by decide), List.drop_succ_cons, List.drop_zero,
    List.takeWhile_append_of_pos goesOn, List.takeWhile_cons_of_neg (by decide), List.append_nil]

theorem spells_importLine_iff
    {path : String} (allowed : '"' ∉ path.toList ∧ '\n' ∉ path.toList) :
    Go.Spells "\t" (importLine path) path ↔ '\\' ∉ path.toList := by
  have parts : (importLine path).toList = "\t".toList ++ ('"' :: path.toList ++ ['"']) := by
    rw [importLine, String.toList_append, String.toList_append]
    rfl
  rw [Go.spells_iff parts]
  constructor
  · intro allPlain member
    exact (allPlain _ member).2.1 rfl
  · intro noBackslash character member
    refine ⟨?_, ?_, ?_⟩ <;> rintro rfl
    · exact allowed.1 member
    · exact noBackslash member
    · exact allowed.2 member

end Imports

/-! ## The runner and the module file -/

/-- The first line of a runner that imports something holds the path up to its first line feed. -/
theorem importLine?_runner
    (name modulePath : String) :
    ∃ rest line, Go.importLine? (runner name modulePath) = some line ∧
      line.toList = "import pipeline \"".toList ++
        (Text.lines (modulePath.toList ++ '"' :: '\n' :: rest)).headD [] := by
  let opening := [mark name, "", "package main", ""]
  let others := ["", "func main() \x7b", "\tpipeline.Run()", "\x7d"]
  let rest := (Text.ofLines others).toList
  let seen := "import pipeline \"".toList ++
    (Text.lines (modulePath.toList ++ '"' :: '\n' :: rest)).headD []
  have parts : runner name modulePath =
      Text.ofLines (opening ++ ("import pipeline \"" ++ modulePath ++ "\"") :: others) := rfl
  have openingAreLines : ∀ line ∈ opening, IsLine line.toList := by
    have short : ∀ line ∈ ["", "package main", ""], IsLine line.toList := by decide
    exact List.forall_mem_cons.mpr ⟨isLine_mark name, short⟩
  have imported : Text.linesOf
      (Text.ofLines (("import pipeline \"" ++ modulePath ++ "\"") :: others)) =
        String.ofList seen ::
          (Text.lines (modulePath.toList ++ '"' :: '\n' :: rest)).tail.map String.ofList := by
    rw [Text.linesOf, Text.toList_ofLines_cons, String.toList_append, String.toList_append,
      List.append_assoc, List.append_assoc,
      Text.lines_append (by decide) (by decide) (by decide), List.map_cons]
    rfl
  have passed : opening.find? Go.isImportLine = none := by
    have short : ∀ line ∈ ["", "package main", ""], ¬ Go.isImportLine line = true := by decide
    have atMark : ¬ Go.isImportLine (mark name) = true := by
      rw [Go.isImportLine, List.isPrefixOf_iff_prefix, mark_eq, String.toList_append]
      intro isPrefix
      have atFront := List.prefix_of_prefix_length_le isPrefix (List.prefix_append _ _) (by decide)
      exact absurd atFront (by decide)
    exact List.find?_eq_none.mpr (List.forall_mem_cons.mpr ⟨atMark, short⟩)
  have isImport : Go.isImportLine (String.ofList seen) = true := by
    have opens : "import".toList <+: "import pipeline \"".toList := by decide
    have goesOn : "import pipeline \"".toList <+: seen := List.prefix_append _ _
    have same : (String.ofList seen).toList = seen := String.toList_ofList
    rw [Go.isImportLine, List.isPrefixOf_iff_prefix, same]
    exact opens.trans goesOn
  refine ⟨rest, String.ofList seen, ?_, String.toList_ofList⟩
  rw [Go.importLine?, parts, Text.linesOf_ofLines_append openingAreLines, imported,
    List.find?_append, passed, Option.none_or, List.find?_cons_of_pos isImport]

/-- The import of a runner is a string literal for the path exactly when every character of the
path stands for itself: any other path breaks the line or the quotes, or is spelled shorter. -/
theorem spells_runner_iff
    (name modulePath : String) :
    ∃ line, Go.importLine? (runner name modulePath) = some line ∧
      (Go.Spells "import pipeline " line modulePath ↔
        ∀ character ∈ modulePath.toList, Go.IsPlain character) := by
  obtain ⟨rest, line, found, seen⟩ := importLine?_runner name modulePath
  have opening : "import pipeline \"".toList = "import pipeline ".toList ++ ['"'] := by decide
  rw [opening, List.append_assoc, List.singleton_append] at seen
  refine ⟨line, found, ?_⟩
  by_cases feed : '\n' ∈ modulePath.toList
  · have notPlain : ¬ ∀ character ∈ modulePath.toList, Go.IsPlain character :=
      fun allPlain => (allPlain _ feed).2.2 rfl
    rw [iff_false_right notPlain]
    intro spells
    obtain ⟨literal, same, isLiteral⟩ := spells
    obtain ⟨front, back, split⟩ := List.append_of_mem feed
    -- The line ends where the path breaks it, so it is too short to spell the path.
    obtain rfl := List.append_cancel_left (seen.symm.trans same)
    rw [split, List.append_assoc, List.cons_append] at isLiteral
    obtain ⟨more, whole⟩ := Text.headD_lines_feed front (back ++ '"' :: '\n' :: rest)
    have long := isLiteral.length_lt
    have cut := Text.length_bytes_lt_append_cons front back '\n'
    have within := congrArg (fun text => (Text.bytes text).length) whole
    have quote : '"'.utf8Size = 1 := by decide
    simp only [Text.length_bytes_cons, Text.bytes_append, List.length_append, quote]
      at long cut within
    omega
  · have oneLine : IsLine (modulePath.toList ++ ['"']) := by
      have ending : IsLine ['"'] := by decide
      exact ending.behind (by decide) feed
    have whole := Text.lines_line oneLine rest
    rw [List.append_assoc, List.singleton_append] at whole
    refine Go.spells_iff ?_
    rw [seen, whole, List.headD_cons, List.cons_append]

/-- A module file has its three lines exactly when the path of the module does not end one. -/
theorem linesOf_goMod_iff
    {modulePath : String} (trimmed : modulePath.toList.getLast? ≠ some '\r') :
    Text.linesOf (goMod modulePath) = ["module " ++ modulePath, "", "go " ++ goVersion] ↔
      '\n' ∉ modulePath.toList := by
  constructor
  · intro read feed
    have first : "module " ++ modulePath ∈ Text.linesOf (goMod modulePath) :=
      read ▸ List.mem_cons_self
    obtain ⟨line, isLine, same⟩ := List.mem_map.mp first
    refine Text.not_mem_of_mem_lines isLine ?_
    rw [← String.toList_ofList (l := line), same, String.toList_append]
    exact List.mem_append_right _ feed
  · intro oneLine
    have short : ∀ line ∈ ["", "go " ++ goVersion], IsLine line.toList := by decide
    have moduleLine : IsLine ("module " ++ modulePath).toList := by
      rw [String.toList_append]
      by_cases empty : modulePath.toList = []
      · rw [empty]
        decide
      · exact IsLine.behind ⟨oneLine, trimmed⟩ empty (by decide)
    exact Text.linesOf_ofLines (List.forall_mem_cons.mpr ⟨moduleLine, short⟩)

end Source

/-! ## The paths of a package -/

namespace Graph

variable {graph : Graph}

/-- Each import has its line in the main file, and the line spells it exactly when it holds no
backslash. The path of the module is spelled by the import of a runner exactly when every
character of it stands for itself, and by the first line of the module file, with no line of its
own behind it, exactly when it holds no line feed. -/
theorem package_paths_iff
    (unproblematic : graph.problems = [])
    (checked : ∀ node ∈ graph.enabledNodes, ∀ code, node.part = .code code → code.fault = none) :
    ∃ package, graph.package = .ok package ∧ package.modulePath = graph.modulePath ∧
      (∃ imports : KeySet String,
        (∀ path, path ∈ imports.toList ↔
          path = "sync" ∨ ∃ node ∈ graph.enabledNodes, path ∈ node.part.imports) ∧
        Go.importBlock package.source = imports.toList.map Source.importLine ∧
        ∀ path ∈ imports.toList,
          (Go.Spells "\t" (Source.importLine path) path ↔ '\\' ∉ path.toList)) ∧
      (graph.isCommand = false →
        ∃ runner line, package.files.get? Package.runnerFile = some runner ∧
          Go.importLine? runner = some line ∧
          (Go.Spells "import pipeline " line package.modulePath ↔
            ∀ character ∈ package.modulePath.toList, Go.IsPlain character)) ∧
      ∃ goMod, package.files.get? "go.mod" = some goMod ∧
        (Text.linesOf goMod = ["module " ++ package.modulePath, "", "go 1.22"] ↔
          '\n' ∉ package.modulePath.toList) := by
  obtain ⟨package, made, yields⟩ := exists_yields unproblematic
  have allowed (path : String) (member : path ∈ (Source.imports graph.wiring).toList) :=
    Source.ends_not_mem_import checked member
  refine ⟨package, made, yields.modulePath, ⟨Source.imports graph.wiring, ?_, ?_, ?_⟩, ?_,
    Source.goMod graph.modulePath, ?_, ?_⟩
  · exact fun path => Source.mem_imports_iff
  · rw [yields.source]
    exact Source.importBlock_main fun path member => (allowed path member).2
  · exact fun path member => Source.spells_importLine_iff (allowed path member)
  · rw [yields.files, yields.modulePath]
    intro library
    obtain ⟨line, found, spells_iff⟩ := Source.spells_runner_iff graph.name graph.modulePath
    exact ⟨_, line, get?_runnerFile library, found, spells_iff⟩
  · rw [yields.files, get?_goMod]
  · rw [yields.modulePath]
    exact Source.linesOf_goMod_iff graph.getLast?_modulePath

/-- An import that ends in a backslash, in a library whose path has two lines. -/
def twoLines : Graph := lone "one\ntwo" false (.code ⟨["fmt", "net\\"], "", "", "", []⟩)

theorem package_paths_iff_twoLines :
    twoLines.problems = [] ∧
      (∀ node ∈ twoLines.enabledNodes, ∀ code, node.part = .code code → code.fault = none) ∧
      ∃ package, twoLines.package = .ok package ∧
        Go.Spells "\t" (Source.importLine "fmt") "fmt" ∧
        ¬ Go.Spells "\t" (Source.importLine "net\\") "net\\" ∧
        (∃ runner line, package.files.get? Package.runnerFile = some runner ∧
          Go.importLine? runner = some line ∧
          ¬ Go.Spells "import pipeline " line package.modulePath) ∧
        ∃ goMod, package.files.get? "go.mod" = some goMod ∧
          Text.linesOf goMod ≠ ["module " ++ package.modulePath, "", "go 1.22"] := by
  have unproblematic : twoLines.problems = [] := by decide +kernel
  have checked : ∀ node ∈ twoLines.enabledNodes, ∀ code, node.part = .code code →
      code.fault = none := by
    have only : twoLines.enabledNodes.map Node.part = [.code ⟨["fmt", "net\\"], "", "", "", []⟩] :=
      rfl
    intro node enabled code isPart
    have listed := List.mem_map_of_mem (f := Node.part) enabled
    rw [only, isPart, List.mem_singleton, Part.code.injEq] at listed
    rw [listed]
    decide
  obtain ⟨package, made, path, ⟨imports, isImport, _, spells⟩, runs, goMod, foundMod, lines⟩ :=
    package_paths_iff unproblematic checked
  have listed : ∀ path ∈ ["fmt", "net\\"], path ∈ imports.toList := by
    have inPart : ∀ path ∈ ["fmt", "net\\"],
        ∃ node ∈ twoLines.enabledNodes, path ∈ node.part.imports := by
      decide
    exact fun path member => (isImport path).mpr (Or.inr (inPart path member))
  have feed : '\n' ∈ package.modulePath.toList := by
    rw [path]
    decide
  refine ⟨unproblematic, checked, package, made, ?_, ?_, ?_, goMod, foundMod, ?_⟩
  · exact (spells "fmt" (listed _ (by decide))).mpr (by decide)
  · exact fun spelled => (spells "net\\" (listed _ (by decide))).mp spelled (by decide)
  · obtain ⟨runner, line, foundRunner, found, spells⟩ := runs rfl
    exact ⟨runner, line, foundRunner, found, fun spelled => (spells.mp spelled _ feed).2.2 rfl⟩
  · exact fun read => lines.mp read feed

end Graph

end Pipework
