import Pipework.Proofs.Package.Files
import Pipework.Proofs.Text.Bytes
import Pipework.Proofs.Text.Lines
import Pipework.Proofs.Text.Marks

/-!
# The message behind a digest

The message whose digest stands for a package holds each name and each text with a null byte
behind it, and no lengths. A text may hold null bytes of its own. As long as no text of a package
holds the name of a file of another package between two of them, the message tells the two apart
(`Graph.digestMessage_eq_iff`); otherwise part of one text may be read as a name and the text of
the next file (`Graph.exists_same_message`).
-/

namespace Pipework

/-! ## Fields -/

namespace Package

/-- A text holds a name as the message of files does. -/
def HoldsName (contents name : String) : Prop :=
  ∃ front back, contents.toList = front ++ '\x00' :: (name.toList ++ '\x00' :: back)

/-- The characters of the message of some files. -/
def messageText (files : List (String × String)) : List Char :=
  files.flatMap fun file => file.1.toList ++ '\x00' :: (file.2.toList ++ ['\x00'])

theorem messageText_cons
    (file : String × String) (rest : List (String × String)) :
    messageText (file :: rest) =
      file.1.toList ++ '\x00' :: (file.2.toList ++ '\x00' :: messageText rest) := by
  rw [messageText, List.flatMap_cons, List.append_assoc, List.cons_append, List.append_assoc]
  rfl

theorem messageText_append
    (front back : List (String × String)) :
    messageText (front ++ back) = messageText front ++ messageText back :=
  List.flatMap_append

/-- What ends the text of the last file ends the message, up to the last null character. -/
theorem suffix_messageText
    {contents : String} {ending : List Char} (ends : ending <:+ contents.toList)
    (front : List (String × String)) (name : String) :
    ending ++ ['\x00'] <:+ messageText (front ++ [(name, contents)]) := by
  obtain ⟨before, split⟩ := ends
  refine ⟨messageText front ++ name.toList ++ '\x00' :: before, ?_⟩
  rw [messageText_append, messageText_cons, ← split]
  simp only [List.append_assoc, List.cons_append]
  rfl

theorem digestMessage_eq
    (files : Table String String) :
    digestMessage files = Text.bytes (messageText files.entries) := by
  have field (text : String) : digestField text = Text.bytes (text.toList ++ ['\x00']) := by
    rw [digestField, Text.toList_toUTF8, Text.bytes_append]
    rfl
  rw [digestMessage, messageText, Text.bytes, List.flatMap_assoc]
  congr 1
  funext file
  rw [field, field, ← Text.bytes_append, List.append_assoc]
  rfl

theorem digestMessage_eq_iff_messageText
    {left right : Table String String} :
    digestMessage left = digestMessage right ↔
      messageText left.entries = messageText right.entries := by
  rw [digestMessage_eq, digestMessage_eq]
  exact Text.bytes_injective.eq_iff

/-! ## Files of packages -/

/-- A file as packages have them: the name holds no null character, and a line feed ends the
contents but not the name. -/
structure IsFile (file : String × String) : Prop where
  noNull : '\x00' ∉ file.1.toList
  name_ends : file.1.toList.getLast? ≠ some '\n'
  contents_ends : file.2.toList.getLast? = some '\n'

/-- No text of some files holds the name of one of others. -/
def Apart (left right : List (String × String)) : Prop :=
  ∀ held ∈ left, ∀ file ∈ right, ¬ HoldsName held.2 file.1

theorem apart_of_noNull
    {left : List (String × String)} (noNull : ∀ held ∈ left, '\x00' ∉ held.2.toList)
    (right : List (String × String)) :
    Apart left right := by
  intro held member file _ holds
  obtain ⟨front, back, split⟩ := holds
  exact noNull held member (split ▸ List.mem_append_right front List.mem_cons_self)

section Message

variable {file : String × String} {left right : List (String × String)} {other : List Char}

theorem getLast?_behind_null
    {front back : List Char} (ends : (front ++ '\x00' :: back).getLast? = some '\n') :
    back.getLast? = some '\n' := by
  rw [List.getLast?_append_cons] at ends
  cases back with
  | nil => exact absurd ends (by decide)
  | cons first rest => rwa [List.getLast?_cons_cons] at ends

theorem eq_nil_of_messageText
    {files : List (String × String)} (same : messageText files = []) :
    files = [] := by
  cases files with
  | nil => rfl
  | cons file more =>
      rw [messageText_cons] at same
      exact absurd same (List.append_ne_nil_of_right_ne_nil file.1.toList (List.cons_ne_nil _ _))

/-- What a field starts in a message is the name of the first file, or reaches into its contents. -/
theorem exists_first_of_messageText
    {files : List (String × String)} (areFiles : ∀ file ∈ files, IsFile file)
    {field rest : List Char} (same : messageText files = field ++ '\x00' :: rest) :
    ∃ file more, files = file :: more ∧
      ((field = file.1.toList ∧ rest = file.2.toList ++ '\x00' :: messageText more) ∨
        ∃ tail, field = file.1.toList ++ '\x00' :: tail ∧
          file.2.toList ++ '\x00' :: messageText more = tail ++ '\x00' :: rest) := by
  cases files with
  | nil => exact absurd same (List.append_ne_nil_of_right_ne_nil field (List.cons_ne_nil _ _)).symm
  | cons file more =>
      refine ⟨file, more, rfl, ?_⟩
      rw [messageText_cons] at same
      rcases Text.append_mark_cases_of_not_mem (areFiles file List.mem_cons_self).noNull same with
        ⟨isName, behind⟩ | longer
      · exact Or.inl ⟨isName, behind.symm⟩
      · exact Or.inr longer

/-- The text of a file does not reach over the end of another that files follow, unless it holds
the name of the first of these files. -/
theorem not_longer
    (isFile : IsFile file) (rightFiles : ∀ file ∈ right, IsFile file)
    (apart : ∀ held ∈ right, ¬ HoldsName file.2 held.1) {rest tail : List Char}
    (longer : file.2.toList = other ++ '\x00' :: tail)
    (behind : messageText right = tail ++ '\x00' :: rest) :
    False := by
  obtain ⟨first, more, rfl, ⟨rfl, _⟩ | ⟨back, rfl, _⟩⟩ :=
    exists_first_of_messageText rightFiles behind
  · have ends := getLast?_behind_null (longer ▸ isFile.contents_ends)
    exact (rightFiles first List.mem_cons_self).name_ends ends
  · exact apart first List.mem_cons_self ⟨other, back, longer⟩

/-- What a text and the files behind it say can be read on the right only with names of these
files, and with as many of them only in the same way. -/
theorem names_sublist_of_messageText
    (leftFiles : ∀ held ∈ file :: left, IsFile held) (rightFiles : ∀ held ∈ right, IsFile held)
    (ends : other.getLast? = some '\n') (apart : Apart (file :: left) right)
    (same : file.2.toList ++ '\x00' :: messageText left = other ++ '\x00' :: messageText right) :
    (right.map Prod.fst).Sublist (left.map Prod.fst) ∧
      (right.length = left.length → file.2.toList = other ∧ left = right) := by
  induction left generalizing file other right with
  | nil =>
      rcases Text.append_mark_cases same with ⟨sameText, rests⟩ | ⟨tail, _, behind⟩ |
        ⟨tail, longer, behind⟩
      · obtain rfl := eq_nil_of_messageText rests.symm
        exact ⟨List.Sublist.slnil, fun _ => ⟨sameText, rfl⟩⟩
      · exact absurd behind (List.append_ne_nil_of_right_ne_nil tail (List.cons_ne_nil _ _)).symm
      · exact absurd (not_longer (leftFiles file List.mem_cons_self) rightFiles
          (apart file List.mem_cons_self) longer behind) not_false
  | cons next more inductionHypothesis =>
      obtain ⟨isFile, nextFiles⟩ := List.forall_mem_cons.mp leftFiles
      have nextApart : Apart (next :: more) right :=
        fun held member => apart held (List.mem_cons_of_mem file member)
      rcases Text.append_mark_cases same with ⟨sameText, rests⟩ | ⟨tail, longer, behind⟩ |
        ⟨tail, longer, behind⟩
      · -- The texts end together, so the next names are the same.
        rw [messageText_cons] at rests
        obtain ⟨first, others, rfl, ⟨sameName, sameRest⟩ | ⟨back, cut, _⟩⟩ :=
          exists_first_of_messageText rightFiles rests.symm
        · obtain ⟨firstFile, otherFiles⟩ := List.forall_mem_cons.mp rightFiles
          obtain ⟨sublist, equal⟩ := inductionHypothesis nextFiles otherFiles
            firstFile.contents_ends
            (fun held member named inOthers => nextApart held member named
              (List.mem_cons_of_mem first inOthers)) sameRest
          have name : next.1 = first.1 := String.toList_inj.mp sameName
          refine ⟨?_, fun sameLength => ?_⟩
          · rw [List.map_cons, List.map_cons, name]
            exact sublist.cons_cons first.1
          · obtain ⟨sameContents, rfl⟩ := equal (Nat.succ.inj sameLength)
            have contents : next.2 = first.2 := String.toList_inj.mp sameContents
            exact ⟨sameText, by rw [Prod.ext name contents]⟩
        · exact absurd (cut ▸ List.mem_append_right _ List.mem_cons_self)
            (nextFiles next List.mem_cons_self).noNull
      · -- The text on the right reaches over the next name on the left.
        obtain ⟨first, others, split, ⟨rfl, _⟩ | ⟨back, rfl, sameRest⟩⟩ :=
          exists_first_of_messageText nextFiles behind
        · obtain ⟨rfl, rfl⟩ := List.cons.inj split
          have nameEnds := getLast?_behind_null (longer ▸ ends)
          exact absurd nameEnds (nextFiles next List.mem_cons_self).name_ends
        · obtain ⟨rfl, rfl⟩ := List.cons.inj split
          have backEnds := getLast?_behind_null (getLast?_behind_null (longer ▸ ends))
          obtain ⟨sublist, _⟩ :=
            inductionHypothesis nextFiles rightFiles backEnds nextApart sameRest
          refine ⟨sublist.cons next.1, fun sameLength => ?_⟩
          have short := sublist.length_le
          rw [List.length_map, List.length_map, sameLength, List.length_cons] at short
          exact absurd short (Nat.not_succ_le_self _)
      · exact absurd (not_longer isFile rightFiles (apart file List.mem_cons_self) longer behind)
          not_false

/-- The message of files is that of others only when the others have names of these files, and
with as many files only when the files are the same. -/
theorem names_sublist_of_messages
    (leftFiles : ∀ held ∈ left, IsFile held) (rightFiles : ∀ held ∈ right, IsFile held)
    (apart : Apart left right) (same : messageText left = messageText right) :
    (right.map Prod.fst).Sublist (left.map Prod.fst) ∧
      (right.length = left.length → left = right) := by
  -- An empty line before both messages changes nothing and stands for a file.
  let line : String × String := ("", "\n")
  have isFile : IsFile line := ⟨by decide, by decide, by decide⟩
  have lineApart : Apart (line :: left) right := by
    have alone : Apart [line] right := apart_of_noNull (by decide) right
    exact List.forall_mem_cons.mpr ⟨alone line List.mem_cons_self, apart⟩
  obtain ⟨sublist, equal⟩ := names_sublist_of_messageText
    (List.forall_mem_cons.mpr ⟨isFile, leftFiles⟩) rightFiles isFile.contents_ends lineApart
    (congrArg (fun message => line.2.toList ++ '\x00' :: message) same)
  exact ⟨sublist, fun sameLength => (equal sameLength).2⟩

end Message

end Package

/-! ## Messages of packages -/

namespace Source

theorem main_ends
    (graph : Graph) (package : String) :
    "\tnodeWG.Wait()\n\x7d\n".toList <:+ (main graph package).toList := by
  have last : (Text.ofLines ["\tnodeWG.Wait()", "\x7d"]).toList =
      "\tnodeWG.Wait()\n\x7d\n".toList := rfl
  simp only [main, entryLines, ← List.append_assoc]
  rw [Text.toList_ofLines_append, last]
  exact List.suffix_append _ _

theorem runner_ends
    (graphName modulePath : String) :
    "\tpipeline.Run()\n\x7d\n".toList <:+ (runner graphName modulePath).toList := by
  have last : (Text.ofLines ["\tpipeline.Run()", "\x7d"]).toList =
      "\tpipeline.Run()\n\x7d\n".toList := rfl
  have parts : runner graphName modulePath = Text.ofLines
      ([mark graphName, "", "package main", "", "import pipeline \"" ++ modulePath ++ "\"", "",
        "func main() \x7b"] ++ ["\tpipeline.Run()", "\x7d"]) := rfl
  rw [parts, Text.toList_ofLines_append, last]
  exact List.suffix_append _ _

end Source

namespace Graph

open Package (Apart IsFile messageText)

variable {graph left right : Graph}

theorem isFile_of_mem_packageFiles
    {file : String × String} (member : file ∈ graph.packageFiles.entries) :
    IsFile file := by
  obtain ⟨name, contents⟩ := file
  have fixed : ∀ name ∈ ["go.mod", Package.runnerFile],
      '\x00' ∉ name.toList ∧ name.toList.getLast? ≠ some '\n' := by
    decide
  rcases get?_packageFiles_iff.mp (Table.mem_entries_iff.mp member) with
    ⟨rfl, rfl⟩ | ⟨_, rfl, rfl⟩ | ⟨rfl, rfl⟩
  · have isName := fixed "go.mod" List.mem_cons_self
    exact ⟨isName.1, isName.2, Text.getLast?_ofLines nofun⟩
  · have isName := fixed Package.runnerFile (List.mem_cons_of_mem _ List.mem_cons_self)
    exact ⟨isName.1, isName.2, Text.getLast?_ofLines nofun⟩
  · refine ⟨fun null => absurd (isNamePart_of_mem_mainFile null) (by decide), ?_, ?_⟩
    · rw [graph.getLast?_mainFile]
      decide
    · obtain ⟨front, ends⟩ := Source.main_ends graph graph.packageName
      rw [← ends, List.getLast?_append_of_ne_nil front (by decide)]
      decide

theorem mem_keys_packageFiles_iff
    {name : String} :
    name ∈ graph.packageFiles.keys ↔
      name = "go.mod" ∨ (graph.isCommand = false ∧ name = Package.runnerFile) ∨
        name = graph.mainFile := by
  rw [Table.mem_keys_iff, Table.contains_iff]
  simp only [get?_packageFiles_iff, exists_or, exists_and_left, exists_eq, and_true]

theorem entries_of_command
    (command : graph.isCommand = true) :
    graph.packageFiles.entries =
      [("go.mod", Source.goMod graph.modulePath),
        ("main.go", Source.main graph graph.packageName)] := by
  rw [packageFiles_of_command command, mainFile_of_command command]
  rfl

/-- The last file of a library that is called like a command ends otherwise than a command. -/
theorem messageText_ne_of_kinds
    (library : left.isCommand = false) (named : left.mainFile = "main.go")
    (command : right.isCommand = true) :
    messageText left.packageFiles.entries ≠ messageText right.packageFiles.entries := by
  have leftEntries : left.packageFiles.entries =
      [("go.mod", Source.goMod left.modulePath),
        ("main.go", Source.main left left.packageName)] ++
      [(Package.runnerFile, Source.runner left.name left.modulePath)] := by
    rw [packageFiles_of_library library, named]
    rfl
  have rightEntries : right.packageFiles.entries =
      [("go.mod", Source.goMod right.modulePath)] ++
        [("main.go", Source.main right right.packageName)] :=
    entries_of_command command
  intro same
  have leftEnds := Package.suffix_messageText (Source.runner_ends left.name left.modulePath)
    [("go.mod", Source.goMod left.modulePath), ("main.go", Source.main left left.packageName)]
    Package.runnerFile
  have rightEnds := Package.suffix_messageText (Source.main_ends right right.packageName)
    [("go.mod", Source.goMod right.modulePath)] "main.go"
  rw [← leftEntries, same] at leftEnds
  rw [← rightEntries] at rightEnds
  exact absurd (List.suffix_of_suffix_length_le rightEnds leftEnds (by decide)) (by decide)

/-- Packages of which one holds no name of the other have the same message only when they have
the same files. -/
theorem packageFiles_eq_of_messageText
    (apart : Apart left.packageFiles.entries right.packageFiles.entries)
    (same : messageText left.packageFiles.entries = messageText right.packageFiles.entries) :
    left.packageFiles = right.packageFiles := by
  obtain ⟨sublist, equal⟩ := Package.names_sublist_of_messages
    (fun _ => isFile_of_mem_packageFiles) (fun _ => isFile_of_mem_packageFiles) apart same
  have known : right.packageFiles.keys ⊆ left.packageFiles.keys := sublist.subset
  have mainKnown : right.mainFile = left.mainFile := by
    have member := known (mem_keys_packageFiles_iff.mpr (Or.inr (Or.inr rfl)))
    rcases mem_keys_packageFiles_iff.mp member with isGoMod | ⟨_, isRunner⟩ | isMain
    · exact absurd isGoMod right.mainFile_ne_goMod
    · exact absurd isRunner right.mainFile_ne_runnerFile
    · exact isMain
  have sameKind : left.isCommand = right.isCommand := by
    cases kind : right.isCommand with
    | true =>
        by_contra library
        rw [mainFile_of_command kind] at mainKnown
        exact messageText_ne_of_kinds (Bool.not_eq_true _ ▸ library) mainKnown.symm kind same
    | false =>
        have member := known (mem_keys_packageFiles_iff.mpr (Or.inr (Or.inl ⟨kind, rfl⟩)))
        rcases mem_keys_packageFiles_iff.mp member with isGoMod | ⟨library, _⟩ | isMain
        · exact absurd isGoMod (by decide)
        · exact library
        · exact absurd isMain.symm left.mainFile_ne_runnerFile
  have sameKeys : right.packageFiles.keys = left.packageFiles.keys := by
    rw [Table.keys_eq_iff]
    intro name
    rw [Bool.eq_iff_iff, ← Table.mem_keys_iff, ← Table.mem_keys_iff, mem_keys_packageFiles_iff,
      mem_keys_packageFiles_iff, mainKnown, sameKind]
  have sameLength := congrArg List.length sameKeys
  rw [Table.keys, Table.keys, List.length_map, List.length_map] at sameLength
  refine Table.ext_get? fun name => ?_
  rw [Table.get?, Table.get?, equal sameLength]

/-- The message tells the files of a package from those of any package whose names it does not
hold between null characters. -/
theorem digestMessage_eq_iff
    (leftSound : left.problems = []) (rightSound : right.problems = []) :
    ∃ leftPackage rightPackage, left.package = .ok leftPackage ∧
      right.package = .ok rightPackage ∧
      (Apart leftPackage.files.entries rightPackage.files.entries →
        (Package.digestMessage leftPackage.files = Package.digestMessage rightPackage.files ↔
            leftPackage.files = rightPackage.files) ∧
          (leftPackage.digest = rightPackage.digest → leftPackage.files ≠ rightPackage.files →
            Package.digestMessage leftPackage.files ≠ Package.digestMessage rightPackage.files ∧
              Digest.text (Package.digestMessage leftPackage.files) =
                Digest.text (Package.digestMessage rightPackage.files))) := by
  obtain ⟨leftPackage, leftMade, leftYields⟩ := exists_yields leftSound
  obtain ⟨rightPackage, rightMade, rightYields⟩ := exists_yields rightSound
  refine ⟨leftPackage, rightPackage, leftMade, rightMade, ?_⟩
  rw [leftYields.files, rightYields.files]
  intro apart
  have told : Package.digestMessage left.packageFiles = Package.digestMessage right.packageFiles ↔
      left.packageFiles = right.packageFiles := by
    rw [Package.digestMessage_eq_iff_messageText]
    exact ⟨packageFiles_eq_of_messageText apart, fun same => by rw [same]⟩
  refine ⟨told, fun sameDigest differ => ⟨fun same => differ (told.mp same), ?_⟩⟩
  rw [← leftYields.files, ← rightYields.files, ← leftYields.isSealed, ← rightYields.isSealed]
  exact sameDigest

theorem digestMessage_eq_iff_twoPaths :
    let left := empty "g" "one" true
    let right := empty "g" "two\x00three" true
    left.problems = [] ∧ right.problems = [] ∧
      ∃ leftPackage rightPackage, left.package = .ok leftPackage ∧
        right.package = .ok rightPackage ∧
        Apart leftPackage.files.entries rightPackage.files.entries ∧
        leftPackage.files ≠ rightPackage.files ∧
        Package.digestMessage leftPackage.files ≠ Package.digestMessage rightPackage.files := by
  intro left right
  have leftSound : left.problems = [] := rfl
  have rightSound : right.problems = [] := rfl
  obtain ⟨leftPackage, rightPackage, leftMade, rightMade, told⟩ :=
    digestMessage_eq_iff leftSound rightSound
  have leftFiles := (yields_of_made leftMade).files
  have rightFiles := (yields_of_made rightMade).files
  have apart : Apart leftPackage.files.entries rightPackage.files.entries := by
    have inMod : '\x00' ∉ (Source.goMod left.modulePath).toList := by
      rw [Source.goMod]
      exact Text.not_mem_ofLines (by decide) (by decide +kernel)
    have inMain : '\x00' ∉ (Source.main left left.packageName).toList := by
      rw [Source.main]
      exact Text.not_mem_ofLines (by decide) (by decide +kernel)
    have noNull : ∀ held ∈ left.packageFiles.entries, '\x00' ∉ held.2.toList := by
      simp only [@entries_of_command left rfl, List.forall_mem_cons, inMod, inMain,
        not_false_eq_true, List.not_mem_nil, false_implies, implies_true, and_self]
    rw [leftFiles]
    exact Package.apart_of_noNull noNull _
  have differ : leftPackage.files ≠ rightPackage.files := by
    rw [leftFiles, rightFiles]
    intro same
    have sameMod := congrArg (fun files => files.get? "go.mod") same
    simp only [get?_goMod, Option.some_inj] at sameMod
    have apartMods : Source.goMod left.modulePath ≠ Source.goMod right.modulePath := by
      decide +kernel
    exact apartMods sameMod
  exact ⟨leftSound, rightSound, leftPackage, rightPackage, leftMade, rightMade, apart, differ,
    fun same => differ ((told apart).1.mp same)⟩

/-! ## Packages with one message -/

/-- A command whose only node drops values of a type. -/
def loneSink (path type : String) : Graph := lone path true (.sink ⟨type⟩)

/-- The node of such a command in its program. -/
def wiredSink (type : String) : WiredNode :=
  ⟨⟨"A", true, 1, true, 0, 0, .sink ⟨type⟩, Node.unbound (.sink ⟨type⟩)⟩,
    [⟨Pin.input "input" type, none⟩]⟩

theorem problems_loneSink
    (path type : String) :
    (loneSink path type).problems = [] := rfl

theorem wiring_loneSink
    (path type : String) :
    (loneSink path type).wiring = ⟨[], [wiredSink type]⟩ := rfl

/-- The type stands in the third line of the function, and nowhere else. -/
theorem nodeLines_wiredSink
    (type : String) :
    Source.nodeLines (wiredSink type) =
      (Source.nodeLines (wiredSink "")).take 2 ++
        ("func node_A(input" ++ " <-chan " ++ type ++ ") \x7b") ::
          (Source.nodeLines (wiredSink "")).drop 3 := by
  have parts : Source.nodeLines (wiredSink type) =
      (Source.nodeLines (wiredSink "")).take 2 ++
        ("func " ++ (wiredSink type).ident ++ "(" ++ ("input" ++ " <-chan " ++ type) ++
          ") \x7b") :: (Source.nodeLines (wiredSink "")).drop 3 := rfl
  have opening : "func " ++ (wiredSink type).ident ++ "(" = "func node_A(" := rfl
  rw [parts, opening, ← String.append_assoc, ← String.append_assoc]
  rfl

theorem exists_around_type :
    ∃ front back : List Char, ∀ path type : String,
      (Source.main (loneSink path type) (loneSink path type).packageName).toList =
        front ++ type.toList ++ back := by
  let function := Source.nodeLines (wiredSink "")
  let before := [Source.mark "g", "", "package main", "", "import ("] ++
    (Source.imports ⟨[], [wiredSink ""]⟩).toList.map Source.importLine ++ [")"] ++ function.take 2
  let behind := function.drop 3 ++ Source.entryLines "main" ⟨[], [wiredSink ""]⟩
  refine ⟨(Text.ofLines before).toList ++ ("func node_A(input" ++ " <-chan ").toList,
    ") \x7b".toList ++ '\n' :: (Text.ofLines behind).toList, fun path type => ?_⟩
  have lines : Source.main (loneSink path type) (loneSink path type).packageName =
      Text.ofLines (before ++ ("func node_A(input" ++ " <-chan " ++ type ++ ") \x7b") ::
        behind) := by
    simp only [Source.main, wiring_loneSink, List.flatMap_cons, List.flatMap_nil, List.append_nil,
      nodeLines_wiredSink type, before, behind, List.append_assoc, List.cons_append]
    rfl
  rw [lines, Text.toList_ofLines_append, Text.toList_ofLines_cons, String.toList_append,
    String.toList_append]
  simp only [List.append_assoc]

theorem modulePath_of_ends
    {path : String} (isPath : graph.packagePath = path) {first last : Char} {middle : List Char}
    (parts : path.toList = first :: middle ++ [last]) (starts : Text.isBlankChar first = false)
    (ends : Text.isBlankChar last = false) :
    graph.modulePath = path := by
  have trimmed := Text.trim_of_ends parts starts ends
  have nonempty : path ≠ "" := by
    rintro rfl
    exact absurd parts nofun
  have notEmpty : ¬ path.isEmpty = true := by rwa [String.isEmpty_iff]
  simp only [modulePath, isPath, trimmed, if_neg notEmpty]

/-- What stands in the message between a path and a type may stand in the type or in the path as
well: the packages differ, and their messages do not. -/
theorem exists_same_message :
    ∃ between : String, ∀ type : String,
      let left := loneSink "path" ("x" ++ between ++ type)
      let right := loneSink ("path" ++ between ++ "x") type
      left.problems = [] ∧ right.problems = [] ∧ left.packageFiles ≠ right.packageFiles ∧
        Package.digestMessage left.packageFiles = Package.digestMessage right.packageFiles := by
  obtain ⟨front, back, around⟩ := exists_around_type
  let behindPath := (Text.ofLines ["", "", "go 1.22"]).toList
  let between := String.ofList (behindPath ++ '\x00' :: ("main.go".toList ++ '\x00' :: front))
  refine ⟨between, fun type => ?_⟩
  intro left right
  have goMod (path : String) :
      (Source.goMod path).toList = "module ".toList ++ path.toList ++ behindPath := by
    rw [Source.goMod, Text.toList_ofLines_cons, String.toList_append, List.append_assoc,
      List.append_assoc]
    rfl
  have leftPath : left.modulePath = "path" :=
    modulePath_of_ends rfl (by decide : "path".toList = 'p' :: ['a', 't'] ++ ['h']) (by decide)
      (by decide)
  have rightPath : right.modulePath = "path" ++ between ++ "x" := by
    have parts : ("path" ++ between ++ "x").toList =
        'p' :: ("ath".toList ++ between.toList) ++ ['x'] := by
      rw [String.toList_append, String.toList_append]
      rfl
    exact modulePath_of_ends rfl parts (by decide) (by decide)
  refine ⟨problems_loneSink _ _, problems_loneSink _ _, ?_, ?_⟩
  · intro same
    have sameMod := congrArg (fun files => files.get? "go.mod") same
    simp only [get?_goMod, leftPath, rightPath, Option.some_inj] at sameMod
    have sameSize := congrArg (fun text => text.toList.length) sameMod
    have one : "x".toList.length = 1 := by decide
    simp only [goMod, List.length_append, String.toList_append] at sameSize
    omega
  · have leftSource : (Source.main left left.packageName).toList = _ :=
      around "path" ("x" ++ between ++ type)
    have rightSource : (Source.main right right.packageName).toList = _ :=
      around ("path" ++ between ++ "x") type
    rw [Package.digestMessage_eq_iff_messageText, entries_of_command rfl, entries_of_command rfl]
    simp only [Package.messageText_cons, goMod, leftPath, rightPath, leftSource, rightSource,
      String.toList_append, between, String.toList_ofList, List.append_assoc, List.cons_append]

end Graph

end Pipework
