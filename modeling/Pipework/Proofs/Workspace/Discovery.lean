import Mathlib.Data.List.Flatten
import Pipework.Proofs.Storage.Root
import Pipework.Proofs.Text.Bytes
import Pipework.Proofs.Text.Marks
import Pipework.Proofs.Workspace.Edits

/-!
# Graphs that are found again

All graphs of a project are those whose files are found below the directory of the graphs, by the
ending of their names. What leads to a file that is found so is its normal key, if no backslash
is in it (`FileStorage.discovered_iff`). A graph that is new is found again exactly when the user
has named it by something that does not end in a slash and has no backslash
(`CommandLine.newGraph_discovered_iff`).
-/

namespace Pipework

/-! ## Texts without some of their segments -/

namespace Path

theorem joinSlashes_cons
    (segment : List Char) {rest : List (List Char)} (filled : rest ≠ []) :
    joinSlashes (segment :: rest) = segment ++ '/' :: joinSlashes rest :=
  joinSlashes.eq_3 segment rest filled

theorem joinSlashes_sublist_cons
    (segment : List Char) (rest : List (List Char)) :
    (joinSlashes rest).Sublist (joinSlashes (segment :: rest)) := by
  cases rest with
  | nil => exact List.nil_sublist _
  | cons next others =>
      rw [joinSlashes_cons segment (List.cons_ne_nil next others)]
      exact (List.sublist_cons_self _ _).trans (List.sublist_append_right _ _)

/-- A text with some of its segments left out is what was not left out. -/
theorem joinSlashes_sublist
    {some all : List (List Char)} (sublist : some.Sublist all) :
    (joinSlashes some).Sublist (joinSlashes all) := by
  induction sublist with
  | slnil => exact List.Sublist.slnil
  | cons segment _ inductionHypothesis =>
      exact inductionHypothesis.trans (joinSlashes_sublist_cons segment _)
  | @cons_cons shorter longer segment isSublist inductionHypothesis =>
      by_cases alone : shorter = []
      · subst alone
        by_cases last : longer = []
        · rw [last]
        · rw [joinSlashes_cons segment last]
          exact List.sublist_append_left _ _
      · have filled : longer ≠ [] := fun nothing =>
          alone (List.sublist_nil.mp (nothing ▸ isSublist))
        rw [joinSlashes_cons segment alone, joinSlashes_cons segment filled]
        exact (List.Sublist.refl _).append (inductionHypothesis.cons_cons _)

theorem mem_joinSlashes
    {segments : List (List Char)} {character : Char} (member : character ∈ joinSlashes segments) :
    character = '/' ∨ ∃ segment ∈ segments, character ∈ segment := by
  induction segments with
  | nil => exact absurd member List.not_mem_nil
  | cons segment rest inductionHypothesis =>
      cases rest with
      | nil => exact Or.inr ⟨segment, List.mem_cons_self, member⟩
      | cons next others =>
          rw [joinSlashes_cons segment (List.cons_ne_nil next others), List.mem_append,
            List.mem_cons] at member
          rcases member with inSegment | slash | inRest
          · exact Or.inr ⟨segment, List.mem_cons_self, inSegment⟩
          · exact Or.inl slash
          · rcases inductionHypothesis inRest with slash | ⟨other, isOther, inOther⟩
            · exact Or.inl slash
            · exact Or.inr ⟨other, List.mem_cons_of_mem _ isOther, inOther⟩

theorem intercalate_slash
    (names : List String) :
    (String.intercalate "/" names).toList = joinSlashes (names.map String.toList) := by
  induction names with
  | nil => rfl
  | cons name rest inductionHypothesis =>
      cases rest with
      | nil => rw [String.intercalate_singleton, List.map_cons, List.map_nil, joinSlashes]
      | cons next others =>
          rw [String.intercalate_cons_cons, String.toList_append, String.toList_append,
            inductionHypothesis, List.append_assoc, List.map_cons, List.map_cons]
          rfl

end Path

/-! ## Names of graph files -/

namespace Path

theorem components_name
    {name : String} (isName : IsName name) :
    components name = [.name name] := by
  have notHere : name.toList ≠ ['.'] := fun here => isName.notHere (String.toList_injective here)
  rw [components_of_relative isName.isAbsolute, splitSlashes_of_noSlash isName.noSlash,
    relativeComponents, if_neg notHere,
    innerComponent?_name isName.filled isName.notHere isName.notUp]
  rfl

end Path

theorem isGraphFile_iff
    {path : String} :
    isGraphFile path = true ↔ Path.extension? path = some graphExtension :=
  decide_eq_true_iff

theorem graphKey_of_isGraphFile
    {graph : String} (isFile : isGraphFile graph = true) :
    graphKey graph = graph := by
  rw [graphKey, if_pos (isGraphFile_iff.mp isFile)]

theorem graphKey_of_not_isGraphFile
    {graph : String} (notFile : isGraphFile graph = false) :
    (graphKey graph).toList = graph.toList ++ '.' :: "json".toList := by
  rw [graphKey, if_neg (fun isFile => Bool.eq_false_iff.mp notFile (isGraphFile_iff.mpr isFile)),
    String.toList_append, String.toList_append, List.append_assoc]
  rfl

/-- A key stays as it is exactly when it has the ending of a graph file. -/
theorem graphKey_eq_self_iff
    {key : String} :
    graphKey key = key ↔ isGraphFile key = true := by
  refine ⟨fun same => ?_, graphKey_of_isGraphFile⟩
  cases isFile : isGraphFile key with
  | true => rfl
  | false =>
      have longer := congrArg List.length (graphKey_of_not_isGraphFile isFile)
      rw [same, List.length_append, List.length_cons] at longer
      omega

theorem isGraphFile_of_name
    {name : String} (isName : Path.IsName name) :
    isGraphFile name = true ↔ (Path.splitExtension name).2 = some graphExtension := by
  rw [isGraphFile_iff, Path.extension?, Path.fileName?, Path.components_name isName]
  rfl

namespace FileStorage

open FileTree (namesOf stepsOf endsInSlash)

theorem isName_of_mem_placeOf
    {key name : String} (accepted : Accepted key) (member : name ∈ placeOf key) :
    Path.IsName name := by
  obtain ⟨filled, noSlash⟩ := plain_of_mem_namesOf (mem_namesOf_of_mem_placeOf member)
  obtain ⟨inSteps, notHere⟩ := List.mem_filter.mp member
  exact ⟨fun empty => filled (String.toList_eq_nil_iff.mpr empty), of_decide_eq_true notHere,
    ne_up_of_mem_stepsOf accepted name inSteps, noSlash⟩

/-- Whether a key has the ending of a graph file is told by the last name on its way. -/
theorem isGraphFile_iff_placeOf
    {key : String} (accepted : Accepted key) :
    isGraphFile key = true ↔ (placeOf key).getLast?.any isGraphFile = true := by
  obtain ⟨lead, isLead, steps⟩ := Path.components_relative accepted.relative
  rw [steps_eq_placeOf accepted] at steps
  rcases List.eq_nil_or_concat' (placeOf key) with nothing | ⟨front, name, isPlace⟩
  · rw [isGraphFile_iff, Path.extension?, Path.fileName?, steps, nothing]
    rcases isLead with rfl | rfl <;> simp
  · have isName : Path.IsName name := by
      refine isName_of_mem_placeOf accepted ?_
      rw [isPlace]
      exact List.mem_append_right _ List.mem_cons_self
    rw [isGraphFile_iff, Path.extension?, Path.fileName?, steps, isPlace, List.map_append,
      ← List.append_assoc, List.getLast?_append_of_ne_nil _ (by simp)]
    simp [isGraphFile_of_name isName]

/-- A path that ends in a name ends there. -/
theorem getLast?_placeOf
    {key : String} {name : List Char} (isName : Path.IsName (String.ofList name))
    (ends : key.toList = name ∨ ∃ front, key.toList = front ++ '/' :: name) :
    (placeOf key).getLast? = some (String.ofList name) := by
  have noSlash : '/' ∉ name := by simpa using isName.noSlash
  have filled : name ≠ [] := by simpa using isName.filled
  have onlyName : ((Path.splitSlashes name).filter (· ≠ [])).map String.ofList =
      [String.ofList name] := by
    rw [Path.splitSlashes_of_noSlash noSlash, List.filter_cons_of_pos (by simpa using filled)]
    rfl
  have names : ∃ front, namesOf key = front ++ [String.ofList name] := by
    rcases ends with isKey | ⟨front, isKey⟩
    · exact ⟨[], by rw [namesOf, isKey, onlyName]; rfl⟩
    · refine ⟨((Path.splitSlashes front).filter (· ≠ [])).map String.ofList, ?_⟩
      rw [namesOf, isKey, Path.splitSlashes_append, List.filter_append, List.map_append, onlyName]
  have noEnd : endsInSlash key = false := by
    obtain ⟨last, isLast⟩ := Option.ne_none_iff_exists'.mp
      (mt List.getLast?_eq_none_iff.mp filled)
    have notSlash : last ≠ '/' := fun slash => noSlash (slash ▸ List.mem_of_getLast? isLast)
    have keyEnds : key.toList.getLast? = some last := by
      rcases ends with isKey | ⟨front, isKey⟩
      · rw [isKey, isLast]
      · rw [isKey, List.getLast?_append_of_ne_nil _ (List.cons_ne_nil _ _),
          List.getLast?_cons_of_ne_nil filled, isLast]
    rw [endsInSlash, keyEnds]
    simpa using notSlash
  obtain ⟨front, isNames⟩ := names
  rw [placeOf, stepsOf, noEnd, if_neg Bool.false_ne_true, List.append_nil, isNames,
    List.filter_append, List.filter_cons_of_pos (by simpa using isName.notHere)]
  simp

end FileStorage

theorem afterLast_eq_nil_iff
    {text : String} :
    Text.afterLast '/' text.toList = [] ↔ text = "" ∨ FileTree.endsInSlash text = true := by
  rw [FileTree.endsInSlash, beq_iff_eq]
  constructor
  · intro nothing
    obtain ⟨whole | ⟨front, isText⟩, _⟩ := Text.afterLast_cases '/' text.toList
    · exact Or.inl (String.toList_eq_nil_iff.mp (whole ▸ nothing))
    · rw [nothing] at isText
      exact Or.inr (isText ▸ List.getLast?_concat)
  · rintro (rfl | last)
    · rfl
    · obtain ⟨front, isText⟩ := List.getLast?_eq_some_iff.mp last
      have isSplit : Text.splitAtLast? '/' text.toList = some (front, []) :=
        Text.splitAtLast?_eq_some_iff.mpr ⟨isText, List.not_mem_nil⟩
      rw [Text.afterLast, isSplit]

/-- The key of a graph has the ending of a graph file unless there is nothing before the ending:
then the file is a hidden one without an ending. -/
theorem isGraphFile_graphKey_iff
    {graph : String} (accepted : FileStorage.Accepted (graphKey graph))
    (asksFile : FileStorage.asksDirectory (graphKey graph) = false) :
    isGraphFile (graphKey graph) = true ↔ graph ≠ "" ∧ FileTree.endsInSlash graph = false := by
  cases isFile : isGraphFile graph with
  | true =>
      rw [graphKey_of_isGraphFile isFile] at accepted asksFile ⊢
      refine iff_of_true isFile ⟨accepted.filled, ?_⟩
      cases slash : FileTree.endsInSlash graph with
      | false => rfl
      | true => simp [FileStorage.asksDirectory, FileTree.stepsOf, slash] at asksFile
  | false =>
      obtain ⟨split, noSlash⟩ := Text.afterLast_cases '/' graph.toList
      have isNil_iff : Text.afterLast '/' graph.toList = [] ↔ _ := afterLast_eq_nil_iff
      have filled_iff := (not_congr isNil_iff).trans not_or
      have isKey := graphKey_of_not_isGraphFile isFile
      generalize Text.afterLast '/' graph.toList = segment at split noSlash filled_iff
      have isName : Path.IsName (String.ofList (segment ++ '.' :: "json".toList)) := by
        have long {other : String} (short : other.toList.length < 5) :
            String.ofList (segment ++ '.' :: "json".toList) ≠ other := by
          rintro rfl
          have five : ('.' :: "json".toList).length = 5 := rfl
          rw [String.toList_ofList, List.length_append] at short
          omega
        refine ⟨long (by decide), long (by decide), long (by decide), ?_⟩
        rw [String.toList_ofList, List.mem_append, not_or]
        exact ⟨noSlash, by decide⟩
      have ends : (graphKey graph).toList = segment ++ '.' :: "json".toList ∨
          ∃ front, (graphKey graph).toList = front ++ '/' :: (segment ++ '.' :: "json".toList) := by
        rw [isKey]
        rcases split with whole | ⟨front, isGraph⟩
        · exact Or.inl (by rw [whole])
        · exact Or.inr ⟨front, by rw [isGraph, List.append_assoc, List.cons_append]⟩
      have isSplit : Text.splitAtLast? '.' (segment ++ '.' :: "json".toList) =
          some (segment, "json".toList) :=
        Text.splitAtLast?_eq_some_iff.mpr ⟨rfl, by decide⟩
      rw [FileStorage.isGraphFile_iff_placeOf accepted, FileStorage.getLast?_placeOf isName ends,
        Option.any_some, isGraphFile_of_name isName, Path.splitExtension, String.toList_ofList,
        isSplit]
      simp only [isName.notUp, or_false, Bool.not_eq_true] at filled_iff ⊢
      rw [← ne_eq, ← ne_eq] at filled_iff
      rw [← filled_iff]
      by_cases nothing : segment = []
      · simp [nothing]
      · simp [nothing, graphExtension]

/-! ## Files that are found -/

namespace FileStorage

open FileTree (namesOf stepsOf)

variable {files : FileStorage} {key found : String} {place : Place}

/-- A key leads to a place. -/
def Reaches (files : FileStorage) (key : String) (place : Place) : Prop :=
  ∃ path, files.path key = .ok path ∧ files.tree.locate path = .ok place

theorem reaches_iff :
    files.Reaches key place ↔
      Accepted key ∧ FileTree.requirePath (Path.join files.root key) = .ok () ∧
        ∃ base, files.tree.walk (files.tree.startOf files.root) (namesOf files.root) = .ok base ∧
          files.tree.walk base (stepsOf key) = .ok place := by
  simp only [Reaches, path_eq_ok_iff]
  constructor
  · rintro ⟨_, ⟨accepted, rfl⟩, leads⟩
    rw [FileTree.locate_eq_ok_iff, FileTree.startOf_join _ accepted.relative,
      stepsOf_join accepted, FileTree.walk_append, bind_eq_ok_iff] at leads
    exact ⟨accepted, leads.1, leads.2⟩
  · rintro ⟨accepted, required, leads⟩
    refine ⟨_, ⟨accepted, rfl⟩, ?_⟩
    rw [FileTree.locate_eq_ok_iff, FileTree.startOf_join _ accepted.relative,
      stepsOf_join accepted, FileTree.walk_append, bind_eq_ok_iff]
    exact ⟨required, leads⟩

theorem Reaches.place_eq
    (reaches : files.Reaches key place) {base : Place}
    (leads : files.tree.walk (files.tree.startOf files.root) (namesOf files.root) = .ok base) :
    place = base ++ placeOf key := by
  obtain ⟨accepted, _, other, toOther, walks⟩ := reaches_iff.mp reaches
  obtain rfl : base = other := Except.ok.inj (leads.symm.trans toOther)
  exact FileTree.eq_append_of_walk (ne_up_of_mem_stepsOf accepted) walks

theorem Reaches.asksFile
    (reaches : files.Reaches key place) {contents : ByteArray}
    (isFile : files.tree.entryAt? place = some (.file contents)) :
    asksDirectory key = false := by
  obtain ⟨_, _, _, _, walks⟩ := reaches_iff.mp reaches
  rw [asksDirectory, decide_eq_false_iff_not]
  intro last
  rw [FileTree.isDirectory_of_last_here last walks] at isFile
  cases isFile

/-- A file is read under each key that leads to it. -/
theorem Reaches.read_eq
    (reaches : files.Reaches key place) {contents : ByteArray}
    (isFile : files.tree.entryAt? place = some (.file contents)) :
    Storage.read files key = .ok contents := by
  obtain ⟨path, isPath, leads⟩ := reaches
  exact read_eq_ok_iff.mpr
    ⟨path, isPath, FileTree.readFile_eq_ok_iff.mpr ⟨place, leads, isFile⟩⟩

/-- Steps that stay where they are can be left out. -/
theorem walk_filter
    {tree : FileTree} {start : Place} {steps : List String}
    (walks : tree.walk start steps = .ok place) :
    tree.walk start (steps.filter (· ≠ ".")) = .ok place := by
  induction steps generalizing start with
  | nil => exact walks
  | cons step rest inductionHypothesis =>
      obtain ⟨isDirectory, short, onwards⟩ := FileTree.walk_cons_eq_ok_iff.mp walks
      have further := inductionHypothesis onwards
      by_cases here : step = "."
      · rw [FileTree.advance, if_pos here] at further
        rwa [List.filter_cons_of_neg (by simp [here])]
      · rw [List.filter_cons_of_pos (by simp [here])]
        exact FileTree.walk_cons_eq_ok_iff.mpr ⟨isDirectory, short, further⟩

/-- A path that is shorter is taken where the longer one is. -/
theorem requirePath_of_sublist
    {path shorter : String} (taken : FileTree.requirePath path = .ok ()) (filled : shorter ≠ "")
    (sublist : shorter.toList.Sublist path.toList) :
    FileTree.requirePath shorter = .ok () := by
  have size (text : String) : text.utf8ByteSize = (Text.bytes text.toList).length := by
    rw [← Text.toList_toUTF8, Array.length_toList]
    rfl
  have noLonger : shorter.utf8ByteSize ≤ path.utf8ByteSize := by
    rw [size, size]
    exact (sublist.flatMap _).length_le
  rw [FileTree.requirePath_eq_ok_iff] at taken ⊢
  obtain ⟨noNull, _, isShort⟩ := taken
  exact ⟨fun member => noNull (sublist.subset member), filled, noLonger.trans isShort⟩

theorem join_sublist
    (root : String) {shorter longer : String} (shorterRelative : Path.isAbsolute shorter = false)
    (longerRelative : Path.isAbsolute longer = false)
    (sublist : shorter.toList.Sublist longer.toList) :
    (Path.join root shorter).toList.Sublist (Path.join root longer).toList := by
  rw [Path.join, Path.join, shorterRelative, longerRelative, if_neg Bool.false_ne_true,
    if_neg Bool.false_ne_true]
  split
  · rw [String.toList_append, String.toList_append]
    exact (List.Sublist.refl _).append sublist
  · rw [String.toList_append, String.toList_append (t := longer)]
    exact (List.Sublist.refl _).append sublist

theorem sublist_join
    (root : String) {path : String} (relative : Path.isAbsolute path = false) :
    root.toList.Sublist (Path.join root path).toList ∧
      path.toList.Sublist (Path.join root path).toList := by
  rw [Path.join, relative, if_neg Bool.false_ne_true]
  split
  · rw [String.toList_append]
    exact ⟨List.sublist_append_left _ _, List.sublist_append_right _ _⟩
  · rw [String.toList_append, String.toList_append]
    exact ⟨(List.sublist_append_left _ _).trans (List.sublist_append_left _ _),
      List.sublist_append_right _ _⟩

/-- The root leads to a directory, if it is not empty. -/
theorem Reaches.locate_root
    (reaches : files.Reaches key place) (filled : files.root ≠ "") {base : Place}
    (leads : files.tree.walk (files.tree.startOf files.root) (namesOf files.root) = .ok base) :
    files.tree.locate files.root = .ok base ∧ files.tree.entryAt? base = some .directory := by
  obtain ⟨accepted, required, other, toOther, walks⟩ := reaches_iff.mp reaches
  obtain rfl : base = other := Except.ok.inj (leads.symm.trans toOther)
  obtain ⟨first, rest, isSteps⟩ := List.exists_cons_of_ne_nil (stepsOf_ne_nil accepted)
  rw [isSteps] at walks
  have isDirectory := (FileTree.walk_cons_eq_ok_iff.mp walks).1
  have rootRequired :=
    requirePath_of_sublist required filled (sublist_join files.root accepted.relative).1
  refine ⟨FileTree.locate_eq_ok_iff.mpr ⟨rootRequired, ?_⟩, isDirectory⟩
  rw [stepsOf, FileTree.walk_append, leads]
  show files.tree.walk base _ = .ok base
  split
  · exact FileTree.walk_cons_eq_ok_iff.mpr ⟨isDirectory, by decide, rfl⟩
  · rfl

/-! ## Keys of files that are found -/

theorem mem_name_of_mem_key
    {character : Char} (member : character ∈ key.toList) (notSlash : character ≠ '/')
    (notDot : character ≠ '.') :
    ∃ name ∈ placeOf key, character ∈ name.toList := by
  rw [← Path.joinSlashes_splitSlashes key.toList] at member
  obtain ⟨segment, isSegment, inSegment⟩ := (Path.mem_joinSlashes member).resolve_left notSlash
  have filled : segment ≠ [] := List.ne_nil_of_mem inSegment
  have notHere : String.ofList segment ≠ "." := by
    intro here
    rw [String.ofList_injective here] at inSegment
    exact notDot (List.mem_singleton.mp inSegment)
  refine ⟨String.ofList segment, List.mem_filter.mpr ⟨?_, by simpa using notHere⟩, by simpa⟩
  exact List.mem_append_left _
    (List.mem_map_of_mem (List.mem_filter.mpr ⟨isSegment, by simpa using filled⟩))

theorem sublist_of_mem_placeOf
    {name : String} (member : name ∈ placeOf key) :
    name.toList.Sublist key.toList := by
  obtain ⟨segment, inNames, rfl⟩ := List.mem_map.mp (mem_namesOf_of_mem_placeOf member)
  have isSegment := List.singleton_sublist.mpr (List.mem_filter.mp inNames).1
  have joined := Path.joinSlashes_sublist isSegment
  rw [Path.joinSlashes_splitSlashes] at joined
  rw [String.toList_ofList]
  exact joined

theorem placeOf_sublist
    (key : String) :
    ((placeOf key).map String.toList).Sublist (Path.splitSlashes key.toList) := by
  have atEnd : ((if FileTree.endsInSlash key = true then ["."] else []).filter (· ≠ ".")) = [] := by
    split <;> rfl
  have isNames : (namesOf key).map String.toList =
      (Path.splitSlashes key.toList).filter (· ≠ []) := by
    rw [namesOf, List.map_map]
    simp
  have fewer : (placeOf key).Sublist (namesOf key) := by
    rw [placeOf, stepsOf, List.filter_append, atEnd, List.append_nil]
    exact List.filter_sublist
  exact (fewer.map String.toList).trans (isNames ▸ List.filter_sublist)

section Names

variable {names : Place}

theorem backslash_not_mem_keyOfNames
    (names : Place) :
    '\\' ∉ (keyOfNames names).toList := by
  rw [keyOfNames, String.toList_ofList]
  intro member
  obtain ⟨character, _, isBackslash⟩ := List.mem_map.mp member
  split at isBackslash
  · exact absurd isBackslash (by decide)
  · exact absurd isBackslash ‹_›

theorem toList_keyOfNames
    (noBackslash : ∀ name ∈ names, '\\' ∉ name.toList) :
    (keyOfNames names).toList = Path.joinSlashes (names.map String.toList) := by
  have stays : ∀ character ∈ Path.joinSlashes (names.map String.toList),
      (if character = '\\' then '/' else character) = character := by
    intro character member
    refine if_neg ?_
    rintro rfl
    obtain slash | ⟨segment, isSegment, inSegment⟩ := Path.mem_joinSlashes member
    · exact absurd slash (by decide)
    · obtain ⟨name, isName, rfl⟩ := List.mem_map.mp isSegment
      exact noBackslash name isName inSegment
  rw [keyOfNames, String.toList_ofList, Path.intercalate_slash, List.map_congr_left stays,
    List.map_id']

section Spelled

variable (filled : names ≠ []) (areNames : ∀ name ∈ names, Path.IsName name)
  (noBackslash : ∀ name ∈ names, '\\' ∉ name.toList)

include filled areNames noBackslash

theorem splitSlashes_keyOfNames :
    Path.splitSlashes (keyOfNames names).toList = names.map String.toList := by
  rw [toList_keyOfNames noBackslash]
  refine Path.splitSlashes_joinSlashes (by simpa using filled) ?_
  simpa using fun name isName => (areNames name isName).noSlash

theorem namesOf_keyOfNames :
    namesOf (keyOfNames names) = names := by
  have notEmpty : (names.map String.toList).filter (· ≠ []) = names.map String.toList := by
    refine List.filter_eq_self.mpr ?_
    simpa using fun name isName => (areNames name isName).filled
  rw [namesOf, splitSlashes_keyOfNames filled areNames noBackslash, notEmpty, List.map_map]
  simp

theorem endsInSlash_keyOfNames :
    FileTree.endsInSlash (keyOfNames names) = false := by
  have isKey := toList_keyOfNames noBackslash
  obtain ⟨front, last, rfl⟩ := (List.eq_nil_or_concat' names).resolve_left filled
  have isLast := areNames last (by simp)
  obtain ⟨before, joined⟩ := Path.joinSlashes_concat (front.map String.toList) last.toList
  have lastFilled : last.toList ≠ [] := by simpa using isLast.filled
  rw [FileTree.endsInSlash, isKey, List.map_append, List.map_singleton, joined,
    List.getLast?_append_of_ne_nil _ lastFilled, beq_eq_false_iff_ne]
  exact fun slash => isLast.noSlash (List.mem_of_getLast? slash)

theorem isAbsolute_keyOfNames :
    Path.isAbsolute (keyOfNames names) = false := by
  -- Before a slash at the front would stand a segment that is empty.
  have segments := splitSlashes_keyOfNames filled areNames noBackslash
  rw [Path.isAbsolute, beq_eq_false_iff_ne]
  intro slash
  obtain ⟨rest, isAbsolute⟩ := List.head?_eq_some_iff.mp slash
  rw [isAbsolute, Path.splitSlashes, if_pos rfl] at segments
  obtain ⟨name, isName, empty⟩ := List.mem_map.mp (segments ▸ List.mem_cons_self)
  exact (areNames name isName).filled (String.toList_eq_nil_iff.mp empty)

/-- Names without backslashes have a key that is accepted. -/
theorem accepted_keyOfNames :
    Accepted (keyOfNames names) := by
  have isNames := namesOf_keyOfNames filled areNames noBackslash
  have relative := isAbsolute_keyOfNames filled areNames noBackslash
  have noUp : ['.', '.'] ∉ Path.splitSlashes (keyOfNames names).toList := by
    rw [splitSlashes_keyOfNames filled areNames noBackslash]
    intro member
    obtain ⟨name, isName, isUp⟩ := List.mem_map.mp member
    exact (areNames name isName).notUp (String.toList_injective isUp)
  constructor
  · intro empty
    rw [empty] at isNames
    exact absurd isNames.symm filled
  · obtain ⟨lead, isLead, steps⟩ := Path.components_relative relative
    rw [Path.filterMap_innerComponent? noUp] at steps
    rw [leadsOut, steps, List.any_eq_false]
    intro component member
    rcases List.mem_append.mp member with inLead | inNames
    · rcases isLead with rfl | rfl
      · exact absurd inLead List.not_mem_nil
      · simp [List.mem_singleton.mp inLead]
    · obtain ⟨name, _, rfl⟩ := List.mem_map.mp inNames
      simp

/-- The key of names leads by these names. -/
theorem stepsOf_keyOfNames :
    stepsOf (keyOfNames names) = names := by
  rw [stepsOf, namesOf_keyOfNames filled areNames noBackslash,
    endsInSlash_keyOfNames filled areNames noBackslash, if_neg Bool.false_ne_true, List.append_nil]

end Spelled

end Names

theorem mem_filesBelow_iff
    {tree : FileTree} {names : Place} {contents : ByteArray} :
    (names, contents) ∈ tree.filesBelow place ↔
      tree.entries.get? (place ++ names) = some (.file contents) := by
  rw [FileTree.filesBelow, List.mem_filterMap, ← Table.mem_entries_iff]
  constructor
  · rintro ⟨⟨other, entry⟩, isEntry, isFound⟩
    cases entry with
    | directory => exact nomatch isFound
    | file held =>
        simp only at isFound
        split at isFound
        · rename_i isBelow
          obtain ⟨rest, rfl⟩ := List.isPrefixOf_iff_prefix.mp isBelow
          rw [List.drop_left] at isFound
          obtain ⟨rfl, rfl⟩ := Prod.mk.inj (Option.some.inj isFound)
          exact isEntry
        · exact nomatch isFound
  · intro isEntry
    refine ⟨_, isEntry, ?_⟩
    have isBelow : place.isPrefixOf (place ++ names) = true :=
      List.isPrefixOf_iff_prefix.mpr (List.prefix_append place names)
    simp only [isBelow, if_true, List.drop_left]

theorem graphKeys_empty
    (tree : FileTree) :
    graphKeys tree "" = [] := by
  have nowhere : tree.locate "" = .error .notFound := rfl
  rw [graphKeys, nowhere]

/-- Below a directory are found the files whose names have the ending. -/
theorem mem_graphKeys_iff
    {tree : FileTree} {directory : String} (leads : tree.locate directory = .ok place)
    (isDirectory : tree.entryAt? place = some .directory) :
    key ∈ graphKeys tree directory ↔
      ∃ names contents, tree.entries.get? (place ++ names) = some (.file contents) ∧
        names.getLast?.any isGraphFile = true ∧ key = keyOfNames names := by
  simp only [graphKeys, leads, isDirectory, List.mem_mergeSort, List.mem_map, List.mem_filter,
    Prod.exists, mem_filesBelow_iff]
  refine exists_congr fun names => exists_congr fun contents => ?_
  rw [and_assoc, eq_comm (a := key)]

/-- A file that a key without backslashes leads to is reached as well by the key of its names, which
leads there without a detour. -/
theorem reaches_keyOfNames
    (reaches : files.Reaches key place) {contents : ByteArray}
    (isFile : files.tree.entryAt? place = some (.file contents))
    (noBackslash : '\\' ∉ key.toList) :
    files.Reaches (keyOfNames (placeOf key)) place ∧
      placeOf (keyOfNames (placeOf key)) = placeOf key := by
  obtain ⟨accepted, required, base, leads, walks⟩ := reaches_iff.mp reaches
  have someNames := placeOf_ne_nil accepted (reaches.asksFile isFile)
  have areNames : ∀ name ∈ placeOf key, Path.IsName name :=
    fun name isName => isName_of_mem_placeOf accepted isName
  have plain : ∀ name ∈ placeOf key, '\\' ∉ name.toList :=
    fun name isName inName => noBackslash ((sublist_of_mem_placeOf isName).subset inName)
  have foundAccepted := accepted_keyOfNames someNames areNames plain
  have steps := stepsOf_keyOfNames someNames areNames plain
  have isSublist : (keyOfNames (placeOf key)).toList.Sublist key.toList := by
    have joined := Path.joinSlashes_sublist (placeOf_sublist key)
    rwa [Path.joinSlashes_splitSlashes, ← toList_keyOfNames plain] at joined
  have stillRequired : FileTree.requirePath
      (Path.join files.root (keyOfNames (placeOf key))) = .ok () := by
    refine requirePath_of_sublist required (fun empty => ?_)
      (join_sublist files.root foundAccepted.relative accepted.relative isSublist)
    have inJoin := (sublist_join files.root foundAccepted.relative).2
    rw [empty] at inJoin
    exact foundAccepted.filled (String.toList_eq_nil_iff.mp (List.sublist_nil.mp inJoin))
  constructor
  · refine reaches_iff.mpr ⟨foundAccepted, stillRequired, base, leads, ?_⟩
    rw [steps]
    exact walk_filter walks
  · rw [placeOf, steps]
    exact List.filter_eq_self.mpr fun name isName => decide_eq_true (areNames name isName).notHere

/-- A file that a key leads to is found under a key that leads there, and that is a name for it
which stays as it is, exactly when the key has the ending of a graph file and no backslash. -/
theorem discovered_iff
    (reaches : files.Reaches key place) {contents : ByteArray}
    (isFile : files.tree.entryAt? place = some (.file contents)) :
    (∃ found ∈ graphKeys files.tree files.root, files.Reaches found place ∧
        graphKey found = found) ↔
      isGraphFile key = true ∧ '\\' ∉ key.toList ∧ files.root ≠ "" := by
  obtain ⟨accepted, _, base, leads, _⟩ := reaches_iff.mp reaches
  have isPlace := reaches.place_eq leads
  constructor
  · rintro ⟨found, isFound, foundReaches, stays⟩
    have filled : files.root ≠ "" := by
      intro empty
      rw [empty, graphKeys_empty] at isFound
      exact absurd isFound List.not_mem_nil
    obtain ⟨located, isDirectory⟩ := reaches.locate_root filled leads
    obtain ⟨names, _, _, _, rfl⟩ := (mem_graphKeys_iff located isDirectory).mp isFound
    have samePlace : placeOf (keyOfNames names) = placeOf key := by
      have isPlaceToo := foundReaches.place_eq leads
      rwa [isPlace, List.append_cancel_left_eq, eq_comm] at isPlaceToo
    obtain ⟨foundAccepted, _⟩ := reaches_iff.mp foundReaches
    have foundFile := graphKey_eq_self_iff.mp stays
    rw [isGraphFile_iff_placeOf foundAccepted, samePlace,
      ← isGraphFile_iff_placeOf accepted] at foundFile
    refine ⟨foundFile, fun backslash => ?_, filled⟩
    obtain ⟨name, isName, inName⟩ := mem_name_of_mem_key backslash (by decide) (by decide)
    rw [← samePlace] at isName
    exact backslash_not_mem_keyOfNames names ((sublist_of_mem_placeOf isName).subset inName)
  · rintro ⟨hasEnding, noBackslash, filled⟩
    obtain ⟨located, isDirectory⟩ := reaches.locate_root filled leads
    obtain ⟨foundReaches, foundPlace⟩ := reaches_keyOfNames reaches isFile noBackslash
    obtain ⟨foundAccepted, _⟩ := reaches_iff.mp foundReaches
    rw [isGraphFile_iff_placeOf accepted] at hasEnding
    have isThere : files.tree.entries.get? (base ++ placeOf key) = some (.file contents) := by
      have someNames := placeOf_ne_nil accepted (reaches.asksFile isFile)
      have below : place ≠ [] := isPlace ▸ List.append_ne_nil_of_right_ne_nil base someNames
      rw [FileTree.entryAt?, if_neg below, isPlace] at isFile
      exact isFile
    have isFound : keyOfNames (placeOf key) ∈ graphKeys files.tree files.root :=
      (mem_graphKeys_iff located isDirectory).mpr ⟨_, _, isThere, hasEnding, rfl⟩
    have stays : graphKey (keyOfNames (placeOf key)) = keyOfNames (placeOf key) := by
      rw [graphKey_eq_self_iff, isGraphFile_iff_placeOf foundAccepted, foundPlace]
      exact hasEnding
    exact ⟨_, isFound, foundReaches, stays⟩

end FileStorage

/-! ## New graphs -/

theorem backslash_mem_graphKey_iff
    {graph : String} :
    '\\' ∈ (graphKey graph).toList ↔ '\\' ∈ graph.toList := by
  cases isFile : isGraphFile graph with
  | true => rw [graphKey_of_isGraphFile isFile]
  | false =>
      have inEnding : '\\' ∉ '.' :: "json".toList := by decide
      rw [graphKey_of_not_isGraphFile isFile, List.mem_append, or_iff_left inEnding]

theorem Workspace.keys_ofProject
    (tree : FileTree) (project : Project) :
    (ofProject tree project).keys = graphKeys tree project.graphsPath := rfl

namespace CommandLine

open FileTree (WritesFile)

variable {surroundings : Surroundings} {tree : FileTree} {config graph : String}
  {packagePath? : Option String} {isCommand : Bool}

/-- A new graph is written where its key leads. -/
theorem reaches_of_newGraph
    (endsWell : ((Command.newGraph graph packagePath? isCommand).perform surroundings tree
      config).run.status.code = 0) :
    let final := ((Command.newGraph graph packagePath? isCommand).perform surroundings tree
      config).run.tree
    ∃ project made place, Project.loadOrDefault tree config = .ok project ∧
      (Command.newGraph graph packagePath? isCommand).fresh? = some made ∧
      FileStorage.Reaches ⟨project.graphsPath, final⟩ (graphKey graph) place ∧
      WritesFile tree final place made.text.toUTF8 := by
  intro final
  have edits : (Command.newGraph graph packagePath? isCommand).edited? = some graph := rfl
  obtain ⟨change, performed, ends⟩ := Command.ends_perform edits surroundings tree config
  rw [performed, Workspace.code_run_ofChange] at endsWell
  obtain ⟨project, made, isProject, ⟨found, finds, isMade⟩, place, isPlace, writes⟩ :=
    ends.succeeds endsWell
  have isFinal : final = change.2 := by
    rw [← Workspace.tree_run_ofChange change, ← performed]
  rw [← isFinal] at isPlace writes
  cases finds with
  | graph _ _ => exact nomatch isMade
  | nothing free =>
      obtain ⟨_, isPath⟩ := isPath_of_holds free
      have accepted := (FileStorage.path_eq_ok_iff.mp isPath).1
      exact ⟨project, made, place, isProject, isMade,
        ⟨_, FileStorage.path_eq_ok_iff.mpr ⟨accepted, rfl⟩, isPlace.leads⟩, writes⟩

/-- A new graph is written to one file, which is read under every key that leads to it. This file
is found among the graphs of the project, under a key that leads to it and names it as it is,
exactly when the user has named the graph by something that does not end in a slash and has no
backslash, and the directory of the graphs has a path. -/
theorem newGraph_discovered_iff
    (endsWell : ((Command.newGraph graph packagePath? isCommand).perform surroundings tree
      config).run.status.code = 0) :
    let final := ((Command.newGraph graph packagePath? isCommand).perform surroundings tree
      config).run.tree
    ∃ project made place, Project.loadOrDefault tree config = .ok project ∧
      (Command.newGraph graph packagePath? isCommand).fresh? = some made ∧
      let files : FileStorage := ⟨project.graphsPath, final⟩
      files.Reaches (graphKey graph) place ∧ WritesFile tree final place made.text.toUTF8 ∧
      (∀ key, files.Reaches key place → Storage.read files key = .ok made.text.toUTF8) ∧
      ((∃ key ∈ (Workspace.ofProject final project).keys,
          files.Reaches key place ∧ graphKey key = key) ↔
        (graph ≠ "" ∧ FileTree.endsInSlash graph = false) ∧ '\\' ∉ graph.toList ∧
          project.graphsPath ≠ "") := by
  intro final
  obtain ⟨project, made, place, isProject, isMade, reaches, writes⟩ :=
    reaches_of_newGraph endsWell
  refine ⟨project, made, place, isProject, isMade, reaches, writes,
    fun key keyReaches => keyReaches.read_eq writes.written, ?_⟩
  obtain ⟨accepted, _⟩ := FileStorage.reaches_iff.mp reaches
  have asksFile := reaches.asksFile writes.written
  rw [← isGraphFile_graphKey_iff accepted asksFile, ← backslash_mem_graphKey_iff]
  exact FileStorage.discovered_iff reaches writes.written

/-- The file of a graph that is named by a directory is hidden. -/
theorem newGraph_discovered_iff_directory :
    let surroundings : Surroundings := ⟨fun _ _ => .error .notFound, .ok "", none⟩
    let run := ((Command.newGraph "x/" none true).perform surroundings Workspace.noFiles
      "chanweave.yaml").run
    let files : FileStorage := ⟨"./graphs", run.tree⟩
    run.status.code = 0 ∧ graphKey "x/" = "x/.json" ∧
      ∃ place, files.Reaches "x/.json" place ∧
        Storage.read files "x/.json" =
          .ok (Graph.empty ".json" "example.com/.json" true).text.toUTF8 ∧
        ¬ ∃ key ∈ graphKeys run.tree "./graphs", files.Reaches key place ∧ graphKey key = key := by
  intro surroundings run files
  have endsWell : run.status.code = 0 := by decide +kernel
  have isDefault : Project.loadOrDefault Workspace.noFiles "chanweave.yaml" =
      .ok (Project.ofDirectory ".") := by decide +kernel
  have isKey : graphKey "x/" = "x/.json" := by decide +kernel
  have isPath : (Project.ofDirectory ".").graphsPath = "./graphs" := by decide +kernel
  have isFresh : (Command.newGraph "x/" none true).fresh? =
      some (Graph.empty ".json" "example.com/.json" true) := by decide +kernel
  obtain ⟨project, made, place, isProject, isMade, reaches, _, reads, found_iff⟩ :=
    newGraph_discovered_iff endsWell
  obtain rfl := Except.ok.inj (isDefault.symm.trans isProject)
  obtain rfl := Option.some.inj (isFresh.symm.trans isMade)
  rw [isPath, isKey] at reaches
  rw [Workspace.keys_ofProject, isPath] at found_iff
  rw [isPath] at reads
  refine ⟨endsWell, isKey, place, reaches, reads _ reaches, fun found => ?_⟩
  have named := (found_iff.mp found).1.2
  exact absurd named (by decide)

end CommandLine

end Pipework
