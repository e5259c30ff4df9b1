import Pipework.Proofs.FileTree
import Pipework.Storage.Files

/-!
# Places below a directory

The steps of a path that is put behind a base are those of the base and then its own
(`FileTree.namesOf_join`), and steps that never go up lead below the place where they start
(`FileTree.eq_append_of_walk`). The name of a file is the last one of its path
(`Path.fileName?_of_namesOf`). So the file of a key lies below the directory of a storage, as far
as the key has a path there at all (`FileStorage.below_of_moveTarget`).
-/

namespace Pipework

/-! ## Slashes -/

namespace Path

theorem splitSlashes_append
    (front back : List Char) :
    splitSlashes (front ++ '/' :: back) = splitSlashes front ++ splitSlashes back := by
  induction front with
  | nil => simp [splitSlashes]
  | cons character rest inductionHypothesis =>
      rw [List.cons_append, splitSlashes, splitSlashes, inductionHypothesis]
      by_cases slash : character = '/'
      · rw [if_pos slash, if_pos slash]
        rfl
      · rw [if_neg slash, if_neg slash]
        cases segments : splitSlashes rest with
        | nil => exact absurd segments (splitSlashes_ne_nil rest)
        | cons segment more => rfl

theorem splitSlashes_of_noSlash
    {text : List Char} (noSlash : '/' ∉ text) :
    splitSlashes text = [text] := by
  induction text with
  | nil => rfl
  | cons character rest inductionHypothesis =>
      rw [List.mem_cons, not_or] at noSlash
      rw [splitSlashes, if_neg (Ne.symm noSlash.1), inductionHypothesis noSlash.2]

/-- A text that is the name of a file: no slash is in it, and it is no dot or two. -/
structure IsName (text : String) : Prop where
  filled : text ≠ ""
  notHere : text ≠ "."
  notUp : text ≠ ".."
  noSlash : '/' ∉ text.toList

theorem isName_iff
    {text : String} :
    IsName text ↔ text ≠ "" ∧ text ≠ "." ∧ text ≠ ".." ∧ '/' ∉ text.toList :=
  ⟨fun ⟨filled, notHere, notUp, noSlash⟩ => ⟨filled, notHere, notUp, noSlash⟩,
    fun ⟨filled, notHere, notUp, noSlash⟩ => ⟨filled, notHere, notUp, noSlash⟩⟩

instance (text : String) : Decidable (IsName text) := decidable_of_iff _ isName_iff.symm

theorem isAbsolute_of_noSlash
    {name : String} (noSlash : '/' ∉ name.toList) :
    isAbsolute name = false := by
  cases absolute : Path.isAbsolute name with
  | false => rfl
  | true =>
      have first : name.toList.head? = some '/' := by simpa [Path.isAbsolute] using absolute
      exact absurd (List.mem_of_head? first) noSlash

theorem IsName.isAbsolute
    {name : String} (isName : IsName name) :
    isAbsolute name = false :=
  isAbsolute_of_noSlash isName.noSlash

theorem isAbsolute_join
    {base path : String} (relative : isAbsolute path = false) :
    isAbsolute (join base path) = isAbsolute base := by
  rw [join, relative, if_neg Bool.false_ne_true]
  by_cases empty : base = ""
  · subst empty
    exact relative
  · have filled : base.toList ≠ [] := fun nothing => empty (String.toList_eq_nil_iff.mp nothing)
    obtain ⟨first, rest, isBase⟩ := List.exists_cons_of_ne_nil filled
    split
    · rw [isAbsolute, isAbsolute, String.toList_append, isBase]
      rfl
    · rw [isAbsolute, isAbsolute, String.toList_append, String.toList_append, isBase]
      rfl

theorem components_of_relative
    {path : String} (relative : isAbsolute path = false) :
    components path = relativeComponents (splitSlashes path.toList) := by
  rw [components]
  split
  · rename_i isPath
    rw [isAbsolute, isPath] at relative
    exact nomatch relative
  · rfl

theorem components_of_root
    {path : String} {rest : List Char} (isPath : path.toList = '/' :: rest) :
    components path = .root :: (splitSlashes rest).filterMap innerComponent? := by
  rw [components, isPath]
  rfl

/-- A relative path starts with a dot for the place itself, or with its first name. -/
theorem components_relative
    {path : String} (relative : isAbsolute path = false) :
    ∃ lead, (lead = [] ∨ lead = [.here]) ∧
      components path = lead ++ (splitSlashes path.toList).filterMap innerComponent? := by
  rw [components_of_relative relative]
  cases segments : splitSlashes path.toList with
  | nil => exact absurd segments (splitSlashes_ne_nil _)
  | cons first rest =>
      rw [relativeComponents]
      by_cases here : first = ['.']
      · refine ⟨[.here], Or.inr rfl, ?_⟩
        rw [if_pos here, here]
        rfl
      · refine ⟨[], Or.inl rfl, ?_⟩
        rw [if_neg here, List.filterMap_cons, List.nil_append]
        cases innerComponent? first <;> rfl

/-- The segments of a path stand for its steps, behind a lead in which no name is. -/
theorem exists_lead
    (path : String) :
    ∃ lead, (∀ name, .name name ∉ lead) ∧
      components path = lead ++ (splitSlashes path.toList).filterMap innerComponent? := by
  cases absolute : isAbsolute path with
  | true =>
      have isFirst : path.toList.head? = some '/' := by simpa [isAbsolute] using absolute
      obtain ⟨rest, isPath⟩ := List.head?_eq_some_iff.mp isFirst
      refine ⟨[.root], by simp, ?_⟩
      rw [components_of_root isPath, isPath, splitSlashes, if_pos rfl]
      rfl
  | false =>
      obtain ⟨lead, isLead, steps⟩ := components_relative absolute
      refine ⟨lead, ?_, steps⟩
      rcases isLead with rfl | rfl <;> simp

theorem mem_components_of_segment
    {path : String} {segment : List Char} (isSegment : segment ∈ splitSlashes path.toList)
    {component : Component} (stands : innerComponent? segment = some component) :
    component ∈ components path := by
  obtain ⟨lead, _, steps⟩ := exists_lead path
  rw [steps]
  exact List.mem_append_right lead (List.mem_filterMap.mpr ⟨segment, isSegment, stands⟩)

end Path

namespace FileTree

theorem namesOf_join
    {base path : String} (relative : Path.isAbsolute path = false) :
    namesOf (Path.join base path) = namesOf base ++ namesOf path := by
  rw [Path.join, relative, if_neg Bool.false_ne_true]
  by_cases empty : base = ""
  · subst empty
    rfl
  · have notEmpty : base.isEmpty = false := by simpa using empty
    by_cases slash : base.toList.getLast? = some '/'
    · obtain ⟨front, isBase⟩ := List.getLast?_eq_some_iff.mp slash
      have joined : (base ++ path).toList = front ++ '/' :: path.toList := by
        rw [String.toList_append, isBase, List.append_assoc]
        rfl
      rw [if_pos (by simp [slash]), namesOf, joined, namesOf, isBase, namesOf,
        Path.splitSlashes_append, Path.splitSlashes_append]
      simp [Path.splitSlashes]
    · have joined : (base ++ "/" ++ path).toList = base.toList ++ '/' :: path.toList := by
        rw [String.toList_append, String.toList_append, List.append_assoc]
        rfl
      rw [if_neg (by simp [notEmpty, slash]), namesOf, joined, namesOf, namesOf,
        Path.splitSlashes_append, List.filter_append, List.map_append]

theorem namesOf_of_noSlash
    {name : String} (filled : name ≠ "") (noSlash : '/' ∉ name.toList) :
    namesOf name = [name] := by
  have notNil : name.toList ≠ [] := fun nothing => filled (String.toList_eq_nil_iff.mp nothing)
  rw [namesOf, Path.splitSlashes_of_noSlash noSlash,
    List.filter_cons_of_pos (by simpa using notNil)]
  simp

theorem namesOf_name
    {name : String} (isName : Path.IsName name) :
    namesOf name = [name] :=
  namesOf_of_noSlash isName.filled isName.noSlash

theorem startOf_join
    (tree : FileTree) {base path : String} (relative : Path.isAbsolute path = false) :
    tree.startOf (Path.join base path) = tree.startOf base := by
  rw [startOf, startOf, Path.isAbsolute_join relative]

theorem endsInSlash_join
    (base : String) {path : String} (relative : Path.isAbsolute path = false)
    (filled : path ≠ "") :
    endsInSlash (Path.join base path) = endsInSlash path := by
  have ended : path.toList.getLast?.isSome = true :=
    List.getLast?_isSome.mpr fun nothing => filled (String.toList_eq_nil_iff.mp nothing)
  rw [Path.join, relative, if_neg Bool.false_ne_true, endsInSlash, endsInSlash]
  split
  · rw [String.toList_append, List.getLast?_append, Option.or_of_isSome ended]
  · rw [String.toList_append, List.getLast?_append, Option.or_of_isSome ended]

/-- A path that is put behind a base goes there and then by its own steps. -/
theorem stepsOf_join
    (base : String) {path : String} (relative : Path.isAbsolute path = false)
    (filled : path ≠ "") :
    stepsOf (Path.join base path) = namesOf base ++ stepsOf path := by
  rw [stepsOf, stepsOf, namesOf_join relative, endsInSlash_join base relative filled,
    List.append_assoc]

theorem eq_foldl_of_walk
    {tree : FileTree} {start place : Place} {steps : List String}
    (leads : tree.walk start steps = .ok place) :
    place = steps.foldl advance start := by
  induction steps generalizing start with
  | nil => exact (Except.ok.inj leads).symm
  | cons step rest inductionHypothesis =>
      obtain ⟨_, _, leadsOn⟩ := walk_cons_eq_ok_iff.mp leads
      exact inductionHypothesis leadsOn

theorem foldl_advance_of_noUp
    {names : List String} (noUp : ∀ name ∈ names, name ≠ "..") (start : Place) :
    names.foldl advance start = start ++ names.filter (· ≠ ".") := by
  induction names generalizing start with
  | nil => exact (List.append_nil start).symm
  | cons name rest inductionHypothesis =>
      obtain ⟨notUp, restNoUp⟩ := List.forall_mem_cons.mp noUp
      rw [List.foldl_cons, inductionHypothesis restNoUp, advance, if_neg notUp]
      by_cases here : name = "."
      · rw [if_pos here, List.filter_cons_of_neg (by simp [here])]
      · rw [if_neg here, List.filter_cons_of_pos (by simp [here]), List.append_assoc]
        rfl

/-- Steps that never go up lead on by their names; a dot leads nowhere. -/
theorem eq_append_of_walk
    {tree : FileTree} {start place : Place} {names : List String}
    (noUp : ∀ name ∈ names, name ≠ "..") (leads : tree.walk start names = .ok place) :
    place = start ++ names.filter (· ≠ ".") := by
  rw [eq_foldl_of_walk leads, foldl_advance_of_noUp noUp]

/-- The last names of a path lead on by themselves, as far as none of them goes up. -/
theorem eq_append_of_locate
    {tree : FileTree} {path : String} {place : Place} {front back : List String}
    (names : namesOf path = front ++ back) (noUp : ∀ name ∈ back, name ≠ "..")
    (leads : tree.locate path = .ok place) :
    ∃ start, tree.walk (tree.startOf path) front = .ok start ∧
      place = start ++ back.filter (· ≠ ".") := by
  have walks := (locate_eq_ok_iff.mp leads).2
  rw [stepsOf, names, List.append_assoc, walk_append, bind_eq_ok_iff] at walks
  obtain ⟨start, toStart, onwards⟩ := walks
  refine ⟨start, toStart, ?_⟩
  have stillNoUp : ∀ name ∈ back ++ (if endsInSlash path = true then ["."] else []),
      name ≠ ".." := by
    intro name member
    rcases List.mem_append.mp member with inBack | atEnd
    · exact noUp name inBack
    · cases slash : endsInSlash path with
      | false => simp [slash] at atEnd
      | true =>
          have isDot : name = "." := by simpa [slash] using atEnd
          rw [isDot]
          decide
  have isPlace := eq_append_of_walk stillNoUp onwards
  rw [List.filter_append] at isPlace
  cases slash : endsInSlash path with
  | false => simpa [slash] using isPlace
  | true => simpa [slash] using isPlace

end FileTree

/-! ## Names of files -/

namespace Path

theorem eq_of_innerComponent?
    {segment : List Char} {name : String} (stands : innerComponent? segment = some (.name name)) :
    segment = name.toList := by
  rw [innerComponent?] at stands
  split at stands
  · exact nomatch stands
  · split at stands
    · exact nomatch stands
    · rw [← Component.name.inj (Option.some.inj stands), String.toList_ofList]

theorem innerComponent?_name
    {name : String} (filled : name ≠ "") (notHere : name ≠ ".") (notUp : name ≠ "..") :
    innerComponent? name.toList = some (.name name) := by
  have notEmpty : name.toList ≠ [] := fun same => filled (String.toList_eq_nil_iff.mp same)
  have notDot : name.toList ≠ ['.'] := fun same => notHere (String.toList_inj.mp same)
  have notDots : name.toList ≠ ['.', '.'] := fun same => notUp (String.toList_inj.mp same)
  rw [innerComponent?, if_neg (not_or.mpr ⟨notEmpty, notDot⟩), if_neg notDots,
    String.ofList_toList]

theorem noSlash_of_fileName?
    {path name : String} (isName : fileName? path = some name) :
    '/' ∉ name.toList := by
  have isStep : .name name ∈ components path := by
    rw [fileName?] at isName
    split at isName
    · rename_i found isLast
      rw [← Option.some.inj isName]
      exact List.mem_of_getLast? isLast
    · exact nomatch isName
  obtain ⟨lead, noName, steps⟩ := exists_lead path
  rw [steps] at isStep
  obtain ⟨segment, inSegments, stands⟩ :=
    List.mem_filterMap.mp ((List.mem_append.mp isStep).resolve_left (noName name))
  rw [← eq_of_innerComponent? stands]
  exact not_mem_of_mem_splitSlashes inSegments

/-- The step for which the last segment of a path stands is its last one. -/
theorem getLast?_components
    {path : String} {segment : List Char} {component : Component}
    (ends : (splitSlashes path.toList).getLast? = some segment)
    (stands : innerComponent? segment = some component) :
    (components path).getLast? = some component := by
  obtain ⟨front, segments⟩ := List.getLast?_eq_some_iff.mp ends
  obtain ⟨lead, _, steps⟩ := exists_lead path
  rw [steps, segments, List.filterMap_append, List.filterMap_cons_some stands, List.filterMap_nil,
    ← List.append_assoc, List.getLast?_concat]

theorem exists_getLast?_splitSlashes
    (front : List Char) {last : Char} (notSlash : last ≠ '/') :
    ∃ before, (splitSlashes (front ++ [last])).getLast? = some (before ++ [last]) := by
  induction front with
  | nil =>
      refine ⟨[], ?_⟩
      rw [List.nil_append, splitSlashes, if_neg notSlash]
      rfl
  | cons character rest inductionHypothesis =>
      obtain ⟨before, ends⟩ := inductionHypothesis
      rw [List.cons_append, splitSlashes]
      split
      · exact ⟨before, by rw [List.getLast?_cons_of_ne_nil (splitSlashes_ne_nil _), ends]⟩
      · split
        · rename_i nothing
          exact absurd nothing (splitSlashes_ne_nil _)
        · rename_i segment more segments
          rw [segments] at ends
          cases more with
          | nil =>
              have isSegment : segment = before ++ [last] := Option.some.inj ends
              exact ⟨character :: before, by rw [isSegment]; rfl⟩
          | cons second others =>
              rw [List.getLast?_cons_of_ne_nil (List.cons_ne_nil _ _)] at ends
              exact ⟨before, by rw [List.getLast?_cons_of_ne_nil (List.cons_ne_nil _ _), ends]⟩

/-- The last name of a path that does not end in a slash is that of its file, unless it is a dot
or two. -/
theorem fileName?_of_namesOf
    {path name : String} (isLast : (FileTree.namesOf path).getLast? = some name)
    (noSlash : FileTree.endsInSlash path = false) (notDots : ¬ (name = "." ∨ name = "..")) :
    fileName? path = some name := by
  have filled : path.toList ≠ [] := by
    intro nothing
    rw [FileTree.namesOf, nothing] at isLast
    exact nomatch isLast
  obtain ⟨last, ended⟩ := Option.isSome_iff_exists.mp (List.getLast?_isSome.mpr filled)
  obtain ⟨front, isPath⟩ := List.getLast?_eq_some_iff.mp ended
  have notSlash : last ≠ '/' := by
    rintro rfl
    rw [FileTree.endsInSlash, ended] at noSlash
    exact nomatch noSlash
  obtain ⟨before, ends⟩ := exists_getLast?_splitSlashes front notSlash
  rw [← isPath] at ends
  obtain ⟨others, segments⟩ := List.getLast?_eq_some_iff.mp ends
  have isName : name = String.ofList (before ++ [last]) := by
    rw [FileTree.namesOf, segments, List.filter_append,
      List.filter_cons_of_pos (by simp), List.filter_nil, List.map_append, List.map_cons,
      List.map_nil, List.getLast?_concat] at isLast
    exact (Option.some.inj isLast).symm
  have isSegment : before ++ [last] = name.toList := by
    rw [isName, String.toList_ofList]
  have stands : innerComponent? name.toList = some (.name name) := by
    refine innerComponent?_name ?_ (fun here => notDots (.inl here)) fun up => notDots (.inr up)
    rintro rfl
    exact List.append_ne_nil_of_right_ne_nil before (List.cons_ne_nil last []) isSegment
  rw [fileName?, getLast?_components (isSegment ▸ ends) stands]

end Path

/-! ## Keys -/

namespace FileStorage

theorem pathBelow_eq_ok_iff
    {root key path : String} :
    pathBelow root key = .ok path ↔
      key ≠ "" ∧ leadsOut key = false ∧ path = Path.join root key := by
  rw [pathBelow]
  by_cases empty : key = ""
  · simp [empty]
  · cases leadsOut key <;> simp [empty, eq_comm (a := path)]

theorem isAbsolute_of_leadsOut
    {key : String} (stays : leadsOut key = false) :
    Path.isAbsolute key = false := by
  cases absolute : Path.isAbsolute key with
  | false => rfl
  | true =>
      have first : key.toList.head? = some '/' := by simpa [Path.isAbsolute] using absolute
      obtain ⟨rest, isKey⟩ := List.head?_eq_some_iff.mp first
      rw [leadsOut, Path.components, isKey] at stays
      simp at stays

theorem ne_up_of_leadsOut
    {key : String} (stays : leadsOut key = false) :
    ∀ name ∈ FileTree.namesOf key, name ≠ ".." := by
  rintro name isName rfl
  obtain ⟨segment, inNames, isUp⟩ := List.mem_map.mp isName
  have isSegment : segment = ['.', '.'] := String.ofList_injective isUp
  have inSegments := (List.mem_filter.mp inNames).1
  rw [isSegment] at inSegments
  have goesUp := Path.mem_components_of_segment inSegments rfl
  rw [leadsOut, List.any_eq_false] at stays
  exact stays _ goesUp (by simp)

theorem namesOf_ne_nil
    {key : String} (filled : key ≠ "") (stays : leadsOut key = false) :
    FileTree.namesOf key ≠ [] := by
  have relative := isAbsolute_of_leadsOut stays
  have notNil : key.toList ≠ [] := fun nothing => filled (String.toList_eq_nil_iff.mp nothing)
  obtain ⟨first, rest, isKey⟩ := List.exists_cons_of_ne_nil notNil
  have notSlash : first ≠ '/' := by
    rintro rfl
    simp [Path.isAbsolute, isKey] at relative
  have named : ∃ segment ∈ Path.splitSlashes key.toList, segment ≠ [] := by
    rw [isKey, Path.splitSlashes, if_neg notSlash]
    cases Path.splitSlashes rest with
    | nil => exact ⟨[first], List.mem_cons_self, List.cons_ne_nil _ _⟩
    | cons segment more => exact ⟨first :: segment, List.mem_cons_self, List.cons_ne_nil _ _⟩
  obtain ⟨segment, inSegments, isFilled⟩ := named
  have inNames : String.ofList segment ∈ FileTree.namesOf key :=
    List.mem_map_of_mem (List.mem_filter.mpr ⟨inSegments, by simpa using isFilled⟩)
  exact List.ne_nil_of_mem inNames

/-- The file of a key lies below the place to which the root leads. -/
theorem below_of_moveTarget
    {tree : FileTree} {root key path : String} {place : Place}
    (isPath : pathBelow root key = .ok path) (target : tree.moveTarget path = .ok place) :
    ∃ base rest, tree.walk (tree.startOf root) (FileTree.namesOf root) = .ok base ∧
      rest ≠ [] ∧ place = base ++ rest := by
  obtain ⟨filled, stays, rfl⟩ := pathBelow_eq_ok_iff.mp isPath
  have relative := isAbsolute_of_leadsOut stays
  have someNames := namesOf_ne_nil filled stays
  obtain ⟨_, directory, leads, _, name, _, _, _, _, isPlace, _⟩ :=
    FileTree.moveTarget_eq_ok_iff.mp target
  rw [FileTree.startOf_join tree relative, FileTree.namesOf_join relative,
    List.dropLast_append_of_ne_nil someNames, FileTree.walk_append, bind_eq_ok_iff] at leads
  obtain ⟨base, toBase, onwards⟩ := leads
  have noUp : ∀ name ∈ (FileTree.namesOf key).dropLast, name ≠ ".." :=
    fun name inFront => ne_up_of_leadsOut stays name (List.dropLast_subset _ inFront)
  have isDirectory := FileTree.eq_append_of_walk noUp onwards
  rw [isDirectory, List.append_assoc] at isPlace
  have filledRest := List.append_ne_nil_of_right_ne_nil
    ((FileTree.namesOf key).dropLast.filter (· ≠ ".")) (List.cons_ne_nil name [])
  exact ⟨base, _, toBase, filledRest, isPlace⟩

end FileStorage

end Pipework
