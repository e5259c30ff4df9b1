import Pipework.Proofs.FileTree.Below
import Pipework.Proofs.FileTree.Changes

/-!
# Directories on the way of a path

Directories are made only on the way of the path that is asked for: each of them is where some of
the first names of the path lead (`FileTree.onTheWay_of_makeDirectories`). A path behind that of a
directory leads on from there (`FileTree.locate_join_eq_ok_iff`). How a walk along names that never
go up ends hangs on what stands on its way: directories lead on, and where nothing stands there is
nothing to be found (`FileTree.walk_of_directories`, `FileTree.walk_of_noFile`).
-/

namespace Pipework

/-! ## Names of the path without its last step -/

namespace Path

theorem splitSlashes_joinSlashes
    {segments : List (List Char)} (filled : segments ≠ [])
    (noSlash : ∀ segment ∈ segments, '/' ∉ segment) :
    splitSlashes (joinSlashes segments) = segments := by
  induction segments with
  | nil => exact absurd rfl filled
  | cons first rest inductionHypothesis =>
      obtain ⟨firstPlain, restPlain⟩ := List.forall_mem_cons.mp noSlash
      cases rest with
      | nil => exact splitSlashes_of_noSlash firstPlain
      | cons second others =>
          have restSplit := inductionHypothesis (List.cons_ne_nil second others) restPlain
          rw [joinSlashes, splitSlashes_append, splitSlashes_of_noSlash firstPlain, restSplit]
          · rfl
          · exact List.cons_ne_nil second others

/-- What is left of a text without its last step has the first of its segments. -/
theorem exists_segments_of_shorter
    {absolute : Bool} {text kept : List Char}
    (isShorter : parent?.shorter absolute text = some kept) :
    ∃ segments, segments <+: splitSlashes text ∧ kept = joinSlashes segments := by
  rw [parent?.shorter] at isShorter
  split at isShorter
  · simp at isShorter
  · rename_i last rest steps
    refine ⟨(dropIdle absolute rest).reverse, ?_, (Option.some.inj isShorter).symm⟩
    have inSteps := dropIdle_suffix absolute (splitSlashes text).reverse
    have inRest := (dropIdle_suffix absolute rest).trans (List.suffix_cons last rest)
    rw [steps] at inSteps
    rw [← List.reverse_suffix, List.reverse_reverse]
    exact inRest.trans inSteps

theorem filled_of_shorter
    {absolute : Bool} {text kept : List Char}
    (isShorter : parent?.shorter absolute text = some kept) :
    (splitSlashes kept).filter (· ≠ []) <+: (splitSlashes text).filter (· ≠ []) := by
  obtain ⟨segments, isFront, rfl⟩ := exists_segments_of_shorter isShorter
  by_cases none : segments = []
  · rw [none]
    exact List.nil_prefix
  · have noSlash : ∀ segment ∈ segments, '/' ∉ segment :=
      fun segment member => not_mem_of_mem_splitSlashes (isFront.subset member)
    rw [splitSlashes_joinSlashes none noSlash]
    exact isFront.filter _

theorem isAbsolute_parent
    {path parent : String} (isParent : parent? path = some parent) :
    isAbsolute parent = isAbsolute path := by
  rw [parent?] at isParent
  split at isParent
  · rename_i rest isPath
    obtain ⟨kept, _, rfl⟩ := Option.map_eq_some_iff.mp isParent
    rw [isAbsolute, isAbsolute, isPath, String.toList_ofList]
    rfl
  · rename_i notRoot
    obtain ⟨kept, isShorter, rfl⟩ := Option.map_eq_some_iff.mp isParent
    obtain ⟨segments, isFront, rfl⟩ := exists_segments_of_shorter isShorter
    rw [isAbsolute, isAbsolute, String.toList_ofList]
    cases isPath : path.toList with
    | nil =>
        rw [isPath] at isShorter
        simp [parent?.shorter, splitSlashes, dropIdle] at isShorter
    | cons first others =>
        have notSlash : first ≠ '/' := by
          rintro rfl
          exact notRoot others isPath
        have relative : ((first :: others).head? == some '/') = false := by simpa using notSlash
        rw [relative, beq_eq_false_iff_ne]
        -- The first segment starts as the path does, which is no slash.
        rw [isPath, splitSlashes, if_neg notSlash] at isFront
        cases segments with
        | nil => simp [joinSlashes]
        | cons segment more =>
            split at isFront
            · obtain ⟨rfl, _⟩ := List.cons_prefix_cons.mp isFront
              cases more <;> simpa [joinSlashes] using notSlash
            · obtain ⟨rfl, _⟩ := List.cons_prefix_cons.mp isFront
              cases more <;> simpa [joinSlashes] using notSlash

theorem exists_join
    (base : String) :
    ∃ front, ∀ {path}, isAbsolute path = false → join base path = front ++ path := by
  by_cases plain : (base.isEmpty || base.toList.getLast? == some '/') = true
  · refine ⟨base, fun relative => ?_⟩
    rw [join, relative, if_neg Bool.false_ne_true, if_pos plain]
  · refine ⟨base ++ "/", fun relative => ?_⟩
    rw [join, relative, if_neg Bool.false_ne_true, if_neg plain]

end Path

namespace FileTree

theorem namesOf_parent
    {path parent : String} (isParent : Path.parent? path = some parent) :
    namesOf parent <+: namesOf path := by
  rw [Path.parent?] at isParent
  split at isParent
  · rename_i rest isPath
    obtain ⟨kept, isShorter, rfl⟩ := Option.map_eq_some_iff.mp isParent
    rw [namesOf, namesOf, isPath, String.toList_ofList]
    simpa [Path.splitSlashes] using (Path.filled_of_shorter isShorter).map String.ofList
  · obtain ⟨kept, isShorter, rfl⟩ := Option.map_eq_some_iff.mp isParent
    rw [namesOf, namesOf, String.toList_ofList]
    exact (Path.filled_of_shorter isShorter).map String.ofList

/-! ## Where directories are made -/

section Makes

variable {tree next : FileTree} {path : String} {place : Place}

/-- A slash at the end of a path leads nowhere else. -/
theorem walk_namesOf
    {start : Place} (leads : tree.walk start (stepsOf path) = .ok place) :
    tree.walk start (namesOf path) = .ok place := by
  rw [stepsOf] at leads
  split at leads
  · rw [walk_append, bind_eq_ok_iff] at leads
    obtain ⟨found, toFound, onwards⟩ := leads
    obtain ⟨_, _, same⟩ := walk_cons_eq_ok_iff.mp onwards
    rw [toFound]
    exact same
  · rw [List.append_nil] at leads
    exact leads

theorem walk_of_makeDirectory
    (plain : withoutEndSlashes path = path) (made : tree.makeDirectory path = .ok next)
    (nothing : tree.entryAt? place = none) (isMade : next.entryAt? place = some .directory) :
    next.walk (tree.startOf path) (namesOf path) = .ok place := by
  have keeps := (makeDirectory_makes made).keepsDirectories
  obtain ⟨found, leads, free, rfl⟩ := makeDirectory_eq_ok_iff.mp made
  rw [entryAt?_put tree (ne_nil_of_noEntry free)] at isMade
  split at isMade
  · rename_i same
    rw [plain, locate_eq_ok_iff] at leads
    rw [same]
    exact keeps.walk (walk_namesOf leads.2)
  · rw [nothing] at isMade
    exact nomatch isMade

/-- Some of the first names of a path lead to a place. -/
def OnTheWay (tree : FileTree) (path : String) (place : Place) : Prop :=
  ∃ front, front <+: namesOf path ∧ tree.walk (tree.startOf path) front = .ok place

theorem OnTheWay.mono
    (onTheWay : tree.OnTheWay path place) (keeps : KeepsDirectories tree next) :
    next.OnTheWay path place := by
  obtain ⟨front, isFront, leads⟩ := onTheWay
  refine ⟨front, isFront, ?_⟩
  rw [keeps.startOf]
  exact keeps.walk leads

theorem OnTheWay.of_parent
    {parent : String} (isParent : Path.parent? path = some parent)
    (onTheWay : tree.OnTheWay parent place) :
    tree.OnTheWay path place := by
  obtain ⟨front, isFront, leads⟩ := onTheWay
  refine ⟨front, isFront.trans (namesOf_parent isParent), ?_⟩
  rw [startOf, ← Path.isAbsolute_parent isParent]
  exact leads

theorem onTheWay_of_makeDirectory
    (plain : withoutEndSlashes path = path) (made : tree.makeDirectory path = .ok next)
    (nothing : tree.entryAt? place = none) (isMade : next.entryAt? place = some .directory) :
    next.OnTheWay path place := by
  refine ⟨namesOf path, List.prefix_refl _, ?_⟩
  rw [(makeDirectory_makes made).keepsDirectories.startOf]
  exact walk_of_makeDirectory plain made nothing isMade

theorem onTheWay_of_makeDirectoriesWithin
    {fuel : Nat} {outcome : Except OsError Unit} (plain : withoutEndSlashes path = path)
    (made : tree.makeDirectoriesWithin fuel path = (outcome, next))
    (nothing : tree.entryAt? place = none) (isMade : next.entryAt? place = some .directory) :
    next.OnTheWay path place := by
  induction fuel generalizing path outcome next with
  | zero =>
      obtain ⟨_, rfl⟩ := Prod.mk.inj made
      exact nomatch nothing.symm.trans isMade
  | succ fuel inductionHypothesis =>
      rw [makeDirectoriesWithin] at made
      split at made
      · obtain ⟨_, rfl⟩ := Prod.mk.inj made
        exact nomatch nothing.symm.trans isMade
      · split at made
        · rename_i ready alone
          obtain ⟨_, rfl⟩ := Prod.mk.inj made
          exact onTheWay_of_makeDirectory plain alone nothing isMade
        · split at made
          · obtain ⟨_, rfl⟩ := Prod.mk.inj made
            exact nomatch nothing.symm.trans isMade
          · rename_i parent isParent
            have parentPlain := Path.withoutEndSlashes_parent isParent
            split at made
            · rename_i partly above
              obtain ⟨_, rfl⟩ := Prod.mk.inj made
              exact (inductionHypothesis parentPlain above isMade).of_parent isParent
            · rename_i ready above
              have ofParent (wasMade : ready.entryAt? place = some .directory) :
                  ready.OnTheWay path place :=
                (inductionHypothesis parentPlain above wasMade).of_parent isParent
              split at made
              · rename_i last alone
                obtain ⟨_, rfl⟩ := Prod.mk.inj made
                have makes := makeDirectoriesWithin_makes fuel tree parent
                rw [above] at makes
                -- A directory that is there in the end was made above the last one, or is it.
                rcases makes.entry place with same | ⟨_, wasMade⟩
                · exact onTheWay_of_makeDirectory plain alone (same.trans nothing) isMade
                · exact (ofParent wasMade).mono (makeDirectory_makes alone).keepsDirectories
              · obtain ⟨_, rfl⟩ := Prod.mk.inj made
                exact ofParent isMade
        · obtain ⟨_, rfl⟩ := Prod.mk.inj made
          exact nomatch nothing.symm.trans isMade

/-- Directories are made nowhere but on the way of the path. -/
theorem onTheWay_of_makeDirectories
    {outcome : Except OsError Unit} (plain : withoutEndSlashes path = path)
    (made : tree.makeDirectories path = (outcome, next)) (nothing : tree.entryAt? place = none)
    (isMade : next.entryAt? place = some .directory) :
    next.OnTheWay path place :=
  onTheWay_of_makeDirectoriesWithin plain made nothing isMade

end Makes

/-! ## Paths in a directory -/

section Join

variable {tree : FileTree} {base path longer : String} {start place : Place}
  (relative : Path.isAbsolute path = false) (filled : path ≠ "")

include relative filled

/-- In a directory whose path can be walked with a longer path behind it, a shorter one can. -/
theorem requirePath_join_of_shorter
    (noNull : '\x00' ∉ path.toList) (noLonger : path.utf8ByteSize ≤ longer.utf8ByteSize)
    (longerRelative : Path.isAbsolute longer = false)
    (taken : requirePath (Path.join base longer) = .ok ()) :
    requirePath (Path.join base path) = .ok () := by
  obtain ⟨front, joined⟩ := Path.exists_join base
  rw [joined relative, requirePath_eq_ok_iff, String.toList_append, String.utf8ByteSize_append]
  rw [joined longerRelative, requirePath_eq_ok_iff, String.toList_append,
    String.utf8ByteSize_append] at taken
  obtain ⟨without, _, isShort⟩ := taken
  refine ⟨fun member => ?_, ?_, by omega⟩
  · rcases List.mem_append.mp member with inFront | inPath
    · exact without (List.mem_append_left _ inFront)
    · exact noNull inPath
  · rw [ne_eq, String.append_eq_empty_iff]
    exact fun both => filled both.2

/-- A path behind that of a place leads on from this place. -/
theorem locate_join_eq_ok_iff
    (toBase : tree.locate base = .ok start) :
    tree.locate (Path.join base path) = .ok place ↔
      requirePath (Path.join base path) = .ok () ∧ tree.walk start (stepsOf path) = .ok place := by
  have walks := walk_namesOf (locate_eq_ok_iff.mp toBase).2
  rw [locate_eq_ok_iff, startOf_join tree relative, stepsOf_join base relative filled, walk_append,
    walks]
  rfl

theorem directory_of_locate_join
    (toBase : tree.locate base = .ok start) (someStep : stepsOf path ≠ [])
    (leads : tree.locate (Path.join base path) = .ok place) :
    tree.entryAt? start = some .directory := by
  have walks := ((locate_join_eq_ok_iff relative filled toBase).mp leads).2
  obtain ⟨step, steps, isSteps⟩ := List.exists_cons_of_ne_nil someStep
  rw [isSteps] at walks
  exact (walk_cons_eq_ok_iff.mp walks).1

end Join

/-- In a directory, the path of a name leads to the place of this name. -/
theorem locate_join_of_name
    {tree : FileTree} {base name : String} {start : Place} (isName : Path.IsName name)
    (isShort : name.utf8ByteSize ≤ longestName)
    (isPath : requirePath (Path.join base name) = .ok ()) (toBase : tree.locate base = .ok start)
    (isDirectory : tree.entryAt? start = some .directory) :
    tree.locate (Path.join base name) = .ok (start ++ [name]) := by
  have noSlash : endsInSlash name = false := by
    rw [endsInSlash, beq_eq_false_iff_ne]
    exact fun slash => isName.noSlash (List.mem_of_getLast? slash)
  have isStep : stepsOf name = [name] := by
    rw [stepsOf, namesOf_name isName, noSlash]
    rfl
  have isOn : advance start name = start ++ [name] := by
    rw [advance, if_neg isName.notHere, if_neg isName.notUp]
  refine (locate_join_eq_ok_iff isName.isAbsolute isName.filled toBase).mpr ⟨isPath, ?_⟩
  rw [isStep]
  exact walk_cons_eq_ok_iff.mpr ⟨isDirectory, isShort, congrArg Except.ok isOn⟩

/-- A path that leads on behind another one leads out of a directory. -/
theorem isDirectory_of_locate_join
    {tree : FileTree} {base path : String} {place : Place}
    (isBase : requirePath base = .ok ()) (relative : Path.isAbsolute path = false)
    (filled : namesOf path ≠ []) (leads : tree.locate (Path.join base path) = .ok place) :
    tree.isDirectory base = true := by
  have walks := (locate_eq_ok_iff.mp leads).2
  rw [startOf_join tree relative, stepsOf, namesOf_join relative, List.append_assoc, walk_append,
    bind_eq_ok_iff] at walks
  obtain ⟨start, toStart, onwards⟩ := walks
  obtain ⟨name, names, isNames⟩ := List.exists_cons_of_ne_nil filled
  rw [isNames, List.cons_append] at onwards
  obtain ⟨isDirectory, -, -⟩ := walk_cons_eq_ok_iff.mp onwards
  refine isDirectory_iff.mpr ⟨start, locate_eq_ok_iff.mpr ⟨isBase, ?_⟩, isDirectory⟩
  rw [stepsOf, walk_append, toStart]
  cases endsInSlash base with
  | false => rfl
  | true => exact walk_cons_eq_ok_iff.mpr ⟨isDirectory, by decide, rfl⟩

/-- A path leads to a place of its last name. -/
theorem getLast?_of_locate
    {tree : FileTree} {path name : String} {place : Place}
    (isLast : (namesOf path).getLast? = some name) (notDots : name ≠ "." ∧ name ≠ "..")
    (leads : tree.locate path = .ok place) :
    place.getLast? = some name := by
  obtain ⟨front, isNames⟩ := List.getLast?_eq_some_iff.mp isLast
  obtain ⟨start, _, rfl⟩ := eq_append_of_locate isNames
    (List.forall_mem_singleton.mpr notDots.2) leads
  rw [List.filter_cons_of_pos (by simpa using notDots.1), List.filter_nil, List.getLast?_concat]

/-- A relative path leads to a place of its last name from any base. -/
theorem getLast?_of_locate_join
    {tree : FileTree} {base path name : String} {place : Place}
    (relative : Path.isAbsolute path = false) (isLast : (namesOf path).getLast? = some name)
    (notDots : name ≠ "." ∧ name ≠ "..") (leads : tree.locate (Path.join base path) = .ok place) :
    place.getLast? = some name := by
  refine getLast?_of_locate ?_ notDots leads
  rw [namesOf_join relative, List.getLast?_append, isLast]
  rfl

/-- Where a path leads, a directory is made or is there already, unless a file is in its way. -/
theorem makeDirectories_of_locate
    {tree : FileTree} {path : String} {place : Place} (plain : withoutEndSlashes path = path)
    (leads : tree.locate path = .ok place) :
    tree.makeDirectories path =
      match tree.entryAt? place with
      | none => (.ok (), tree.put place .directory)
      | some .directory => (.ok (), tree)
      | some (.file _) => (.error .alreadyExists, tree) := by
  have filled : ¬ path.isEmpty = true := fun empty =>
    (requirePath_eq_ok_iff.mp (locate_eq_ok_iff.mp leads).1).2.1 (String.isEmpty_iff.mp empty)
  have leadsPlain : tree.locate (withoutEndSlashes path) = .ok place := plain.symm ▸ leads
  rw [makeDirectories, makeDirectoriesWithin, if_neg filled, makeDirectory, leadsPlain]
  cases found : tree.entryAt? place with
  | none => simp only [bind, Except.bind, found]; rfl
  | some entry =>
      have isThere := entry_eq_ok_iff.mpr ⟨place, leads, found⟩
      cases entry <;> simp [bind, Except.bind, found, isDirectory, isThere] <;> rfl

/-! ## How a walk ends -/

section Walks

variable {tree : FileTree} {start place : Place} {steps : List String}

theorem short_of_walk
    (leads : tree.walk start steps = .ok place) :
    ∀ step ∈ steps, step.utf8ByteSize ≤ longestName := by
  induction steps generalizing start with
  | nil => exact fun step member => absurd member List.not_mem_nil
  | cons step others inductionHypothesis =>
      obtain ⟨_, isShort, onwards⟩ := walk_cons_eq_ok_iff.mp leads
      exact List.forall_mem_cons.mpr ⟨isShort, inductionHypothesis onwards⟩

theorem names_ne_nil
    (filled : steps ≠ []) (named : steps.getLast? ≠ some ".") :
    steps.filter (· ≠ ".") ≠ [] := by
  obtain ⟨last, isLast⟩ := Option.ne_none_iff_exists'.mp (mt List.getLast?_eq_none_iff.mp filled)
  have notHere : last ≠ "." := fun here => named (here ▸ isLast)
  have member : last ∈ steps.filter (· ≠ ".") :=
    List.mem_filter.mpr ⟨List.mem_of_getLast? isLast, by simpa using notHere⟩
  exact List.ne_nil_of_mem member

/-- Where a walk to a directory starts is a directory. -/
theorem isDirectory_of_walk_to
    (isDirectory : tree.entryAt? place = some .directory)
    (leads : tree.walk start steps = .ok place) :
    tree.entryAt? start = some .directory := by
  cases steps with
  | nil =>
      obtain rfl : start = place := Except.ok.inj leads
      exact isDirectory
  | cons step others => exact (walk_cons_eq_ok_iff.mp leads).1

theorem isDirectory_of_last_here
    (last : steps.getLast? = some ".") (leads : tree.walk start steps = .ok place) :
    tree.entryAt? place = some .directory := by
  obtain ⟨front, rfl⟩ := List.getLast?_eq_some_iff.mp last
  rw [walk_append, bind_eq_ok_iff] at leads
  obtain ⟨found, _, onwards⟩ := leads
  obtain ⟨isDirectory, _, same⟩ := walk_cons_eq_ok_iff.mp onwards
  have stays : found = place := Except.ok.inj same
  rw [← stays]
  exact isDirectory

variable (noUp : ∀ step ∈ steps, step ≠ "..")

include noUp

/-- A walk that leads somewhere goes through directories. -/
theorem isDirectory_of_walk
    (leads : tree.walk start steps = .ok place) {rest : Place}
    (isFront : rest <+: steps.filter (· ≠ ".")) (proper : rest ≠ steps.filter (· ≠ ".")) :
    tree.entryAt? (start ++ rest) = some .directory := by
  induction steps generalizing start rest with
  | nil => exact absurd (List.prefix_nil.mp isFront) proper
  | cons step others inductionHypothesis =>
      obtain ⟨notUp, othersNoUp⟩ := List.forall_mem_cons.mp noUp
      obtain ⟨isDirectory, _, onwards⟩ := walk_cons_eq_ok_iff.mp leads
      by_cases here : step = "."
      · rw [advance, if_pos here] at onwards
        rw [List.filter_cons_of_neg (by simp [here])] at isFront proper
        exact inductionHypothesis othersNoUp onwards isFront proper
      · rw [advance, if_neg here, if_neg notUp] at onwards
        rw [List.filter_cons_of_pos (by simp [here])] at isFront proper
        cases rest with
        | nil =>
            rw [List.append_nil]
            exact isDirectory
        | cons first more =>
            obtain ⟨rfl, moreFront⟩ := List.cons_prefix_cons.mp isFront
            have moreProper : more ≠ others.filter (· ≠ ".") := fun same => proper (same ▸ rfl)
            have further := inductionHypothesis othersNoUp onwards moreFront moreProper
            rw [List.append_assoc] at further
            exact further

variable (short : ∀ step ∈ steps, step.utf8ByteSize ≤ longestName)

include short

/-- A walk through directories leads on to its end, unless it ends in a dot. -/
theorem walk_of_directories
    (named : steps.getLast? ≠ some ".")
    (directories : ∀ rest, rest <+: steps.filter (· ≠ ".") → rest ≠ steps.filter (· ≠ ".") →
      tree.entryAt? (start ++ rest) = some .directory) :
    tree.walk start steps = .ok (start ++ steps.filter (· ≠ ".")) := by
  induction steps generalizing start with
  | nil => rw [List.filter_nil, List.append_nil, walk]
  | cons step others inductionHypothesis =>
      obtain ⟨notUp, othersNoUp⟩ := List.forall_mem_cons.mp noUp
      obtain ⟨isShort, othersShort⟩ := List.forall_mem_cons.mp short
      have othersNamed : others.getLast? ≠ some "." := by
        cases others with
        | nil => simp
        | cons second more => rwa [List.getLast?_cons_cons] at named
      have someName := names_ne_nil (List.cons_ne_nil step others) named
      have isDirectory := directories [] List.nil_prefix someName.symm
      rw [List.append_nil] at isDirectory
      refine walk_cons_eq_ok_iff.mpr ⟨isDirectory, isShort, ?_⟩
      by_cases here : step = "."
      · rw [List.filter_cons_of_neg (by simp [here])] at directories ⊢
        rw [advance, if_pos here]
        exact inductionHypothesis othersNoUp othersShort othersNamed directories
      · rw [List.filter_cons_of_pos (by simp [here])] at directories ⊢
        rw [advance, if_neg here, if_neg notUp, List.append_cons start step (others.filter _)]
        refine inductionHypothesis othersNoUp othersShort othersNamed fun rest isFront proper => ?_
        rw [← List.append_cons]
        refine directories (step :: rest) (List.cons_prefix_cons.mpr ⟨rfl, isFront⟩) ?_
        exact fun same => proper (List.cons.inj same).2

/-- A walk past no file leads to its end, or finds nothing on its way. -/
theorem walk_of_noFile
    (noFile : ∀ rest, rest <+: steps.filter (· ≠ ".") → ∀ contents,
      tree.entryAt? (start ++ rest) ≠ some (.file contents)) :
    tree.walk start steps = .ok (start ++ steps.filter (· ≠ ".")) ∨
      tree.walk start steps = .error .notFound := by
  induction steps generalizing start with
  | nil =>
      left
      rw [List.filter_nil, List.append_nil, walk]
  | cons step others inductionHypothesis =>
      obtain ⟨notUp, othersNoUp⟩ := List.forall_mem_cons.mp noUp
      obtain ⟨isShort, othersShort⟩ := List.forall_mem_cons.mp short
      have atStart := noFile [] List.nil_prefix
      rw [List.append_nil] at atStart
      rw [walk, requireDirectory]
      cases found : tree.entryAt? start with
      | none => exact Or.inr rfl
      | some entry =>
          cases entry with
          | file contents => exact absurd found (atStart contents)
          | directory =>
              have passes : ¬ longestName < step.utf8ByteSize := Nat.not_lt.mpr isShort
              simp only [bind, Except.bind, if_neg passes]
              by_cases here : step = "."
              · rw [List.filter_cons_of_neg (by simp [here])] at noFile ⊢
                rw [advance, if_pos here]
                exact inductionHypothesis othersNoUp othersShort noFile
              · rw [List.filter_cons_of_pos (by simp [here])] at noFile ⊢
                rw [advance, if_neg here, if_neg notUp, List.append_cons start step (others.filter _)]
                refine inductionHypothesis othersNoUp othersShort fun rest isFront => ?_
                rw [← List.append_cons]
                exact noFile (step :: rest) (List.cons_prefix_cons.mpr ⟨rfl, isFront⟩)

end Walks

end FileTree

end Pipework
