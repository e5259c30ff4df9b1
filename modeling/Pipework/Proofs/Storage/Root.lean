import Pipework.Proofs.Storage.Agreement

/-!
# Paths of keys below the root

The path of a key goes on behind the root by the names of the key, and never up
(`FileStorage.components_path`). It leads strictly below the root exactly when the key names
something: keys made of dots and slashes alone are accepted as well, and their path is that of the
root itself (`FileStorage.path_strictly_below_iff`).
-/

namespace Pipework

namespace Path

/-! ## Components of joined paths -/

theorem relativeComponents_append
    {front : List (List Char)} (filled : front ≠ []) (back : List (List Char)) :
    relativeComponents (front ++ back) =
      relativeComponents front ++ back.filterMap innerComponent? := by
  obtain ⟨first, rest, rfl⟩ := List.exists_cons_of_ne_nil filled
  rw [List.cons_append, relativeComponents, relativeComponents, List.filterMap_append,
    List.append_assoc]

/-- What stands behind a slash goes on behind what stands before it. -/
theorem components_behind_slash
    {path base : String} {back : List Char} (filled : base ≠ "")
    (isPath : path.toList = base.toList ++ '/' :: back) :
    components path = components base ++ (splitSlashes back).filterMap innerComponent? := by
  have notNil : base.toList ≠ [] := fun nothing => filled (String.toList_eq_nil_iff.mp nothing)
  obtain ⟨first, rest, isBase⟩ := List.exists_cons_of_ne_nil notNil
  rw [isBase, List.cons_append] at isPath
  by_cases slash : first = '/'
  · subst slash
    rw [components_of_root isPath, components_of_root isBase, splitSlashes_append,
      List.filterMap_append, List.cons_append]
  · have baseRelative : isAbsolute base = false := by
      simpa [isAbsolute, isBase] using slash
    have pathRelative : isAbsolute path = false := by
      simpa [isAbsolute, isPath] using slash
    rw [components_of_relative pathRelative, components_of_relative baseRelative, isPath, isBase,
      ← List.cons_append, splitSlashes_append, relativeComponents_append (splitSlashes_ne_nil _)]

theorem components_join
    {base path : String} (relative : isAbsolute path = false) (filled : base ≠ "") :
    components (join base path) =
      components base ++ (splitSlashes path.toList).filterMap innerComponent? := by
  have notEmpty : base.isEmpty = false := by simpa using filled
  rw [join, relative, if_neg Bool.false_ne_true]
  by_cases slash : base.toList.getLast? = some '/'
  · obtain ⟨front, isBase⟩ := List.getLast?_eq_some_iff.mp slash
    have isJoined : (base ++ path).toList = front ++ '/' :: path.toList := by
      rw [String.toList_append, isBase, List.append_assoc]
      rfl
    rw [if_pos (by simp [slash])]
    by_cases onlyRoot : front = []
    · subst onlyRoot
      rw [components_of_root isJoined, components_of_root isBase]
      rfl
    · have isFront : (String.ofList front).toList = front := String.toList_ofList
      have frontFilled : String.ofList front ≠ "" := by
        intro empty
        rw [← String.toList_eq_nil_iff, isFront] at empty
        exact onlyRoot empty
      rw [← isFront] at isBase isJoined
      rw [components_behind_slash frontFilled isJoined, components_behind_slash frontFilled isBase]
      simp [splitSlashes, innerComponent?]
  · have isJoined : (base ++ "/" ++ path).toList = base.toList ++ '/' :: path.toList := by
      rw [String.toList_append, String.toList_append, List.append_assoc]
      rfl
    rw [if_neg (by simp [notEmpty, slash])]
    exact components_behind_slash filled isJoined

/-- The steps between slashes of which none goes up are the names that count. -/
theorem filterMap_innerComponent?
    {segments : List (List Char)} (noUp : ['.', '.'] ∉ segments) :
    segments.filterMap innerComponent? =
      (((segments.filter (· ≠ [])).map String.ofList).filter (· ≠ ".")).map .name := by
  induction segments with
  | nil => rfl
  | cons segment rest inductionHypothesis =>
      rw [List.mem_cons, not_or] at noUp
      have restSteps := inductionHypothesis noUp.2
      by_cases empty : segment = []
      · subst empty
        rw [List.filterMap_cons_none rfl, restSteps, List.filter_cons_of_neg (by simp)]
      · rw [List.filter_cons_of_pos (by simpa using empty), List.map_cons]
        have here_iff : String.ofList segment = "." ↔ segment = ['.'] :=
          ⟨fun same => String.ofList_injective same, fun same => by rw [same]⟩
        by_cases here : segment = ['.']
        · subst here
          rw [List.filterMap_cons_none rfl, restSteps, List.filter_cons_of_neg (by simp)]
        · have isName : innerComponent? segment = some (.name (String.ofList segment)) := by
            rw [innerComponent?, if_neg (by simp [empty, here]), if_neg (Ne.symm noUp.1)]
          rw [List.filterMap_cons_some isName, restSteps,
            List.filter_cons_of_pos (by simpa [here_iff] using here), List.map_cons]

/-- A path goes on behind another one to a name, and never up. -/
def StrictlyBelow (root path : String) : Prop :=
  ∃ rest, components path = components root ++ rest ∧ (∃ name, .name name ∈ rest) ∧
    .up ∉ rest ∧ .root ∉ rest

end Path

namespace FileStorage

open FileTree (namesOf)

/-! ## Paths of keys -/

section Keys

variable {key : String} (accepted : Accepted key)

include accepted

theorem steps_eq_placeOf :
    (Path.splitSlashes key.toList).filterMap Path.innerComponent? =
      (placeOf key).map .name := by
  have noUp : ['.', '.'] ∉ Path.splitSlashes key.toList := by
    intro isSegment
    have inNames : ".." ∈ namesOf key :=
      List.mem_map.mpr ⟨_, List.mem_filter.mpr ⟨isSegment, by decide⟩, rfl⟩
    exact ne_up_of_leadsOut accepted.stays _ inNames rfl
  rw [Path.filterMap_innerComponent? noUp, placeOf, FileTree.stepsOf, List.filter_append]
  cases FileTree.endsInSlash key <;> simp [namesOf]

/-- The path of a key goes on behind the root by the names of the key. A dot in front of them
counts only where the root is empty. -/
theorem components_path
    (root : String) :
    ∃ lead, (lead = [] ∨ root = "" ∧ lead = [.here]) ∧
      Path.components (Path.join root key) =
        Path.components root ++ (lead ++ (placeOf key).map .name) := by
  rw [← steps_eq_placeOf accepted]
  by_cases empty : root = ""
  · subst empty
    obtain ⟨lead, isLead, steps⟩ := Path.components_relative accepted.relative
    have isKey : Path.join "" key = key := by simp [Path.join, accepted.relative]
    refine ⟨lead, isLead.imp_right fun here => ⟨rfl, here⟩, ?_⟩
    rw [isKey]
    exact steps
  · exact ⟨[], Or.inl rfl, Path.components_join accepted.relative empty⟩

theorem name_mem_components_iff
    {name : String} :
    .name name ∈ Path.components key ↔ name ∈ placeOf key := by
  obtain ⟨lead, isLead, steps⟩ := Path.components_relative accepted.relative
  rw [steps, steps_eq_placeOf accepted, List.mem_append]
  rcases isLead with rfl | rfl <;> simp

theorem strictlyBelow_iff
    (root : String) :
    Path.StrictlyBelow root (Path.join root key) ↔ ∃ name, .name name ∈ Path.components key := by
  obtain ⟨lead, isLead, steps⟩ := components_path accepted root
  simp only [name_mem_components_iff accepted]
  constructor
  · rintro ⟨rest, isRest, ⟨name, isName⟩, _⟩
    rw [steps, List.append_cancel_left_eq] at isRest
    rw [← isRest] at isName
    refine ⟨name, ?_⟩
    rcases isLead with rfl | ⟨_, rfl⟩ <;> simpa using isName
  · rintro ⟨name, isName⟩
    refine ⟨_, steps, ⟨name, ?_⟩, ?_⟩
    · exact List.mem_append_right _ (List.mem_map_of_mem isName)
    · rcases isLead with rfl | ⟨_, rfl⟩ <;> simp

end Keys

/-- Where a write was done, its key names a file. -/
theorem name_of_write
    {storage next : FileStorage} {key : String} {bytes : ByteArray}
    (isWritten : Storage.write storage key bytes = (.done, next)) :
    ∃ name, .name name ∈ Path.components key := by
  obtain ⟨path, isPath, ready, _, _, isName, tree, replaced, _⟩ :=
    write_eq_done_iff.mp isWritten
  obtain ⟨accepted, rfl⟩ := path_eq_ok_iff.mp isPath
  obtain ⟨_, place, target, _⟩ := (FileTree.replaceFile_eq_ok_iff isName).mp replaced
  obtain ⟨_, _, _, _, name, isLast, notDots, _⟩ := FileTree.moveTarget_eq_ok_iff.mp target
  have someNames := namesOf_ne_nil accepted.filled accepted.stays
  rw [FileTree.namesOf_join accepted.relative, List.getLast?_append_of_ne_nil _ someNames]
    at isLast
  refine ⟨name, (name_mem_components_iff accepted).mpr (List.mem_filter.mpr ⟨?_, ?_⟩)⟩
  · exact List.mem_append_left _ (List.mem_of_getLast? isLast)
  · simpa using fun here => notDots (Or.inl here)

/-- The path of a key that is accepted never leaves the root, and it leads strictly below it
exactly when the key names something; where it names nothing, it is the path of the root and no
write to it is done. A key that is refused has no other error than that it leads outside, whatever
is asked under it, and nothing is changed. -/
theorem path_strictly_below_iff
    (storage : FileStorage) (key : String) :
    (∀ path, storage.path key = .ok path →
      (∃ rest, Path.components path = Path.components storage.root ++ rest ∧
        .up ∉ rest ∧ .root ∉ rest) ∧
      (Path.StrictlyBelow storage.root path ↔ ∃ name, .name name ∈ Path.components key) ∧
      (¬ Path.StrictlyBelow storage.root path →
        ∀ bytes, (Storage.write storage key bytes).1 ≠ .done)) ∧
    ∀ error, storage.path key = .error error →
      error = .invalidName key .outside ∧
      Storage.read storage key = .error error ∧ Storage.holds storage key = .error error ∧
      ∀ bytes, Storage.write storage key bytes = (.failed error, storage) := by
  constructor
  · intro path isPath
    obtain ⟨accepted, rfl⟩ := path_eq_ok_iff.mp isPath
    have below_iff := strictlyBelow_iff accepted storage.root
    refine ⟨?_, below_iff, fun notBelow bytes isDone => notBelow (below_iff.mpr ?_)⟩
    · obtain ⟨lead, isLead, steps⟩ := components_path accepted storage.root
      refine ⟨_, steps, ?_⟩
      rcases isLead with rfl | ⟨_, rfl⟩ <;> simp
    · have isWritten : Storage.write storage key bytes =
          (.done, (Storage.write storage key bytes).2) := Prod.ext isDone rfl
      exact name_of_write isWritten
  · intro error refused
    refine ⟨?_, ?_, ?_, fun bytes => ?_⟩
    · rw [FileStorage.path, pathBelow] at refused
      split at refused
      · exact (Except.error.inj refused).symm
      · cases refused
    · simp only [Storage.read, look, refused]
      rfl
    · simp only [Storage.holds, look, refused]
      rfl
    · simp only [Storage.write, refused]

/-- The root itself has a key, of which nobody would say that it leads below the root. -/
example : (inGraphs.path ".").toOption = some "graphs/." ∧
    Path.components "graphs/." = Path.components "graphs" := by decide

end FileStorage

end Pipework
