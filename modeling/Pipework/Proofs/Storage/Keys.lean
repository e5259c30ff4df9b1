import Pipework.Proofs.FileTree.Directories
import Pipework.Proofs.Table

/-!
# Keys as paths

To a storage of files a key is a path: empty names and dots do not count in it, and a slash or a
dot at its end asks for a directory. What a key comes to in this way is its normal key, and two
keys that are accepted have the same one exactly when they lead to the same place and ask for the
same (`FileStorage.normalKey_eq_iff`).
-/

namespace Pipework.FileStorage

open FileTree (namesOf stepsOf endsInSlash)

/-! ## What a key spells -/

/-- The names that lead from the root to the file of a key. -/
def placeOf (key : String) : Place := (stepsOf key).filter (· ≠ ".")

/-- Whether a key ends in a slash or a dot, so that only a directory can be under its path. -/
def asksDirectory (key : String) : Bool := (stepsOf key).getLast? = some "."

/-- The texts between the slashes of a key, without those that do not count. -/
def segmentsOf (key : String) : List (List Char) :=
  (placeOf key).map String.toList ++ if asksDirectory key then [[]] else []

/-- The shortest key for what a key spells. -/
def normalKey (key : String) : String := String.ofList (Path.joinSlashes (segmentsOf key))

example : normalKey "./graphs//a.json" = "graphs/a.json" := by decide

/-- A key that a storage of files accepts. -/
structure Accepted (key : String) : Prop where
  filled : key ≠ ""
  stays : leadsOut key = false

theorem path_eq_ok_iff
    {storage : FileStorage} {key path : String} :
    storage.path key = .ok path ↔ Accepted key ∧ path = Path.join storage.root key := by
  rw [FileStorage.path, pathBelow_eq_ok_iff, ← and_assoc]
  exact and_congr_left fun _ => ⟨fun ⟨filled, stays⟩ => ⟨filled, stays⟩,
    fun ⟨filled, stays⟩ => ⟨filled, stays⟩⟩

/-- The names of a path are those of files, of the directory itself and of the one above it. -/
theorem plain_of_mem_namesOf
    {path name : String} (member : name ∈ namesOf path) :
    name.toList ≠ [] ∧ '/' ∉ name.toList := by
  obtain ⟨segment, isSegment, rfl⟩ := List.mem_map.mp member
  obtain ⟨inSegments, filled⟩ := List.mem_filter.mp isSegment
  rw [String.toList_ofList]
  exact ⟨of_decide_eq_true filled, Path.not_mem_of_mem_splitSlashes inSegments⟩

theorem mem_stepsOf
    {path step : String} (member : step ∈ stepsOf path) :
    step ∈ namesOf path ∨ step = "." := by
  rcases List.mem_append.mp member with inNames | atEnd
  · exact Or.inl inNames
  · right
    split at atEnd
    · exact List.mem_singleton.mp atEnd
    · exact absurd atEnd List.not_mem_nil

theorem mem_namesOf_of_mem_placeOf
    {key name : String} (member : name ∈ placeOf key) :
    name ∈ namesOf key := by
  obtain ⟨inSteps, notHere⟩ := List.mem_filter.mp member
  exact (mem_stepsOf inSteps).resolve_right (of_decide_eq_true notHere)

/-- Seen from behind, a key asks for a directory when nothing follows its last slash. -/
theorem asksDirectory_iff_segmentsOf
    {key : String} :
    asksDirectory key = true ↔ (segmentsOf key).getLast? = some [] := by
  rw [segmentsOf]
  cases asksDirectory key with
  | true => simp
  | false =>
      refine iff_of_false Bool.false_ne_true ?_
      rw [if_neg Bool.false_ne_true, List.append_nil]
      intro last
      obtain ⟨name, isName, empty⟩ := List.mem_map.mp (List.mem_of_getLast? last)
      exact (plain_of_mem_namesOf (mem_namesOf_of_mem_placeOf isName)).1 empty

section Accepted

variable {key : String} (accepted : Accepted key)

include accepted

theorem Accepted.relative : Path.isAbsolute key = false := isAbsolute_of_leadsOut accepted.stays

theorem stepsOf_ne_nil : stepsOf key ≠ [] :=
  List.append_ne_nil_of_left_ne_nil (namesOf_ne_nil accepted.filled accepted.stays) _

theorem ne_up_of_mem_stepsOf :
    ∀ step ∈ stepsOf key, step ≠ ".." := by
  intro step member
  rcases mem_stepsOf member with inNames | rfl
  · exact ne_up_of_leadsOut accepted.stays step inNames
  · decide

theorem placeOf_ne_nil
    (asksFile : asksDirectory key = false) :
    placeOf key ≠ [] :=
  FileTree.names_ne_nil (stepsOf_ne_nil accepted) (of_decide_eq_false asksFile)

/-- The path of a key goes to the root and then by the steps of the key. -/
theorem stepsOf_join
    (root : String) :
    stepsOf (Path.join root key) = namesOf root ++ stepsOf key :=
  FileTree.stepsOf_join root accepted.relative accepted.filled

theorem segmentsOf_plain :
    segmentsOf key ≠ [] ∧ ∀ segment ∈ segmentsOf key, '/' ∉ segment := by
  rw [segmentsOf]
  constructor
  · cases asks : asksDirectory key with
    | true => simp
    | false => simpa using placeOf_ne_nil accepted asks
  · intro segment member
    rcases List.mem_append.mp member with inPlace | atEnd
    · obtain ⟨name, isName, rfl⟩ := List.mem_map.mp inPlace
      exact (plain_of_mem_namesOf (mem_namesOf_of_mem_placeOf isName)).2
    · split at atEnd
      · rw [List.mem_singleton.mp atEnd]
        exact List.not_mem_nil
      · exact absurd atEnd List.not_mem_nil

end Accepted

theorem normalKey_eq_iff
    {first second : String} (firstAccepted : Accepted first) (secondAccepted : Accepted second) :
    normalKey first = normalKey second ↔
      placeOf first = placeOf second ∧ asksDirectory first = asksDirectory second := by
  constructor
  · intro same
    obtain ⟨firstFilled, firstPlain⟩ := segmentsOf_plain firstAccepted
    obtain ⟨secondFilled, secondPlain⟩ := segmentsOf_plain secondAccepted
    have sameSegments : segmentsOf first = segmentsOf second := by
      rw [← Path.splitSlashes_joinSlashes firstFilled firstPlain, String.ofList_injective same,
        Path.splitSlashes_joinSlashes secondFilled secondPlain]
    have sameEnd : asksDirectory first = asksDirectory second := by
      rw [Bool.eq_iff_iff, asksDirectory_iff_segmentsOf, asksDirectory_iff_segmentsOf,
        sameSegments]
    rw [segmentsOf, segmentsOf, sameEnd, List.append_cancel_right_eq] at sameSegments
    exact ⟨(List.map_inj_right fun _ _ => String.toList_injective).mp sameSegments, sameEnd⟩
  · rintro ⟨samePlace, sameEnd⟩
    rw [normalKey, normalKey, segmentsOf, segmentsOf, samePlace, sameEnd]

end Pipework.FileStorage
