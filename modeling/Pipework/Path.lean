import Pipework.Text.Split

/-!
Paths of files.

A path is a text of names between slashes. Empty names and dots that stand for the place
itself say nothing, except for a slash at the front, which makes the path absolute, and a dot
at the front of a relative path.
-/

namespace Pipework

/-! ## Slashes -/

namespace Path

/-- The texts between the slashes. -/
def splitSlashes : List Char → List (List Char)
  | [] => [[]]
  | character :: rest =>
      if character = '/' then [] :: splitSlashes rest
      else
        match splitSlashes rest with
        | [] => [[character]]
        | segment :: more => (character :: segment) :: more

/-- Texts with a slash between them. -/
def joinSlashes : List (List Char) → List Char
  | [] => []
  | [segment] => segment
  | segment :: rest => segment ++ '/' :: joinSlashes rest

/-- Taking a text apart at its slashes always gives something. -/
theorem splitSlashes_ne_nil (text : List Char) : splitSlashes text ≠ [] := by
  cases text with
  | nil => simp [splitSlashes]
  | cons character rest =>
      rw [splitSlashes]
      split
      · simp
      · split <;> simp

/-- Putting the slashes back gives the text. -/
theorem joinSlashes_splitSlashes (text : List Char) : joinSlashes (splitSlashes text) = text := by
  induction text with
  | nil => rfl
  | cons character rest inductionHypothesis =>
      rw [splitSlashes]
      cases segments : splitSlashes rest with
      | nil => exact absurd segments (splitSlashes_ne_nil rest)
      | cons segment more =>
          rw [segments] at inductionHypothesis
          by_cases slash : character = '/'
          · subst slash
            simp [joinSlashes, inductionHypothesis]
          · rw [if_neg slash]
            cases more with
            | nil =>
                simp only [joinSlashes] at inductionHypothesis ⊢
                rw [inductionHypothesis]
            | cons next others =>
                simp only [joinSlashes, List.cons_append] at inductionHypothesis ⊢
                rw [inductionHypothesis]

/-! ## Components -/

/-- A step of a path. -/
inductive Component where
  | root
  | here
  | up
  | name (text : String)
  deriving DecidableEq, Repr, Inhabited

/-- The step that a text between slashes behind the front stands for. -/
def innerComponent? (segment : List Char) : Option Component :=
  if segment = [] ∨ segment = ['.'] then none
  else if segment = ['.', '.'] then some .up
  else some (.name (String.ofList segment))

/-- The steps of the texts between slashes of a relative path. -/
def relativeComponents : List (List Char) → List Component
  | [] => []
  | first :: rest =>
      (if first = ['.'] then [.here] else (innerComponent? first).toList) ++
        rest.filterMap innerComponent?

/-- The steps of a path. -/
def components (path : String) : List Component :=
  match path.toList with
  | '/' :: rest => .root :: (splitSlashes rest).filterMap innerComponent?
  | relative => relativeComponents (splitSlashes relative)

/-- Whether a path starts at the root. -/
def isAbsolute (path : String) : Bool := path.toList.head? == some '/'

/-! ## Joining -/

/-- A path seen from a base: an absolute path is what it is, any other goes on behind the
base. -/
def join (base path : String) : String :=
  if isAbsolute path then path
  else if base.isEmpty || base.toList.getLast? == some '/' then base ++ path
  else base ++ "/" ++ path

/-! ## Taking apart -/

/-- Drops the texts at the end that are no step. A dot alone at the front is one when the path
is relative. -/
def dropIdle (absolute : Bool) (reversed : List (List Char)) : List (List Char) :=
  match reversed with
  | [] => []
  | [only] => if only = [] ∨ (absolute ∧ only = ['.']) then [] else [only]
  | segment :: rest =>
      if segment = [] ∨ segment = ['.'] then dropIdle absolute rest else segment :: rest

/-- The path without its last step; there is none without the root and of the empty path. -/
def parent? (path : String) : Option String :=
  match path.toList with
  | '/' :: rest => (shorter true rest).map fun text => String.ofList ('/' :: text)
  | relative => (shorter false relative).map String.ofList
where
  /-- The text without its last step. -/
  shorter (absolute : Bool) (text : List Char) : Option (List Char) :=
    match dropIdle absolute (splitSlashes text).reverse with
    | [] => none
    | _ :: rest => some (joinSlashes (dropIdle absolute rest).reverse)

/-- The name at the end of a path, if its last step is one. -/
def fileName? (path : String) : Option String :=
  match (components path).getLast? with
  | some (.name name) => some name
  | _ => none

/-- The path with another name at its end, or behind it when it ends in no name. -/
def withFileName (path name : String) : String :=
  match fileName? path with
  | some _ => join ((parent? path).getD "") name
  | none => join path name

/-- A name at its last dot, which does not count at the front: what stands before the dot and
what stands behind it. -/
def splitExtension (name : String) : String × Option String :=
  match Text.splitAtLast? '.' name.toList with
  | some (stem, extension) =>
      if stem = [] ∨ name = ".." then (name, none)
      else (String.ofList stem, some (String.ofList extension))
  | none => (name, none)

/-- What stands behind the last dot of the name at the end of a path. -/
def extension? (path : String) : Option String :=
  (fileName? path).bind fun name => (splitExtension name).2

/-- What stands before the last dot of the name at the end of a path. -/
def fileStem? (path : String) : Option String :=
  (fileName? path).map fun name => (splitExtension name).1

end Path

end Pipework
