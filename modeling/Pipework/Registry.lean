import Pipework.Part

/-!
Registries: which kinds of parts a program knows.
-/

namespace Pipework

open Json (Value)

/-- The kinds of parts that can be made. -/
structure Registry where
  knows : PartKind → Bool

/-- Why no part is made. -/
inductive ConstructError where
  | unknownType (key : String)
  | config (kind : PartKind) (fault : PartFault)
  deriving DecidableEq, Repr, Inhabited

namespace Registry

/-- The registry of every kind. -/
def builtin : Registry := ⟨fun _ => true⟩

/-- The registry of the kinds with the given keys; keys of no kind are passed over. -/
def ofKeys (keys : List String) : Registry := ⟨fun kind => kind.key ∈ keys⟩

/-- The known kinds, in the order of their keys. -/
def kinds (registry : Registry) : List PartKind := PartKind.all.filter registry.knows

/-- The known kind with a key. -/
def find? (registry : Registry) (key : String) : Option PartKind :=
  registry.kinds.find? fun kind => kind.key = key

/-- Whether a kind with the key is known. -/
def contains (registry : Registry) (key : String) : Bool := (registry.find? key).isSome

/-- The part of the kind with a key, with a configuration. -/
def construct (registry : Registry) (key : String) (config : Value) :
    Except ConstructError Part :=
  match registry.find? key with
  | none => .error (.unknownType key)
  | some kind =>
      match Part.ofConfig kind config with
      | .error fault => .error (.config kind fault)
      | .ok part => .ok part

end Registry

end Pipework
