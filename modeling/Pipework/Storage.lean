import Pipework.Error

/-!
Storages: where documents are kept under keys.
-/

namespace Pipework

/-! ## What a storage does -/

/-- How a write ends. -/
inductive WriteResult where
  | done
  | failed (error : Error)
  /-- The write does not end by itself. -/
  | unfinished
  deriving DecidableEq, Repr, Inhabited

/-- States of a storage. -/
class Storage (σ : Type) where
  /-- The bytes under a key. -/
  read : σ → String → Except Error ByteArray
  /-- Puts bytes under a key, in place of what was there. -/
  write : σ → String → ByteArray → WriteResult × σ
  /-- Whether anything is under a key. -/
  holds : σ → String → Except Error Bool

/-! ## Memory -/

/-- How writes to a memory go. -/
inductive WriteMode where
  | working
  /-- Writes never end. -/
  | stuck
  /-- Writes fail. -/
  | broken
  deriving DecidableEq, Repr, Inhabited

/-- A storage in memory. -/
structure MemoryStorage where
  documents : Table String ByteArray
  mode : WriteMode

namespace MemoryStorage

/-- A memory without documents. -/
def empty (mode : WriteMode) : MemoryStorage := ⟨Table.empty, mode⟩

/-- The memory with bytes under a key. -/
def put (memory : MemoryStorage) (key : String) (bytes : ByteArray) : MemoryStorage :=
  { memory with documents := memory.documents.insert key bytes }

instance : Storage MemoryStorage where
  read memory key :=
    match memory.documents.get? key with
    | some bytes => .ok bytes
    | none => .error (.system .notFound)
  write memory key bytes :=
    match memory.mode with
    | .working => (.done, memory.put key bytes)
    | .stuck => (.unfinished, memory)
    | .broken => (.failed (.system .brokenStorage), memory)
  holds memory key := .ok (memory.documents.contains key)

end MemoryStorage

end Pipework
