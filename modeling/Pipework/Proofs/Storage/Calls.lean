import Pipework.Proofs.Storage.Keys

/-!
# Calls of a storage

A storage is asked for one thing after another, and each call finds what the calls before it left.
A memory that is called under other names of keys than a storage of files knows the same bytes
(`MemoryStorage.Knows`) as long as the names tell the keys apart that the files tell apart.
-/

namespace Pipework

/-! ## Calls -/

namespace Storage

/-- What can be asked of a storage. -/
inductive Call where
  | read (key : String)
  | write (key : String) (bytes : ByteArray)
  | holds (key : String)

inductive Reply where
  | bytes (result : Except Error ByteArray)
  | written (result : WriteResult)
  | found (result : Except Error Bool)

/-- A write was done, if this is the reply to one. -/
def Reply.Done : Reply → Prop
  | written result => result = .done
  | bytes _ | found _ => True

instance (reply : Reply) : Decidable reply.Done :=
  match reply with
  | .written result => inferInstanceAs (Decidable (result = .done))
  | .bytes _ | .found _ => isTrue trivial

def Call.key : Call → String
  | read key | write key _ | holds key => key

/-- The same call under another name of the key. -/
def Call.rename (name : String → String) : Call → Call
  | read key => read (name key)
  | write key bytes => write (name key) bytes
  | holds key => holds (name key)

variable {σ : Type} [Storage σ]

/-- The reply to a call, and the storage after it. -/
def serve (storage : σ) : Call → Reply × σ
  | .read key => (.bytes (Storage.read storage key), storage)
  | .write key bytes =>
      (.written (Storage.write storage key bytes).1, (Storage.write storage key bytes).2)
  | .holds key => (.found (Storage.holds storage key), storage)

/-- The replies to calls in turn. -/
def replies (storage : σ) : List Call → List Reply
  | [] => []
  | call :: rest => (serve storage call).1 :: replies (serve storage call).2 rest

/-- The storage after calls in turn. -/
def after (storage : σ) (calls : List Call) : σ :=
  calls.foldl (fun current call => (serve current call).2) storage

theorem replies_append
    (storage : σ) (front back : List Call) :
    replies storage (front ++ back) = replies storage front ++ replies (after storage front) back := by
  induction front generalizing storage with
  | nil => rfl
  | cons call rest inductionHypothesis =>
      rw [List.cons_append, replies, replies, inductionHypothesis]
      rfl

theorem after_append
    (storage : σ) (front back : List Call) :
    after storage (front ++ back) = after (after storage front) back :=
  List.foldl_append

end Storage

/-! ## Memory -/

namespace MemoryStorage

open FileStorage (placeOf asksDirectory)

/-- Names tell apart keys that lead to different places or ask for something else there. -/
def Distinguishes (name : String → String) (keys : String → Prop) : Prop :=
  ∀ first second, keys first → keys second →
    (name first = name second ↔
      placeOf first = placeOf second ∧ asksDirectory first = asksDirectory second)

/-- A memory knows under the names of keys what stands at their places, and all of these are the
places of keys. -/
structure Knows (name : String → String) (keys : String → Prop) (memory : MemoryStorage)
    (contents : Table Place ByteArray) : Prop where
  working : memory.mode = .working
  document : ∀ key, keys key → memory.documents.get? (name key) =
    if asksDirectory key then none else contents.get? (placeOf key)
  origin : ∀ {place : Place}, contents.contains place = true →
    ∃ key, keys key ∧ asksDirectory key = false ∧ placeOf key = place

variable {name : String → String} {keys : String → Prop} {memory : MemoryStorage}
  {contents : Table Place ByteArray}

theorem Knows.empty
    (name : String → String) (keys : String → Prop) :
    Knows name keys (MemoryStorage.empty .working) Table.empty where
  working := rfl
  document key _ := by
    rw [MemoryStorage.empty, Table.get?_empty, Table.get?_empty, ite_self]
  origin found := nomatch found

theorem Knows.write
    (knows : Knows name keys memory contents) (distinguishes : Distinguishes name keys)
    {key : String} (isKey : keys key) (asksFile : asksDirectory key = false)
    (bytes : ByteArray) :
    Storage.write memory (name key) bytes = (.done, memory.put (name key) bytes) ∧
      Knows name keys (memory.put (name key) bytes) (contents.insert (placeOf key) bytes) := by
  refine ⟨?_, knows.working, fun other isOther => ?_, fun {place} found => ?_⟩
  · simp only [Storage.write, knows.working]
  · have sameName := distinguishes other key isOther isKey
    rw [asksFile] at sameName
    rw [MemoryStorage.put, Table.get?_insert, Table.get?_insert, knows.document other isOther]
    cases asks : asksDirectory other with
    | true =>
        have different : name other ≠ name key := by simp [sameName, asks]
        rw [if_neg different]
        rfl
    | false =>
        have same_iff : name other = name key ↔ placeOf other = placeOf key := by
          simp [sameName, asks]
        simp only [same_iff]
        rfl
  · rw [Table.contains, Table.get?_insert] at found
    split at found
    · rename_i same
      exact ⟨key, isKey, asksFile, same.symm⟩
    · exact knows.origin found

theorem read_eq
    (memory : MemoryStorage) (key : String) :
    Storage.read memory key =
      match memory.documents.get? key with
      | some bytes => .ok bytes
      | none => .error (.system .notFound) := rfl

theorem read_write_of_ne
    (memory : MemoryStorage) {key other : String} (different : other ≠ key) (bytes : ByteArray) :
    Storage.read (Storage.write memory key bytes).2 other = Storage.read memory other := by
  simp only [Storage.write]
  cases memory.mode with
  | working => simp only [read_eq, MemoryStorage.put, Table.get?_insert, if_neg different]
  | stuck => rfl
  | broken => rfl

end MemoryStorage

end Pipework
