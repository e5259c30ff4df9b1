import Pipework.Proofs.Storage.Calls
import Pipework.Proofs.Storage.Files

/-!
# Files and memory

Storages of files and of memory that are called in the same way hold the same
(`FileStorage.Agree`), if the memory is called under names that tell apart what the files tell
apart. So a storage of files is a memory of normal keys, up to the directories that stand between
files (`FileStorage.agrees_with_memory`).
-/

namespace Pipework.FileStorage

open Storage (serve replies after)

theorem root_write
    (storage : FileStorage) (key : String) (bytes : ByteArray) :
    (Storage.write storage key bytes).2.root = storage.root := by
  simp only [Storage.write]
  cases storage.path key with
  | error error => rfl
  | ok path =>
      show (storage.replace key path bytes).2.root = storage.root
      rw [FileStorage.replace]
      split
      · rfl
      · split
        · rfl
        · split <;> rfl

theorem root_serve
    (storage : FileStorage) (call : Storage.Call) :
    (serve storage call).2.root = storage.root := by
  cases call with
  | read key => rfl
  | holds key => rfl
  | write key bytes => exact root_write storage key bytes

theorem root_after
    (storage : FileStorage) (calls : List Storage.Call) :
    (after storage calls).root = storage.root := by
  induction calls generalizing storage with
  | nil => rfl
  | cons call rest inductionHypothesis =>
      exact (inductionHypothesis (serve storage call).2).trans (root_serve storage call)

/-- Files and a memory hold the same, the memory under the names that keys have there. -/
def Agree (name : String → String) (keys : String → Prop) (files : FileStorage)
    (memory : MemoryStorage) : Prop :=
  ∃ base contents, files.Stores base contents ∧ memory.Knows name keys contents

namespace Agree

variable {name : String → String} {keys : String → Prop} {files : FileStorage}
  {memory : MemoryStorage}

theorem serve
    (agree : Agree name keys files memory)
    (distinguishes : MemoryStorage.Distinguishes name keys) {call : Storage.Call}
    (known : ∀ key bytes, call = .write key bytes → Accepted key → keys key)
    (done : (Storage.serve files call).1.Done) :
    Agree name keys (Storage.serve files call).2 (Storage.serve memory (call.rename name)).2 := by
  obtain ⟨base, contents, stores, knows⟩ := agree
  cases call with
  | read key => exact ⟨base, contents, stores, knows⟩
  | holds key => exact ⟨base, contents, stores, knows⟩
  | write key bytes =>
      have isWritten : Storage.write files key bytes =
          (.done, (Storage.write files key bytes).2) := Prod.ext done rfl
      obtain ⟨accepted, asksFile, nextStores⟩ := stores.write isWritten
      obtain ⟨written, nextKnows⟩ :=
        knows.write distinguishes (known key bytes rfl accepted) asksFile bytes
      refine ⟨base, contents.insert (placeOf key) bytes, nextStores, ?_⟩
      show MemoryStorage.Knows name keys (Storage.write memory (name key) bytes).2 _
      rw [written]
      exact nextKnows

/-- The replies to a write are the same. -/
theorem reply_write
    (agree : Agree name keys files memory) {key : String} {bytes : ByteArray}
    (done : (Storage.serve files (.write key bytes)).1.Done) :
    (Storage.serve files (.write key bytes)).1 =
      (Storage.serve memory (.write (name key) bytes)).1 := by
  obtain ⟨_, _, _, knows⟩ := agree
  have isDone : (Storage.write files key bytes).1 = .done := done
  show Storage.Reply.written _ = .written (Storage.write memory (name key) bytes).1
  rw [isDone]
  simp only [Storage.write, knows.working]

theorem after
    (agree : Agree name keys files memory)
    (distinguishes : MemoryStorage.Distinguishes name keys) {calls : List Storage.Call}
    (known : ∀ key bytes, .write key bytes ∈ calls → Accepted key → keys key)
    (done : ∀ reply ∈ replies files calls, reply.Done) :
    Agree name keys (Storage.after files calls)
      (Storage.after memory (calls.map (·.rename name))) := by
  induction calls generalizing files memory with
  | nil => exact agree
  | cons call rest inductionHypothesis =>
      obtain ⟨firstDone, restDone⟩ := List.forall_mem_cons.mp done
      have next := agree.serve distinguishes
        (fun key bytes same => known key bytes (same ▸ List.mem_cons_self)) firstDone
      exact inductionHypothesis next
        (fun key bytes member => known key bytes (List.mem_cons_of_mem _ member)) restDone

theorem read_eq_ok_iff
    (agree : Agree name keys files memory) {key : String} (isKey : keys key)
    {bytes : ByteArray} :
    Storage.read files key = .ok bytes ↔
      Takes files.root key ∧ Storage.read memory (name key) = .ok bytes := by
  obtain ⟨base, contents, stores, knows⟩ := agree
  rw [stores.read_eq_ok_iff, MemoryStorage.read_eq, knows.document key isKey]
  refine and_congr_right fun _ => ?_
  cases asksDirectory key with
  | true => simp
  | false => cases contents.get? (placeOf key) <;> simp

/-- A key finds the same in both, unless another key leads to a place above or below its own. -/
theorem exact
    (agree : Agree name keys files memory) {key : String} (isKey : keys key)
    (takes : Takes files.root key) (below : placeOf key ≠ [])
    (apart : ∀ other, keys other → asksDirectory other = false →
      placeOf other = placeOf key ∧ asksDirectory key = false ∨
        ¬ placeOf other <+: placeOf key ∧ ¬ placeOf key <+: placeOf other) :
    Storage.read files key = Storage.read memory (name key) ∧
      Storage.holds files key = Storage.holds memory (name key) := by
  obtain ⟨base, contents, stores, knows⟩ := agree
  have document := knows.document key isKey
  cases found : contents.get? (placeOf key) with
  | some bytes =>
      obtain ⟨other, isOther, asksFile, samePlace⟩ :=
        knows.origin (Table.contains_iff.mpr ⟨bytes, found⟩)
      have keyAsksFile : asksDirectory key = false := by
        rcases apart other isOther asksFile with ⟨_, keyAsksFile⟩ | ⟨notAbove, _⟩
        · exact keyAsksFile
        · exact absurd (samePlace ▸ List.prefix_refl _) notAbove
      have isRead := stores.read_eq_ok_iff.mpr ⟨takes, keyAsksFile, found⟩
      rw [keyAsksFile, if_neg Bool.false_ne_true, found] at document
      refine ⟨isRead.trans ?_, (holds_of_read isRead).trans ?_⟩
      · rw [MemoryStorage.read_eq, document]
      · simp only [Storage.holds, Table.contains, document, Option.isSome_some]
  | none =>
      have nothing : ∀ place, contents.contains place = true →
          ¬ place <+: placeOf key ∧ ¬ placeOf key <+: place := by
        intro place contained
        obtain ⟨other, isOther, asksFile, rfl⟩ := knows.origin contained
        rcases apart other isOther asksFile with ⟨samePlace, _⟩ | isApart
        · rw [Table.contains, samePlace, found] at contained
          cases contained
        · exact isApart
      obtain ⟨isMissing, notHeld⟩ := read_of_missing
        (path_eq_ok_iff.mpr ⟨takes.toAccepted, rfl⟩) (stores.missing takes below nothing)
      rw [found, ite_self] at document
      refine ⟨isMissing.trans ?_, notHeld.trans ?_⟩
      · rw [MemoryStorage.read_eq, document]
      · simp only [Storage.holds, Table.contains, document, Option.isSome_none]

theorem replies_eq
    (agree : Agree name keys files memory)
    (distinguishes : MemoryStorage.Distinguishes name keys) {calls : List Storage.Call}
    (fit : ∀ call ∈ calls, keys call.key ∧ Takes files.root call.key ∧ placeOf call.key ≠ [])
    (apart : ∀ first second, keys first → keys second → asksDirectory first = false →
      placeOf first = placeOf second ∧ asksDirectory second = false ∨
        ¬ placeOf first <+: placeOf second ∧ ¬ placeOf second <+: placeOf first)
    (done : ∀ reply ∈ replies files calls, reply.Done) :
    replies files calls = replies memory (calls.map (·.rename name)) := by
  induction calls generalizing files memory with
  | nil => rfl
  | cons call rest inductionHypothesis =>
      obtain ⟨⟨isKey, takes, below⟩, restFit⟩ := List.forall_mem_cons.mp fit
      obtain ⟨firstDone, restDone⟩ := List.forall_mem_cons.mp done
      have next := agree.serve distinguishes
        (fun key bytes same _ => by rw [same] at isKey; exact isKey) firstDone
      have answers := agree.exact isKey takes below fun other isOther => apart other _ isOther isKey
      have sameReply : (Storage.serve files call).1 =
          (Storage.serve memory (call.rename name)).1 := by
        cases call with
        | read key => exact congrArg Storage.Reply.bytes answers.1
        | holds key => exact congrArg Storage.Reply.found answers.2
        | write key bytes => exact agree.reply_write firstDone
      rw [← root_serve files call] at restFit
      rw [List.map_cons, replies, replies, sameReply, inductionHypothesis next restFit restDone]

end Agree

section Fresh

variable {files : FileStorage} {calls : List Storage.Call}

theorem IsFresh.agree
    (fresh : files.IsFresh) (name : String → String) (keys : String → Prop) :
    Agree name keys files (MemoryStorage.empty .working) := by
  obtain ⟨base, stores⟩ := fresh.stores
  exact ⟨base, Table.empty, stores, MemoryStorage.Knows.empty name keys⟩

/-- Accepted keys among which one is looked at and the others were written to. -/
def Concerns (calls : List Storage.Call) (key other : String) : Prop :=
  Accepted other ∧ (other = key ∨ ∃ bytes, .write other bytes ∈ calls)

theorem IsFresh.agree_after
    (fresh : files.IsFresh) (done : ∀ reply ∈ replies files calls, reply.Done) (key : String) :
    Agree normalKey (Concerns calls key) (after files calls)
      (after (MemoryStorage.empty .working) (calls.map (·.rename normalKey))) := by
  refine (fresh.agree normalKey (Concerns calls key)).after ?_ ?_ done
  · intro first second isFirst isSecond
    exact normalKey_eq_iff isFirst.1 isSecond.1
  · intro other bytes member accepted
    exact ⟨accepted, Or.inr ⟨bytes, member⟩⟩

theorem IsFresh.read_eq_ok_iff
    (fresh : files.IsFresh) (done : ∀ reply ∈ replies files calls, reply.Done) (key : String)
    (bytes : ByteArray) :
    Storage.read (after files calls) key = .ok bytes ↔
      Takes files.root key ∧
        Storage.read (after (MemoryStorage.empty .working) (calls.map (·.rename normalKey)))
          (normalKey key) = .ok bytes := by
  by_cases accepted : Accepted key
  · have agree := fresh.agree_after done key
    rw [agree.read_eq_ok_iff ⟨accepted, Or.inl rfl⟩, root_after]
  · refine iff_of_false (fun isRead => accepted ?_) fun both => accepted both.1.toAccepted
    obtain ⟨path, isPath, _⟩ := FileStorage.read_eq_ok_iff.mp isRead
    exact (path_eq_ok_iff.mp isPath).1

/-- What a key is answered is the same, if no other key that was written leads to its place or to
one above or below it. -/
theorem IsFresh.answers_eq
    (fresh : files.IsFresh) (done : ∀ reply ∈ replies files calls, reply.Done) {key : String}
    (takes : Takes files.root key) (below : placeOf key ≠ [])
    (apart : ∀ other bytes, .write other bytes ∈ calls → normalKey other = normalKey key ∨
      ¬ placeOf other <+: placeOf key ∧ ¬ placeOf key <+: placeOf other) :
    let memory := after (MemoryStorage.empty .working) (calls.map (·.rename normalKey))
    Storage.read (after files calls) key = Storage.read memory (normalKey key) ∧
      Storage.holds (after files calls) key = Storage.holds memory (normalKey key) := by
  have agree := fresh.agree_after done key
  have isKey : Concerns calls key key := ⟨takes.toAccepted, Or.inl rfl⟩
  refine agree.exact isKey (root_after files calls ▸ takes) below ?_
  rintro other ⟨accepted, rfl | ⟨bytes, member⟩⟩ asksFile
  · exact Or.inl ⟨rfl, asksFile⟩
  · refine (apart other bytes member).imp_left fun sameName => ?_
    obtain ⟨samePlace, sameEnd⟩ := (normalKey_eq_iff accepted takes.toAccepted).mp sameName
    exact ⟨samePlace, sameEnd.symm.trans asksFile⟩

/-- Among keys none of whose places is that of another or above it, every key is its own name. -/
theorem IsFresh.replies_eq
    (fresh : files.IsFresh) (done : ∀ reply ∈ replies files calls, reply.Done)
    (fit : ∀ call ∈ calls, Takes files.root call.key ∧ placeOf call.key ≠ [])
    (apart : ∀ first ∈ calls, ∀ second ∈ calls, placeOf first.key <+: placeOf second.key →
      first.key = second.key) :
    replies files calls = replies (MemoryStorage.empty .working) calls := by
  let keys (key : String) : Prop := ∃ call ∈ calls, call.key = key
  have sameKey {first second : String} (isFirst : keys first) (isSecond : keys second)
      (isFront : placeOf first <+: placeOf second) : first = second := by
    obtain ⟨call, member, rfl⟩ := isFirst
    obtain ⟨other, otherMember, rfl⟩ := isSecond
    exact apart call member other otherMember isFront
  have distinguishes : MemoryStorage.Distinguishes id keys := by
    intro first second isFirst isSecond
    constructor
    · rintro rfl
      exact ⟨rfl, rfl⟩
    · rintro ⟨samePlace, _⟩
      exact sameKey isFirst isSecond (samePlace ▸ List.prefix_refl _)
  have placesApart (first second : String) (isFirst : keys first) (isSecond : keys second)
      (asksFile : asksDirectory first = false) :
      placeOf first = placeOf second ∧ asksDirectory second = false ∨
        ¬ placeOf first <+: placeOf second ∧ ¬ placeOf second <+: placeOf first := by
    by_cases same : first = second
    · exact Or.inl ⟨congrArg placeOf same, same ▸ asksFile⟩
    · exact Or.inr ⟨fun isFront => same (sameKey isFirst isSecond isFront),
        fun isFront => same (sameKey isSecond isFirst isFront).symm⟩
  have sameCalls : calls.map (·.rename id) = calls := by
    rw [List.map_congr_left (g := id) fun call _ => by cases call <;> rfl, List.map_id]
  have same := (fresh.agree id keys).replies_eq distinguishes
    (fun call member => ⟨⟨call, member, rfl⟩, fit call member⟩) placesApart done
  rw [sameCalls] at same
  exact same

theorem IsFresh.read_write_of_ne
    (fresh : files.IsFresh) (done : ∀ reply ∈ replies files calls, reply.Done) {key other : String}
    {bytes : ByteArray} {next : FileStorage}
    (isWritten : Storage.write (after files calls) key bytes = (.done, next))
    (different : normalKey other ≠ normalKey key) (found : ByteArray) :
    Storage.read next other = .ok found ↔ Storage.read (after files calls) other = .ok found := by
  have isDone : (Storage.write (after files calls) key bytes).1 = .done :=
    congrArg Prod.fst isWritten
  have nextDone : ∀ reply ∈ replies files (calls ++ [.write key bytes]), reply.Done := by
    rw [Storage.replies_append, List.forall_mem_append]
    exact ⟨done, List.forall_mem_singleton.mpr isDone⟩
  have isNext : after files (calls ++ [.write key bytes]) = next := by
    rw [Storage.after_append]
    exact congrArg Prod.snd isWritten
  have sameRead := MemoryStorage.read_write_of_ne
    (after (MemoryStorage.empty .working) (calls.map (·.rename normalKey))) different bytes
  have nextRead := fresh.read_eq_ok_iff nextDone other found
  rw [isNext, List.map_append, Storage.after_append] at nextRead
  rw [nextRead, fresh.read_eq_ok_iff done, ← sameRead]
  rfl

end Fresh

/-- Files agree with memory as far as their keys are paths. Let a storage of files start with an
empty root, and let all writes be done. Whatever calls were made, a read gives the bytes that a
memory gives which was called with normal keys, provided that the system takes the path of the
key. What a read and a look for a key find is also otherwise the same, unless the key leads to
the root, or to a place above or below that of a key that was written. So calls whose keys lead to
places none of which is that of another key, or above or below it, have the same replies from
files and from memory. And a write never changes the bytes that are read under a key with another
normal key. -/
theorem agrees_with_memory
    {files : FileStorage} (fresh : files.IsFresh) {calls : List Storage.Call}
    (done : ∀ reply ∈ replies files calls, reply.Done) :
    let last := after files calls
    let memory := after (MemoryStorage.empty .working) (calls.map (·.rename normalKey))
    (∀ key bytes, Storage.read last key = .ok bytes ↔
      Takes files.root key ∧ Storage.read memory (normalKey key) = .ok bytes) ∧
    (∀ key, Takes files.root key → placeOf key ≠ [] →
      (∀ other bytes, .write other bytes ∈ calls → normalKey other = normalKey key ∨
        ¬ placeOf other <+: placeOf key ∧ ¬ placeOf key <+: placeOf other) →
      Storage.read last key = Storage.read memory (normalKey key) ∧
        Storage.holds last key = Storage.holds memory (normalKey key)) ∧
    ((∀ call ∈ calls, Takes files.root call.key ∧ placeOf call.key ≠ []) →
      (∀ first ∈ calls, ∀ second ∈ calls, placeOf first.key <+: placeOf second.key →
        first.key = second.key) →
      replies files calls = replies (MemoryStorage.empty .working) calls) ∧
    ∀ key bytes next, Storage.write last key bytes = (.done, next) →
      ∀ other, normalKey other ≠ normalKey key → ∀ found,
        Storage.read next other = .ok found ↔ Storage.read last other = .ok found := by
  intro last memory
  refine ⟨fresh.read_eq_ok_iff done, ?_, fresh.replies_eq done, ?_⟩
  · intro key takes below apart
    exact fresh.answers_eq done takes below apart
  · intro key bytes next isWritten other different found
    exact fresh.read_write_of_ne done isWritten different found

/-- A storage of files in a directory, which is empty and stands alone. -/
def inGraphs : FileStorage := ⟨"graphs", ⟨Table.ofList [(["graphs"], .directory)], []⟩⟩

theorem inGraphs_isFresh : inGraphs.IsFresh := by
  refine ⟨["graphs"], by decide, by decide, fun place below => ?_⟩
  have elsewhere : ["graphs"] ++ place ≠ ["graphs"] := by simpa using below
  have notRoot : ["graphs"] ++ place ≠ [] := List.cons_ne_nil "graphs" place
  have entries : inGraphs.tree.entries = Table.empty.insert ["graphs"] .directory := rfl
  rw [FileTree.entryAt?, if_neg notRoot, entries, Table.get?_insert, if_neg elsewhere,
    Table.get?_empty]

/-- Two keys for one file are one key to files and two to a memory. A directory is there for files
and not for a memory, the root is as well, and only a memory takes a null byte in a key. -/
theorem replies_of_aliases :
    let memory := MemoryStorage.empty .working
    let bytes := "\x7b\x7d".toUTF8
    let aliases : List Storage.Call := [.write "a.json" bytes, .read "./a.json"]
    let directory : List Storage.Call := [.write "a/b.json" bytes, .holds "a", .read "a"]
    let others : List Storage.Call := [.holds ".", .read "\x00"]
    inGraphs.IsFresh ∧
      (∀ call ∈ aliases ++ directory ++ others, (inGraphs.path call.key).isOk = true) ∧
      replies inGraphs aliases = [.written .done, .bytes (.ok bytes)] ∧
      replies memory aliases = [.written .done, .bytes (.error (.system .notFound))] ∧
      replies inGraphs directory =
        [.written .done, .found (.ok true), .bytes (.error (.system .isDirectory))] ∧
      replies memory directory =
        [.written .done, .found (.ok false), .bytes (.error (.system .notFound))] ∧
      replies inGraphs others = [.found (.ok true), .bytes (.error (.system .nullByte))] ∧
      replies memory others = [.found (.ok false), .bytes (.error (.system .notFound))] :=
  ⟨inGraphs_isFresh, by decide, rfl, rfl, rfl, rfl, rfl, rfl⟩

/-- A file and another in a directory are found under all their keys, and a third is not there. -/
theorem agrees_with_memory_inGraphs :
    let calls : List Storage.Call :=
      [.write "a" "1".toUTF8, .holds "b", .write "n/./a" "2".toUTF8]
    inGraphs.IsFresh ∧ (∀ reply ∈ replies inGraphs calls, reply.Done) ∧
      Storage.read (after inGraphs calls) "n//a" = .ok "2".toUTF8 ∧
      Storage.read (after inGraphs calls) "n/b" = .error (.system .notFound) ∧
      replies inGraphs calls = replies (MemoryStorage.empty .working) calls ∧
      ∃ next, Storage.write (after inGraphs calls) "b" "3".toUTF8 = (.done, next) ∧
        Storage.read next "./a" = .ok "1".toUTF8 := by
  intro calls
  have allDone : ∀ reply ∈ replies inGraphs (calls ++ [Storage.Call.write "b" "3".toUTF8]),
      reply.Done := by decide +kernel
  rw [Storage.replies_append, List.forall_mem_append] at allDone
  obtain ⟨done, lastDone⟩ := allDone
  obtain ⟨read_iff, exact, same, apart⟩ := agrees_with_memory inGraphs_isFresh done
  have fits : ∀ key ∈ ["a", "b", "n/./a", "n//a", "n/b", "./a"],
      (key ≠ "" ∧ leadsOut key = false) ∧
        FileTree.requirePath (Path.join "graphs" key) = .ok () ∧
        ∀ name ∈ FileTree.namesOf key, name.utf8ByteSize ≤ FileTree.longestName := by decide
  have takes : ∀ key ∈ ["a", "b", "n/./a", "n//a", "n/b", "./a"], Takes "graphs" key := by
    intro key member
    obtain ⟨⟨filled, stays⟩, isPath, short⟩ := fits key member
    exact ⟨⟨filled, stays⟩, isPath, short⟩
  have written : ∀ other bytes, .write other bytes ∈ calls → other = "a" ∨ other = "n/./a" := by
    intro other bytes member
    simp only [calls, List.mem_cons, Storage.Call.write.injEq, List.not_mem_nil, or_false,
      reduceCtorEq, false_or] at member
    exact member.imp And.left And.left
  refine ⟨inGraphs_isFresh, done, ?_, ?_, ?_, ?_⟩
  · exact (read_iff _ _).mpr ⟨takes _ (by decide), by decide⟩
  · refine (exact _ (takes _ (by decide)) (by decide) fun other bytes member => ?_).1.trans
      (by decide)
    rcases written other bytes member with rfl | rfl
    · exact Or.inr (by decide)
    · exact Or.inr (by decide)
  · refine same ?_ (by decide)
    simp only [calls, List.forall_mem_cons, List.not_mem_nil, false_implies, implies_true, and_true]
    exact ⟨⟨takes _ (by decide), by decide⟩, ⟨takes _ (by decide), by decide⟩,
      takes _ (by decide), by decide⟩
  · have isDone : (Storage.write (after inGraphs calls) "b" "3".toUTF8).1 = .done :=
      lastDone _ List.mem_cons_self
    have isWritten : Storage.write (after inGraphs calls) "b" "3".toUTF8 =
        (.done, (Storage.write (after inGraphs calls) "b" "3".toUTF8).2) := by
      rw [← isDone]
    have different : normalKey "./a" ≠ normalKey "b" := by decide
    have isRead := (read_iff "./a" "1".toUTF8).mpr ⟨takes _ (by decide), by decide⟩
    exact ⟨_, isWritten, (apart _ _ _ isWritten _ different _).mpr isRead⟩

end Pipework.FileStorage
