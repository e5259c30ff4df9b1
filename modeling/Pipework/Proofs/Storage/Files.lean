import Pipework.Proofs.FileTree.Writes
import Pipework.Proofs.Storage.Keys
import Pipework.Proofs.Store

/-!
# What a storage of files holds

A storage of files whose root was an empty directory holds a file for each place to which a key
was written, the directories on the way to them, and nothing else (`FileStorage.Stores`). From
this follows what a read finds, and each write that is done keeps it up.
-/

namespace Pipework.FileStorage

open FileTree (namesOf stepsOf)

/-- Below the root stand files with some contents at some places, directories on the way to them,
and nothing else. -/
structure Stores (storage : FileStorage) (base : Place) (contents : Table Place ByteArray) :
    Prop where
  leads : storage.tree.walk (storage.tree.startOf storage.root) (namesOf storage.root) = .ok base
  isDirectory : storage.tree.entryAt? base = some .directory
  file_iff : ∀ place ≠ [], ∀ bytes,
    storage.tree.entryAt? (base ++ place) = some (.file bytes) ↔ contents.get? place = some bytes
  directory_iff : ∀ place ≠ [], storage.tree.entryAt? (base ++ place) = some .directory ↔
    ∃ other, contents.contains other = true ∧ place <+: other ∧ place ≠ other

/-- The root of a storage is a directory without anything in it. -/
def IsFresh (storage : FileStorage) : Prop :=
  ∃ base, storage.tree.walk (storage.tree.startOf storage.root) (namesOf storage.root) =
      .ok base ∧
    storage.tree.entryAt? base = some .directory ∧
    ∀ place ≠ [], storage.tree.entryAt? (base ++ place) = none

/-- A key is accepted, and the system takes its path: neither the path nor a name in it is too
long, and there is no null byte in it. -/
structure Takes (root key : String) : Prop extends Accepted key where
  isPath : FileTree.requirePath (Path.join root key) = .ok ()
  short : ∀ name ∈ namesOf key, name.utf8ByteSize ≤ FileTree.longestName

theorem Takes.short_stepsOf
    {root key : String} (takes : Takes root key) :
    ∀ step ∈ stepsOf key, step.utf8ByteSize ≤ FileTree.longestName := by
  intro step member
  rcases mem_stepsOf member with inNames | rfl
  · exact takes.short step inNames
  · decide

theorem IsFresh.stores
    {storage : FileStorage} (fresh : storage.IsFresh) :
    ∃ base, storage.Stores base Table.empty := by
  obtain ⟨base, leads, isDirectory, nothing⟩ := fresh
  refine ⟨base, leads, isDirectory, fun place below bytes => ?_, fun place below => ?_⟩
  · rw [nothing place below]
    exact iff_of_false nofun nofun
  · rw [nothing place below]
    exact iff_of_false nofun fun ⟨_, found, _⟩ => nomatch found

/-! ## Looking -/

section Look

variable {storage : FileStorage} {key path : String} {bytes : ByteArray}

theorem read_eq_ok_iff :
    Storage.read storage key = .ok bytes ↔
      ∃ path, storage.path key = .ok path ∧ storage.tree.readFile path = .ok bytes := by
  simp only [Storage.read, look, bind_eq_ok_iff]
  refine exists_congr fun path => and_congr_right fun _ => ?_
  cases storage.tree.readFile path with
  | error error => simp [throw, throwThe, MonadExceptOf.throw]
  | ok found => simp [pure, Except.pure]

theorem holds_of_read
    (isRead : Storage.read storage key = .ok bytes) :
    Storage.holds storage key = .ok true := by
  obtain ⟨path, isPath, found⟩ := read_eq_ok_iff.mp isRead
  obtain ⟨place, leads, isFile⟩ := FileTree.readFile_eq_ok_iff.mp found
  simp only [Storage.holds, look, isPath, FileTree.tryExists, FileTree.entry, leads, isFile, bind,
    Except.bind]
  rfl

theorem read_of_missing
    (isPath : storage.path key = .ok path) (missing : storage.tree.entry path = .error .notFound) :
    Storage.read storage key = .error (.system .notFound) ∧
      Storage.holds storage key = .ok false := by
  simp only [Storage.read, Storage.holds, look, isPath, FileTree.readFile, FileTree.tryExists,
    missing, bind, Except.bind]
  exact ⟨rfl, rfl⟩

end Look

namespace Stores

variable {storage next : FileStorage} {base : Place} {contents : Table Place ByteArray}
  {key : String} {bytes : ByteArray}

/-- The path of a key leads by its steps from the root. -/
theorem locate_eq
    (stores : storage.Stores base contents) (accepted : Accepted key) :
    storage.tree.locate (Path.join storage.root key) =
      FileTree.requirePath (Path.join storage.root key) >>= fun _ =>
        storage.tree.walk base (stepsOf key) := by
  rw [FileTree.locate, FileTree.startOf_join _ accepted.relative, stepsOf_join accepted,
    FileTree.walk_append, stores.leads]
  rfl

theorem locate_eq_ok_iff
    (stores : storage.Stores base contents) (accepted : Accepted key) {place : Place} :
    storage.tree.locate (Path.join storage.root key) = .ok place ↔
      FileTree.requirePath (Path.join storage.root key) = .ok () ∧
        storage.tree.walk base (stepsOf key) = .ok place := by
  rw [stores.locate_eq accepted, check_bind_eq_ok_iff]

theorem directory_of_proper
    (stores : storage.Stores base contents) {place other : Place}
    (found : contents.contains other = true) (isFront : place <+: other) (proper : place ≠ other) :
    storage.tree.entryAt? (base ++ place) = some .directory := by
  by_cases atRoot : place = []
  · rw [atRoot, List.append_nil]
    exact stores.isDirectory
  · exact (stores.directory_iff place atRoot).mpr ⟨other, found, isFront, proper⟩

/-- A read finds what is at the place of its key, if it does not ask for a directory there. -/
theorem read_eq_ok_iff
    (stores : storage.Stores base contents) :
    Storage.read storage key = .ok bytes ↔
      Takes storage.root key ∧ asksDirectory key = false ∧
        contents.get? (placeOf key) = some bytes := by
  rw [FileStorage.read_eq_ok_iff]
  constructor
  · rintro ⟨path, isPath, found⟩
    obtain ⟨accepted, rfl⟩ := path_eq_ok_iff.mp isPath
    obtain ⟨place, leads, isFile⟩ := FileTree.readFile_eq_ok_iff.mp found
    obtain ⟨required, walks⟩ := (stores.locate_eq_ok_iff accepted).mp leads
    have asksFile : asksDirectory key = false := by
      rw [asksDirectory, decide_eq_false_iff_not]
      intro last
      rw [FileTree.isDirectory_of_last_here last walks] at isFile
      exact nomatch isFile
    have below := placeOf_ne_nil accepted asksFile
    have isPlace := FileTree.eq_append_of_walk (ne_up_of_mem_stepsOf accepted) walks
    rw [isPlace] at isFile
    have short : ∀ name ∈ namesOf key, name.utf8ByteSize ≤ FileTree.longestName :=
      fun name member => FileTree.short_of_walk walks name (List.mem_append_left _ member)
    exact ⟨⟨accepted, required, short⟩, asksFile, (stores.file_iff _ below bytes).mp isFile⟩
  · rintro ⟨takes, asksFile, found⟩
    have accepted := takes.toAccepted
    have below := placeOf_ne_nil accepted asksFile
    have contained := Table.contains_iff.mpr ⟨bytes, found⟩
    have walks := FileTree.walk_of_directories (ne_up_of_mem_stepsOf accepted) takes.short_stepsOf
      (of_decide_eq_false asksFile) fun place => stores.directory_of_proper contained
    refine ⟨_, path_eq_ok_iff.mpr ⟨accepted, rfl⟩,
      FileTree.readFile_eq_ok_iff.mpr ⟨base ++ placeOf key, ?_, ?_⟩⟩
    · exact (stores.locate_eq_ok_iff accepted).mpr ⟨takes.isPath, walks⟩
    · exact (stores.file_iff _ below bytes).mpr found

/-- Where neither the place of a key nor one above it or below it is taken, nothing is found. -/
theorem missing
    (stores : storage.Stores base contents) (takes : Takes storage.root key)
    (below : placeOf key ≠ [])
    (apart : ∀ place, contents.contains place = true →
      ¬ place <+: placeOf key ∧ ¬ placeOf key <+: place) :
    storage.tree.entry (Path.join storage.root key) = .error .notFound := by
  have accepted := takes.toAccepted
  have noFile : ∀ place, place <+: placeOf key → ∀ found,
      storage.tree.entryAt? (base ++ place) ≠ some (.file found) := by
    intro place isFront found isFile
    by_cases atRoot : place = []
    · rw [atRoot, List.append_nil, stores.isDirectory] at isFile
      exact nomatch isFile
    · have isThere := (stores.file_iff place atRoot found).mp isFile
      exact (apart place (Table.contains_iff.mpr ⟨found, isThere⟩)).1 isFront
  have atEnd : storage.tree.entryAt? (base ++ placeOf key) = none := by
    cases found : storage.tree.entryAt? (base ++ placeOf key) with
    | none => rfl
    | some entry =>
        cases entry with
        | file held => exact absurd found (noFile _ (List.prefix_refl _) held)
        | directory =>
            obtain ⟨other, contained, isFront, _⟩ := (stores.directory_iff _ below).mp found
            exact absurd isFront (apart other contained).2
  have located : storage.tree.locate (Path.join storage.root key) =
      storage.tree.walk base (stepsOf key) := by
    rw [stores.locate_eq accepted, takes.isPath]
    rfl
  rw [FileTree.entry, located]
  rcases FileTree.walk_of_noFile (ne_up_of_mem_stepsOf accepted) takes.short_stepsOf noFile with
    leads | lost
  · rw [leads]
    have nothing : storage.tree.entryAt? (base ++ (stepsOf key).filter (· ≠ ".")) = none := atEnd
    simp only [bind, Except.bind, nothing]
    rfl
  · rw [lost]
    rfl

/-! ## Writing -/

/-- A file is moved to the place of its key, past directories. -/
theorem place_of_moveTarget
    {tree : FileTree} {root : String} (accepted : Accepted key)
    (leads : tree.walk (tree.startOf root) (namesOf root) = .ok base) {place : Place}
    (target : tree.moveTarget (Path.join root key) = .ok place) :
    place = base ++ placeOf key ∧ asksDirectory key = false ∧
      ∀ rest, rest <+: placeOf key → rest ≠ placeOf key →
        tree.entryAt? (base ++ rest) = some .directory := by
  have located := (FileTree.locate_eq_ok_iff.mp (FileTree.locate_of_moveTarget target)).2
  rw [FileTree.startOf_join _ accepted.relative, stepsOf_join accepted, FileTree.walk_append,
    leads] at located
  have walks : tree.walk base (stepsOf key) = .ok place := located
  have free := FileTree.notDirectory_of_moveTarget target
  refine ⟨FileTree.eq_append_of_walk (ne_up_of_mem_stepsOf accepted) walks, ?_, fun rest =>
    FileTree.isDirectory_of_walk (ne_up_of_mem_stepsOf accepted) walks⟩
  rw [asksDirectory, decide_eq_false_iff_not]
  exact fun last => free (FileTree.isDirectory_of_last_here last walks)

/-- Directories that are made for the file of a key stand between the root and its place. -/
theorem front_of_made
    (stores : storage.Stores base contents) (accepted : Accepted key) {ready : FileTree}
    (made : storage.tree.makeDirectories ((Path.parent? (Path.join storage.root key)).getD "") =
      (.ok (), ready))
    {place : Place} (nothing : storage.tree.entryAt? (base ++ place) = none)
    (isMade : ready.entryAt? (base ++ place) = some .directory) :
    place <+: placeOf key := by
  cases isParent : Path.parent? (Path.join storage.root key) with
  | none =>
      rw [isParent] at made
      obtain ⟨_, rfl⟩ := Prod.mk.inj made
      exact nomatch nothing.symm.trans isMade
  | some parent =>
      rw [isParent, Option.getD_some] at made
      have makes := FileTree.makeDirectories_makes storage.tree parent
      rw [made] at makes
      have keeps := makes.keepsDirectories
      have parentPlain := Path.withoutEndSlashes_parent isParent
      obtain ⟨front, isFront, toPlace⟩ :=
        (FileTree.onTheWay_of_makeDirectories parentPlain made nothing isMade).of_parent isParent
      rw [FileTree.startOf_join _ accepted.relative, keeps.startOf] at toPlace
      rw [FileTree.namesOf_join accepted.relative] at isFront
      rcases List.prefix_or_prefix_of_prefix isFront (List.prefix_append _ _) with
        ⟨rest, isRoot⟩ | ⟨rest, rfl⟩
      · -- On the way to the root every directory was there before.
        have toRoot := stores.leads
        rw [← isRoot, FileTree.walk_append, bind_eq_ok_iff] at toRoot
        obtain ⟨found, toFound, onwards⟩ := toRoot
        obtain rfl : found = base ++ place :=
          Except.ok.inj ((keeps.walk toFound).symm.trans toPlace)
        have wasDirectory := FileTree.isDirectory_of_walk_to stores.isDirectory onwards
        exact nomatch nothing.symm.trans wasDirectory
      · rw [FileTree.walk_append, keeps.walk stores.leads] at toPlace
        have fromRoot : ready.walk base rest = .ok (base ++ place) := toPlace
        have inNames : rest <+: namesOf key := (List.prefix_append_right_inj _).mp isFront
        have noUp : ∀ name ∈ rest, name ≠ ".." :=
          fun name member => ne_up_of_leadsOut accepted.stays name (inNames.subset member)
        have isPlace := FileTree.eq_append_of_walk noUp fromRoot
        rw [List.append_cancel_left isPlace]
        exact (inNames.trans (List.prefix_append _ _)).filter _

/-- A write that was done puts a file at the place of its key, which asked for a file. -/
theorem write
    (stores : storage.Stores base contents)
    (isWritten : Storage.write storage key bytes = (.done, next)) :
    Accepted key ∧ asksDirectory key = false ∧
      next.Stores base (contents.insert (placeOf key) bytes) := by
  obtain ⟨path, isPath, ready, made, name, isName, tree, replaced, rfl⟩ :=
    write_eq_done_iff.mp isWritten
  obtain ⟨accepted, rfl⟩ := path_eq_ok_iff.mp isPath
  have makes : FileTree.MakesDirectories storage.tree ready := by
    have anyhow := FileTree.makeDirectories_makes storage.tree
      ((Path.parent? (Path.join storage.root key)).getD "")
    rwa [made] at anyhow
  have keeps := makes.keepsDirectories
  obtain ⟨_, place, target, rfl⟩ := (FileTree.replaceFile_eq_ok_iff isName).mp replaced
  have toRoot := keeps.walk stores.leads
  rw [← keeps.startOf] at toRoot
  obtain ⟨rfl, asksFile, directories⟩ := place_of_moveTarget accepted toRoot target
  have free := FileTree.notDirectory_of_moveTarget target
  have below := FileTree.ne_nil_of_moveTarget target
  have keepsFile := FileTree.KeepsDirectories.put ready below free (.file bytes)
  have atPlace (place : Place) :
      (ready.put (base ++ placeOf key) (.file bytes)).entryAt? (base ++ place) =
        if place = placeOf key then some (.file bytes) else ready.entryAt? (base ++ place) := by
    rw [FileTree.entryAt?_put ready below]
    simp only [List.append_right_inj]
  refine ⟨accepted, asksFile, ?_, ?_, fun place notRoot found => ?_, fun place notRoot => ?_⟩
  · exact keepsFile.startOf storage.root ▸ keepsFile.walk toRoot
  · exact keepsFile.directory (keeps.directory stores.isDirectory)
  · rw [atPlace, Table.get?_insert]
    by_cases same : place = placeOf key
    · simp [same]
    · rw [if_neg same, if_neg same, makes.file_iff, stores.file_iff place notRoot]
  · simp only [Table.contains_insert_iff]
    rw [atPlace]
    by_cases same : place = placeOf key
    · rw [if_pos same]
      refine iff_of_false (by simp) ?_
      rintro ⟨other, rfl | found, isFront, proper⟩
      · exact proper same
      · exact free (same ▸ keeps.directory (stores.directory_of_proper found isFront proper))
    · rw [if_neg same]
      constructor
      · intro isDirectory
        -- A directory that was there stands above another file, and one that was made above this.
        rcases makes.entry (base ++ place) with unchanged | ⟨nothing, _⟩
        · rw [unchanged] at isDirectory
          obtain ⟨other, found, isFront, proper⟩ :=
            (stores.directory_iff place notRoot).mp isDirectory
          exact ⟨other, Or.inr found, isFront, proper⟩
        · exact ⟨placeOf key, Or.inl rfl,
            stores.front_of_made accepted made nothing isDirectory, same⟩
      · rintro ⟨other, rfl | found, isFront, proper⟩
        · exact directories place isFront proper
        · exact keeps.directory (stores.directory_of_proper found isFront proper)

end Stores

end Pipework.FileStorage
