/-!
Tables and sets kept in key order.

A table is a list of entries with strictly increasing keys, so there is one table for each
finite map: `Table.ext_get?` says that two tables which answer every look-up alike are equal.
Each operation is pinned down by what a look-up finds after it.
-/

namespace Pipework

/-! ## Orders on keys -/

/-- A key type whose `<` is a strict total order. -/
class TotalKey (κ : Type) [LT κ] : Prop where
  irrefl : ∀ key : κ, ¬ key < key
  trans : ∀ {first second third : κ}, first < second → second < third → first < third
  connected : ∀ {first second : κ}, ¬ first < second → ¬ second < first → first = second

/-- Texts are ordered by code points, which is also the order of their UTF-8 bytes. -/
instance : TotalKey String where
  irrefl := String.lt_irrefl
  trans := String.lt_trans
  connected := fun notBefore notAfter =>
    String.le_antisymm (String.not_lt.mp notAfter) (String.not_lt.mp notBefore)

/-! ## Tables -/

/-- A finite map from keys to values: entries with strictly increasing keys. -/
structure Table (κ α : Type) [LT κ] where
  /-- The entries, in key order. -/
  entries : List (κ × α)
  /-- Keys increase strictly, so none stands twice. -/
  ordered : entries.Pairwise (fun first second => first.1 < second.1)

namespace Table

variable {κ α β : Type} [LT κ]

instance [DecidableEq κ] [DecidableEq α] : DecidableEq (Table κ α) := fun left right =>
  if same : left.entries = right.entries then
    isTrue (by cases left; cases right; simp_all)
  else
    isFalse (fun equality => same (congrArg entries equality))

/-- The table without entries. -/
def empty : Table κ α := ⟨[], List.Pairwise.nil⟩

instance : Inhabited (Table κ α) := ⟨empty⟩

/-- The keys, increasing. -/
def keys (table : Table κ α) : List κ := table.entries.map Prod.fst

/-- The values, in the order of their keys. -/
def values (table : Table κ α) : List α := table.entries.map Prod.snd

/-- The number of entries. -/
def size (table : Table κ α) : Nat := table.entries.length

/-- Whether there is no entry. -/
def isEmpty (table : Table κ α) : Bool := table.entries.isEmpty

/-! ### Entry lists -/

section Entries

variable [DecidableEq κ]

/-- The value of the first entry with the key. -/
def lookup (key : κ) : List (κ × α) → Option α
  | [] => none
  | (head, value) :: rest => if key = head then some value else lookup key rest

/-- The entries without those of a key. -/
def eraseEntry (key : κ) : List (κ × α) → List (κ × α)
  | [] => []
  | (head, value) :: rest =>
      if key = head then eraseEntry key rest else (head, value) :: eraseEntry key rest

variable [DecidableLT κ]

/-- Puts an entry in its place; it replaces an entry with the same key. -/
def insertEntry (key : κ) (value : α) : List (κ × α) → List (κ × α)
  | [] => [(key, value)]
  | (head, found) :: rest =>
      if key < head then (key, value) :: (head, found) :: rest
      else if key = head then (key, value) :: rest
      else (head, found) :: insertEntry key value rest

omit [DecidableEq κ] [DecidableLT κ] in
theorem mem_keys_of_pairwise_cons
    {head : κ × α} {rest : List (κ × α)}
    (ordered : (head :: rest).Pairwise (fun first second => first.1 < second.1))
    {key : κ} (member : key ∈ rest.map Prod.fst) :
    head.1 < key := by
  obtain ⟨entry, entryMember, rfl⟩ := List.mem_map.mp member
  exact List.rel_of_pairwise_cons ordered entryMember

theorem mem_keys_insertEntry
    {key other : κ} {value : α} {entries : List (κ × α)}
    (member : other ∈ (insertEntry key value entries).map Prod.fst) :
    other = key ∨ other ∈ entries.map Prod.fst := by
  induction entries with
  | nil => simpa [insertEntry] using member
  | cons head rest inductionHypothesis =>
      obtain ⟨headKey, found⟩ := head
      rw [insertEntry] at member
      split at member
      · simpa using member
      · split at member
        · rename_i same
          subst same
          simp only [List.map_cons, List.mem_cons] at member ⊢
          exact member.imp id Or.inr
        · simp only [List.map_cons, List.mem_cons] at member ⊢
          rcases member with rfl | inRest
          · exact Or.inr (Or.inl rfl)
          · exact (inductionHypothesis inRest).imp id Or.inr

theorem ordered_insertEntry
    [TotalKey κ] (key : κ) (value : α) {entries : List (κ × α)}
    (ordered : entries.Pairwise (fun first second => first.1 < second.1)) :
    (insertEntry key value entries).Pairwise (fun first second => first.1 < second.1) := by
  induction entries with
  | nil => simp [insertEntry]
  | cons head rest inductionHypothesis =>
      obtain ⟨headKey, found⟩ := head
      have restOrdered := (List.pairwise_cons.mp ordered).2
      rw [insertEntry]
      split
      · rename_i before
        refine List.pairwise_cons.mpr ⟨?_, ordered⟩
        intro entry entryMember
        rcases List.mem_cons.mp entryMember with rfl | inRest
        · exact before
        · exact TotalKey.trans before (List.rel_of_pairwise_cons ordered inRest)
      · rename_i notBefore
        split
        · rename_i same
          subst same
          exact List.pairwise_cons.mpr
            ⟨fun entry inRest => List.rel_of_pairwise_cons ordered inRest, restOrdered⟩
        · rename_i different
          refine List.pairwise_cons.mpr ⟨?_, inductionHypothesis restOrdered⟩
          intro entry entryMember
          have headBefore : headKey < key :=
            Decidable.byContradiction fun notAfter =>
              different (TotalKey.connected notBefore notAfter)
          rcases mem_keys_insertEntry (List.mem_map_of_mem (f := Prod.fst) entryMember) with
            same | inRest
          · exact same ▸ headBefore
          · exact mem_keys_of_pairwise_cons ordered inRest

omit [LT κ] [DecidableLT κ] in
theorem eraseEntry_sublist
    (key : κ) (entries : List (κ × α)) :
    (eraseEntry key entries).Sublist entries := by
  induction entries with
  | nil => exact List.Sublist.refl []
  | cons head rest inductionHypothesis =>
      obtain ⟨headKey, found⟩ := head
      rw [eraseEntry]
      split
      · exact List.Sublist.cons _ inductionHypothesis
      · exact List.Sublist.cons_cons _ inductionHypothesis

theorem lookup_insertEntry
    (key other : κ) (value : α) (entries : List (κ × α)) :
    lookup other (insertEntry key value entries) =
      if other = key then some value else lookup other entries := by
  induction entries with
  | nil => simp [insertEntry, lookup]
  | cons head rest inductionHypothesis =>
      obtain ⟨headKey, found⟩ := head
      rw [insertEntry]
      split
      · simp [lookup]
      · split
        · rename_i same
          subst same
          simp only [lookup]
          split <;> rfl
        · rename_i different
          simp only [lookup, inductionHypothesis]
          split
          · rename_i atHead
            subst atHead
            rw [if_neg (Ne.symm different)]
          · rfl

omit [LT κ] [DecidableLT κ] in
theorem lookup_eraseEntry
    (key other : κ) (entries : List (κ × α)) :
    lookup other (eraseEntry key entries) =
      if other = key then none else lookup other entries := by
  induction entries with
  | nil => simp [eraseEntry, lookup]
  | cons head rest inductionHypothesis =>
      obtain ⟨headKey, found⟩ := head
      rw [eraseEntry]
      split
      · rename_i same
        subst same
        rw [inductionHypothesis]
        by_cases atHead : other = key <;> simp [lookup, atHead]
      · rename_i different
        simp only [lookup, inductionHypothesis]
        split
        · rename_i atHead
          subst atHead
          rw [if_neg (Ne.symm different)]
        · rfl

omit [LT κ] [DecidableLT κ] in
theorem lookup_isSome_iff_mem_keys
    (key : κ) (entries : List (κ × α)) :
    (lookup key entries).isSome = true ↔ key ∈ entries.map Prod.fst := by
  induction entries with
  | nil => simp [lookup]
  | cons head rest inductionHypothesis =>
      obtain ⟨headKey, found⟩ := head
      simp only [lookup, List.map_cons, List.mem_cons]
      split
      · rename_i same
        simp [same]
      · rename_i different
        simp [different, inductionHypothesis]

omit [DecidableLT κ] in
/-- The first key of ordered entries is not found among the others. -/
theorem lookup_rest_eq_none
    [TotalKey κ] {key : κ} {value : α} {rest : List (κ × α)}
    (ordered : ((key, value) :: rest).Pairwise (fun first second => first.1 < second.1)) :
    lookup key rest = none := by
  refine Option.not_isSome_iff_eq_none.mp fun present => ?_
  exact TotalKey.irrefl key
    (mem_keys_of_pairwise_cons ordered ((lookup_isSome_iff_mem_keys key rest).mp present))

omit [DecidableLT κ] in
/-- No key before the first one of ordered entries is found. -/
theorem lookup_eq_none_of_before
    [TotalKey κ] {key headKey : κ} {value : α} {rest : List (κ × α)}
    (ordered : ((headKey, value) :: rest).Pairwise (fun first second => first.1 < second.1))
    (before : key < headKey) :
    lookup key ((headKey, value) :: rest) = none := by
  refine Option.not_isSome_iff_eq_none.mp fun present => ?_
  rcases List.mem_cons.mp ((lookup_isSome_iff_mem_keys key _).mp present) with same | inRest
  · exact TotalKey.irrefl key (same ▸ before)
  · exact TotalKey.irrefl key
      (TotalKey.trans before (mem_keys_of_pairwise_cons ordered inRest))

omit [DecidableLT κ] in
/-- Ordered entries that agree on every key start with the same one: the smaller of two would be
missing on the other side. -/
theorem headKey_eq_of_lookup_eq
    [TotalKey κ] {leftKey rightKey : κ} {leftValue rightValue : α} {left right : List (κ × α)}
    (leftOrdered : ((leftKey, leftValue) :: left).Pairwise
      (fun first second => first.1 < second.1))
    (rightOrdered : ((rightKey, rightValue) :: right).Pairwise
      (fun first second => first.1 < second.1))
    (agree : ∀ key, lookup key ((leftKey, leftValue) :: left) =
      lookup key ((rightKey, rightValue) :: right)) :
    leftKey = rightKey := by
  apply TotalKey.connected
  · intro before
    have found := agree leftKey
    rw [lookup_eq_none_of_before rightOrdered before] at found
    simp [lookup] at found
  · intro before
    have found := agree rightKey
    rw [lookup_eq_none_of_before leftOrdered before] at found
    simp [lookup] at found

omit [DecidableLT κ] in
theorem entries_eq_of_lookup_eq
    [TotalKey κ] {left right : List (κ × α)}
    (leftOrdered : left.Pairwise (fun first second => first.1 < second.1))
    (rightOrdered : right.Pairwise (fun first second => first.1 < second.1))
    (agree : ∀ key, lookup key left = lookup key right) :
    left = right := by
  induction left generalizing right with
  | nil =>
      cases right with
      | nil => rfl
      | cons head rest =>
          have found := agree head.1
          simp [lookup] at found
  | cons head rest inductionHypothesis =>
      cases right with
      | nil =>
          have found := agree head.1
          simp [lookup] at found
      | cons other more =>
          obtain ⟨headKey, headValue⟩ := head
          obtain ⟨otherKey, otherValue⟩ := other
          obtain rfl : headKey = otherKey :=
            headKey_eq_of_lookup_eq leftOrdered rightOrdered agree
          have sameValue : headValue = otherValue := by
            have found := agree headKey
            simpa [lookup] using found
          have sameRest : rest = more := by
            apply inductionHypothesis
              (List.pairwise_cons.mp leftOrdered).2 (List.pairwise_cons.mp rightOrdered).2
            intro key
            by_cases atHead : key = headKey
            · rw [atHead, lookup_rest_eq_none leftOrdered, lookup_rest_eq_none rightOrdered]
            · have found := agree key
              simpa [lookup, atHead] using found
          rw [sameValue, sameRest]

end Entries

/-! ### Operations -/

section Operations

variable [DecidableEq κ]

/-- The value under a key. -/
def get? (table : Table κ α) (key : κ) : Option α := lookup key table.entries

/-- Whether the key has an entry. -/
def contains (table : Table κ α) (key : κ) : Bool := (table.get? key).isSome

/-- The table without the key. -/
def erase (table : Table κ α) (key : κ) : Table κ α :=
  ⟨eraseEntry key table.entries, table.ordered.sublist (eraseEntry_sublist key table.entries)⟩

/-- Every value replaced by what `change` makes of it and its key. -/
def mapEntries (change : κ → α → β) (table : Table κ α) : Table κ β :=
  ⟨table.entries.map fun entry => (entry.1, change entry.1 entry.2), by
    rw [List.pairwise_map]
    exact table.ordered⟩

/-- The entries that satisfy a test. -/
def filter (test : κ → α → Bool) (table : Table κ α) : Table κ α :=
  ⟨table.entries.filter fun entry => test entry.1 entry.2, table.ordered.filter _⟩

variable [DecidableLT κ] [TotalKey κ]

/-- The table with `value` under `key`, in place of what was there. -/
def insert (table : Table κ α) (key : κ) (value : α) : Table κ α :=
  ⟨insertEntry key value table.entries, ordered_insertEntry key value table.ordered⟩

/-- Replaces the value under `key`, if there is one. -/
def modify (table : Table κ α) (key : κ) (change : α → α) : Table κ α :=
  match table.get? key with
  | some value => table.insert key (change value)
  | none => table

/-- The table of a list of entries; of several with one key the last counts. -/
def ofList (entries : List (κ × α)) : Table κ α :=
  entries.foldl (fun table entry => table.insert entry.1 entry.2) empty

/-! ### What a look-up finds -/

omit [DecidableLT κ] [TotalKey κ] in
@[simp] theorem get?_empty (key : κ) : (empty : Table κ α).get? key = none := rfl

@[simp] theorem get?_insert
    (table : Table κ α) (key other : κ) (value : α) :
    (table.insert key value).get? other =
      if other = key then some value else table.get? other :=
  lookup_insertEntry key other value table.entries

omit [DecidableLT κ] [TotalKey κ] in
@[simp] theorem get?_erase
    (table : Table κ α) (key other : κ) :
    (table.erase key).get? other = if other = key then none else table.get? other :=
  lookup_eraseEntry key other table.entries

@[simp] theorem get?_modify
    (table : Table κ α) (key other : κ) (change : α → α) :
    (table.modify key change).get? other =
      if other = key then (table.get? key).map change else table.get? other := by
  unfold modify
  cases found : table.get? key with
  | none =>
      by_cases same : other = key <;> simp [same, found]
  | some value => simp

omit [DecidableLT κ] in
/-- Tables that answer every look-up alike are equal. -/
theorem ext_get?
    {left right : Table κ α}
    (agree : ∀ key, left.get? key = right.get? key) :
    left = right := by
  obtain ⟨leftEntries, leftOrdered⟩ := left
  obtain ⟨rightEntries, rightOrdered⟩ := right
  have sameEntries : leftEntries = rightEntries :=
    entries_eq_of_lookup_eq leftOrdered rightOrdered agree
  subst sameEntries
  rfl

end Operations

end Table

/-! ## Sets -/

/-- A finite set of keys, kept in order. -/
abbrev KeySet (κ : Type) [LT κ] := Table κ Unit

namespace KeySet

variable {κ : Type} [LT κ] [DecidableEq κ] [DecidableLT κ] [TotalKey κ]

/-- The set with one more member. -/
def add (set : KeySet κ) (key : κ) : KeySet κ := Table.insert set key ()

/-- The set of the members of a list. -/
def ofList (members : List κ) : KeySet κ := members.foldl add Table.empty

/-- The members, increasing. -/
def toList (set : KeySet κ) : List κ := Table.keys set

end KeySet

end Pipework
