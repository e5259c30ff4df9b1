import Pipework.Table

/-!
# Entries, keys and look-ups of tables

A table is known by its look-ups. This module says how its entries, its keys and the table of a
list of entries show in them, and restates the same facts for sets, where the only question is
whether a member is there.
-/

namespace Pipework

namespace Table

/-! ## Look-ups in lists of entries -/

section Lookup

variable {κ α β : Type} [DecidableEq κ]

theorem lookup_of_mem
    {key : κ} {value : α} {entries : List (κ × α)}
    (keysNodup : (entries.map Prod.fst).Nodup)
    (member : (key, value) ∈ entries) :
    lookup key entries = some value := by
  induction entries with
  | nil => simp at member
  | cons head rest inductionHypothesis =>
      obtain ⟨headKey, found⟩ := head
      obtain ⟨headFresh, restNodup⟩ := List.nodup_cons.mp keysNodup
      rw [lookup]
      rcases List.mem_cons.mp member with atHead | inRest
      · injection atHead with sameKey sameValue
        rw [if_pos sameKey, sameValue]
      · have different : key ≠ headKey := by
          intro same
          have inKeys : key ∈ rest.map Prod.fst :=
            List.mem_map.mpr ⟨(key, value), inRest, rfl⟩
          exact headFresh (same ▸ inKeys)
        rw [if_neg different]
        exact inductionHypothesis restNodup inRest

theorem mem_of_lookup
    {key : κ} {value : α} {entries : List (κ × α)}
    (found : lookup key entries = some value) :
    (key, value) ∈ entries := by
  induction entries with
  | nil => simp [lookup] at found
  | cons head rest inductionHypothesis =>
      obtain ⟨headKey, headValue⟩ := head
      rw [lookup] at found
      split at found
      · rename_i same
        injection found with sameValue
        rw [same, sameValue]
        exact List.mem_cons_self
      · exact List.mem_cons_of_mem _ (inductionHypothesis found)

theorem lookup_append
    (key : κ) (front back : List (κ × α)) :
    lookup key (front ++ back) = (lookup key front).or (lookup key back) := by
  induction front with
  | nil => rfl
  | cons head rest inductionHypothesis =>
      obtain ⟨headKey, value⟩ := head
      rw [List.cons_append, lookup, lookup, inductionHypothesis]
      split <;> rfl

/-- When no key stands twice, the order of the entries does not matter. -/
theorem lookup_reverse
    {entries : List (κ × α)}
    (keysNodup : (entries.map Prod.fst).Nodup) (key : κ) :
    lookup key entries.reverse = lookup key entries := by
  have reversedNodup : (entries.reverse.map Prod.fst).Nodup :=
    ((List.reverse_perm entries).map Prod.fst).nodup_iff.mpr keysNodup
  apply Option.ext
  intro value
  constructor
  · intro found
    exact lookup_of_mem keysNodup (List.mem_reverse.mp (mem_of_lookup found))
  · intro found
    exact lookup_of_mem reversedNodup (List.mem_reverse.mpr (mem_of_lookup found))

theorem lookup_map
    (change : κ → α → β) (key : κ) (entries : List (κ × α)) :
    lookup key (entries.map fun entry => (entry.1, change entry.1 entry.2)) =
      (lookup key entries).map (change key) := by
  induction entries with
  | nil => rfl
  | cons head rest inductionHypothesis =>
      obtain ⟨headKey, value⟩ := head
      simp only [List.map_cons, lookup]
      split
      · rename_i same
        rw [same, Option.map_some]
      · exact inductionHypothesis

end Lookup

/-! ## Increasing lists -/

section Increasing

variable {κ α : Type} [LT κ] [TotalKey κ] {keyOf : α → κ}

theorem nodup_of_increasing
    {items : List α} (increasing : items.Pairwise fun first second => keyOf first < keyOf second) :
    items.Nodup := by
  refine increasing.imp ?_
  intro first second before same
  exact TotalKey.irrefl (keyOf first) (same ▸ before)

/-- Lists with the same members are equal when their keys increase strictly. -/
theorem eq_of_increasing
    {left right : List α}
    (leftIncreasing : left.Pairwise fun first second => keyOf first < keyOf second)
    (rightIncreasing : right.Pairwise fun first second => keyOf first < keyOf second)
    (sameMembers : ∀ item, item ∈ left ↔ item ∈ right) :
    left = right := by
  refine List.Perm.eq_of_pairwise ?_ leftIncreasing rightIncreasing ?_
  · intro first second _ _ before after
    exact absurd (TotalKey.trans before after) (TotalKey.irrefl (keyOf first))
  · rw [List.perm_ext_iff_of_nodup (nodup_of_increasing leftIncreasing)
      (nodup_of_increasing rightIncreasing)]
    exact sameMembers

end Increasing

/-! ## Entries and keys -/

variable {κ α β : Type} [LT κ]

theorem keys_pairwise
    (table : Table κ α) :
    table.keys.Pairwise (· < ·) := by
  rw [keys, List.pairwise_map]
  exact table.ordered

theorem keys_nodup
    [TotalKey κ] (table : Table κ α) :
    table.keys.Nodup :=
  nodup_of_increasing table.keys_pairwise

variable [DecidableEq κ]

/-- The entries of a table are what its look-ups find. -/
theorem mem_entries_iff
    [TotalKey κ] {table : Table κ α} {key : κ} {value : α} :
    (key, value) ∈ table.entries ↔ table.get? key = some value :=
  ⟨lookup_of_mem table.keys_nodup, mem_of_lookup⟩

theorem contains_iff
    {table : Table κ α} {key : κ} :
    table.contains key = true ↔ ∃ value, table.get? key = some value := by
  rw [contains, Option.isSome_iff_exists]

theorem contains_eq_false_iff
    {table : Table κ α} {key : κ} :
    table.contains key = false ↔ table.get? key = none := by
  rw [contains, Option.isSome_eq_false_iff, Option.isNone_iff_eq_none]

theorem contains_insert_iff
    [DecidableLT κ] [TotalKey κ] {table : Table κ α} {key other : κ} {value : α} :
    (table.insert key value).contains other = true ↔ other = key ∨ table.contains other = true := by
  rw [contains, contains, get?_insert]
  by_cases same : other = key <;> simp [same]

theorem get?_insert_iff
    [DecidableLT κ] [TotalKey κ] {table : Table κ α} {key other : κ} {value found : α} :
    (table.insert key value).get? other = some found ↔
      (other = key ∧ found = value) ∨ (other ≠ key ∧ table.get? other = some found) := by
  rw [get?_insert]
  by_cases same : other = key
  · rw [if_pos same, Option.some_inj]
    simp [same, eq_comm]
  · rw [if_neg same]
    simp [same]

theorem mem_keys_iff
    {table : Table κ α} {key : κ} :
    key ∈ table.keys ↔ table.contains key = true :=
  (lookup_isSome_iff_mem_keys key table.entries).symm

theorem mem_values_iff
    [TotalKey κ] {table : Table κ α} {value : α} :
    value ∈ table.values ↔ ∃ key, table.get? key = some value := by
  rw [values, List.mem_map]
  constructor
  · intro found
    obtain ⟨⟨key, _⟩, member, rfl⟩ := found
    exact ⟨key, mem_entries_iff.mp member⟩
  · intro found
    obtain ⟨key, found⟩ := found
    exact ⟨(key, value), mem_entries_iff.mpr found, rfl⟩

section Keyed

variable [TotalKey κ] {table : Table κ α} {keyOf : α → κ}
  (keyed : ∀ {key value}, table.get? key = some value → keyOf value = key)

include keyed

/-- Where values know their keys, the keys of all values are the keys of the table. -/
theorem map_values_eq_keys :
    table.values.map keyOf = table.keys := by
  rw [values, keys, List.map_map]
  apply List.map_congr_left
  intro entry member
  exact keyed (mem_entries_iff.mp member)

theorem nodup_map_values :
    (table.values.map keyOf).Nodup := by
  rw [map_values_eq_keys keyed]
  exact table.keys_nodup

/-- Where values know their keys, a value is found under its own key. -/
theorem mem_values_iff_get?
    {value : α} :
    value ∈ table.values ↔ table.get? (keyOf value) = some value := by
  rw [mem_values_iff]
  constructor
  · intro found
    obtain ⟨key, present⟩ := found
    rw [keyed present]
    exact present
  · intro present
    exact ⟨keyOf value, present⟩

end Keyed

/-- Two tables have the same list of keys exactly when they hold the same keys. -/
theorem keys_eq_iff
    [TotalKey κ] {left : Table κ α} {right : Table κ β} :
    left.keys = right.keys ↔ ∀ key, left.contains key = right.contains key := by
  constructor
  · intro same key
    rw [Bool.eq_iff_iff, ← mem_keys_iff, ← mem_keys_iff, same]
  · intro agree
    refine eq_of_increasing left.keys_pairwise right.keys_pairwise ?_
    intro key
    rw [mem_keys_iff, mem_keys_iff, agree]

/-! ## Tables made of others -/

@[simp] theorem get?_mapEntries
    (change : κ → α → β) (table : Table κ α) (key : κ) :
    (table.mapEntries change).get? key = (table.get? key).map (change key) :=
  lookup_map change key table.entries

@[simp] theorem get?_filter
    [TotalKey κ] (test : κ → α → Bool) (table : Table κ α) (key : κ) :
    (table.filter test).get? key = (table.get? key).filter (test key) := by
  apply Option.ext
  intro value
  rw [← mem_entries_iff, filter, List.mem_filter, mem_entries_iff, Option.filter_eq_some_iff]

omit [DecidableEq κ] in
theorem values_mapEntries
    (change : α → β) (table : Table κ α) :
    (table.mapEntries fun _ => change).values = table.values.map change := by
  rw [values, values, mapEntries, List.map_map, List.map_map]
  rfl

omit [DecidableEq κ] in
theorem values_filter
    (test : α → Bool) (table : Table κ α) :
    (table.filter fun _ => test).values = table.values.filter test := by
  rw [values, values, filter, List.filter_map]
  rfl

variable [DecidableLT κ] [TotalKey κ]

/-- To put under a key what is there changes nothing. -/
theorem insert_of_get?
    {table : Table κ α} {key : κ} {value : α} (present : table.get? key = some value) :
    table.insert key value = table := by
  apply ext_get?
  intro other
  rw [get?_insert]
  split
  · rename_i same
    rw [same, present]
  · rfl

/-- Of two values put under one key the second counts. -/
theorem insert_insert
    (table : Table κ α) (key : κ) (first second : α) :
    (table.insert key first).insert key second = table.insert key second := by
  apply ext_get?
  intro other
  rw [get?_insert, get?_insert, get?_insert]
  split <;> rfl

/-- Entries put into a table one after the other: the last of a key counts, and behind them
what the table held. -/
theorem get?_foldl_insert
    (entries : List (κ × α)) (table : Table κ α) (key : κ) :
    (entries.foldl (fun current entry => current.insert entry.1 entry.2) table).get? key =
      (lookup key entries.reverse).or (table.get? key) := by
  induction entries generalizing table with
  | nil => rfl
  | cons head rest inductionHypothesis =>
      obtain ⟨headKey, value⟩ := head
      rw [List.foldl_cons, inductionHypothesis, List.reverse_cons, lookup_append,
        Option.or_assoc, get?_insert]
      simp only [lookup]
      split <;> rfl

theorem get?_ofList
    (entries : List (κ × α)) (key : κ) :
    (ofList entries).get? key = lookup key entries.reverse := by
  rw [ofList, get?_foldl_insert, get?_empty, Option.or_none]

/-- The table of entries with different keys holds just these entries. -/
theorem get?_ofList_eq_some_iff
    {entries : List (κ × α)} (keysNodup : (entries.map Prod.fst).Nodup) {key : κ} {value : α} :
    (ofList entries).get? key = some value ↔ (key, value) ∈ entries := by
  rw [get?_ofList, lookup_reverse keysNodup]
  exact ⟨mem_of_lookup, lookup_of_mem keysNodup⟩

/-- The table of a list of entries whose values hang on their keys alone. -/
theorem get?_ofList_map
    (items : List β) (keyOf : β → κ) (valueOf : κ → α) (key : κ) :
    (ofList (items.map fun item => (keyOf item, valueOf (keyOf item)))).get? key =
      if key ∈ items.map keyOf then some (valueOf key) else none := by
  rw [get?_ofList, ← List.map_reverse]
  have sameMembers : items.map keyOf = (items.reverse.map keyOf).reverse := by simp
  rw [sameMembers]
  generalize items.reverse = reversed
  induction reversed with
  | nil => simp [lookup]
  | cons head rest inductionHypothesis =>
      simp only [List.mem_reverse] at inductionHypothesis ⊢
      simp only [List.map_cons, lookup, List.mem_cons, inductionHypothesis]
      by_cases atHead : key = keyOf head <;> simp [atHead]

/-- A table is the table of its entries. -/
theorem ofList_entries
    (table : Table κ α) :
    ofList table.entries = table := by
  apply ext_get?
  intro key
  rw [get?_ofList, lookup_reverse table.keys_nodup]
  rfl

end Table

/-! ## Sets -/

namespace KeySet

variable {κ : Type} [LT κ] [DecidableEq κ]

theorem mem_toList_iff
    {set : KeySet κ} {key : κ} :
    key ∈ set.toList ↔ Table.contains set key = true :=
  Table.mem_keys_iff

@[simp] theorem contains_empty
    (key : κ) :
    Table.contains (Table.empty : KeySet κ) key = false := rfl

theorem contains_filter
    [TotalKey κ] (test : κ → Bool) (set : KeySet κ) (key : κ) :
    Table.contains (Table.filter (fun key _ => test key) set) key =
      (Table.contains set key && test key) := by
  rw [Table.contains, Table.contains, Table.get?_filter]
  cases Table.get? set key with
  | none => rfl
  | some _ => cases test key <;> rfl

omit [DecidableEq κ] in
theorem toList_filter
    (test : κ → Bool) (set : KeySet κ) :
    toList (Table.filter (fun key _ => test key) set) = set.toList.filter test := by
  rw [toList, toList, Table.keys, Table.keys, Table.filter, List.filter_map]
  rfl

@[simp] theorem contains_erase
    (set : KeySet κ) (key other : κ) :
    Table.contains (Table.erase set key) other =
      (decide (other ≠ key) && Table.contains set other) := by
  rw [Table.contains, Table.get?_erase]
  by_cases same : other = key
  · simp [same]
  · simp [same, Table.contains]

variable [DecidableLT κ] [TotalKey κ]

@[simp] theorem contains_add
    (set : KeySet κ) (key other : κ) :
    Table.contains (set.add key) other =
      (decide (other = key) || Table.contains set other) := by
  rw [add, Table.contains, Table.get?_insert]
  by_cases same : other = key
  · simp [same]
  · simp [same, Table.contains]

theorem contains_foldl_add
    (members : List κ) (set : KeySet κ) (key : κ) :
    Table.contains (members.foldl add set) key =
      (decide (key ∈ members) || Table.contains set key) := by
  induction members generalizing set with
  | nil => simp
  | cons head rest inductionHypothesis =>
      rw [List.foldl_cons, inductionHypothesis, contains_add]
      by_cases atHead : key = head
      · simp [atHead]
      · simp [atHead]

@[simp] theorem contains_ofList
    (members : List κ) (key : κ) :
    Table.contains (ofList members) key = decide (key ∈ members) := by
  rw [ofList, contains_foldl_add, contains_empty, Bool.or_false]

omit [DecidableLT κ] in
/-- Sets with the same members are equal. -/
theorem ext_contains
    {left right : KeySet κ}
    (agree : ∀ key, Table.contains left key = Table.contains right key) :
    left = right := by
  apply Table.ext_get?
  intro key
  have same := agree key
  rw [Table.contains, Table.contains] at same
  cases inLeft : Table.get? left key with
  | none =>
      rw [inLeft] at same
      exact (Option.not_isSome_iff_eq_none.mp (by simp [← same])).symm
  | some found =>
      rw [inLeft] at same
      obtain ⟨other, inRight⟩ := Option.isSome_iff_exists.mp same.symm
      rw [inRight]

end KeySet

end Pipework
