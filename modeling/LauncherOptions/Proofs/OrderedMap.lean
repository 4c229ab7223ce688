import LauncherOptions.OrderedMap
import Mathlib.Data.List.Nodup

/-! # Laws of insertion-ordered maps

A map is known by its keys, in order, and by what each key leads to
(`ext_of_keys_of_get?`). Each operation is described by its effect on these two views. Inserting
the entries of a list keeps the keys that were there in front, adds the new ones in the order of
their first entry (`keys_insertMany`), and gives every key its last value (`get?_insertMany`). A map
laid over another one is the case that the entries are those of a map.
-/

namespace LauncherOptions.OrderedMap

variable {α β : Type} [DecidableEq α]

/-! ## What a key leads to -/

/-- The value of the last entry under a key. -/
def latest? (key : α) (entries : List (α × β)) : Option β :=
  (entries.findRev? fun entry => entry.1 = key).map Prod.snd

theorem find?_eq_some_iff_mem {entries : List (α × β)} (hnodup : (entries.map Prod.fst).Nodup)
    {key : α} {value : β} :
    (entries.find? fun entry => entry.1 = key).map Prod.snd = some value ↔
      (key, value) ∈ entries := by
  rw [Option.map_eq_some_iff]
  constructor
  · rintro ⟨entry, hfind, rfl⟩
    have hkey : entry.1 = key := by simpa using List.find?_some hfind
    rw [← hkey]
    exact List.mem_of_find?_eq_some hfind
  · intro hmem
    cases hfind : entries.find? fun entry => entry.1 = key with
    | none => simpa using List.find?_eq_none.mp hfind _ hmem
    | some entry =>
        have hkey : entry.1 = key := by simpa using List.find?_some hfind
        have heq := List.inj_on_of_nodup_map hnodup (List.mem_of_find?_eq_some hfind) hmem hkey
        exact ⟨entry, rfl, by rw [heq]⟩

/-- A map leads a key to a value exactly if it lists the two as an entry. -/
theorem get?_eq_some_iff {map : OrderedMap α β} {key : α} {value : β} :
    map.get? key = some value ↔ (key, value) ∈ map.entries :=
  find?_eq_some_iff_mem map.nodup

theorem mem_keys_iff {map : OrderedMap α β} {key : α} :
    key ∈ map.keys ↔ ∃ value, map.get? key = some value := by
  simp only [keys, List.mem_map, get?_eq_some_iff]
  constructor
  · rintro ⟨entry, hmem, rfl⟩
    exact ⟨entry.2, hmem⟩
  · rintro ⟨value, hmem⟩
    exact ⟨_, hmem, rfl⟩

theorem get?_eq_none_iff {map : OrderedMap α β} {key : α} :
    map.get? key = none ↔ key ∉ map.keys := by
  rw [mem_keys_iff, ← Option.isSome_iff_exists, Option.not_isSome_iff_eq_none]

/-- In a map the only entry under a key is also the last one. -/
theorem latest?_entries (map : OrderedMap α β) (key : α) :
    latest? key map.entries = map.get? key := by
  have hreverse : (map.entries.reverse.map Prod.fst).Nodup := by
    rw [List.map_reverse, List.nodup_reverse]
    exact map.nodup
  apply Option.ext
  intro value
  rw [latest?, List.findRev?_eq_find?_reverse, find?_eq_some_iff_mem hreverse,
    List.mem_reverse, get?_eq_some_iff]

/-- If no key stands there twice, every entry is the last one under its key. -/
theorem latest?_eq_some_of_mem {entries : List (α × β)} (hnodup : (entries.map Prod.fst).Nodup)
    {key : α} {value : β} (h : (key, value) ∈ entries) : latest? key entries = some value := by
  have hlatest := latest?_entries ⟨entries, hnodup⟩ key
  exact hlatest.trans (get?_eq_some_iff.mpr h)

theorem latest?_cons (key : α) (entry : α × β) (rest : List (α × β)) :
    latest? key (entry :: rest) =
      (latest? key rest).or (if entry.1 = key then some entry.2 else none) := by
  simp only [latest?, List.findRev?_eq_find?_reverse, List.reverse_cons, List.find?_append,
    Option.map_or]
  by_cases h : entry.1 = key <;> simp [h]

theorem latest?_eq_none_iff {key : α} {entries : List (α × β)} :
    latest? key entries = none ↔ key ∉ entries.map Prod.fst := by
  simp only [latest?, List.findRev?_eq_find?_reverse, Option.map_eq_none_iff, List.find?_eq_none,
    List.mem_reverse, decide_eq_true_eq, List.mem_map, not_exists, not_and]

theorem latest?_eq_none {key : α} {entries : List (α × β)} (h : key ∉ entries.map Prod.fst) :
    latest? key entries = none :=
  latest?_eq_none_iff.mpr h

/-- The last entry under a key has a place, and the key stands at no later one. -/
theorem latest?_eq_some_iff {key : α} {value : β} {entries : List (α × β)} :
    latest? key entries = some value ↔
      ∃ index : Nat, entries[index]? = some (key, value) ∧
        ∀ later, index < later → (entries.map Prod.fst)[later]? ≠ some key := by
  induction entries with
  | nil => simp [latest?_eq_none]
  | cons entry rest ih =>
      rw [latest?_cons]
      constructor
      · intro h
        cases hrest : latest? key rest with
        | some found =>
            rw [hrest, Option.some_or] at h
            obtain ⟨index, hindex, hlast⟩ := ih.mp (hrest.trans h)
            refine ⟨index + 1, hindex, fun later hlt => ?_⟩
            obtain ⟨later, rfl⟩ := Nat.exists_eq_succ_of_ne_zero (Nat.ne_zero_of_lt hlt)
            exact hlast later (Nat.lt_of_succ_lt_succ hlt)
        | none =>
            rw [hrest, Option.none_or] at h
            split at h
            next hkey =>
              refine ⟨0, by rw [← hkey, ← Option.some.inj h]; rfl, fun later hlt hlater => ?_⟩
              obtain ⟨later, rfl⟩ := Nat.exists_eq_succ_of_ne_zero (Nat.ne_zero_of_lt hlt)
              exact latest?_eq_none_iff.mp hrest (List.mem_of_getElem? hlater)
            next => cases h
      · rintro ⟨index, hindex, hlast⟩
        cases index with
        | zero =>
            have hnone : latest? key rest = none := by
              rw [latest?_eq_none_iff]
              intro hmem
              obtain ⟨later, hlater⟩ := List.getElem?_of_mem hmem
              exact hlast (later + 1) (Nat.succ_pos later) hlater
            cases hindex
            rw [hnone, Option.none_or, if_pos rfl]
        | succ index =>
            have hsome : latest? key rest = some value :=
              ih.mpr ⟨index, hindex, fun later hlt => hlast (later + 1) (Nat.succ_lt_succ hlt)⟩
            rw [hsome, Option.some_or]

/-! ## Maps with the same keys and values -/

omit [DecidableEq α] in
theorem ext_entries {left right : OrderedMap α β} (h : left.entries = right.entries) :
    left = right := by
  cases left
  cases right
  cases h
  rfl

/-- Two maps that list the same keys in the same order and lead each of them to the same value
are one map. -/
theorem ext_of_keys_of_get? {left right : OrderedMap α β} (hkeys : left.keys = right.keys)
    (hget : ∀ key, left.get? key = right.get? key) : left = right := by
  apply ext_entries
  have hlength : left.entries.length = right.entries.length := by
    simpa [keys] using congrArg List.length hkeys
  apply List.ext_getElem hlength
  intro index hleft hright
  have hkey : left.entries[index].1 = right.entries[index].1 := by
    have h : left.keys[index]? = right.keys[index]? := by rw [hkeys]
    simpa [keys, hleft, hright] using h
  -- the entry on the left is found on the right under its key, where the key stands only once
  have hmem : (left.entries[index].1, left.entries[index].2) ∈ right.entries := by
    rw [← get?_eq_some_iff, ← hget, get?_eq_some_iff]
    exact List.getElem_mem hleft
  exact List.inj_on_of_nodup_map right.nodup hmem (List.getElem_mem hright) hkey

/-- Maps that lead every key to the same value list the same entries. -/
theorem perm_of_get? {left right : OrderedMap α β} (h : ∀ key, left.get? key = right.get? key) :
    left.entries.Perm right.entries := by
  rw [List.perm_ext_iff_of_nodup left.nodup.of_map right.nodup.of_map]
  rintro ⟨key, value⟩
  rw [← get?_eq_some_iff, ← get?_eq_some_iff, h]

/-! ## Changing one key -/

theorem get?_insert (map : OrderedMap α β) (key : α) (value : β) (other : α) :
    (map.insert key value).get? other = if other = key then some value else map.get? other :=
  find?_setEntry key other value map.entries

theorem mem_entries_insert {map : OrderedMap α β} {key : α} {value : β} {entry : α × β} :
    entry ∈ (map.insert key value).entries ↔
      entry = (key, value) ∨ entry.1 ≠ key ∧ entry ∈ map.entries := by
  obtain ⟨other, found⟩ := entry
  rw [← get?_eq_some_iff, ← get?_eq_some_iff, get?_insert, Prod.mk.injEq]
  by_cases h : other = key
  · simp [h, eq_comm]
  · simp [h]

theorem get?_erase (map : OrderedMap α β) (key other : α) :
    (map.erase key).get? other = if other = key then none else map.get? other :=
  find?_filter_ne key other map.entries

theorem keys_erase (map : OrderedMap α β) (key : α) :
    (map.erase key).keys = map.keys.filter fun other => other ≠ key := by
  simp only [keys, entries_erase, List.filter_map]
  rfl

theorem get?_filter (map : OrderedMap α β) (condition : α → β → Bool) (key : α) :
    (map.filter condition).get? key = (map.get? key).filter (condition key) := by
  apply Option.ext
  intro value
  rw [get?_eq_some_iff, Option.filter_eq_some_iff, get?_eq_some_iff]
  simp [filter]

theorem insert_insert (map : OrderedMap α β) (key : α) (first second : β) :
    (map.insert key first).insert key second = map.insert key second := by
  apply ext_of_keys_of_get?
  · simp only [keys_insert]
    split <;> simp_all
  · intro other
    simp only [get?_insert]
    split <;> rfl

/-- Setting a key to the value that it has changes nothing. -/
theorem insert_eq_self {map : OrderedMap α β} {key : α} {value : β}
    (h : map.get? key = some value) : map.insert key value = map := by
  apply ext_of_keys_of_get?
  · rw [keys_insert, if_pos (mem_keys_iff.mpr ⟨value, h⟩)]
  · intro other
    rw [get?_insert]
    split
    next heq => rw [heq, h]
    next => rfl

/-- Removing a key that is not there changes nothing. -/
theorem erase_eq_self {map : OrderedMap α β} {key : α} (h : map.get? key = none) :
    map.erase key = map := by
  apply ext_of_keys_of_get?
  · rw [keys_erase, List.filter_eq_self]
    intro other hother
    have hne : other ≠ key := fun heq => get?_eq_none_iff.mp h (heq ▸ hother)
    simpa using hne
  · intro other
    rw [get?_erase]
    split
    next heq => rw [heq, h]
    next => rfl

/-- Setting an entry adds at most `bound` to how often an element stands in the texts of all
entries, if it adds no more to that of the entry that is replaced, and the new entry has it no more
often. -/
theorem count_flatMap_setEntry_le {γ : Type} [BEq γ] (text : α × β → List γ) (x : γ) {bound : Nat}
    {key : α} {value : β} {entries : List (α × β)}
    (hnew : key ∉ entries.map Prod.fst → (text (key, value)).count x ≤ bound)
    (hold : ∀ old, (key, old) ∈ entries →
      (text (key, value)).count x ≤ (text (key, old)).count x + bound) :
    ((setEntry key value entries).flatMap text).count x ≤
      (entries.flatMap text).count x + bound := by
  induction entries with
  | nil => simpa [setEntry] using hnew List.not_mem_nil
  | cons entry rest ih =>
      obtain ⟨other, found⟩ := entry
      by_cases h : other = key
      · subst h
        have hle := hold found List.mem_cons_self
        simp only [setEntry, if_true, List.flatMap_cons, List.count_append]
        omega
      · have hne : key ≠ other := fun heq => h heq.symm
        have hle := ih (fun hmem => hnew (by simpa [hne] using hmem))
          fun old hmem => hold old (List.mem_cons_of_mem _ hmem)
        simp only [setEntry, h, if_false, List.flatMap_cons, List.count_append]
        omega

/-! ## Inserting the entries of a list -/

@[simp] theorem insertMany_nil (map : OrderedMap α β) : map.insertMany [] = map := rfl

theorem insertMany_cons (map : OrderedMap α β) (entry : α × β) (rest : List (α × β)) :
    map.insertMany (entry :: rest) = (map.insert entry.1 entry.2).insertMany rest := rfl

theorem insertMany_append (map : OrderedMap α β) (first second : List (α × β)) :
    map.insertMany (first ++ second) = (map.insertMany first).insertMany second :=
  List.foldl_append

/-- The last entry under a key gives the key its value. -/
theorem get?_insertMany (map : OrderedMap α β) (entries : List (α × β)) (key : α) :
    (map.insertMany entries).get? key = (latest? key entries).or (map.get? key) := by
  induction entries generalizing map with
  | nil => rfl
  | cons entry rest ih =>
      rw [insertMany_cons, ih, get?_insert, latest?_cons, Option.or_assoc]
      by_cases h : entry.1 = key
      · simp [h]
      · have hne : ¬key = entry.1 := fun heq => h heq.symm
        simp [h, hne]

/-- The keys that were there stay in front, and the others follow in the order of their first
entry. -/
theorem keys_insertMany (map : OrderedMap α β) (entries : List (α × β)) :
    (map.insertMany entries).keys =
      map.keys ++ ((entries.map Prod.fst).filter fun key => key ∉ map.keys).eraseDups := by
  induction entries generalizing map with
  | nil => simp
  | cons entry rest ih =>
      rw [insertMany_cons, ih, keys_insert]
      by_cases h : entry.1 ∈ map.keys
      · simp [h]
      · have hfilter : ((rest.map Prod.fst).filter fun key => key ∉ map.keys ++ [entry.1]) =
            ((rest.map Prod.fst).filter fun key => key ∉ map.keys).filter
              fun key => !key == entry.1 := by
          rw [List.filter_filter]
          congr 1
          funext key
          by_cases hkey : key = entry.1 <;> simp [hkey]
        rw [if_neg h, hfilter, List.map_cons, List.filter_cons_of_pos (by simpa using h),
          List.eraseDups_cons, List.append_assoc, List.singleton_append]

theorem mem_keys_insertMany {map : OrderedMap α β} {entries : List (α × β)} {key : α} :
    key ∈ (map.insertMany entries).keys ↔ key ∈ map.keys ∨ key ∈ entries.map Prod.fst := by
  rw [keys_insertMany, List.mem_append, List.mem_eraseDups, List.mem_filter]
  by_cases h : key ∈ map.keys <;> simp [h]

/-- Entries whose last ones are there already change nothing, however often a key is repeated. -/
theorem insertMany_eq_self {map : OrderedMap α β} {entries : List (α × β)}
    (h : ∀ key value, latest? key entries = some value → map.get? key = some value) :
    map.insertMany entries = map := by
  apply ext_of_keys_of_get?
  · have hkeys : ((entries.map Prod.fst).filter fun key => key ∉ map.keys) = [] := by
      rw [List.filter_eq_nil_iff]
      intro key hkey
      obtain ⟨value, hlatest⟩ := Option.ne_none_iff_exists'.mp
        fun hnone => latest?_eq_none_iff.mp hnone hkey
      simpa using mem_keys_iff.mpr ⟨value, h key value hlatest⟩
    rw [keys_insertMany, hkeys, List.eraseDups_nil, List.append_nil]
  · intro key
    rw [get?_insertMany]
    cases hlatest : latest? key entries with
    | none => rfl
    | some value => rw [Option.some_or, h key value hlatest]

/-! ## Overlays -/

theorem eraseDups_eq_self {keys : List α} (hnodup : keys.Nodup) : keys.eraseDups = keys := by
  induction keys with
  | nil => rfl
  | cons key rest ih =>
      obtain ⟨hkey, hrest⟩ := List.nodup_cons.mp hnodup
      have hfilter : (rest.filter fun other => !other == key) = rest := by
        rw [List.filter_eq_self]
        intro other hother
        have hne : other ≠ key := fun heq => hkey (heq ▸ hother)
        simpa using hne
      rw [List.eraseDups_cons, hfilter, ih hrest]

/-- A map laid over another one adds the keys that only it has. -/
theorem keys_overlay (base upper : OrderedMap α β) :
    (base.insertMany upper.entries).keys =
      base.keys ++ upper.keys.filter fun key => key ∉ base.keys := by
  rw [keys_insertMany]
  congr 1
  exact eraseDups_eq_self (upper.nodup.filter _)

theorem get?_overlay (base upper : OrderedMap α β) (key : α) :
    (base.insertMany upper.entries).get? key = (upper.get? key).or (base.get? key) := by
  rw [get?_insertMany, latest?_entries]

/-- Inserting into the upper map is inserting into the overlay. -/
theorem overlay_insert (base upper : OrderedMap α β) (key : α) (value : β) :
    base.insertMany (upper.insert key value).entries =
      (base.insertMany upper.entries).insert key value := by
  apply ext_of_keys_of_get?
  · rw [keys_overlay, keys_insert, keys_insert, keys_overlay]
    by_cases hbase : key ∈ base.keys
    · by_cases hupper : key ∈ upper.keys <;> simp [hbase, hupper]
    · by_cases hupper : key ∈ upper.keys <;> simp [hbase, hupper]
  · intro other
    rw [get?_overlay, get?_insert, get?_insert, get?_overlay]
    split <;> rfl

/-- Removing from the upper map a key that the lower one leads to a value is inserting that value
into the overlay. -/
theorem overlay_erase {base : OrderedMap α β} {key : α} {value : β}
    (hbase : base.get? key = some value) (upper : OrderedMap α β) :
    base.insertMany (upper.erase key).entries =
      (base.insertMany upper.entries).insert key value := by
  have hmem : key ∈ base.keys := mem_keys_iff.mpr ⟨value, hbase⟩
  apply ext_of_keys_of_get?
  · rw [keys_overlay, keys_insert, keys_overlay, keys_erase, List.filter_filter,
      if_pos (List.mem_append_left _ hmem)]
    congr 2
    -- the removed key is a key of the lower map and would not be listed anyway
    funext other
    by_cases hother : other = key <;> simp [hother, hmem]
  · intro other
    rw [get?_overlay, get?_erase, get?_insert, get?_overlay]
    split
    next heq => rw [heq, hbase]; rfl
    next => rfl

/-- Entries that say the same as the lower map can be left out of the upper one. -/
theorem overlay_filter_ne [DecidableEq β] (base upper : OrderedMap α β) :
    base.insertMany (upper.filter fun key value => base.get? key ≠ some value).entries =
      base.insertMany upper.entries := by
  apply ext_of_keys_of_get?
  · rw [keys_overlay, keys_overlay]
    congr 1
    simp only [keys, filter, List.filter_map, List.filter_filter]
    congr 2
    funext entry
    by_cases hmem : entry.1 ∈ base.keys
    · simp only [keys] at hmem
      simp [hmem]
    · have hnone := get?_eq_none_iff.mpr hmem
      simp [hnone]
  · intro key
    rw [get?_overlay, get?_overlay, get?_filter]
    cases hupper : upper.get? key with
    | none => rfl
    | some value =>
        by_cases hbase : base.get? key = some value <;> simp [hbase, Option.filter]

/-- Listing the entries of a map and inserting them again gives the map back. -/
theorem ofList_entries (map : OrderedMap α β) : ofList map.entries = map := by
  apply ext_of_keys_of_get?
  · rw [ofList, keys_overlay]
    simp [keys]
  · intro key
    rw [ofList, get?_overlay]
    exact Option.or_none

end LauncherOptions.OrderedMap
