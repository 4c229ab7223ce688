/-! # Insertion-ordered maps

A map whose entries are listed in the order in which their keys were first inserted. Inserting a
key that is present replaces its value in place, erasing a key closes the gap, and two maps are
equal only if they list the same entries in the same order. The list of entries is the view in
which every operation is described.
-/

namespace LauncherOptions

/-- Entries in order of insertion, no two of them under one key. -/
structure OrderedMap (α β : Type) where
  /-- The entries, oldest first. -/
  entries : List (α × β)
  nodup : (entries.map Prod.fst).Nodup
  deriving DecidableEq

namespace OrderedMap

variable {α β : Type} [DecidableEq α]

/-- The entries with `key` set to `value`: in place if the key is listed, at the end if not. -/
def setEntry (key : α) (value : β) : List (α × β) → List (α × β)
  | [] => [(key, value)]
  | entry :: rest =>
    if entry.1 = key then (key, value) :: rest else entry :: setEntry key value rest

theorem map_fst_setEntry (key : α) (value : β) (entries : List (α × β)) :
    (setEntry key value entries).map Prod.fst =
      if key ∈ entries.map Prod.fst then entries.map Prod.fst
      else entries.map Prod.fst ++ [key] := by
  induction entries with
  | nil => simp [setEntry]
  | cons entry rest ih =>
      by_cases h : entry.1 = key
      · simp [setEntry, h]
      · have hne : ¬key = entry.1 := fun heq => h heq.symm
        simp only [setEntry, h, if_false, List.map_cons, ih, List.mem_cons, hne, false_or]
        split <;> simp

theorem nodup_setEntry (key : α) (value : β) {entries : List (α × β)}
    (h : (entries.map Prod.fst).Nodup) : ((setEntry key value entries).map Prod.fst).Nodup := by
  rw [map_fst_setEntry]
  split
  · exact h
  next hkey =>
    refine List.nodup_append.mpr ⟨h, by simp, ?_⟩
    intro a ha b hb heq
    simp only [List.mem_singleton] at hb
    exact hkey (hb ▸ heq ▸ ha)

/-- What a key leads to in a list of entries with one key set. -/
theorem find?_setEntry (key other : α) (value : β) (entries : List (α × β)) :
    ((setEntry key value entries).find? fun entry => entry.1 = other).map Prod.snd =
      if other = key then some value
      else (entries.find? fun entry => entry.1 = other).map Prod.snd := by
  induction entries with
  | nil => by_cases h : key = other <;> simp [setEntry, h, eq_comm]
  | cons entry rest ih =>
      by_cases hkey : entry.1 = key
      · by_cases hother : key = other <;> simp [setEntry, hkey, hother, eq_comm]
      · by_cases hother : entry.1 = other
        · have hne : ¬other = key := hother ▸ hkey
          simp [setEntry, hother, hne]
        · simpa [setEntry, hkey, hother] using ih

/-- What a key leads to in a list of entries with one key removed. -/
theorem find?_filter_ne (key other : α) (entries : List (α × β)) :
    ((entries.filter fun entry => entry.1 ≠ key).find? fun entry => entry.1 = other).map
        Prod.snd =
      if other = key then none
      else (entries.find? fun entry => entry.1 = other).map Prod.snd := by
  rw [List.find?_filter]
  split
  next h => simp [h]
  next h =>
    congr 2
    funext entry
    by_cases hother : entry.1 = other <;> simp [hother, h]

def empty : OrderedMap α β := ⟨[], List.nodup_nil⟩

instance : Inhabited (OrderedMap α β) := ⟨empty⟩

/-- The keys, oldest first. -/
def keys (map : OrderedMap α β) : List α :=
  map.entries.map Prod.fst

def size (map : OrderedMap α β) : Nat :=
  map.entries.length

def isEmpty (map : OrderedMap α β) : Bool :=
  map.entries.isEmpty

def get? (map : OrderedMap α β) (key : α) : Option β :=
  (map.entries.find? fun entry => entry.1 = key).map Prod.snd

def contains (map : OrderedMap α β) (key : α) : Bool :=
  map.entries.any fun entry => entry.1 = key

/-- Sets the value under a key, in place if the key is present and at the end if it is new. -/
def insert (map : OrderedMap α β) (key : α) (value : β) : OrderedMap α β where
  entries := setEntry key value map.entries
  nodup := nodup_setEntry key value map.nodup

/-- Removes a key and keeps the order of the rest. -/
def erase (map : OrderedMap α β) (key : α) : OrderedMap α β where
  entries := map.entries.filter fun entry => entry.1 ≠ key
  nodup := map.nodup.sublist (List.filter_sublist.map Prod.fst)

/-- Sets the value under a key and hands out the one it replaces. -/
def exchange (map : OrderedMap α β) (key : α) (value : β) : Option β × OrderedMap α β :=
  (map.get? key, map.insert key value)

/-- Removes a key and hands out its value. -/
def take (map : OrderedMap α β) (key : α) : Option β × OrderedMap α β :=
  (map.get? key, map.erase key)

/-- The map with the entries of a list inserted one after another. -/
def insertMany (map : OrderedMap α β) (entries : List (α × β)) : OrderedMap α β :=
  entries.foldl (fun acc entry => acc.insert entry.1 entry.2) map

/-- The map that holds the entries of a list: a repeated key keeps its first place and takes its
last value. -/
def ofList (entries : List (α × β)) : OrderedMap α β :=
  empty.insertMany entries

/-- The entries that satisfy a condition, in their order. -/
def filter (condition : α → β → Bool) (map : OrderedMap α β) : OrderedMap α β where
  entries := map.entries.filter fun entry => condition entry.1 entry.2
  nodup := map.nodup.sublist (List.filter_sublist.map Prod.fst)

omit [DecidableEq α] in
@[simp] theorem entries_empty : (empty : OrderedMap α β).entries = [] := rfl

@[simp] theorem entries_insert (map : OrderedMap α β) (key : α) (value : β) :
    (map.insert key value).entries = setEntry key value map.entries := rfl

@[simp] theorem entries_erase (map : OrderedMap α β) (key : α) :
    (map.erase key).entries = map.entries.filter fun entry => entry.1 ≠ key := rfl

/-- Inserting a listed key leaves the keys as they are, and a new one comes last. -/
theorem keys_insert (map : OrderedMap α β) (key : α) (value : β) :
    (map.insert key value).keys = if key ∈ map.keys then map.keys else map.keys ++ [key] :=
  map_fst_setEntry key value map.entries

end OrderedMap

/-- Options by key, in the order in which they were first set. -/
abbrev OptionMap := OrderedMap String String

end LauncherOptions
