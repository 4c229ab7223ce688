import LauncherOptions.Proofs.OrderedMap
import LauncherOptions.Proofs.Store.Outcome

/-! # The current options are one plain map

A store keeps only what differs from the defaults: setting an option to its default removes the
override, and setting it to something else again puts the override last. None of this shows in the
current options. An option that can be removed has a default, so its place in the overlay is the
place of the default; setting an option in the store is inserting it into the overlay
(`overlay_setOverride`), and what a run of batches makes of a store is what it would make of a
plain map (`current_run_refines`).
-/

namespace LauncherOptions

namespace Store

/-- Setting one option is inserting it into the current options. -/
theorem overlay_setOverride (defaults overrides : OptionMap) (key value : String) :
    defaults.insertMany (setOverride defaults overrides key value).entries =
      (defaults.insertMany overrides.entries).insert key value := by
  unfold setOverride
  split
  next hdefault => exact OrderedMap.overlay_erase hdefault overrides
  next => exact OrderedMap.overlay_insert defaults overrides key value

/-- The overrides that a batch leads to are, as an overlay, the current options with the pairs of
the batch inserted. -/
theorem current_revised (store : Store) (batch : List (String × String)) :
    { store with overrides := store.revised batch }.current = store.current.insertMany batch := by
  obtain ⟨defaults, overrides, file⟩ := store
  simp only [current, revised]
  induction batch generalizing overrides with
  | nil => rfl
  | cons pair rest ih =>
      obtain ⟨key, value⟩ := pair
      rw [List.foldl_cons, ih, overlay_setOverride, OrderedMap.insertMany_cons]

theorem current_withOverrides (defaults overrides : OptionMap) :
    (withOverrides defaults overrides).current = defaults.insertMany overrides.entries :=
  OrderedMap.overlay_filter_ne defaults overrides

theorem currentValue?_eq (store : Store) (key : String) :
    store.currentValue? key = store.current.get? key := by
  rw [current, OrderedMap.get?_overlay, currentValue?, defaultValue?]
  cases store.overrides.get? key with
  | none => rfl
  | some value => rfl

end Store

/-! ## Runs of batches -/

namespace LiveStore

/-- The store in use after batches were set one after another. -/
def run (live : LiveStore) : List (List (String × String)) → LiveStore
  | [] => live
  | batch :: rest => (setOptions batch live).2.run rest

/-- The pairs of a batch that count: all of them if the batch is accepted, none if it is not. -/
def granted (live : LiveStore) (batch : List (String × String)) : List (String × String) :=
  match (setOptions batch live).1 with
  | .ok _ => batch
  | .error _ => []

/-- The pairs of all accepted batches of a run, in order. -/
def grantedPairs (live : LiveStore) : List (List (String × String)) → List (String × String)
  | [] => []
  | batch :: rest => live.granted batch ++ (setOptions batch live).2.grantedPairs rest

/-- One batch inserts its pairs into the current options if it is accepted, and leaves them alone
if it is not. -/
theorem current_setOptions (live : LiveStore) (batch : List (String × String)) :
    (setOptions batch live).2.store.current =
      live.store.current.insertMany (live.granted batch) := by
  have houtcome := setOptions_outcome live batch
  unfold granted
  generalize setOptions batch live = outcome at houtcome
  obtain ⟨result, after⟩ := outcome
  cases houtcome with
  | refused => rfl
  | unsaved => rfl
  | kept => exact live.store.current_revised batch
  | saved => exact live.store.current_revised batch
  | unchanged _ hsame =>
      have hrevised := live.store.current_revised batch
      rw [hsame] at hrevised
      exact hrevised

/-- A run of batches inserts the pairs of the accepted ones into the current options. -/
theorem current_run (live : LiveStore) (batches : List (List (String × String))) :
    (live.run batches).store.current =
      live.store.current.insertMany (live.grantedPairs batches) := by
  induction batches generalizing live with
  | nil => rfl
  | cons batch rest ih =>
      rw [run, ih, current_setOptions, grantedPairs, OrderedMap.insertMany_append]

theorem granted_subset (live : LiveStore) (batch : List (String × String)) :
    live.granted batch ⊆ batch := by
  unfold granted
  split
  · exact fun _ h => h
  · exact List.nil_subset batch

/-- The current options of a store after any run of batches: the defaults, all given overrides and
the pairs of the accepted batches, inserted one after another into one plain map. So the last pair
for a key wins, a batch leaves the keys that it does not name alone, no key goes away, and the keys
are those of the defaults, followed by the others in the order in which they were first set. The
store may save its changes to a file or not, on any disk. A store without overrides is the case
that `overrides` is empty. -/
theorem current_run_refines (defaults overrides : OptionMap) (file : Option Path) (host : Host)
    (batches : List (List (String × String))) :
    let start : LiveStore :=
      ⟨{ Store.withOverrides defaults overrides with overridesFile := file }, host⟩
    let pairs := start.grantedPairs batches
    let final := start.run batches
    final.store.current = (defaults.insertMany overrides.entries).insertMany pairs ∧
      (∀ key, final.store.current.get? key =
        (OrderedMap.latest? key pairs).or ((defaults.insertMany overrides.entries).get? key)) ∧
      (∀ batch key, key ∉ batch.map Prod.fst →
        (setOptions batch final).2.store.current.get? key = final.store.current.get? key) ∧
      (∀ batch, ∀ key ∈ final.store.currentKeys,
        key ∈ (setOptions batch final).2.store.currentKeys) ∧
      final.store.currentKeys =
        defaults.keys ++ ((overrides.keys ++ pairs.map Prod.fst).filter
          fun key => key ∉ defaults.keys).eraseDups := by
  intro start pairs final
  have hstart : start.store.current = defaults.insertMany overrides.entries :=
    Store.current_withOverrides defaults overrides
  have hfinal : final.store.current = (defaults.insertMany overrides.entries).insertMany pairs := by
    rw [← hstart]
    exact start.current_run batches
  refine ⟨hfinal, ?_, ?_, ?_, ?_⟩
  · intro key
    rw [hfinal, OrderedMap.get?_insertMany]
  · intro batch key hkey
    have hgranted : key ∉ (final.granted batch).map Prod.fst :=
      fun hmem => hkey (List.map_subset _ (final.granted_subset batch) hmem)
    rw [current_setOptions, OrderedMap.get?_insertMany, OrderedMap.latest?_eq_none hgranted,
      Option.none_or]
  · intro batch key hkey
    rw [Store.currentKeys, current_setOptions, OrderedMap.mem_keys_insertMany]
    exact .inl hkey
  · rw [Store.currentKeys, hfinal, ← OrderedMap.insertMany_append, OrderedMap.keys_insertMany,
      List.map_append]
    rfl

end LiveStore

end LauncherOptions
