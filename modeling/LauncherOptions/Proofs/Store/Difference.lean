import LauncherOptions.Proofs.Store.Overlay
import Mathlib.Data.List.Nodup

/-! # The overrides are the difference to the defaults

A store drops the overrides that say the same as the default when it is made, and setting an option
to its default removes the override. No other override is ever dropped, so at any time the
overrides are exactly those current options that differ from the defaults
(`LiveStore.overrides_are_difference`), whatever was set before and whichever calls failed.
-/

namespace LauncherOptions

namespace Store

/-- No override says the same as the default. -/
def Minimal (store : Store) : Prop :=
  ∀ key value, store.overrides.get? key = some value → store.defaults.get? key ≠ some value

theorem minimal_withOverrides (defaults overrides : OptionMap) :
    (withOverrides defaults overrides).Minimal := by
  intro key value hget
  rw [withOverrides, OrderedMap.get?_filter, Option.filter_eq_some_iff] at hget
  exact of_decide_eq_true hget.2

theorem get?_setOverride (defaults overrides : OptionMap) (key value other : String) :
    (setOverride defaults overrides key value).get? other =
      if other = key then if defaults.get? key = some value then none else some value
      else overrides.get? other := by
  unfold setOverride
  split
  · rw [OrderedMap.get?_erase]
  · rw [OrderedMap.get?_insert]

theorem minimal_setOverride {store : Store} (h : store.Minimal) (key value : String) :
    { store with overrides := setOverride store.defaults store.overrides key value }.Minimal := by
  intro other stored hstored
  rw [get?_setOverride] at hstored
  split at hstored
  next hother =>
    split at hstored
    next => cases hstored
    next hdiffers =>
      cases hstored
      rw [hother]
      exact hdiffers
  next => exact h other stored hstored

theorem minimal_revised {store : Store} (h : store.Minimal) (batch : List (String × String)) :
    { store with overrides := store.revised batch }.Minimal := by
  obtain ⟨defaults, overrides, file⟩ := store
  induction batch generalizing overrides with
  | nil => exact h
  | cons pair rest ih => exact ih _ (minimal_setOverride h pair.1 pair.2)

/-- An option is an override exactly if it is current and not the default. -/
theorem Minimal.mem_overrides_iff {store : Store} (h : store.Minimal) {key value : String} :
    (key, value) ∈ store.overrides.entries ↔
      (key, value) ∈ store.current.entries ∧ store.defaults.get? key ≠ some value := by
  rw [← OrderedMap.get?_eq_some_iff, ← OrderedMap.get?_eq_some_iff, current,
    OrderedMap.get?_overlay]
  constructor
  · intro hget
    exact ⟨by rw [hget, Option.some_or], h key value hget⟩
  · rintro ⟨hcurrent, hdiffers⟩
    cases hget : store.overrides.get? key with
    | some found =>
        rw [hget, Option.some_or] at hcurrent
        exact hcurrent
    | none =>
        -- without an override the current value would be the default
        rw [hget, Option.none_or] at hcurrent
        exact absurd hcurrent hdiffers

/-- Stores with the same defaults and the same current options have the same overrides. -/
theorem Minimal.overrides_perm {store other : Store} (h : store.Minimal) (hother : other.Minimal)
    (hdefaults : other.defaults = store.defaults)
    (hcurrent : ∀ entry, entry ∈ other.current.entries ↔ entry ∈ store.current.entries) :
    other.overrides.entries.Perm store.overrides.entries := by
  rw [List.perm_ext_iff_of_nodup other.overrides.nodup.of_map store.overrides.nodup.of_map]
  intro entry
  rw [hother.mem_overrides_iff, h.mem_overrides_iff, hcurrent, hdefaults]

/-- Setting options to their defaults removes them from the overrides and keeps the order of the
rest. -/
theorem entries_revised_of_defaults {store : Store} {batch : List (String × String)}
    (h : ∀ pair ∈ batch, store.defaults.get? pair.1 = some pair.2) :
    (store.revised batch).entries =
      store.overrides.entries.filter fun entry => entry.1 ∉ batch.map Prod.fst := by
  obtain ⟨defaults, overrides, file⟩ := store
  simp only [revised] at h ⊢
  induction batch generalizing overrides with
  | nil => simp
  | cons pair rest ih =>
      obtain ⟨hpair, hrest⟩ := List.forall_mem_cons.mp h
      have hset : setOverride defaults overrides pair.1 pair.2 = overrides.erase pair.1 :=
        if_pos hpair
      rw [List.foldl_cons, hset, ih _ hrest, OrderedMap.entries_erase, List.filter_filter]
      congr 1
      funext entry
      by_cases hkey : entry.1 = pair.1 <;> simp [hkey]

end Store

/-! ## Stores in use -/

namespace LiveStore

/-- What can happen to a store in use: options are set, with any result, or the host changes. -/
inductive Setting (live : LiveStore) : LiveStore → Prop
  | setOptions (batch : List (String × String)) :
      Setting live (LiveStore.setOptions batch live).2
  | setKeysAndValues (keys values : List String) :
      Setting live (LiveStore.setKeysAndValues keys values live).2
  | others (host : Host) : Setting live { live with host }

/-- The stores that come of one that is made with these defaults, with or without overrides and with
or without a file. -/
inductive Reached (defaults : OptionMap) : LiveStore → Prop
  | made (overrides : OptionMap) (file : Option Path) (host : Host) :
      Reached defaults
        ⟨{ Store.withOverrides defaults overrides with overridesFile := file }, host⟩
  | used {live after : LiveStore} (hlive : Reached defaults live) (hsetting : Setting live after) :
      Reached defaults after

/-- A batch leads to the overrides that it says, or is refused and leaves the store alone. -/
theorem store_setOptions (live : LiveStore) (batch : List (String × String)) :
    (setOptions batch live).2.store = live.store ∨
      (setOptions batch live).2.store =
        { live.store with overrides := live.store.revised batch } := by
  have houtcome := setOptions_outcome live batch
  generalize (setOptions batch live).1 = result at houtcome
  cases result with
  | error error => exact .inl houtcome.store_of_error
  | ok => exact .inr houtcome.store_of_ok

/-- No step changes the defaults or leaves an override that says the same as one of them. -/
theorem Setting.minimal {live after : LiveStore} (hsetting : Setting live after)
    (h : live.store.Minimal) :
    after.store.defaults = live.store.defaults ∧ after.store.Minimal := by
  have hbatch : ∀ batch, (LiveStore.setOptions batch live).2.store.defaults = live.store.defaults ∧
      (LiveStore.setOptions batch live).2.store.Minimal := by
    intro batch
    rcases live.store_setOptions batch with heq | heq
    · rw [heq]
      exact ⟨rfl, h⟩
    · rw [heq]
      exact ⟨rfl, Store.minimal_revised h batch⟩
  cases hsetting with
  | setOptions batch => exact hbatch batch
  | setKeysAndValues keys values =>
      by_cases hlength : keys.length = values.length
      · rw [setKeysAndValues_of_length_eq hlength]
        exact hbatch _
      · obtain ⟨records, hrefused⟩ := setKeysAndValues_of_length_ne hlength live
        rw [hrefused]
        exact ⟨rfl, h⟩
  | others host => exact ⟨rfl, h⟩

theorem Reached.minimal {defaults : OptionMap} {live : LiveStore} (h : Reached defaults live) :
    live.store.defaults = defaults ∧ live.store.Minimal := by
  induction h with
  | made overrides file host => exact ⟨rfl, Store.minimal_withOverrides defaults overrides⟩
  | used _ hsetting ih =>
      obtain ⟨hdefaults, hminimal⟩ := hsetting.minimal ih.2
      exact ⟨hdefaults.trans ih.1, hminimal⟩

/-- At any time the overrides are the current options that differ from the defaults, each under a
key of its own. So the current options alone decide what the overrides are, whichever way they came
about, and a batch that sets options back to their defaults removes these overrides and no
others. -/
theorem overrides_are_difference {defaults : OptionMap} {live : LiveStore}
    (h : Reached defaults live) :
    live.store.overrides.keys.Nodup ∧
      (∀ key value, (key, value) ∈ live.store.overrides.entries ↔
        (key, value) ∈ live.store.current.entries ∧ defaults.get? key ≠ some value) ∧
      (∀ other, Reached defaults other →
        (∀ entry, entry ∈ other.store.current.entries ↔ entry ∈ live.store.current.entries) →
        other.store.overrides.entries.Perm live.store.overrides.entries) ∧
      ∀ batch, (∀ pair ∈ batch, defaults.get? pair.1 = some pair.2) →
        ((setOptions batch live).1 = .ok () ↔
          (∀ pair ∈ batch, Admissible pair) ∧ ∀ error, ¬live.SaveFails batch error) ∧
        ((setOptions batch live).1 = .ok () →
          (setOptions batch live).2.store.overrides.entries =
            live.store.overrides.entries.filter fun entry => entry.1 ∉ batch.map Prod.fst) := by
  obtain ⟨hdefaults, hminimal⟩ := h.minimal
  refine ⟨live.store.overrides.nodup, ?_, ?_, ?_⟩
  · intro key value
    rw [hminimal.mem_overrides_iff, hdefaults]
  · intro other hother hcurrent
    obtain ⟨hsame, hothers⟩ := hother.minimal
    exact hminimal.overrides_perm hothers (hsame.trans hdefaults.symm) hcurrent
  · intro batch hbatch
    have houtcome := setOptions_outcome live batch
    refine ⟨houtcome.ok_iff, ?_⟩
    intro hresult
    rw [hresult] at houtcome
    rw [← hdefaults] at hbatch
    rw [houtcome.store_of_ok]
    exact Store.entries_revised_of_defaults hbatch

/-- An override that is set, changed and set back to its default is gone, and the other one is
still there. -/
theorem overrides_after_reset :
    let defaults : OptionMap := .ofList [("-Xmx", "1g")]
    let start : LiveStore :=
      ⟨Store.withOverrides defaults (.ofList [("-Xmx", "1g"), ("-Dk", "v")]),
        ⟨⟨.empty, [], 0, fun _ => none⟩, {}, []⟩⟩
    let changed := (setOptions [("-Xmx", "2g"), ("-Xmx", "3g")] start).2
    let reset := (setOptions [("-Xmx", "1g")] changed).2
    Reached defaults changed ∧
      changed.store.overrides.entries = [("-Dk", "v"), ("-Xmx", "3g")] ∧
      reset.store.overrides.entries = [("-Dk", "v")] := by
  intro defaults start changed reset
  have hreached : Reached defaults changed := .used (.made _ none _) (.setOptions _)
  have hchanged : changed.store.overrides.entries = [("-Dk", "v"), ("-Xmx", "3g")] := by
    decide +kernel
  obtain ⟨_, _, _, hreset⟩ := overrides_are_difference hreached
  have hdefault : ∀ pair ∈ [("-Xmx", "1g")], defaults.get? pair.1 = some pair.2 := by
    decide +kernel
  refine ⟨hreached, hchanged, ?_⟩
  rw [(hreset _ hdefault).2 (by decide +kernel), hchanged]
  decide +kernel

end LiveStore

end LauncherOptions
