import LauncherOptions.Proofs.Store.Difference

/-! # Setting the same options again

A batch decides the overrides of the keys that it names: each of them is what the last pair for the
key makes of it (`get?_revised`). A store in which this is so already is settled for the batch
(`Settled`), and every accepted batch leaves such a store behind. In a settled store the batch
changes no option; only the order of the overrides can change, where a key that the batch repeats is
removed and set again on the way, and it cannot if no key is repeated (`Settled.revised_eq`). Main
statement: `LiveStore.setOptions_again`.
-/

namespace LauncherOptions

namespace Store

/-- The override that setting an option to a value leads to: none if the value is the default. -/
def settled? (store : Store) (key value : String) : Option String :=
  if store.defaults.get? key = some value then none else some value

/-- The overrides are what the batch makes of them. -/
def Settled (store : Store) (batch : List (String × String)) : Prop :=
  ∀ key value, OrderedMap.latest? key batch = some value →
    store.overrides.get? key = store.settled? key value

/-- The last pair for a key decides its override, and a key without a pair keeps the one that it
has. -/
theorem get?_revised (store : Store) (batch : List (String × String)) (key : String) :
    (store.revised batch).get? key =
      match OrderedMap.latest? key batch with
      | some value => store.settled? key value
      | none => store.overrides.get? key := by
  obtain ⟨defaults, overrides, file⟩ := store
  simp only [revised, settled?]
  induction batch generalizing overrides with
  | nil => rfl
  | cons pair rest ih =>
      rw [List.foldl_cons, ih, OrderedMap.latest?_cons]
      cases OrderedMap.latest? key rest with
      | some value => rfl
      | none =>
          rw [Option.none_or, get?_setOverride]
          by_cases hkey : pair.1 = key
          · simp [hkey]
          · have hne : ¬key = pair.1 := fun heq => hkey heq.symm
            simp [hkey, hne]

theorem settled_revised (store : Store) (batch : List (String × String)) :
    { store with overrides := store.revised batch }.Settled batch := by
  intro key value hlatest
  have hget := store.get?_revised batch key
  rw [hlatest] at hget
  exact hget

theorem setOverride_eq_self {store : Store} {key value : String}
    (h : store.overrides.get? key = store.settled? key value) :
    setOverride store.defaults store.overrides key value = store.overrides := by
  unfold settled? at h
  unfold setOverride
  split
  next hdefault =>
    rw [if_pos hdefault] at h
    exact OrderedMap.erase_eq_self h
  next hdiffers =>
    rw [if_neg hdiffers] at h
    exact OrderedMap.insert_eq_self h

/-- Pairs that all find their override as it should be leave the overrides as they are. -/
theorem revised_eq_overrides {store : Store} {batch : List (String × String)}
    (h : ∀ pair ∈ batch, store.overrides.get? pair.1 = store.settled? pair.1 pair.2) :
    store.revised batch = store.overrides := by
  simp only [revised]
  induction batch with
  | nil => rfl
  | cons pair rest ih =>
      obtain ⟨hpair, hrest⟩ := List.forall_mem_cons.mp h
      rw [List.foldl_cons, setOverride_eq_self hpair, ih hrest]

namespace Settled

variable {store : Store} {batch : List (String × String)}

theorem get?_revised_eq (h : store.Settled batch) (key : String) :
    (store.revised batch).get? key = store.overrides.get? key := by
  rw [get?_revised]
  cases hlatest : OrderedMap.latest? key batch with
  | none => rfl
  | some value => exact (h key value hlatest).symm

/-- The current options hold the last pair for every key of the batch. -/
theorem get?_current (h : store.Settled batch) {key value : String}
    (hlatest : OrderedMap.latest? key batch = some value) :
    store.current.get? key = some value := by
  rw [current, OrderedMap.get?_overlay, h key value hlatest, settled?]
  split
  next hdefault => rw [Option.none_or, hdefault]
  next => rw [Option.some_or]

theorem current_revised_eq (h : store.Settled batch) :
    { store with overrides := store.revised batch }.current = store.current := by
  rw [current_revised]
  exact OrderedMap.insertMany_eq_self fun key value => h.get?_current

/-- A batch without repeated keys leaves the overrides of a settled store as they are, their order
included. -/
theorem revised_eq (h : store.Settled batch) (hnodup : (batch.map Prod.fst).Nodup) :
    store.revised batch = store.overrides := by
  apply revised_eq_overrides
  intro pair hpair
  exact h _ _ (OrderedMap.latest?_eq_some_of_mem hnodup hpair)

end Settled

end Store

/-! ## Calls that are repeated -/

namespace LiveStore

/-- A batch that leads to the overrides that are there is accepted without a change, and the disk is
not asked. -/
theorem SetOutcome.of_same {live after : LiveStore} {batch : List (String × String)}
    {result : Except Error Unit} (h : SetOutcome live batch result after)
    (hall : ∀ pair ∈ batch, Admissible pair)
    (hsame : live.store.revised batch = live.store.overrides) :
    result = .ok () ∧ after.store = live.store ∧ after.host.disk = live.host.disk := by
  rw [← validateBatch_eq_ok_iff] at hall
  cases h with
  | refused hfault => simp [hall] at hfault
  | unchanged => exact ⟨rfl, rfl, rfl⟩
  | kept _ hdiffers => exact absurd hsame hdiffers
  | unsaved _ hdiffers => exact absurd hsame hdiffers
  | saved _ hdiffers => exact absurd hsame hdiffers

theorem settled_of_ok {live : LiveStore} {batch : List (String × String)}
    (h : (setOptions batch live).1 = .ok ()) : (setOptions batch live).2.store.Settled batch := by
  have houtcome := setOptions_outcome live batch
  rw [h] at houtcome
  rw [houtcome.store_of_ok]
  exact live.store.settled_revised batch

/-- A batch that was accepted is accepted again unless its overrides have to be saved and saving
fails, whatever has happened to the host in between. The current options stay what they are, and the
overrides are the same ones. If no key of the batch is repeated, even their order stays the same and
the disk is not asked, so that no fault of it can make the call fail. -/
theorem setOptions_again {live : LiveStore} {batch : List (String × String)}
    (h : (setOptions batch live).1 = .ok ()) (host : Host) :
    let first := (setOptions batch live).2
    let again : LiveStore := ⟨first.store, host⟩
    let result := (setOptions batch again).1
    let second := (setOptions batch again).2
    ((∀ error, ¬again.SaveFails batch error) → result = .ok ()) ∧
      second.store.current = first.store.current ∧
      second.store.overrides.entries.Perm first.store.overrides.entries ∧
      ((batch.map Prod.fst).Nodup →
        result = .ok () ∧ second.store.overrides = first.store.overrides ∧
          second.host.disk = host.disk) := by
  intro first again result second
  have hall := ((setOptions_outcome live batch).ok_iff.mp h).1
  have hsettled : first.store.Settled batch := settled_of_ok h
  have houtcome := setOptions_outcome again batch
  have hsame : second.store.current = first.store.current ∧
      second.store.overrides.entries.Perm first.store.overrides.entries := by
    rcases again.store_setOptions batch with heq | heq
    · rw [heq]
      exact ⟨rfl, List.Perm.refl _⟩
    · rw [heq]
      exact ⟨hsettled.current_revised_eq, OrderedMap.perm_of_get? hsettled.get?_revised_eq⟩
  refine ⟨fun hsaves => houtcome.ok_iff.mpr ⟨hall, hsaves⟩, hsame.1, hsame.2, ?_⟩
  intro hnodup
  obtain ⟨hok, hstore, hdisk⟩ := houtcome.of_same hall (hsettled.revised_eq hnodup)
  exact ⟨hok, by rw [hstore], hdisk⟩

/-- A batch that sets `x` to its default and then to something else moves it behind `y` when it is
repeated, and nothing else happens. A batch without repeated keys is accepted again on a disk that
fails, where another batch is not. -/
theorem setOptions_again_moved :
    let start : Store :=
      { defaults := .ofList [("x", "1")], overrides := .ofList [("x", "9")],
        overridesFile := some ⟨"/etc/user.cfg"⟩ }
    let sound : Host := { disk := { tree := .empty, base := [] }, environment := {} }
    let broken : Host := { sound with disk.faults := fun _ => some ⟨.permissionDenied, none⟩ }
    let moving := [("x", "1"), ("x", "2"), ("y", "5")]
    let first := (setOptions moving ⟨start, sound⟩).2
    let second := (setOptions moving ⟨first.store, sound⟩).2
    let plain := [("y", "5"), ("x", "1")]
    let done := (setOptions plain ⟨start, sound⟩).2
    ((setOptions moving ⟨start, sound⟩).1 = .ok () ∧
      first.store.overrides.entries = [("x", "2"), ("y", "5")] ∧
      second.store.overrides.entries = [("y", "5"), ("x", "2")] ∧
      second.store.current = first.store.current) ∧
    ((setOptions plain ⟨start, sound⟩).1 = .ok () ∧
      done.store.overrides.entries = [("y", "5")] ∧
      (setOptions plain ⟨done.store, broken⟩).1 = .ok () ∧
      (setOptions moving ⟨done.store, broken⟩).1 ≠ .ok ()) := by
  intro start sound broken moving first second plain done
  have hmoving : (setOptions moving ⟨start, sound⟩).1 = .ok () := by decide +kernel
  have hplain : (setOptions plain ⟨start, sound⟩).1 = .ok () := by decide +kernel
  have hfirst : first.store.overrides.entries = [("x", "2"), ("y", "5")] := by decide +kernel
  have hsecond : second.store.overrides.entries = [("y", "5"), ("x", "2")] := by decide +kernel
  have hdone : done.store.overrides.entries = [("y", "5")] := by decide +kernel
  have hfails : (setOptions moving ⟨done.store, broken⟩).1 ≠ .ok () := by decide +kernel
  obtain ⟨-, hcurrent, -, -⟩ := setOptions_again hmoving sound
  obtain ⟨-, -, -, hagain⟩ := setOptions_again hplain broken
  obtain ⟨hok, -, -⟩ := hagain (by decide)
  refine ⟨⟨hmoving, hfirst, hsecond, ?_⟩, hplain, hdone, hok, hfails⟩
  rw [← hcurrent]

end LiveStore

end LauncherOptions
