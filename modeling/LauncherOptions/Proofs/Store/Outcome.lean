import LauncherOptions.Proofs.Overrides.Outcome
import LauncherOptions.Proofs.Validation
import LauncherOptions.Store.Update

/-! # Outcomes of setting options

A batch is refused before anything happens, or it leaves the overrides as they are, or it changes
them, in memory only or on the disk as well. `SetOutcome` lists these cases once, with all that
each of them does to the store and the host; what a batch keeps is read off from it. Main
statement: which result a call has, and that a failed call changes nothing
(`setKeysAndValues_verdict`).
-/

namespace LauncherOptions

/-! ## What setting a batch does -/

namespace LiveStore

/-- The store in use after a call that leaves it with a store and a disk and adds records to the
journal. -/
def advance (live : LiveStore) (store : Store) (disk : Disk) (records : List Record) :
    LiveStore where
  store := store
  host := { live.host with disk, journal := live.host.journal ++ records }

@[simp] theorem advance_store (live : LiveStore) (store : Store) (disk : Disk)
    (records : List Record) : (live.advance store disk records).store = store := rfl

@[simp] theorem advance_disk (live : LiveStore) (store : Store) (disk : Disk)
    (records : List Record) : (live.advance store disk records).host.disk = disk := rfl

@[simp] theorem advance_environment (live : LiveStore) (store : Store) (disk : Disk)
    (records : List Record) :
    (live.advance store disk records).host.environment = live.host.environment := rfl

theorem advance_advance (live : LiveStore) (first second : Store) (before after : Disk)
    (records more : List Record) :
    (live.advance first before records).advance second after more =
      live.advance second after (records ++ more) := by
  simp [advance]

theorem note_apply (severity : Severity) (text : String) (live : LiveStore) :
    note severity text live =
      ((), live.advance live.store live.host.disk [⟨severity, text⟩]) := rfl

theorem setOverrides_eq_advance (live : LiveStore) (overrides : OptionMap) :
    { live with store := { live.store with overrides } } =
      live.advance { live.store with overrides } live.host.disk [] := by
  simp [advance]

/-- The ways in which setting a batch can end. -/
inductive SetOutcome (live : LiveStore) (batch : List (String × String)) :
    Except Error Unit → LiveStore → Prop
  /-- A pair cannot be stored. -/
  | refused {fault : ArgumentFault} (hfault : validateBatch batch = .error fault) :
      SetOutcome live batch (.error (.invalidArgument fault)) live
  /-- The overrides stay as they are. -/
  | unchanged (hvalid : validateBatch batch = .ok ())
      (hsame : live.store.revised batch = live.store.overrides) (records : List Record) :
      SetOutcome live batch (.ok ()) (live.advance live.store live.host.disk records)
  /-- The overrides change in a store without a file. -/
  | kept (hvalid : validateBatch batch = .ok ())
      (hdiffers : live.store.revised batch ≠ live.store.overrides)
      (hfile : live.store.overridesFile = none) (records : List Record) :
      SetOutcome live batch (.ok ())
        (live.advance { live.store with overrides := live.store.revised batch } live.host.disk
          records)
  /-- The new overrides cannot be saved. -/
  | unsaved {path place : Path} {cause : IoCause} {disk : Disk}
      (hvalid : validateBatch batch = .ok ())
      (hdiffers : live.store.revised batch ≠ live.store.overrides)
      (hfile : live.store.overridesFile = some path)
      (hsave : Overrides.save path (live.store.revised batch) live.host.disk =
        (.error (.io place cause), disk)) :
      SetOutcome live batch (.error (.io place cause)) (live.advance live.store disk [])
  /-- The new overrides are saved and take effect. -/
  | saved {path : Path} {disk : Disk} (hvalid : validateBatch batch = .ok ())
      (hdiffers : live.store.revised batch ≠ live.store.overrides)
      (hfile : live.store.overridesFile = some path)
      (hsave : Overrides.save path (live.store.revised batch) live.host.disk = (.ok (), disk))
      (records : List Record) :
      SetOutcome live batch (.ok ())
        (live.advance { live.store with overrides := live.store.revised batch } disk records)

theorem saveOverrides_of_none {live : LiveStore} (hfile : live.store.overridesFile = none)
    (overrides : OptionMap) : saveOverrides overrides live = (.ok (), live) := by
  rw [saveOverrides, Attempt.bind_of_ok (Attempt.get_apply live), hfile]
  rfl

theorem saveOverrides_of_error {live : LiveStore} {path : Path} {overrides : OptionMap}
    {error : Error} {disk : Disk} (hfile : live.store.overridesFile = some path)
    (hsave : Overrides.save path overrides live.host.disk = (.error error, disk)) :
    saveOverrides overrides live = (.error error, live.advance live.store disk []) := by
  rw [saveOverrides, Attempt.bind_of_ok (Attempt.get_apply live), hfile]
  apply Attempt.bind_of_error
  simp [diskPart, hsave, advance]

theorem saveOverrides_of_ok {live : LiveStore} {path : Path} {overrides : OptionMap}
    {disk : Disk} (hfile : live.store.overridesFile = some path)
    (hsave : Overrides.save path overrides live.host.disk = (.ok (), disk)) :
    ∃ records, saveOverrides overrides live = (.ok (), live.advance live.store disk records) := by
  rw [saveOverrides, Attempt.bind_of_ok (Attempt.get_apply live), hfile]
  have hwithin : (Overrides.save path overrides).within diskPart live =
      (.ok (), live.advance live.store disk []) := by
    simp [diskPart, hsave, advance]
  simp only [Attempt.bind_of_ok hwithin, Attempt.lift_apply, note_apply, advance_advance]
  exact ⟨_, rfl⟩

/-- The last two steps of a batch: the new overrides take effect and a record says so. -/
theorem swap_apply (live : LiveStore) (overrides : OptionMap) (severity : Severity)
    (text : String) :
    (do modify fun live => { live with store := { live.store with overrides } }
        note severity text : Attempt Error LiveStore Unit) live =
      (.ok (), live.advance { live.store with overrides } live.host.disk
        [⟨severity, text⟩]) := by
  rw [Attempt.bind_of_ok (Attempt.modify_apply _ live), Attempt.lift_apply, note_apply,
    setOverrides_eq_advance, advance_advance]
  rfl

/-- What follows the check of a batch whose pairs can all be stored. -/
theorem setOptions_of_valid {live : LiveStore} {batch : List (String × String)}
    (hvalid : validateBatch batch = .ok ()) :
    SetOutcome live batch (setOptions batch live).1 (setOptions batch live).2 := by
  have hcheck : (Attempt.ofExcept ((validateBatch batch).mapError .invalidArgument) :
      Attempt Error LiveStore Unit) live = (.ok (), live) := by
    rw [Attempt.ofExcept_apply, hvalid]
    rfl
  rw [setOptions, Attempt.bind_of_ok hcheck, Attempt.bind_of_ok (Attempt.get_apply live)]
  by_cases hsame : live.store.revised batch = live.store.overrides
  · simp only [hsame, if_true, Attempt.lift_apply, note_apply]
    exact .unchanged hvalid hsame _
  simp only [hsame, if_false]
  cases hfile : live.store.overridesFile with
  | none =>
      rw [Attempt.bind_of_ok (saveOverrides_of_none hfile _), swap_apply]
      exact .kept hvalid hsame hfile _
  | some path =>
      rcases hsave : Overrides.save path (live.store.revised batch) live.host.disk with
        ⟨result, disk⟩
      cases result with
      | error error =>
          obtain ⟨place, cause, rfl⟩ := Overrides.save_error_io hsave
          rw [Attempt.bind_of_error (saveOverrides_of_error hfile hsave)]
          exact .unsaved hvalid hsame hfile hsave
      | ok =>
          obtain ⟨records, hsaved⟩ := saveOverrides_of_ok hfile hsave
          rw [Attempt.bind_of_ok hsaved, swap_apply, advance_advance]
          exact .saved hvalid hsame hfile hsave _

/-- Setting a batch ends in one of the listed ways. -/
theorem setOptions_outcome (live : LiveStore) (batch : List (String × String)) :
    SetOutcome live batch (setOptions batch live).1 (setOptions batch live).2 := by
  cases hvalid : validateBatch batch with
  | ok => exact setOptions_of_valid hvalid
  | error fault =>
      have hcheck : (Attempt.ofExcept ((validateBatch batch).mapError .invalidArgument) :
          Attempt Error LiveStore Unit) live = (.error (.invalidArgument fault), live) := by
        rw [Attempt.ofExcept_apply, hvalid]
        rfl
      rw [setOptions, Attempt.bind_of_error hcheck]
      exact .refused hvalid

/-- A call that fails leaves the store as it was. -/
theorem SetOutcome.store_of_error {live after : LiveStore} {batch : List (String × String)}
    {error : Error} (h : SetOutcome live batch (.error error) after) :
    after.store = live.store := by
  cases h with
  | refused => rfl
  | unsaved => rfl

/-- A call that succeeds leaves the store with the overrides that the batch leads to. -/
theorem SetOutcome.store_of_ok {live after : LiveStore} {batch : List (String × String)}
    (h : SetOutcome live batch (.ok ()) after) :
    after.store = { live.store with overrides := live.store.revised batch } := by
  cases h with
  | unchanged _ hsame => rw [advance_store, hsame]
  | kept => rfl
  | saved => rfl

/-! ## Which result a call has -/

/-- The batch has to be saved, because the store has a file and the overrides change, and saving
fails with an error. -/
def SaveFails (live : LiveStore) (batch : List (String × String)) (error : Error) : Prop :=
  ∃ path, live.store.overridesFile = some path ∧
    live.store.revised batch ≠ live.store.overrides ∧
    (Overrides.save path (live.store.revised batch) live.host.disk).1 = .error error

theorem SetOutcome.ok_iff {live after : LiveStore} {batch : List (String × String)}
    {result : Except Error Unit} (h : SetOutcome live batch result after) :
    result = .ok () ↔
      (∀ pair ∈ batch, Admissible pair) ∧ ∀ error, ¬live.SaveFails batch error := by
  rw [← validateBatch_eq_ok_iff]
  cases h with
  | refused hfault => simp [hfault]
  | unchanged hvalid hsame => simp [hvalid, SaveFails, hsame]
  | kept hvalid hdiffers hfile => simp [hvalid, SaveFails, hfile]
  | unsaved hvalid hdiffers hfile hsave => simp [SaveFails, hfile, hdiffers, hsave]
  | saved hvalid hdiffers hfile hsave => simp [hvalid, SaveFails, hfile, hsave]

theorem SetOutcome.invalidArgument_iff {live after : LiveStore}
    {batch : List (String × String)} {result : Except Error Unit}
    (h : SetOutcome live batch result after) (fault : ArgumentFault) :
    result = .error (.invalidArgument fault) ↔ FirstRefused batch fault := by
  rw [← validateBatch_eq_error_iff]
  cases h with
  | refused hfault => simp [hfault]
  | unchanged hvalid => simp [hvalid]
  | kept hvalid => simp [hvalid]
  | unsaved hvalid => simp [hvalid]
  | saved hvalid => simp [hvalid]

/-- A batch of pairs that can all be stored fails only with the error of its save. -/
theorem SetOutcome.error_iff {live after : LiveStore} {batch : List (String × String)}
    {result : Except Error Unit} (h : SetOutcome live batch result after)
    (hall : ∀ pair ∈ batch, Admissible pair) (error : Error) :
    result = .error error ↔ live.SaveFails batch error := by
  rw [← validateBatch_eq_ok_iff] at hall
  cases h with
  | refused hfault => simp [hfault] at hall
  | unchanged _ hsame => simp [SaveFails, hsame]
  | kept _ _ hfile => simp [SaveFails, hfile]
  | unsaved _ hdiffers hfile hsave => simp [SaveFails, hfile, hdiffers, hsave]
  | saved _ _ hfile hsave => simp [SaveFails, hfile, hsave]

theorem SetOutcome.ne_lengthMismatch {live after : LiveStore} {batch : List (String × String)}
    {result : Except Error Unit} (h : SetOutcome live batch result after) (keys values : Nat) :
    result ≠ .error (.lengthMismatch keys values) := by
  cases h <;> simp

theorem SetOutcome.disk_of_invalidArgument {live after : LiveStore}
    {batch : List (String × String)} {fault : ArgumentFault}
    (h : SetOutcome live batch (.error (.invalidArgument fault)) after) :
    after.host.disk = live.host.disk := by
  cases h with
  | refused => rfl

theorem SaveFails.error_io {live : LiveStore} {batch : List (String × String)} {error : Error}
    (h : live.SaveFails batch error) : ∃ place cause, error = .io place cause := by
  obtain ⟨path, _, _, hsave⟩ := h
  exact Overrides.save_error_io (Prod.ext hsave rfl)

theorem setKeysAndValues_of_length_eq {keys values : List String}
    (h : keys.length = values.length) (live : LiveStore) :
    setKeysAndValues keys values live = setOptions (keys.zip values) live := by
  have hpair : (pairUp keys values).within hostPart live = (.ok (keys.zip values), live) := by
    simp [pairUp, h, hostPart]
  rw [setKeysAndValues, Attempt.bind_of_ok hpair]

theorem setKeysAndValues_of_length_ne {keys values : List String}
    (h : keys.length ≠ values.length) (live : LiveStore) :
    ∃ records, setKeysAndValues keys values live =
      (.error (.lengthMismatch keys.length values.length),
        live.advance live.store live.host.disk records) := by
  refine ⟨[⟨.warn, s!"rejecting {keys.length} keys with {values.length} values"⟩], ?_⟩
  rw [setKeysAndValues]
  apply Attempt.bind_of_error
  simp only [pairUp, h, if_false, Attempt.within_apply]
  rfl

/-! ## What a call depends on -/

/-- The stores in use have the same store and the same disk. Their environments and journals may
differ. -/
structure SameStore (live other : LiveStore) : Prop where
  store : other.store = live.store
  disk : other.host.disk = live.host.disk

/-- The result of a batch, and what it does to the store and the disk, depend on nothing else than
the store and the disk. -/
theorem SetOutcome.congr {live other after final : LiveStore} {batch : List (String × String)}
    {result found : Except Error Unit} (hsame : live.SameStore other)
    (h : SetOutcome live batch result after) (hother : SetOutcome other batch found final) :
    found = result ∧ after.SameStore final := by
  have hstore := hsame.store
  have hdisk := hsame.disk
  -- the conditions of two different endings exclude each other
  cases h with
  | refused => cases hother <;> simp_all
  | unchanged =>
      cases hother <;> simp_all
      exact ⟨rfl, rfl⟩
  | kept =>
      cases hother <;> simp_all
      exact ⟨rfl, rfl⟩
  | unsaved =>
      cases hother <;> simp_all
      exact ⟨rfl, rfl⟩
  | saved =>
      cases hother <;> simp_all
      exact ⟨rfl, rfl⟩

theorem setOptions_congr {live other : LiveStore} (hsame : live.SameStore other)
    (batch : List (String × String)) :
    (setOptions batch other).1 = (setOptions batch live).1 ∧
      (setOptions batch live).2.SameStore (setOptions batch other).2 :=
  (setOptions_outcome live batch).congr hsame (setOptions_outcome other batch)

theorem setKeysAndValues_congr {live other : LiveStore} (hsame : live.SameStore other)
    (keys values : List String) :
    (setKeysAndValues keys values other).1 = (setKeysAndValues keys values live).1 ∧
      (setKeysAndValues keys values live).2.SameStore (setKeysAndValues keys values other).2 := by
  by_cases hlength : keys.length = values.length
  · rw [setKeysAndValues_of_length_eq hlength, setKeysAndValues_of_length_eq hlength]
    exact setOptions_congr hsame _
  · obtain ⟨records, hlive⟩ := setKeysAndValues_of_length_ne hlength live
    obtain ⟨more, hother⟩ := setKeysAndValues_of_length_ne hlength other
    rw [hlive, hother]
    exact ⟨rfl, hsame.store, hsame.disk⟩

/-! ## The verdict -/

/-- The result of a call, and what a call that fails leaves alone. Lists of different length come
first, then the first pair that cannot be stored, then a change that cannot be saved; in all other
cases the call succeeds. No failure changes the overrides, and the disk is not even asked before
the arguments are found good. -/
theorem setKeysAndValues_verdict (live : LiveStore) (keys values : List String) :
    let result := (setKeysAndValues keys values live).1
    let after := (setKeysAndValues keys values live).2
    let batch := keys.zip values
    ((∃ count other, result = .error (.lengthMismatch count other)) ↔
        keys.length ≠ values.length) ∧
      (keys.length = values.length →
        ((∃ fault, result = .error (.invalidArgument fault)) ↔ ∃ pair ∈ batch, ¬Admissible pair) ∧
        (∀ fault, result = .error (.invalidArgument fault) ↔ FirstRefused batch fault) ∧
        ((∀ pair ∈ batch, Admissible pair) →
          ((∃ place cause, result = .error (.io place cause)) ↔
            ∃ error, live.SaveFails batch error) ∧
          (∀ error, result = .error error ↔ live.SaveFails batch error) ∧
          (result = .ok () ↔ ∀ error, ¬live.SaveFails batch error))) ∧
      (∀ error, result = .error error → after.store.overrides = live.store.overrides) ∧
      ((∃ count other, result = .error (.lengthMismatch count other)) ∨
          (∃ fault, result = .error (.invalidArgument fault)) →
        after.host.disk = live.host.disk) := by
  intro result after batch
  by_cases hlength : keys.length = values.length
  · have h : SetOutcome live batch result after := by
      have heq := setKeysAndValues_of_length_eq hlength live
      simp only [result, after, batch, heq]
      exact setOptions_outcome live _
    have hne : ¬∃ count other, result = .error (.lengthMismatch count other) := by
      rintro ⟨count, other, heq⟩
      exact h.ne_lengthMismatch count other heq
    refine ⟨by simp [hne, hlength], fun _ => ⟨?_, h.invalidArgument_iff, fun hall => ?_⟩, ?_, ?_⟩
    · simp only [h.invalidArgument_iff]
      exact exists_firstRefused_iff
    · refine ⟨?_, h.error_iff hall, ?_⟩
      · simp only [h.error_iff hall]
        constructor
        · rintro ⟨place, cause, hfails⟩
          exact ⟨_, hfails⟩
        · rintro ⟨error, hfails⟩
          obtain ⟨place, cause, rfl⟩ := hfails.error_io
          exact ⟨place, cause, hfails⟩
      · rw [h.ok_iff]
        exact and_iff_right hall
    · intro error herror
      rw [herror] at h
      rw [h.store_of_error]
    · rintro (hmismatch | ⟨fault, hfault⟩)
      · exact absurd hmismatch hne
      · rw [hfault] at h
        exact h.disk_of_invalidArgument
  · obtain ⟨records, heq⟩ := setKeysAndValues_of_length_ne hlength live
    have hresult : result = .error (.lengthMismatch keys.length values.length) :=
      congrArg Prod.fst heq
    have hafter : after = live.advance live.store live.host.disk records :=
      congrArg Prod.snd heq
    refine ⟨by simp [hresult, hlength], fun h => absurd h hlength, ?_, ?_⟩
    · intro _ _
      rw [hafter, advance_store]
    · intro _
      rw [hafter, advance_disk]

end LiveStore

end LauncherOptions
