import LauncherOptions.Proofs.Config.RoundTrip
import LauncherOptions.Proofs.Launcher
import LauncherOptions.Proofs.Overrides.Separate
import LauncherOptions.Proofs.Store.Difference
import LauncherOptions.Proofs.Text.Utf8

/-! # Options outlast restarts

While only the launcher writes the overrides file, a new load gives the store in use, whatever was
set, refused, saved or left half saved before (`LiveStore.load_after_run`). The invariant
(`LiveStore.Persisted`) says that the file holds the bytes of the overrides in use, or that there is
neither file nor overrides, and that the overrides are such that writing and reading them and
dropping those that say the same as the default gives them back.
-/

namespace LauncherOptions

/-! ## Overrides that come back from their file -/

namespace Store

/-- Every override can be stored and says something else than the default. -/
def Tidy (store : Store) : Prop :=
  ∀ key value, store.overrides.get? key = some value →
    Admissible (key, value) ∧ store.defaults.get? key ≠ some value

theorem tidy_setOverride {store : Store} (h : store.Tidy) {key value : String}
    (hpair : Admissible (key, value)) :
    { store with overrides := setOverride store.defaults store.overrides key value }.Tidy := by
  intro other stored hstored
  rw [get?_setOverride] at hstored
  split at hstored
  next hother =>
    split at hstored
    next => cases hstored
    next hdiffers =>
      cases hstored
      rw [hother]
      exact ⟨hpair, hdiffers⟩
  next => exact h other stored hstored

theorem tidy_revised {store : Store} (h : store.Tidy) {batch : List (String × String)}
    (hbatch : ∀ pair ∈ batch, Admissible pair) :
    { store with overrides := store.revised batch }.Tidy := by
  obtain ⟨defaults, overrides, file⟩ := store
  induction batch generalizing overrides with
  | nil => exact h
  | cons pair rest ih =>
      obtain ⟨hpair, hrest⟩ := List.forall_mem_cons.mp hbatch
      exact ih hrest _ (tidy_setOverride h hpair)

/-- Overrides that differ from the defaults are all kept. -/
theorem withOverrides_of_tidy {store : Store} (h : store.Tidy) :
    (withOverrides store.defaults store.overrides).overrides = store.overrides := by
  apply OrderedMap.ext_entries
  refine List.filter_eq_self.mpr fun entry hentry => ?_
  have hget := OrderedMap.get?_eq_some_iff.mpr hentry
  simpa using (h entry.1 entry.2 hget).2

end Store

namespace Overrides

theorem writable_overrides {overrides : OptionMap}
    (h : ∀ key value, overrides.get? key = some value → Admissible (key, value)) :
    (ConfigFile.empty.setSection ConfigFile.overridesSection overrides).Writable := by
  have hentries : ∀ named ∈ (ConfigFile.empty.setSection ConfigFile.overridesSection
      overrides).sections.entries, named = (ConfigFile.overridesSection, overrides) :=
    fun named hnamed => List.mem_singleton.mp hnamed
  refine ⟨?_, ?_, ?_, ?_, ?_⟩
  · intro named hnamed _
    rw [hentries named hnamed]
    exact show Text.trim ConfigFile.overridesSection.toList = ConfigFile.overridesSection.toList by
      decide
  · intro named hnamed
    rw [hentries named hnamed]
    exact validateValue_eq_ok_iff.mp (show validateValue "" ConfigFile.overridesSection = .ok () by
      decide)
  · intro named hnamed entry hentry
    rw [hentries named hnamed] at hentry
    exact (h _ _ (OrderedMap.get?_eq_some_iff.mpr hentry)).1
  · intro named hnamed entry hentry
    rw [hentries named hnamed] at hentry
    exact validateValue_eq_ok_iff.mp (h _ _ (OrderedMap.get?_eq_some_iff.mpr hentry)).2
  · intro options hoptions
    cases hoptions

/-- What is written for overrides that can be stored is read as the same overrides. -/
theorem overridesOf_text {overrides : OptionMap}
    (h : ∀ key value, overrides.get? key = some value → Admissible (key, value)) (path : Path) :
    overridesOf path (.ok (text overrides)) = .ok overrides := by
  have hread := ConfigFile.read_render (writable_overrides h)
  have hentries : (ConfigFile.empty.setSection ConfigFile.overridesSection
      overrides).inOrder.entriesOf ConfigFile.overridesSection = overrides := by
    rw [ConfigFile.entriesOf, ConfigFile.section?_inOrder]
    exact ConfigFile.entriesOf_setSection _ _ _
  rw [overridesOf, ConfigFile.parseFrom, text, hread]
  exact congrArg Except.ok hentries

end Overrides

/-! ## The disk that keeps the overrides -/

namespace Disk

/-- There is no file at the path, or there cannot be one. -/
def Lacks (disk : Disk) (path : Path) : Prop :=
  disk.content path = .error .noEntry ∨
    disk.content path = .error .nameTooLong ∧ ¬path.Fits

theorem lacks_iff {disk : Disk} {path : Path} :
    disk.Lacks path ↔ '\x00' ∉ path.text.toList ∧ disk.tree.Missing disk.base path := by
  by_cases hnul : '\x00' ∈ path.text.toList <;>
    simp [Lacks, Disk.content, Tree.Missing, hnul]

/-- The file at the path holds the overrides, or there is neither. -/
def Keeps (disk : Disk) (path : Path) (overrides : OptionMap) : Prop :=
  disk.content path = .ok (Overrides.bytes overrides) ∨ overrides = .empty ∧ disk.Lacks path

theorem Keeps.congr {before after : Disk} {path : Path} {overrides : OptionMap}
    (h : before.Keeps path overrides) (hcontent : after.content path = before.content path) :
    after.Keeps path overrides := by
  unfold Keeps Lacks
  rw [hcontent]
  exact h

end Disk

namespace Overrides

variable {path : Path} {overrides : OptionMap} {disk after : Disk}

/-- Whether saving succeeds or not, the launcher's files stay apart, and it does not show in the
configuration. -/
theorem content_save (hplain : path.Plain) {result : Except Error Unit}
    (h : save path overrides disk = (result, after)) {config : Path} {content : List UInt8}
    (hseparate : Separate disk.tree disk.base config path)
    (hcontent : disk.content config = .ok content) :
    Separate after.tree after.base config path ∧ after.content config = .ok content := by
  rw [Disk.content_eq_ok_iff] at hcontent ⊢
  obtain ⟨hnul, hread⟩ := hcontent
  obtain ⟨hbase, hafter, hconfig⟩ := separate_of_save hplain h hseparate hread
  rw [hbase]
  exact ⟨hafter, hnul, hconfig⟩

theorem keeps_of_save_eq_ok (hplain : path.Plain) (hnul : '\x00' ∉ path.text.toList)
    (h : save path overrides disk = (.ok (), after)) {config : Path} {content : List UInt8}
    (hseparate : Separate disk.tree disk.base config path)
    (hcontent : disk.content config = .ok content) : after.Keeps path overrides := by
  have hread := (Disk.content_eq_ok_iff.mp hcontent).2
  obtain ⟨hbase, _⟩ := separate_of_save hplain h hseparate hread
  left
  rw [Disk.content_eq_ok_iff, hbase]
  exact ⟨hnul, read_of_save_eq_ok hplain h hseparate hread⟩

/-- A failed save leaves the old overrides in the file. -/
theorem keeps_of_save_eq_error (hplain : path.Plain) {next : OptionMap} {error : Error}
    (h : save path next disk = (.error error, after)) {config : Path} {content : List UInt8}
    (hseparate : Separate disk.tree disk.base config path)
    (hcontent : disk.content config = .ok content) (hkeeps : disk.Keeps path overrides) :
    after.Keeps path overrides := by
  obtain ⟨hbase, hsteps⟩ := save_eq_error h
  obtain ⟨_, _, hpath, hmissing⟩ :=
    hsteps.separate hplain hseparate (Disk.content_eq_ok_iff.mp hcontent).2
  rcases hkeeps with hheld | ⟨hempty, hlacks⟩
  · left
    rw [Disk.content_eq_ok_iff] at hheld ⊢
    rw [hbase, hpath]
    exact hheld
  · right
    rw [Disk.lacks_iff] at hlacks ⊢
    rw [hbase]
    exact ⟨hempty, hlacks.1, hmissing hlacks.2⟩

end Overrides

/-! ## Runs with restarts -/

namespace LiveStore

/-- What can happen to a store in use: a new load takes its place or fails, options are set with
any result, or other programs work on the host without writing the launcher's two files or making
one of them a name of another. -/
inductive Step (launcher : Launcher) (path : Path) (live : LiveStore) : LiveStore → Prop
  | load {store : Store} {host : Host} (htruthful : live.host.disk.Truthful)
      (hload : launcher.load live.host = (.ok store, host)) : Step launcher path live ⟨store, host⟩
  | failedLoad {error : Error} {host : Host}
      (hload : launcher.load live.host = (.error error, host)) :
      Step launcher path live { live with host }
  | setOptions (batch : List (String × String)) :
      Step launcher path live (LiveStore.setOptions batch live).2
  | setKeysAndValues (keys values : List String) :
      Step launcher path live (LiveStore.setKeysAndValues keys values live).2
  | others {host : Host} (henvironment : host.environment = live.host.environment)
      (happ : host.disk.content launcher.appConfig = live.host.disk.content launcher.appConfig)
      (hpath : host.disk.content path = live.host.disk.content path)
      (hseparate : Overrides.Separate host.disk.tree host.disk.base launcher.appConfig path) :
      Step launcher path live { live with host }

/-- The launcher's files hold what the store in use holds. -/
structure Persisted (launcher : Launcher) (path : Path) (app : ConfigFile) (live : LiveStore) :
    Prop where
  separate : Overrides.Separate live.host.disk.tree live.host.disk.base launcher.appConfig path
  config : ∃ content, live.host.disk.content launcher.appConfig = .ok content ∧
    Launcher.configOf launcher.appConfig (live.host.disk.text launcher.appConfig) = .ok app
  chosen : launcher.chosenFile? app live.host.environment = some path
  defaults : live.store.defaults = app.entriesOf ConfigFile.defaultsSection
  file : live.store.overridesFile = some path
  nul : '\x00' ∉ path.text.toList
  tidy : live.store.Tidy
  keeps : live.host.disk.Keeps path live.store.overrides

section

variable {launcher : Launcher} {path : Path} {app : ConfigFile}
variable {live after : LiveStore}

/-- The overrides that are read from the file are those in use. -/
theorem Persisted.saved (h : Persisted launcher path app live)
    (hreads : ∀ cause, live.host.disk.content path = .error cause → cause = .noEntry) :
    Overrides.overridesOf path (live.host.disk.text path) = .ok live.store.overrides := by
  rcases h.keeps with hcontent | ⟨hempty, hmissing | ⟨hlong, _⟩⟩
  · have htext : live.host.disk.text path = .ok (Overrides.text live.store.overrides) := by
      have hdecode := Text.Utf8.decode_encode (Overrides.text live.store.overrides)
      rw [Disk.text, hcontent]
      exact congrArg (Except.mapError fun _ => IoCause.notText) hdecode
    rw [htext, Overrides.overridesOf_text fun key value hget => (h.tidy key value hget).1]
  · rw [Disk.text, hmissing, hempty]
    rfl
  · cases hreads _ hlong

/-- The store that the files make is the one in use. -/
theorem Persisted.storeOf_eq (h : Persisted launcher path app live) :
    Launcher.storeOf app path live.store.overrides = live.store := by
  rw [Launcher.storeOf, ← h.defaults, Store.persistTo, Store.withOverrides_of_tidy h.tidy,
    ← h.file]
  rfl

theorem Persisted.update (h : Persisted launcher path app live)
    (hseparate : Overrides.Separate after.host.disk.tree after.host.disk.base launcher.appConfig
      path)
    (henvironment : after.host.environment = live.host.environment)
    (happ : ∀ content, live.host.disk.content launcher.appConfig = .ok content →
      after.host.disk.content launcher.appConfig = .ok content)
    (hdefaults : after.store.defaults = live.store.defaults)
    (hfile : after.store.overridesFile = live.store.overridesFile) (htidy : after.store.Tidy)
    (hkeeps : after.host.disk.Keeps path after.store.overrides) :
    Persisted launcher path app after := by
  obtain ⟨content, hcontent, hconfig⟩ := h.config
  have hafter := happ content hcontent
  refine ⟨hseparate, ⟨content, hafter, ?_⟩, ?_, hdefaults.trans h.defaults,
    hfile.trans h.file, h.nul, htidy, hkeeps⟩
  · rw [Disk.text, hcontent] at hconfig
    rw [Disk.text, hafter]
    exact hconfig
  · rw [henvironment]
    exact h.chosen

/-- Looking around on the host is not noticed. -/
theorem Persisted.observed (h : Persisted launcher path app live) {host : Host}
    (hobserved : Host.Observed live.host host) :
    Persisted launcher path app { live with host } := by
  have hseparate := h.separate
  rw [← hobserved.tree, ← hobserved.base] at hseparate
  exact h.update hseparate hobserved.environment
    (fun _ hcontent => (hobserved.content _).trans hcontent) rfl rfl h.tidy
    (h.keeps.congr (hobserved.content path))

theorem Persisted.setOptions (hplain : path.Plain) (h : Persisted launcher path app live)
    (batch : List (String × String)) :
    Persisted launcher path app (LiveStore.setOptions batch live).2 := by
  have houtcome := setOptions_outcome live batch
  generalize (LiveStore.setOptions batch live).1 = result at houtcome
  generalize (LiveStore.setOptions batch live).2 = next at houtcome
  obtain ⟨content, hcontent, _⟩ := h.config
  cases houtcome with
  | refused => exact h
  | unchanged => exact h.update h.separate rfl (fun _ hcontent => hcontent) rfl rfl h.tidy h.keeps
  | kept _ _ hfile =>
      -- a store that has a file does not keep a change to itself
      rw [h.file] at hfile
      cases hfile
  | unsaved hvalid hdiffers hfile hsave =>
      rw [h.file] at hfile
      cases hfile
      exact h.update (Overrides.content_save hplain hsave h.separate hcontent).1 rfl
        (fun _ hfound => (Overrides.content_save hplain hsave h.separate hfound).2) rfl rfl h.tidy
        (Overrides.keeps_of_save_eq_error hplain hsave h.separate hcontent h.keeps)
  | saved hvalid hdiffers hfile hsave =>
      rw [h.file] at hfile
      cases hfile
      exact h.update (Overrides.content_save hplain hsave h.separate hcontent).1 rfl
        (fun _ hfound => (Overrides.content_save hplain hsave h.separate hfound).2) rfl rfl
        (Store.tidy_revised h.tidy (validateBatch_eq_ok_iff.mp hvalid))
        (Overrides.keeps_of_save_eq_ok hplain h.nul hsave h.separate hcontent)

/-- No step parts the files from the store in use. -/
theorem Persisted.step (hplain : path.Plain)
    (h : Persisted launcher path app live) (hstep : Step launcher path live after) :
    Persisted launcher path app after := by
  cases hstep with
  | @load store host htruthful hload =>
      have hobserved : Host.Observed live.host host := by
        have houtcome := launcher.load_outcome live.host
        rw [hload] at houtcome
        exact houtcome.observed
      obtain ⟨_, _, hconfig⟩ := h.config
      rcases Launcher.sources_of_load htruthful hload with
        ⟨other, hother, hnone, _⟩ | ⟨other, file, overrides, hsources, hstore⟩
      · rw [hconfig] at hother
        cases hother
        rw [h.chosen] at hnone
        cases hnone
      · -- the load has found the same two files, and so makes the store in use once more
        have hother := hsources.config
        rw [hconfig] at hother
        cases hother
        have hfile := hsources.chosen
        rw [h.chosen] at hfile
        cases hfile
        have hsaved := hsources.saved
        rw [h.saved fun _ => Overrides.noEntry_of_overridesOf hsaved] at hsaved
        cases hsaved
        rw [hstore, h.storeOf_eq]
        exact h.observed hobserved
  | failedLoad hload =>
      have houtcome := launcher.load_outcome live.host
      rw [hload] at houtcome
      exact h.observed houtcome.observed
  | setOptions batch => exact h.setOptions hplain batch
  | setKeysAndValues keys values =>
      by_cases hlength : keys.length = values.length
      · rw [setKeysAndValues_of_length_eq hlength]
        exact h.setOptions hplain _
      · obtain ⟨records, hrefused⟩ := setKeysAndValues_of_length_ne hlength live
        rw [hrefused]
        exact h.update h.separate rfl (fun _ hcontent => hcontent) rfl rfl h.tidy h.keeps
  | others henvironment happ hfile hseparate =>
      exact h.update hseparate henvironment (fun _ hcontent => happ.trans hcontent) rfl rfl h.tidy
        (h.keeps.congr hfile)

theorem Persisted.run (hplain : path.Plain)
    (h : Persisted launcher path app live)
    (hrun : Relation.ReflTransGen (Step launcher path) live after) :
    Persisted launcher path app after := by
  induction hrun with
  | refl => exact h
  | tail _ hstep ih => exact ih.step hplain hstep

/-- A store that is loaded while there is no overrides file has no overrides. -/
theorem persisted_of_load {initial host : Host} {store : Store}
    (htruthful : initial.disk.Truthful) (hload : launcher.load initial = (.ok store, host))
    (hfile : store.overridesFile = some path)
    (hnone : ∀ content, initial.disk.content path ≠ .ok content)
    (hseparate : Overrides.Separate initial.disk.tree initial.disk.base launcher.appConfig path) :
    ∃ app, Persisted launcher path app ⟨store, host⟩ := by
  have houtcome := launcher.load_outcome initial
  rw [hload] at houtcome
  have hobserved := houtcome.observed
  rcases Launcher.sources_of_load htruthful hload with
    ⟨_, _, _, hmemory⟩ | ⟨app, chosen, overrides, hsources, rfl⟩
  · rw [hfile] at hmemory
    cases hmemory
  · cases hfile
    have hmissing : initial.disk.content path = .error .noEntry := by
      cases hcontent : initial.disk.content path with
      | ok content => exact absurd hcontent (hnone content)
      | error cause => rw [Overrides.noEntry_of_overridesOf hsources.saved hcontent]
    have hsaved := hsources.saved
    rw [Disk.text_of_content_error hmissing] at hsaved
    cases hsaved
    have hlacks : host.disk.Lacks path := .inl ((hobserved.content path).trans hmissing)
    obtain ⟨content, hcontent⟩ := Launcher.exists_content_of_configOf hsources.config
    rw [← hobserved.tree, ← hobserved.base] at hseparate
    refine ⟨app, hseparate, ⟨content, (hobserved.content _).trans hcontent, ?_⟩, ?_, rfl, rfl,
      (Disk.lacks_iff.mp hlacks).1, ?_, .inr ⟨rfl, hlacks⟩⟩
    · rw [hobserved.text]
      exact hsources.config
    · rw [hobserved.environment]
      exact hsources.chosen
    · intro key value hget
      cases hget

/-- Whatever has been set, refused, saved or left half saved since a first load that found no
overrides file, a new load whose reads succeed gives the store in use: the same defaults and the
same overrides in the same order, and so the same options and arguments. That a read does not
succeed can only come from a name in the path of the file that no directory can hold. -/
theorem load_after_run {initial host : Host} {store : Store} (hplain : path.Plain)
    (hseparate : Overrides.Separate initial.disk.tree initial.disk.base launcher.appConfig path)
    (hnone : ∀ content, initial.disk.content path ≠ .ok content)
    (htruthful : initial.disk.Truthful) (hload : launcher.load initial = (.ok store, host))
    (hfile : store.overridesFile = some path)
    (hrun : Relation.ReflTransGen (Step launcher path) ⟨store, host⟩ live)
    (hreliable : live.host.disk.Reliable) :
    ((∀ cause, live.host.disk.content path = .error cause → cause = .noEntry) →
        (launcher.load live.host).1 = .ok live.store) ∧
      (path.Fits → ∀ cause, live.host.disk.content path = .error cause → cause = .noEntry) := by
  obtain ⟨app, hfirst⟩ := persisted_of_load htruthful hload hfile hnone hseparate
  have h := hfirst.run hplain hrun
  refine ⟨fun hreads => ?_, fun hfits cause hcause => ?_⟩
  · obtain ⟨_, _, hconfig⟩ := h.config
    have hsources : launcher.Sources live.host app path live.store.overrides :=
      ⟨hconfig, h.chosen, h.saved hreads⟩
    rw [Launcher.load_of_sources hreliable hsources, h.storeOf_eq]
  · rcases h.keeps with hcontent | ⟨_, hmissing | ⟨_, hunfit⟩⟩
    · rw [hcontent] at hcause
      cases hcause
    · rw [hmissing] at hcause
      cases hcause
      rfl
    · exact absurd hfits hunfit

/-- A save whose move fails, the same save again, and a load after the disk has been repaired. -/
theorem load_after_failed_save :
    let path : Path := ⟨"/etc/user.cfg"⟩
    let launcher : Launcher := { appConfig := ⟨"/app.cfg"⟩, overridesFile := some path }
    let disk : Disk :=
      { tree := { root := [("app.cfg", .file 0)]
                  content := fun _ => Text.Utf8.encode "[JVMUserOptions]\n-Xmx=1g" }
        base := []
        faults := fun time => if time = 4 then some ⟨.permissionDenied, none⟩ else none }
    let initial : Host := { disk, environment := {} }
    let store : Store :=
      { defaults := .ofList [("-Xmx", "1g")], overrides := .empty, overridesFile := some path }
    let batch := [("-Dk", " v=1"), ("-Xmx", "2g")]
    let failed := (setOptions batch ⟨store, (launcher.load initial).2⟩).2
    let saved := (setOptions batch failed).2
    let repaired : LiveStore := { saved with host.disk.faults := fun _ => none }
    failed.store.overrides = .empty ∧ saved.store.overrides.entries = batch ∧
      (launcher.load repaired.host).1 = .ok repaired.store := by
  intro path launcher disk initial store batch failed saved repaired
  have hplain : path.Plain := by
    refine ⟨?_, by decide +kernel⟩
    unfold Path.Dotless
    decide +kernel
  have hmissing : initial.disk.content path = .error .noEntry := by decide +kernel
  have htruthful : initial.disk.Truthful := by
    intro time fault hfault
    simp only [initial, disk] at hfault
    split at hfault
    · cases hfault
      simp
    · cases hfault
  have hload : launcher.load initial = (.ok store, (launcher.load initial).2) :=
    Prod.ext (by decide +kernel) rfl
  have hfailed : failed.store.overrides = .empty := by decide +kernel
  have hsaved : saved.store.overrides.entries = batch := by decide +kernel
  have hothers : ∀ live : LiveStore,
      Overrides.Separate live.host.disk.tree live.host.disk.base launcher.appConfig path →
        Step launcher path live { live with host.disk.faults := fun _ => none } :=
    fun live hseparate => .others rfl rfl rfl hseparate
  have hapart : Overrides.Separate saved.host.disk.tree saved.host.disk.base launcher.appConfig
      path := by
    decide +kernel
  have hrun : Relation.ReflTransGen (Step launcher path) ⟨store, (launcher.load initial).2⟩
      repaired :=
    .head (.setOptions batch) (.head (.setOptions batch) (.single (hothers saved hapart)))
  have hseparate : Overrides.Separate initial.disk.tree initial.disk.base launcher.appConfig
      path := by
    decide +kernel
  obtain ⟨hsame, hreads⟩ := load_after_run hplain hseparate
    (fun content hcontent => by simp [hmissing] at hcontent) htruthful hload rfl hrun
    (fun _ _ => rfl)
  exact ⟨hfailed, hsaved, hsame (hreads (by decide +kernel))⟩

end

end LiveStore

end LauncherOptions
