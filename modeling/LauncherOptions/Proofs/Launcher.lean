import LauncherOptions.Launcher
import LauncherOptions.Proofs.Disk.Effect

/-! # What loading a store depends on

Loading reads two files and writes none. What comes of it follows from what the files hold
(`Disk.text`) and from the environment: a load whose reads meet no fault gives the store that the
files make (`Launcher.load_of_sources`), and so does every load that succeeds on a disk that calls
a file missing only if it is (`Launcher.sources_of_load`).
-/

namespace LauncherOptions

/-! ## Reading files -/

namespace Disk

/-- What reading a file comes to when no fault meets it. -/
def content (disk : Disk) (path : Path) : Except IoCause (List UInt8) :=
  if path.text.toList.contains '\x00' then .error .nulInPath
  else disk.tree.read disk.base path

theorem content_eq_ok_iff {disk : Disk} {path : Path} {content : List UInt8} :
    disk.content path = .ok content ↔
      '\x00' ∉ path.text.toList ∧ disk.tree.read disk.base path = .ok content := by
  by_cases hnul : '\x00' ∈ path.text.toList <;> simp [Disk.content, hnul]

/-- What reading a file as text comes to when no fault meets it. -/
def text (disk : Disk) (path : Path) : Except IoCause String :=
  disk.content path >>= fun content => (Text.Utf8.decode content).mapError fun _ => .notText

theorem text_of_content_error {disk : Disk} {path : Path} {cause : IoCause}
    (h : disk.content path = .error cause) : disk.text path = .error cause := by
  rw [text, h]
  rfl

/-- The disk calls no file missing that is there. -/
def Truthful (disk : Disk) : Prop :=
  ∀ time fault, disk.faults time = some fault → fault.cause ≠ .noEntry

/-- The operations from now on meet no fault. -/
def Reliable (disk : Disk) : Prop :=
  ∀ time, disk.clock ≤ time → disk.faults time = none

/-- What reading a file as text may come to: what the file holds, or a fault. -/
inductive Finds (disk : Disk) (path : Path) : Except IoCause String → Prop
  | text : Finds disk path (disk.text path)
  | fault {fault : Fault} (hfault : disk.faults disk.clock = some fault) :
      Finds disk path (.error fault.cause)

/-- Reading changes nothing on the disk but its clock. -/
theorem readText_apply (path : Path) (disk : Disk) :
    ∃ clock result, disk.clock ≤ clock ∧ readText path disk = (result, { disk with clock }) ∧
      disk.Finds path result := by
  by_cases hnul : path.text.toList.contains '\x00'
  · have hread : read path disk = (.error .nulInPath, disk) := by
      rw [read, checkPath_bind, if_pos hnul]
    have htext : disk.text path = .error .nulInPath := by
      rw [text, content, if_pos hnul]
      rfl
    refine ⟨disk.clock, .error .nulInPath, Nat.le_refl _, Attempt.bind_of_error hread _, ?_⟩
    rw [← htext]
    exact .text
  · cases hfault : disk.faults disk.clock with
    | some fault =>
        have hread : read path disk =
            (.error fault.cause, { disk with clock := disk.clock + 1 }) := by
          rw [read, checkPath_bind, if_neg hnul, inspect_apply, result, hfault]
        exact ⟨_, _, Nat.le_succ _, Attempt.bind_of_error hread _, .fault hfault⟩
    | none =>
        have hread : read path disk =
            (disk.content path, { disk with clock := disk.clock + 1 }) := by
          rw [read, checkPath_bind, if_neg hnul, inspect_apply, result, hfault, content,
            if_neg hnul]
        refine ⟨disk.clock + 1, disk.text path, Nat.le_succ _, ?_, .text⟩
        rw [readText, Attempt.bind_apply, hread, text]
        cases disk.content path <;> rfl

theorem Finds.eq_of_reliable {disk : Disk} {path : Path} {result : Except IoCause String}
    (h : disk.Finds path result) (hreliable : disk.Reliable) : result = disk.text path := by
  cases h with
  | text => rfl
  | fault hfault =>
      rw [hreliable _ (Nat.le_refl _)] at hfault
      cases hfault

end Disk

/-! ## Looking around on a host -/

/-- The host has been looked at: time has gone by and records may have been added. -/
structure Host.Observed (before after : Host) : Prop where
  disk : ∃ clock, before.disk.clock ≤ clock ∧ after.disk = { before.disk with clock }
  environment : after.environment = before.environment

namespace Host.Observed

theorem refl (host : Host) : Observed host host :=
  ⟨⟨_, Nat.le_refl _, rfl⟩, rfl⟩

theorem trans {before middle after : Host} (hfirst : Observed before middle)
    (hsecond : Observed middle after) : Observed before after := by
  obtain ⟨clock, hclock, hdisk⟩ := hfirst.disk
  obtain ⟨later, hlater, hafter⟩ := hsecond.disk
  rw [hdisk] at hlater hafter
  exact ⟨⟨later, Nat.le_trans hclock hlater, hafter⟩, hsecond.environment.trans hfirst.environment⟩

theorem note (severity : Severity) (text : String) (host : Host) :
    Observed host (Host.note severity text host).2 :=
  ⟨⟨_, Nat.le_refl _, rfl⟩, rfl⟩

variable {before after : Host}

theorem tree (h : Observed before after) : after.disk.tree = before.disk.tree := by
  obtain ⟨clock, _, hdisk⟩ := h.disk
  rw [hdisk]

theorem base (h : Observed before after) : after.disk.base = before.disk.base := by
  obtain ⟨clock, _, hdisk⟩ := h.disk
  rw [hdisk]

theorem content (h : Observed before after) (path : Path) :
    after.disk.content path = before.disk.content path := by
  rw [Disk.content, Disk.content, h.tree, h.base]

theorem text (h : Observed before after) (path : Path) :
    after.disk.text path = before.disk.text path := by
  rw [Disk.text, Disk.text, h.content]

theorem reliable (h : Observed before after) (hreliable : before.disk.Reliable) :
    after.disk.Reliable := by
  obtain ⟨clock, hclock, hdisk⟩ := h.disk
  rw [hdisk]
  exact fun time htime => hreliable time (Nat.le_trans hclock htime)

theorem truthful (h : Observed before after) (htruthful : before.disk.Truthful) :
    after.disk.Truthful := by
  obtain ⟨clock, _, hdisk⟩ := h.disk
  rw [hdisk]
  exact htruthful

end Host.Observed

theorem Host.readText_apply (path : Path) (host : Host) :
    ∃ result after, Observed host after ∧ host.disk.Finds path result ∧
      (Disk.readText path).within Host.diskPart host = (result, after) := by
  obtain ⟨clock, result, hclock, hread, hfinds⟩ := Disk.readText_apply path host.disk
  refine ⟨result, { host with disk := { host.disk with clock } }, ⟨⟨clock, hclock, rfl⟩, rfl⟩,
    hfinds, ?_⟩
  simp only [Attempt.within_apply, Host.diskPart, hread]

/-! ## The two files -/

/-- The configuration in a text that has been read. -/
def Launcher.configOf (path : Path) (found : Except IoCause String) : Except Error ConfigFile :=
  found.mapError (Error.io path) >>= ConfigFile.parseFrom path

theorem Launcher.readConfig_apply (path : Path) (host : Host) :
    ∃ found after, Host.Observed host after ∧ host.disk.Finds path found ∧
      readConfig path host = (configOf path found, after) := by
  obtain ⟨found, after, hobserved, hfinds, hread⟩ := Host.readText_apply path host
  refine ⟨found, after, hobserved, hfinds, ?_⟩
  have hreport : ((Disk.readText path).mapError (Error.io path)).within Host.diskPart host =
      (((Disk.readText path).within Host.diskPart host).1.mapError (Error.io path),
        ((Disk.readText path).within Host.diskPart host).2) := rfl
  rw [readConfig, Attempt.bind_apply, hreport, hread, configOf]
  cases found <;> rfl

theorem Launcher.exists_content_of_configOf {disk : Disk} {path : Path} {config : ConfigFile}
    (h : configOf path (disk.text path) = .ok config) :
    ∃ content, disk.content path = .ok content := by
  cases hcontent : disk.content path with
  | ok content => exact ⟨content, rfl⟩
  | error cause =>
      rw [Disk.text_of_content_error hcontent] at h
      cases h

/-- The overrides in a text that has been read, none if the file is missing. -/
def Overrides.overridesOf (path : Path) : Except IoCause String → Except Error OptionMap
  | .error .noEntry => .ok .empty
  | .error cause => .error (.io path cause)
  | .ok content =>
    (ConfigFile.parseFrom path content).map (·.entriesOf ConfigFile.overridesSection)

theorem Overrides.overridesOf_error (path : Path) {cause : IoCause} (h : cause ≠ .noEntry) :
    overridesOf path (.error cause) = .error (.io path cause) := by
  unfold overridesOf
  split
  next heq =>
    cases heq
    exact absurd rfl h
  next heq =>
    cases heq
    rfl
  next heq => cases heq

theorem Overrides.noEntry_of_overridesOf {disk : Disk} {path : Path} {overrides : OptionMap}
    {cause : IoCause} (h : overridesOf path (disk.text path) = .ok overrides)
    (hcause : disk.content path = .error cause) : cause = .noEntry := by
  rw [Disk.text_of_content_error hcause] at h
  by_contra hne
  rw [overridesOf_error path hne] at h
  cases h

theorem Overrides.load_apply (path : Path) (host : Host) :
    ∃ found after, Host.Observed host after ∧ host.disk.Finds path found ∧
      load path host = (overridesOf path found, after) := by
  obtain ⟨found, looked, hobserved, hfinds, hread⟩ := Host.readText_apply path host
  have houtcome : (((Disk.readText path).within Host.diskPart).outcome :
      Attempt Error Host (Except IoCause String)) host = (.ok found, looked) := by
    rw [Attempt.outcome_apply, hread]
  unfold load
  rw [Attempt.bind_of_ok houtcome]
  have hnoted : ∀ severity text, Host.Observed host (Host.note severity text looked).2 :=
    fun severity text => hobserved.trans (.note severity text looked)
  split
  next => exact ⟨_, _, hnoted _ _, hfinds, rfl⟩
  next cause hcause =>
    rw [Attempt.throw_apply, ← overridesOf_error path (fun h => hcause (by rw [h]))]
    exact ⟨_, _, hobserved, hfinds, rfl⟩
  next content =>
    cases hparse : ConfigFile.parseFrom path content with
    | error error =>
        have hfound : overridesOf path (.ok content) = .error error := by
          rw [overridesOf, hparse]
          rfl
        exact ⟨_, _, hobserved, hfinds, by rw [hfound]; rfl⟩
    | ok config =>
        have hfound : overridesOf path (.ok content) =
            .ok (config.entriesOf ConfigFile.overridesSection) := by
          rw [overridesOf, hparse]
          rfl
        exact ⟨_, _, hnoted _ _, hfinds, by rw [hfound]; rfl⟩

/-! ## Loading -/

namespace Launcher

/-- The overrides file that is chosen in an environment. -/
def chosenFile? (launcher : Launcher) (app : ConfigFile) (environment : Environment) :
    Option Path :=
  launcher.overridesFile.or do
    let stated ← app.get? ConfigFile.applicationSection ConfigFile.identifierKey
    let identifier := Text.trim stated.toList
    if isUsableIdentifier identifier then
      environment.configDirectory?.map (overridesPath · (String.ofList identifier))
    else none

theorem chooseOverridesFile_apply (launcher : Launcher) (app : ConfigFile) (host : Host) :
    ∃ after, Host.Observed host after ∧
      launcher.chooseOverridesFile app host =
        (launcher.chosenFile? app host.environment, after) := by
  unfold chooseOverridesFile chosenFile?
  cases launcher.overridesFile with
  | some path => exact ⟨host, .refl host, rfl⟩
  | none =>
      unfold defaultOverridesPath?
      cases app.get? ConfigFile.applicationSection ConfigFile.identifierKey with
      | none => exact ⟨host, .refl host, rfl⟩
      | some stated =>
          by_cases husable : isUsableIdentifier (Text.trim stated.toList)
          · refine ⟨host, .refl host, ?_⟩
            simp only [husable, if_true, Option.none_or, Option.bind_eq_bind, Option.bind_some]
            rfl
          · simp only [husable, Option.none_or, Option.bind_eq_bind, Option.bind_some]
            exact ⟨_, .note _ _ host, rfl⟩

/-- The store with the defaults of a configuration and the overrides of a file. -/
def storeOf (app : ConfigFile) (path : Path) (overrides : OptionMap) : Store :=
  (Store.withOverrides (app.entriesOf ConfigFile.defaultsSection) overrides).persistTo path

/-- The ways in which loading can end. -/
inductive LoadOutcome (launcher : Launcher) (host : Host) : Except Error Store → Host → Prop
  /-- The configuration cannot be read. -/
  | unread {found : Except IoCause String} {error : Error} {after : Host}
      (hobserved : Host.Observed host after) (hfound : host.disk.Finds launcher.appConfig found)
      (hconfig : configOf launcher.appConfig found = .error error) :
      LoadOutcome launcher host (.error error) after
  /-- There is no file to keep overrides in. -/
  | unkept {found : Except IoCause String} {app : ConfigFile} {after : Host}
      (hobserved : Host.Observed host after) (hfound : host.disk.Finds launcher.appConfig found)
      (hconfig : configOf launcher.appConfig found = .ok app)
      (hchosen : launcher.chosenFile? app host.environment = none) :
      LoadOutcome launcher host (.ok (.ofDefaults (app.entriesOf ConfigFile.defaultsSection)))
        after
  /-- The overrides come from a file. -/
  | kept {found saved : Except IoCause String} {app : ConfigFile} {path : Path}
      {middle after : Host}
      (hmiddle : Host.Observed host middle) (hobserved : Host.Observed host after)
      (hfound : host.disk.Finds launcher.appConfig found)
      (hconfig : configOf launcher.appConfig found = .ok app)
      (hchosen : launcher.chosenFile? app host.environment = some path)
      (hsaved : middle.disk.Finds path saved) :
      LoadOutcome launcher host ((Overrides.overridesOf path saved).map (storeOf app path)) after

theorem load_outcome (launcher : Launcher) (host : Host) :
    LoadOutcome launcher host (launcher.load host).1 (launcher.load host).2 := by
  obtain ⟨found, read, hread, hfound, hconfig⟩ := readConfig_apply launcher.appConfig host
  unfold load
  cases happ : configOf launcher.appConfig found with
  | error error =>
      rw [happ] at hconfig
      rw [Attempt.bind_of_error hconfig]
      exact .unread hread hfound happ
  | ok app =>
      rw [happ] at hconfig
      rw [Attempt.bind_of_ok hconfig]
      obtain ⟨middle, hmiddle, hchoose⟩ := launcher.chooseOverridesFile_apply app read
      rw [hread.environment] at hchoose
      have hlift : (liftM (launcher.chooseOverridesFile app) : Attempt Error Host (Option Path))
          read = (.ok (launcher.chosenFile? app host.environment), middle) := by
        rw [Attempt.lift_apply, hchoose]
      dsimp only
      rw [Attempt.bind_of_ok hlift]
      have hseen := hread.trans hmiddle
      cases hchosen : launcher.chosenFile? app host.environment with
      | none =>
          exact .unkept (hseen.trans ((Host.Observed.note _ _ middle).trans (.note _ _ _))) hfound
            happ hchosen
      | some path =>
          obtain ⟨saved, loaded, hloaded, hsaved, hload⟩ := Overrides.load_apply path middle
          have hlooked := hseen.trans hloaded
          dsimp only
          cases hoverrides : Overrides.overridesOf path saved with
          | error error =>
              have hmap : (Overrides.overridesOf path saved).map (storeOf app path) =
                  .error error := by
                rw [hoverrides]
                rfl
              rw [hoverrides] at hload
              rw [Attempt.bind_of_error hload, ← hmap]
              exact .kept hseen hlooked hfound happ hchosen hsaved
          | ok overrides =>
              have hmap : (Overrides.overridesOf path saved).map (storeOf app path) =
                  .ok (storeOf app path overrides) := by
                rw [hoverrides]
                rfl
              rw [hoverrides] at hload
              rw [Attempt.bind_of_ok hload]
              change LoadOutcome launcher host (.ok (storeOf app path overrides)) _
              rw [← hmap]
              exact .kept hseen (hlooked.trans (.note _ _ loaded)) hfound happ hchosen hsaved

/-- Loading leaves the disk and the environment alone. -/
theorem LoadOutcome.observed {launcher : Launcher} {host after : Host}
    {result : Except Error Store} (h : LoadOutcome launcher host result after) :
    Host.Observed host after := by
  cases h with
  | unread hobserved => exact hobserved
  | unkept hobserved => exact hobserved
  | kept _ hobserved => exact hobserved

/-- What a load finds: a configuration that leads to an overrides file, and the overrides in it. -/
structure Sources (launcher : Launcher) (host : Host) (app : ConfigFile) (path : Path)
    (overrides : OptionMap) : Prop where
  config : configOf launcher.appConfig (host.disk.text launcher.appConfig) = .ok app
  chosen : launcher.chosenFile? app host.environment = some path
  saved : Overrides.overridesOf path (host.disk.text path) = .ok overrides

/-- A load whose reads meet no fault gives the store that its files make. -/
theorem load_of_sources {launcher : Launcher} {host : Host} {app : ConfigFile} {path : Path}
    {overrides : OptionMap} (hreliable : host.disk.Reliable)
    (h : launcher.Sources host app path overrides) :
    (launcher.load host).1 = .ok (storeOf app path overrides) := by
  have houtcome := launcher.load_outcome host
  generalize (launcher.load host).1 = result at houtcome
  cases houtcome with
  | unread _ hfound hconfig =>
      rw [hfound.eq_of_reliable hreliable, h.config] at hconfig
      cases hconfig
  | unkept _ hfound hconfig hchosen =>
      rw [hfound.eq_of_reliable hreliable, h.config] at hconfig
      cases hconfig
      rw [h.chosen] at hchosen
      cases hchosen
  | kept hmiddle _ hfound hconfig hchosen hsaved =>
      rw [hfound.eq_of_reliable hreliable, h.config] at hconfig
      cases hconfig
      rw [h.chosen] at hchosen
      cases hchosen
      rw [hsaved.eq_of_reliable (hmiddle.reliable hreliable), hmiddle.text, h.saved]
      rfl

/-- A load that succeeds has found what its files hold, unless the disk calls a file missing that
is there. -/
theorem sources_of_load {launcher : Launcher} {host after : Host} {store : Store}
    (htruthful : host.disk.Truthful) (h : launcher.load host = (.ok store, after)) :
    (∃ app, configOf launcher.appConfig (host.disk.text launcher.appConfig) = .ok app ∧
        launcher.chosenFile? app host.environment = none ∧ store.overridesFile = none) ∨
      ∃ app path overrides, launcher.Sources host app path overrides ∧
        store = storeOf app path overrides := by
  have houtcome := launcher.load_outcome host
  rw [h] at houtcome
  generalize hresult : (.ok store : Except Error Store) = result at houtcome
  cases houtcome with
  | unread => cases hresult
  | @unkept found app _ _ hfound hconfig hchosen =>
      cases hresult
      cases hfound with
      | text => exact .inl ⟨app, hconfig, hchosen, rfl⟩
      | fault => cases hconfig
  | @kept found saved app path middle _ hmiddle _ hfound hconfig hchosen hsaved =>
      cases hoverrides : Overrides.overridesOf path saved with
      | error error =>
          rw [hoverrides] at hresult
          cases hresult
      | ok overrides =>
          rw [hoverrides] at hresult
          cases hresult
          refine .inr ⟨app, path, overrides, ⟨?_, hchosen, ?_⟩, rfl⟩
          · cases hfound with
            | text => exact hconfig
            | fault => cases hconfig
          · cases hsaved with
            | text =>
                rw [← hmiddle.text]
                exact hoverrides
            | fault hfault =>
                -- the one fault that a load survives is one that calls the file missing
                have hcause := hmiddle.truthful htruthful _ _ hfault
                rw [Overrides.overridesOf_error _ hcause] at hoverrides
                cases hoverrides

end Launcher

end LauncherOptions
