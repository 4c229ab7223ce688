import LauncherOptions.Program.Service

/-! # Finding the service of the program

The place for the service is full or empty. If it is full, its service is found and nothing
happens. If it is empty, the environment has to name a configuration and the store has to load from
it: the place is then filled with what was loaded. Otherwise the error of whichever of the two fails
is the result, and the place stays empty. `Found` lists these cases.
-/

namespace LauncherOptions.Program

/-- The ways in which looking for the service can end. -/
inductive Found (program : Program) : Except Error Service → Program → Prop
  | installed {service : Service} (hfull : program.installed = some service) :
      Found program (.ok service) program
  /-- The environment does not say what to load. -/
  | unconfigured {error : Error} (hempty : program.installed = none)
      (hlauncher : Launcher.fromEnvironment program.host.environment = .error error) :
      Found program (.error error) program
  /-- What the environment names cannot be loaded. -/
  | unloaded {launcher : Launcher} {error : Error} {host : Host} (hempty : program.installed = none)
      (hlauncher : Launcher.fromEnvironment program.host.environment = .ok launcher)
      (hload : launcher.load program.host = (.error error, host)) :
      Found program (.error error) { program with host }
  | loaded {launcher : Launcher} {store : Store} {host : Host} (hempty : program.installed = none)
      (hlauncher : Launcher.fromEnvironment program.host.environment = .ok launcher)
      (hload : launcher.load program.host = (.ok store, host)) :
      Found program (.ok (.store program.stores.length))
        { program with
          host
          stores := program.stores ++ [store]
          installed := some (.store program.stores.length) }

theorem loadFromEnvironment_of_error {host : Host} {error : Error}
    (h : Launcher.fromEnvironment host.environment = .error error) :
    loadFromEnvironment host = (.error error, host) := by
  rw [loadFromEnvironment, Attempt.bind_of_ok (Attempt.get_apply host), h]
  rfl

theorem loadFromEnvironment_of_ok {host : Host} {launcher : Launcher}
    (h : Launcher.fromEnvironment host.environment = .ok launcher) :
    loadFromEnvironment host = launcher.load host := by
  rw [loadFromEnvironment, Attempt.bind_of_ok (Attempt.get_apply host), h]
  rfl

/-- What is done when the place is empty. -/
theorem service_of_none {program : Program} (h : program.installed = none) :
    service program = (do
      let store ← loadFromEnvironment.within hostPart
      let number ← keep store
      modify fun program => { program with installed := some (.store number) }
      return .store number : Attempt Error Program Service) program := by
  rw [service, Attempt.bind_of_ok (Attempt.get_apply program), h]

theorem service_of_load_error {program : Program} {error : Error} {host : Host}
    (hempty : program.installed = none)
    (hload : loadFromEnvironment program.host = (.error error, host)) :
    service program = (.error error, { program with host }) := by
  rw [service_of_none hempty]
  apply Attempt.bind_of_error
  rw [Attempt.within_apply, hostPart, hload]

theorem Found.eq {program after : Program} {result : Except Error Service}
    (h : Found program result after) : service program = (result, after) := by
  cases h with
  | installed hfull =>
      rw [service, Attempt.bind_of_ok (Attempt.get_apply program), hfull]
      rfl
  | unconfigured hempty hlauncher =>
      exact service_of_load_error hempty (loadFromEnvironment_of_error hlauncher)
  | unloaded hempty hlauncher hload =>
      exact service_of_load_error hempty ((loadFromEnvironment_of_ok hlauncher).trans hload)
  | @loaded launcher store host hempty hlauncher hload =>
      have hwithin : loadFromEnvironment.within hostPart program =
          (.ok store, { program with host }) := by
        rw [Attempt.within_apply, hostPart, loadFromEnvironment_of_ok hlauncher, hload]
      rw [service_of_none hempty]
      exact Attempt.bind_of_ok hwithin _

theorem exists_found (program : Program) : ∃ result after, Found program result after := by
  cases hinstalled : program.installed with
  | some service => exact ⟨_, _, .installed hinstalled⟩
  | none =>
      cases hlauncher : Launcher.fromEnvironment program.host.environment with
      | error error => exact ⟨_, _, .unconfigured hinstalled hlauncher⟩
      | ok launcher =>
          rcases hload : launcher.load program.host with ⟨error | store, host⟩
          · exact ⟨_, _, .unloaded hinstalled hlauncher hload⟩
          · exact ⟨_, _, .loaded hinstalled hlauncher hload⟩

theorem service_eq_iff {program after : Program} {result : Except Error Service} :
    service program = (result, after) ↔ Found program result after := by
  refine ⟨fun h => ?_, Found.eq⟩
  obtain ⟨other, final, hfound⟩ := exists_found program
  cases hfound.eq.symm.trans h
  exact hfound

theorem service_found (program : Program) :
    Found program (service program).1 (service program).2 :=
  service_eq_iff.mp rfl

theorem Found.machine {program after : Program} {result : Except Error Service}
    (h : Found program result after) : after.machine = program.machine := by
  cases h <;> rfl

end LauncherOptions.Program
