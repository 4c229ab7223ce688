import LauncherOptions.Store.Update

/-! # Loading the option store

The launcher's configuration file holds the default options. The overrides file is the one that the
launcher is told of, or else the one that belongs to the application's identifier. Without either,
changes are kept in memory only.
-/

namespace LauncherOptions

/-- Where the launcher's option files are. -/
structure Launcher where
  /-- The configuration file of the packaged application. -/
  appConfig : Path
  /-- The overrides file, if it is given. -/
  overridesFile : Option Path := none
  deriving DecidableEq

namespace Launcher

/-- The variable with the path of the application's configuration file. -/
def appConfigVariable : String := "USER_JVM_OPTIONS_APP_CONFIG"

/-- The variable with the path of the overrides file. -/
def overridesVariable : String := "USER_JVM_OPTIONS_OVERRIDES"

/-- Whether an identifier can name a directory of its own: it must not be empty, point to the
directory itself or to the one above, or hold a separator. -/
def isUsableIdentifier (identifier : List Char) : Bool :=
  identifier ≠ [] && identifier ≠ ['.'] && identifier ≠ ['.', '.'] &&
    !identifier.any fun c => c == '/' || c == '\\'

/-- The overrides file of the application with an identifier. -/
def overridesPath (configDirectory : Path) (identifier : String) : Path :=
  ((configDirectory.join identifier).join "packager").join Overrides.fileName

/-- The overrides file that belongs to an application, if the application has a usable
identifier. -/
def defaultOverridesPath? (app : ConfigFile) : StateM Host (Option Path) := do
  match app.get? ConfigFile.applicationSection ConfigFile.identifierKey with
  | none => return none
  | some stated =>
    let identifier := Text.trim stated.toList
    if isUsableIdentifier identifier then
      let directory := (← get).environment.configDirectory?
      return directory.map (overridesPath · (String.ofList identifier))
    else
      let shown := Text.quoted (String.ofList identifier)
      Host.note .warn s!"ignoring unusable {ConfigFile.identifierKey} {shown}"
      return none

def fromEnvironment (environment : Environment) : Except Error Launcher :=
  match environment.nonempty? appConfigVariable with
  | none => .error (.setup (.variableUnset appConfigVariable))
  | some appConfig =>
    .ok { appConfig := ⟨appConfig⟩,
          overridesFile := (environment.nonempty? overridesVariable).map Path.mk }

def readConfig (path : Path) : Attempt Error Host ConfigFile := do
  let content ← ((Disk.readText path).mapError (Error.io path)).within Host.diskPart
  .ofExcept (ConfigFile.parseFrom path content)

/-- The overrides file: the one that is given, or else the one that belongs to the application. -/
def chooseOverridesFile (launcher : Launcher) (app : ConfigFile) : StateM Host (Option Path) :=
  match launcher.overridesFile with
  | some path => pure (some path)
  | none => defaultOverridesPath? app

/-- The store with the defaults over which saved overrides are laid. Later changes are saved to the
overrides file. -/
def load (launcher : Launcher) : Attempt Error Host Store := do
  let app ← readConfig launcher.appConfig
  let defaults := app.entriesOf ConfigFile.defaultsSection
  let store ← match ← launcher.chooseOverridesFile app with
    | some path => do
      let overrides ← Overrides.load path
      pure ((Store.withOverrides defaults overrides).persistTo path)
    | none => do
      Host.note .warn
        s!"no overrides location for {launcher.appConfig.text}; changes stay in memory"
      pure (Store.ofDefaults defaults)
  Host.note .info
    s!"loaded {defaults.size} default JVM user option(s) from {launcher.appConfig.text}"
  return store

end Launcher

end LauncherOptions
