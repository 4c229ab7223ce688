import LauncherOptions.OrderedMap
import LauncherOptions.Path
import LauncherOptions.Text.Blank

/-! # The option store

A store keeps the packaged defaults, which never change, apart from the user's overrides: the
options whose value differs from the default, or which have none. The current options are the
defaults with the overrides laid over them.
-/

namespace LauncherOptions

/-- Default options, the user's overrides, and the file that keeps the overrides, if any. -/
structure Store where
  defaults : OptionMap
  /-- The options that the user has set to something else. -/
  overrides : OptionMap
  overridesFile : Option Path := none
  deriving DecidableEq, Inhabited

namespace Store

/-- A store that starts from saved overrides. Those that say the same as the default are
dropped. -/
def withOverrides (defaults overrides : OptionMap) : Store where
  defaults := defaults
  overrides := overrides.filter fun key value => defaults.get? key ≠ some value

def ofDefaults (defaults : OptionMap) : Store :=
  withOverrides defaults .empty

/-- The store with its changes saved to a file. -/
def persistTo (store : Store) (path : Path) : Store :=
  { store with overridesFile := some path }

def defaultValue? (store : Store) (key : String) : Option String :=
  store.defaults.get? key

def defaultKeys (store : Store) : List String :=
  store.defaults.keys

def currentValue? (store : Store) (key : String) : Option String :=
  match store.overrides.get? key with
  | some value => some value
  | none => store.defaultValue? key

/-- The current options: those with a default first, then those that are only overrides. -/
def current (store : Store) : OptionMap :=
  store.defaults.insertMany store.overrides.entries

def currentKeys (store : Store) : List String :=
  store.current.keys

/-- The current options as arguments for the virtual machine: each key with its value right after
it, less the blanks that the value starts with. -/
def arguments (store : Store) : List String :=
  store.current.entries.map fun (key, value) =>
    key ++ String.ofList (Text.trimStart value.toList)

/-- The overrides with one option set: an option that is set to its default is no override. -/
def setOverride (defaults overrides : OptionMap) (key value : String) : OptionMap :=
  if defaults.get? key = some value then overrides.erase key else overrides.insert key value

/-- The overrides with the options of a batch set one after another. -/
def revised (store : Store) (batch : List (String × String)) : OptionMap :=
  batch.foldl (fun overrides (key, value) => setOverride store.defaults overrides key value)
    store.overrides

end Store

end LauncherOptions
