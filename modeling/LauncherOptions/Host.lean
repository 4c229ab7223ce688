import LauncherOptions.Disk.Basic
import LauncherOptions.OrderedMap

/-! # The host of the launcher

What the launcher finds around it: a disk, an environment, and a journal that its log records go
to.
-/

namespace LauncherOptions

/-- How much a log record matters. -/
inductive Severity
  | error
  | warn
  | info
  | debug
  deriving DecidableEq

structure Record where
  severity : Severity
  text : String
  deriving DecidableEq

/-- What a program is told when it is started. -/
structure Environment where
  /-- The values of the variables, by their names. -/
  values : OrderedMap String String := .empty
  /-- The directory that applications keep the user's settings in, if there is one. -/
  configDirectory? : Option Path := none

/-- The surroundings of the launcher. -/
structure Host where
  disk : Disk
  environment : Environment
  /-- The log records so far, oldest first. -/
  journal : List Record := []

namespace Environment

def get? (environment : Environment) (name : String) : Option String :=
  environment.values.get? name

/-- The value of a variable that is set and not empty. -/
def nonempty? (environment : Environment) (name : String) : Option String :=
  (environment.get? name).filter fun value => !value.isEmpty

end Environment

namespace Host

def diskPart : Focus Host Disk where
  get host := host.disk
  set disk host := { host with disk }

def note (severity : Severity) (text : String) : StateM Host Unit :=
  modify fun host => { host with journal := host.journal ++ [⟨severity, text⟩] }

end Host

end LauncherOptions
