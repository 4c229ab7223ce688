import LauncherOptions.Program.Basic

/-! # Setting up the log

The library logs through the logger of the program that it is loaded into. If there is none, it
installs one with the filter that the environment gives.
-/

namespace LauncherOptions.Program

def verbosity (program : Program) : Verbosity :=
  program.logger.getD .off

/-- The variable with the log filter. -/
def logVariable : String := "USER_JVM_OPTIONS_LOG"

/-- Installs a logger with the filter of the environment, unless there is a logger. -/
def initLogging : StateM Program Unit :=
  modify fun program =>
    match program.logger with
    | some _ => program
    | none =>
      let filter := (program.host.environment.get? logVariable).getD Verbosity.defaultFilter
      { program with logger := some (Verbosity.ofFilter filter) }

/-- What happens when the virtual machine loads the library: logging is set up, and the version of
the function table that the library needs is given. -/
def onLoad : StateM Program Int := do
  initLogging
  note .debug "user JVM options library loaded"
  return Machine.interfaceVersion

end LauncherOptions.Program
