import LauncherOptions.Launcher
import LauncherOptions.Machine.Arrays
import LauncherOptions.Verbosity

/-! # The program that natives run in

A program has a host, a virtual machine, the option stores that were made in it, and one place for
the service that natives go to. The place is filled once: by a service that the launcher installs,
or by a store that is loaded from the environment when it is first needed.
-/

namespace LauncherOptions

/-- What answers the natives: a store of the program, or something that aborts whatever it is asked
to do. -/
inductive Service
  | store (number : Nat)
  | broken
  deriving DecidableEq

/-- How a native can stop before its end. -/
inductive Stop
  | failed (error : Error)
  | aborted
  deriving DecidableEq

/-- A program with its virtual machine. -/
structure Program where
  host : Host
  machine : Machine := {}
  /-- The option stores, in the order in which they were made. -/
  stores : List Store := []
  /-- The service that natives go to, once there is one. -/
  installed : Option Service := none
  /-- The level of the logger, once there is one. -/
  logger : Option Verbosity := none

namespace Program

def hostPart : Focus Program Host where
  get program := program.host
  set host program := { program with host }

def machinePart : Focus Program Machine where
  get program := program.machine
  set machine program := { program with machine }

/-- The store with a number; one that was never made is empty. -/
def storeAt (program : Program) (number : Nat) : Store :=
  program.stores.getD number (Store.ofDefaults .empty)

/-- A store of the program, with the host, as a part of the program. -/
def storePart (number : Nat) : Focus Program LiveStore where
  get program := ⟨program.storeAt number, program.host⟩
  set live program :=
    { program with stores := program.stores.set number live.store, host := live.host }

def note (severity : Severity) (text : String) : StateM Program Unit :=
  modify fun program => { program with host := (Host.note severity text program.host).2 }

def onMachine {α : Type} (action : StateM Machine α) : StateM Program α :=
  modifyGet fun program =>
    let (result, machine) := action program.machine
    (result, { program with machine })

/-- Keeps a store and gives its number. -/
def keep (store : Store) : StateM Program Nat :=
  modifyGet fun program =>
    (program.stores.length, { program with stores := program.stores ++ [store] })

/-- Makes a service the one that natives go to. This can be done once. -/
def install (service : Service) : Attempt Error Program Unit := do
  match (← get).installed with
  | some _ => throw .alreadyInstalled
  | none => modify fun program => { program with installed := some service }

/-- The store that the environment describes. -/
def loadFromEnvironment : Attempt Error Host Store := do
  let launcher ← Attempt.ofExcept (Launcher.fromEnvironment (← get).environment)
  launcher.load

/-- The service that natives go to. If there is none, a store is loaded from the environment and
stays in its place; if that fails, the place stays empty. -/
def service : Attempt Error Program Service := do
  match (← get).installed with
  | some service => return service
  | none =>
    let store ← loadFromEnvironment.within hostPart
    let number ← keep store
    modify fun program => { program with installed := some (.store number) }
    return .store number

end Program

end LauncherOptions
