import LauncherOptions.Program.Basic

/-! # What answers the natives

A bridge answers the five questions that natives put. Its answers may change the program and may
fail or abort, but a bridge has no access to the machine. A service of the program is a bridge: a
store of the program answers as stores do; a broken service aborts, except that key and value lists
of different length are refused before the service is asked.
-/

namespace LauncherOptions

/-- Something that can be asked while a native runs. -/
def Question (α : Type) : Type :=
  { attempt : Attempt Stop Program α // ∀ program, (attempt program).2.machine = program.machine }

/-- Whatever answers the natives. -/
structure Bridge where
  defaultValue? : String → Question (Option String)
  defaultKeys : Question (List String)
  currentValue? : String → Question (Option String)
  currentKeys : Question (List String)
  setKeysAndValues : List String → List String → Question Unit

namespace Service

/-- An answer that a store gives without changing. -/
def ask {α : Type} (service : Service) (question : Store → α) : Attempt Stop Program α := do
  match service with
  | .store number => return question ((← get).storeAt number)
  | .broken => throw .aborted

def defaultValue? (service : Service) (key : String) : Attempt Stop Program (Option String) :=
  service.ask (·.defaultValue? key)

def defaultKeys (service : Service) : Attempt Stop Program (List String) :=
  service.ask Store.defaultKeys

def currentValue? (service : Service) (key : String) : Attempt Stop Program (Option String) :=
  service.ask (·.currentValue? key)

def currentKeys (service : Service) : Attempt Stop Program (List String) :=
  service.ask Store.currentKeys

def setOptions (service : Service) (batch : List (String × String)) : Attempt Stop Program Unit :=
  match service with
  | .store number =>
    ((LiveStore.setOptions batch).within (Program.storePart number)).mapError .failed
  | .broken => throw .aborted

/-- Sets each key to the value at the same place of the other list, or none of them. -/
def setKeysAndValues (service : Service) (keys values : List String) :
    Attempt Stop Program Unit := do
  let batch ← ((pairUp keys values).within Program.hostPart).mapError .failed
  service.setOptions batch

theorem machine_ask {α : Type} (service : Service) (question : Store → α) (program : Program) :
    (service.ask question program).2.machine = program.machine := by
  cases service <;> rfl

theorem machine_setKeysAndValues (service : Service) (keys values : List String)
    (program : Program) :
    (service.setKeysAndValues keys values program).2.machine = program.machine := by
  rw [setKeysAndValues, Attempt.bind_apply]
  split
  next batch paired hpair =>
    have hmachine := congrArg (fun outcome => outcome.2.machine) hpair.symm
    cases service <;> exact hmachine
  next error paired hpair => exact congrArg (fun outcome => outcome.2.machine) hpair.symm

def bridge (service : Service) : Bridge where
  defaultValue? key := ⟨service.defaultValue? key, service.machine_ask _⟩
  defaultKeys := ⟨service.defaultKeys, service.machine_ask _⟩
  currentValue? key := ⟨service.currentValue? key, service.machine_ask _⟩
  currentKeys := ⟨service.currentKeys, service.machine_ask _⟩
  setKeysAndValues keys values :=
    ⟨service.setKeysAndValues keys values, service.machine_setKeysAndValues keys values⟩

end Service

end LauncherOptions
