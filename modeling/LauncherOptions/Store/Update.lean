import LauncherOptions.Overrides
import LauncherOptions.Store.Basic
import LauncherOptions.Validation

/-! # Setting options

A batch of options is set as one step: every pair is checked before anything changes, and the new
overrides take effect only after they are saved. A batch that leaves the overrides as they are is
not saved at all.
-/

namespace LauncherOptions

/-- A store in use and the host that it is used on. -/
structure LiveStore where
  store : Store
  /-- The host whose disk keeps the overrides. -/
  host : Host

namespace LiveStore

def hostPart : Focus LiveStore Host where
  get live := live.host
  set host live := { live with host }

def diskPart : Focus LiveStore Disk where
  get live := live.host.disk
  set disk live := { live with host := { live.host with disk } }

def note (severity : Severity) (text : String) : StateM LiveStore Unit :=
  modify fun live => { live with host := (Host.note severity text live.host).2 }

/-- Saves overrides to the file of the store, if it has one. -/
def saveOverrides (overrides : OptionMap) : Attempt Error LiveStore Unit := do
  match (← get).store.overridesFile with
  | none => return
  | some path =>
    (Overrides.save path overrides).within diskPart
    note .info s!"saved {overrides.size} user JVM override(s) to {path.text}"

/-- Sets the options of a batch, later pairs after earlier ones, or none of them. -/
def setOptions (batch : List (String × String)) : Attempt Error LiveStore Unit := do
  Attempt.ofExcept ((validateBatch batch).mapError .invalidArgument)
  let store := (← get).store
  let next := store.revised batch
  if next = store.overrides then
    note .debug s!"set of {batch.length} option(s) left overrides unchanged"
  else
    -- the store changes only once the save has succeeded
    saveOverrides next
    modify fun live => { live with store := { live.store with overrides := next } }
    note .debug s!"applied {batch.length} option(s)"

end LiveStore

/-- The keys with their values. Lists of different length are refused. -/
def pairUp (keys values : List String) : Attempt Error Host (List (String × String)) := do
  if keys.length = values.length then
    return keys.zip values
  else
    Host.note .warn s!"rejecting {keys.length} keys with {values.length} values"
    throw (.lengthMismatch keys.length values.length)

namespace LiveStore

/-- Sets each key to the value at the same place of the other list, or none of them. -/
def setKeysAndValues (keys values : List String) : Attempt Error LiveStore Unit := do
  let batch ← (pairUp keys values).within hostPart
  setOptions batch

end LiveStore

end LauncherOptions
