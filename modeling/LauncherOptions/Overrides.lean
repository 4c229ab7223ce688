import LauncherOptions.Config.Parser
import LauncherOptions.Config.Printer
import LauncherOptions.Host

/-! # The overrides file

The user's options are kept in a configuration file of their own. Saving writes the new text next
to the file and then moves it into place, so that the file holds either the old text or the new one
at every moment. A file that does not exist holds no overrides.
-/

namespace LauncherOptions.Overrides

def fileName : String := "jvmuserargs.cfg"

/-- What the name of the temporary file adds to that of the overrides file. -/
def temporarySuffix : String := ".tmp"

/-- The text of a file that holds the overrides. -/
def text (overrides : OptionMap) : String :=
  (ConfigFile.empty.setSection ConfigFile.overridesSection overrides).render

/-- The bytes of a file that holds the overrides. -/
def bytes (overrides : OptionMap) : List UInt8 :=
  Text.Utf8.encode (text overrides)

def temporary (path : Path) : Path :=
  path.withSuffix temporarySuffix

/-- Makes the directory that a file is to be in. -/
def prepareDirectory (path : Path) : Attempt Error Disk Unit :=
  match path.parent? with
  | some parent =>
    if parent.text.isEmpty then pure ()
    else (Disk.makeDirectoryTree parent).mapError (.io parent)
  | none => pure ()

/-- Writes the overrides to a file in one step. If the new text cannot be moved into place, the
temporary file is removed. -/
def save (path : Path) (overrides : OptionMap) : Attempt Error Disk Unit := do
  prepareDirectory path
  (Disk.write (temporary path) (bytes overrides)).mapError (.io (temporary path))
  match ← (Disk.rename (temporary path) path).outcome with
  | .ok () => return
  | .error cause =>
    -- whether the clean-up works does not matter: what is reported is the failed move
    let _ ← (Disk.remove (temporary path)).outcome
    throw (.io path cause)

/-- The overrides in a file, none if the file is missing. -/
def load (path : Path) : Attempt Error Host OptionMap := do
  match ← ((Disk.readText path).within Host.diskPart).outcome with
  | .error .noEntry =>
    Host.note .debug s!"no overrides file at {path.text}"
    return .empty
  | .error cause => throw (.io path cause)
  | .ok content =>
    let config ← .ofExcept (ConfigFile.parseFrom path content)
    let overrides := config.entriesOf ConfigFile.overridesSection
    Host.note .debug s!"loaded {overrides.size} override(s) from {path.text}"
    return overrides

end LauncherOptions.Overrides
