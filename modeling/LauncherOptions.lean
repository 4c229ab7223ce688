import LauncherOptions.Native
import LauncherOptions.Program.Logging
import LauncherOptions.Proofs.Config.Grammar
import LauncherOptions.Proofs.Config.Layout
import LauncherOptions.Proofs.Config.Meaning
import LauncherOptions.Proofs.Config.Reread
import LauncherOptions.Proofs.Config.Settable
import LauncherOptions.Proofs.Machine.Pending
import LauncherOptions.Proofs.Machine.Strings
import LauncherOptions.Proofs.ModifiedUtf8.Refusal
import LauncherOptions.Proofs.Native.Restraint
import LauncherOptions.Proofs.Native.Session
import LauncherOptions.Proofs.Native.Surfacing
import LauncherOptions.Proofs.Overrides.Location
import LauncherOptions.Proofs.Overrides.Safety
import LauncherOptions.Proofs.Persistence
import LauncherOptions.Proofs.Program.Slot
import LauncherOptions.Proofs.Store.Readers
import LauncherOptions.Proofs.Store.Repetition
import LauncherOptions.Proofs.ModifiedUtf8.Passes
import LauncherOptions.Proofs.OrderedMap.History
import LauncherOptions.Proofs.Machine.Custody.Basic
import LauncherOptions.Proofs.Machine.Custody.Making
import LauncherOptions.Proofs.Machine.Custody.Reading
