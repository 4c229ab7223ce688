import LauncherOptions.OrderedMap

/-! # Configuration files

A configuration file is a list of named sections, each an ordered map of options. Entries that
stand before the first header belong to the section with the empty name.
-/

namespace LauncherOptions

/-- Sections by name, in the order in which they first appear. -/
structure ConfigFile where
  sections : OrderedMap String OptionMap
  deriving DecidableEq, Inhabited

namespace ConfigFile

/-- The section of the launcher's file that describes the application. -/
def applicationSection : String := "Application"

/-- The section of the launcher's file that holds the default options. -/
def defaultsSection : String := "JVMUserOptions"

/-- The section of the overrides file that holds the user's options. -/
def overridesSection : String := "JVMUserOverrides"

/-- The key of the application's identifier. -/
def identifierKey : String := "app.identifier"

def empty : ConfigFile := ⟨.empty⟩

def section? (config : ConfigFile) (name : String) : Option OptionMap :=
  config.sections.get? name

/-- The entries of a section, none if there is no such section. -/
def entriesOf (config : ConfigFile) (name : String) : OptionMap :=
  (config.section? name).getD .empty

/-- Gives a section new entries, in place if it exists and at the end if it is new. -/
def setSection (config : ConfigFile) (name : String) (entries : OptionMap) : ConfigFile :=
  ⟨config.sections.insert name entries⟩

def get? (config : ConfigFile) (name key : String) : Option String :=
  (config.section? name).bind (·.get? key)

/-- Whether two files have the same sections with the same entries. The order of the sections does
not matter, the order of the entries in a section does. -/
def agrees (left right : ConfigFile) : Bool :=
  left.sections.size == right.sections.size &&
    left.sections.entries.all fun (name, entries) => right.section? name = some entries

end ConfigFile

end LauncherOptions
