import LauncherOptions.Config.Basic

/-! # Writing configuration texts

Sections are written in order with an empty line between them. The section with the empty name has
no header, so it comes first.
-/

namespace LauncherOptions.ConfigFile

def renderEntries (entries : OptionMap) : List Char :=
  entries.entries.flatMap fun (key, value) => key.toList ++ '=' :: value.toList ++ ['\n']

def renderSection (entry : String × OptionMap) : List Char :=
  '[' :: entry.1.toList ++ [']', '\n'] ++ renderEntries entry.2

def named (config : ConfigFile) : List (String × OptionMap) :=
  config.sections.entries.filter fun (name, _) => name ≠ ""

/-- The sections with a name, an empty line before each. -/
def renderSeparated (entries : List (String × OptionMap)) : List Char :=
  entries.flatMap fun entry => '\n' :: renderSection entry

def renderChars (config : ConfigFile) : List Char :=
  match config.section? "" with
  | some entries => renderEntries entries ++ renderSeparated config.named
  | none =>
    match config.named with
    | [] => []
    | first :: rest => renderSection first ++ renderSeparated rest

def render (config : ConfigFile) : String :=
  String.ofList config.renderChars

end LauncherOptions.ConfigFile
