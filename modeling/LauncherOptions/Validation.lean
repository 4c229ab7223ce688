import LauncherOptions.Error
import LauncherOptions.Text.Blank

/-! # Which options can be stored

A key is written before the equals sign of a line and read back trimmed, so it must not be empty,
padded, or hold an equals sign or a line break, and it must not look like the start of a section
header or a comment. A value is the rest of the line, so it must not hold a line break.
-/

namespace LauncherOptions

/-- Whether a character ends a line, or is part of such an end. -/
def isLineBreak (c : Char) : Bool :=
  c == '\r' || c == '\n'

/-- Whether a character at the start of a line marks a section header or a comment. -/
def isDelimiter (c : Char) : Bool :=
  c == '[' || c == '#' || c == ';'

/-- Checks that a key can be stored and written to a configuration file. -/
def validateKey (key : String) : Except ArgumentFault Unit :=
  let text := key.toList
  if text = [] then .error .emptyKey
  else if Text.trim text ≠ text then .error (.paddedKey key)
  else if text.any fun c => c == '=' || isLineBreak c then .error (.brokenKey key)
  else if text.head?.any isDelimiter then .error (.delimiterKey key)
  else .ok ()

/-- Checks that the value for a key fits on one line. -/
def validateValue (key value : String) : Except ArgumentFault Unit :=
  if value.toList.any isLineBreak then .error (.brokenValue key) else .ok ()

/-- Checks the pairs of a batch in order, each key before its value. -/
def validateBatch : List (String × String) → Except ArgumentFault Unit
  | [] => .ok ()
  | (key, value) :: rest => do
    validateKey key
    validateValue key value
    validateBatch rest

end LauncherOptions
