import LauncherOptions.Error
import LauncherOptions.Text.Blank

/-! # Lines of a configuration text

A line is a header in brackets, an entry, or nothing: blank lines and those that start with `#` or
`;` carry no meaning. An entry is split at its first equals sign. The key loses the blanks around
it and the value is kept to the last blank; an entry without an equals sign is a key with the empty
value.
-/

namespace LauncherOptions

/-- What a line of a configuration text says. -/
inductive Line
  /-- A blank line or a comment. -/
  | ignored
  | header (name : String)
  /-- An option of the section that the line stands in. -/
  | entry (key value : String)
  deriving DecidableEq

namespace Line

/-- The name in a header, given what follows the opening bracket. -/
def headerName? (rest : List Char) : Option (List Char) :=
  if rest.getLast? = some ']' then
    let name := Text.trim rest.dropLast
    if name = [] then none else some name
  else none

/-- Key and value of an entry, given the line from its first character that is not blank. -/
def splitEntry (line : List Char) : List Char × List Char :=
  match line.dropWhile (· ≠ '=') with
  | [] => (Text.trimEnd line, [])
  | _ :: value => (Text.trim (line.takeWhile (· ≠ '=')), value)

/-- The meaning of a line without its end. -/
def read (raw : List Char) : Except LineFault Line :=
  let line := Text.trimStart raw
  let trimmed := Text.trimEnd line
  match trimmed with
  | [] => .ok .ignored
  | '#' :: _ => .ok .ignored
  | ';' :: _ => .ok .ignored
  | '[' :: rest =>
    match headerName? rest with
    | some name => .ok (.header (String.ofList name))
    | none => .error (.malformedHeader (String.ofList trimmed))
  | _ =>
    let (key, value) := splitEntry line
    if key = [] then .error .emptyKey
    else .ok (.entry (String.ofList key) (String.ofList value))

end Line

end LauncherOptions
