import LauncherOptions.Text.Blank
import LauncherOptions.Text.Split

/-! # Log filters

A log filter is a list of directives with commas between them. A directive gives a level to a
target, or to everything if it names no target; a target alone asks for all its records. What
follows a slash restricts the records' texts and has no say in the level. The level of a filter is
the highest one that any of its directives asks for.
-/

namespace LauncherOptions

/-- How much is logged, from nothing to everything. -/
inductive Verbosity
  | off
  | error
  | warn
  | info
  | debug
  | trace
  deriving DecidableEq

namespace Verbosity

/-- The place of a level in the order from nothing to everything. -/
def rank : Verbosity → Nat
  | .off => 0
  | .error => 1
  | .warn => 2
  | .info => 3
  | .debug => 4
  | .trace => 5

def max (left right : Verbosity) : Verbosity :=
  if left.rank ≤ right.rank then right else left

/-- The level that a word names, in upper or lower case. -/
def ofWord? (word : List Char) : Option Verbosity :=
  match String.ofList (word.map Char.toLower) with
  | "off" => some .off
  | "error" => some .error
  | "warn" => some .warn
  | "info" => some .info
  | "debug" => some .debug
  | "trace" => some .trace
  | _ => none

end Verbosity

/-- The level asked for a target, or for everything. -/
structure Directive where
  target : Option (List Char)
  verbosity : Verbosity

namespace Directive

/-- The meaning of one directive of a filter. Blank ones and those that make no sense have none. -/
def read? (text : List Char) : Option Directive :=
  let trimmed := Text.trim text
  if trimmed = [] then none
  else
    match Text.splitAt '=' trimmed with
    | [word] =>
      match Verbosity.ofWord? word with
      | some verbosity => some ⟨none, verbosity⟩
      | none => some ⟨some word, .trace⟩
    | [target, level] =>
      if Text.trim level = [] then some ⟨some target, .trace⟩
      else (Verbosity.ofWord? (Text.trim level)).map fun verbosity => ⟨some target, verbosity⟩
    | _ => none

/-- The directives of a filter. A filter with more than one slash has none. -/
def readAll (filter : String) : List Directive :=
  match Text.splitAt '/' filter.toList with
  | [directives] => (Text.splitAt ',' directives).filterMap read?
  | [directives, _] => (Text.splitAt ',' directives).filterMap read?
  | _ => []

/-- The directives that count: of several for one target, the last. -/
def effective : List Directive → List Directive
  | [] => []
  | directive :: rest =>
    if rest.any fun later => later.target = directive.target then effective rest
    else directive :: effective rest

end Directive

namespace Verbosity

/-- The filter that applies if none is given. -/
def defaultFilter : String := "warn"

/-- The level of a filter. One without directives lets errors pass. -/
def ofFilter (filter : String) : Verbosity :=
  match Directive.effective (Directive.readAll filter) with
  | [] => .error
  | directives => (directives.map Directive.verbosity).foldl max .off

example : ofFilter "warn,app=Info" = .info := by decide

example : ofFilter "" = .error := by decide

end Verbosity

end LauncherOptions
