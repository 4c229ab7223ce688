import LauncherOptions.Disk.Tree
import LauncherOptions.Error

/-! # Following paths

A path is followed name by name; every name but the last has to lead to a directory or to a symbolic
link. At a link the names of its target are followed in its place, from the root or from the
directory that the link is in, and then the rest of the path. Whether a link under the last name is
taken is up to the operation. Only so many links are taken for one path.
-/

namespace LauncherOptions

/-- The directory that a path starts at which is met in a directory. -/
def Path.start (path : Path) (here : Location) : Location :=
  if path.isAbsolute then [] else here

/-- Where a path ends. -/
inductive Spot
  /-- At a directory that the path goes back to or stays in, by `..`, `.` or as the root. -/
  | directory (location : Location)
  /-- At a name in a directory; `slash` says that the path goes on with a slash, as only the path
  of a directory may. -/
  | child (folder : Location) (name : String) (slash : Bool)
  deriving DecidableEq

namespace Tree

/-- The longest name that a directory can hold, in bytes. -/
def maxNameSize : Nat := 255

/-- No path of this many bytes or more is followed. -/
def maxPathSize : Nat := 4096

/-- The most symbolic links that are taken for one path. -/
def maxLinks : Nat := 40

def isLink (tree : Tree) (location : Location) : Bool :=
  match tree.kind? location with
  | some (.link _) => true
  | _ => false

/-- Where names end that are followed from a directory on, `detour` being how the names of a link's
target and those after the link are followed. A link under the last name is taken if `through`
says so. -/
def trace (tree : Tree) (through : Bool)
    (detour : Location → Bool → List String → Except IoCause Spot) :
    Location → Bool → List String → Except IoCause Spot
  | here, _, [] => .ok (.directory here)
  | here, slash, name :: rest =>
    if name = "." then tree.trace through detour here slash rest
    else if name = ".." then tree.trace through detour here.tail slash rest
    else if rest = [] ∧ ¬(through ∧ tree.isLink (name :: here)) then
      -- the last name may lead to nothing yet, so it is left to the operation to look it up
      .ok (.child here name slash)
    else if maxNameSize < name.utf8ByteSize then .error .nameTooLong
    else
      match tree.kind? (name :: here) with
      | some .directory => tree.trace through detour (name :: here) slash rest
      | some (.file _) => .error .notDirectory
      | some (.link target) =>
        detour (target.start here) (slash || rest.isEmpty && target.endsInSlash)
          (target.segments ++ rest)
      | none => .error .noEntry

/-- Where names end that are followed from a directory on, by way of at most `links` links. -/
def follow (tree : Tree) (through : Bool) :
    Nat → Location → Bool → List String → Except IoCause Spot
  | 0 => tree.trace through fun _ _ _ => .error .tooManyLinks
  | links + 1 => tree.trace through (tree.follow through links)

/-- Where a path ends, a relative one starting at `base`. -/
def locate (tree : Tree) (through : Bool) (base : Location) (path : Path) : Except IoCause Spot :=
  if path.text.isEmpty then .error .noEntry
  else if maxPathSize ≤ path.text.utf8ByteSize then .error .nameTooLong
  else if tree.kind? (path.start base) ≠ some .directory then .error .noEntry
  else tree.follow through maxLinks (path.start base) path.endsInSlash path.segments

end Tree

end LauncherOptions
