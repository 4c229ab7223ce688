import LauncherOptions.Attempt
import LauncherOptions.Disk.Access

/-! # Disks

A disk is a directory tree, the working directory that relative paths start at, and a schedule of
faults. Every operation takes one tick of the disk's clock, and the schedule says which ticks bring
a failure: the operation then does nothing, except that a failing write may leave the first part
of the content behind. A program that ends between two operations is a schedule in which every
later tick fails.
-/

namespace LauncherOptions

/-- A failure that a disk brings about on its own. -/
structure Fault where
  cause : IoCause
  /-- How many bytes a failing write leaves in the file; none if it does not touch the file. -/
  landed : Option Nat := none

/-- A disk as a program sees it. -/
structure Disk where
  tree : Tree
  /-- Where relative paths start. -/
  base : Location
  /-- The number of operations so far. -/
  clock : Nat := 0
  /-- The operations that fail, by number. -/
  faults : Nat → Option Fault := fun _ => none

namespace Disk

/-- A path that holds the null character is refused before any operation takes place. -/
def checkPath (path : Path) : Attempt IoCause Disk Unit :=
  if path.text.toList.contains '\x00' then throw .nulInPath else pure ()

/-- The fault that the next operation meets, if any; the clock goes on. -/
def tick : Attempt IoCause Disk (Option Fault) := do
  let disk ← get
  set { disk with clock := disk.clock + 1 }
  return disk.faults disk.clock

/-- One operation that leaves the tree alone. -/
def inspect {α : Type} (operation : Tree → Location → Except IoCause α) :
    Attempt IoCause Disk α := do
  match ← tick with
  | some fault => throw fault.cause
  | none =>
    let disk ← get
    .ofExcept (operation disk.tree disk.base)

/-- One operation that changes the tree. -/
def change (operation : Tree → Location → Except IoCause Tree) : Attempt IoCause Disk Unit := do
  let tree ← inspect operation
  modify fun disk => { disk with tree }

def read (path : Path) : Attempt IoCause Disk (List UInt8) := do
  checkPath path
  inspect (·.read · path)

/-- The content of the file at a path, which has to be UTF-8. -/
def readText (path : Path) : Attempt IoCause Disk String := do
  let content ← read path
  .ofExcept ((Text.Utf8.decode content).mapError fun _ => .notText)

/-- Whether there is a directory at a path; if that cannot be found out, there is none. -/
def isDirectory (path : Path) : Attempt IoCause Disk Bool := do
  match ← (checkPath path *> inspect (·.isDirectory · path)).outcome with
  | .ok answer => return answer
  | .error _ => return false

/-- Gives the file at a path new content. A fault may leave the first part of it in the file. -/
def write (path : Path) (content : List UInt8) : Attempt IoCause Disk Unit := do
  checkPath path
  let fault ← tick
  let disk ← get
  match fault with
  | none =>
    let tree ← .ofExcept (disk.tree.write disk.base path content)
    set { disk with tree }
  | some ⟨cause, none⟩ => throw cause
  | some ⟨cause, some landed⟩ =>
    -- the bytes that have landed stay in the file although the write fails
    let tree ← .ofExcept (disk.tree.write disk.base path (content.take landed))
    set { disk with tree }
    throw cause

def makeDirectory (path : Path) : Attempt IoCause Disk Unit := do
  checkPath path
  change (·.makeDirectory · path)

/-- Makes the first of the paths a directory, and before it those after it that are missing. Each
path is the parent of the one before it. -/
def makeDirectories : List Path → Attempt IoCause Disk Unit
  | [] => throw .noEntry
  | path :: parents => do
    if path.text.isEmpty then return
    match ← (makeDirectory path).outcome with
    | .ok () => return
    | .error .noEntry =>
      makeDirectories parents
      match ← (makeDirectory path).outcome with
      | .ok () => return
      | .error cause => if ← isDirectory path then return else throw cause
    | .error cause => if ← isDirectory path then return else throw cause

/-- Makes the path a directory, with all directories above it that are missing. -/
def makeDirectoryTree (path : Path) : Attempt IoCause Disk Unit :=
  makeDirectories path.ancestors

/-- Moves a file to another path in one step, in place of the file that may be there. -/
def rename (source target : Path) : Attempt IoCause Disk Unit := do
  checkPath source
  checkPath target
  change (·.rename · source target)

def remove (path : Path) : Attempt IoCause Disk Unit := do
  checkPath path
  change (·.remove · path)

end Disk

end LauncherOptions
