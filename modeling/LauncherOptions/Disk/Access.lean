import LauncherOptions.Disk.Walk

/-! # What can be done with a directory tree

Reading, writing, moving and removing files and making directories, each by its path. Reading and
writing go to the file that a link leads to; the other operations are done to the link itself. An
operation that fails says why and leaves the tree as it is.
-/

namespace LauncherOptions.Tree

/-- What a name in a folder leads to. -/
def lookup (tree : Tree) (folder : Location) (name : String) : Except IoCause (Option Kind) :=
  if maxNameSize < name.utf8ByteSize then .error .nameTooLong
  else .ok (tree.kind? (name :: folder))

/-- The content of the file where a path ends. -/
def contentAt (tree : Tree) : Spot → Except IoCause (List UInt8)
  | .directory _ => .error .isDirectory
  | .child folder name slash => do
    match ← tree.lookup folder name with
    | none => throw .noEntry
    | some .directory => throw .isDirectory
    | some (.file number) => if slash then throw .notDirectory else return tree.content number
    -- a path that is followed through links does not end at one
    | some (.link _) => throw .tooManyLinks

def read (tree : Tree) (base : Location) (path : Path) : Except IoCause (List UInt8) :=
  tree.locate true base path >>= tree.contentAt

def isDirectory (tree : Tree) (base : Location) (path : Path) : Except IoCause Bool := do
  match ← tree.locate true base path with
  | .directory _ => return true
  | .child folder name _ => return (← tree.lookup folder name) = some .directory

/-- Gives the file at a path new content, and makes the file if it is missing. -/
def write (tree : Tree) (base : Location) (path : Path) (content : List UInt8) :
    Except IoCause Tree := do
  match ← tree.locate true base path with
  | .directory _ => throw .isDirectory
  | .child folder name slash =>
    match ← tree.lookup folder name with
    | some .directory => throw .isDirectory
    | some (.link _) => throw .tooManyLinks
    | some (.file number) =>
      if slash then throw .isDirectory else return tree.store number content
    | none => if slash then throw .isDirectory else return tree.create folder name content

/-- Makes one directory in a directory that exists. -/
def makeDirectory (tree : Tree) (base : Location) (path : Path) : Except IoCause Tree := do
  match ← tree.locate false base path with
  | .directory _ => throw .alreadyExists
  | .child folder name _ =>
    match ← tree.lookup folder name with
    | some _ => throw .alreadyExists
    | none => return tree.put folder name (.directory [])

/-- Moves a file or link to another path, in place of the file or link that may be there. -/
def rename (tree : Tree) (base : Location) (source target : Path) : Except IoCause Tree := do
  let origin ← tree.locate false base source
  let destination ← tree.locate false base target
  match origin, destination with
  | .child folder name slash, .child targetFolder targetName targetSlash =>
    match ← tree.lookup folder name with
    | none => throw .noEntry
    | some .directory => throw .isDirectory
    | some kind =>
      let present ← tree.lookup targetFolder targetName
      if slash || targetSlash then throw .notDirectory
      else if present = some .directory then throw .isDirectory
      -- between two names of one file there is nothing to move
      else if kind.isFile ∧ present = some kind then return tree
      else return (tree.erase folder name).put targetFolder targetName kind.node
  | _, _ => throw .busy

def remove (tree : Tree) (base : Location) (path : Path) : Except IoCause Tree := do
  match ← tree.locate false base path with
  | .directory _ => throw .isDirectory
  | .child folder name slash =>
    match ← tree.lookup folder name with
    | none => throw .noEntry
    | some .directory => throw .isDirectory
    | some _ => if slash then throw .notDirectory else return tree.erase folder name

end LauncherOptions.Tree
