import LauncherOptions.OrderedMap
import LauncherOptions.Path

/-! # Files, directories and links

What a name in a directory leads to is a file, a directory with a folder, or a symbolic link. A
folder lists what the names in it lead to. Files have numbers: names with the same number are names
of the same file.
-/

namespace LauncherOptions

/-- What a name leads to. -/
inductive Node
  | file (number : Nat)
  /-- A directory with the names in it and what they lead to. -/
  | directory (entries : List (String × Node))
  /-- A symbolic link to whatever a path leads to. -/
  | link (target : Path)

/-- What the names in a directory lead to. -/
abbrev Folder := List (String × Node)

/-- What a node is, apart from what a directory holds. -/
inductive Kind
  | directory
  | file (number : Nat)
  | link (target : Path)
  deriving DecidableEq

def Kind.isFile : Kind → Bool
  | .file _ => true
  | _ => false

def Node.kind : Node → Kind
  | .file number => .file number
  | .directory _ => .directory
  | .link target => .link target

/-- A node of a kind, a directory being empty. -/
def Kind.node : Kind → Node
  | .directory => .directory []
  | .file number => .file number
  | .link target => .link target

@[simp] theorem Kind.kind_node (kind : Kind) : kind.node.kind = kind := by
  cases kind <;> rfl

namespace Folder

def get? (folder : Folder) (name : String) : Option Node :=
  (folder.find? fun entry => entry.1 = name).map Prod.snd

def put (folder : Folder) (name : String) (node : Node) : Folder :=
  OrderedMap.setEntry name node folder

def erase (folder : Folder) (name : String) : Folder :=
  folder.filter fun entry => entry.1 ≠ name

/-- A node with its folder changed, if it is a directory. -/
def changeNode (change : Folder → Folder) : Node → Node
  | .directory inner => .directory (change inner)
  | node => node

/-- The folder with a change made in the directory that a name leads to. -/
def inside (name : String) (change : Folder → Folder) (folder : Folder) : Folder :=
  folder.map fun entry =>
    if entry.1 = name then (entry.1, changeNode change entry.2) else entry

@[simp] theorem kind_changeNode (change : Folder → Folder) (node : Node) :
    (changeNode change node).kind = node.kind := by
  cases node <;> rfl

theorem get?_cons (entry : String × Node) (rest : Folder) (name : String) :
    get? (entry :: rest) name = if entry.1 = name then some entry.2 else get? rest name := by
  by_cases h : entry.1 = name <;> simp [get?, h]

theorem get?_put (folder : Folder) (name other : String) (node : Node) :
    (folder.put name node).get? other = if other = name then some node else folder.get? other :=
  OrderedMap.find?_setEntry name other node folder

theorem get?_erase (folder : Folder) (name other : String) :
    (folder.erase name).get? other = if other = name then none else folder.get? other :=
  OrderedMap.find?_filter_ne name other folder

/-- A change inside a directory is seen under its name and under no other. -/
theorem get?_inside (folder : Folder) (name other : String) (change : Folder → Folder) :
    (folder.inside name change).get? other =
      if other = name then (folder.get? other).map (changeNode change) else folder.get? other := by
  induction folder with
  | nil => simp [inside, get?]
  | cons entry rest ih =>
      simp only [inside] at ih
      by_cases hentry : entry.1 = name
      · by_cases hother : name = other
        · simp [inside, get?_cons, hentry, hother]
        · simp [inside, get?_cons, hentry, hother, ih]
      · by_cases hother : entry.1 = other
        · simp [inside, get?_cons, hother, show ¬other = name from hother ▸ hentry]
        · simp [inside, get?_cons, hentry, hother, ih]

end Folder

mutual

/-- A number that is greater than that of every file at or below a node. -/
def Node.bound : Node → Nat
  | .file number => number + 1
  | .directory entries => Folder.bound entries
  | .link _ => 0

/-- A number that is greater than that of every file in or below a folder. -/
def Folder.bound : List (String × Node) → Nat
  | [] => 0
  | (_, node) :: rest => max (Node.bound node) (Folder.bound rest)

end

theorem Folder.bound_le_of_get? {folder : Folder} {name : String} {node : Node}
    (h : folder.get? name = some node) : node.bound ≤ Folder.bound folder := by
  induction folder with
  | nil => cases h
  | cons entry rest ih =>
      rw [get?_cons] at h
      rw [bound]
      split at h
      · cases h
        exact Nat.le_max_left _ _
      · exact Nat.le_trans (ih h) (Nat.le_max_right _ _)

mutual

/-- The node at a path and all below it: the paths, those of directories with a slash at the end,
and what `content` says that files hold. -/
def Node.listing (content : Nat → List UInt8) (path : String) :
    Node → List (String × Option (List UInt8))
  | .file number => [(path, some (content number))]
  | .directory entries =>
    (path ++ "/", none) :: Folder.listing content (path ++ "/") entries
  | .link _ => [(path, none)]

/-- All that is in a folder, each path after the given text. -/
def Folder.listing (content : Nat → List UInt8) (above : String) :
    List (String × Node) → List (String × Option (List UInt8))
  | [] => []
  | (name, node) :: rest =>
    Node.listing content (above ++ name) node ++ Folder.listing content above rest

end

end LauncherOptions
