import LauncherOptions.Text.Split

/-! # Paths

A path is kept as the text it was given, because messages show that text and the name of the
temporary file is derived from it. Its segments are the parts between slashes. Empty segments and
`.` segments name nothing, apart from a leading `.`, which names the working directory.
-/

namespace LauncherOptions

/-- A path as it was written. -/
structure Path where
  text : String
  deriving DecidableEq, Inhabited

namespace Path

/-- Whether a part of a path names nothing. -/
def isIdle (part : List Char) : Bool :=
  part == [] || part == ['.']

def isAbsolute (path : Path) : Bool :=
  path.text.toList.head? == some '/'

def endsInSlash (path : Path) : Bool :=
  path.text.toList.getLast? == some '/'

/-- The parts of the path that are not empty, `.` and `..` among them. -/
def segments (path : Path) : List String :=
  ((Text.splitAt '/' path.text.toList).filter (· ≠ [])).map String.ofList

/-- What every ancestor of a path keeps: the root's slash, or the `.` of a path that is or starts
with `./`. -/
def anchor (text : List Char) : List Char :=
  match text with
  | '/' :: _ => ['/']
  | ['.'] => ['.']
  | '.' :: '/' :: _ => ['.']
  | _ => []

/-- The parts of a path, last first, without the last one that names something. There is none if
no part does. -/
def dropLastNamed? (reversed : List (List Char)) : Option (List (List Char)) :=
  match reversed.dropWhile isIdle with
  | [] => none
  | _ :: rest => some (rest.dropWhile isIdle)

/-- The path without its last segment, trailing slashes aside. The empty path and the root have no
parent, and a path of one segment has the empty one. -/
def parent? (path : Path) : Option Path :=
  let text := path.text.toList
  let start := anchor text
  match dropLastNamed? (Text.splitAt '/' (text.drop start.length)).reverse with
  | some reversed => some ⟨String.ofList (start ++ Text.joinWith '/' reversed.reverse)⟩
  | none => if start = ['.'] then some ⟨""⟩ else none

/-- The path, its parent, the parent's parent and so on, at most `limit` of them. -/
def ancestorsWithin : Nat → Path → List Path
  | 0, _ => []
  | limit + 1, path =>
    path :: match path.parent? with
      | some parent => ancestorsWithin limit parent
      | none => []

/-- The path and all above it, nearest first. A parent is shorter than its child, so the length of
the text bounds their number. -/
def ancestors (path : Path) : List Path :=
  ancestorsWithin (path.text.length + 1) path

/-- The path of `name` below the directory `path`. -/
def join (path : Path) (name : String) : Path :=
  if path.text.isEmpty || path.endsInSlash then ⟨path.text ++ name⟩
  else ⟨path.text ++ "/" ++ name⟩

/-- The path with `suffix` written right after its text. -/
def withSuffix (path : Path) (suffix : String) : Path :=
  ⟨path.text ++ suffix⟩

example : (parent? ⟨"a//b/./c/"⟩) = some ⟨"a//b"⟩ := by decide

example : (parent? ⟨"dir/"⟩) = some ⟨""⟩ := by decide

example : (parent? ⟨"/x"⟩) = some ⟨"/"⟩ := by decide

example : (ancestors ⟨"./a/b"⟩).map text = ["./a/b", "./a", ".", ""] := by decide

end Path

end LauncherOptions
