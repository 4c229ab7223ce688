import LauncherOptions.ModifiedUtf8.Decode
import LauncherOptions.Path
import LauncherOptions.Text.Quoted

/-! # Errors

Everything that can go wrong is a cause, and its wording is given in one place. Errors of the
caller's making (a bad argument, key and value lists of different length) are told apart from all
others, because they surface as a different exception.
-/

namespace LauncherOptions

inductive ArgumentFault
  | emptyKey
  /-- Blanks before or after the key. -/
  | paddedKey (key : String)
  /-- An equals sign or a line break inside the key. -/
  | brokenKey (key : String)
  /-- A key that would be taken for a section header or a comment. -/
  | delimiterKey (key : String)
  /-- A line break inside the value for a key. -/
  | brokenValue (key : String)
  | nullKey
  | nullKeyAt (index : Nat)
  | nullArray
  | stated (text : String)
  deriving DecidableEq

/-- Why a string could not cross the boundary of the virtual machine. -/
inductive MarshalFault
  | undecodable (fault : ModifiedUtf8.Fault)
  /-- A null byte in the encoded form of a text. -/
  | nullEncoded
  | stringNotMade (text : String)
  | charactersUnavailable
  | elementUnreadable (index : Nat)
  | classMissing (name : String)
  /-- More elements than an array can have. -/
  | tooManyElements (count : Nat)
  | arrayNotMade (length : Nat)
  | stated (text : String)
  deriving DecidableEq

inductive IoCause
  | noEntry
  | permissionDenied
  | busy
  | alreadyExists
  | notDirectory
  | isDirectory
  | noSpace
  | nameTooLong
  /-- Symbolic links that lead round in a circle, or too many of them. -/
  | tooManyLinks
  /-- The file's content is not text. -/
  | notText
  /-- The path holds the null character. -/
  | nulInPath
  deriving DecidableEq

inductive LineFault
  /-- The line, without the blanks around it, begins like a section header but is none. -/
  | malformedHeader (line : String)
  | emptyKey
  | stated (text : String)
  deriving DecidableEq

/-- Why the launcher's set-up does not work. -/
inductive SetupFault
  | variableUnset (name : String)
  | classMissing (name : String)
  | registrationFailed (code : Int)
  /-- A native gave up without an error of its own. -/
  | aborted (native : String)
  | stated (text : String)
  deriving DecidableEq

/-- What an operation can fail with. -/
inductive Error
  | invalidArgument (fault : ArgumentFault)
  | lengthMismatch (keys values : Nat)
  | marshal (fault : MarshalFault)
  | io (path : Path) (cause : IoCause)
  | parse (path : Path) (line : Nat) (fault : LineFault)
  | setup (fault : SetupFault)
  | alreadyInstalled
  deriving DecidableEq

def ArgumentFault.message : ArgumentFault → String
  | .emptyKey => "option key is empty"
  | .paddedKey key => s!"option key {Text.quoted key} has surrounding whitespace"
  | .brokenKey key => s!"option key {Text.quoted key} contains '=' or a line break"
  | .delimiterKey key => s!"option key {Text.quoted key} starts with a config-file delimiter"
  | .brokenValue key => s!"value for option {Text.quoted key} contains a line break"
  | .nullKey => "option key is null"
  | .nullKeyAt index => s!"option key at index {index} is null"
  | .nullArray => "array is null"
  | .stated text => text

def MarshalFault.message : MarshalFault → String
  | .undecodable fault => fault.message
  | .nullEncoded => "encoded string contains NUL"
  | .stringNotMade text => s!"NewStringUTF failed for {Text.quoted text}"
  | .charactersUnavailable => "GetStringUTFChars failed"
  | .elementUnreadable index => s!"reading array element {index} failed"
  | .classMissing name => s!"class {name} not found"
  | .tooManyElements count => s!"{count} elements do not fit a Java array"
  | .arrayNotMade length => s!"NewObjectArray({length}) failed"
  | .stated text => text

def IoCause.message : IoCause → String
  | .noEntry => "No such file or directory (os error 2)"
  | .permissionDenied => "Permission denied (os error 13)"
  | .busy => "Device or resource busy (os error 16)"
  | .alreadyExists => "File exists (os error 17)"
  | .notDirectory => "Not a directory (os error 20)"
  | .isDirectory => "Is a directory (os error 21)"
  | .noSpace => "No space left on device (os error 28)"
  | .nameTooLong => "File name too long (os error 36)"
  | .tooManyLinks => "Too many levels of symbolic links (os error 40)"
  | .notText => "stream did not contain valid UTF-8"
  | .nulInPath => "file name contained an unexpected NUL byte"

def LineFault.message : LineFault → String
  | .malformedHeader line => s!"malformed section header {Text.quoted line}"
  | .emptyKey => "entry has an empty key"
  | .stated text => text

def SetupFault.message : SetupFault → String
  | .variableUnset name => s!"{name} is not set"
  | .classMissing name => s!"class {name} not found"
  | .registrationFailed code => s!"RegisterNatives failed with {code}"
  | .aborted native => s!"{native} panicked"
  | .stated text => text

namespace Error

def message : Error → String
  | .invalidArgument fault => s!"invalid argument: {fault.message}"
  | .lengthMismatch keys values =>
    s!"keys and values differ in length ({keys} keys, {values} values)"
  | .marshal fault => s!"string marshaling failed: {fault.message}"
  | .io path cause => s!"{path.text}: {cause.message}"
  | .parse path line fault => s!"{path.text}:{line}: {fault.message}"
  | .setup fault => s!"configuration error: {fault.message}"
  | .alreadyInstalled => "an option bridge is already installed"

/-- Whether the caller's arguments are to blame, rather than the surroundings. -/
def isInvalidArgument : Error → Bool
  | .invalidArgument _ => true
  | .lengthMismatch _ _ => true
  | _ => false

end Error

end LauncherOptions
