import LauncherOptions.Machine.Interface

/-! # Classes, references and strings of the machine

Looking up classes, handing back references, and taking strings in and out of the machine. A
reference that is held for a piece of work is handed back when the work ends, whether it fails or
not.
-/

namespace LauncherOptions.Machine

/-- A class by its name. A name that holds the null character cannot be asked for. -/
def findClass? (name : String) : StateM Machine (Option Handle) := do
  if name.toList.contains '\x00' then
    return none
  else
    let type ← Interface.findClass name
    return if type = Handle.null then none else some type

def isExceptionPending : StateM Machine Bool := do
  return (← Interface.exceptionCheck) ≠ answerFalse

/-- Bytes as they are handed to the machine, which takes the first null byte for their end. Bytes
that hold one cannot be handed over. -/
def terminated? (bytes : List UInt8) : Option (List UInt8) :=
  if bytes.contains 0 then none else some bytes

/-- Throws an exception of a class. A number other than zero stands for failure. -/
def throwNew (type : Handle) (message : String) : StateM Machine Int :=
  match terminated? (ModifiedUtf8.encode message) with
  | none => return statusError
  | some bytes => Interface.throwNew type bytes

/-- Hands a reference back, unless it is null. -/
def release (reference : Handle) : StateM Machine Unit :=
  if reference = Handle.null then pure () else Interface.deleteLocalRef reference

/-- Works with a reference and hands it back at the end. -/
def holding {ε α : Type} (reference : Handle) (work : Attempt ε Machine α) : Attempt ε Machine α :=
  work.ensuring (release reference)

def newString (text : String) : Attempt Error Machine Handle := do
  match terminated? (ModifiedUtf8.encode text) with
  | none => throw (.marshal .nullEncoded)
  | some bytes =>
    let string ← Interface.newString bytes
    if string = Handle.null then throw (.marshal (.stringNotMade text)) else return string

/-- The text of a string of the machine; a null reference has none. -/
def readString (string : Handle) : Attempt Error Machine (Option String) := do
  if string = Handle.null then
    return none
  else
    match ← Interface.getStringChars string with
    | none => throw (.marshal .charactersUnavailable)
    | some bytes =>
      Interface.releaseStringChars string
      match ModifiedUtf8.decode bytes with
      | .ok text => return some text
      | .error fault => throw (.marshal (.undecodable fault))

end LauncherOptions.Machine
