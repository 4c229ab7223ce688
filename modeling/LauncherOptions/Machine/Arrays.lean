import LauncherOptions.Machine.Strings

/-! # Arrays of strings of the machine

Reading and making arrays of strings. The reference to an element is handed back before the next
element is looked at.
-/

namespace LauncherOptions.Machine

def readElement (array : Handle) (index : Nat) : Attempt Error Machine (Option String) := do
  let element ← Interface.getElement array index
  holding element do
    if ← isExceptionPending then
      throw (.marshal (.elementUnreadable index))
    else
      readString element

/-- The texts of `count` elements of an array from `index` on. -/
def readElements (array : Handle) (index : Nat) :
    Nat → Attempt Error Machine (List (Option String))
  | 0 => pure []
  | count + 1 => do
    let text ← readElement array index
    let rest ← readElements array (index + 1) count
    return text :: rest

def readStringArray (array : Handle) : Attempt Error Machine (List (Option String)) := do
  if array = Handle.null then
    throw (.invalidArgument .nullArray)
  else
    let length ← Interface.getArrayLength array
    readElements array 0 length.toNat

/-- Stores new strings in an array from `index` on. -/
def fillArray (array : Handle) (index : Nat) : List String → Attempt Error Machine Unit
  | [] => pure ()
  | text :: rest => do
    let string ← newString text
    holding string (Interface.setElement array index string)
    fillArray array (index + 1) rest

/-- A new array of new strings. The machine is not asked for one that no array can hold. -/
def newStringArray (texts : List String) : Attempt Error Machine Handle := do
  if maxArrayLength < texts.length then
    throw (.marshal (.tooManyElements texts.length))
  else
    match ← findClass? stringClass with
    | none => throw (.marshal (.classMissing stringClass))
    | some type =>
      holding type do
        let array ← Interface.newObjectArray texts.length type Handle.null
        if array = Handle.null then
          throw (.marshal (.arrayNotMade texts.length))
        else
          fillArray array 0 texts
          return array

theorem newStringArray_of_tooMany {texts : List String} (h : maxArrayLength < texts.length) :
    newStringArray texts = throw (.marshal (.tooManyElements texts.length)) :=
  if_pos h

end LauncherOptions.Machine
