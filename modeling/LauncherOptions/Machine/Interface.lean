import LauncherOptions.Machine.Basic

/-! # The machine's function table

The functions that native code may call. Each call is recorded with its result. A call that the
machine's plan lets fail has no effect and returns the null reference or a number that stands for
failure; deleting and releasing cannot fail.
-/

namespace LauncherOptions.Interface

open Machine

/-- One call of a function: it fails as the plan says, or else does its work, and is recorded with
its result. -/
def call {α : Type} (function : Function) (failed : Failure → α) (work : StateM Machine α)
    (entry : α → Call) : StateM Machine α := do
  let whilePending := (← get).pending.isSome
  let result ← match ← planned function with
    | some failure => pure (failed failure)
    | none => work
  record (entry result) whilePending
  return result

/-- One call of a function that cannot fail and only gives something back. -/
def giveBack (entry : Call) : StateM Machine Unit := do
  record entry (← get).pending.isSome

def findClass (name : String) : StateM Machine Handle :=
  call .findClass (fun _ => Handle.null) (allocate (.type name)) (.findClass name)

def className (machine : Machine) (type : Handle) : String :=
  match machine.object? type with
  | some (.type name) => name
  | _ => "<not a class>"

/-- Makes an exception of a class pending, in place of the one that may be. -/
def setPending (type : Handle) (message : List UInt8) : StateM Machine Int := do
  modify fun machine => { machine with pending := some ⟨className machine type, message⟩ }
  return statusOk

def throwNew (type : Handle) (message : List UInt8) : StateM Machine Int :=
  call .throwNew (·.code.getD statusError) (setPending type message) (.throwNew type message)

/-- Gives a reference back. The object stays. -/
def deleteLocalRef (reference : Handle) : StateM Machine Unit :=
  giveBack (.deleteLocalRef reference)

def newString (bytes : List UInt8) : StateM Machine Handle :=
  call .newString (fun _ => Handle.null) (allocate (.text bytes)) (.newString bytes)

/-- The bytes of a string up to the first that is zero. -/
def stringChars? (machine : Machine) (string : Handle) : Option (List UInt8) :=
  match machine.object? string with
  | some (.text bytes) => some (bytes.takeWhile (· ≠ 0))
  | _ => none

/-- Takes the bytes of a string out of the machine. -/
def getStringChars (string : Handle) : StateM Machine (Option (List UInt8)) :=
  call .getStringChars (fun _ => none) (return stringChars? (← get) string)
    fun result => .getStringChars string result.isSome

def releaseStringChars (string : Handle) : StateM Machine Unit :=
  giveBack (.releaseStringChars string)

/-- The number of items of an array, zero for anything else. -/
def arrayLength (machine : Machine) (array : Handle) : Int :=
  match machine.object? array with
  | some (.array items) => items.size
  | _ => 0

def getArrayLength (array : Handle) : StateM Machine Int :=
  call .getArrayLength (·.code.getD statusError) (return arrayLength (← get) array)
    (.getArrayLength array)

/-- Makes an array filled with one reference; a negative length raises an exception. -/
def allocateArray (length : Int) (initial : Handle) : StateM Machine Handle := do
  if length < 0 then
    raise "java/lang/NegativeArraySizeException" (toString length)
    return Handle.null
  else
    allocate (.array (Array.replicate length.toNat initial))

/-- A new array of the given length, filled with one reference. -/
def newObjectArray (length : Int) (type initial : Handle) : StateM Machine Handle :=
  call .newObjectArray (fun _ => Handle.null) (allocateArray length initial)
    (.newObjectArray length type initial)

/-- The items of an array and a position in it, if it has the position. -/
def position? (machine : Machine) (array : Handle) (index : Int) : Option (Array Handle × Nat) :=
  match machine.object? array with
  | some (.array items) =>
    if 0 ≤ index ∧ index < items.size then some (items, index.toNat) else none
  | _ => none

/-- The exception for a position that an array does not have. -/
def raiseOutOfBounds (index : Int) : StateM Machine Unit :=
  raise "java/lang/ArrayIndexOutOfBoundsException" (toString index)

/-- Looks up the reference at a position; one that the array does not have raises an exception. -/
def loadItem (array : Handle) (index : Int) : StateM Machine Handle := do
  match position? (← get) array index with
  | some (items, position) => return items.getD position Handle.null
  | none =>
    raiseOutOfBounds index
    return Handle.null

def getElement (array : Handle) (index : Int) : StateM Machine Handle :=
  call .getElement (fun _ => Handle.null) (loadItem array index) (.getElement array index)

def setItems (machine : Machine) (array : Handle) (items : Array Handle) : Machine :=
  { machine with objects := machine.objects.setIfInBounds (array - 1) (.array items) }

/-- Puts a reference at a position; one that the array does not have raises an exception. -/
def storeItem (array : Handle) (index : Int) (value : Handle) : StateM Machine Unit := do
  let machine ← get
  match position? machine array index with
  | some (items, position) => set (setItems machine array (items.setIfInBounds position value))
  | none => raiseOutOfBounds index

def setElement (array : Handle) (index : Int) (value : Handle) : StateM Machine Unit :=
  call .setElement (fun _ => ()) (storeItem array index value)
    fun _ => .setElement array index value

def registerNatives (type : Handle) (methods : List Method) : StateM Machine Int :=
  call .registerNatives (·.code.getD statusError) (pure statusOk)
    (.registerNatives type methods)

/-- Whether an exception is pending, as a byte: zero if none is. -/
def exceptionCheck : StateM Machine Nat :=
  call .exceptionCheck (fun failure => ((failure.code.getD 1) % 256).toNat)
    (return if (← get).pending.isSome then answerTrue else answerFalse) .exceptionCheck

end LauncherOptions.Interface
