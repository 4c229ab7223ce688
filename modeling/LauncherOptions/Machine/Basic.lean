import LauncherOptions.Attempt
import LauncherOptions.Error
import LauncherOptions.ModifiedUtf8.Encode
import LauncherOptions.OrderedMap

/-! # The virtual machine as native code sees it

Native code works on the virtual machine through references to its objects and a table of
functions. The machine keeps the objects that were made, the exception that is pending, every call
of a function with its result, and a plan of the calls that fail. References are numbered in the
order in which objects are made and are never used again; zero is the null reference.
-/

namespace LauncherOptions

/-- A reference to an object of the machine. -/
abbrev Handle := Nat

def Handle.null : Handle := 0

inductive Object
  | text (bytes : List UInt8)
  | type (name : String)
  | array (items : Array Handle)
  deriving DecidableEq

/-- An exception: the name of its class and its message in modified UTF-8. -/
structure Exception where
  className : String
  message : List UInt8
  deriving DecidableEq

/-- A native method: its name and its signature. -/
structure Method where
  name : String
  signature : String
  deriving DecidableEq

/-- The functions that native code calls. -/
inductive Function
  | findClass
  | throwNew
  | deleteLocalRef
  | newString
  | getStringChars
  | releaseStringChars
  | getArrayLength
  | newObjectArray
  | getElement
  | setElement
  | registerNatives
  | exceptionCheck
  deriving DecidableEq

def Function.name : Function → String
  | .findClass => "FindClass"
  | .throwNew => "ThrowNew"
  | .deleteLocalRef => "DeleteLocalRef"
  | .newString => "NewStringUTF"
  | .getStringChars => "GetStringUTFChars"
  | .releaseStringChars => "ReleaseStringUTFChars"
  | .getArrayLength => "GetArrayLength"
  | .newObjectArray => "NewObjectArray"
  | .getElement => "GetObjectArrayElement"
  | .setElement => "SetObjectArrayElement"
  | .registerNatives => "RegisterNatives"
  | .exceptionCheck => "ExceptionCheck"

/-- A call of a function, with its arguments and its result. -/
inductive Call
  | findClass (name : String) (result : Handle)
  | throwNew (type : Handle) (message : List UInt8) (code : Int)
  | deleteLocalRef (reference : Handle)
  | newString (bytes : List UInt8) (result : Handle)
  | getStringChars (string : Handle) (available : Bool)
  | releaseStringChars (string : Handle)
  | getArrayLength (array : Handle) (length : Int)
  | newObjectArray (length : Int) (type initial result : Handle)
  | getElement (array : Handle) (index : Int) (result : Handle)
  | setElement (array : Handle) (index : Int) (value : Handle)
  | registerNatives (type : Handle) (methods : List Method) (code : Int)
  | exceptionCheck (result : Nat)
  deriving DecidableEq

def Call.function : Call → Function
  | .findClass .. => .findClass
  | .throwNew .. => .throwNew
  | .deleteLocalRef .. => .deleteLocalRef
  | .newString .. => .newString
  | .getStringChars .. => .getStringChars
  | .releaseStringChars .. => .releaseStringChars
  | .getArrayLength .. => .getArrayLength
  | .newObjectArray .. => .newObjectArray
  | .getElement .. => .getElement
  | .setElement .. => .setElement
  | .registerNatives .. => .registerNatives
  | .exceptionCheck .. => .exceptionCheck

/-- A call as the machine keeps it. -/
structure CallRecord where
  call : Call
  /-- Whether an exception was pending when the call was made. -/
  whilePending : Bool
  deriving DecidableEq

structure Failure where
  /-- Whether an exception is pending after the failure. -/
  raises : Bool := false
  /-- The number that the call returns, if it returns a number. -/
  code : Option Int := none
  deriving DecidableEq

structure Machine where
  /-- The objects, in the order in which they were made. -/
  objects : Array Object := #[]
  pending : Option Exception := none
  /-- The calls so far, oldest first. -/
  calls : Array CallRecord := #[]
  tally : OrderedMap Function Nat := .empty
  /-- How the call of a function with a given number fails, if it does. Calls are counted from one
  for each function. -/
  failures : Function → Nat → Option Failure := fun _ _ => none

namespace Machine

/-- What succeeds returns this number. -/
def statusOk : Int := 0

/-- What fails returns this number, if nothing else is said. -/
def statusError : Int := -1

def answerTrue : Nat := 1

def answerFalse : Nat := 0

/-- The greatest length of an array: it is counted in signed numbers of 32 bits. -/
def maxArrayLength : Nat := 2147483647

/-- The version of the function table that the natives are written for. -/
def interfaceVersion : Int := 0x00010008

def stringClass : String := "java/lang/String"

/-- The class of exceptions for which the caller's arguments are to blame. -/
def illegalArgumentClass : String := "java/lang/IllegalArgumentException"

/-- The class of all other exceptions that natives raise. -/
def illegalStateClass : String := "java/lang/IllegalStateException"

def object? (machine : Machine) : Handle → Option Object
  | 0 => none
  | position + 1 => machine.objects[position]?

def count (machine : Machine) (function : Function) : Nat :=
  (machine.tally.get? function).getD 0

def allocate (object : Object) : StateM Machine Handle :=
  modifyGet fun machine =>
    (machine.objects.size + 1, { machine with objects := machine.objects.push object })

/-- Adds a call to those that were made. -/
def record (call : Call) (whilePending : Bool) : StateM Machine Unit :=
  modify fun machine =>
    let number := machine.count call.function + 1
    { machine with
      calls := machine.calls.push ⟨call, whilePending⟩
      tally := machine.tally.insert call.function number }

/-- Makes an exception pending, in place of the one that may be. -/
def raise (className : String) (message : String) : StateM Machine Unit :=
  modify fun machine =>
    { machine with pending := some ⟨className, ModifiedUtf8.encode message⟩ }

/-- The failure that the next call of a function meets, if any. If it raises an exception, the
exception is pending from now on. -/
def planned (function : Function) : StateM Machine (Option Failure) := do
  let machine ← get
  match machine.failures function (machine.count function + 1) with
  | none => return none
  | some failure =>
    if failure.raises then
      raise "java/lang/RuntimeException" s!"injected {function.name}"
    return some failure

end Machine

end LauncherOptions
