import LauncherOptions.Program.Exceptions
import LauncherOptions.Program.Service

/-! # The natives

Managed code reaches the option store through five native methods. Each takes its arguments out of
the virtual machine, asks a bridge, and brings the answer back in. The bridge is that of the service
of the program. Whatever goes wrong becomes a pending exception, and the native then returns
nothing.
-/

namespace LauncherOptions

inductive Native
  | defaultValue
  | defaultKeys
  | value
  | setKeysAndValues
  | keys
  deriving DecidableEq

namespace Native

def className : String := "jdk/packager/services/userjvmoptions/LauncherUserJvmOptions"

def name : Native → String
  | .defaultValue => "_getUserJvmOptionDefaultValue"
  | .defaultKeys => "_getUserJvmOptionDefaultKeys"
  | .value => "_getUserJvmOptionValue"
  | .setKeysAndValues => "_setUserJvmKeysAndValues"
  | .keys => "_getUserJvmOptionKeys"

def signature : Native → String
  | .defaultValue => "(Ljava/lang/String;)Ljava/lang/String;"
  | .defaultKeys => "()[Ljava/lang/String;"
  | .value => "(Ljava/lang/String;)Ljava/lang/String;"
  | .setKeysAndValues => "([Ljava/lang/String;[Ljava/lang/String;)V"
  | .keys => "()[Ljava/lang/String;"

/-- All natives, in the order in which they are bound. -/
def all : List Native :=
  [.defaultValue, .defaultKeys, .value, .setKeysAndValues, .keys]

def method (native : Native) : Method :=
  ⟨native.name, native.signature⟩

def register : Attempt Error Machine Unit := do
  match ← Machine.findClass? className with
  | none => throw (.setup (.classMissing className))
  | some type =>
    Machine.holding type do
      let code ← Interface.registerNatives type (all.map method)
      if code ≠ Machine.statusOk then throw (.setup (.registrationFailed code))

/-! ## Marshaling -/

/-- An attempt on the virtual machine, as part of a native. -/
def onMachine {α : Type} (attempt : Attempt Error Machine α) : Attempt Stop Program α :=
  (attempt.within Program.machinePart).mapError .failed

/-- The key that a native is given. -/
def readKey (key : Handle) : Attempt Error Machine String := do
  match ← Machine.readString key with
  | some text => return text
  | none => throw (.invalidArgument .nullKey)

/-- A string for an answer, the null reference for none. -/
def optionalString : Option String → Attempt Error Machine Handle
  | some text => Machine.newString text
  | none => pure Handle.null

/-- The keys of an array, which must not hold null; the first of them has the given index. -/
def requireKeys (index : Nat) : List (Option String) → Except Error (List String)
  | [] => .ok []
  | none :: _ => .error (.invalidArgument (.nullKeyAt index))
  | some key :: rest => (requireKeys (index + 1) rest).map (key :: ·)

/-- The value that is answered for a key. -/
def giveValue (question : String → Question (Option String)) (key : Handle) :
    Attempt Stop Program Handle := do
  let key ← onMachine (readKey key)
  let value ← (question key).val
  onMachine (optionalString value)

/-- The keys that are answered, as an array. -/
def giveKeys (question : Question (List String)) : Attempt Stop Program Handle := do
  let keys ← question.val
  onMachine (Machine.newStringArray keys)

def getDefaultValue (bridge : Bridge) (key : Handle) : Attempt Stop Program Handle :=
  giveValue bridge.defaultValue? key

def getDefaultKeys (bridge : Bridge) : Attempt Stop Program Handle :=
  giveKeys bridge.defaultKeys

def getCurrentValue (bridge : Bridge) (key : Handle) : Attempt Stop Program Handle :=
  giveValue bridge.currentValue? key

def getCurrentKeys (bridge : Bridge) : Attempt Stop Program Handle :=
  giveKeys bridge.currentKeys

/-- Sets the keys of one array to the values of another. A null value is the empty one; null arrays
and null keys are refused. The bridge is asked only after both arrays have been read. -/
def setOptions (bridge : Bridge) (keys values : Handle) : Attempt Stop Program Unit := do
  let keys ← onMachine (Machine.readStringArray keys)
  let values ← onMachine (Machine.readStringArray values)
  if keys.length ≠ values.length then
    throw (.failed (.lengthMismatch keys.length values.length))
  else
    let keys ← Attempt.ofExcept ((requireKeys 0 keys).mapError .failed)
    (bridge.setKeysAndValues keys (values.map (·.getD ""))).val

/-! ## Calls from managed code -/

/-- What is reported when a native stops before its end. -/
def report (native : Native) : Stop → Error
  | .failed error => error
  | .aborted => .setup (.aborted native.name)

/-- A native's own work: it finds the service of the program and puts it to use. -/
def attempt {α : Type} (operation : Service → Attempt Stop Program α) :
    Attempt Stop Program α := do
  let service ← Program.service.mapError Stop.failed
  operation service

/-- Makes what stopped a native known: as a log record and as a pending exception. -/
def surface (native : Native) (stop : Stop) : StateM Program Unit := do
  let error := native.report stop
  let severity := if error.isInvalidArgument then Severity.warn else Severity.error
  Program.note severity s!"{native.name}: {error.message}"
  Program.raiseError error

/-- Runs a native with the service of the program. If it stops before its end, an exception is
pending afterwards and `fallback` is returned. -/
def run {α : Type} (native : Native) (fallback : α)
    (operation : Service → Attempt Stop Program α) : StateM Program α := do
  Program.note .debug native.name
  let (result, after) := attempt operation (← get)
  set after
  match result with
  | .ok answer => return answer
  | .error stop =>
    native.surface stop
    return fallback

inductive Request
  | defaultValue (key : Handle)
  | defaultKeys
  | value (key : Handle)
  | setKeysAndValues (keys values : Handle)
  | keys

/-- The native that a request is for. -/
def Request.native : Request → Native
  | .defaultValue _ => .defaultValue
  | .defaultKeys => .defaultKeys
  | .value _ => .value
  | .setKeysAndValues _ _ => .setKeysAndValues
  | .keys => .keys

/-- The work of the native of a request. A native without a result gives the null reference. -/
def perform (bridge : Bridge) : Request → Attempt Stop Program Handle
  | .defaultValue key => getDefaultValue bridge key
  | .defaultKeys => getDefaultKeys bridge
  | .value key => getCurrentValue bridge key
  | .setKeysAndValues keyArray valueArray => do
    setOptions bridge keyArray valueArray
    return Handle.null
  | .keys => getCurrentKeys bridge

/-- Answers a call from managed code with whatever bridges stand for the services. -/
def respond (bridges : Service → Bridge) (request : Request) : StateM Program Handle :=
  run request.native Handle.null fun service => perform (bridges service) request

/-- Answers a call from managed code. -/
def answer (request : Request) : StateM Program Handle :=
  respond Service.bridge request

end Native

end LauncherOptions
