import LauncherOptions.Program.Basic

/-! # Errors as exceptions

Managed code learns of an error through a pending exception. The class of the exception tells
errors of the caller's making from all others, and its message is the wording of the error. An
exception that is pending already is left alone.
-/

namespace LauncherOptions.Program

/-- Throws an error as an exception, unless one is pending. -/
def raiseError (error : Error) : StateM Program Unit := do
  if ← onMachine Machine.isExceptionPending then
    return
  else
    let className :=
      if error.isInvalidArgument then Machine.illegalArgumentClass else Machine.illegalStateClass
    match ← onMachine (Machine.findClass? className) with
    | none => note .error s!"cannot resolve {className} to report: {error.message}"
    | some type =>
      let code ← onMachine (Machine.throwNew type error.message)
      if code ≠ Machine.statusOk then
        note .error s!"ThrowNew failed for {className}: {error.message}"
      onMachine (Machine.release type)

end LauncherOptions.Program
