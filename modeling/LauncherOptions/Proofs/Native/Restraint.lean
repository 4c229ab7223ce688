import LauncherOptions.Proofs.Machine.Pending
import LauncherOptions.Proofs.Native.Surfacing

/-! # Natives and pending exceptions

Most functions of the machine must not be called while an exception is pending. A native stops at
the first call that leaves one, hands back what it holds, and raises no exception on top of the one
that is there. Main statement: from the moment on in which an exception is pending, natives only ask
whether there is one and give things back, whatever they are given, whatever answers them and
whatever fails in the machine (`calls_restrained`).
-/

namespace LauncherOptions

open Machine

namespace Program

/-- An error is raised only if no exception is pending, and then with as few calls as it takes. -/
theorem raiseError_restrained (error : Error) {program : Program}
    (h : program.machine.Orderly) :
    Restrained program.machine (raiseError error program).2.machine := by
  obtain ⟨hchecked, halike, hanswer⟩ := Interface.exceptionCheck_of_orderly h
  by_cases hcheck : program.checked.1 = answerFalse
  case neg =>
    rw [raiseError_of_reported hcheck]
    exact hchecked
  have hclear : program.checked.2.Clear := Clear.of_alike halike (hanswer.mp hcheck)
  have hsought : Restrained program.machine (program.sought error).2 :=
    hchecked.trans (Interface.restrained_findClass hclear error.exceptionClass)
  by_cases hfind : (program.sought error).1 = Handle.null
  case pos =>
    obtain ⟨text, heq⟩ := raiseError_of_unresolved hcheck hfind
    rw [heq]
    exact hsought
  have hfound : (program.sought error).2.Clear := Interface.clear_findClass hclear hfind
  have hthrown : Restrained program.machine (program.thrown error).2 :=
    hsought.trans (Interface.restrained_throwNew hfound _ _)
  have hreleased := hthrown.trans (restrained_release (program.sought error).1 _)
  by_cases hthrow : (program.thrown error).1 = statusOk
  · rw [raiseError_of_thrown hcheck hfind hthrow]
    exact hreleased
  · obtain ⟨text, heq⟩ := raiseError_of_unthrown hcheck hfind hthrow
    rw [heq]
    exact hreleased

end Program

namespace Native

open Attempt

/-! ## Marshaling -/

theorem heeds_onMachine {α : Type} {pre : Machine → Prop} {post : α → Machine → Prop}
    {attempt : Attempt Error Machine α} (h : Heeds id pre attempt post) :
    Heeds Program.machine pre (onMachine attempt) post := by
  have hwithin : Heeds Program.machine pre (attempt.within Program.machinePart) post :=
    fun program => h program.machine
  exact hwithin.mapError Stop.failed

theorem heeds_question {α : Type} (question : Question α) :
    Heeds Program.machine Clear question.val fun _ => Clear :=
  heeds_of_view question.property fun _ _ h => h

theorem heeds_readKey (key : Handle) : Heeds id Clear (readKey key) fun _ => Clear := by
  apply (heeds_readString key).bind
  intro text
  cases text with
  | none => exact heeds_throw _
  | some text => exact heeds_pure fun _ h => h

theorem heeds_optionalString (value : Option String) :
    Heeds id Clear (optionalString value) fun _ => Clear := by
  cases value with
  | none => exact heeds_pure fun _ h => h
  | some text =>
      exact heeds_newString text (fun _ h => h) fun _ _ h halike => Clear.of_alike halike h

/-- A native that asks for the value of a key. -/
theorem heeds_giveValue (question : String → Question (Option String)) (key : Handle) :
    Heeds Program.machine Clear (giveValue question key) fun _ => Clear := by
  apply (heeds_onMachine (heeds_readKey key)).bind
  intro name
  apply (heeds_question (question name)).bind
  intro value
  exact heeds_onMachine (heeds_optionalString value)

/-- A native that lists keys. -/
theorem heeds_giveKeys (question : Question (List String)) :
    Heeds Program.machine Clear (giveKeys question) fun _ => Clear := by
  apply (heeds_question question).bind
  intro keys
  exact heeds_onMachine (heeds_newStringArray keys)

theorem heeds_setOptions (bridge : Bridge) (keyArray valueArray : Handle) :
    Heeds Program.machine Clear (setOptions bridge keyArray valueArray) fun _ => Clear := by
  apply (heeds_onMachine (heeds_readStringArray keyArray)).bind
  intro keys
  apply (heeds_onMachine (heeds_readStringArray valueArray)).bind
  intro values
  split
  · exact heeds_throw _
  · have hkeys : Heeds Program.machine Clear
        (Attempt.ofExcept ((requireKeys 0 keys).mapError Stop.failed)) fun _ => Clear :=
      heeds_of_view (fun _ => rfl) fun _ _ h => h
    apply hkeys.bind
    intro names
    exact heeds_question _

theorem heeds_perform (bridge : Bridge) (request : Request) :
    Heeds Program.machine Clear (perform bridge request) fun _ => Clear := by
  cases request with
  | defaultValue key => exact heeds_giveValue bridge.defaultValue? key
  | defaultKeys => exact heeds_giveKeys bridge.defaultKeys
  | value key => exact heeds_giveValue bridge.currentValue? key
  | setKeysAndValues keyArray valueArray =>
      apply (heeds_setOptions bridge keyArray valueArray).bind
      intro _
      exact heeds_pure fun _ h => h
  | keys => exact heeds_giveKeys bridge.currentKeys

theorem heeds_register : Heeds id Clear register fun _ _ => True := by
  apply (heeds_findClass? className).bind
  intro found
  cases found with
  | none => exact heeds_throw _
  | some type =>
      have hbind : Heeds id Clear
          (liftM (Interface.registerNatives type (all.map method)) : Attempt Error Machine Int)
          fun _ _ => True :=
        heeds_lift fun machine _ h => ⟨Interface.restrained_registerNatives h _ _, trivial⟩
      apply heeds_holding type _ fun _ _ _ _ h => h
      apply (hbind.imp fun _ h => h (Option.some_ne_none type)).bind
      intro code
      split
      · exact heeds_throw _
      · exact heeds_pure fun _ h => h

/-! ## Calls from managed code -/

theorem heeds_attempt {α : Type} {operation : Service → Attempt Stop Program α}
    {post : α → Machine → Prop}
    (h : ∀ service, Heeds Program.machine Clear (operation service) post) :
    Heeds Program.machine Clear (attempt operation) post := by
  have hservice : Heeds Program.machine Clear Program.service fun _ => Clear :=
    heeds_of_view (fun program => (Program.service_found program).machine) fun _ _ h => h
  exact (hservice.mapError Stop.failed).bind h

theorem run_restrained {α : Type} {operation : Service → Attempt Stop Program α}
    {post : α → Machine → Prop}
    (h : ∀ service, Heeds Program.machine Clear (operation service) post) (native : Native)
    (fallback : α) {program : Program} (horderly : program.machine.Orderly)
    (hclear : program.machine.Clear) :
    Restrained program.machine (run native fallback operation program).2.machine := by
  have hattempt : Restrained program.machine
      (attempt operation (native.called program)).2.machine :=
    (heeds_attempt h (native.called program) horderly hclear).1
  cases hresult : (attempt operation (native.called program)).1 with
  | ok answer =>
      rw [run_of_ok hresult]
      exact hattempt
  | error stop =>
      have hstopped : (native.stopped stop
          (attempt operation (native.called program)).2).machine.Orderly :=
        hattempt.orderly horderly
      rw [run_of_error hresult, surface_eq]
      exact hattempt.trans (Program.raiseError_restrained (native.report stop) hstopped)

/-- If no exception is pending at first, then from the moment on in which one is, no native calls a
function that must not be called then, whatever the operands are, whatever answers and whatever
fails. The same goes for the marshaling of a native alone, and for binding the natives. -/
theorem calls_restrained (program : Program) (horderly : program.machine.Orderly)
    (hclear : program.machine.Clear) :
    (∀ request, Restrained program.machine (answer request program).2.machine) ∧
      (∀ bridges request,
        Restrained program.machine (respond bridges request program).2.machine) ∧
      (∀ bridge request,
        Restrained program.machine (perform bridge request program).2.machine) ∧
      Restrained program.machine (register program.machine).2 := by
  have hrespond : ∀ bridges request,
      Restrained program.machine (respond bridges request program).2.machine :=
    fun bridges request => run_restrained (fun service => heeds_perform (bridges service) request)
      request.native Handle.null horderly hclear
  exact ⟨hrespond Service.bridge, hrespond,
    fun bridge request => (heeds_perform bridge request program horderly hclear).1,
    (heeds_register program.machine horderly hclear).1⟩

/-- The second key of a batch cannot be read, which leaves an exception pending: the reference to
the key is handed back and the exception is left alone. -/
theorem calls_restrained_unreadable_key :
    let program : Program :=
      { host := ⟨⟨.empty, [], 0, fun _ => none⟩, {}, []⟩
        machine :=
          { objects := #[.text [97], .text [98], .array #[1, 2]]
            failures := fun function number =>
              if function = .getStringChars ∧ number = 2 then some { raises := true } else none }
        stores := [Store.ofDefaults .empty]
        installed := some (.store 0) }
    let after := (answer (.setKeysAndValues 3 3) program).2.machine
    program.machine.Orderly ∧ program.machine.Clear ∧ Restrained program.machine after ∧
      after.calls.toList.map (fun record => (record.call.function, record.whilePending)) =
        [(.getArrayLength, false), (.getElement, false), (.exceptionCheck, false),
          (.getStringChars, false), (.releaseStringChars, false), (.deleteLocalRef, false),
          (.getElement, false), (.exceptionCheck, false), (.getStringChars, false),
          (.deleteLocalRef, true), (.exceptionCheck, true)] := by
  intro program after
  have horderly : program.machine.Orderly := by
    refine ⟨fun number => by simp [program], ?_, ?_⟩ <;> simp [program]
  refine ⟨horderly, rfl, (calls_restrained program horderly rfl).1 _, ?_⟩
  decide +kernel

end Native

end LauncherOptions
