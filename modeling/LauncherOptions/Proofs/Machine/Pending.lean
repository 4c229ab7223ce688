import LauncherOptions.Proofs.Except
import LauncherOptions.Proofs.Machine.Interface
import LauncherOptions.Proofs.Machine.Strings

/-! # Calls while an exception is pending

While an exception is pending, native code may only ask whether there is one and give things back
(`pendingFunctions`). A stretch of work that keeps to this makes its calls in two parts: those
before an exception is pending, and then none but these (`Restrained`). Stretches of work that do
can follow one another (`Restrained.trans`), so an attempt does if each of its steps does, starting
where the step before it ends (`Heeds`). Main statements: reading and making strings and arrays of
strings keep to this, whatever fails (`heeds_readStringArray`, `heeds_newStringArray`).
-/

namespace LauncherOptions

namespace Machine

/-! ## Machines and stretches of work -/

/-- The functions that may be called while an exception is pending. -/
def pendingFunctions : List Function :=
  [.exceptionCheck, .deleteLocalRef, .releaseStringChars]

/-- Whether an exception is pending can be found out without fail, and calls that look at the length
of an array or fill a place of it raise none when they fail. All other functions may fail in any
way. -/
structure Orderly (machine : Machine) : Prop where
  check : ∀ number, machine.failures .exceptionCheck number = none
  length : ∀ number failure,
    machine.failures .getArrayLength number = some failure → failure.raises = false
  store : ∀ number failure,
    machine.failures .setElement number = some failure → failure.raises = false

theorem Orderly.congr {before after : Machine} (h : before.Orderly)
    (hfailures : after.failures = before.failures) : after.Orderly where
  check := hfailures ▸ h.check
  length := hfailures ▸ h.length
  store := hfailures ▸ h.store

/-- No exception is pending. -/
def Clear (machine : Machine) : Prop :=
  machine.pending = none

theorem Clear.of_alike {before after : Machine} (halike : before.Alike after)
    (h : before.Clear) : after.Clear :=
  halike.pending.trans h

/-- First come calls without an exception pending, and from the moment on in which one is pending
only calls that may be made then. -/
structure Restrained (before after : Machine) : Prop where
  failures : after.failures = before.failures
  pending : before.pending.isSome → after.pending.isSome
  calls : ∃ free bound : List CallRecord,
    after.calls.toList = before.calls.toList ++ (free ++ bound) ∧
      (∀ record ∈ free, record.whilePending = false) ∧
      (∀ record ∈ bound,
        record.whilePending = true ∧ record.call.function ∈ pendingFunctions) ∧
      (before.pending.isSome → free = []) ∧ (bound ≠ [] → after.pending.isSome)

section

variable {before middle after : Machine}

theorem Restrained.orderly (h : Restrained before after) (horderly : before.Orderly) :
    after.Orderly :=
  horderly.congr h.failures

theorem restrained_refl (machine : Machine) : Restrained machine machine where
  failures := rfl
  pending := id
  calls := ⟨[], [], by simp⟩

theorem Restrained.trans (h : Restrained before middle) (hnext : Restrained middle after) :
    Restrained before after where
  failures := hnext.failures.trans h.failures
  pending := hnext.pending ∘ h.pending
  calls := by
    obtain ⟨free, bound, hcalls, hfree, hbound, hstart, hend⟩ := h.calls
    obtain ⟨free', bound', hcalls', hfree', hbound', hstart', hend'⟩ := hnext.calls
    -- the exception is there at the place where the stretches meet, or it is not
    by_cases hmiddle : middle.pending.isSome
    · refine ⟨free, bound ++ bound', ?_, hfree, ?_, hstart, fun _ => hnext.pending hmiddle⟩
      · rw [hcalls', hcalls, hstart' hmiddle, List.nil_append, List.append_assoc, List.append_assoc]
      · exact List.forall_mem_append.mpr ⟨hbound, hbound'⟩
    · have hnone : bound = [] := Decidable.byContradiction fun hne => hmiddle (hend hne)
      refine ⟨free ++ free', bound', ?_, ?_, hbound', ?_, hend'⟩
      · rw [hcalls', hcalls, hnone, List.append_nil, List.append_assoc, List.append_assoc]
      · exact List.forall_mem_append.mpr ⟨hfree, hfree'⟩
      · exact fun hpending => absurd (h.pending hpending) hmiddle

end

/-- A single call while no exception is pending. It may leave one. -/
theorem restrained_record_of_clear {before other : Machine} (h : before.Clear)
    (hcalls : other.calls = before.calls) (hfailures : other.failures = before.failures)
    (call : Call) : Restrained before (record call before.pending.isSome other).2 := by
  have hfree : before.pending.isSome = false := by
    rw [h]
    rfl
  have hnot : before.pending.isSome → False := by simp [hfree]
  refine ⟨hfailures, fun h => (hnot h).elim, [⟨call, false⟩], [], ?_, by simp, by simp,
    fun h => (hnot h).elim, by simp⟩
  rw [hfree, ← hcalls]
  exact Array.toList_push

/-- A single call of a function that may always be called. -/
theorem restrained_record (call : Call) (h : call.function ∈ pendingFunctions)
    (machine : Machine) :
    Restrained machine (record call machine.pending.isSome machine).2 := by
  cases hpending : machine.pending with
  | none =>
      rw [← hpending]
      exact restrained_record_of_clear hpending rfl rfl call
  | some exception =>
      have hstill : (record call true machine).2.pending.isSome := by
        rw [(alike_record call true machine).pending, hpending]
        rfl
      exact ⟨rfl, id, [], [⟨call, true⟩], Array.toList_push, by simp, by simpa using h, by simp,
        fun _ => hstill⟩

theorem restrained_release (reference : Handle) (machine : Machine) :
    Restrained machine (release reference machine).2 := by
  unfold release
  split
  · exact restrained_refl machine
  · have hmay : Function.deleteLocalRef ∈ pendingFunctions := by decide
    exact restrained_record (.deleteLocalRef reference) hmay machine

end Machine

/-! ## Calls of the machine's functions -/

namespace Interface

open Machine

section call

variable {α : Type} {function : Function} {failed : Failure → α} {work : StateM Machine α}
  {entry : α → Call} {machine : Machine}

/-- A failure that raises no exception changes nothing. -/
theorem call_of_quiet {failure : Failure}
    (h : machine.failures function (machine.count function + 1) = some failure)
    (hquiet : failure.raises = false) :
    call function failed work entry machine =
      (failed failure,
        (record (entry (failed failure)) machine.pending.isSome machine).2) := by
  have hplanned : planned function machine = (some failure, machine) := by
    simp only [planned, Machine.bind_apply, Machine.get_apply, h, hquiet]
    rfl
  simp only [call, Machine.bind_apply, Machine.get_apply, hplanned]
  rfl

/-- As long as no exception is pending, any function may be called. -/
theorem restrained_call (h : machine.Clear) (hcalls : (work machine).2.calls = machine.calls)
    (hfailures : (work machine).2.failures = machine.failures) :
    Restrained machine (call function failed work entry machine).2 := by
  cases hplan : machine.failures function (machine.count function + 1) with
  | none =>
      rw [call_of_none hplan]
      exact restrained_record_of_clear h hcalls hfailures _
  | some failure =>
      obtain ⟨pending, heq⟩ := call_of_some hplan
      have hraised : ({ machine with pending } : Machine).calls = machine.calls := rfl
      rw [heq]
      exact restrained_record_of_clear h hraised rfl _

/-- A result that does not stand for failure is the result of the work, done on the machine as it
was. -/
theorem call_of_not_failed
    (h : ∀ failure, (call function failed work entry machine).1 ≠ failed failure) :
    (call function failed work entry machine).1 = (work machine).1 ∧
      (work machine).2.Alike (call function failed work entry machine).2 := by
  cases hplan : machine.failures function (machine.count function + 1) with
  | none =>
      rw [call_of_none hplan]
      exact ⟨rfl, alike_record _ _ _⟩
  | some failure =>
      obtain ⟨pending, heq⟩ := call_of_some hplan
      rw [heq] at h
      exact absurd rfl (h failure)

/-- A function that raises nothing when it fails either does its work or leaves the machine as it
is. -/
theorem call_alike_of_quiet
    (h : ∀ number failure, machine.failures function number = some failure →
      failure.raises = false) :
    (work machine).2.Alike (call function failed work entry machine).2 ∨
      machine.Alike (call function failed work entry machine).2 := by
  cases hplan : machine.failures function (machine.count function + 1) with
  | none =>
      rw [call_of_none hplan]
      exact .inl (alike_record _ _ _)
  | some failure =>
      rw [call_of_quiet hplan (h _ failure hplan)]
      exact .inr (alike_record _ _ _)

end call

/-- Asking whether an exception is pending is always allowed, and the answer is true. -/
theorem exceptionCheck_of_orderly {machine : Machine} (h : machine.Orderly) :
    Restrained machine (exceptionCheck machine).2 ∧
      machine.Alike (exceptionCheck machine).2 ∧
      ((exceptionCheck machine).1 = answerFalse ↔ machine.Clear) := by
  have hmay : Function.exceptionCheck ∈ pendingFunctions := by decide
  rw [exceptionCheck, call_of_none (h.check _)]
  refine ⟨restrained_record (.exceptionCheck _) hmay machine, alike_record _ _ machine, ?_⟩
  change (if machine.pending.isSome then answerTrue else answerFalse) = answerFalse ↔ _
  cases hpending : machine.pending with
  | none => simp [Clear, hpending]
  | some exception => simp [Clear, hpending, answerTrue, answerFalse]

theorem restrained_releaseStringChars (string : Handle) (machine : Machine) :
    Restrained machine (releaseStringChars string machine).2 := by
  have hmay : Function.releaseStringChars ∈ pendingFunctions := by decide
  exact restrained_record (.releaseStringChars string) hmay machine

section

variable {machine : Machine}

theorem restrained_findClass (h : machine.Clear) (name : String) :
    Restrained machine (findClass name machine).2 :=
  restrained_call h rfl rfl

theorem clear_findClass (h : machine.Clear) {name : String}
    (hfound : (findClass name machine).1 ≠ Handle.null) : (findClass name machine).2.Clear :=
  Clear.of_alike (call_of_not_failed fun _ => hfound).2 h

theorem restrained_throwNew (h : machine.Clear) (type : Handle) (message : List UInt8) :
    Restrained machine (throwNew type message machine).2 :=
  restrained_call h rfl rfl

theorem restrained_registerNatives (h : machine.Clear) (type : Handle) (methods : List Method) :
    Restrained machine (registerNatives type methods machine).2 :=
  restrained_call h rfl rfl

theorem restrained_getStringChars (h : machine.Clear) (string : Handle) :
    Restrained machine (getStringChars string machine).2 :=
  restrained_call h rfl rfl

theorem clear_getStringChars (h : machine.Clear) {string : Handle}
    (hgiven : (getStringChars string machine).1 ≠ none) :
    (getStringChars string machine).2.Clear :=
  Clear.of_alike (call_of_not_failed fun _ => hgiven).2 h

theorem restrained_getElement (h : machine.Clear) (array : Handle) (index : Int) :
    Restrained machine (getElement array index machine).2 := by
  cases hposition : position? machine array index with
  | some found => apply restrained_call h <;> rw [loadItem_of_some hposition]
  | none =>
      obtain ⟨pending, heq⟩ := loadItem_of_none hposition
      apply restrained_call h <;> rw [heq]

theorem restrained_getArrayLength (h : machine.Clear) (array : Handle) :
    Restrained machine (getArrayLength array machine).2 :=
  restrained_call h rfl rfl

theorem clear_getArrayLength (horderly : machine.Orderly) (h : machine.Clear) (array : Handle) :
    (getArrayLength array machine).2.Clear := by
  rcases call_alike_of_quiet horderly.length with halike | halike
  · exact Clear.of_alike halike h
  · exact Clear.of_alike halike h

theorem restrained_newString (h : machine.Clear) (bytes : List UInt8) :
    Restrained machine (newString bytes machine).2 :=
  restrained_call h rfl rfl

end

end Interface

/-! ## Attempts -/

/-- In an orderly machine that meets `pre`, the attempt only makes calls that are allowed. If it
ends with a value, the value and the machine meet `post`. -/
def Attempt.Heeds {ε σ α : Type} (view : σ → Machine) (pre : Machine → Prop)
    (attempt : Attempt ε σ α) (post : α → Machine → Prop) : Prop :=
  ∀ state, (view state).Orderly → pre (view state) →
    Machine.Restrained (view state) (view (attempt state).2) ∧
      ∀ value, (attempt state).1 = .ok value → post value (view (attempt state).2)

namespace Attempt

variable {ε ε' σ α β : Type} {view : σ → Machine} {pre : Machine → Prop}
  {post : α → Machine → Prop}

/-- An attempt that has nothing to do with the machine. -/
theorem heeds_of_view {attempt : Attempt ε σ α}
    (h : ∀ state, view (attempt state).2 = view state)
    (hpost : ∀ value machine, pre machine → post value machine) :
    Heeds view pre attempt post := by
  intro state _ hpre
  rw [h]
  exact ⟨Machine.restrained_refl _, fun value _ => hpost value _ hpre⟩

theorem heeds_pure {value : α} (h : ∀ machine, pre machine → post value machine) :
    Heeds view pre (pure value : Attempt ε σ α) post := by
  intro state _ hpre
  refine ⟨Machine.restrained_refl _, ?_⟩
  rintro _ ⟨⟩
  exact h _ hpre

theorem heeds_throw (error : ε) : Heeds view pre (throw error : Attempt ε σ α) post := by
  intro state _ _
  refine ⟨Machine.restrained_refl _, ?_⟩
  rintro _ ⟨⟩

theorem heeds_lift {action : StateM Machine α}
    (h : ∀ machine : Machine, machine.Orderly → pre machine →
      Machine.Restrained machine (action machine).2 ∧ post (action machine).1 (action machine).2) :
    Heeds id pre (liftM action : Attempt ε Machine α) post := by
  intro machine horderly hpre
  obtain ⟨hrestrained, hpost⟩ := h machine horderly hpre
  refine ⟨hrestrained, ?_⟩
  rintro _ ⟨⟩
  exact hpost

/-- A step takes over where the one before it ends. -/
theorem Heeds.bind {first : Attempt ε σ α} {next : α → Attempt ε σ β}
    {last : β → Machine → Prop} (hfirst : Heeds view pre first post)
    (hnext : ∀ value, Heeds view (post value) (next value) last) :
    Heeds view pre (first >>= next) last := by
  intro state horderly hpre
  obtain ⟨hstart, hmiddle⟩ := hfirst state horderly hpre
  rw [bind_apply]
  rcases hcase : first state with ⟨error | value, middle⟩
  · rw [hcase] at hstart
    refine ⟨hstart, ?_⟩
    rintro _ ⟨⟩
  · rw [hcase] at hstart hmiddle
    obtain ⟨hrest, hlast⟩ := hnext value middle (hstart.orderly horderly) (hmiddle value rfl)
    exact ⟨hstart.trans hrest, hlast⟩

theorem Heeds.imp {attempt : Attempt ε σ α} (h : Heeds view pre attempt post)
    {given : Machine → Prop} (hgiven : ∀ machine, given machine → pre machine) :
    Heeds view given attempt post :=
  fun state horderly hpre => h state horderly (hgiven _ hpre)

theorem Heeds.mapError {attempt : Attempt ε σ α} (h : Heeds view pre attempt post)
    (report : ε → ε') : Heeds view pre (attempt.mapError report) post := by
  intro state horderly hpre
  obtain ⟨hrestrained, hpost⟩ := h state horderly hpre
  exact ⟨hrestrained, fun value hvalue => hpost value (eq_ok_of_mapError_eq_ok hvalue)⟩

end Attempt

namespace Machine

open Attempt

/-- A reference can be handed back whatever has happened. -/
theorem heeds_holding {ε α : Type} {pre : Machine → Prop} {post : α → Machine → Prop}
    (reference : Handle) {work : Attempt ε Machine α} (h : Heeds id pre work post)
    (hpost : ∀ value machine after, Alike machine after → post value machine → post value after) :
    Heeds id pre (holding reference work) post := by
  intro machine horderly hpre
  obtain ⟨hrestrained, hvalue⟩ := h machine horderly hpre
  refine ⟨hrestrained.trans (restrained_release reference _), fun value hok => ?_⟩
  exact hpost value _ _ (alike_release reference _) (hvalue value hok)

/-! ## Reading -/

/-- Strings are read without a call too many, and a string that could be read leaves no exception
behind. -/
theorem heeds_readString (string : Handle) :
    Heeds id Clear (readString string) fun _ => Clear := by
  unfold readString
  split
  · exact heeds_pure fun _ h => h
  have hget : Heeds id Clear
      (liftM (Interface.getStringChars string) : Attempt Error Machine (Option (List UInt8)))
      fun chars machine => chars ≠ none → machine.Clear :=
    heeds_lift fun machine _ h =>
      ⟨Interface.restrained_getStringChars h string, Interface.clear_getStringChars h⟩
  apply hget.bind
  intro chars
  cases chars with
  | none => exact heeds_throw _
  | some bytes =>
      have hrelease : Heeds id Clear
          (liftM (Interface.releaseStringChars string) : Attempt Error Machine Unit)
          fun _ => Clear :=
        heeds_lift fun machine _ h =>
          ⟨Interface.restrained_releaseStringChars string machine,
            Clear.of_alike (alike_record _ _ machine) h⟩
      apply (hrelease.imp fun _ h => h (Option.some_ne_none bytes)).bind
      intro _
      split
      · exact heeds_pure fun _ h => h
      · exact heeds_throw _

/-- An item that could not be fetched is not looked at. -/
theorem heeds_readElement (array : Handle) (index : Nat) :
    Heeds id Clear (readElement array index) fun _ => Clear := by
  have hfetch : Heeds id Clear
      (liftM (Interface.getElement array index) : Attempt Error Machine Handle)
      fun _ _ => True :=
    heeds_lift fun machine _ h => ⟨Interface.restrained_getElement h array index, trivial⟩
  have hcheck : Heeds id (fun _ => True)
      (liftM isExceptionPending : Attempt Error Machine Bool)
      fun said machine => said = false → machine.Clear := by
    apply heeds_lift
    intro machine horderly _
    obtain ⟨hrestrained, halike, hanswer⟩ := Interface.exceptionCheck_of_orderly horderly
    refine ⟨hrestrained, fun hsaid => Clear.of_alike halike (hanswer.mp ?_)⟩
    exact Decidable.not_not.mp (of_decide_eq_false hsaid)
  apply hfetch.bind
  intro element
  apply heeds_holding element _ fun _ _ _ => Clear.of_alike
  apply hcheck.bind
  intro said
  cases said with
  | true => exact heeds_throw _
  | false => exact (heeds_readString element).imp fun _ h => h rfl

theorem heeds_readElements (array : Handle) (index count : Nat) :
    Heeds id Clear (readElements array index count) fun _ => Clear := by
  induction count generalizing index with
  | zero => exact heeds_pure fun _ h => h
  | succ count ih =>
      apply (heeds_readElement array index).bind
      intro text
      apply (ih (index + 1)).bind
      intro rest
      exact heeds_pure fun _ h => h

theorem heeds_readStringArray (array : Handle) :
    Heeds id Clear (readStringArray array) fun _ => Clear := by
  unfold readStringArray
  split
  · exact heeds_throw _
  · have hcount : Heeds id Clear
        (liftM (Interface.getArrayLength array) : Attempt Error Machine Int) fun _ => Clear :=
      heeds_lift fun machine horderly h =>
        ⟨Interface.restrained_getArrayLength h array,
          Interface.clear_getArrayLength horderly h array⟩
    apply hcount.bind
    intro length
    exact heeds_readElements array 0 length.toNat

/-! ## Making -/

/-- No exception is pending, and the array is there with so many places at least. -/
structure Fillable (array : Handle) (count : Nat) (machine : Machine) : Prop where
  clear : machine.Clear
  places : ∃ items, machine.object? array = some (.array items) ∧ count ≤ items.size

theorem Fillable.of_alike {array : Handle} {count : Nat} {before after : Machine}
    (halike : before.Alike after) (h : Fillable array count before) :
    Fillable array count after where
  clear := Clear.of_alike halike h.clear
  places := by
    obtain ⟨items, harray, hcount⟩ := h.places
    exact ⟨items, (object?_congr halike.objects array).trans harray, hcount⟩

/-- A new object leaves the array alone. -/
theorem Fillable.allocate {array : Handle} {count : Nat} {machine : Machine}
    (h : Fillable array count machine) (object : Object) :
    Fillable array count (Machine.allocate object machine).2 where
  clear := h.clear
  places := by
    obtain ⟨items, harray, hcount⟩ := h.places
    refine ⟨items, ?_, hcount⟩
    cases array with
    | zero => cases harray
    | succ position =>
        have hlt := (Array.getElem?_eq_some_iff.mp harray).1
        exact (Array.getElem?_push_lt hlt).trans ((Array.getElem?_eq_getElem hlt).symm.trans harray)

/-- One of the places can be filled, and the array still has as many. -/
theorem Fillable.setElement {array : Handle} {count : Nat} {machine : Machine}
    (h : Fillable array count machine) (horderly : machine.Orderly) {index : Nat}
    (hlt : index < count) (value : Handle) :
    Restrained machine (Interface.setElement array index value machine).2 ∧
      Fillable array count (Interface.setElement array index value machine).2 := by
  obtain ⟨items, harray, hcount⟩ := h.places
  have hposition := Interface.position?_eq_some.mpr ⟨harray, Nat.lt_of_lt_of_le hlt hcount, rfl⟩
  have hstore : Interface.storeItem array index value machine =
      ((), Interface.setItems machine array (items.setIfInBounds index value)) := by
    simp only [Interface.storeItem, bind_apply, get_apply, hposition]
    rfl
  have hset : Fillable array count
      (Interface.setItems machine array (items.setIfInBounds index value)) := by
    refine ⟨h.clear, items.setIfInBounds index value, ?_, by simpa using hcount⟩
    cases array with
    | zero => cases harray
    | succ position =>
        have hbound := (Array.getElem?_eq_some_iff.mp harray).1
        simp [Interface.setItems, object?, hbound]
  constructor
  · apply Interface.restrained_call h.clear <;> rw [hstore] <;> rfl
  · have hcases : (Interface.storeItem array index value machine).2.Alike
          (Interface.setElement array index value machine).2 ∨
        machine.Alike (Interface.setElement array index value machine).2 :=
      Interface.call_alike_of_quiet horderly.store
    rw [hstore] at hcases
    exact hcases.elim hset.of_alike h.of_alike

/-- What is true with one more object is true after a string was made. -/
theorem heeds_newString {kept : Machine → Prop} (text : String)
    (hclear : ∀ machine, kept machine → machine.Clear)
    (hkept : ∀ machine after, kept machine →
      (allocate (.text (ModifiedUtf8.encode text)) machine).2.Alike after → kept after) :
    Heeds id kept (newString text) fun _ => kept := by
  rw [newString_eq]
  have hmake : Heeds id kept
      (liftM (Interface.newString (ModifiedUtf8.encode text)) : Attempt Error Machine Handle)
      fun string machine => string ≠ Handle.null → kept machine := by
    apply heeds_lift
    intro machine _ h
    refine ⟨Interface.restrained_newString (hclear machine h) _, fun hmade => ?_⟩
    exact hkept machine _ h (Interface.call_of_not_failed fun _ => hmade).2
  apply hmake.bind
  intro string
  split
  next => exact heeds_throw _
  next hstring => exact heeds_pure fun _ h => h hstring

theorem heeds_fillArray (array : Handle) {count : Nat} (index : Nat) (texts : List String)
    (h : index + texts.length ≤ count) :
    Heeds id (Fillable array count) (fillArray array index texts) fun _ => Clear := by
  induction texts generalizing index with
  | nil => exact heeds_pure fun _ h => h.clear
  | cons text rest ih =>
      rw [List.length_cons] at h
      have hmake : Heeds id (Fillable array count) (newString text) fun _ =>
          Fillable array count :=
        heeds_newString text (fun _ => Fillable.clear) fun _ _ hfillable halike =>
          (hfillable.allocate _).of_alike halike
      apply hmake.bind
      intro string
      have hstore : Heeds id (Fillable array count)
          (liftM (Interface.setElement array index string) : Attempt Error Machine Unit)
          fun _ => Fillable array count :=
        heeds_lift fun machine horderly hfillable =>
          hfillable.setElement horderly (by omega) string
      apply (heeds_holding string hstore fun _ _ _ => Fillable.of_alike).bind
      intro _
      exact ih (index + 1) (by omega)

/-- A class that is found leaves no exception behind. -/
theorem heeds_findClass? {ε : Type} (name : String) :
    Heeds id Clear (liftM (findClass? name) : Attempt ε Machine (Option Handle))
      fun found machine => found ≠ none → machine.Clear := by
  apply heeds_lift
  intro machine _ h
  unfold findClass?
  split
  · exact ⟨restrained_refl machine, fun hfound => absurd rfl hfound⟩
  · refine ⟨Interface.restrained_findClass h name, fun hfound => Interface.clear_findClass h ?_⟩
    intro hnull
    exact hfound (if_pos hnull)

theorem heeds_newObjectArray {ε : Type} (length : Nat) (type : Handle) :
    Heeds id Clear
      (liftM (Interface.newObjectArray length type Handle.null) : Attempt ε Machine Handle)
      fun array machine => array ≠ Handle.null → Fillable array length machine := by
  apply heeds_lift
  intro machine _ h
  have hwork : Interface.allocateArray length Handle.null machine =
      allocate (.array (Array.replicate length Handle.null)) machine := by
    rw [Interface.allocateArray, if_neg (Int.not_lt.mpr (Int.natCast_nonneg length)),
      Int.toNat_natCast]
  constructor
  · apply Interface.restrained_call h <;> rw [hwork] <;> rfl
  · intro harray
    obtain ⟨hresult, halike⟩ := Interface.call_of_not_failed fun _ => harray
    rw [hwork] at hresult halike
    have hmade : Fillable (machine.objects.size + 1) length
        (allocate (.array (Array.replicate length Handle.null)) machine).2 :=
      ⟨h, _, Array.getElem?_push_size, by simp⟩
    rw [Interface.newObjectArray, hresult]
    exact hmade.of_alike halike

theorem heeds_newStringArray (texts : List String) :
    Heeds id Clear (newStringArray texts) fun _ => Clear := by
  unfold newStringArray
  split
  · exact heeds_throw _
  apply (heeds_findClass? stringClass).bind
  intro found
  cases found with
  | none => exact heeds_throw _
  | some type =>
      apply heeds_holding type _ fun _ _ _ => Clear.of_alike
      apply ((heeds_newObjectArray texts.length type).imp
        fun _ h => h (Option.some_ne_none type)).bind
      intro array
      split
      next => exact heeds_throw _
      next harray =>
        have hfill := heeds_fillArray array 0 texts (Nat.le_of_eq (Nat.zero_add _))
        apply (hfill.imp fun _ h => h harray).bind
        intro _
        exact heeds_pure fun _ h => h

end Machine

end LauncherOptions
