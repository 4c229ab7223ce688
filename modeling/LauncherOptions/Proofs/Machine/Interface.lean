import LauncherOptions.Machine.Arrays

/-! # What the functions of the machine do

A call does its work or fails as the plan says, and is then recorded. What a call gives back and
what it does to the objects is read off from these two cases (`call_of_none`, `call_of_some`).
Looking at arrays and strings changes no object, whatever fails.
-/

namespace LauncherOptions

namespace Machine

theorem bind_apply {α β : Type} (first : StateM Machine α) (next : α → StateM Machine β)
    (machine : Machine) :
    (first >>= next) machine = next (first machine).1 (first machine).2 := rfl

theorem get_apply (machine : Machine) :
    (get : StateM Machine Machine) machine = (machine, machine) := rfl

/-- The machines differ at most in the calls that were made. -/
structure Alike (before after : Machine) : Prop where
  objects : after.objects = before.objects
  pending : after.pending = before.pending
  failures : after.failures = before.failures

theorem Alike.trans {before middle after : Machine} (h : before.Alike middle)
    (hnext : middle.Alike after) : before.Alike after where
  objects := hnext.objects.trans h.objects
  pending := hnext.pending.trans h.pending
  failures := hnext.failures.trans h.failures

theorem object?_congr {machine other : Machine} (h : other.objects = machine.objects)
    (handle : Handle) : other.object? handle = machine.object? handle := by
  cases handle with
  | zero => rfl
  | succ position => rw [object?, object?, h]

theorem alike_record (call : Call) (whilePending : Bool) (machine : Machine) :
    machine.Alike (record call whilePending machine).2 :=
  ⟨rfl, rfl, rfl⟩

theorem alike_release (reference : Handle) (machine : Machine) :
    machine.Alike (release reference machine).2 := by
  unfold release
  split
  · exact ⟨rfl, rfl, rfl⟩
  · exact alike_record _ _ machine

end Machine

namespace Interface

open Machine

/-! ## Calls -/

section call

variable {α : Type} {function : Function} {failed : Failure → α} {work : StateM Machine α}
  {entry : α → Call} {machine : Machine}

/-- A call that the plan does not mention does its work. -/
theorem call_of_none (h : machine.failures function (machine.count function + 1) = none) :
    call function failed work entry machine =
      ((work machine).1,
        (record (entry (work machine).1) machine.pending.isSome (work machine).2).2) := by
  have hplanned : planned function machine = (none, machine) := by
    simp only [planned, bind_apply, get_apply, h]
    rfl
  simp only [call, bind_apply, get_apply, hplanned]
  rfl

/-- A call that the plan lets fail does nothing, except that an exception may be pending. -/
theorem call_of_some {failure : Failure}
    (h : machine.failures function (machine.count function + 1) = some failure) :
    ∃ pending, call function failed work entry machine =
      (failed failure,
        (record (entry (failed failure)) machine.pending.isSome { machine with pending }).2) := by
  have hplanned : ∃ pending,
      planned function machine = (some failure, { machine with pending }) := by
    simp only [planned, bind_apply, get_apply, h]
    split
    · exact ⟨_, rfl⟩
    · exact ⟨machine.pending, rfl⟩
  obtain ⟨pending, hplanned⟩ := hplanned
  refine ⟨pending, ?_⟩
  simp only [call, bind_apply, get_apply, hplanned]
  rfl

theorem call_objects (hwork : (work machine).2.objects = machine.objects) :
    (call function failed work entry machine).2.objects = machine.objects := by
  cases h : machine.failures function (machine.count function + 1) with
  | none =>
      rw [call_of_none h]
      exact hwork
  | some failure =>
      obtain ⟨pending, heq⟩ := call_of_some h
      rw [heq]
      rfl

/-- What a call gives back is what it works out or what stands for its failure. -/
theorem call_result :
    (call function failed work entry machine).1 = (work machine).1 ∨
      ∃ failure, (call function failed work entry machine).1 = failed failure := by
  cases h : machine.failures function (machine.count function + 1) with
  | none =>
      rw [call_of_none h]
      exact .inl rfl
  | some failure =>
      obtain ⟨pending, heq⟩ := call_of_some h
      rw [heq]
      exact .inr ⟨failure, rfl⟩

end call

/-! ## Looking at arrays and strings -/

theorem loadItem_of_some {machine : Machine} {array : Handle} {index : Int}
    {items : Array Handle} {position : Nat}
    (h : position? machine array index = some (items, position)) :
    loadItem array index machine = (items.getD position Handle.null, machine) := by
  simp only [loadItem, bind_apply, get_apply, h]
  rfl

theorem loadItem_of_none {machine : Machine} {array : Handle} {index : Int}
    (h : position? machine array index = none) :
    ∃ pending, loadItem array index machine = (Handle.null, { machine with pending }) := by
  simp only [loadItem, bind_apply, get_apply, h]
  exact ⟨_, rfl⟩

theorem position?_eq_some {machine : Machine} {array : Handle} {index : Nat}
    {items : Array Handle} {position : Nat} :
    position? machine array index = some (items, position) ↔
      machine.object? array = some (.array items) ∧ index < items.size ∧ position = index := by
  unfold position?
  split
  next found hfound =>
    simp only [hfound]
    grind
  next hother =>
    refine ⟨fun h => absurd h (Option.some_ne_none _).symm, ?_⟩
    rintro ⟨harray, _⟩
    exact absurd harray (hother items)

theorem getElement_objects (array : Handle) (index : Int) (machine : Machine) :
    (getElement array index machine).2.objects = machine.objects := by
  apply call_objects
  cases h : position? machine array index with
  | some found => rw [loadItem_of_some h]
  | none =>
      obtain ⟨pending, heq⟩ := loadItem_of_none h
      rw [heq]

/-- A reference that is fetched from an array and is not null is the item at its place. -/
theorem getElement_item {array : Handle} {index : Nat} {machine : Machine}
    (h : (getElement array index machine).1 ≠ Handle.null) :
    ∃ items, machine.object? array = some (.array items) ∧
      items[index]? = some (getElement array index machine).1 := by
  rcases call_result with hwork | ⟨failure, hfailed⟩
  · rw [getElement, hwork] at h ⊢
    cases hposition : position? machine array index with
    | none =>
        obtain ⟨pending, heq⟩ := loadItem_of_none hposition
        rw [heq] at h
        exact absurd rfl h
    | some found =>
        obtain ⟨harray, hlt, hindex⟩ := position?_eq_some.mp hposition
        refine ⟨found.1, harray, ?_⟩
        rw [loadItem_of_some hposition, hindex]
        simp [hlt]
  · exact absurd hfailed h

theorem exceptionCheck_objects (machine : Machine) :
    (exceptionCheck machine).2.objects = machine.objects :=
  call_objects rfl

theorem getArrayLength_objects (array : Handle) (machine : Machine) :
    (getArrayLength array machine).2.objects = machine.objects :=
  call_objects rfl

theorem getStringChars_objects (string : Handle) (machine : Machine) :
    (getStringChars string machine).2.objects = machine.objects :=
  call_objects rfl

/-- Characters that are given are those of the string. -/
theorem getStringChars_some {string : Handle} {machine : Machine} {bytes : List UInt8}
    (h : (getStringChars string machine).1 = some bytes) :
    stringChars? machine string = some bytes := by
  rcases call_result with hwork | ⟨failure, hfailed⟩
  · exact hwork.symm.trans h
  · exact absurd (hfailed.symm.trans h) (Option.some_ne_none bytes).symm

end Interface

end LauncherOptions
