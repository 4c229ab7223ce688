import LauncherOptions.Machine.Basic
import Mathlib.Data.List.Nodup

/-! # What native code has in its hands

Native code obtains references and the characters of strings from the machine and has to give them
back. Calls are gone through with a record of what is held (`Custody`). A call is out of order if it
works with a reference that is neither held nor lent by the caller, gives back what is not held, or
gives back a string whose characters are still out (`Custody.after?`). The books balance: what was
held and what was obtained is what was given back and what is still held (`count_afterAll?`). So if
no reference is obtained twice, none is worked with after it was given back (`not_used_again`).
-/

namespace LauncherOptions

/-- The reference, unless it is null. -/
def Handle.nonNull? (reference : Handle) : Option Handle :=
  if reference = Handle.null then none else some reference

@[simp] theorem Handle.nonNull?_null : Handle.null.nonNull? = none := rfl

theorem Handle.nonNull?_of_ne {reference : Handle} (h : reference ≠ Handle.null) :
    reference.nonNull? = some reference :=
  if_neg h

namespace Call

/-- The reference that a call hands out, if it does. -/
@[simp] def obtained? : Call → Option Handle
  | .findClass _ result => result.nonNull?
  | .newString _ result => result.nonNull?
  | .newObjectArray _ _ _ result => result.nonNull?
  | .getElement _ _ result => result.nonNull?
  | _ => none

/-- The reference that a call gives back. -/
@[simp] def deleted? : Call → Option Handle
  | .deleteLocalRef reference => some reference
  | _ => none

/-- The string whose characters a call hands out, if it does. -/
@[simp] def opened? : Call → Option Handle
  | .getStringChars string true => some string
  | _ => none

/-- The string whose characters a call gives back. -/
@[simp] def closed? : Call → Option Handle
  | .releaseStringChars string => some string
  | _ => none

/-- The place of an array that a call looks at. -/
@[simp] def fetched? : Call → Option (Handle × Int)
  | .getElement array index _ => some (array, index)
  | _ => none

/-- The references that a call works with. -/
@[simp] def operands : Call → List Handle
  | .findClass _ _ => []
  | .throwNew type _ _ => [type]
  | .deleteLocalRef reference => [reference]
  | .newString _ _ => []
  | .getStringChars string _ => [string]
  | .releaseStringChars string => [string]
  | .getArrayLength array _ => [array]
  | .newObjectArray _ type initial _ => [type, initial]
  | .getElement array _ _ => [array]
  | .setElement array _ value => [array, value]
  | .registerNatives type _ _ => [type]
  | .exceptionCheck _ => []

end Call

/-- What native code holds: references, newest first, and strings whose characters it has. -/
structure Custody where
  references : List Handle := []
  characters : List Handle := []
  deriving DecidableEq

namespace Custody

/-- Whether a reference can be worked with: it is null, lent by the caller, or held. -/
def usable (lent : List Handle) (held : Custody) (reference : Handle) : Bool :=
  reference = Handle.null ∨ reference ∈ lent ∨ reference ∈ held.references

/-- What is held after a call; nothing if the call is out of order. -/
def after? (lent : List Handle) (held : Custody) (call : Call) : Option Custody :=
  if call.operands.all (held.usable lent) then
    match call with
    | .deleteLocalRef reference =>
      if reference ∈ held.references ∧ reference ∉ held.characters then
        some { held with references := held.references.erase reference }
      else none
    | .getStringChars string true =>
      some { held with characters := string :: held.characters }
    | .releaseStringChars string =>
      if string ∈ held.characters then
        some { held with characters := held.characters.erase string }
      else none
    | call => some { held with references := call.obtained?.toList ++ held.references }
  else none

/-- What is held after all calls; nothing if one of them is out of order. -/
@[simp] def afterAll? (lent : List Handle) (held : Custody) : List Call → Option Custody
  | [] => some held
  | call :: rest => (held.after? lent call).bind fun next => next.afterAll? lent rest

section

variable {lent : List Handle} {held next last : Custody} {call : Call} {calls : List Call}

theorem afterAll?_append (front back : List Call) :
    held.afterAll? lent (front ++ back) =
      (held.afterAll? lent front).bind fun next => next.afterAll? lent back := by
  induction front generalizing held with
  | nil => rfl
  | cons call rest ih =>
      rw [List.cons_append, afterAll?, afterAll?, Option.bind_assoc]
      congr 1
      funext next
      exact ih

theorem afterAll?_append_of_some {front : List Call} (h : held.afterAll? lent front = some next)
    (back : List Call) : held.afterAll? lent (front ++ back) = next.afterAll? lent back := by
  rw [afterAll?_append, h, Option.bind_some]

/-- Two stretches of calls that are in order as one are in order one after the other. -/
theorem exists_of_afterAll?_append {front back : List Call}
    (h : held.afterAll? lent (front ++ back) = some last) :
    ∃ next, held.afterAll? lent front = some next ∧ next.afterAll? lent back = some last :=
  Option.bind_eq_some_iff.mp (afterAll?_append front back ▸ h)

/-- A call that is in order works with nothing but what may be used. -/
theorem usable_of_after? (h : held.after? lent call = some next) {reference : Handle}
    (hoperand : reference ∈ call.operands) :
    reference = Handle.null ∨ reference ∈ lent ∨ reference ∈ held.references := by
  unfold after? at h
  split at h
  next hall => simpa [usable] using List.all_eq_true.mp hall reference hoperand
  next => cases h

/-- One call: what was held and is obtained is given back or still held. -/
theorem count_after? (h : held.after? lent call = some next) (reference : Handle) :
    held.references.count reference + call.obtained?.toList.count reference =
      call.deleted?.toList.count reference + next.references.count reference := by
  have hother : ∀ {found : Option Handle} {other : Custody},
      some { held with references := found.toList ++ held.references } = some other →
      held.references.count reference + found.toList.count reference =
        other.references.count reference := by
    rintro found other ⟨⟩
    rw [List.count_append, Nat.add_comm]
  unfold after? at h
  split at h
  next =>
    split at h
    next given _ =>
      -- the reference that is given back was held
      split at h
      next hheld =>
        cases h
        have hpos := List.count_pos_iff.mpr hheld.1
        by_cases heq : given = reference
        · subst heq
          simp only [Call.obtained?, Call.deleted?, Option.toList_none, Option.toList_some,
            List.count_nil, List.count_singleton_self, List.count_erase_self]
          omega
        · simp [List.count_erase_of_ne (Ne.symm heq), heq]
      next => cases h
    next =>
      cases h
      simp
    next =>
      split at h
      next =>
        cases h
        simp
      next => cases h
    next hdelete _ _ =>
      have hnone : call.deleted? = none := by
        cases call with
        | deleteLocalRef given => exact absurd rfl (hdelete given)
        | _ => rfl
      rw [hnone, hother h, Option.toList_none, List.count_nil, Nat.zero_add]
  next => cases h

/-- The books balance over any number of calls. -/
theorem count_afterAll? (h : held.afterAll? lent calls = some last) (reference : Handle) :
    held.references.count reference + (calls.filterMap Call.obtained?).count reference =
      (calls.filterMap Call.deleted?).count reference + last.references.count reference := by
  induction calls generalizing held with
  | nil =>
      cases h
      simp
  | cons call rest ih =>
      obtain ⟨next, hcall, hrest⟩ := Option.bind_eq_some_iff.mp h
      have hfirst := count_after? hcall reference
      have hlater := ih hrest
      have hcons : ∀ part : Call → Option Handle,
          ((call :: rest).filterMap part).count reference =
            (part call).toList.count reference + (rest.filterMap part).count reference := by
        intro part
        rw [← List.count_append]
        congr 1
        cases hpart : part call <;> simp [hpart]
      rw [hcons, hcons]
      omega

theorem ne_null_of_mem_obtained {reference : Handle}
    (h : reference ∈ calls.filterMap Call.obtained?) : reference ≠ Handle.null := by
  obtain ⟨call, _, hcall⟩ := List.mem_filterMap.mp h
  rintro rfl
  have hnonNull : ∀ result : Handle, result.nonNull? ≠ some Handle.null := by
    intro result hresult
    unfold Handle.nonNull? at hresult
    split at hresult
    next => cases hresult
    next hne => exact hne (Option.some.inj hresult)
  cases call with
  | findClass name result => exact hnonNull result hcall
  | newString bytes result => exact hnonNull result hcall
  | newObjectArray length type initial result => exact hnonNull result hcall
  | getElement array index result => exact hnonNull result hcall
  | _ => cases hcall

/-- Nothing is given back that was not obtained. -/
theorem mem_obtained_of_mem_deleted (h : afterAll? lent {} calls = some last)
    {reference : Handle} (hdeleted : reference ∈ calls.filterMap Call.deleted?) :
    reference ∈ calls.filterMap Call.obtained? := by
  have hcount := count_afterAll? h reference
  rw [← List.count_pos_iff] at hdeleted ⊢
  simp only [List.count_nil] at hcount
  omega

/-- If no reference is obtained twice, each one is given back once, unless it is still held. -/
theorem count_deleted (h : afterAll? lent {} calls = some last)
    (hnodup : (calls.filterMap Call.obtained?).Nodup) {reference : Handle}
    (hobtained : reference ∈ calls.filterMap Call.obtained?) :
    (calls.filterMap Call.deleted?).count reference =
      if reference ∈ last.references then 0 else 1 := by
  have hcount := count_afterAll? h reference
  rw [List.count_eq_one_of_mem hnodup hobtained, List.count_nil, Nat.zero_add] at hcount
  split
  next hheld =>
    have hpos := List.count_pos_iff.mpr hheld
    omega
  next hheld =>
    rw [List.count_eq_zero.mpr hheld] at hcount
    exact hcount.symm

/-- If no reference is obtained twice, none is worked with after it was given back. -/
theorem not_used_again (h : afterAll? [] {} calls = some last)
    (hnodup : (calls.filterMap Call.obtained?).Nodup) {front back : List Call}
    {reference : Handle} (hcalls : calls = front ++ .deleteLocalRef reference :: back)
    (hcall : call ∈ back) : reference ∉ call.operands := by
  intro hoperand
  obtain ⟨between, rest, rfl⟩ := List.append_of_mem hcall
  have hsplit : calls = (front ++ .deleteLocalRef reference :: between) ++ call :: rest := by
    rw [hcalls, List.append_assoc, List.cons_append]
  have hdeleted : reference ∈
      (front ++ .deleteLocalRef reference :: between).filterMap Call.deleted? :=
    List.mem_filterMap.mpr ⟨.deleteLocalRef reference, by simp, rfl⟩
  rw [hsplit] at h hnodup
  obtain ⟨middle, hmiddle, hlater⟩ := exists_of_afterAll?_append h
  obtain ⟨next, hnext, _⟩ := Option.bind_eq_some_iff.mp hlater
  have hobtained := mem_obtained_of_mem_deleted hmiddle hdeleted
  -- it was obtained once and given back, so it is not held any more
  have hcount := count_afterAll? hmiddle reference
  have honce : ((front ++ .deleteLocalRef reference :: between).filterMap
      Call.obtained?).count reference ≤ 1 := by
    rw [List.filterMap_append] at hnodup
    exact List.nodup_iff_count_le_one.mp hnodup.of_append_left reference
  rw [← List.count_pos_iff] at hdeleted
  rw [List.count_nil, Nat.zero_add] at hcount
  rcases usable_of_after? hnext hoperand with hnull | hlent | hheld
  · exact ne_null_of_mem_obtained hobtained hnull
  · cases hlent
  · rw [← List.count_pos_iff] at hheld
    omega

end

-- a string is given back twice, and a string is given back while its characters are out
example : afterAll? [] {} [.newString [] 1, .deleteLocalRef 1, .deleteLocalRef 1] = none ∧
    afterAll? [] {} [.newString [] 1, .getStringChars 1 true, .deleteLocalRef 1] = none := by
  decide

end Custody

end LauncherOptions
