import LauncherOptions.Native
import LauncherOptions.Proofs.Except
import LauncherOptions.Proofs.Machine.Reading
import LauncherOptions.Proofs.Store.Outcome
import Mathlib.Data.List.Forall2

/-! # Setting options from two arrays

Setting options from managed code reads the array of keys, then the array of values, compares their
lengths, looks for null keys, and only then asks the store, once. `SetEnding` lists the ways in
which this can end, in the order of the checks. Main statement: these are exactly the endings of
`setOptions`, in any machine and whatever fails in it, and the store changes as a whole or not at
all (`setOptions_all_or_nothing`).
-/

namespace LauncherOptions

namespace Program

theorem storeAt_storePart {program : Program} {number : Nat}
    (h : number < program.stores.length) (live : LiveStore) :
    ((storePart number).set live program).storeAt number = live.store := by
  simp [storeAt, storePart, h]

end Program

namespace Service

/-- Lists of the same length are handed on as they are. -/
theorem setKeysAndValues_eq_setOptions {keys values : List String}
    (h : keys.length = values.length) (service : Service) (program : Program) :
    service.setKeysAndValues keys values program =
      service.setOptions (keys.zip values) program := by
  have hpair : ((pairUp keys values).within Program.hostPart).mapError Stop.failed program =
      (.ok (keys.zip values), program) := by
    simp [pairUp, h, Program.hostPart, Except.mapError]
  rw [setKeysAndValues, Attempt.bind_of_ok hpair]

theorem setKeysAndValues_of_length_eq {keys values : List String}
    (h : keys.length = values.length) {number : Nat} {program : Program}
    {result : Except Error Unit} {live : LiveStore}
    (hset : LiveStore.setKeysAndValues keys values ⟨program.storeAt number, program.host⟩ =
      (result, live)) :
    setKeysAndValues (.store number) keys values program =
      (result.mapError .failed, (Program.storePart number).set live program) := by
  have hpart : (LiveStore.setOptions (keys.zip values))
      ((Program.storePart number).get program) = (result, live) := by
    rw [← LiveStore.setKeysAndValues_of_length_eq h]
    exact hset
  rw [setKeysAndValues_eq_setOptions h, setOptions, Attempt.mapError_apply, Attempt.within_apply,
    hpart]

end Service

namespace Native

open Machine

/-! ## Null keys -/

/-- The first null in a list of keys stands at a place. -/
def FirstNull (keys : List (Option String)) (place : Nat) : Prop :=
  keys[place]? = some none ∧ ∀ earlier < place, keys[earlier]? ≠ some none

theorem requireKeys_map_some (index : Nat) (keys : List String) :
    requireKeys index (keys.map some) = .ok keys := by
  induction keys generalizing index with
  | nil => rfl
  | cons key rest ih =>
      rw [List.map_cons, requireKeys, ih]
      rfl

theorem FirstNull.requireKeys {keys : List (Option String)} {place : Nat}
    (h : FirstNull keys place) (index : Nat) :
    Native.requireKeys index keys = .error (.invalidArgument (.nullKeyAt (index + place))) := by
  induction keys generalizing index place with
  | nil => cases h.1
  | cons key rest ih =>
      cases place with
      | zero =>
          cases h.1
          rfl
      | succ place =>
          obtain ⟨hnull, hfirst⟩ := h
          have hrest : FirstNull rest place := by
            refine ⟨hnull, fun earlier hlt => ?_⟩
            exact hfirst (earlier + 1) (Nat.succ_lt_succ hlt)
          cases key with
          | none => exact absurd rfl (hfirst 0 (Nat.succ_pos place))
          | some key =>
              rw [Native.requireKeys, ih hrest, Nat.add_assoc, Nat.add_comm 1 place]
              rfl

theorem exists_firstNull (keys : List (Option String)) :
    (∃ names : List String, keys = names.map some) ∨ ∃ place, FirstNull keys place := by
  induction keys with
  | nil => exact .inl ⟨[], rfl⟩
  | cons key rest ih =>
      cases key with
      | none => exact .inr ⟨0, rfl, fun earlier hlt => absurd hlt (Nat.not_lt_zero earlier)⟩
      | some key =>
          rcases ih with ⟨names, rfl⟩ | ⟨place, hnull, hfirst⟩
          · exact .inl ⟨key :: names, rfl⟩
          · refine .inr ⟨place + 1, hnull, fun earlier hlt => ?_⟩
            cases earlier with
            | zero => simp
            | succ earlier => exact hfirst earlier (Nat.lt_of_succ_lt_succ hlt)

/-! ## Endings -/

theorem onMachine_of_ok {α : Type} {attempt : Attempt Error Machine α} {program : Program}
    {value : α} {machine : Machine} (h : attempt program.machine = (.ok value, machine)) :
    onMachine attempt program = (.ok value, { program with machine }) := by
  simp only [onMachine, Attempt.mapError_apply, Attempt.within_apply, Program.machinePart, h]
  rfl

theorem onMachine_of_error {α : Type} {attempt : Attempt Error Machine α} {program : Program}
    {error : Error} {machine : Machine} (h : attempt program.machine = (.error error, machine)) :
    onMachine attempt program = (.error (.failed error), { program with machine }) := by
  simp only [onMachine, Attempt.mapError_apply, Attempt.within_apply, Program.machinePart, h]
  rfl

/-- The ways in which setting options in a store from two arrays can end. What was not asked for is
as it was: only the last ending touches the store and the host. -/
inductive SetEnding (program : Program) (number : Nat) (keyArray valueArray : Handle) :
    Except Stop Unit → Program → Prop
  | keysRefused {error : Error} {machine : Machine}
      (hkeys : ArrayRefused keyArray program.machine error machine) :
      SetEnding program number keyArray valueArray (.error (.failed error))
        { program with machine }
  | valuesRefused {keys : List (Option String)} {error : Error} {middle machine : Machine}
      (hkeys : ArrayRead keyArray program.machine keys middle)
      (hvalues : ArrayRefused valueArray middle error machine) :
      SetEnding program number keyArray valueArray (.error (.failed error))
        { program with machine }
  | lengthMismatch {keys values : List (Option String)} {middle machine : Machine}
      (hkeys : ArrayRead keyArray program.machine keys middle)
      (hvalues : ArrayRead valueArray middle values machine)
      (hlength : keys.length ≠ values.length) :
      SetEnding program number keyArray valueArray
        (.error (.failed (.lengthMismatch keys.length values.length))) { program with machine }
  | nullKey {keys values : List (Option String)} {place : Nat} {middle machine : Machine}
      (hkeys : ArrayRead keyArray program.machine keys middle)
      (hvalues : ArrayRead valueArray middle values machine)
      (hlength : keys.length = values.length) (hnull : FirstNull keys place) :
      SetEnding program number keyArray valueArray
        (.error (.failed (.invalidArgument (.nullKeyAt place)))) { program with machine }
  /-- The store is asked, and what it answers is the answer. -/
  | asked {keys : List String} {values : List (Option String)} {middle machine : Machine}
      {result : Except Error Unit} {live : LiveStore}
      (hkeys : ArrayRead keyArray program.machine (keys.map some) middle)
      (hvalues : ArrayRead valueArray middle values machine)
      (hlength : keys.length = values.length)
      (hset : LiveStore.setKeysAndValues keys (values.map (·.getD ""))
        ⟨program.storeAt number, program.host⟩ = (result, live)) :
      SetEnding program number keyArray valueArray (result.mapError .failed)
        ((Program.storePart number).set live { program with machine })

theorem exists_setEnding (program : Program) (number : Nat) (keyArray valueArray : Handle) :
    ∃ result after, SetEnding program number keyArray valueArray result after := by
  rcases exists_arrayRead keyArray program.machine with ⟨keys, middle, hkeys⟩ | ⟨_, _, hkeys⟩
  · rcases exists_arrayRead valueArray middle with ⟨values, machine, hvalues⟩ | ⟨_, _, hvalues⟩
    · by_cases hlength : keys.length = values.length
      · rcases exists_firstNull keys with ⟨names, rfl⟩ | ⟨place, hnull⟩
        · rw [List.length_map] at hlength
          exact ⟨_, _, .asked hkeys hvalues hlength rfl⟩
        · exact ⟨_, _, .nullKey hkeys hvalues hlength hnull⟩
      · exact ⟨_, _, .lengthMismatch hkeys hvalues hlength⟩
    · exact ⟨_, _, .valuesRefused hkeys hvalues⟩
  · exact ⟨_, _, .keysRefused hkeys⟩

/-- What is left to do once both arrays are read. -/
theorem setOptions_of_arrayRead {program : Program} {keyArray valueArray : Handle}
    {keys values : List (Option String)} {middle machine : Machine}
    (hkeys : ArrayRead keyArray program.machine keys middle)
    (hvalues : ArrayRead valueArray middle values machine) (bridge : Bridge) :
    setOptions bridge keyArray valueArray program =
      (if keys.length ≠ values.length then
        throw (Stop.failed (.lengthMismatch keys.length values.length))
      else do
        let keys ← Attempt.ofExcept ((requireKeys 0 keys).mapError .failed)
        (bridge.setKeysAndValues keys (values.map (·.getD ""))).val : Attempt Stop Program Unit)
        { program with machine } := by
  rw [setOptions, Attempt.bind_of_ok (onMachine_of_ok hkeys.eq), Attempt.bind_of_ok
    (onMachine_of_ok hvalues.eq)]

theorem SetEnding.eq {program after : Program} {number : Nat} {keyArray valueArray : Handle}
    {result : Except Stop Unit} (h : SetEnding program number keyArray valueArray result after) :
    setOptions (Service.store number).bridge keyArray valueArray program = (result, after) := by
  cases h with
  | keysRefused hkeys => exact Attempt.bind_of_error (onMachine_of_error hkeys.eq) _
  | valuesRefused hkeys hvalues =>
      rw [setOptions, Attempt.bind_of_ok (onMachine_of_ok hkeys.eq)]
      exact Attempt.bind_of_error (onMachine_of_error hvalues.eq) _
  | lengthMismatch hkeys hvalues hlength =>
      rw [setOptions_of_arrayRead hkeys hvalues, if_pos hlength, Attempt.throw_apply]
  | nullKey hkeys hvalues hlength hnull =>
      rw [setOptions_of_arrayRead hkeys hvalues, if_neg (fun h => h hlength), hnull.requireKeys,
        Nat.zero_add]
      rfl
  | @asked keys values _ _ _ _ hkeys hvalues hlength hset =>
      have hpairs : keys.length = (values.map (·.getD "")).length := by
        rw [List.length_map, hlength]
      rw [← List.length_map some] at hlength
      rw [setOptions_of_arrayRead hkeys hvalues, if_neg (fun h => h hlength), requireKeys_map_some]
      exact Service.setKeysAndValues_of_length_eq hpairs hset

theorem setOptions_eq_iff {program after : Program} {number : Nat}
    {keyArray valueArray : Handle} {result : Except Stop Unit} :
    setOptions (Service.store number).bridge keyArray valueArray program = (result, after) ↔
      SetEnding program number keyArray valueArray result after := by
  refine ⟨fun h => ?_, SetEnding.eq⟩
  obtain ⟨other, final, hending⟩ := exists_setEnding program number keyArray valueArray
  cases hending.eq.symm.trans h
  exact hending

/-! ## What happens to the store -/

/-- Whatever goes wrong, the store stays as it was. -/
theorem SetEnding.storeAt_of_error {program after : Program} {number : Nat}
    (hnumber : number < program.stores.length) {keyArray valueArray : Handle} {stop : Stop}
    (h : SetEnding program number keyArray valueArray (.error stop) after) :
    after.storeAt number = program.storeAt number := by
  generalize hresult : (Except.error stop : Except Stop Unit) = result at h
  cases h with
  | keysRefused => rfl
  | valuesRefused => rfl
  | lengthMismatch => rfl
  | nullKey => rfl
  | @asked keys values _ _ result live _ _ hlength hset =>
      have hpairs : keys.length = (values.map (·.getD "")).length := by
        rw [List.length_map, hlength]
      rw [LiveStore.setKeysAndValues_of_length_eq hpairs] at hset
      have houtcome := LiveStore.setOptions_outcome ⟨program.storeAt number, program.host⟩
        (keys.zip (values.map (·.getD "")))
      rw [hset] at houtcome
      rw [Program.storeAt_storePart]
      · cases result with
        | ok => cases hresult
        | error error => exact houtcome.store_of_error
      · exact hnumber

/-- Setting options from two arrays is one step of the store or none. The call ends for the first
reason in the order of the endings, whatever the machine lets fail on the way: the array of keys,
the array of values, their lengths, the first null key, and what the store itself answers. An error
leaves the overrides alone. If there is none, the store is as it is after the pairs that were read,
with empty values in place of null ones, are set as one batch; and no text is read that is not in
the arrays. -/
theorem setOptions_all_or_nothing {program : Program} {number : Nat}
    (hnumber : number < program.stores.length) (keyArray valueArray : Handle)
    (result : Except Stop Unit) (after : Program) :
    (setOptions (Service.store number).bridge keyArray valueArray program = (result, after) ↔
        SetEnding program number keyArray valueArray result after) ∧
      (SetEnding program number keyArray valueArray result after →
        (∀ stop, result = .error stop →
          (after.storeAt number).overrides = (program.storeAt number).overrides) ∧
        (result = .ok () → ∃ (keys : List String) (values : List (Option String))
            (middle : Machine), ArrayRead keyArray program.machine (keys.map some) middle ∧
          ArrayRead valueArray middle values after.machine ∧ keys.length = values.length ∧
          (∀ index key, keys[index]? = some key → program.machine.ItemText keyArray index key) ∧
          (∀ index value, values[index]? = some (some value) →
            program.machine.ItemText valueArray index value) ∧
          LiveStore.setOptions (keys.zip (values.map (·.getD "")))
            ⟨program.storeAt number, program.host⟩ =
              (.ok (), ⟨after.storeAt number, after.host⟩))) := by
  refine ⟨setOptions_eq_iff, fun hending => ⟨?_, ?_⟩⟩
  · rintro stop rfl
    rw [hending.storeAt_of_error hnumber]
  · intro hresult
    cases hending with
    | keysRefused => cases hresult
    | valuesRefused => cases hresult
    | lengthMismatch => cases hresult
    | nullKey => cases hresult
    | @asked keys values middle machine answer live hkeys hvalues hlength hset =>
        have hpairs : keys.length = (values.map (·.getD "")).length := by
          rw [List.length_map, hlength]
        refine ⟨keys, values, middle, hkeys, hvalues, hlength, ?_, ?_, ?_⟩
        · intro index key hkey
          apply hkeys.itemText
          rw [List.getElem?_map, hkey]
          rfl
        · intro index value hvalue
          exact (hvalues.itemText hvalue).congr hkeys.objects
        · rw [eq_ok_of_mapError_eq_ok hresult,
            LiveStore.setKeysAndValues_of_length_eq hpairs] at hset
          rw [hset, Program.storeAt_storePart]
          · rfl
          · exact hnumber

/-- Keys with a null in front, fewer values than keys, and an exception that is reported for the
second value: the exception is what counts. -/
theorem setOptions_all_or_nothing_reported :
    let machine : Machine :=
      { objects := #[.text [97], .text [98], .array #[0, 1, 2], .array #[1, 2]]
        failures := fun function number =>
          if function = .exceptionCheck ∧ number = 5 then some {} else none }
    let program : Program :=
      { host := ⟨⟨.empty, [], 0, fun _ => none⟩, {}, []⟩, machine
        stores := [Store.withOverrides (.ofList [("a", "1")]) (.ofList [("b", "2")])] }
    let outcome := setOptions (Service.store 0).bridge 3 4 program
    0 < program.stores.length ∧
      outcome.1 = .error (.failed (.marshal (.elementUnreadable 1))) ∧
      (outcome.2.storeAt 0).overrides = (program.storeAt 0).overrides := by
  intro machine program outcome
  have hnumber : 0 < program.stores.length := Nat.succ_pos 0
  have hresult : outcome.1 = .error (.failed (.marshal (.elementUnreadable 1))) := by
    decide +kernel +zetaReduce
  obtain ⟨hiff, hkept⟩ := setOptions_all_or_nothing hnumber 3 4 outcome.1 outcome.2
  exact ⟨hnumber, hresult, (hkept (hiff.mp rfl)).1 _ hresult⟩

/-- A fetch that fails without an exception is taken for a null item, and a length that is not given
for that of an empty array: the arrays hold `a` and `b`, but the store gets an empty value in the
one case and nothing in the other, and no error is reported. -/
theorem setOptions_unreported_failure :
    let program (failures : Function → Nat → Option Failure) : Program :=
      { host := ⟨⟨.empty, [], 0, fun _ => none⟩, {}, []⟩
        machine := { objects := #[.text [97], .array #[1], .text [98], .array #[3]], failures }
        stores := [Store.ofDefaults .empty] }
    let unfetched := program fun function number =>
      if function = .getElement ∧ number = 2 then some {} else none
    let uncounted := program fun function _ =>
      if function = .getArrayLength then some {} else none
    (∀ failures, (program failures).machine.ItemText 2 0 "a" ∧
        (program failures).machine.ItemText 4 0 "b" ∧
        (LiveStore.setOptions [("a", "b")] ⟨(program failures).storeAt 0,
          (program failures).host⟩).2.store.overrides.entries = [("a", "b")]) ∧
      (setOptions (Service.store 0).bridge 2 4 unfetched).1 = .ok () ∧
      ((setOptions (Service.store 0).bridge 2 4 unfetched).2.storeAt 0).overrides.entries =
        [("a", "")] ∧
      (setOptions (Service.store 0).bridge 2 4 uncounted).1 = .ok () ∧
      ((setOptions (Service.store 0).bridge 2 4 uncounted).2.storeAt 0).overrides.entries = [] := by
  intro program unfetched uncounted
  have hkey : ModifiedUtf8.decode [97] = .ok "a" := by decide +kernel
  have hvalue : ModifiedUtf8.decode [98] = .ok "b" := by decide +kernel
  refine ⟨fun failures => ⟨⟨#[1], 1, [97], rfl, rfl, rfl, hkey⟩, ⟨#[3], 3, [98], rfl, rfl, rfl,
    hvalue⟩, rfl⟩, ?_⟩
  decide +kernel +zetaReduce

end Native

end LauncherOptions
