import LauncherOptions.Proofs.Machine.Calls
import LauncherOptions.Proofs.Machine.Custody.Basic

/-! # What making an array keeps

References to new objects are the next numbers, in order (`Makes`), so none is obtained twice. The
class of strings and each string are given back once they have served, and the calls for the strings
of an array leave what is held as it was, also if one of them cannot be made
(`FillCalls.afterAll?`). The array is never given back: it is kept if it is handed to the caller,
but also if one of its strings cannot be made and the caller gets an error
(`newStringArray_custody`). So an array is lost whenever a string is refused
(`newStringArray_loses_array`).
-/

namespace LauncherOptions

namespace Machine

open Custody

/-- These calls were made from one state of the machine to the other, and the references that they
handed out are the next numbers, in order. -/
structure Makes (before : Machine) (calls : List Call) (after : Machine) : Prop where
  made : Made before calls after
  numbered : ∃ count, after.objects.size = before.objects.size + count ∧
    calls.filterMap Call.obtained? = List.range' (before.objects.size + 1) count

section

variable {before middle after : Machine} {calls more : List Call}

theorem Makes.trans (h : Makes before calls middle) (hnext : Makes middle more after) :
    Makes before (calls ++ more) after where
  made := h.made.trans hnext.made
  numbered := by
    obtain ⟨count, hsize, hcalls⟩ := h.numbered
    obtain ⟨rest, hlater, hmore⟩ := hnext.numbered
    refine ⟨count + rest, ?_, ?_⟩
    · rw [hlater, hsize, Nat.add_assoc]
    · rw [List.filterMap_append, hcalls, hmore, hsize, Nat.add_right_comm, List.range'_append_1]

theorem Made.makes {call : Call} (h : Made before [call] after) (hcall : call.obtained? = none)
    (hsize : after.objects.size = before.objects.size) : Makes before [call] after where
  made := h
  numbered := ⟨0, hsize, List.filterMap_cons_none hcall⟩

theorem Makes.nodup (h : Makes before calls after) : (calls.filterMap Call.obtained?).Nodup := by
  obtain ⟨count, _, hcalls⟩ := h.numbered
  rw [hcalls]
  exact List.nodup_range'

end

/-- A call that makes an object, unless the plan lets it fail. -/
theorem makes_call {function : Function} {work : StateM Machine Handle} {entry : Handle → Call}
    {machine after : Machine} {object : Object} {value : Handle}
    (hwork : work machine = allocate object machine)
    (hentry : ∀ result, (entry result).obtained? = result.nonNull?)
    (h : Interface.call function (fun _ => Handle.null) work entry machine = (value, after)) :
    Makes machine [entry value] after where
  made := Interface.made_call (by rw [hwork]; rfl) h
  numbered := by
    cases hplan : machine.failures function (machine.count function + 1) with
    | none =>
        rw [Interface.call_of_none hplan, hwork] at h
        cases h
        have hnonNull := Handle.nonNull?_of_ne (Nat.succ_ne_zero machine.objects.size)
        exact ⟨1, Array.size_push .., List.filterMap_cons_some ((hentry _).trans hnonNull)⟩
    | some failure =>
        obtain ⟨pending, heq⟩ := Interface.call_of_some hplan
        rw [heq] at h
        cases h
        exact ⟨0, rfl, List.filterMap_cons_none (hentry Handle.null)⟩

theorem makes_findClass {name : String} {machine after : Machine} {type : Handle}
    (h : Interface.findClass name machine = (type, after)) :
    Makes machine [.findClass name type] after :=
  makes_call rfl (fun _ => rfl) h

theorem makes_newString {bytes : List UInt8} {machine after : Machine} {string : Handle}
    (h : Interface.newString bytes machine = (string, after)) :
    Makes machine [.newString bytes string] after :=
  makes_call rfl (fun _ => rfl) h

theorem makes_newObjectArray {length : Nat} {type initial : Handle} {machine after : Machine}
    {array : Handle} (h : Interface.newObjectArray length type initial machine = (array, after)) :
    Makes machine [.newObjectArray length type initial array] after := by
  have hwork : Interface.allocateArray length initial machine =
      allocate (.array (Array.replicate length initial)) machine := by
    rw [Interface.allocateArray, if_neg (Int.not_lt.mpr (Int.natCast_nonneg length)),
      Int.toNat_natCast]
  exact makes_call hwork (fun _ => rfl) h

/-- Storing an item makes no object, whether there is room for it or not. -/
theorem setElement_size (array : Handle) (index : Int) (value : Handle) (machine : Machine) :
    (Interface.setElement array index value machine).2.objects.size = machine.objects.size := by
  cases hplan : machine.failures .setElement (machine.count .setElement + 1) with
  | none =>
      rw [Interface.setElement, Interface.call_of_none hplan]
      simp only [Interface.storeItem, bind_apply, get_apply]
      cases Interface.position? machine array index with
      | none => rfl
      | some found => exact Array.size_setIfInBounds
  | some failure =>
      obtain ⟨pending, heq⟩ := Interface.call_of_some hplan
      rw [Interface.setElement, heq]
      rfl

theorem makes_setElement (array : Handle) (index : Int) (value : Handle) (machine : Machine) :
    Makes machine [.setElement array index value]
      (Interface.setElement array index value machine).2 := by
  have hmade := Interface.made_call (Interface.storeItem_calls array index value machine)
    (rfl : Interface.setElement array index value machine = _)
  exact Made.makes hmade rfl (setElement_size array index value machine)

theorem makes_release {reference : Handle} (h : reference ≠ Handle.null) (machine : Machine) :
    Makes machine [.deleteLocalRef reference] (release reference machine).2 :=
  (made_release h machine).makes rfl (congrArg Array.size (alike_release reference machine).objects)

/-! ## Strings -/

/-- The calls by which texts are stored in an array from `index` on, with what comes of it. -/
inductive FillCalls (array : Handle) :
    Nat → List String → Except Error Unit → List Call → Prop
  | done {index : Nat} : FillCalls array index [] (.ok ()) []
  | refused {index : Nat} {text : String} {rest : List String} :
      FillCalls array index (text :: rest) (.error (.marshal (.stringNotMade text)))
        [.newString (ModifiedUtf8.encode text) Handle.null]
  | stored {index : Nat} {text : String} {rest : List String} {string : Handle}
      {result : Except Error Unit} {calls : List Call} (hstring : string ≠ Handle.null)
      (hrest : FillCalls array (index + 1) rest result calls) :
      FillCalls array index (text :: rest) result
        ([.newString (ModifiedUtf8.encode text) string, .setElement array index string,
          .deleteLocalRef string] ++ calls)

theorem fillArray_calls (array : Handle) (index : Nat) (texts : List String) (machine : Machine) :
    ∃ calls, FillCalls array index texts (fillArray array index texts machine).1 calls ∧
      Makes machine calls (fillArray array index texts machine).2 := by
  induction texts generalizing index machine with
  | nil => exact ⟨[], .done, made_nil rfl, 0, rfl, rfl⟩
  | cons text rest ih =>
      rcases hstring : Interface.newString (ModifiedUtf8.encode text) machine with ⟨string, made⟩
      have hmade := makes_newString hstring
      have hnew : newString text machine =
          (if string = Handle.null then .error (.marshal (.stringNotMade text)) else .ok string,
            made) := by
        rw [newString_apply, hstring]
      by_cases hnull : string = Handle.null
      · subst hnull
        rw [fillArray, Attempt.bind_of_error hnew]
        exact ⟨_, .refused, hmade⟩
      · rw [if_neg hnull] at hnew
        obtain ⟨calls, hcalls, hmakes⟩ := ih (index + 1)
          (release string (Interface.setElement array index string made).2).2
        have hstored := (hmade.trans (makes_setElement array index string made)).trans
          (makes_release hnull _)
        rw [fillArray, Attempt.bind_of_ok hnew]
        exact ⟨_, .stored hnull hcalls, hstored.trans hmakes⟩

/-- Storing texts in an array that is held leaves what is held as it was. -/
theorem FillCalls.afterAll? {array : Handle} {index : Nat} {texts : List String}
    {result : Except Error Unit} {calls : List Call}
    (h : FillCalls array index texts result calls) {references : List Handle}
    (harray : array ∈ references) :
    Custody.afterAll? [] { references } calls = some { references } := by
  induction h with
  | done => rfl
  | refused => simp [after?]
  | stored hstring _ ih =>
      refine (afterAll?_append_of_some ?_ _).trans ih
      simp [after?, usable, Handle.nonNull?_of_ne hstring, harray]

/-- If all texts are stored, a string is obtained for each of them. -/
theorem FillCalls.length_obtained {array : Handle} {index : Nat} {texts : List String}
    {calls : List Call} (h : FillCalls array index texts (.ok ()) calls) :
    (calls.filterMap Call.obtained?).length = texts.length := by
  generalize hresult : (.ok () : Except Error Unit) = result at h
  induction h with
  | done => rfl
  | refused => cases hresult
  | stored hstring _ ih =>
      simp [List.filterMap_cons, Handle.nonNull?_of_ne hstring, ih hresult]

theorem FillCalls.error_eq {array : Handle} {index : Nat} {texts : List String} {error : Error}
    {calls : List Call} (h : FillCalls array index texts (.error error) calls) :
    ∃ text, error = .marshal (.stringNotMade text) := by
  generalize hresult : (.error error : Except Error Unit) = result at h
  induction h with
  | done => cases hresult
  | refused => exact ⟨_, Except.error.inj hresult⟩
  | stored _ _ ih => exact ih hresult

/-! ## Arrays -/

/-- The calls by which an array of strings is made, with what comes of it. -/
inductive BuildCalls (texts : List String) : Except Error Handle → List Call → Prop
  | tooMany : BuildCalls texts (.error (.marshal (.tooManyElements texts.length))) []
  | classMissing :
      BuildCalls texts (.error (.marshal (.classMissing stringClass)))
        [.findClass stringClass Handle.null]
  | arrayNotMade {type : Handle} (htype : type ≠ Handle.null) :
      BuildCalls texts (.error (.marshal (.arrayNotMade texts.length)))
        [.findClass stringClass type,
          .newObjectArray texts.length type Handle.null Handle.null, .deleteLocalRef type]
  | filled {type array : Handle} {result : Except Error Unit} {calls : List Call}
      (htype : type ≠ Handle.null) (harray : array ≠ Handle.null)
      (hfill : FillCalls array 0 texts result calls) :
      BuildCalls texts (result.map fun _ => array)
        ([.findClass stringClass type, .newObjectArray texts.length type Handle.null array] ++
          calls ++ [.deleteLocalRef type])

theorem newStringArray_calls (texts : List String) (machine : Machine) :
    ∃ calls, BuildCalls texts (newStringArray texts machine).1 calls ∧
      Makes machine calls (newStringArray texts machine).2 := by
  by_cases hmany : maxArrayLength < texts.length
  · rw [newStringArray_of_tooMany hmany]
    exact ⟨[], .tooMany, made_nil rfl, 0, rfl, rfl⟩
  rcases hclass : Interface.findClass stringClass machine with ⟨type, found⟩
  have hfound := makes_findClass hclass
  have hfind : findClass? stringClass machine =
      (if type = Handle.null then none else some type, found) := by
    rw [findClass?_apply (by decide), hclass]
  by_cases htype : type = Handle.null
  · subst htype
    rw [newStringArray, if_neg hmany, Attempt.bind_apply, Attempt.lift_apply, hfind]
    exact ⟨_, .classMissing, hfound⟩
  rw [if_neg htype] at hfind
  rcases harray : Interface.newObjectArray texts.length type Handle.null found with ⟨array, made⟩
  have hmade := hfound.trans (makes_newObjectArray harray)
  by_cases hnull : array = Handle.null
  · subst hnull
    simp only [newStringArray, if_neg hmany, Attempt.bind_apply, Attempt.lift_apply, hfind, holding,
      Attempt.ensuring_apply, harray]
    exact ⟨_, .arrayNotMade htype, hmade.trans (makes_release htype _)⟩
  · obtain ⟨calls, hcalls, hmakes⟩ := fillArray_calls array 0 texts made
    rcases hfill : fillArray array 0 texts made with ⟨result, filled⟩
    rw [hfill] at hcalls hmakes
    simp only [newStringArray, if_neg hmany, Attempt.bind_apply, Attempt.lift_apply, hfind, holding,
      Attempt.ensuring_apply, harray, if_neg hnull, hfill]
    have hbuilt := BuildCalls.filled htype hnull hcalls
    have hall := (hmade.trans hmakes).trans (makes_release htype filled)
    cases result <;> exact ⟨_, hbuilt, hall⟩

/-- The references that are still held at the end: none, or the array. -/
theorem BuildCalls.kept {texts : List String} {result : Except Error Handle}
    {calls : List Call} : BuildCalls texts result calls →
    ∃ kept, Custody.afterAll? [] {} calls = some { references := kept } ∧
      match result with
      | .ok array =>
        kept = [array] ∧ (calls.filterMap Call.obtained?).length = texts.length + 2
      | .error (.marshal (.stringNotMade _)) =>
        ∃ type array, kept = [array] ∧ .newObjectArray texts.length type Handle.null array ∈ calls
      | .error _ => kept = [] := by
  intro h
  cases h with
  | tooMany => exact ⟨[], rfl, rfl⟩
  | classMissing => exact ⟨[], rfl, rfl⟩
  | arrayNotMade htype =>
      refine ⟨[], ?_, rfl⟩
      simp [after?, usable, Handle.nonNull?_of_ne htype]
  | @filled type array result calls htype harray hfill =>
      refine ⟨[array], ?_, ?_⟩
      · have hstart : Custody.afterAll? [] {} [.findClass stringClass type,
            .newObjectArray texts.length type Handle.null array] =
            some { references := [array, type] } := by
          simp [after?, usable, Handle.nonNull?_of_ne htype, Handle.nonNull?_of_ne harray]
        rw [List.append_assoc, afterAll?_append_of_some hstart,
          afterAll?_append_of_some (hfill.afterAll? List.mem_cons_self)]
        have herase : [array, type].erase type = [array] := by
          by_cases heq : array = type <;> simp [heq]
        simp [after?, usable, herase]
      · cases result with
        | ok =>
            refine ⟨rfl, ?_⟩
            simp [List.filterMap_cons, Handle.nonNull?_of_ne htype, Handle.nonNull?_of_ne harray,
              hfill.length_obtained]
        | error error =>
            obtain ⟨text, rfl⟩ := hfill.error_eq
            exact ⟨type, array, rfl, by simp⟩

/-- Whatever call fails, making an array works with no reference after it was given back, and gives
back nothing but what it obtained. What it obtained is given back once, with the exception of the
array: that is kept for the caller if all strings were made, and is lost if one of them was not. -/
theorem newStringArray_custody (texts : List String) (machine : Machine) :
    ∃ calls kept, Made machine calls (newStringArray texts machine).2 ∧
      Custody.afterAll? [] {} calls = some { references := kept } ∧
      (calls.filterMap Call.obtained?).Nodup ∧
      (∀ reference ∈ calls.filterMap Call.obtained?,
        (calls.filterMap Call.deleted?).count reference = if reference ∈ kept then 0 else 1) ∧
      (∀ reference ∈ calls.filterMap Call.deleted?,
        reference ∈ calls.filterMap Call.obtained?) ∧
      (∀ front reference back, calls = front ++ .deleteLocalRef reference :: back →
        ∀ call ∈ back, reference ∉ call.operands) ∧
      match (newStringArray texts machine).1 with
      | .ok array =>
        kept = [array] ∧ (calls.filterMap Call.obtained?).length = texts.length + 2
      | .error (.marshal (.stringNotMade _)) =>
        ∃ type array, kept = [array] ∧ .newObjectArray texts.length type Handle.null array ∈ calls
      | .error _ => kept = [] := by
  obtain ⟨calls, hcalls, hmakes⟩ := newStringArray_calls texts machine
  obtain ⟨kept, hkept, hresult⟩ := hcalls.kept
  refine ⟨calls, kept, hmakes.made, hkept, hmakes.nodup, ?_, ?_, ?_, hresult⟩
  · exact fun reference => count_deleted hkept hmakes.nodup
  · exact fun reference => mem_obtained_of_mem_deleted hkept
  · exact fun front reference back hsplit call => not_used_again hkept hmakes.nodup hsplit

/-- The machine makes no string, so the error leaves the new array with nobody. -/
theorem newStringArray_loses_array :
    let machine : Machine :=
      { failures := fun function _ => if function = .newString then some {} else none }
    let calls : List Call :=
      [.findClass stringClass 1, .newObjectArray 1 1 Handle.null 2,
        .newString [0x61] Handle.null, .deleteLocalRef 1]
    (newStringArray ["a"] machine).1 = .error (.marshal (.stringNotMade "a")) ∧
      Made machine calls (newStringArray ["a"] machine).2 ∧
      2 ∈ calls.filterMap Call.obtained? ∧ 2 ∉ calls.filterMap Call.deleted? := by
  intro machine calls
  refine ⟨?_, ⟨(newStringArray ["a"] machine).2.calls.toList, rfl, ?_⟩, by decide, by decide⟩
  · decide +kernel
  · decide +kernel

end Machine

end LauncherOptions
