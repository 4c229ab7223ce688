import LauncherOptions.Proofs.Machine.Reading
import LauncherOptions.Proofs.Machine.Strings
import Mathlib.Data.List.Forall2

/-! # Machines in which nothing fails

In a calm machine no call fails and no exception is pending. Strings and arrays of strings are then
read as what they hold (`Calm.stringRead`, `Calm.arrayRead`), and what is made there is made as
asked: a new string is one more object (`Calm.newString`), and a new array of strings comes with the
class of strings before it and the strings after it (`Calm.newStringArray`).
-/

namespace LauncherOptions.Machine

/-- No call fails and no exception is pending. -/
structure Calm (machine : Machine) : Prop where
  failures : ∀ function number, machine.failures function number = none
  pending : machine.pending = none

theorem Calm.of_alike {before after : Machine} (h : before.Calm) (halike : before.Alike after) :
    after.Calm where
  failures function number := by rw [halike.failures, h.failures]
  pending := by rw [halike.pending, h.pending]

/-- In a calm machine a call does its work. -/
theorem Calm.call {machine : Machine} (h : machine.Calm) {α : Type} {function : Function}
    {failed : Failure → α} {work : StateM Machine α} {entry : α → Call} {value : α}
    {done : Machine} (hwork : work machine = (value, done)) :
    ∃ after, Interface.call function failed work entry machine = (value, after) ∧
      done.Alike after := by
  refine ⟨(record (entry value) machine.pending.isSome done).2, ?_, alike_record _ _ _⟩
  rw [Interface.call_of_none (h.failures _ _), hwork]

/-! ## Reading -/

/-- The string is there and has a text. -/
def Holds (machine : Machine) (string : Handle) (text : String) : Prop :=
  ∃ bytes, machine.object? string = some (.text bytes) ∧ ModifiedUtf8.decode bytes = .ok text

theorem holds_iff {machine : Machine} {string : Handle} {text : String} :
    machine.Holds string text ↔
      machine.object? string = some (.text (ModifiedUtf8.encode text)) := by
  constructor
  · rintro ⟨bytes, hobject, hdecode⟩
    rw [hobject, ModifiedUtf8.encode_eq_of_decode hdecode]
  · exact fun hobject => ⟨_, hobject, ModifiedUtf8.decode_encode text⟩

theorem Holds.ne_null {machine : Machine} {string : Handle} {text : String}
    (h : machine.Holds string text) : string ≠ Handle.null := by
  rintro rfl
  obtain ⟨_, hobject, _⟩ := h
  cases hobject

theorem Holds.of_alike {before after : Machine} (halike : before.Alike after) {string : Handle}
    {text : String} (h : before.Holds string text) : after.Holds string text := by
  rw [holds_iff] at h ⊢
  rw [object?_congr halike.objects, h]

/-- A string is read as its text. -/
theorem Calm.stringRead {machine : Machine} (h : machine.Calm) {string : Handle} {text : String}
    (hholds : machine.Holds string text) :
    ∃ after, StringRead string machine (.ok (some text)) after ∧ machine.Alike after := by
  have hchars : Interface.stringChars? machine string = some (ModifiedUtf8.encode text) := by
    rw [Interface.stringChars?, holds_iff.mp hholds]
    exact congrArg some (ModifiedUtf8.takeWhile_encode text)
  obtain ⟨given, hgiven, halike⟩ :
      ∃ after, Interface.getStringChars string machine =
        (some (ModifiedUtf8.encode text), after) ∧ machine.Alike after :=
    h.call (Prod.ext hchars rfl)
  refine ⟨_, .text hholds.ne_null hgiven (ModifiedUtf8.decode_encode text), ?_⟩
  exact halike.trans (alike_record _ _ given)

/-- The reference is null or a string with a text. -/
def HoldsItem (machine : Machine) (item : Handle) : Option String → Prop
  | none => item = Handle.null
  | some text => machine.Holds item text

theorem HoldsItem.of_alike {before after : Machine} (halike : before.Alike after) {item : Handle}
    {text : Option String} (h : before.HoldsItem item text) : after.HoldsItem item text := by
  cases text with
  | none => exact h
  | some text => exact Holds.of_alike halike h

/-- The array is there, and its items are null or strings, with their texts in order. -/
def HoldsAll (machine : Machine) (array : Handle) (texts : List (Option String)) : Prop :=
  ∃ items, machine.object? array = some (.array items) ∧
    List.Forall₂ machine.HoldsItem items.toList texts

theorem HoldsAll.of_alike {before after : Machine} (halike : before.Alike after)
    {array : Handle} {texts : List (Option String)} (h : before.HoldsAll array texts) :
    after.HoldsAll array texts := by
  obtain ⟨items, harray, hitems⟩ := h
  refine ⟨items, ?_, hitems.imp fun _ _ hitem => hitem.of_alike halike⟩
  rw [object?_congr halike.objects, harray]

theorem Calm.getElement {machine : Machine} (h : machine.Calm) {array : Handle}
    {items : Array Handle} (harray : machine.object? array = some (.array items)) {index : Nat}
    {item : Handle} (hitem : items[index]? = some item) :
    ∃ after, Interface.getElement array index machine = (item, after) ∧ machine.Alike after := by
  obtain ⟨hlt, hget⟩ := Array.getElem?_eq_some_iff.mp hitem
  have hload : Interface.loadItem array index machine = (item, machine) := by
    rw [Interface.loadItem_of_some (Interface.position?_eq_some.mpr ⟨harray, hlt, rfl⟩)]
    simp [hlt, hget]
  exact h.call hload

theorem Calm.exceptionCheck {machine : Machine} (h : machine.Calm) :
    ∃ after, Interface.exceptionCheck machine = (answerFalse, after) ∧ machine.Alike after := by
  apply h.call
  rw [bind_apply, get_apply, h.pending]
  rfl

/-- An item is read as what it holds. -/
theorem Calm.elementRead {machine : Machine} (h : machine.Calm) {array : Handle}
    {items : Array Handle} (harray : machine.object? array = some (.array items)) {index : Nat}
    {item : Handle} (hitem : items[index]? = some item) {text : Option String}
    (hholds : machine.HoldsItem item text) :
    ∃ after, ElementRead array index machine (.ok text) after ∧ machine.Alike after := by
  obtain ⟨fetched, hfetch, hfetched⟩ := h.getElement harray hitem
  obtain ⟨checked, hcheck, hchecked⟩ := (h.of_alike hfetched).exceptionCheck
  have halike := hfetched.trans hchecked
  cases text with
  | none =>
      refine ⟨_, .unreported hfetch hcheck (.null hholds), ?_⟩
      exact halike.trans (alike_release item checked)
  | some text =>
      obtain ⟨read, hread, hlast⟩ := (h.of_alike halike).stringRead (hholds.of_alike halike)
      refine ⟨_, .unreported hfetch hcheck hread, ?_⟩
      exact (halike.trans hlast).trans (alike_release item read)

/-- Items are read as what they hold, one after another. -/
theorem Calm.elementsRead {machine : Machine} (h : machine.Calm) {array : Handle}
    {items : Array Handle} (harray : machine.object? array = some (.array items)) {index : Nat}
    {rest : List Handle} (hrest : items.toList.drop index = rest) {texts : List (Option String)}
    (hholds : List.Forall₂ machine.HoldsItem rest texts) :
    ∃ after, ElementsRead array index machine texts after ∧ machine.Alike after := by
  induction texts generalizing machine index rest with
  | nil => exact ⟨machine, .nil, rfl, rfl, rfl⟩
  | cons text texts ih =>
      cases hholds with
      | @cons item _ more _ hhead htail =>
          have hitem : items[index]? = some item := by
            rw [← Array.getElem?_toList, ← List.head?_drop, hrest]
            rfl
          have hmore : items.toList.drop (index + 1) = more := by
            rw [← List.tail_drop, hrest]
            rfl
          obtain ⟨middle, hread, halike⟩ := h.elementRead harray hitem hhead
          rw [← object?_congr halike.objects] at harray
          obtain ⟨after, hnext, hlast⟩ := ih (h.of_alike halike) harray hmore
            (htail.imp fun _ _ hitem => hitem.of_alike halike)
          exact ⟨after, .cons hread hnext, halike.trans hlast⟩

/-- An array of strings is read as what it holds. -/
theorem Calm.arrayRead {machine : Machine} (h : machine.Calm) {array : Handle}
    {texts : List (Option String)} (hholds : machine.HoldsAll array texts) :
    ∃ after, ArrayRead array machine texts after ∧ machine.Alike after := by
  obtain ⟨items, harray, hitems⟩ := hholds
  have hnull : array ≠ Handle.null := by
    rintro rfl
    cases harray
  have hlength : Interface.arrayLength machine array = items.size := by
    rw [Interface.arrayLength, harray]
  obtain ⟨counted, hcounted, halike⟩ :
      ∃ after, Interface.getArrayLength array machine = (↑items.size, after) ∧
        machine.Alike after :=
    h.call (Prod.ext hlength rfl)
  rw [← object?_congr halike.objects] at harray
  obtain ⟨after, hread, hlast⟩ := (h.of_alike halike).elementsRead harray List.drop_zero
    (hitems.imp fun _ _ hitem => hitem.of_alike halike)
  refine ⟨after, ⟨hnull, items.size, counted, hcounted, ?_, hread⟩, halike.trans hlast⟩
  rw [← hitems.length_eq, Array.length_toList, Int.toNat_natCast]

/-! ## Making -/

theorem object?_succ (machine : Machine) (position : Nat) :
    machine.object? (position + 1) = machine.objects.toList[position]? :=
  Array.getElem?_toList.symm

/-- The machine is calm and has these objects, in the order in which they were made. -/
structure CalmWith (objects : List Object) (machine : Machine) : Prop where
  calm : machine.Calm
  objects : machine.objects.toList = objects

theorem CalmWith.of_alike {objects : List Object} {before after : Machine}
    (h : CalmWith objects before) (halike : before.Alike after) : CalmWith objects after :=
  ⟨h.calm.of_alike halike, by rw [halike.objects, h.objects]⟩

/-- A new object comes after all that were there. -/
theorem CalmWith.allocate {objects : List Object} {machine : Machine}
    (h : CalmWith objects machine) (object : Object) :
    ∃ after, Machine.allocate object machine = (objects.length + 1, after) ∧
      CalmWith (objects ++ [object]) after := by
  refine ⟨{ machine with objects := machine.objects.push object }, ?_, ⟨h.calm.failures,
    h.calm.pending⟩, ?_⟩
  · rw [← h.objects, Array.length_toList]
    rfl
  · rw [Array.toList_push, h.objects]

theorem CalmWith.newString {objects : List Object} {machine : Machine}
    (h : CalmWith objects machine) (text : String) :
    ∃ after, Machine.newString text machine = (.ok (objects.length + 1), after) ∧
      CalmWith (objects ++ [.text (ModifiedUtf8.encode text)]) after := by
  obtain ⟨made, hallocate, hmade⟩ := h.allocate (.text (ModifiedUtf8.encode text))
  obtain ⟨after, hcall, halike⟩ :
      ∃ after, Interface.newString (ModifiedUtf8.encode text) machine =
        (objects.length + 1, after) ∧ made.Alike after :=
    h.calm.call hallocate
  refine ⟨after, ?_, hmade.of_alike halike⟩
  simp only [Machine.newString_eq, Attempt.bind_apply, Attempt.lift_apply, hcall]
  rfl

/-- An item of an array is replaced, and nothing else is. -/
theorem CalmWith.setElement {front back : List Object} {items : Array Handle}
    {machine : Machine} (h : CalmWith (front ++ .array items :: back) machine) {index : Nat}
    (hlt : index < items.size) (value : Handle) :
    ∃ after, Interface.setElement (front.length + 1) index value machine = ((), after) ∧
      CalmWith (front ++ .array (items.setIfInBounds index value) :: back) after := by
  have harray : machine.object? (front.length + 1) = some (.array items) := by
    rw [object?_succ, h.objects]
    simp
  have hstore : Interface.storeItem (front.length + 1) index value machine =
      ((), Interface.setItems machine (front.length + 1) (items.setIfInBounds index value)) := by
    simp only [Interface.storeItem, bind_apply, get_apply,
      Interface.position?_eq_some.mpr ⟨harray, hlt, rfl⟩]
    rfl
  have hset : CalmWith (front ++ .array (items.setIfInBounds index value) :: back)
      (Interface.setItems machine (front.length + 1) (items.setIfInBounds index value)) := by
    refine ⟨⟨h.calm.failures, h.calm.pending⟩, ?_⟩
    simp [Interface.setItems, h.objects]
  obtain ⟨after, hcall, halike⟩ := h.calm.call hstore
  exact ⟨after, hcall, hset.of_alike halike⟩

/-- One turn of filling an array: a new string, which goes to the first place that is empty. -/
theorem CalmWith.fillNext {front back : List Object} {filled empty : List Handle}
    {machine : Machine}
    (h : CalmWith (front ++ .array (filled ++ Handle.null :: empty).toArray :: back) machine)
    (text : String) :
    let string := front.length + back.length + 2
    ∃ written after, Machine.newString text machine = (.ok string, written) ∧
      holding string (liftM (Interface.setElement (front.length + 1) filled.length string) :
        Attempt Error Machine Unit) written = (.ok (), after) ∧
      CalmWith (front ++ .array (filled ++ string :: empty).toArray ::
        (back ++ [.text (ModifiedUtf8.encode text)])) after := by
  intro string
  have hstring : (front ++ .array (filled ++ Handle.null :: empty).toArray :: back).length + 1 =
      string := by
    simp only [string, List.length_append, List.length_cons]
    omega
  obtain ⟨written, hmade, hwritten⟩ := h.newString text
  rw [hstring] at hmade
  rw [List.append_assoc, List.cons_append] at hwritten
  obtain ⟨stored, hstore, hstored⟩ :=
    hwritten.setElement (show filled.length < _ by simp) string
  have hitems : (filled ++ Handle.null :: empty).toArray.setIfInBounds filled.length string =
      (filled ++ string :: empty).toArray := by
    simp
  rw [hitems] at hstored
  refine ⟨written, (release string stored).2, hmade, ?_, hstored.of_alike (alike_release _ _)⟩
  rw [holding, Attempt.ensuring_apply, Attempt.lift_apply, hstore]

/-- New strings go into an array from the first place that is empty on. -/
theorem CalmWith.fillArray {front back : List Object} (filled : List Handle)
    (texts : List String) {machine : Machine}
    (h : CalmWith (front ++
      .array (filled ++ List.replicate texts.length Handle.null).toArray :: back) machine) :
    ∃ after, Machine.fillArray (front.length + 1) filled.length texts machine = (.ok (), after) ∧
      CalmWith (front ++
        .array (filled ++ List.range' (front.length + back.length + 2) texts.length).toArray ::
          (back ++ texts.map fun text => .text (ModifiedUtf8.encode text))) after := by
  induction texts generalizing machine filled back with
  | nil => exact ⟨machine, rfl, by simpa using h⟩
  | cons text texts ih =>
      rw [List.length_cons, List.replicate_succ] at h
      obtain ⟨written, stored, hmade, hstore, hstored⟩ := h.fillNext text
      rw [List.append_cons filled] at hstored
      obtain ⟨after, hfill, hafter⟩ := ih _ hstored
      refine ⟨after, ?_, ?_⟩
      · rw [Machine.fillArray, Attempt.bind_of_ok hmade, Attempt.bind_of_ok hstore, ← hfill,
          List.length_append, List.length_singleton]
      · rw [List.length_append, List.append_assoc, List.append_assoc] at hafter
        exact hafter

theorem CalmWith.findStringClass {objects : List Object} {machine : Machine}
    (h : CalmWith objects machine) :
    ∃ after, findClass? stringClass machine = (some (objects.length + 1), after) ∧
      CalmWith (objects ++ [.type stringClass]) after := by
  obtain ⟨made, hallocate, hmade⟩ := h.allocate (.type stringClass)
  obtain ⟨after, hcall, halike⟩ :
      ∃ after, Interface.findClass stringClass machine = (objects.length + 1, after) ∧
        made.Alike after :=
    h.calm.call hallocate
  refine ⟨after, ?_, hmade.of_alike halike⟩
  rw [findClass?_apply (by decide), hcall]
  rfl

theorem CalmWith.newObjectArray {objects : List Object} {machine : Machine}
    (h : CalmWith objects machine) (length : Nat) (type : Handle) :
    ∃ after, Interface.newObjectArray length type Handle.null machine =
        (objects.length + 1, after) ∧
      CalmWith (objects ++ [.array (List.replicate length Handle.null).toArray]) after := by
  obtain ⟨made, hallocate, hmade⟩ :=
    h.allocate (.array (List.replicate length Handle.null).toArray)
  have hwork : Interface.allocateArray length Handle.null machine =
      (objects.length + 1, made) := by
    rw [Interface.allocateArray, if_neg (Int.not_lt.mpr (Int.natCast_nonneg length)),
      Int.toNat_natCast, ← List.toArray_replicate, hallocate]
  obtain ⟨after, hcall, halike⟩ := h.calm.call hwork
  exact ⟨after, hcall, hmade.of_alike halike⟩

/-- A new array of strings: the class of strings, the array with references to all that follows, and
the strings in order. -/
theorem CalmWith.newStringArray {objects : List Object} {machine : Machine}
    (h : CalmWith objects machine) {texts : List String} (hfit : texts.length ≤ maxArrayLength) :
    ∃ after, Machine.newStringArray texts machine = (.ok (objects.length + 2), after) ∧
      CalmWith (objects ++ .type stringClass ::
        .array (List.range' (objects.length + 3) texts.length).toArray ::
          texts.map fun text => .text (ModifiedUtf8.encode text)) after := by
  obtain ⟨found, hclass, hfound⟩ := h.findStringClass
  obtain ⟨made, harray, hmade⟩ := hfound.newObjectArray texts.length (objects.length + 1)
  obtain ⟨filled, hfill, hfilled⟩ := CalmWith.fillArray [] texts hmade
  rw [List.length_append, List.length_singleton] at harray hfill hfilled
  rw [List.length_nil] at hfill
  have hnull : objects.length + 1 + 1 ≠ Handle.null := Nat.succ_ne_zero _
  refine ⟨(release (objects.length + 1) filled).2, ?_, ?_⟩
  · simp only [Machine.newStringArray, if_neg (Nat.not_lt.mpr hfit), Attempt.bind_apply,
      Attempt.lift_apply, hclass, holding, Attempt.ensuring_apply, harray, if_neg hnull, hfill]
    rfl
  · rw [List.append_assoc] at hfilled
    exact hfilled.of_alike (alike_release _ filled)

end LauncherOptions.Machine
