import LauncherOptions.Proofs.Machine.Calls
import LauncherOptions.Proofs.Machine.Custody.Basic
import LauncherOptions.Proofs.Machine.Reading

/-! # Reading an array keeps nothing

For each element, reading obtains a reference and perhaps the characters of a string, and gives both
back before it looks at the next element. So the calls for an element begin and end with nothing in
hand (`Settled`), whichever way its reading ends, and such stretches of calls can follow each other
(`Settled.append`). Main statement: reading an array gives back all that it obtained, in order, and
looks at the elements from the first to the one that cannot be read (`readStringArray_settled`).
-/

namespace LauncherOptions

namespace Custody

/-- Calls that begin and end with nothing in hand. -/
structure Settled (lent : List Handle) (calls : List Call) : Prop where
  /-- No call is out of order, and nothing is held at the end. -/
  balanced : afterAll? lent {} calls = some {}
  /-- Nothing is held when an element is fetched. -/
  clear : ∀ front array index element back,
    calls = front ++ .getElement array index element :: back → afterAll? lent {} front = some {}
  /-- References are given back one by one as they are obtained. -/
  deleted : calls.filterMap Call.deleted? = calls.filterMap Call.obtained?
  /-- The characters of strings are given back one by one as they are obtained. -/
  closed : calls.filterMap Call.closed? = calls.filterMap Call.opened?

theorem settled_nil (lent : List Handle) : Settled lent [] where
  balanced := rfl
  clear := by
    intro front array index element back hcalls
    cases front <;> cases hcalls
  deleted := rfl
  closed := rfl

theorem Settled.append {lent : List Handle} {calls more : List Call} (h : Settled lent calls)
    (hmore : Settled lent more) : Settled lent (calls ++ more) where
  balanced := by rw [afterAll?_append_of_some h.balanced, hmore.balanced]
  clear := by
    intro front array index element back hcalls
    rcases List.append_eq_append_iff.mp hcalls with ⟨rest, rfl, hrest⟩ | ⟨rest, hrest, hback⟩
    · rw [afterAll?_append_of_some h.balanced]
      exact hmore.clear rest array index element back hrest
    · cases rest with
      | nil =>
          rw [List.append_nil] at hrest
          rw [← hrest, h.balanced]
      | cons call rest =>
          cases hback
          exact h.clear front array index element rest hrest
  deleted := by rw [List.filterMap_append, List.filterMap_append, h.deleted, hmore.deleted]
  closed := by rw [List.filterMap_append, List.filterMap_append, h.closed, hmore.closed]

end Custody

namespace Machine

open Custody

/-! ## One element -/

/-- The calls for one element of an array, by what comes of them. -/
inductive ElementCalls (array : Handle) (index : Nat) : Handle → List Call → Prop
  | null (answer : Nat) :
      ElementCalls array index Handle.null
        [.getElement array index Handle.null, .exceptionCheck answer]
  /-- The machine reports an exception, so the string is not looked at. -/
  | reported {element : Handle} (helement : element ≠ Handle.null) (answer : Nat) :
      ElementCalls array index element
        [.getElement array index element, .exceptionCheck answer, .deleteLocalRef element]
  /-- The machine does not give the characters. -/
  | unavailable {element : Handle} (helement : element ≠ Handle.null) :
      ElementCalls array index element
        [.getElement array index element, .exceptionCheck answerFalse,
          .getStringChars element false, .deleteLocalRef element]
  /-- The characters are given, whether they are those of a text or not. -/
  | given {element : Handle} (helement : element ≠ Handle.null) :
      ElementCalls array index element
        [.getElement array index element, .exceptionCheck answerFalse,
          .getStringChars element true, .releaseStringChars element, .deleteLocalRef element]

theorem made_fetch {array element : Handle} {index answer : Nat}
    {machine fetched checked : Machine}
    (hfetch : Interface.getElement array index machine = (element, fetched))
    (hcheck : Interface.exceptionCheck fetched = (answer, checked)) :
    Made machine [.getElement array index element, .exceptionCheck answer] checked :=
  (Interface.made_call (Interface.loadItem_calls array index machine) hfetch).trans
    (Interface.made_call rfl hcheck)

theorem made_getStringChars {string : Handle} {chars : Option (List UInt8)}
    {machine given : Machine} (h : Interface.getStringChars string machine = (chars, given)) :
    Made machine [.getStringChars string chars.isSome] given := by
  have hmade := Interface.made_call rfl h
  exact hmade

theorem ElementRead.made {array : Handle} {index : Nat} {machine after : Machine}
    {result : Except Error (Option String)} (h : ElementRead array index machine result after) :
    ∃ calls, ElementCalls array index (Interface.getElement array index machine).1 calls ∧
      Made machine calls after := by
  cases h with
  | @reported element answer _ _ hfetch hcheck hanswer =>
      rw [hfetch]
      by_cases helement : element = Handle.null
      · subst helement
        exact ⟨_, .null answer, made_fetch hfetch hcheck⟩
      · exact ⟨_, .reported helement answer,
          (made_fetch hfetch hcheck).trans (made_release helement _)⟩
  | @unreported element _ _ _ _ hfetch hcheck hread =>
      have hmade := made_fetch hfetch hcheck
      rw [hfetch]
      cases hread with
      | null helement =>
          subst helement
          exact ⟨_, .null answerFalse, hmade⟩
      | unavailable helement hchars =>
          exact ⟨_, .unavailable helement,
            (hmade.trans (made_getStringChars hchars)).trans (made_release helement _)⟩
      | undecodable helement hchars =>
          exact ⟨_, .given helement,
            ((hmade.trans (made_getStringChars hchars)).trans (made_record rfl)).trans
              (made_release helement _)⟩
      | text helement hchars =>
          exact ⟨_, .given helement,
            ((hmade.trans (made_getStringChars hchars)).trans (made_record rfl)).trans
              (made_release helement _)⟩

section

variable {array element : Handle} {index : Nat} {calls : List Call}

/-- The element is fetched first and not again. -/
theorem ElementCalls.fetched (h : ElementCalls array index element calls) :
    ∃ rest, calls = .getElement array index element :: rest ∧
      rest.filterMap Call.fetched? = [] := by
  cases h <;> exact ⟨_, rfl, rfl⟩

theorem ElementCalls.obtained (h : ElementCalls array index element calls) :
    calls.filterMap Call.obtained? = element.nonNull?.toList := by
  cases h with
  | null => rfl
  | reported helement => simp [Handle.nonNull?_of_ne helement]
  | unavailable helement => simp [Handle.nonNull?_of_ne helement]
  | given helement => simp [Handle.nonNull?_of_ne helement]

theorem ElementCalls.deleted (h : ElementCalls array index element calls) :
    calls.filterMap Call.deleted? = element.nonNull?.toList := by
  cases h with
  | null => rfl
  | reported helement => rw [Handle.nonNull?_of_ne helement]; rfl
  | unavailable helement => rw [Handle.nonNull?_of_ne helement]; rfl
  | given helement => rw [Handle.nonNull?_of_ne helement]; rfl

theorem ElementCalls.afterAll? (h : ElementCalls array index element calls) :
    Custody.afterAll? [array] {} calls = some {} := by
  cases h with
  | null => simp [after?, usable]
  | reported helement => simp [after?, usable, Handle.nonNull?_of_ne helement]
  | unavailable helement => simp [after?, usable, Handle.nonNull?_of_ne helement]
  | given helement => simp [after?, usable, Handle.nonNull?_of_ne helement]

theorem ElementCalls.settled (h : ElementCalls array index element calls) :
    Settled [array] calls where
  balanced := h.afterAll?
  clear := by
    intro front other place found back hcalls
    obtain ⟨rest, rfl, hrest⟩ := h.fetched
    cases front with
    | nil => rfl
    | cons call front =>
        cases hcalls
        simp at hrest
  deleted := by rw [h.deleted, h.obtained]
  closed := by cases h <;> rfl

end

/-! ## Arrays -/

/-- The reference is an item of the array. -/
def IsItem (machine : Machine) (array reference : Handle) : Prop :=
  ∃ items, machine.object? array = some (.array items) ∧ reference ∈ items

theorem IsItem.congr {machine other : Machine} (h : other.objects = machine.objects)
    {array reference : Handle} (hitem : other.IsItem array reference) :
    machine.IsItem array reference := by
  obtain ⟨items, harray, hmem⟩ := hitem
  rw [object?_congr h] at harray
  exact ⟨items, harray, hmem⟩

/-- Calls that begin and end with nothing in hand and fetch `count` elements of an array, one after
another from `first` on. -/
structure Traversal (machine : Machine) (array : Handle) (first count : Nat)
    (calls : List Call) : Prop where
  settled : Settled [array] calls
  fetched : calls.filterMap Call.fetched? =
    (List.range' first count).map fun index : Nat => (array, (index : Int))
  /-- What is obtained is items of the array. -/
  items : ∀ reference ∈ calls.filterMap Call.obtained?, machine.IsItem array reference

theorem traversal_nil (machine : Machine) (array : Handle) (first : Nat) :
    Traversal machine array first 0 [] where
  settled := settled_nil [array]
  fetched := rfl
  items := fun _ hmem => absurd hmem List.not_mem_nil

theorem Traversal.append {machine other : Machine} (hobjects : other.objects = machine.objects)
    {array : Handle} {first count more : Nat} {calls later : List Call}
    (h : Traversal machine array first count calls)
    (hlater : Traversal other array (first + count) more later) :
    Traversal machine array first (count + more) (calls ++ later) where
  settled := h.settled.append hlater.settled
  fetched := by
    rw [List.filterMap_append, h.fetched, hlater.fetched, ← List.map_append, List.range'_append_1]
  items := by
    intro reference hmem
    rw [List.filterMap_append] at hmem
    rcases List.mem_append.mp hmem with hfirst | hrest
    · exact h.items reference hfirst
    · exact (hlater.items reference hrest).congr hobjects

theorem ElementRead.traversal {array : Handle} {index : Nat} {machine after : Machine}
    {result : Except Error (Option String)} (h : ElementRead array index machine result after) :
    ∃ calls, Made machine calls after ∧ Traversal machine array index 1 calls := by
  obtain ⟨calls, hcalls, hmade⟩ := h.made
  refine ⟨calls, hmade, hcalls.settled, ?_, ?_⟩
  · obtain ⟨rest, rfl, hrest⟩ := hcalls.fetched
    have hfirst : ∀ element, Call.fetched? (.getElement array index element) =
        some (array, (index : Int)) := fun _ => rfl
    rw [List.filterMap_cons_some (hfirst _), hrest]
    rfl
  · intro reference hmem
    rw [hcalls.obtained, Option.mem_toList, Handle.nonNull?] at hmem
    split at hmem
    next => cases hmem
    next helement =>
      cases hmem
      obtain ⟨items, harray, hitem⟩ := Interface.getElement_item helement
      exact ⟨items, harray, Array.mem_of_getElem? hitem⟩

theorem ElementsRead.traversal {array : Handle} {index : Nat} {machine after : Machine}
    {texts : List (Option String)} (h : ElementsRead array index machine texts after) :
    ∃ calls, Made machine calls after ∧ Traversal machine array index texts.length calls := by
  induction h with
  | nil => exact ⟨[], made_nil rfl, traversal_nil _ array _⟩
  | @cons _ _ _ _ _ texts hread _ ih =>
      obtain ⟨calls, hmade, hcalls⟩ := hread.traversal
      obtain ⟨later, hlater, hrest⟩ := ih
      refine ⟨calls ++ later, hmade.trans hlater, ?_⟩
      rw [List.length_cons, Nat.add_comm]
      exact hcalls.append hread.objects hrest

theorem getArrayLength_traversal {array : Handle} {machine counted : Machine} {length : Int}
    (h : Interface.getArrayLength array machine = (length, counted)) :
    Made machine [.getArrayLength array length] counted ∧
      Traversal machine array 0 0 [.getArrayLength array length] := by
  refine ⟨Interface.made_call rfl h, ⟨?_, ?_, rfl, rfl⟩, rfl, ?_⟩
  · simp [after?, usable]
  · intro front other index element back hcalls
    have hmem : Call.getElement other index element ∈ [Call.getArrayLength array length] := by
      rw [hcalls]
      exact List.mem_append_right front List.mem_cons_self
    cases List.mem_singleton.mp hmem
  · intro reference hmem
    cases hmem

/-- The array is asked for its length, and its first elements are read. -/
theorem ElementsRead.traversal_of_length {array : Handle} {machine counted reached : Machine}
    {length : Int} {texts : List (Option String)}
    (h : ElementsRead array 0 counted texts reached)
    (hlength : Interface.getArrayLength array machine = (length, counted)) :
    reached.objects = machine.objects ∧
      ∃ calls, Made machine calls reached ∧ Traversal machine array 0 texts.length calls := by
  have hobjects := Interface.getArrayLength_objects array machine
  rw [hlength] at hobjects
  obtain ⟨hasked, hstart⟩ := getArrayLength_traversal hlength
  obtain ⟨calls, hmade, hcalls⟩ := h.traversal
  have htraversal := hstart.append hobjects hcalls
  rw [Nat.zero_add] at htraversal
  exact ⟨h.objects.trans hobjects, _, hasked.trans hmade, htraversal⟩

/-- A lent array that is not an item of its own is not given back. -/
theorem Traversal.not_mem_deleted {machine : Machine} {array : Handle} {first count : Nat}
    {calls : List Call} (h : Traversal machine array first count calls)
    (hitem : ¬machine.IsItem array array) : array ∉ calls.filterMap Call.deleted? := by
  rw [h.settled.deleted]
  exact fun hmem => hitem (h.items array hmem)

/-- Reading an array keeps nothing, whatever the array holds and whatever call fails: each reference
and the characters of each string are given back once, in order, with the characters before the
string and both before the next element is fetched. The array that the caller lent is not given
back (an item that happens to be the array itself is, as the item that was obtained). Elements are
fetched from the first on, all of them if reading succeeds, and otherwise none after the one that
cannot be read. -/
theorem readStringArray_settled (array : Handle) (machine : Machine) :
    ∃ calls count, Made machine calls (readStringArray array machine).2 ∧
      Traversal machine array 0 count calls ∧
      (¬machine.IsItem array array → array ∉ calls.filterMap Call.deleted?) ∧
      match readStringArray array machine with
      | (.ok texts, after) => ArrayRead array machine texts after ∧ count = texts.length
      | (.error error, after) =>
        (array = Handle.null ∧ error = .invalidArgument .nullArray ∧ calls = []) ∨
        ∃ length counted texts reached,
          Interface.getArrayLength array machine = (length, counted) ∧
          ElementsRead array 0 counted texts reached ∧
          ElementRead array texts.length reached (.error error) after ∧
          count = texts.length + 1 := by
  rcases exists_arrayRead array machine with ⟨texts, after, hread⟩ | ⟨error, after, hrefused⟩
  · rw [hread.eq]
    obtain ⟨length, counted, hlength, _, helements⟩ := hread.2
    obtain ⟨_, calls, hmade, hcalls⟩ := helements.traversal_of_length hlength
    exact ⟨calls, texts.length, hmade, hcalls, hcalls.not_mem_deleted, hread, rfl⟩
  · rw [hrefused.eq]
    cases hrefused with
    | null harray =>
        exact ⟨[], 0, made_nil rfl, traversal_nil machine array 0, fun _ => List.not_mem_nil,
          .inl ⟨harray, rfl, rfl⟩⟩
    | @element length counted reached _ texts _ _ hlength hread _ hfails =>
        obtain ⟨hobjects, calls, hmade, hcalls⟩ := hread.traversal_of_length hlength
        obtain ⟨last, hlast, hfailed⟩ := hfails.traversal
        rw [← Nat.zero_add texts.length] at hfailed
        have htraversal := hcalls.append hobjects hfailed
        exact ⟨calls ++ last, texts.length + 1, hmade.trans hlast, htraversal,
          htraversal.not_mem_deleted,
          .inr ⟨length, counted, texts, reached, hlength, hread, hfails, rfl⟩⟩

end Machine

end LauncherOptions
