import LauncherOptions.Proofs.Machine.Interface

/-! # Reading strings and arrays of strings

The ways in which reading can end, each with what the machine answers to the calls on the way:
`StringRead` for a string, `ElementRead` for an element of an array, `ArrayRead` and `ArrayRefused`
for an array as a whole. Reading an array ends in exactly these ways
(`readStringArray_eq_ok_iff`, `readStringArray_eq_error_iff`), in any machine, whatever its plan
lets fail. An array is refused for the first of its elements that cannot be read; no reading changes
an object, and a text that is read is that of the item at its place.
-/

namespace LauncherOptions.Machine

/-! ## Strings -/

/-- The ways in which reading a string can end. -/
inductive StringRead (string : Handle) (machine : Machine) :
    Except Error (Option String) → Machine → Prop
  | null (hstring : string = Handle.null) : StringRead string machine (.ok none) machine
  /-- The machine does not give the characters. -/
  | unavailable {after : Machine} (hstring : string ≠ Handle.null)
      (hchars : Interface.getStringChars string machine = (none, after)) :
      StringRead string machine (.error (.marshal .charactersUnavailable)) after
  | undecodable {bytes : List UInt8} {given : Machine} {fault : ModifiedUtf8.Fault}
      (hstring : string ≠ Handle.null)
      (hchars : Interface.getStringChars string machine = (some bytes, given))
      (hdecode : ModifiedUtf8.decode bytes = .error fault) :
      StringRead string machine (.error (.marshal (.undecodable fault)))
        (Interface.releaseStringChars string given).2
  | text {bytes : List UInt8} {given : Machine} {text : String}
      (hstring : string ≠ Handle.null)
      (hchars : Interface.getStringChars string machine = (some bytes, given))
      (hdecode : ModifiedUtf8.decode bytes = .ok text) :
      StringRead string machine (.ok (some text)) (Interface.releaseStringChars string given).2

theorem exists_stringRead (string : Handle) (machine : Machine) :
    ∃ result after, StringRead string machine result after := by
  by_cases hstring : string = Handle.null
  · exact ⟨_, _, .null hstring⟩
  rcases hchars : Interface.getStringChars string machine with ⟨_ | bytes, given⟩
  · exact ⟨_, _, .unavailable hstring hchars⟩
  cases hdecode : ModifiedUtf8.decode bytes with
  | error fault => exact ⟨_, _, .undecodable hstring hchars hdecode⟩
  | ok text => exact ⟨_, _, .text hstring hchars hdecode⟩

theorem StringRead.eq {string : Handle} {machine after : Machine}
    {result : Except Error (Option String)} (h : StringRead string machine result after) :
    readString string machine = (result, after) := by
  unfold readString
  cases h with
  | null hstring => rw [if_pos hstring, Attempt.pure_apply]
  | unavailable hstring hchars =>
      simp only [if_neg hstring, Attempt.bind_apply, Attempt.lift_apply, hchars]
      rfl
  | undecodable hstring hchars hdecode =>
      simp only [if_neg hstring, Attempt.bind_apply, Attempt.lift_apply, hchars, hdecode]
      rfl
  | text hstring hchars hdecode =>
      simp only [if_neg hstring, Attempt.bind_apply, Attempt.lift_apply, hchars, hdecode]
      rfl

theorem StringRead.objects {string : Handle} {machine after : Machine}
    {result : Except Error (Option String)} (h : StringRead string machine result after) :
    after.objects = machine.objects := by
  cases h with
  | null => rfl
  | unavailable _ hchars => rw [← Interface.getStringChars_objects string machine, hchars]
  | undecodable _ hchars => rw [← Interface.getStringChars_objects string machine, hchars]; rfl
  | text _ hchars => rw [← Interface.getStringChars_objects string machine, hchars]; rfl

/-! ## Elements -/

/-- The ways in which reading an element of an array can end. -/
inductive ElementRead (array : Handle) (index : Nat) (machine : Machine) :
    Except Error (Option String) → Machine → Prop
  /-- The machine reports an exception right after the element was fetched. -/
  | reported {element : Handle} {answer : Nat} {fetched checked : Machine}
      (hfetch : Interface.getElement array index machine = (element, fetched))
      (hcheck : Interface.exceptionCheck fetched = (answer, checked))
      (hanswer : answer ≠ answerFalse) :
      ElementRead array index machine (.error (.marshal (.elementUnreadable index)))
        (release element checked).2
  /-- No exception is reported, and the element is read as the string that it is. -/
  | unreported {element : Handle} {fetched checked after : Machine}
      {result : Except Error (Option String)}
      (hfetch : Interface.getElement array index machine = (element, fetched))
      (hcheck : Interface.exceptionCheck fetched = (answerFalse, checked))
      (hread : StringRead element checked result after) :
      ElementRead array index machine result (release element after).2

theorem exists_elementRead (array : Handle) (index : Nat) (machine : Machine) :
    ∃ result after, ElementRead array index machine result after := by
  rcases hfetch : Interface.getElement array index machine with ⟨element, fetched⟩
  rcases hcheck : Interface.exceptionCheck fetched with ⟨answer, checked⟩
  by_cases hanswer : answer = answerFalse
  · obtain ⟨result, after, hread⟩ := exists_stringRead element checked
    exact ⟨_, _, .unreported hfetch (hanswer ▸ hcheck) hread⟩
  · exact ⟨_, _, .reported hfetch hcheck hanswer⟩

theorem isExceptionPending_of {machine after : Machine} {answer : Nat}
    (h : Interface.exceptionCheck machine = (answer, after)) :
    isExceptionPending machine = (decide (answer ≠ answerFalse), after) := by
  rw [isExceptionPending, bind_apply, h]
  rfl

theorem ElementRead.eq {array : Handle} {index : Nat} {machine after : Machine}
    {result : Except Error (Option String)} (h : ElementRead array index machine result after) :
    readElement array index machine = (result, after) := by
  unfold readElement
  cases h with
  | reported hfetch hcheck hanswer =>
      simp only [holding, Attempt.bind_apply, Attempt.lift_apply, Attempt.ensuring_apply, hfetch,
        isExceptionPending_of hcheck, decide_eq_true hanswer, if_true, Attempt.throw_apply]
  | unreported hfetch hcheck hread =>
      simp only [holding, Attempt.bind_apply, Attempt.lift_apply, Attempt.ensuring_apply, hfetch,
        isExceptionPending_of hcheck, ne_eq, not_true, decide_false, Bool.false_eq_true, if_false,
        hread.eq]

theorem fetch_objects {array : Handle} {index : Nat} {machine fetched checked : Machine}
    {element : Handle} {answer : Nat}
    (hfetch : Interface.getElement array index machine = (element, fetched))
    (hcheck : Interface.exceptionCheck fetched = (answer, checked)) :
    checked.objects = machine.objects := by
  have hchecked := Interface.exceptionCheck_objects fetched
  have hfetched := Interface.getElement_objects array index machine
  rw [hcheck] at hchecked
  rw [hfetch] at hfetched
  exact hchecked.trans hfetched

theorem ElementRead.objects {array : Handle} {index : Nat} {machine after : Machine}
    {result : Except Error (Option String)} (h : ElementRead array index machine result after) :
    after.objects = machine.objects := by
  cases h with
  | reported hfetch hcheck =>
      exact (alike_release _ _).objects.trans (fetch_objects hfetch hcheck)
  | unreported hfetch hcheck hread =>
      exact (alike_release _ _).objects.trans (hread.objects.trans (fetch_objects hfetch hcheck))

/-- The item of an array at a place is a string with a text. -/
def ItemText (machine : Machine) (array : Handle) (index : Nat) (text : String) : Prop :=
  ∃ items element bytes, machine.object? array = some (.array items) ∧
    items[index]? = some element ∧ machine.object? element = some (.text bytes) ∧
    ModifiedUtf8.decode (bytes.takeWhile (· ≠ 0)) = .ok text

theorem ItemText.congr {machine other : Machine} (h : other.objects = machine.objects)
    {array : Handle} {index : Nat} {text : String} (hitem : other.ItemText array index text) :
    machine.ItemText array index text := by
  obtain ⟨items, element, bytes, harray, hitems, helement, hdecode⟩ := hitem
  rw [object?_congr h] at harray helement
  exact ⟨items, element, bytes, harray, hitems, helement, hdecode⟩

theorem stringChars?_eq_some {machine : Machine} {string : Handle} {chars : List UInt8}
    (h : Interface.stringChars? machine string = some chars) :
    ∃ bytes, machine.object? string = some (.text bytes) ∧
      bytes.takeWhile (· ≠ 0) = chars := by
  unfold Interface.stringChars? at h
  split at h
  next bytes hobject => exact ⟨bytes, hobject, Option.some.inj h⟩
  next => cases h

/-- A text that is read from an element is that of the item. -/
theorem ElementRead.itemText {array : Handle} {index : Nat} {machine after : Machine}
    {text : String} (h : ElementRead array index machine (.ok (some text)) after) :
    machine.ItemText array index text := by
  cases h with
  | unreported hfetch hcheck hread =>
      cases hread with
      | text hstring hchars hdecode =>
          have hobjects := fetch_objects hfetch hcheck
          obtain ⟨items, harray, hitem⟩ :=
            Interface.getElement_item (by rw [hfetch]; exact hstring)
          obtain ⟨bytes, hobject, hbytes⟩ :=
            stringChars?_eq_some (Interface.getStringChars_some (congrArg Prod.fst hchars))
          rw [hfetch] at hitem
          rw [object?_congr hobjects] at hobject
          exact ⟨items, _, bytes, harray, hitem, hobject, hbytes ▸ hdecode⟩

/-! ## Arrays -/

/-- Elements of an array are read as texts one after another, the first of them at `index`. -/
inductive ElementsRead (array : Handle) :
    Nat → Machine → List (Option String) → Machine → Prop
  | nil {index : Nat} {machine : Machine} : ElementsRead array index machine [] machine
  | cons {index : Nat} {machine middle after : Machine} {text : Option String}
      {texts : List (Option String)} (hread : ElementRead array index machine (.ok text) middle)
      (hrest : ElementsRead array (index + 1) middle texts after) :
      ElementsRead array index machine (text :: texts) after

/-- All elements of an array are read: as many as the machine says that there are. -/
def ArrayRead (array : Handle) (machine : Machine) (texts : List (Option String))
    (after : Machine) : Prop :=
  array ≠ Handle.null ∧ ∃ length counted,
    Interface.getArrayLength array machine = (length, counted) ∧
      texts.length = length.toNat ∧ ElementsRead array 0 counted texts after

/-- The ways in which an array can be refused. -/
inductive ArrayRefused (array : Handle) (machine : Machine) : Error → Machine → Prop
  | null (harray : array = Handle.null) :
      ArrayRefused array machine (.invalidArgument .nullArray) machine
  /-- One of its elements cannot be read, and all those before it can. -/
  | element {length : Int} {counted reached after : Machine} {texts : List (Option String)}
      {error : Error} (harray : array ≠ Handle.null)
      (hlength : Interface.getArrayLength array machine = (length, counted))
      (hread : ElementsRead array 0 counted texts reached)
      (hfewer : texts.length < length.toNat)
      (hfails : ElementRead array texts.length reached (.error error) after) :
      ArrayRefused array machine error after

theorem ElementsRead.readElements {array : Handle} {index : Nat} {machine after : Machine}
    {texts : List (Option String)} (h : ElementsRead array index machine texts after) :
    Machine.readElements array index texts.length machine = (.ok texts, after) := by
  induction h with
  | nil => rfl
  | cons hread _ ih =>
      rw [List.length_cons, Machine.readElements, Attempt.bind_of_ok hread.eq,
        Attempt.bind_of_ok ih]
      rfl

theorem ElementsRead.readElements_error {array : Handle} {index : Nat}
    {machine reached after : Machine} {texts : List (Option String)} {error : Error}
    (h : ElementsRead array index machine texts reached)
    (hfails : ElementRead array (index + texts.length) reached (.error error) after)
    (more : Nat) :
    Machine.readElements array index (texts.length + (more + 1)) machine =
      (.error error, after) := by
  induction h with
  | nil =>
      rw [List.length_nil, Nat.zero_add, Machine.readElements]
      exact Attempt.bind_of_error hfails.eq _
  | @cons index _ _ _ _ texts hread _ ih =>
      have hnext : index + (texts.length + 1) = index + 1 + texts.length := by omega
      have hcount : texts.length + 1 + (more + 1) = texts.length + (more + 1) + 1 := by omega
      rw [List.length_cons, hnext] at hfails
      rw [List.length_cons, hcount, Machine.readElements, Attempt.bind_of_ok hread.eq,
        Attempt.bind_of_error (ih hfails)]

/-- Reading a number of elements comes to its end or to the first that cannot be read. -/
theorem exists_elementsRead (array : Handle) (index count : Nat) (machine : Machine) :
    (∃ texts after, texts.length = count ∧ ElementsRead array index machine texts after) ∨
      ∃ texts reached error after, texts.length < count ∧
        ElementsRead array index machine texts reached ∧
        ElementRead array (index + texts.length) reached (.error error) after := by
  induction count generalizing index machine with
  | zero => exact .inl ⟨[], machine, rfl, .nil⟩
  | succ count ih =>
      obtain ⟨result, middle, hread⟩ := exists_elementRead array index machine
      cases result with
      | error error =>
          exact .inr ⟨[], machine, error, middle, Nat.succ_pos count, .nil, hread⟩
      | ok text =>
          rcases ih (index + 1) middle with ⟨texts, after, hcount, hrest⟩ |
            ⟨texts, reached, error, after, hcount, hrest, hfails⟩
          · exact .inl ⟨text :: texts, after, congrArg (· + 1) hcount, .cons hread hrest⟩
          · refine .inr ⟨text :: texts, reached, error, after, Nat.succ_lt_succ hcount,
              .cons hread hrest, ?_⟩
            rwa [List.length_cons, Nat.add_comm texts.length 1, ← Nat.add_assoc]

theorem exists_arrayRead (array : Handle) (machine : Machine) :
    (∃ texts after, ArrayRead array machine texts after) ∨
      ∃ error after, ArrayRefused array machine error after := by
  by_cases harray : array = Handle.null
  · exact .inr ⟨_, _, .null harray⟩
  rcases hlength : Interface.getArrayLength array machine with ⟨length, counted⟩
  rcases exists_elementsRead array 0 length.toNat counted with ⟨texts, after, hcount, hread⟩ |
    ⟨texts, reached, error, after, hfewer, hread, hfails⟩
  · exact .inl ⟨texts, after, harray, length, counted, hlength, hcount, hread⟩
  · rw [Nat.zero_add] at hfails
    exact .inr ⟨error, after, .element harray hlength hread hfewer hfails⟩

theorem readStringArray_of_length {array : Handle} {machine counted : Machine} {length : Int}
    (harray : array ≠ Handle.null)
    (hlength : Interface.getArrayLength array machine = (length, counted)) :
    readStringArray array machine = readElements array 0 length.toNat counted := by
  simp only [readStringArray, if_neg harray, Attempt.bind_apply, Attempt.lift_apply, hlength]

theorem ArrayRead.eq {array : Handle} {machine after : Machine} {texts : List (Option String)}
    (h : ArrayRead array machine texts after) :
    readStringArray array machine = (.ok texts, after) := by
  obtain ⟨harray, length, counted, hlength, hcount, hread⟩ := h
  rw [readStringArray_of_length harray hlength, ← hcount, hread.readElements]

theorem ArrayRefused.eq {array : Handle} {machine after : Machine} {error : Error}
    (h : ArrayRefused array machine error after) :
    readStringArray array machine = (.error error, after) := by
  cases h with
  | null harray =>
      rw [readStringArray, if_pos harray]
      rfl
  | @element length _ _ _ texts _ harray hlength hread hfewer hfails =>
      obtain ⟨more, hmore⟩ := Nat.exists_eq_add_of_lt hfewer
      rw [readStringArray_of_length harray hlength, hmore]
      rw [← Nat.zero_add texts.length] at hfails
      exact hread.readElements_error hfails more

theorem readStringArray_eq_ok_iff {array : Handle} {machine after : Machine}
    {texts : List (Option String)} :
    readStringArray array machine = (.ok texts, after) ↔ ArrayRead array machine texts after := by
  refine ⟨fun h => ?_, ArrayRead.eq⟩
  rcases exists_arrayRead array machine with ⟨found, final, hread⟩ | ⟨error, final, hrefused⟩
  · cases hread.eq.symm.trans h
    exact hread
  · cases hrefused.eq.symm.trans h

theorem readStringArray_eq_error_iff {array : Handle} {machine after : Machine} {error : Error} :
    readStringArray array machine = (.error error, after) ↔
      ArrayRefused array machine error after := by
  refine ⟨fun h => ?_, ArrayRefused.eq⟩
  rcases exists_arrayRead array machine with ⟨found, final, hread⟩ | ⟨found, final, hrefused⟩
  · cases hread.eq.symm.trans h
  · cases hrefused.eq.symm.trans h
    exact hrefused

theorem ElementsRead.objects {array : Handle} {index : Nat} {machine after : Machine}
    {texts : List (Option String)} (h : ElementsRead array index machine texts after) :
    after.objects = machine.objects := by
  induction h with
  | nil => rfl
  | cons hread _ ih => exact ih.trans hread.objects

theorem ElementsRead.itemText {array : Handle} {index : Nat} {machine after : Machine}
    {texts : List (Option String)} (h : ElementsRead array index machine texts after)
    {place : Nat} {text : String} (hplace : texts[place]? = some (some text)) :
    machine.ItemText array (index + place) text := by
  induction h generalizing place with
  | nil => cases hplace
  | cons hread _ ih =>
      cases place with
      | zero =>
          cases hplace
          exact hread.itemText
      | succ place =>
          have hitem := (ih hplace).congr hread.objects
          rwa [Nat.add_assoc, Nat.add_comm 1 place] at hitem

theorem ArrayRead.objects {array : Handle} {machine after : Machine}
    {texts : List (Option String)} (h : ArrayRead array machine texts after) :
    after.objects = machine.objects := by
  obtain ⟨_, length, counted, hlength, _, hread⟩ := h
  have hcounted := Interface.getArrayLength_objects array machine
  rw [hlength] at hcounted
  exact hread.objects.trans hcounted

/-- A text that is read from an array is that of the item at its place. -/
theorem ArrayRead.itemText {array : Handle} {machine after : Machine}
    {texts : List (Option String)} (h : ArrayRead array machine texts after) {index : Nat}
    {text : String} (hindex : texts[index]? = some (some text)) :
    machine.ItemText array index text := by
  obtain ⟨_, length, counted, hlength, _, hread⟩ := h
  have hcounted := Interface.getArrayLength_objects array machine
  rw [hlength] at hcounted
  have hitem := (hread.itemText hindex).congr hcounted
  rwa [Nat.zero_add] at hitem

end LauncherOptions.Machine
