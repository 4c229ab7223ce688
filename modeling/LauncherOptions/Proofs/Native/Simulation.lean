import LauncherOptions.Proofs.Machine.Calm
import LauncherOptions.Proofs.Native.Setting

/-! # A call of a native is a call of the store

A native takes its operands out of the machine, and a store takes texts. `Conveys` says which texts
the operands of a request stand for, and `Delivers` which texts the result stands for. Main
statement: in a calm machine a native does what the store does that is asked directly, with the same
effect on the store and its disk, and changes no object that was there (`perform_simulates`).
-/

namespace LauncherOptions

/-! ## Asking a store directly -/

/-- What a store can be asked. -/
inductive Message
  | defaultValue (key : String)
  | defaultKeys
  | value (key : String)
  | setKeysAndValues (keys values : List String)
  | keys

/-- What a store answers. -/
inductive Reply
  | value (text : Option String)
  | keys (texts : List String)
  | done

/-- Puts a message to a store in use. -/
def Message.put : Message → Attempt Error LiveStore Reply
  | .defaultValue key => do return .value ((← get).store.defaultValue? key)
  | .defaultKeys => do return .keys (← get).store.defaultKeys
  | .value key => do return .value ((← get).store.currentValue? key)
  | .setKeysAndValues names values => do
    LiveStore.setKeysAndValues names values
    return .done
  | .keys => do return .keys (← get).store.currentKeys

/-! ## What crosses the boundary -/

namespace Machine

/-- Every object that was there is still there and what it was, and a calm machine is still
calm. -/
structure Keeps (before after : Machine) : Prop where
  objects : ∀ handle object, before.object? handle = some object →
    after.object? handle = some object
  calm : before.Calm → after.Calm

theorem Keeps.trans {before middle after : Machine} (h : before.Keeps middle)
    (hnext : middle.Keeps after) : before.Keeps after where
  objects handle object hobject := hnext.objects handle object (h.objects handle object hobject)
  calm hcalm := hnext.calm (h.calm hcalm)

theorem Alike.keeps {before after : Machine} (h : before.Alike after) : before.Keeps after where
  objects handle object hobject := by rw [object?_congr h.objects, hobject]
  calm hcalm := hcalm.of_alike h

/-- New objects come after those that were there. -/
theorem CalmWith.keeps {before after : Machine} {made : List Object}
    (h : CalmWith (before.objects.toList ++ made) after) : before.Keeps after where
  objects handle object hobject := by
    cases handle with
    | zero => cases hobject
    | succ position =>
        rw [object?_succ] at hobject ⊢
        obtain ⟨hlt, _⟩ := List.getElem?_eq_some_iff.mp hobject
        rw [h.objects, List.getElem?_append_left hlt, hobject]
  calm _ := h.calm

theorem object?_append {before after : Machine} {made : List Object}
    (h : after.objects.toList = before.objects.toList ++ made) (position : Nat) :
    after.object? (before.objects.size + position + 1) = made[position]? := by
  rw [object?_succ, h, ← Array.length_toList, List.getElem?_append_right (Nat.le_add_right _ _),
    Nat.add_sub_cancel_left]

theorem object?_fresh (machine : Machine) (position : Nat) :
    machine.object? (machine.objects.size + position + 1) = none := by
  rw [object?_succ, List.getElem?_eq_none]
  rw [Array.length_toList]
  exact Nat.le_add_right _ _

/-- What a native gives back is new and stands for what a store answers: a string for a text, the
null reference for none, and an array of strings for keys. More keys than an array can have are
refused. -/
inductive Delivers (before after : Machine) : Except Error Handle → Reply → Prop
  | text {string : Handle} {text : String} (hfresh : before.object? string = none)
      (hstring : after.object? string = some (.text (ModifiedUtf8.encode text))) :
      Delivers before after (.ok string) (.value (some text))
  | null : Delivers before after (.ok Handle.null) (.value none)
  | array {array : Handle} {items : Array Handle} {texts : List String}
      (hfresh : before.object? array = none) (harray : after.object? array = some (.array items))
      (hitems : List.Forall₂ (fun item text => before.object? item = none ∧ after.Holds item text)
        items.toList texts) :
      Delivers before after (.ok array) (.keys texts)
  | tooMany {texts : List String} (hmany : maxArrayLength < texts.length) :
      Delivers before after (.error (.marshal (.tooManyElements texts.length))) (.keys texts)
  | done : Delivers before after (.ok Handle.null) .done

theorem Delivers.of_alike {before middle after : Machine} (halike : before.Alike middle)
    {result : Except Error Handle} {reply : Reply} (h : Delivers middle after result reply) :
    Delivers before after result reply := by
  cases h with
  | text hfresh hstring => exact .text (by rwa [← object?_congr halike.objects]) hstring
  | null => exact .null
  | array hfresh harray hitems =>
      refine .array (by rwa [← object?_congr halike.objects]) harray ?_
      exact hitems.imp fun _ _ hitem => ⟨by rw [← object?_congr halike.objects, hitem.1], hitem.2⟩
  | tooMany hmany => exact .tooMany hmany
  | done => exact .done

end Machine

namespace Native

open Machine

/-- The operands of a request are there and stand for what a message says. A null value stands for
the empty one. -/
inductive Conveys (machine : Machine) : Request → Message → Prop
  | defaultValue {key : Handle} {text : String} (hkey : machine.Holds key text) :
      Conveys machine (.defaultValue key) (.defaultValue text)
  | defaultKeys : Conveys machine .defaultKeys .defaultKeys
  | value {key : Handle} {text : String} (hkey : machine.Holds key text) :
      Conveys machine (.value key) (.value text)
  | setKeysAndValues {keyArray valueArray : Handle} {keys : List String}
      {values : List (Option String)} (hkeys : machine.HoldsAll keyArray (keys.map some))
      (hvalues : machine.HoldsAll valueArray values) :
      Conveys machine (.setKeysAndValues keyArray valueArray)
        (.setKeysAndValues keys (values.map (·.getD "")))
  | keys : Conveys machine .keys .keys

/-! ## Single values and keys -/

theorem readKey_of_holds {machine : Machine} (h : machine.Calm) {key : Handle} {text : String}
    (hkey : machine.Holds key text) :
    ∃ after, readKey key machine = (.ok text, after) ∧ machine.Alike after := by
  obtain ⟨after, hread, halike⟩ := h.stringRead hkey
  refine ⟨after, ?_, halike⟩
  rw [readKey, Attempt.bind_of_ok hread.eq]
  rfl

theorem optionalString_delivers {machine : Machine} (h : machine.Calm) (value : Option String) :
    ∃ result after, optionalString value machine = (result, after) ∧
      Delivers machine after result (.value value) ∧ machine.Keeps after := by
  cases value with
  | none => exact ⟨_, machine, rfl, .null, fun _ _ hobject => hobject, id⟩
  | some text =>
      obtain ⟨after, hmade, hafter⟩ := CalmWith.newString ⟨h, rfl⟩ text
      refine ⟨_, after, hmade, .text ?_ ?_, hafter.keeps⟩
      · exact object?_fresh machine 0
      · exact object?_append hafter.objects 0

theorem newStringArray_delivers {machine : Machine} (h : machine.Calm) (texts : List String) :
    ∃ result after, newStringArray texts machine = (result, after) ∧
      Delivers machine after result (.keys texts) ∧ machine.Keeps after := by
  by_cases hmany : maxArrayLength < texts.length
  · rw [newStringArray_of_tooMany hmany]
    exact ⟨_, machine, rfl, .tooMany hmany, fun _ _ hobject => hobject, id⟩
  obtain ⟨after, hmade, hafter⟩ := CalmWith.newStringArray ⟨h, rfl⟩ (Nat.le_of_not_lt hmany)
  have harray := object?_append hafter.objects 1
  refine ⟨_, after, hmade, .array ?_ harray ?_, hafter.keeps⟩
  · exact object?_fresh machine 1
  · rw [List.forall₂_iff_get]
    refine ⟨List.length_range', fun index hitem htext => ?_⟩
    have hindex : machine.objects.size + (index + 2) + 1 =
        machine.objects.toList.length + 3 + index := by
      rw [Array.length_toList]
      omega
    rw [holds_iff, List.get_eq_getElem, List.get_eq_getElem, List.getElem_range', Nat.one_mul,
      ← hindex]
    refine ⟨object?_fresh machine _, ?_⟩
    rw [object?_append hafter.objects]
    simp [htext]

theorem onMachine_apply {α : Type} (attempt : Attempt Error Machine α) (program : Program) :
    onMachine attempt program = ((attempt program.machine).1.mapError .failed,
      { program with machine := (attempt program.machine).2 }) := rfl

/-- A native that asks a store for the value of a key. -/
theorem giveValue_delivers {program : Program} (hcalm : program.machine.Calm) {key : Handle}
    {text : String} (hkey : program.machine.Holds key text) {number : Nat}
    (question : String → Question (Option String)) (answer : String → Store → Option String)
    (hquestion : ∀ name, (question name).val = Service.ask (.store number) (answer name)) :
    ∃ result machine, giveValue question key program =
        (result.mapError .failed, { program with machine }) ∧
      Delivers program.machine machine result (.value (answer text (program.storeAt number))) ∧
      program.machine.Keeps machine := by
  obtain ⟨read, hread, halike⟩ := readKey_of_holds hcalm hkey
  obtain ⟨result, machine, hmade, hdelivers, hkeeps⟩ := optionalString_delivers
    (hcalm.of_alike halike) (answer text (program.storeAt number))
  refine ⟨result, machine, ?_, hdelivers.of_alike halike, halike.keeps.trans hkeeps⟩
  have hask : (question text).val { program with machine := read } =
      (.ok (answer text (program.storeAt number)), { program with machine := read }) := by
    rw [hquestion]
    rfl
  rw [giveValue, Attempt.bind_of_ok (onMachine_of_ok hread), Attempt.bind_of_ok hask,
    onMachine_apply, hmade]

/-- A native that asks a store for keys. -/
theorem giveKeys_delivers {program : Program} (hcalm : program.machine.Calm) {number : Nat}
    (question : Question (List String)) (answer : Store → List String)
    (hquestion : question.val = Service.ask (.store number) answer) :
    ∃ result machine, giveKeys question program =
        (result.mapError .failed, { program with machine }) ∧
      Delivers program.machine machine result (.keys (answer (program.storeAt number))) ∧
      program.machine.Keeps machine := by
  obtain ⟨result, machine, hmade, hdelivers, hkeeps⟩ :=
    newStringArray_delivers hcalm (answer (program.storeAt number))
  refine ⟨result, machine, ?_, hdelivers, hkeeps⟩
  have hask : question.val program = (.ok (answer (program.storeAt number)), program) := by
    rw [hquestion]
    rfl
  rw [giveKeys, Attempt.bind_of_ok hask, onMachine_apply, hmade]

/-! ## Calls -/

/-- A call of a native: the machine that it found, what it was asked, how it ended, and the machine
that it left. -/
structure Exchange where
  before : Machine
  request : Request
  result : Except Stop Handle
  after : Machine

/-- The call ended as a store would have answered. -/
def Exchange.Answers (exchange : Exchange) : Except Error Reply → Prop
  | .ok reply => ∃ result, exchange.result = result.mapError .failed ∧
      Delivers exchange.before exchange.after result reply
  | .error error => exchange.result = .error (.failed error)

/-- A store of the program and its disk are those of a store in use. -/
structure Mirrors (program : Program) (number : Nat) (live : LiveStore) : Prop where
  made : number < program.stores.length
  same : live.SameStore ⟨program.storeAt number, program.host⟩

/-- The native call of a request. -/
def exchangeOf (number : Nat) (request : Request) (program : Program) : Exchange where
  before := program.machine
  request := request
  result := (perform (Service.store number).bridge request program).1
  after := (perform (Service.store number).bridge request program).2.machine

/-- A native and a store end alike. -/
def Simulates (number : Nat) (request : Request) (message : Message) (program : Program)
    (live : LiveStore) : Prop :=
  (exchangeOf number request program).Answers (message.put live).1 ∧
    program.machine.Keeps (perform (Service.store number).bridge request program).2.machine ∧
    Mirrors (perform (Service.store number).bridge request program).2 number (message.put live).2

/-- A native that only asks changes nothing but the machine. -/
theorem simulates_of_asking {program : Program} {number : Nat} {live : LiveStore}
    (hmirrors : Mirrors program number live) {request : Request} {message : Message}
    {result : Except Error Handle} {machine : Machine} {reply : Reply}
    (hperform : perform (Service.store number).bridge request program =
      (result.mapError .failed, { program with machine }))
    (hput : message.put live = (.ok reply, live))
    (hdelivers : Delivers program.machine machine result reply)
    (hkeeps : program.machine.Keeps machine) : Simulates number request message program live := by
  rw [Simulates, exchangeOf, hperform, hput]
  exact ⟨⟨result, rfl, hdelivers⟩, hkeeps, hmirrors.made, hmirrors.same⟩

theorem simulates_of_setting {program after : Program} {number : Nat} {live next : LiveStore}
    {keyArray valueArray : Handle} {keys values : List String} {result : Except Error Unit}
    (hput : LiveStore.setKeysAndValues keys values live = (result, next))
    (hset : setOptions (Service.store number).bridge keyArray valueArray program =
      (result.mapError .failed, after))
    (hkeeps : program.machine.Keeps after.machine) (hmirrors : Mirrors after number next) :
    Simulates number (.setKeysAndValues keyArray valueArray) (.setKeysAndValues keys values)
      program live := by
  cases result with
  | ok =>
      rw [Simulates, exchangeOf, perform, Attempt.bind_of_ok hset, Message.put,
        Attempt.bind_of_ok hput]
      exact ⟨⟨.ok Handle.null, rfl, .done⟩, hkeeps, hmirrors⟩
  | error error =>
      rw [Simulates, exchangeOf, perform, Attempt.bind_of_error hset, Message.put,
        Attempt.bind_of_error hput]
      exact ⟨rfl, hkeeps, hmirrors⟩

theorem setOptions_simulates {program : Program} {number : Nat} {live : LiveStore}
    (hmirrors : Mirrors program number live) (hcalm : program.machine.Calm)
    {keyArray valueArray : Handle} {keys : List String} {values : List (Option String)}
    (hkeys : program.machine.HoldsAll keyArray (keys.map some))
    (hvalues : program.machine.HoldsAll valueArray values) :
    Simulates number (.setKeysAndValues keyArray valueArray)
      (.setKeysAndValues keys (values.map (·.getD ""))) program live := by
  obtain ⟨middle, hreadKeys, halike⟩ := hcalm.arrayRead hkeys
  obtain ⟨machine, hreadValues, hlast⟩ :=
    (hcalm.of_alike halike).arrayRead (hvalues.of_alike halike)
  have hkeeps := (halike.trans hlast).keeps
  by_cases hlength : keys.length = values.length
  · rcases hput : LiveStore.setKeysAndValues keys (values.map (·.getD "")) live with
      ⟨result, next⟩
    rcases hset : LiveStore.setKeysAndValues keys (values.map (·.getD ""))
      ⟨program.storeAt number, program.host⟩ with ⟨answer, after⟩
    obtain ⟨hresult, hsame⟩ :=
      LiveStore.setKeysAndValues_congr hmirrors.same keys (values.map (·.getD ""))
    rw [hput, hset] at hresult hsame
    cases hresult
    refine simulates_of_setting hput (SetEnding.asked hreadKeys hreadValues hlength hset).eq
      hkeeps ⟨?_, ?_⟩
    · simpa [Program.storePart] using hmirrors.made
    · rw [Program.storeAt_storePart]
      · exact hsame
      · exact hmirrors.made
  · have hmap : (keys.map some).length ≠ values.length := by rwa [List.length_map]
    obtain ⟨records, hput⟩ := LiveStore.setKeysAndValues_of_length_ne
      (show keys.length ≠ (values.map (·.getD "")).length by rwa [List.length_map]) live
    have hending := (SetEnding.lengthMismatch hreadKeys hreadValues hmap : SetEnding program number
      keyArray valueArray _ _).eq
    rw [List.length_map] at hput hending
    exact simulates_of_setting hput hending hkeeps
      ⟨hmirrors.made, hmirrors.same.store, hmirrors.same.disk⟩

/-- In a calm machine a native does what the store does that is asked directly. -/
theorem perform_simulates {program : Program} {number : Nat} {live : LiveStore}
    (hmirrors : Mirrors program number live) (hcalm : program.machine.Calm) {request : Request}
    {message : Message} (hconveys : Conveys program.machine request message) :
    Simulates number request message program live := by
  have hstore : program.storeAt number = live.store := hmirrors.same.store
  cases hconveys with
  | defaultValue hkey =>
      obtain ⟨result, machine, hperform, hdelivers, hkeeps⟩ := giveValue_delivers hcalm hkey
        (Service.store number).bridge.defaultValue? (fun key store => store.defaultValue? key)
        fun _ => rfl
      rw [hstore] at hdelivers
      exact simulates_of_asking hmirrors hperform rfl hdelivers hkeeps
  | defaultKeys =>
      obtain ⟨result, machine, hperform, hdelivers, hkeeps⟩ := giveKeys_delivers hcalm
        (Service.store number).bridge.defaultKeys Store.defaultKeys rfl
      rw [hstore] at hdelivers
      exact simulates_of_asking hmirrors hperform rfl hdelivers hkeeps
  | value hkey =>
      obtain ⟨result, machine, hperform, hdelivers, hkeeps⟩ := giveValue_delivers hcalm hkey
        (Service.store number).bridge.currentValue? (fun key store => store.currentValue? key)
        fun _ => rfl
      rw [hstore] at hdelivers
      exact simulates_of_asking hmirrors hperform rfl hdelivers hkeeps
  | setKeysAndValues hkeys hvalues => exact setOptions_simulates hmirrors hcalm hkeys hvalues
  | keys =>
      obtain ⟨result, machine, hperform, hdelivers, hkeeps⟩ := giveKeys_delivers hcalm
        (Service.store number).bridge.currentKeys Store.currentKeys rfl
      rw [hstore] at hdelivers
      exact simulates_of_asking hmirrors hperform rfl hdelivers hkeeps

end Native

end LauncherOptions
