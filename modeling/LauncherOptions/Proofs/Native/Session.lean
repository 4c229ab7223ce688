import LauncherOptions.Proofs.Native.Simulation
import LauncherOptions.Proofs.Store.Overlay

/-! # Sessions of native calls

Managed code calls natives one after another, and does with its own objects what it likes in
between. Main statement: as long as nothing fails in the machine, such a session does what the same
messages do that are put to the store directly; a value that was set is read back byte for byte
until its key is set again; and no call changes an object that it finds (`serve_simulates`).
-/

namespace LauncherOptions

/-! ## Sessions -/

/-- Puts messages to a store one after another. -/
def Message.putAll : List Message → LiveStore → List (Except Error Reply) × LiveStore
  | [], live => ([], live)
  | message :: rest, live =>
    let (replies, last) := putAll rest (message.put live).2
    ((message.put live).1 :: replies, last)

namespace Native

open Machine

/-- A call that managed code makes: the machine as it is at that time, and the request. -/
structure Turn where
  machine : Machine
  request : Request

/-- Nothing fails in the machine, and the operands are there and stand for what a message says. -/
def Turn.Says (turn : Turn) (message : Message) : Prop :=
  turn.machine.Calm ∧ Conveys turn.machine turn.request message

/-- Makes calls to the natives for a store, one after another. -/
def serve (number : Nat) : List Turn → Program → List Exchange × Program
  | [], program => ([], program)
  | turn :: rest, program =>
    let ready := { program with machine := turn.machine }
    let (exchanges, last) :=
      serve number rest (perform (Service.store number).bridge turn.request ready).2
    (exchangeOf number turn.request ready :: exchanges, last)

/-- A session goes as if the messages were put to the store directly. -/
theorem serve_mirrors {turns : List Turn} {messages : List Message}
    (hturns : List.Forall₂ Turn.Says turns messages) {program : Program} {number : Nat}
    {live : LiveStore} (hmirrors : Mirrors program number live) :
    List.Forall₂ Exchange.Answers (serve number turns program).1
        (Message.putAll messages live).1 ∧
      (∀ exchange ∈ (serve number turns program).1, exchange.before.Keeps exchange.after) ∧
      Mirrors (serve number turns program).2 number (Message.putAll messages live).2 := by
  induction hturns generalizing program live with
  | nil => exact ⟨.nil, fun _ h => (List.not_mem_nil h).elim, hmirrors⟩
  | @cons turn message _ _ hsays _ ih =>
      have hready : Mirrors { program with machine := turn.machine } number live :=
        ⟨hmirrors.made, hmirrors.same⟩
      obtain ⟨hanswers, hkeeps, hnext⟩ := perform_simulates hready hsays.1 hsays.2
      obtain ⟨hreplies, hrest, hlast⟩ := ih hnext
      exact ⟨.cons hanswers hreplies, List.forall_mem_cons.mpr ⟨hkeeps, hrest⟩, hlast⟩

/-- The calls of a session are those that were made. -/
theorem serve_conveys {turns : List Turn} {messages : List Message}
    (hturns : List.Forall₂ Turn.Says turns messages) (number : Nat) (program : Program) :
    List.Forall₂ (fun exchange message => Conveys exchange.before exchange.request message)
      (serve number turns program).1 messages := by
  induction hturns generalizing program with
  | nil => exact .nil
  | cons hsays _ ih => exact .cons hsays.2 (ih _)

end Native

/-! ## Values that were set -/

namespace LiveStore

/-- After an accepted call, every key has its last value in the call, or else the value that it had
before. -/
theorem currentValue?_of_accepted {live : LiveStore} {keys values : List String}
    (h : (setKeysAndValues keys values live).1 = .ok ()) (key : String) :
    keys.length = values.length ∧
      (setKeysAndValues keys values live).2.store.currentValue? key =
        (OrderedMap.latest? key (keys.zip values)).or (live.store.currentValue? key) := by
  by_cases hlength : keys.length = values.length
  · rw [setKeysAndValues_of_length_eq hlength] at h ⊢
    have hgranted : live.granted (keys.zip values) = keys.zip values := by
      rw [granted, h]
    rw [Store.currentValue?_eq, current_setOptions, hgranted, OrderedMap.get?_insertMany,
      Store.currentValue?_eq]
    exact ⟨hlength, rfl⟩
  · obtain ⟨records, heq⟩ := setKeysAndValues_of_length_ne hlength live
    rw [heq] at h
    cases h

theorem store_of_refused {live : LiveStore} {keys values : List String} {error : Error}
    (h : (setKeysAndValues keys values live).1 = .error error) :
    (setKeysAndValues keys values live).2.store = live.store := by
  by_cases hlength : keys.length = values.length
  · rw [setKeysAndValues_of_length_eq hlength] at h ⊢
    have houtcome := setOptions_outcome live (keys.zip values)
    rw [h] at houtcome
    exact houtcome.store_of_error
  · obtain ⟨records, heq⟩ := setKeysAndValues_of_length_ne hlength live
    rw [heq, advance_store]

end LiveStore

namespace Machine

/-- The bytes of a string. -/
def bytes? (machine : Machine) (handle : Handle) : Option (List UInt8) :=
  match machine.object? handle with
  | some (.text bytes) => some bytes
  | _ => none

theorem Holds.bytes? {machine : Machine} {string : Handle} {text : String}
    (h : machine.Holds string text) :
    machine.bytes? string = some (ModifiedUtf8.encode text) := by
  rw [Machine.bytes?, holds_iff.mp h]

theorem keyBytes {machine : Machine} {items : List Handle} {texts : List String}
    (h : List.Forall₂ machine.HoldsItem items (texts.map some)) (index : Nat) :
    items[index]?.bind machine.bytes? = texts[index]?.map ModifiedUtf8.encode := by
  induction texts generalizing items index with
  | nil =>
      cases h
      rfl
  | cons text texts ih =>
      cases h with
      | cons hitem hrest =>
          cases index with
          | zero => exact Holds.bytes? hitem
          | succ index => exact ih hrest index

/-- A null value has no bytes, like the empty text. -/
theorem valueBytes {machine : Machine} {items : List Handle} {texts : List (Option String)}
    (h : List.Forall₂ machine.HoldsItem items texts) (index : Nat) :
    items[index]?.map (fun item => (machine.bytes? item).getD []) =
      (texts.map (·.getD ""))[index]?.map ModifiedUtf8.encode := by
  induction h generalizing index with
  | nil => rfl
  | @cons item text _ _ hitem _ ih =>
      cases index with
      | zero =>
          cases text with
          | none =>
              cases hitem
              rfl
          | some text =>
              have hbytes := Holds.bytes? hitem
              simp [hbytes]
      | succ index => exact ih index

end Machine

namespace Native

open Machine

/-- The call was accepted and sets a key to a value: they stand at the same place of the two arrays,
and the key at no later one. Texts are given by their bytes. -/
def Exchange.Sets (exchange : Exchange) (key value : List UInt8) : Prop :=
  ∃ keyArray valueArray keys values answer, ∃ index : Nat,
    exchange.request = .setKeysAndValues keyArray valueArray ∧
    exchange.before.object? keyArray = some (.array keys) ∧
    exchange.before.object? valueArray = some (.array values) ∧
    exchange.result = .ok answer ∧
    keys.toList[index]?.bind exchange.before.bytes? = some key ∧
    (∀ later, index < later → keys.toList[later]?.bind exchange.before.bytes? ≠ some key) ∧
    values.toList[index]?.map (fun item => (exchange.before.bytes? item).getD []) = some value

theorem Exchange.Answers.accepted_iff {exchange : Exchange} {names texts : List String}
    {live : LiveStore}
    (h : exchange.Answers ((Message.setKeysAndValues names texts).put live).1) :
    (∃ answer, exchange.result = .ok answer) ↔
      (LiveStore.setKeysAndValues names texts live).1 = .ok () := by
  rcases hset : LiveStore.setKeysAndValues names texts live with ⟨result, next⟩
  cases result with
  | error error =>
      rw [Message.put, Attempt.bind_of_error hset] at h
      constructor
      · rintro ⟨answer, hanswer⟩
        cases hanswer.symm.trans h
      · intro hok
        cases hok
  | ok =>
      rw [Message.put, Attempt.bind_of_ok hset] at h
      obtain ⟨_, hresult, ⟨⟩⟩ := h
      exact ⟨fun _ => rfl, fun _ => ⟨Handle.null, hresult⟩⟩

theorem map_encode_eq_some {text : Option String} {other : String} :
    text.map ModifiedUtf8.encode = some (ModifiedUtf8.encode other) ↔ text = some other := by
  constructor
  · intro h
    obtain ⟨found, rfl, hencode⟩ := Option.map_eq_some_iff.mp h
    have hdecode := ModifiedUtf8.decode_encode found
    rw [hencode, ModifiedUtf8.decode_encode] at hdecode
    rw [Except.ok.inj hdecode]
  · rintro rfl
    rfl

/-- What a call sets, in the texts of its operands. -/
theorem Exchange.sets_iff_texts {exchange : Exchange} {names texts : List String}
    (hconveys : Conveys exchange.before exchange.request (.setKeysAndValues names texts))
    {key : String} {value : List UInt8} :
    exchange.Sets (ModifiedUtf8.encode key) value ↔
      (∃ answer, exchange.result = .ok answer) ∧ ∃ index : Nat, names[index]? = some key ∧
        (∀ later, index < later → names[later]? ≠ some key) ∧
        texts[index]?.map ModifiedUtf8.encode = some value := by
  generalize hrequest : exchange.request = request at hconveys
  cases hconveys with
  | @setKeysAndValues keyArray valueArray _ values hkeys hvalues =>
      obtain ⟨keyItems, hkeyArray, hkeyItems⟩ := hkeys
      obtain ⟨valueItems, hvalueArray, hvalueItems⟩ := hvalues
      constructor
      · rintro ⟨_, _, keys, _, answer, index, hsame, hkeys, hvalues, hanswer, hkey, hlast, hvalue⟩
        cases hrequest.symm.trans hsame
        cases hkeyArray.symm.trans hkeys
        cases hvalueArray.symm.trans hvalues
        simp only [keyBytes hkeyItems, ne_eq, map_encode_eq_some] at hkey hlast
        exact ⟨⟨answer, hanswer⟩, index, hkey, hlast,
          (valueBytes hvalueItems index).symm.trans hvalue⟩
      · rintro ⟨⟨answer, hanswer⟩, index, hkey, hlast, hvalue⟩
        refine ⟨keyArray, valueArray, keyItems, valueItems, answer, index, hrequest, hkeyArray,
          hvalueArray, hanswer, ?_, ?_, (valueBytes hvalueItems index).trans hvalue⟩
        · rw [keyBytes hkeyItems, map_encode_eq_some, hkey]
        · intro later hlt
          rw [keyBytes hkeyItems, ne_eq, map_encode_eq_some]
          exact hlast later hlt

/-- A call sets a key if it is accepted and has the key, to the last value in the call. -/
theorem Exchange.sets_iff_latest {exchange : Exchange} {names texts : List String}
    {live : LiveStore}
    (hconveys : Conveys exchange.before exchange.request (.setKeysAndValues names texts))
    (hanswers : exchange.Answers ((Message.setKeysAndValues names texts).put live).1)
    {key : String} {value : List UInt8} :
    exchange.Sets (ModifiedUtf8.encode key) value ↔
      (LiveStore.setKeysAndValues names texts live).1 = .ok () ∧
        ∃ text, OrderedMap.latest? key (names.zip texts) = some text ∧
          ModifiedUtf8.encode text = value := by
  rw [sets_iff_texts hconveys, hanswers.accepted_iff]
  apply and_congr_right
  intro haccepted
  obtain ⟨hlength, _⟩ := LiveStore.currentValue?_of_accepted haccepted key
  simp only [OrderedMap.latest?_eq_some_iff, List.map_fst_zip (Nat.le_of_eq hlength),
    List.getElem?_zip_eq_some, Option.map_eq_some_iff]
  constructor
  · rintro ⟨index, hkey, hlast, text, htext, hvalue⟩
    exact ⟨text, ⟨index, ⟨hkey, htext⟩, hlast⟩, hvalue⟩
  · rintro ⟨text, ⟨index, ⟨hkey, htext⟩, hlast⟩, hvalue⟩
    exact ⟨index, hkey, hlast, text, htext, hvalue⟩

theorem Exchange.Sets.message {exchange : Exchange} {key value : List UInt8}
    (h : exchange.Sets key value) {message : Message}
    (hconveys : Conveys exchange.before exchange.request message) :
    ∃ names texts, message = .setKeysAndValues names texts := by
  obtain ⟨_, _, _, _, _, _, hrequest, _⟩ := h
  rw [hrequest] at hconveys
  cases hconveys with
  | setKeysAndValues => exact ⟨_, _, rfl⟩

theorem Exchange.Sets.exists_key {exchange : Exchange} {key value : List UInt8}
    (h : exchange.Sets key value) {message : Message}
    (hconveys : Conveys exchange.before exchange.request message) :
    ∃ text, key = ModifiedUtf8.encode text := by
  obtain ⟨_, _, keys, _, _, index, hrequest, hkeys, _, _, hkey, _⟩ := h
  rw [hrequest] at hconveys
  cases hconveys with
  | setKeysAndValues hholds =>
      obtain ⟨items, harray, hitems⟩ := hholds
      cases harray.symm.trans hkeys
      rw [keyBytes hitems] at hkey
      obtain ⟨text, _, hencode⟩ := Option.map_eq_some_iff.mp hkey
      exact ⟨text, hencode.symm⟩

theorem put_setKeysAndValues (names texts : List String) (live : LiveStore) :
    ((Message.setKeysAndValues names texts).put live).2 =
      (LiveStore.setKeysAndValues names texts live).2 := by
  rcases hset : LiveStore.setKeysAndValues names texts live with ⟨_ | _, next⟩
  · rw [Message.put, Attempt.bind_of_error hset]
  · rw [Message.put, Attempt.bind_of_ok hset]
    rfl

/-- A key has the value that a call sets it to. -/
theorem currentValue?_of_sets {exchange : Exchange} {message : Message} {live : LiveStore}
    (hconveys : Conveys exchange.before exchange.request message)
    (hanswers : exchange.Answers (message.put live).1) {key : String} {value : List UInt8}
    (hsets : exchange.Sets (ModifiedUtf8.encode key) value) :
    ∃ text, (message.put live).2.store.currentValue? key = some text ∧
      ModifiedUtf8.encode text = value := by
  obtain ⟨names, texts, rfl⟩ := hsets.message hconveys
  obtain ⟨haccepted, text, hlatest, hvalue⟩ :=
    (Exchange.sets_iff_latest hconveys hanswers).mp hsets
  refine ⟨text, ?_, hvalue⟩
  rw [put_setKeysAndValues, (LiveStore.currentValue?_of_accepted haccepted key).2, hlatest,
    Option.some_or]

/-- A key that a call does not set keeps its value. -/
theorem currentValue?_of_not_sets {exchange : Exchange} {message : Message} {live : LiveStore}
    (hconveys : Conveys exchange.before exchange.request message)
    (hanswers : exchange.Answers (message.put live).1) {key : String}
    (hsets : ∀ value, ¬exchange.Sets (ModifiedUtf8.encode key) value) :
    (message.put live).2.store.currentValue? key = live.store.currentValue? key := by
  cases message with
  | defaultValue => rfl
  | defaultKeys => rfl
  | value => rfl
  | keys => rfl
  | setKeysAndValues names texts =>
      rw [put_setKeysAndValues]
      cases hresult : (LiveStore.setKeysAndValues names texts live).1 with
      | error error => rw [LiveStore.store_of_refused hresult]
      | ok =>
          have hlatest : OrderedMap.latest? key (names.zip texts) = none := by
            rw [Option.eq_none_iff_forall_ne_some]
            intro text hlatest
            exact hsets _ ((Exchange.sets_iff_latest hconveys hanswers).mpr
              ⟨hresult, text, hlatest, rfl⟩)
          rw [(LiveStore.currentValue?_of_accepted hresult key).2, hlatest, Option.none_or]

/-- The key of a request for a value, by its bytes. -/
def Exchange.AsksFor (exchange : Exchange) (key : List UInt8) : Prop :=
  ∃ handle, exchange.request = .value handle ∧ exchange.before.bytes? handle = some key

/-- The call gave back a string with these bytes. -/
def Exchange.Gives (exchange : Exchange) (value : List UInt8) : Prop :=
  ∃ handle, exchange.result = .ok handle ∧ exchange.after.bytes? handle = some value

theorem gives_of_asksFor {exchange : Exchange} {message : Message} {live : LiveStore}
    (hconveys : Conveys exchange.before exchange.request message)
    (hanswers : exchange.Answers (message.put live).1) {key text : String}
    (hasks : exchange.AsksFor (ModifiedUtf8.encode key))
    (hcurrent : live.store.currentValue? key = some text) :
    exchange.Gives (ModifiedUtf8.encode text) := by
  obtain ⟨handle, hrequest, hbytes⟩ := hasks
  rw [hrequest] at hconveys
  cases hconveys with
  | @value _ name hname =>
      have hkey : name = key :=
        Option.some.inj (map_encode_eq_some.mp (hname.bytes?.symm.trans hbytes))
      obtain ⟨result, hresult, hdelivers⟩ := hanswers
      have htext : Delivers exchange.before exchange.after result (.value (some text)) := by
        rw [← hcurrent, ← hkey]
        exact hdelivers
      cases htext with
      | @text string _ _ hstring => exact ⟨string, hresult, by rw [bytes?, hstring]⟩

/-- A value is given back as long as its key is not set again. -/
theorem gives_of_current {between later : List Exchange} {get : Exchange}
    {messages : List Message} {live : LiveStore}
    (hconveys : List.Forall₂ (fun exchange message =>
      Conveys exchange.before exchange.request message) (between ++ get :: later) messages)
    (hanswers : List.Forall₂ Exchange.Answers (between ++ get :: later)
      (Message.putAll messages live).1) {key text : String}
    (hcurrent : live.store.currentValue? key = some text)
    (hkept : ∀ exchange ∈ between, ∀ value, ¬exchange.Sets (ModifiedUtf8.encode key) value)
    (hasks : get.AsksFor (ModifiedUtf8.encode key)) :
    get.Gives (ModifiedUtf8.encode text) := by
  induction between generalizing messages live with
  | nil =>
      cases hconveys with
      | cons hconveys _ =>
          cases hanswers with
          | cons hanswers _ => exact gives_of_asksFor hconveys hanswers hasks hcurrent
  | cons exchange between ih =>
      obtain ⟨hfirst, hrest⟩ := List.forall_mem_cons.mp hkept
      cases hconveys with
      | cons hconveys hnext =>
          cases hanswers with
          | cons hanswers hreplies =>
              apply ih hnext hreplies _ hrest
              rw [currentValue?_of_not_sets hconveys hanswers hfirst, hcurrent]

/-- A value that was set is given back as long as its key is not set again. -/
theorem gives_of_sets {earlier between later : List Exchange} {set get : Exchange}
    {messages : List Message} {live : LiveStore}
    (hconveys : List.Forall₂ (fun exchange message =>
        Conveys exchange.before exchange.request message)
      (earlier ++ set :: (between ++ get :: later)) messages)
    (hanswers : List.Forall₂ Exchange.Answers (earlier ++ set :: (between ++ get :: later))
      (Message.putAll messages live).1) {key value : List UInt8} (hsets : set.Sets key value)
    (hkept : ∀ exchange ∈ between, ∀ other, ¬exchange.Sets key other) (hasks : get.AsksFor key) :
    get.Gives value := by
  induction earlier generalizing messages live with
  | nil =>
      cases hconveys with
      | cons hconveys hnext =>
          cases hanswers with
          | cons hanswers hreplies =>
              obtain ⟨name, rfl⟩ := hsets.exists_key hconveys
              obtain ⟨text, hcurrent, rfl⟩ := currentValue?_of_sets hconveys hanswers hsets
              exact gives_of_current hnext hreplies hcurrent hkept hasks
  | cons exchange earlier ih =>
      cases hconveys with
      | cons _ hnext =>
          cases hanswers with
          | cons _ hreplies => exact ih hnext hreplies

/-! ## What a session does -/

/-- A session of native calls does what the same messages do that are put to the store directly, as
long as nothing fails in the machine and the operands are there: every call ends as the store would
have answered, the store and its disk end up the same, no call changes an object that it finds or
leaves an exception behind, and a value that was set is given back byte for byte until its key is
set again. -/
theorem serve_simulates {program : Program} {number : Nat}
    (hnumber : number < program.stores.length) {turns : List Turn} {messages : List Message}
    (hturns : List.Forall₂ Turn.Says turns messages) :
    let served := serve number turns program
    let direct := Message.putAll messages ⟨program.storeAt number, program.host⟩
    List.Forall₂ Exchange.Answers served.1 direct.1 ∧
      served.2.storeAt number = direct.2.store ∧ served.2.host.disk = direct.2.host.disk ∧
      (∀ exchange ∈ served.1, exchange.before.Keeps exchange.after) ∧
      ∀ earlier set between get later key value,
        served.1 = earlier ++ set :: (between ++ get :: later) → set.Sets key value →
        (∀ exchange ∈ between, ∀ other, ¬exchange.Sets key other) → get.AsksFor key →
        get.Gives value := by
  intro served direct
  obtain ⟨hanswers, hkeeps, hlast⟩ :=
    serve_mirrors hturns (⟨hnumber, rfl, rfl⟩ : Mirrors program number _)
  refine ⟨hanswers, hlast.same.store, hlast.same.disk, hkeeps, ?_⟩
  intro earlier set between get later key value hserved hsets hkept hasks
  have hconveys := serve_conveys hturns number program
  rw [show (serve number turns program).1 = _ from hserved] at hanswers hconveys
  exact gives_of_sets hconveys hanswers hsets hkept hasks

/-- A character beyond U+FFFF is set and read back. -/
theorem serve_simulates_surrogates :
    let surrogates : List UInt8 := [0xED, 0xA0, 0xBD, 0xED, 0xB8, 0x80]
    let turns : List Turn :=
      [⟨{ objects := #[.text [107], .array #[1], .text surrogates, .array #[3]] },
        .setKeysAndValues 2 4⟩, ⟨{ objects := #[.text [107]] }, .value 1⟩]
    let messages : List Message := [.setKeysAndValues ["k"] ["😀"], .value "k"]
    let program : Program :=
      { host := ⟨⟨.empty, [], 0, fun _ => none⟩, {}, []⟩, stores := [Store.ofDefaults .empty] }
    0 < program.stores.length ∧ List.Forall₂ Turn.Says turns messages ∧
      (serve 0 turns program).2.storeAt 0 =
        (Message.putAll messages ⟨program.storeAt 0, program.host⟩).2.store ∧
      ∃ set get, (serve 0 turns program).1 = [set, get] ∧ get.Gives surrogates := by
  intro surrogates turns messages program
  have hnumber : 0 < program.stores.length := Nat.succ_pos 0
  have hkey : ModifiedUtf8.decode [107] = .ok "k" := ModifiedUtf8.decode_encode "k"
  have hvalue : ModifiedUtf8.decode surrogates = .ok "😀" := ModifiedUtf8.decode_encode "😀"
  have hturns : List.Forall₂ Turn.Says turns messages := by
    refine .cons ⟨⟨fun _ _ => rfl, rfl⟩, ?_⟩ (.cons ⟨⟨fun _ _ => rfl, rfl⟩, ?_⟩ .nil)
    · have hkeys : turns[0].machine.HoldsAll 2 [some "k"] :=
        ⟨#[1], rfl, .cons ⟨[107], rfl, hkey⟩ .nil⟩
      have hvalues : turns[0].machine.HoldsAll 4 [some "😀"] :=
        ⟨#[3], rfl, .cons ⟨surrogates, rfl, hvalue⟩ .nil⟩
      exact .setKeysAndValues hkeys hvalues
    · exact .value ⟨[107], rfl, hkey⟩
  obtain ⟨_, hstore, _, _, hgives⟩ := serve_simulates hnumber hturns
  refine ⟨hnumber, hturns, hstore, _, _, rfl, ?_⟩
  refine hgives [] _ [] _ [] [107] surrogates rfl ?_ ?_ ⟨1, rfl, rfl⟩
  · refine ⟨2, 4, #[1], #[3], Handle.null, 0, rfl, rfl, rfl, ?_, rfl, ?_, rfl⟩
    · decide +kernel +zetaReduce
    · intro later hlt
      rw [List.getElem?_eq_none hlt]
      simp
  · intro exchange hmem
    cases hmem

end Native

end LauncherOptions
