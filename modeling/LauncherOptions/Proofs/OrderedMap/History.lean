import LauncherOptions.Proofs.OrderedMap
import Mathlib.Data.List.Induction
import Mathlib.Data.List.Perm.Basic

/-! # Insertion-ordered maps over a history of changes

A map that starts empty is changed by insertions and removals. What it holds is known from the
history alone: a key has the value that its last change gave it (`heldAfter?`), and the keys stand
in the order of the last insertions that found them absent (`EntersLast`). One more change keeps
this (`Faithful.perform`), so every history does (`faithful_replay`), and there is no other map of
which it is true (`Faithful.unique`). Main statement: `replay_faithful`.
-/

namespace LauncherOptions.OrderedMap

variable {α β : Type}

/-! ## Histories -/

/-- A change of a map. -/
inductive Change (α β : Type)
  | insert (key : α) (value : β)
  | remove (key : α)

def Change.key : Change α β → α
  | .insert key _ => key
  | .remove key => key

/-- The value that a change leaves under its key. -/
def Change.value? : Change α β → Option β
  | .insert _ value => some value
  | .remove _ => none

variable [DecidableEq α]

/-- Makes a change and hands out the value that was under its key. -/
def perform (map : OrderedMap α β) : Change α β → Option β × OrderedMap α β
  | .insert key value => map.exchange key value
  | .remove key => map.take key

/-- Makes one more change, after others that have handed out values of their own. -/
def proceed (state : List (Option β) × OrderedMap α β) (change : Change α β) :
    List (Option β) × OrderedMap α β :=
  let (old, map) := state.2.perform change
  (state.1 ++ [old], map)

/-- Makes all changes of a history, the first of them to the empty map. What they hand out is listed
in their order. -/
def replay (history : List (Change α β)) : List (Option β) × OrderedMap α β :=
  history.foldl proceed ([], empty)

theorem replay_concat (history : List (Change α β)) (change : Change α β) :
    replay (history ++ [change]) = proceed (replay history) change :=
  List.foldl_concat ..

/-! ## What a history says -/

/-- The value that the last change of a key has left there. -/
def heldAfter? (history : List (Change α β)) (key : α) : Option β :=
  (history.findRev? fun change => change.key = key).bind Change.value?

/-- A key is inserted at a time at which it is absent. -/
def Enters (history : List (Change α β)) (time : Nat) (key : α) : Prop :=
  (∃ value, history[time]? = some (.insert key value)) ∧ heldAfter? (history.take time) key = none

/-- A key is inserted at a time at which it is absent, and not again at a later one. -/
def EntersLast (history : List (Change α β)) (time : Nat) (key : α) : Prop :=
  Enters history time key ∧ ∀ later, Enters history later key → later ≤ time

section

variable {history : List (Change α β)} {change : Change α β} {time : Nat} {key : α}

theorem heldAfter?_concat :
    heldAfter? (history ++ [change]) key =
      if key = change.key then change.value? else heldAfter? history key := by
  simp only [heldAfter?, List.findRev?_eq_find?_reverse, List.reverse_append,
    List.reverse_singleton, List.singleton_append, List.find?_cons]
  by_cases h : change.key = key
  · simp [h]
  · have hne : ¬key = change.key := fun heq => h heq.symm
    simp [h, hne]

theorem Enters.lt (h : Enters history time key) : time < history.length := by
  obtain ⟨⟨value, hfound⟩, _⟩ := h
  exact (List.getElem?_eq_some_iff.mp hfound).1

/-- The only entry that one more change can add is its own. -/
theorem enters_concat :
    Enters (history ++ [change]) time key ↔
      Enters history time key ∨
        time = history.length ∧ (∃ value, change = .insert key value) ∧
          heldAfter? history key = none := by
  rcases Nat.lt_trichotomy time history.length with hlt | rfl | hgt
  · have htake : (history ++ [change]).take time = history.take time :=
      List.take_append_of_le_length (Nat.le_of_lt hlt)
    simp [Enters, htake, List.getElem?_append_left hlt, Nat.ne_of_lt hlt]
  · simp [Enters]
  · have hnone : (history ++ [change])[time]? = none := by
      rw [List.getElem?_eq_none_iff, List.length_append, List.length_singleton]
      omega
    have hold : history[time]? = none := List.getElem?_eq_none_iff.mpr (Nat.le_of_lt hgt)
    simp [Enters, hnone, hold, Nat.ne_of_gt hgt]

/-- A change that is no entry of a key leaves its last one. -/
theorem entersLast_concat
    (h : ¬((∃ value, change = .insert key value) ∧ heldAfter? history key = none)) :
    EntersLast (history ++ [change]) time key ↔ EntersLast history time key := by
  have henters : ∀ time, Enters (history ++ [change]) time key ↔ Enters history time key := by
    intro time
    rw [enters_concat, or_iff_left]
    rintro ⟨-, hadded⟩
    exact h hadded
  simp only [EntersLast, henters]

theorem entersLast_concat_self {value : β} (h : heldAfter? history key = none) :
    EntersLast (history ++ [.insert key value]) history.length key := by
  refine ⟨enters_concat.mpr (.inr ⟨rfl, ⟨value, rfl⟩, h⟩), fun later hlater => ?_⟩
  have hlt := hlater.lt
  rw [List.length_append, List.length_singleton] at hlt
  exact Nat.le_of_lt_succ hlt

theorem EntersLast.unique {other : Nat} (h : EntersLast history time key)
    (hother : EntersLast history other key) : time = other :=
  Nat.le_antisymm (hother.2 time h.1) (h.2 other hother.1)

end

/-- The last entry of one key comes before that of another. -/
def EntersBefore (history : List (Change α β)) (first second : α) : Prop :=
  ∃ earlier later, EntersLast history earlier first ∧ EntersLast history later second ∧
    earlier < later

theorem EntersBefore.asymm {history : List (Change α β)} {first second : α}
    (h : EntersBefore history first second) : ¬EntersBefore history second first := by
  rintro ⟨secondTime, firstTime, hsecond, hfirst, hlt⟩
  obtain ⟨earlier, later, hearlier, hlater, hbefore⟩ := h
  rw [hearlier.unique hfirst, hlater.unique hsecond] at hbefore
  omega

/-! ## The map after a history -/

/-- The map holds what the history says: each key leads to what its last change has left there, and
the keys are listed by their last entries. -/
structure Faithful (history : List (Change α β)) (map : OrderedMap α β) : Prop where
  get? : ∀ key, map.get? key = heldAfter? history key
  entered : ∀ key ∈ map.keys, ∃ time, EntersLast history time key
  order : map.keys.Pairwise (EntersBefore history)

theorem faithful_empty : Faithful [] (empty : OrderedMap α β) where
  get? _ := rfl
  entered _ h := absurd h List.not_mem_nil
  order := List.Pairwise.nil

section

variable {history : List (Change α β)} {map : OrderedMap α β}

theorem Faithful.perform_fst (h : Faithful history map) (change : Change α β) :
    (map.perform change).1 = heldAfter? history change.key := by
  cases change with
  | insert key value => exact h.get? key
  | remove key => exact h.get? key

theorem Faithful.get?_perform (h : Faithful history map) (change : Change α β) (key : α) :
    (map.perform change).2.get? key = heldAfter? (history ++ [change]) key := by
  rw [heldAfter?_concat, ← h.get?]
  cases change with
  | insert other value => exact get?_insert map other value key
  | remove other => exact get?_erase map other key

/-- A change that is no entry of any key, and leaves a part of the keys in their order. -/
theorem Faithful.of_sublist (h : Faithful history map) {change : Change α β}
    (hkeys : (map.perform change).2.keys.Sublist map.keys)
    (hchange : ∀ key, ¬((∃ value, change = .insert key value) ∧ heldAfter? history key = none)) :
    Faithful (history ++ [change]) (map.perform change).2 where
  get? := h.get?_perform change
  entered key hkey := by
    obtain ⟨time, htime⟩ := h.entered key (hkeys.subset hkey)
    exact ⟨time, (entersLast_concat (hchange key)).mpr htime⟩
  order := by
    refine (h.order.sublist hkeys).imp ?_
    rintro first second ⟨earlier, later, hearlier, hlater, hlt⟩
    exact ⟨earlier, later, (entersLast_concat (hchange first)).mpr hearlier,
      (entersLast_concat (hchange second)).mpr hlater, hlt⟩

/-- A key that was absent comes last, both in the map and in the history. -/
theorem Faithful.enter (h : Faithful history map) {key : α} (habsent : key ∉ map.keys)
    (value : β) : Faithful (history ++ [.insert key value]) (map.insert key value) := by
  have hnone : heldAfter? history key = none := by rw [← h.get?, get?_eq_none_iff.mpr habsent]
  have hnew : EntersLast (history ++ [.insert key value]) history.length key :=
    entersLast_concat_self hnone
  have hold : ∀ {other time}, other ∈ map.keys → EntersLast history time other →
      EntersLast (history ++ [.insert key value]) time other := by
    intro other time hother htime
    refine (entersLast_concat ?_).mpr htime
    rintro ⟨⟨_, hinsert⟩, -⟩
    cases hinsert
    exact habsent hother
  have hkeys : (map.insert key value).keys = map.keys ++ [key] := by
    rw [keys_insert, if_neg habsent]
  refine ⟨h.get?_perform (.insert key value), ?_, ?_⟩
  · intro other hother
    rw [hkeys, List.mem_append, List.mem_singleton] at hother
    rcases hother with hother | rfl
    · obtain ⟨time, htime⟩ := h.entered other hother
      exact ⟨time, hold hother htime⟩
    · exact ⟨history.length, hnew⟩
  · rw [hkeys, List.pairwise_append]
    refine ⟨?_, List.pairwise_singleton _ key, ?_⟩
    · refine h.order.imp_of_mem ?_
      rintro first second hfirst hsecond ⟨earlier, later, hearlier, hlater, hlt⟩
      exact ⟨earlier, later, hold hfirst hearlier, hold hsecond hlater, hlt⟩
    · intro other hother last hlast
      rw [List.mem_singleton] at hlast
      obtain ⟨time, htime⟩ := h.entered other hother
      exact ⟨time, history.length, hold hother htime, hlast ▸ hnew, htime.1.lt⟩

/-- One more change. -/
theorem Faithful.perform (h : Faithful history map) (change : Change α β) :
    Faithful (history ++ [change]) (map.perform change).2 := by
  cases change with
  | insert key value =>
      by_cases hkey : key ∈ map.keys
      · -- the key keeps its place, and the insertion is no entry
        apply h.of_sublist
        · change (map.insert key value).keys.Sublist map.keys
          rw [keys_insert, if_pos hkey]
        · rintro other ⟨⟨_, hinsert⟩, hnone⟩
          cases hinsert
          rw [← h.get?, get?_eq_none_iff] at hnone
          exact hnone hkey
      · exact h.enter hkey value
  | remove key =>
      apply h.of_sublist
      · change (map.erase key).keys.Sublist map.keys
        rw [keys_erase]
        exact List.filter_sublist
      · rintro other ⟨⟨_, hinsert⟩, -⟩
        cases hinsert

/-- What the history says leaves no choice: only one map holds it. -/
theorem Faithful.unique {other : OrderedMap α β} (h : Faithful history map)
    (hother : Faithful history other) : map = other := by
  have hget : ∀ key, map.get? key = other.get? key := by
    intro key
    rw [h.get?, hother.get?]
  have hperm : map.keys.Perm other.keys := (perm_of_get? hget).map Prod.fst
  apply ext_of_keys_of_get? _ hget
  apply hperm.eq_of_pairwise _ h.order hother.order
  intro first second _ _ hbefore hafter
  exact absurd hafter hbefore.asymm

end

/-- After any history, the map holds what the history says. -/
theorem faithful_replay (history : List (Change α β)) : Faithful history (replay history).2 := by
  induction history using List.reverseRecOn with
  | nil => exact faithful_empty
  | append_singleton history change ih =>
      rw [replay_concat]
      exact ih.perform change

theorem length_replay (history : List (Change α β)) :
    (replay history).1.length = history.length := by
  induction history using List.reverseRecOn with
  | nil => rfl
  | append_singleton history change ih =>
      rw [replay_concat, proceed, List.length_append, List.length_append, ih]
      rfl

/-- Each change hands out what was under its key just before it. -/
theorem replay_fst_getElem? (history : List (Change α β)) (time : Nat) :
    (replay history).1[time]? =
      history[time]?.map fun change => heldAfter? (history.take time) change.key := by
  induction history using List.reverseRecOn with
  | nil => rfl
  | append_singleton history change ih =>
      have hold := (faithful_replay history).perform_fst change
      rw [replay_concat, proceed]
      rcases Nat.lt_trichotomy time history.length with hlt | rfl | hgt
      · rw [List.getElem?_append_left (by rwa [length_replay]), ih, List.getElem?_append_left hlt,
          List.take_append_of_le_length (Nat.le_of_lt hlt)]
      · rw [← length_replay history, List.getElem?_concat_length, length_replay,
          List.getElem?_concat_length, List.take_left, hold]
        rfl
      · have hout : history.length + 1 ≤ time := hgt
        rw [List.getElem?_eq_none_iff.mpr (by simpa [length_replay] using hout),
          List.getElem?_eq_none_iff.mpr (by simpa using hout)]
        rfl

theorem ofList_eq_replay (entries : List (α × β)) :
    ofList entries = (replay (entries.map fun entry => .insert entry.1 entry.2)).2 := by
  induction entries using List.reverseRecOn with
  | nil => rfl
  | append_singleton entries entry ih =>
      rw [List.map_append, List.map_singleton, replay_concat, ofList, insertMany_append, ← ofList,
        ih]
      rfl

theorem contains_iff {map : OrderedMap α β} {key : α} :
    map.contains key = true ↔ key ∈ map.keys := by
  simp [contains, keys]

/-- Over any history of insertions and removals, a map is the list that the history describes, and
all that can be asked of it is answered from that list. Keys are unique and each leads to the value
of its last change, if that was an insertion; they are ordered by the last insertions that found
them absent; and each change hands out what its key held just before. Maps are equal exactly if
their lists are, and the entries of a map inserted anew make the same map. -/
theorem replay_faithful (history : List (Change α β)) :
    let map := (replay history).2
    map.keys.Nodup ∧
      (∀ key value, map.get? key = some value ↔
        (history.findRev? fun change => change.key = key) = some (.insert key value)) ∧
      (∀ key ∈ map.keys, ∃ time, EntersLast history time key) ∧
      map.keys.Pairwise (EntersBefore history) ∧
      (∀ other, Faithful history other → other = map) ∧
      (∀ time, (replay history).1[time]? =
        history[time]?.map fun change => (replay (history.take time)).2.get? change.key) ∧
      (∀ key value, map.get? key = some value ↔ (key, value) ∈ map.entries) ∧
      (∀ key, map.contains key = true ↔ key ∈ map.keys) ∧
      map.keys = map.entries.map Prod.fst ∧
      map.size = map.entries.length ∧
      (map.isEmpty = true ↔ map.entries = []) ∧
      (∀ others, (replay others).2 = map ↔ (replay others).2.entries = map.entries) ∧
      ofList map.entries = map ∧
      ∀ entries : List (α × β),
        ofList entries = (replay (entries.map fun entry => .insert entry.1 entry.2)).2 := by
  intro map
  have hfaithful : Faithful history map := faithful_replay history
  refine ⟨map.nodup, ?_, hfaithful.entered, hfaithful.order, fun _ h => h.unique hfaithful, ?_,
    fun _ _ => get?_eq_some_iff, fun _ => contains_iff, rfl, rfl, List.isEmpty_iff,
    fun _ => ⟨congrArg entries, ext_entries⟩, ofList_entries map, ofList_eq_replay⟩
  · intro key value
    rw [hfaithful.get?, heldAfter?, Option.bind_eq_some_iff]
    constructor
    · rintro ⟨change, hfound, hvalue⟩
      have hkey : change.key = key := by
        rw [List.findRev?_eq_find?_reverse] at hfound
        simpa using List.find?_some hfound
      cases change with
      | insert other found =>
          cases hkey
          cases hvalue
          exact hfound
      | remove other => cases hvalue
    · exact fun hfound => ⟨_, hfound, rfl⟩
  · intro time
    rw [replay_fst_getElem?]
    congr 1
    funext change
    exact ((faithful_replay _).get? change.key).symm

-- a key that is removed and inserted again moves to the end
example :
    replay [.insert "a" 1, .insert "b" 2, .insert "a" 3, .remove "a", .insert "a" 4] =
      ([none, none, some 1, some 3, none], ofList [("b", 2), ("a", 4)]) := by decide

end LauncherOptions.OrderedMap
