import LauncherOptions.Proofs.Store.Overlay
import LauncherOptions.Proofs.Text.Trim
import Mathlib.Data.List.Forall2

/-! # The readers of a store agree

A value is looked up in the overrides and then in the defaults, while the current options, their
keys and the arguments for the virtual machine come from the overlay of the two. Both ways lead to
the same answers (`currentValue?_eq`): the keys are those that have a value, with the default ones
in front, and there is one argument for each of them, in their order (`forall₂_arguments`). This
holds for all defaults and overrides. Main statement: `readers_agree`.
-/

namespace LauncherOptions.Store

/-- The argument for an option: the key and, right after it, the value from its first character that
is not blank. -/
def IsArgument (key value argument : String) : Prop :=
  ∃ blanks rest, value.toList = blanks ++ rest ∧ (∀ c ∈ blanks, Text.isBlank c = true) ∧
    (∀ c, rest.head? = some c → Text.isBlank c = false) ∧
    argument.toList = key.toList ++ rest

theorem isArgument_trimStart (key value : String) :
    IsArgument key value (key ++ String.ofList (Text.trimStart value.toList)) := by
  obtain ⟨blanks, hvalue, hblanks⟩ := Text.exists_append_trimStart value.toList
  refine ⟨blanks, Text.trimStart value.toList, hvalue, hblanks, ?_, ?_⟩
  · exact fun c => Text.isBlank_head_trimStart
  · rw [String.toList_append, String.toList_ofList]

theorem mem_currentKeys_iff {store : Store} {key : String} :
    key ∈ store.currentKeys ↔ ∃ value, store.currentValue? key = some value := by
  simp only [currentKeys, currentValue?_eq, OrderedMap.mem_keys_iff]

theorem mem_defaultKeys_iff {store : Store} {key : String} :
    key ∈ store.defaultKeys ↔ ∃ value, store.defaultValue? key = some value :=
  OrderedMap.mem_keys_iff

theorem defaultKeys_isPrefix (store : Store) : store.defaultKeys <+: store.currentKeys := by
  rw [currentKeys, current, OrderedMap.keys_overlay]
  exact List.prefix_append _ _

/-- The arguments are those for the current keys and their values, one each and in their order. -/
theorem forall₂_arguments (store : Store) :
    List.Forall₂
      (fun key argument =>
        ∃ value, store.currentValue? key = some value ∧ IsArgument key value argument)
      store.currentKeys store.arguments := by
  rw [currentKeys, OrderedMap.keys, arguments, List.forall₂_map_left_iff,
    List.forall₂_map_right_iff, List.forall₂_same]
  rintro ⟨key, value⟩ hentry
  refine ⟨value, ?_, isArgument_trimStart key value⟩
  rw [currentValue?_eq]
  exact OrderedMap.get?_eq_some_iff.mpr hentry

/-- All readers of a store say the same, whatever its defaults and overrides are: a value that is
looked up is that of the current options; the current keys and the default keys are those that have
a current or a default value; no current key is listed twice, and the default keys come first; and
the arguments are made of the current keys and their values, one for each key in its place. -/
theorem readers_agree (store : Store) :
    (∀ key, store.currentValue? key = store.current.get? key) ∧
      (∀ key, key ∈ store.currentKeys ↔ ∃ value, store.currentValue? key = some value) ∧
      (∀ key, key ∈ store.defaultKeys ↔ ∃ value, store.defaultValue? key = some value) ∧
      store.currentKeys.Nodup ∧ store.defaultKeys <+: store.currentKeys ∧
      List.Forall₂
        (fun key argument =>
          ∃ value, store.currentValue? key = some value ∧ IsArgument key value argument)
        store.currentKeys store.arguments :=
  ⟨store.currentValue?_eq, fun _ => mem_currentKeys_iff, fun _ => mem_defaultKeys_iff,
    store.current.nodup, store.defaultKeys_isPrefix, store.forall₂_arguments⟩

example : (withOverrides (.ofList [("-Xss", "\t\u3000 1m "), ("-ea", "")])
    (.ofList [("-Dk", ""), ("-Xss", " 2 m")])).arguments = ["-Xss2 m", "-ea", "-Dk"] := by
  decide

end LauncherOptions.Store
