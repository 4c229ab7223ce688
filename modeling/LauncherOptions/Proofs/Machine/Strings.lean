import LauncherOptions.Machine.Strings
import LauncherOptions.Proofs.ModifiedUtf8.Utf16

/-! # Texts that are handed to the machine

Bytes with a null byte among them cannot be handed to the machine. The bytes of a text never have
one, so a new string (`newString_eq`) and an exception (`throwNew_eq`) always get as far as the
machine, with all the bytes of their text; so does the name of a class if it holds no null character
(`findClass?_apply`). Main statement: `encode_by_units`.
-/

namespace LauncherOptions

namespace Machine

theorem terminated?_eq_some_iff {bytes handed : List UInt8} :
    terminated? bytes = some handed ↔ 0 ∉ bytes ∧ handed = bytes := by
  unfold terminated?
  split
  next hzero => simpa using fun hnot => absurd hzero (by simpa using hnot)
  next hzero =>
    have hnot : 0 ∉ bytes := by simpa using hzero
    simp [hnot, eq_comm]

theorem terminated?_encode (text : String) :
    terminated? (ModifiedUtf8.encode text) = some (ModifiedUtf8.encode text) :=
  terminated?_eq_some_iff.mpr ⟨ModifiedUtf8.zero_not_mem_encode text, rfl⟩

/-- Whether there is a class is for the machine to say. -/
theorem findClass?_apply {name : String} (h : name.toList.contains '\x00' = false)
    (machine : Machine) :
    findClass? name machine =
      let found := Interface.findClass name machine
      (if found.1 = Handle.null then none else some found.1, found.2) := by
  rw [findClass?, h]
  rfl

/-- Whether a string is made is for the machine to say. -/
theorem newString_eq (text : String) :
    newString text = (do
      let string ← Interface.newString (ModifiedUtf8.encode text)
      if string = Handle.null then throw (.marshal (.stringNotMade text)) else return string) := by
  rw [newString, terminated?_encode]

theorem newString_apply (text : String) (machine : Machine) :
    newString text machine =
      let made := Interface.newString (ModifiedUtf8.encode text) machine
      (if made.1 = Handle.null then .error (.marshal (.stringNotMade text)) else .ok made.1,
        made.2) := by
  rw [newString_eq, Attempt.bind_apply, Attempt.lift_apply]
  dsimp only
  split <;> rfl

/-- Whether an exception is thrown is for the machine to say. -/
theorem throwNew_eq (type : Handle) (message : String) :
    throwNew type message = Interface.throwNew type (ModifiedUtf8.encode message) := by
  rw [throwNew, terminated?_encode]

end Machine

namespace ModifiedUtf8

open Machine

/-- The bytes of a text are the forms of its UTF-16 code units, one after another. So the bytes of
two texts together are those of the one and then of the other, no byte is null or begins four bytes,
and whoever hands the bytes to the machine is not stopped by them. -/
theorem encode_by_units (text : String) :
    encode text = (utf16 text).flatMap unitForm ∧
      (∀ unit ∈ utf16 text, unit ≤ 0xFFFF) ∧
      (∀ more, encode (text ++ more) = encode text ++ encode more) ∧
      (∀ byte ∈ encode text, byte ≠ 0 ∧ byte < 0xF0) ∧
      terminated? (encode text) = some (encode text) ∧
      (∀ machine, newString text machine =
        let made := Interface.newString (encode text) machine
        (if made.1 = Handle.null then .error (.marshal (.stringNotMade text)) else .ok made.1,
          made.2)) ∧
      ∀ type, throwNew type text = Interface.throwNew type (encode text) := by
  refine ⟨encode_eq_flatMap_unitForm text, fun _ => le_of_mem_utf16, encode_append text,
    fun _ => mem_encode, terminated?_encode text, newString_apply text, ?_⟩
  intro type
  exact throwNew_eq type text

end ModifiedUtf8

end LauncherOptions
