import LauncherOptions.Proofs.ModifiedUtf8.Codec

/-! # Modified UTF-8 as an encoding of code units

The virtual machine defines modified UTF-8 by the UTF-16 code units of a text: each unit, surrogate
or not, is written in its own form, and nothing stands between the forms. What is written here
character by character, or copied from UTF-8, comes to the same bytes
(`encode_eq_flatMap_unitForm`). So texts can be written piece by piece (`encode_append`), and
neither a null byte nor a byte of a form of four bytes is ever written (`mem_encode`).
-/

namespace LauncherOptions.ModifiedUtf8

open Text.Utf8

/-- The UTF-16 code units of a character: its code point, or, beyond U+FFFF, the upper and the lower
ten bits of its distance from U+10000, each in a range of its own. -/
def charUnits (c : Char) : List Nat :=
  if c.toNat ≤ 0xFFFF then [c.toNat]
  else [0xD800 + (c.toNat - 0x10000) / 0x400, 0xDC00 + (c.toNat - 0x10000) % 0x400]

/-- The UTF-16 code units of a text. -/
def utf16 (text : String) : List Nat :=
  text.toList.flatMap charUnits

example : utf16 "a\x00\uFFFF😀" = [0x61, 0, 0xFFFF, 0xD83D, 0xDE00] := by decide

theorem le_of_mem_charUnits {c : Char} {unit : Nat} (h : unit ∈ charUnits c) : unit ≤ 0xFFFF := by
  have hvalid : c.toNat < 0xD800 ∨ 0xDFFF < c.toNat ∧ c.toNat < 0x110000 := c.valid
  unfold charUnits at h
  split at h
  next hbasic =>
    rw [List.mem_singleton.mp h]
    exact hbasic
  next hbeyond =>
    simp only [List.mem_cons, List.not_mem_nil, or_false] at h
    omega

theorem le_of_mem_utf16 {text : String} {unit : Nat} (h : unit ∈ utf16 text) : unit ≤ 0xFFFF := by
  obtain ⟨c, _, hunit⟩ := List.mem_flatMap.mp h
  exact le_of_mem_charUnits hunit

theorem utf16_append (text more : String) : utf16 (text ++ more) = utf16 text ++ utf16 more := by
  rw [utf16, String.toList_append, List.flatMap_append]
  rfl

theorem encodeChar_eq_flatMap_unitForm (c : Char) :
    encodeChar c = (charUnits c).flatMap unitForm := by
  unfold charUnits
  split
  next hbasic => rw [encodeChar_eq_unitForm hbasic, List.flatMap_singleton]
  next hbeyond =>
    rw [encodeChar_eq_pair (Nat.lt_of_not_le hbeyond), List.flatMap_cons, List.flatMap_singleton]
    rfl

/-- The bytes of a text are the forms of its code units. -/
theorem encode_eq_flatMap_unitForm (text : String) :
    encode text = (utf16 text).flatMap unitForm := by
  rw [encode_eq_flatMap, utf16, List.flatMap_assoc]
  congr 1
  funext c
  exact encodeChar_eq_flatMap_unitForm c

theorem encode_append (text more : String) :
    encode (text ++ more) = encode text ++ encode more := by
  simp only [encode_eq_flatMap_unitForm, utf16_append, List.flatMap_append]

theorem lt_of_mem_unitForm {unit : Nat} (hunit : unit ≤ 0xFFFF) {byte : UInt8}
    (h : byte ∈ unitForm unit) : byte < 0xF0 := by
  have hbyte : ∀ {value : Nat}, value < 0xF0 → UInt8.ofNat value < 0xF0 := by
    intro value hlt
    exact (ofNat_lt_iff (by omega) _).mpr hlt
  unfold unitForm threeBytes at h
  split at h
  next =>
    rw [List.mem_singleton.mp h]
    exact hbyte (by omega)
  next =>
    split at h
    next =>
      simp only [List.mem_cons, List.not_mem_nil, or_false] at h
      rcases h with rfl | rfl <;> exact hbyte (by omega)
    next =>
      simp only [List.mem_cons, List.not_mem_nil, or_false] at h
      rcases h with rfl | rfl | rfl <;> exact hbyte (by omega)

/-- No byte of a text is null or belongs to a form of four bytes. -/
theorem mem_encode {text : String} {byte : UInt8} (h : byte ∈ encode text) :
    byte ≠ 0 ∧ byte < 0xF0 := by
  refine ⟨fun hzero => zero_not_mem_encode text (hzero ▸ h), ?_⟩
  rw [encode_eq_flatMap_unitForm] at h
  obtain ⟨unit, hunit, hbyte⟩ := List.mem_flatMap.mp h
  exact lt_of_mem_unitForm (le_of_mem_utf16 hunit) hbyte

end LauncherOptions.ModifiedUtf8
