import LauncherOptions.Proofs.ModifiedUtf8.Units
import Mathlib.Data.List.TakeWhile

/-! # Modified UTF-8 as a one-to-one encoding

Reading by code units accepts exactly the bytes of texts (`decodeUnits_eq_ok_iff`). Both directions
take a shorter way for texts that plain UTF-8 would do for, and the two ways are chosen by different
tests; but a text that cannot be written as plain UTF-8 shows in its bytes as well. So bytes are
read as a text exactly if they are what is written for it (`decode_eq_ok_iff_encode`).
-/

namespace LauncherOptions.ModifiedUtf8

open Text.Utf8

/-! ## Surrogates -/

theorem isHighSurrogate_iff {unit : Nat} :
    isHighSurrogate unit = true ↔ 0xD800 ≤ unit ∧ unit ≤ 0xDBFF := by
  simp [isHighSurrogate]

theorem isLowSurrogate_iff {unit : Nat} :
    isLowSurrogate unit = true ↔ 0xDC00 ≤ unit ∧ unit ≤ 0xDFFF := by
  simp [isLowSurrogate]

theorem encodeChar_pairedChar {high low : Nat} (hhigh : isHighSurrogate high = true)
    (hlow : isLowSurrogate low = true) :
    encodeChar (pairedChar high low) = unitForm high ++ unitForm low := by
  rw [isHighSurrogate_iff] at hhigh
  rw [isLowSurrogate_iff] at hlow
  have hcode : (pairedChar high low).toNat = 0x10000 + (high - 0xD800) * 0x400 + (low - 0xDC00) :=
    toNat_charOfNat (.inr (by omega))
  have hhighAgain : highSurrogate (pairedChar high low).toNat = high := by
    rw [hcode, highSurrogate]
    omega
  have hlowAgain : lowSurrogate (pairedChar high low).toNat = low := by
    rw [hcode, lowSurrogate]
    omega
  rw [encodeChar_eq_pair (by omega), hhighAgain, hlowAgain]

theorem isHighSurrogate_highSurrogate {code : Nat} (hbeyond : 0xFFFF < code)
    (hvalid : code < 0x110000) : isHighSurrogate (highSurrogate code) = true := by
  rw [isHighSurrogate_iff, highSurrogate]
  omega

theorem isLowSurrogate_lowSurrogate (code : Nat) :
    isLowSurrogate (lowSurrogate code) = true := by
  rw [isLowSurrogate_iff, lowSurrogate]
  omega

theorem pairedChar_surrogates {c : Char} (hbeyond : 0xFFFF < c.toNat) :
    pairedChar (highSurrogate c.toNat) (lowSurrogate c.toNat) = c := by
  have hcode : 0x10000 + (highSurrogate c.toNat - 0xD800) * 0x400 +
      (lowSurrogate c.toNat - 0xDC00) = c.toNat := by
    unfold highSurrogate lowSurrogate
    omega
  rw [pairedChar, hcode, Char.ofNat_toNat]

/-- A character is no surrogate. -/
theorem not_surrogate (c : Char) :
    isHighSurrogate c.toNat = false ∧ isLowSurrogate c.toNat = false := by
  have hvalid : c.toNat < 0xD800 ∨ 0xDFFF < c.toNat ∧ c.toNat < 0x110000 := c.valid
  rw [← Bool.not_eq_true, ← Bool.not_eq_true, isHighSurrogate_iff, isLowSurrogate_iff]
  omega

theorem encodeChar_ofNat {unit : Nat} (hunit : unit ≤ 0xFFFF)
    (hhigh : isHighSurrogate unit = false) (hlow : isLowSurrogate unit = false) :
    encodeChar (Char.ofNat unit) = unitForm unit := by
  rw [← Bool.not_eq_true, isHighSurrogate_iff] at hhigh
  rw [← Bool.not_eq_true, isLowSurrogate_iff] at hlow
  have hvalid : unit.isValidChar := by
    unfold Nat.isValidChar
    omega
  have hcode := toNat_charOfNat hvalid
  rw [encodeChar_eq_unitForm (by omega), hcode]

/-! ## Reading by code units -/

/-- What follows a code unit that was read is what the reader goes on with. -/
theorem readUnit_cons_eq_ok {offset unit size : Nat} {first : UInt8} {rest : List UInt8}
    (h : readUnit offset (first :: rest) = .ok (unit, size)) :
    unit ≤ 0xFFFF ∧ size = (unitForm unit).length ∧
      first :: rest = unitForm unit ++ rest.drop (size - 1) := by
  obtain ⟨hunit, hsize, after, hbytes⟩ := readUnit_eq_ok_iff.mp h
  refine ⟨hunit, hsize, ?_⟩
  rw [hsize, drop_pred_length hbytes (unitForm_ne_nil unit), hbytes]

/-- One turn of the reader, with a code unit at the front. -/
theorem decodeUnits_unitForm {unit : Nat} (hunit : unit ≤ 0xFFFF) (offset : Nat)
    (after : List UInt8) :
    decodeUnits offset (unitForm unit ++ after) =
      if isHighSurrogate unit then
        match readUnit (offset + (unitForm unit).length) after with
        | .error _ => .error (.loneSurrogate unit)
        | .ok (low, lowSize) =>
          if isLowSurrogate low then
            (decodeUnits (offset + (unitForm unit).length + lowSize) (after.drop lowSize)).map
              (pairedChar unit low :: ·)
          else .error (.loneSurrogate unit)
      else if isLowSurrogate unit then .error (.loneSurrogate unit)
      else (decodeUnits (offset + (unitForm unit).length) after).map (Char.ofNat unit :: ·) := by
  obtain ⟨first, more, hform⟩ := List.exists_cons_of_ne_nil (unitForm_ne_nil unit)
  have hbytes : first :: (more ++ after) = unitForm unit ++ after := by rw [hform]; rfl
  have hread := readUnit_unitForm hunit offset after
  have hturn := decodeUnits.eq_2 offset first (more ++ after)
  rw [hbytes, hread] at hturn
  simp only [drop_pred_length hbytes (unitForm_ne_nil unit)] at hturn
  exact hturn

theorem decodeUnits_encodeChar (c : Char) (offset : Nat) (rest : List UInt8) :
    decodeUnits offset (encodeChar c ++ rest) =
      (decodeUnits (offset + (encodeChar c).length) rest).map (c :: ·) := by
  obtain ⟨hhigh, hlow⟩ := not_surrogate c
  by_cases hbasic : c.toNat ≤ 0xFFFF
  · rw [encodeChar_eq_unitForm hbasic, decodeUnits_unitForm hbasic, Char.ofNat_toNat]
    simp only [hhigh, hlow, Bool.false_eq_true, if_false]
  · have hbeyond : 0xFFFF < c.toNat := by omega
    have hvalid : c.toNat < 0xD800 ∨ 0xDFFF < c.toNat ∧ c.toNat < 0x110000 := c.valid
    have hhighUnit : highSurrogate c.toNat ≤ 0xFFFF := by
      unfold highSurrogate
      omega
    have hlowUnit : lowSurrogate c.toNat ≤ 0xFFFF := by
      unfold lowSurrogate
      omega
    rw [encodeChar_eq_pair hbeyond, List.append_assoc, decodeUnits_unitForm hhighUnit,
      readUnit_unitForm hlowUnit]
    simp only [isHighSurrogate_highSurrogate hbeyond (by omega), isLowSurrogate_lowSurrogate,
      if_true, pairedChar_surrogates hbeyond, List.drop_left, List.length_append, Nat.add_assoc]

theorem decodeUnits_flatMap (text : List Char) (offset : Nat) :
    decodeUnits offset (text.flatMap encodeChar) = .ok text := by
  induction text generalizing offset with
  | nil => rw [List.flatMap_nil, decodeUnits]
  | cons c rest ih => rw [List.flatMap_cons, decodeUnits_encodeChar, ih]; rfl

theorem decodeUnits_eq_ok {offset : Nat} {bytes : List UInt8} {text : List Char}
    (h : decodeUnits offset bytes = .ok text) : text.flatMap encodeChar = bytes := by
  fun_induction decodeUnits offset bytes generalizing text with
  | case1 => cases h; rfl
  | case2 => cases h
  | case3 => cases h
  | case4 offset first rest unit size hread after hhigh low lowSize hreadLow hlow =>
      rename_i ih
      obtain ⟨_, _, hbytes⟩ := readUnit_cons_eq_ok hread
      obtain ⟨_, hlowSize, last, hafter⟩ := readUnit_eq_ok_iff.mp hreadLow
      obtain ⟨more, hmore, rfl⟩ := exists_of_map_eq_ok h
      rw [List.flatMap_cons, ih hmore, encodeChar_pairedChar hhigh hlow, hbytes, hafter,
        hlowSize, List.drop_left, List.append_assoc, ← hafter]
  | case5 => cases h
  | case6 => cases h
  | case7 offset first rest unit size hread after hhigh hlow =>
      rename_i ih
      obtain ⟨hunit, _, hbytes⟩ := readUnit_cons_eq_ok hread
      obtain ⟨more, hmore, rfl⟩ := exists_of_map_eq_ok h
      rw [List.flatMap_cons, ih hmore, encodeChar_ofNat hunit (by simpa using hhigh)
        (by simpa using hlow), hbytes]

theorem decodeUnits_eq_ok_iff {offset : Nat} {bytes : List UInt8} {text : List Char} :
    decodeUnits offset bytes = .ok text ↔ text.flatMap encodeChar = bytes := by
  constructor
  · exact decodeUnits_eq_ok
  · rintro rfl
    exact decodeUnits_flatMap text offset

/-! ## The two ways agree -/

theorem encodeChar_of_not_isSpecial {c : Char} (h : isSpecial c = false) :
    encodeChar c = String.utf8EncodeChar c := by
  simp only [isSpecial, Bool.or_eq_false_iff, beq_eq_false_iff_ne, decide_eq_false_iff_not] at h
  rw [encodeChar, if_neg h.1, if_neg h.2]

theorem utf8_eq_flatMap {text : String} (h : text.toList.any isSpecial = false) :
    Text.Utf8.encode text = text.toList.flatMap encodeChar := by
  rw [List.any_eq_false] at h
  rw [Text.Utf8.encode, List.flatMap_def, List.flatMap_def]
  congr 1
  apply List.map_congr_left
  intro c hc
  exact (encodeChar_of_not_isSpecial (by simpa using h c hc)).symm

/-- The bytes of a text are those of its characters, whichever way they are written. -/
theorem encode_eq_flatMap (text : String) : encode text = text.toList.flatMap encodeChar := by
  unfold encode
  split
  · rfl
  next h => exact utf8_eq_flatMap (by simpa using h)

theorem isSpecial_iff {c : Char} : isSpecial c = true ↔ c.toNat = 0 ∨ 0xFFFF < c.toNat := by
  simp [isSpecial]

/-- A character that plain UTF-8 writes differently has a byte that gives it away. -/
theorem any_isSpecialByte_encodeChar {c : Char} (h : isSpecial c = true) :
    (encodeChar c).any isSpecialByte = true := by
  rcases isSpecial_iff.mp h with hzero | hbeyond
  · rw [encodeChar, if_pos hzero]
    decide
  · have hvalid : c.toNat < 0xD800 ∨ 0xDFFF < c.toNat ∧ c.toNat < 0x110000 := c.valid
    have hfirst : 0xE0 + highSurrogate c.toNat / 0x1000 = 0xED := by
      unfold highSurrogate
      omega
    rw [encodeChar, if_neg (by omega), if_pos hbeyond, threeBytes, hfirst]
    rfl

/-- Plain UTF-8 gives such a character away as well: by a null byte or by a form of four bytes. -/
theorem any_isSpecialByte_utf8EncodeChar {c : Char} (h : isSpecial c = true) :
    (String.utf8EncodeChar c).any isSpecialByte = true := by
  rw [isSpecial_iff] at h
  change c.val.toNat = 0 ∨ 0xFFFF < c.val.toNat at h
  unfold String.utf8EncodeChar
  rcases h with hzero | hbeyond
  · rw [hzero]
    decide
  · have hsize : c.val.toNat / 262144 % 8 + 240 < 256 := by omega
    have hfirst : isSpecialByte (UInt8.ofNat (c.val.toNat / 262144 % 8 + 240)) = true := by
      simp only [isSpecialByte, Bool.or_eq_true, decide_eq_true_eq, le_ofNat_iff hsize,
        UInt8.reduceToNat]
      omega
    simp only [show ¬c.val.toNat ≤ 127 by omega, show ¬c.val.toNat ≤ 2047 by omega,
      show ¬c.val.toNat ≤ 65535 by omega, if_false, List.any_cons, hfirst, Bool.true_or]

/-- Bytes without a telling one were written for a text without special characters. -/
theorem not_isSpecial_of_flatMap {form : Char → List UInt8}
    (hform : ∀ c, isSpecial c = true → (form c).any isSpecialByte = true) {text : List Char}
    (h : (text.flatMap form).any isSpecialByte = false) : text.any isSpecial = false := by
  rw [List.any_eq_false]
  intro c hc hspecial
  obtain ⟨byte, hbyte, htelling⟩ := List.any_eq_true.mp (hform c hspecial)
  rw [List.any_eq_false] at h
  exact h byte (List.mem_flatMap.mpr ⟨c, hc, hbyte⟩) htelling

/-- Bytes that are read as a text are those that are written for it. -/
theorem encode_eq_of_decode {bytes : List UInt8} {text : String} (h : decode bytes = .ok text) :
    encode text = bytes := by
  unfold decode at h
  split at h
  next hspecial =>
    obtain ⟨chars, hchars, rfl⟩ := exists_of_map_eq_ok h
    rw [encode_eq_flatMap, String.toList_ofList]
    exact decodeUnits_eq_ok_iff.mp hchars
  next hplain =>
    have hbytes := decode_eq_ok_iff.mp (eq_ok_of_mapError_eq_ok h)
    rw [Bool.not_eq_true, ← hbytes] at hplain
    have htext := not_isSpecial_of_flatMap (fun _ => any_isSpecialByte_utf8EncodeChar) hplain
    rw [encode_eq_flatMap, ← utf8_eq_flatMap htext, hbytes]

/-- What is written for a text is read as that text. -/
theorem decode_encode (text : String) : decode (encode text) = .ok text := by
  unfold decode
  split
  next hspecial =>
    rw [encode_eq_flatMap, decodeUnits_eq_ok_iff.mpr rfl]
    exact congrArg Except.ok String.ofList_toList
  next hplain =>
    rw [Bool.not_eq_true, encode_eq_flatMap] at hplain
    have htext := not_isSpecial_of_flatMap (fun _ => any_isSpecialByte_encodeChar) hplain
    rw [encode_eq_flatMap, ← utf8_eq_flatMap htext, Text.Utf8.decode_encode]
    rfl

/-- Bytes are read as a text exactly if they are what is written for that text. So reading undoes
writing, writing undoes reading, and bytes that are written for no text are refused. -/
theorem decode_eq_ok_iff_encode (bytes : List UInt8) (text : String) :
    decode bytes = .ok text ↔ encode text = bytes := by
  constructor
  · exact encode_eq_of_decode
  · rintro rfl
    exact decode_encode text

/-! ## Null bytes -/

theorem zero_not_mem_encodeChar (c : Char) : 0 ∉ encodeChar c := by
  by_cases hbasic : c.toNat ≤ 0xFFFF
  · rw [encodeChar_eq_unitForm hbasic]
    exact zero_not_mem_unitForm hbasic
  · have hvalid : c.toNat < 0xD800 ∨ 0xDFFF < c.toNat ∧ c.toNat < 0x110000 := c.valid
    have hhigh : highSurrogate c.toNat ≤ 0xFFFF := by
      unfold highSurrogate
      omega
    have hlow : lowSurrogate c.toNat ≤ 0xFFFF := by
      unfold lowSurrogate
      omega
    rw [encodeChar_eq_pair (Nat.lt_of_not_le hbasic), List.mem_append, not_or]
    exact ⟨zero_not_mem_unitForm hhigh, zero_not_mem_unitForm hlow⟩

theorem zero_not_mem_encode (text : String) : 0 ∉ encode text := by
  rw [encode_eq_flatMap]
  intro hmem
  obtain ⟨c, _, hzero⟩ := List.mem_flatMap.mp hmem
  exact zero_not_mem_encodeChar c hzero

/-- A text has no null byte, so what is cut off at the first one is the whole of it. -/
theorem takeWhile_encode (text : String) : (encode text).takeWhile (· ≠ 0) = encode text := by
  rw [List.takeWhile_eq_self_iff]
  intro byte hbyte
  simp only [decide_eq_true_eq]
  intro hzero
  exact zero_not_mem_encode text (hzero ▸ hbyte)

end LauncherOptions.ModifiedUtf8
