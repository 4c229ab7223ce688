import LauncherOptions.Proofs.ModifiedUtf8.Codec

/-! # How far modified UTF-8 is read

Bytes without special ones are read as plain UTF-8, all others by code units. It makes no difference
to the text which of the two ways is taken (`decode_either_way`). If bytes are refused, the refusal
tells where the longest part ends that can be read (`decode_refused_after_longest`). No character's
bytes are the start of another's, so the characters of a readable start of the bytes are the first
ones of those that were read (`isPrefix_of_flatMap_isPrefix`), and nothing longer can be read if no
character begins where the reading stopped.
-/

namespace LauncherOptions.ModifiedUtf8

open Text.Utf8

/-! ## The two ways of reading -/

theorem isSpecialByte_eq_false_iff {byte : UInt8} :
    isSpecialByte byte = false ↔ byte ≠ 0 ∧ byte ≠ 0xC0 ∧ byte ≠ 0xED ∧ byte < 0xF0 := by
  simp [isSpecialByte, and_assoc]

theorem map_decodeUnits_eq_ok_iff {offset : Nat} {bytes : List UInt8} {text : String} :
    (decodeUnits offset bytes).map String.ofList = .ok text ↔ encode text = bytes := by
  rw [encode_eq_flatMap, ← @decodeUnits_eq_ok_iff offset]
  constructor
  · intro h
    obtain ⟨chars, hchars, rfl⟩ := exists_of_map_eq_ok h
    rw [hchars, String.toList_ofList]
  · intro h
    rw [h]
    exact congrArg Except.ok String.ofList_toList

theorem decode_eq_ok_iff_units {bytes : List UInt8} {text : String} :
    decode bytes = .ok text ↔ (decodeUnits 0 bytes).map String.ofList = .ok text := by
  rw [map_decodeUnits_eq_ok_iff]
  constructor
  · exact encode_eq_of_decode
  · rintro rfl
    exact decode_encode text

theorem decode_of_plain {bytes : List UInt8} (h : bytes.any isSpecialByte = false) :
    decode bytes = (Text.Utf8.decode bytes).mapError .notUtf8 := by
  rw [decode, if_neg (by simp [h])]

theorem utf8_decode_eq_ok_iff_of_plain {bytes : List UInt8}
    (h : bytes.any isSpecialByte = false) {text : String} :
    Text.Utf8.decode bytes = .ok text ↔ decode bytes = .ok text := by
  rw [decode_of_plain h]
  constructor
  · intro hdecode
    rw [hdecode]
    rfl
  · exact eq_ok_of_mapError_eq_ok

/-- Plain UTF-8 is what the core library takes for valid. -/
theorem exists_utf8_decode_iff {bytes : List UInt8} :
    (∃ text, Text.Utf8.decode bytes = .ok text) ↔ bytes.toByteArray.IsValidUTF8 := by
  constructor
  · rintro ⟨text, h⟩
    rw [← decode_eq_ok_iff.mp h]
    exact ⟨text.toList, rfl⟩
  · rintro ⟨chars, h⟩
    refine ⟨String.ofList chars, decode_eq_ok_iff.mpr ?_⟩
    rw [Text.Utf8.encode, String.toList_ofList, ← List.toByteArray_inj, h]
    rfl

/-- The reader of plain UTF-8 accepts what is valid UTF-8. Where no special byte stands it accepts
what the reader of code units accepts, and reads the same text; so bytes are read as a text exactly
if the reader of code units reads them as that text, whichever of the two is asked. -/
theorem decode_either_way (bytes : List UInt8) :
    ((∃ text, Text.Utf8.decode bytes = .ok text) ↔ bytes.toByteArray.IsValidUTF8) ∧
      ((∀ byte ∈ bytes, byte ≠ 0 ∧ byte ≠ 0xC0 ∧ byte ≠ 0xED ∧ byte < 0xF0) →
        ∀ text, Text.Utf8.decode bytes = .ok text ↔
          (decodeUnits 0 bytes).map String.ofList = .ok text) ∧
      ∀ text, decode bytes = .ok text ↔ (decodeUnits 0 bytes).map String.ofList = .ok text := by
  refine ⟨exists_utf8_decode_iff, ?_, fun text => decode_eq_ok_iff_units⟩
  intro hplain text
  have hany : bytes.any isSpecialByte = false := by
    rw [List.any_eq_false]
    intro byte hbyte
    rw [isSpecialByte_eq_false_iff.mpr (hplain byte hbyte)]
    exact Bool.false_ne_true
  rw [utf8_decode_eq_ok_iff_of_plain hany, decode_eq_ok_iff_units]

/-- Characters of one, two and three bytes, the last two on either side of the surrogates. -/
theorem decode_either_way_plain :
    let bytes : List UInt8 :=
      [0x61, 0xC3, 0xA9, 0xE0, 0xA0, 0x80, 0xEC, 0x80, 0x80, 0xEE, 0x80, 0x80]
    Text.Utf8.decode bytes = .ok "aé\u0800\uC000\uE000" ∧
      (decodeUnits 0 bytes).map String.ofList = .ok "aé\u0800\uC000\uE000" := by
  intro bytes
  obtain ⟨_, hplain, _⟩ := decode_either_way bytes
  have hread : Text.Utf8.decode bytes = .ok "aé\u0800\uC000\uE000" := by decide +kernel
  exact ⟨hread, (hplain (by decide +kernel) _).mp hread⟩

/-! ## The longest readable start -/

/-- The first `length` of the bytes can be read, and no more of them. -/
structure ReadableUpTo (bytes : List UInt8) (length : Nat) : Prop where
  le_length : length ≤ bytes.length
  readable : ∃ text, decode (bytes.take length) = .ok text
  longest : ∀ more ≤ bytes.length, (∃ text, decode (bytes.take more) = .ok text) → more ≤ length

theorem exists_decode_iff {bytes : List UInt8} :
    (∃ text, decode bytes = .ok text) ↔ ∃ chars : List Char, chars.flatMap encodeChar = bytes := by
  simp only [decode_eq_ok_iff_units, map_decodeUnits_eq_ok_iff, encode_eq_flatMap]
  constructor
  · rintro ⟨text, h⟩
    exact ⟨text.toList, h⟩
  · rintro ⟨chars, h⟩
    exact ⟨String.ofList chars, by rwa [String.toList_ofList]⟩

/-- The bytes of no character are the start of those of another one. -/
theorem eq_of_encodeChar_isPrefix {c d : Char} (h : encodeChar c <+: encodeChar d) : c = d := by
  -- the bytes of `d` are read as `d` alone, and as `c` with whatever follows
  obtain ⟨rest, hrest⟩ := h
  have hwhole : decodeUnits 0 (encodeChar d) = .ok [d] := by
    rw [decodeUnits_eq_ok_iff, List.flatMap_singleton]
  rw [← hrest, decodeUnits_encodeChar] at hwhole
  obtain ⟨chars, _, hchars⟩ := exists_of_map_eq_ok hwhole
  exact (List.cons.inj hchars).1

theorem eq_of_isPrefix_of_isPrefix {c d : Char} {bytes : List UInt8}
    (hc : encodeChar c <+: bytes) (hd : encodeChar d <+: bytes) : c = d := by
  rcases List.prefix_or_prefix_of_prefix hc hd with h | h
  · exact eq_of_encodeChar_isPrefix h
  · exact (eq_of_encodeChar_isPrefix h).symm

/-- If no character begins after those that were read, what can be read of the bytes are the first
of them. -/
theorem isPrefix_of_flatMap_isPrefix {chars read : List Char} {rest : List UInt8}
    (hrest : ∀ c, ¬encodeChar c <+: rest)
    (h : chars.flatMap encodeChar <+: read.flatMap encodeChar ++ rest) : chars <+: read := by
  induction read generalizing chars with
  | nil =>
      cases chars with
      | nil => exact List.nil_prefix
      | cons c more => exact absurd ((List.prefix_append _ _).trans h) (hrest c)
  | cons d read ih =>
      cases chars with
      | nil => exact List.nil_prefix
      | cons c more =>
          rw [List.flatMap_cons, List.flatMap_cons, List.append_assoc] at h
          obtain rfl : c = d :=
            eq_of_isPrefix_of_isPrefix ((List.prefix_append _ _).trans h) (List.prefix_append _ _)
          rw [List.prefix_append_right_inj] at h
          exact List.cons_prefix_cons.mpr ⟨rfl, ih h⟩

theorem readableUpTo_of_stop (read : List Char) {rest : List UInt8}
    (hrest : ∀ c, ¬encodeChar c <+: rest) :
    ReadableUpTo (read.flatMap encodeChar ++ rest) (read.flatMap encodeChar).length where
  le_length := by simp
  readable := exists_decode_iff.mpr ⟨read, List.take_left.symm⟩
  longest := by
    intro more hmore hreadable
    obtain ⟨chars, hchars⟩ := exists_decode_iff.mp hreadable
    have hprefix : chars.flatMap encodeChar <+: read.flatMap encodeChar ++ rest :=
      hchars ▸ List.take_prefix _ _
    obtain ⟨others, rfl⟩ := isPrefix_of_flatMap_isPrefix hrest hprefix
    have hlength := congrArg List.length hchars
    rw [List.length_take, Nat.min_eq_left hmore] at hlength
    rw [← hlength, List.flatMap_append, List.length_append]
    exact Nat.le_add_right _ _

/-! ## Stopping at a code unit -/

/-- A code unit is told from what follows it. -/
theorem unitForm_append_inj {unit other : Nat} (hunit : unit ≤ 0xFFFF) (hother : other ≤ 0xFFFF)
    {after rest : List UInt8} (h : unitForm unit ++ after = unitForm other ++ rest) :
    unit = other ∧ after = rest := by
  have hread := readUnit_unitForm hunit 0 after
  rw [h, readUnit_unitForm hother] at hread
  obtain ⟨rfl, _⟩ := Prod.mk.inj (Except.ok.inj hread)
  exact ⟨rfl, List.append_cancel_left h⟩

/-- A character begins with a code unit that is no trailing surrogate, and a trailing one follows
if it is a leading one. -/
theorem exists_unit_of_isPrefix {c : Char} {bytes : List UInt8} (h : encodeChar c <+: bytes) :
    ∃ unit ≤ 0xFFFF, ∃ after, bytes = unitForm unit ++ after ∧ isLowSurrogate unit = false ∧
      (isHighSurrogate unit = true →
        ∃ low ≤ 0xFFFF, ∃ rest, after = unitForm low ++ rest ∧ isLowSurrogate low = true) := by
  obtain ⟨rest, rfl⟩ := h
  by_cases hbasic : c.toNat ≤ 0xFFFF
  · obtain ⟨hhigh, hlow⟩ := not_surrogate c
    refine ⟨c.toNat, hbasic, rest, by rw [encodeChar_eq_unitForm hbasic], hlow, ?_⟩
    simp [hhigh]
  · have hvalid : c.toNat < 0xD800 ∨ 0xDFFF < c.toNat ∧ c.toNat < 0x110000 := c.valid
    have hhigh := isHighSurrogate_iff.mp
      (isHighSurrogate_highSurrogate (Nat.lt_of_not_le hbasic) (by omega))
    have hlow := isLowSurrogate_lowSurrogate c.toNat
    refine ⟨highSurrogate c.toNat, by omega, unitForm (lowSurrogate c.toNat) ++ rest, ?_, ?_, ?_⟩
    · rw [encodeChar_eq_pair (Nat.lt_of_not_le hbasic), List.append_assoc]
    · rw [← Bool.not_eq_true, isLowSurrogate_iff]
      omega
    · intro _
      exact ⟨_, (isLowSurrogate_iff.mp hlow).2.trans (by decide), rest, rfl, hlow⟩

/-- Why reading by code units stops at the front of the bytes, which stand at `offset`. -/
inductive Stopped (offset : Nat) (bytes : List UInt8) : Fault → Prop
  /-- No code unit can be read. -/
  | unread {fault : Fault} (hne : bytes ≠ []) (hread : readUnit offset bytes = .error fault) :
      Stopped offset bytes fault
  /-- A leading surrogate is not followed by a trailing one. -/
  | unpaired {unit : Nat} {after : List UInt8} (hbytes : bytes = unitForm unit ++ after)
      (hhigh : isHighSurrogate unit = true)
      (hafter : ∀ low size, readUnit (offset + (unitForm unit).length) after = .ok (low, size) →
        isLowSurrogate low = false) :
      Stopped offset bytes (.loneSurrogate unit)
  /-- A trailing surrogate comes first. -/
  | stray {unit : Nat} {after : List UInt8} (hbytes : bytes = unitForm unit ++ after)
      (hlow : isLowSurrogate unit = true) : Stopped offset bytes (.loneSurrogate unit)

/-- Where reading stops, no character begins. -/
theorem Stopped.not_isPrefix {offset : Nat} {bytes : List UInt8} {fault : Fault}
    (h : Stopped offset bytes fault) (c : Char) : ¬encodeChar c <+: bytes := by
  intro hc
  obtain ⟨unit, hunit, after, hform, hnotLow, hpair⟩ := exists_unit_of_isPrefix hc
  cases h with
  | unread _ hread =>
      rw [hform, readUnit_unitForm hunit] at hread
      cases hread
  | unpaired hbytes hhigh hafter =>
      have hle := (isHighSurrogate_iff.mp hhigh).2
      obtain ⟨rfl, rfl⟩ := unitForm_append_inj hunit (by omega) (hform.symm.trans hbytes)
      obtain ⟨low, hlowUnit, rest, rfl, hlow⟩ := hpair hhigh
      rw [hafter _ _ (readUnit_unitForm hlowUnit _ rest)] at hlow
      cases hlow
  | stray hbytes hlow =>
      have hle := (isLowSurrogate_iff.mp hlow).2
      obtain ⟨rfl, _⟩ := unitForm_append_inj hunit (by omega) (hform.symm.trans hbytes)
      rw [hlow] at hnotLow
      cases hnotLow

/-- The bytes are those of some characters, and then some at which reading stops. -/
def StopsAfter (offset : Nat) (bytes : List UInt8) (fault : Fault) : Prop :=
  ∃ (read : List Char) (rest : List UInt8), bytes = read.flatMap encodeChar ++ rest ∧
    Stopped (offset + (read.flatMap encodeChar).length) rest fault

theorem Stopped.stopsAfter {offset : Nat} {bytes : List UInt8} {fault : Fault}
    (h : Stopped offset bytes fault) : StopsAfter offset bytes fault :=
  ⟨[], bytes, rfl, h⟩

theorem StopsAfter.cons {c : Char} {offset size : Nat} {rest : List UInt8} {fault : Fault}
    (h : StopsAfter (offset + size) rest fault) (hsize : size = (encodeChar c).length) :
    StopsAfter offset (encodeChar c ++ rest) fault := by
  obtain ⟨read, stop, rfl, hstop⟩ := h
  refine ⟨c :: read, stop, by rw [List.flatMap_cons, List.append_assoc], ?_⟩
  rw [List.flatMap_cons, List.length_append, ← hsize, ← Nat.add_assoc]
  exact hstop

/-- Reading by code units fails only where it stops after some characters. -/
theorem stopsAfter_of_decodeUnits {offset : Nat} {bytes : List UInt8} {fault : Fault}
    (h : decodeUnits offset bytes = .error fault) : StopsAfter offset bytes fault := by
  fun_induction decodeUnits offset bytes with
  | case1 => cases h
  | case2 offset first rest cause hread =>
      cases h
      exact (Stopped.unread (List.cons_ne_nil _ _) hread).stopsAfter
  | case3 offset first rest unit size hread after hhigh cause hreadLow =>
      -- why there is no trailing surrogate is not told: the leading one is to blame
      cases h
      obtain ⟨_, hsize, hbytes⟩ := readUnit_cons_eq_ok hread
      refine (Stopped.unpaired hbytes hhigh ?_).stopsAfter
      intro low lowSize hlow
      rw [← hsize, hreadLow] at hlow
      cases hlow
  | case4 offset first rest unit size hread after hhigh low lowSize hreadLow hlow ih =>
      obtain ⟨_, hsize, hbytes⟩ := readUnit_cons_eq_ok hread
      obtain ⟨_, hlowSize, last, hafter⟩ := readUnit_eq_ok_iff.mp hreadLow
      have hform := encodeChar_pairedChar hhigh hlow
      have hwhole : first :: rest = encodeChar (pairedChar unit low) ++ last := by
        rw [hform, List.append_assoc, ← hafter]
        exact hbytes
      have hlast : after.drop lowSize = last := by rw [hafter, hlowSize, List.drop_left]
      have hrest := ih (eq_error_of_map_eq_error h)
      rw [hlast, Nat.add_assoc] at hrest
      rw [hwhole]
      exact hrest.cons (by rw [hform, List.length_append, hsize, hlowSize])
  | case5 offset first rest unit size hread after hhigh low lowSize hreadLow hlow =>
      cases h
      obtain ⟨_, hsize, hbytes⟩ := readUnit_cons_eq_ok hread
      refine (Stopped.unpaired hbytes hhigh ?_).stopsAfter
      intro other otherSize hother
      rw [← hsize, hreadLow] at hother
      cases hother
      simpa using hlow
  | case6 offset first rest unit size hread hhigh hlow =>
      cases h
      obtain ⟨_, _, hbytes⟩ := readUnit_cons_eq_ok hread
      exact (Stopped.stray hbytes hlow).stopsAfter
  | case7 offset first rest unit size hread after hhigh hlow ih =>
      obtain ⟨hunit, hsize, hbytes⟩ := readUnit_cons_eq_ok hread
      have hform := encodeChar_ofNat hunit (by simpa using hhigh) (by simpa using hlow)
      rw [hbytes, ← hform]
      exact (ih (eq_error_of_map_eq_error h)).cons (by rw [hform, hsize])

/-! ## What a refusal says -/

theorem continuation_eq_error {offset : Nat} {bytes : List UInt8} {fault : Fault}
    (h : continuation offset bytes = .error fault) :
    bytes = [] ∧ fault = .truncated ∨ ∃ byte rest, bytes = byte :: rest ∧
      ¬(0x80 ≤ byte ∧ byte ≤ 0xBF) ∧ fault = .notContinuation byte offset := by
  cases bytes with
  | nil => exact .inl ⟨rfl, (Except.error.inj h).symm⟩
  | cons byte rest =>
      rw [continuation] at h
      split at h
      next => cases h
      next hnot => exact .inr ⟨byte, rest, rfl, hnot, (Except.error.inj h).symm⟩

/-- What is said, and in which words, of bytes that are read by code units and refused after the
first `length` of them. -/
inductive UnitsRefused (bytes : List UInt8) (length : Nat) : Fault → String → Prop
  /-- The next byte begins no code unit. -/
  | unexpectedByte {byte : UInt8} (hbyte : bytes[length]? = some byte) :
      UnitsRefused bytes length (.unexpectedByte byte length)
        s!"unexpected byte {Text.hexPadded 2 byte.toNat} at offset {length} in modified UTF-8"
  /-- The next code unit has a shorter form. -/
  | overlong : UnitsRefused bytes length (.overlong length)
      s!"overlong sequence at offset {length} in modified UTF-8"
  /-- A byte after the next one does not continue a code unit. -/
  | notContinuation {byte : UInt8} {offset : Nat}
      (hoffset : offset = length + 1 ∨ offset = length + 2)
      (hbyte : bytes[offset]? = some byte) (hnot : ¬(0x80 ≤ byte ∧ byte ≤ 0xBF)) :
      UnitsRefused bytes length (.notContinuation byte offset)
        s!"expected continuation byte at offset {offset}, found {Text.hexPadded 2 byte.toNat}"
  /-- One or two bytes are left. -/
  | truncated (hleft : length + 1 = bytes.length ∨ length + 2 = bytes.length) :
      UnitsRefused bytes length .truncated "truncated modified UTF-8"
  /-- The next three bytes are a surrogate. -/
  | loneSurrogate {unit : Nat} (hunit : 0xD800 ≤ unit ∧ unit ≤ 0xDFFF)
      (hbytes : (bytes.drop length).take 3 = threeBytes unit) :
      UnitsRefused bytes length (.loneSurrogate unit)
        s!"unpaired surrogate {Text.hexPadded 4 unit} in Java string"

/-- What is said, and in which words, of bytes that are read as plain UTF-8 and refused after the
first `length` of them. -/
inductive PlainRefused (length : Nat) : Fault → String → Prop
  | invalid (bad : Nat) : PlainRefused length (.notUtf8 (.invalid bad length))
      s!"invalid modified UTF-8: invalid utf-8 sequence of {bad} bytes from index {length}"
  | incomplete : PlainRefused length (.notUtf8 (.incomplete length))
      s!"invalid modified UTF-8: incomplete utf-8 byte sequence from index {length}"

theorem UnitsRefused.of_continuation {front rest : List UInt8} {first : UInt8} {fault : Fault}
    (h : continuation (front.length + 1) rest = .error fault) :
    UnitsRefused (front ++ first :: rest) front.length fault fault.message := by
  rcases continuation_eq_error h with ⟨rfl, rfl⟩ | ⟨byte, more, rfl, hnot, rfl⟩
  · exact .truncated (by simp)
  · exact .notContinuation (.inl rfl) (by simp) hnot

theorem unitsRefused_of_readUnit {front rest : List UInt8} {fault : Fault} (hne : rest ≠ [])
    (h : readUnit front.length rest = .error fault) :
    UnitsRefused (front ++ rest) front.length fault fault.message := by
  cases rest with
  | nil => exact absurd rfl hne
  | cons first rest =>
      rw [readUnit] at h
      split at h
      next => cases h
      split at h
      next =>
        rcases cases_of_bind_eq_error h with hsecond | ⟨second, _, h⟩
        · exact .of_continuation hsecond
        · dsimp only at h
          split at h
          next =>
            cases h
            exact .overlong
          next => cases h
      split at h
      next =>
        rcases cases_of_bind_eq_error h with hsecond | ⟨second, hsecond, h⟩
        · exact .of_continuation hsecond
        obtain ⟨_, more, rfl⟩ := continuation_eq_ok hsecond
        rcases cases_of_bind_eq_error h with hthird | ⟨third, _, h⟩
        · rw [List.drop_one, List.tail_cons] at hthird
          rcases continuation_eq_error hthird with ⟨rfl, rfl⟩ | ⟨byte, last, rfl, hnot, rfl⟩
          · exact .truncated (by simp)
          · exact .notContinuation (.inr rfl) (by simp) hnot
        · dsimp only at h
          split at h
          next =>
            cases h
            exact .overlong
          next => cases h
      next =>
        cases h
        exact .unexpectedByte (by simp)

theorem Stopped.unitsRefused {front rest : List UInt8} {fault : Fault}
    (h : Stopped front.length rest fault) :
    UnitsRefused (front ++ rest) front.length fault fault.message := by
  cases h with
  | unread hne hread => exact unitsRefused_of_readUnit hne hread
  | unpaired hbytes hhigh _ =>
      rw [isHighSurrogate_iff] at hhigh
      refine .loneSurrogate (by omega) ?_
      rw [List.drop_left, hbytes, unitForm_three (by omega)]
      rfl
  | stray hbytes hlow =>
      rw [isLowSurrogate_iff] at hlow
      refine .loneSurrogate (by omega) ?_
      rw [List.drop_left, hbytes, unitForm_three (by omega)]
      rfl

/-- Bytes that are read by code units and refused. -/
theorem unitsRefused_of_decodeUnits {bytes : List UInt8} {fault : Fault}
    (h : decodeUnits 0 bytes = .error fault) :
    ∃ length, ReadableUpTo bytes length ∧ UnitsRefused bytes length fault fault.message := by
  obtain ⟨read, rest, rfl, hstop⟩ := stopsAfter_of_decodeUnits h
  rw [Nat.zero_add] at hstop
  exact ⟨_, readableUpTo_of_stop read hstop.not_isPrefix, hstop.unitsRefused⟩

/-- Where no special byte stands, a character begins if it does in plain UTF-8. -/
theorem not_isPrefix_of_plain {rest : List UInt8} (hplain : rest.any isSpecialByte = false)
    (h : ∀ c, ¬String.utf8EncodeChar c <+: rest) (c : Char) : ¬encodeChar c <+: rest := by
  intro hc
  have hspecial : isSpecial c = false := by
    by_contra hspecial
    obtain ⟨byte, hbyte, htelling⟩ := List.any_eq_true.mp
      (any_isSpecialByte_encodeChar (Bool.not_eq_false _ ▸ hspecial))
    rw [List.any_eq_false] at hplain
    exact hplain byte (hc.subset hbyte) htelling
  rw [encodeChar_of_not_isSpecial hspecial] at hc
  exact h c hc

/-- Bytes that are read as plain UTF-8 and refused. -/
theorem plainRefused_of_utf8_decode {bytes : List UInt8} {cause : Text.Utf8.Fault}
    (hplain : bytes.any isSpecialByte = false) (h : Text.Utf8.decode bytes = .error cause) :
    ∃ length, ReadableUpTo bytes length ∧
      PlainRefused length (.notUtf8 cause) (Fault.notUtf8 cause).message := by
  obtain ⟨read, rest, rfl, hnone, hindex⟩ := decodeFrom_eq_error (eq_error_of_map_eq_error h)
  rw [Nat.zero_add] at hindex
  rw [List.any_append, Bool.or_eq_false_iff] at hplain
  have hread : read.flatMap String.utf8EncodeChar = read.flatMap encodeChar := by
    have hspecial := not_isSpecial_of_flatMap (fun _ => any_isSpecialByte_utf8EncodeChar) hplain.1
    have hsame := @utf8_eq_flatMap (String.ofList read) (by rwa [String.toList_ofList])
    rwa [Text.Utf8.encode, String.toList_ofList] at hsame
  rw [hread] at hindex ⊢
  refine ⟨_, readableUpTo_of_stop read (not_isPrefix_of_plain hplain.2 hnone), ?_⟩
  rw [← hindex]
  cases cause with
  | invalid bad index => exact .invalid bad
  | incomplete index => exact .incomplete

/-- A refusal tells where the longest readable part of the bytes ends: it names that place, or a
byte after it that should have continued a code unit, or the surrogate that stands there; or one or
two bytes are left after it. -/
theorem decode_refused_after_longest (bytes : List UInt8) (fault : Fault)
    (h : decode bytes = .error fault) :
    ∃ length, ReadableUpTo bytes length ∧
      (bytes.any isSpecialByte = true → UnitsRefused bytes length fault fault.message) ∧
      (bytes.any isSpecialByte = false → PlainRefused length fault fault.message) := by
  cases hany : bytes.any isSpecialByte with
  | true =>
      rw [decode, if_pos hany] at h
      obtain ⟨length, hlength, hrefused⟩ := unitsRefused_of_decodeUnits (eq_error_of_map_eq_error h)
      exact ⟨length, hlength, fun _ => hrefused, nofun⟩
  | false =>
      rw [decode_of_plain hany] at h
      obtain ⟨cause, hcause, rfl⟩ := exists_of_mapError_eq_error h
      obtain ⟨length, hlength, hrefused⟩ := plainRefused_of_utf8_decode hany hcause
      exact ⟨length, hlength, nofun, fun _ => hrefused⟩

/-- A leading surrogate after a letter, with another letter in place of the trailing one. -/
theorem decode_refused_after_longest_unpaired :
    let bytes : List UInt8 := [0x61, 0xED, 0xA0, 0xBD, 0x78]
    decode bytes = .error (.loneSurrogate 0xD83D) ∧
      ∃ length, ReadableUpTo bytes length ∧ UnitsRefused bytes length (.loneSurrogate 0xD83D)
        "unpaired surrogate 0xd83d in Java string" := by
  intro bytes
  have hrefused : decode bytes = .error (.loneSurrogate 0xD83D) := by decide +kernel
  obtain ⟨length, hlength, hunits, _⟩ := decode_refused_after_longest bytes _ hrefused
  exact ⟨hrefused, length, hlength, hunits (by decide +kernel)⟩

end LauncherOptions.ModifiedUtf8
