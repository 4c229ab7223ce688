import LauncherOptions.Proofs.ModifiedUtf8.Codec

/-! # Reading by code units as a loop over positions

A code unit is read at a position of the bytes exactly if its form stands there
(`readUnit_drop_eq_ok_iff`). Reading by code units goes over the bytes in passes, each of which
reads one character and goes on behind it. A pass looks for the character with a given code, and
there might be none; but it always finds one (`char?_unit`, `char?_pairedCode`). A pass moves
forward and stays within the bytes (`pass_advances`), so there are no more passes than bytes, and
what they read is what `decodeUnits` reads (`loop_eq`). Main statement: `readUnit_reads_forms`.
-/

namespace LauncherOptions.ModifiedUtf8

open Text.Utf8

/-! ## Code units at a position -/

/-- A code unit is read at a position exactly if the bytes from there on are its form. -/
theorem readUnit_drop_eq_ok_iff {bytes : List UInt8} {position unit size : Nat} :
    readUnit position (bytes.drop position) = .ok (unit, size) ↔
      unit ≤ 0xFFFF ∧ position + size ≤ bytes.length ∧
        (bytes.drop position).take size = unitForm unit := by
  rw [readUnit_eq_ok_iff]
  apply and_congr_right
  intro _
  have hpos : 0 < (unitForm unit).length := List.length_pos_iff.mpr (unitForm_ne_nil unit)
  constructor
  · rintro ⟨rfl, rest, hrest⟩
    have hlength := congrArg List.length hrest
    rw [List.length_drop, List.length_append] at hlength
    refine ⟨by omega, ?_⟩
    rw [hrest, List.take_left]
  · rintro ⟨hend, htake⟩
    have hsize : size = (unitForm unit).length := by
      rw [← htake, List.length_take, List.length_drop]
      omega
    refine ⟨hsize, (bytes.drop position).drop size, ?_⟩
    rw [← htake, List.take_append_drop]

theorem readUnit_drop_bounds {bytes : List UInt8} {position unit size : Nat}
    (h : readUnit position (bytes.drop position) = .ok (unit, size)) :
    unit ≤ 0xFFFF ∧ 0 < size ∧ position + size ≤ bytes.length := by
  obtain ⟨hunit, hsize, _⟩ := readUnit_eq_ok h
  obtain ⟨_, hend, _⟩ := readUnit_drop_eq_ok_iff.mp h
  exact ⟨hunit, hsize ▸ List.length_pos_iff.mpr (unitForm_ne_nil unit), hend⟩

/-! ## Characters with a code -/

/-- The character with a code, if there is one. -/
def char? (code : Nat) : Option Char :=
  if code.isValidChar then some (Char.ofNat code) else none

/-- The code that two surrogates stand for, each with ten bits of it. -/
def pairedCode (high low : Nat) : Nat :=
  0x10000 + ((high - 0xD800) <<< 10 ||| (low - 0xDC00))

/-- A code unit that is no surrogate is the code of a character. -/
theorem char?_unit {unit : Nat} (hunit : unit ≤ 0xFFFF) (hhigh : isHighSurrogate unit = false)
    (hlow : isLowSurrogate unit = false) : char? unit = some (Char.ofNat unit) := by
  rw [← Bool.not_eq_true, isHighSurrogate_iff] at hhigh
  rw [← Bool.not_eq_true, isLowSurrogate_iff] at hlow
  apply if_pos
  unfold Nat.isValidChar
  omega

theorem pairedCode_eq {high low : Nat} (hlow : isLowSurrogate low = true) :
    pairedCode high low = 0x10000 + (high - 0xD800) * 0x400 + (low - 0xDC00) := by
  rw [isLowSurrogate_iff] at hlow
  have hbits : low - 0xDC00 < 2 ^ 10 := by omega
  rw [pairedCode, ← Nat.shiftLeft_add_eq_or_of_lt hbits, Nat.shiftLeft_eq, Nat.add_assoc]

theorem pairedCode_bounds {high low : Nat} (hhigh : isHighSurrogate high = true)
    (hlow : isLowSurrogate low = true) :
    0x10000 ≤ pairedCode high low ∧ pairedCode high low ≤ 0x10FFFF := by
  rw [pairedCode_eq hlow]
  rw [isHighSurrogate_iff] at hhigh
  rw [isLowSurrogate_iff] at hlow
  omega

/-- What two surrogates stand for is the code of a character. -/
theorem char?_pairedCode {high low : Nat} (hhigh : isHighSurrogate high = true)
    (hlow : isLowSurrogate low = true) :
    char? (pairedCode high low) = some (pairedChar high low) := by
  have hbounds := pairedCode_bounds hhigh hlow
  have hvalid : (pairedCode high low).isValidChar := by
    unfold Nat.isValidChar
    omega
  rw [char?, if_pos hvalid, pairedChar, pairedCode_eq hlow]

/-! ## Passes -/

/-- One pass at a position: the character that is read there and the position behind it. A code
without a character would be blamed on the code unit. -/
def pass (bytes : List UInt8) (position : Nat) : Except Fault (Char × Nat) :=
  match readUnit position (bytes.drop position) with
  | .error fault => .error fault
  | .ok (unit, size) =>
    let next := position + size
    if isHighSurrogate unit then
      match readUnit next (bytes.drop next) with
      | .error _ => .error (.loneSurrogate unit)
      | .ok (low, lowSize) =>
        if isLowSurrogate low then
          match char? (pairedCode unit low) with
          | some c => .ok (c, next + lowSize)
          | none => .error (.loneSurrogate unit)
        else .error (.loneSurrogate unit)
    else if isLowSurrogate unit then .error (.loneSurrogate unit)
    else
      match char? unit with
      | some c => .ok (c, next)
      | none => .error (.loneSurrogate unit)

/-- Passes from a position on, until the end of the bytes is reached or one of them fails; nothing
if this takes more than the given number. -/
def loop (bytes : List UInt8) (position : Nat) : Nat → Option (Except Fault (List Char))
  | 0 => if position < bytes.length then none else some (.ok [])
  | passes + 1 =>
    if position < bytes.length then
      match pass bytes position with
      | .error fault => some (.error fault)
      | .ok (c, next) => (loop bytes next passes).map (·.map (c :: ·))
    else some (.ok [])

/-- A pass moves forward and stays within the bytes. -/
theorem pass_advances {bytes : List UInt8} {position next : Nat} {c : Char}
    (h : pass bytes position = .ok (c, next)) : position < next ∧ next ≤ bytes.length := by
  unfold pass at h
  split at h
  next => cases h
  next unit size hread =>
    obtain ⟨_, hsize, hend⟩ := readUnit_drop_bounds hread
    dsimp only at h
    split at h
    next =>
      split at h
      next => cases h
      next low lowSize hlow =>
        obtain ⟨_, _, hlowEnd⟩ := readUnit_drop_bounds hlow
        split at h
        next =>
          split at h
          next =>
            cases h
            omega
          next => cases h
        next => cases h
    next =>
      split at h
      next => cases h
      next =>
        split at h
        next =>
          cases h
          omega
        next => cases h

/-- A pass reads the next character as `decodeUnits` does. -/
theorem decodeUnits_drop {bytes : List UInt8} {position : Nat} (h : position < bytes.length) :
    decodeUnits position (bytes.drop position) =
      match pass bytes position with
      | .error fault => .error fault
      | .ok (c, next) => (decodeUnits next (bytes.drop next)).map (c :: ·) := by
  have hcons := List.drop_eq_getElem_cons h
  rw [hcons, decodeUnits, ← hcons, pass]
  cases hread : readUnit position (bytes.drop position) with
  | error fault => rfl
  | ok found =>
      obtain ⟨unit, size⟩ := found
      obtain ⟨hunit, hsize, _⟩ := readUnit_drop_bounds hread
      have hafter : (bytes.drop (position + 1)).drop (size - 1) = bytes.drop (position + size) := by
        rw [List.drop_drop]
        congr 1
        omega
      simp only [hafter, List.drop_drop]
      cases hhigh : isHighSurrogate unit with
      | true =>
          simp only [if_true]
          cases readUnit (position + size) (bytes.drop (position + size)) with
          | error fault => rfl
          | ok found =>
              obtain ⟨low, lowSize⟩ := found
              cases hlow : isLowSurrogate low with
              | true => simp only [hlow, if_true, char?_pairedCode hhigh hlow]
              | false => simp only [hlow, Bool.false_eq_true, if_false]
      | false =>
          simp only [Bool.false_eq_true, if_false]
          cases hlow : isLowSurrogate unit with
          | true => rfl
          | false => simp only [Bool.false_eq_true, if_false, char?_unit hunit hhigh hlow]

/-- As many passes as there are bytes left are enough. -/
theorem loop_eq {bytes : List UInt8} {position passes : Nat} (hposition : position ≤ bytes.length)
    (hpasses : bytes.length ≤ position + passes) :
    loop bytes position passes = some (decodeUnits position (bytes.drop position)) := by
  -- each pass uses up at least one of the bytes that are left
  induction passes generalizing position with
  | zero =>
      have hend : position = bytes.length := Nat.le_antisymm hposition hpasses
      rw [loop, if_neg (by omega), hend, List.drop_length, decodeUnits]
  | succ passes ih =>
      rw [loop]
      split
      next hlt =>
        rw [decodeUnits_drop hlt]
        split
        next => rfl
        next c next hpass =>
          obtain ⟨hforward, hend⟩ := pass_advances hpass
          rw [ih hend (by omega)]
          rfl
      next hge =>
        have hend : position = bytes.length := Nat.le_antisymm hposition (Nat.le_of_not_lt hge)
        rw [hend, List.drop_length, decodeUnits]

/-- Reading at a position recognises exactly the forms of code units. So each pass moves forward by
one byte at least and stays within the bytes, the passes come to their end with what `decodeUnits`
reads, and a character is found for each pair of surrogates and for each code unit that is none. -/
theorem readUnit_reads_forms (bytes : List UInt8) :
    (∀ position unit size, readUnit position (bytes.drop position) = .ok (unit, size) ↔
      unit ≤ 0xFFFF ∧ position + size ≤ bytes.length ∧
        (bytes.drop position).take size = unitForm unit) ∧
      (∀ position c next, pass bytes position = .ok (c, next) →
        position + 1 ≤ next ∧ next ≤ bytes.length) ∧
      (∀ passes, bytes.length ≤ passes → loop bytes 0 passes = some (decodeUnits 0 bytes)) ∧
      (∀ position high size low lowSize,
        readUnit position (bytes.drop position) = .ok (high, size) →
        isHighSurrogate high = true →
        readUnit (position + size) (bytes.drop (position + size)) = .ok (low, lowSize) →
        isLowSurrogate low = true →
          0xD800 ≤ high ∧ 0xDC00 ≤ low ∧
            0x10000 ≤ pairedCode high low ∧ pairedCode high low ≤ 0x10FFFF ∧
            char? (pairedCode high low) = some (pairedChar high low)) ∧
      ∀ position unit size, readUnit position (bytes.drop position) = .ok (unit, size) →
        isHighSurrogate unit = false → isLowSurrogate unit = false →
          char? unit = some (Char.ofNat unit) := by
  refine ⟨fun _ _ _ => readUnit_drop_eq_ok_iff, fun _ _ _ => pass_advances, ?_, ?_, ?_⟩
  · intro passes hpasses
    rw [loop_eq (Nat.zero_le _) (by omega), List.drop_zero]
  · intro position high size low lowSize _ hhigh _ hlow
    obtain ⟨hleast, hmost⟩ := pairedCode_bounds hhigh hlow
    exact ⟨(isHighSurrogate_iff.mp hhigh).1, (isLowSurrogate_iff.mp hlow).1, hleast, hmost,
      char?_pairedCode hhigh hlow⟩
  · intro position unit size hread hhigh hlow
    exact char?_unit (readUnit_drop_bounds hread).1 hhigh hlow

/-- A letter, and two surrogates that make one character. -/
theorem readUnit_reads_forms_pair :
    let bytes : List UInt8 := [0x61, 0xED, 0xA0, 0xBD, 0xED, 0xB8, 0x80]
    (readUnit 0 bytes = .ok (0x61, 1) ∧ char? 0x61 = some 'a') ∧
      (readUnit 1 (bytes.drop 1) = .ok (0xD83D, 3) ∧ readUnit 4 (bytes.drop 4) = .ok (0xDE00, 3) ∧
        char? (pairedCode 0xD83D 0xDE00) = some '😀') ∧
      (pass bytes 1 = .ok ('😀', 7) ∧ 2 ≤ 7 ∧ 7 ≤ bytes.length) ∧
      loop bytes 0 7 = some (decodeUnits 0 bytes) := by
  intro bytes
  obtain ⟨hunits, hpasses, hloop, hpairs, hsingle⟩ := readUnit_reads_forms bytes
  have hletter : readUnit 0 (bytes.drop 0) = .ok (0x61, 1) :=
    (hunits 0 0x61 1).mpr (by decide +kernel)
  have hhigh : readUnit 1 (bytes.drop 1) = .ok (0xD83D, 3) :=
    (hunits 1 0xD83D 3).mpr (by decide +kernel)
  have hlow : readUnit 4 (bytes.drop 4) = .ok (0xDE00, 3) :=
    (hunits 4 0xDE00 3).mpr (by decide +kernel)
  have hpass : pass bytes 1 = .ok ('😀', 7) := by decide +kernel
  obtain ⟨_, _, _, _, hchar⟩ := hpairs 1 0xD83D 3 0xDE00 3 hhigh rfl hlow rfl
  exact ⟨⟨hletter, hsingle 0 0x61 1 hletter rfl rfl⟩, ⟨hhigh, hlow, hchar⟩,
    ⟨hpass, hpasses 1 _ 7 hpass⟩, hloop 7 (by decide)⟩

end LauncherOptions.ModifiedUtf8
