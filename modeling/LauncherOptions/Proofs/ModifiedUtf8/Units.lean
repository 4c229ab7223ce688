import LauncherOptions.ModifiedUtf8.Decode
import LauncherOptions.ModifiedUtf8.Encode
import LauncherOptions.Proofs.Text.Utf8

/-! # Code units of modified UTF-8

Every code unit has one form of one, two or three bytes. Reading at the front of bytes succeeds
exactly if such a form stands there (`readUnit_eq_ok_iff`), and the bytes of a character are the
forms of its code units (`encodeChar_eq_unitForm`, `encodeChar_eq_pair`).
-/

namespace LauncherOptions.ModifiedUtf8

open Text.Utf8

/-- The bytes of a code unit: one from 1 to 7F, two for zero and from 80 to 7FF, three from 800
on. -/
def unitForm (unit : Nat) : List UInt8 :=
  if 0 < unit ∧ unit < 0x80 then [UInt8.ofNat unit]
  else if unit < 0x800 then
    [UInt8.ofNat (0xC0 + unit / 0x40), UInt8.ofNat (0x80 + unit % 0x40)]
  else threeBytes unit

theorem unitForm_one {unit : Nat} (hpos : 0 < unit) (hlt : unit < 0x80) :
    unitForm unit = [UInt8.ofNat unit] :=
  if_pos ⟨hpos, hlt⟩

theorem unitForm_two {unit : Nat} (hlow : unit = 0 ∨ 0x80 ≤ unit) (hlt : unit < 0x800) :
    unitForm unit = [UInt8.ofNat (0xC0 + unit / 0x40), UInt8.ofNat (0x80 + unit % 0x40)] := by
  rw [unitForm, if_neg (by omega), if_pos hlt]

theorem unitForm_three {unit : Nat} (hle : 0x800 ≤ unit) : unitForm unit = threeBytes unit := by
  rw [unitForm, if_neg (by omega), if_neg (by omega)]

theorem unitForm_ne_nil (unit : Nat) : unitForm unit ≠ [] := by
  unfold unitForm
  split
  · exact List.cons_ne_nil _ _
  · split
    · exact List.cons_ne_nil _ _
    · exact List.cons_ne_nil _ _

/-- No byte of a code unit is zero. -/
theorem zero_not_mem_unitForm {unit : Nat} (hunit : unit ≤ 0xFFFF) : 0 ∉ unitForm unit := by
  have hbyte : ∀ {value : Nat}, 0 < value → value < 256 → (0 : UInt8) ≠ UInt8.ofNat value := by
    intro value hpos hlt heq
    have hvalue := congrArg UInt8.toNat heq
    rw [toNat_ofNat hlt, UInt8.toNat_zero] at hvalue
    omega
  unfold unitForm threeBytes
  split
  · simp only [List.mem_singleton]
    exact hbyte (by omega) (by omega)
  · split
    · simp only [List.mem_cons, List.not_mem_nil, or_false, not_or]
      exact ⟨hbyte (by omega) (by omega), hbyte (by omega) (by omega)⟩
    · simp only [List.mem_cons, List.not_mem_nil, or_false, not_or]
      exact ⟨hbyte (by omega) (by omega), hbyte (by omega) (by omega),
        hbyte (by omega) (by omega)⟩

/-! ## Reading a code unit -/

theorem continuation_ofNat {bits : Nat} (hbits : bits < 0x40) (offset : Nat)
    (rest : List UInt8) :
    continuation offset (UInt8.ofNat (0x80 + bits) :: rest) = .ok bits := by
  have hsize : 0x80 + bits < 256 := by omega
  have hbetween : 0x80 ≤ UInt8.ofNat (0x80 + bits) ∧ UInt8.ofNat (0x80 + bits) ≤ 0xBF := by
    simp only [le_ofNat_iff hsize, ofNat_le_iff hsize, UInt8.reduceToNat]
    omega
  rw [continuation, if_pos hbetween, toNat_ofNat hsize, Nat.add_sub_cancel_left]

theorem continuation_eq_ok {offset bits : Nat} {bytes : List UInt8}
    (h : continuation offset bytes = .ok bits) :
    bits < 0x40 ∧ ∃ rest, bytes = UInt8.ofNat (0x80 + bits) :: rest := by
  cases bytes with
  | nil => cases h
  | cons byte rest =>
      simp only [continuation, UInt8.le_iff_toNat_le, UInt8.reduceToNat] at h
      split at h
      next hbetween =>
        have hbits : byte.toNat = 0x80 + bits := by
          rw [Except.ok.injEq] at h
          omega
        exact ⟨by omega, rest, congrArg (· :: rest) (eq_ofNat_of_toNat_eq hbits)⟩
      next => cases h

/-- The form of a code unit is read as that unit, whatever follows it. -/
theorem readUnit_unitForm {unit : Nat} (hunit : unit ≤ 0xFFFF) (offset : Nat)
    (rest : List UInt8) :
    readUnit offset (unitForm unit ++ rest) = .ok (unit, (unitForm unit).length) := by
  by_cases hone : 0 < unit ∧ unit < 0x80
  · have hsize : unit < 256 := by omega
    rw [unitForm_one hone.1 hone.2, List.singleton_append]
    simp only [readUnit, le_ofNat_iff hsize, ofNat_le_iff hsize, UInt8.reduceToNat,
      toNat_ofNat hsize, show 1 ≤ unit ∧ unit ≤ 127 by omega, and_self, if_true,
      List.length_singleton]
  by_cases htwo : unit < 0x800
  · have hsize : 0xC0 + unit / 0x40 < 256 := by omega
    have hvalue : (0xC0 + unit / 0x40 - 0xC0) * 0x40 + unit % 0x40 = unit := by omega
    rw [unitForm_two (by omega) htwo]
    simp only [readUnit, List.cons_append, List.nil_append, le_ofNat_iff hsize,
      ofNat_le_iff hsize, UInt8.reduceToNat, toNat_ofNat hsize,
      show ¬(1 ≤ 0xC0 + unit / 0x40 ∧ 0xC0 + unit / 0x40 ≤ 127) by omega,
      show 192 ≤ 0xC0 + unit / 0x40 ∧ 0xC0 + unit / 0x40 ≤ 223 by omega, and_self, if_true,
      if_false, continuation_ofNat (show unit % 0x40 < 0x40 by omega)]
    change (if _ then _ else _) = _
    rw [hvalue, if_neg (by omega)]
    rfl
  · have hsize : 0xE0 + unit / 0x1000 < 256 := by omega
    have hvalue : (0xE0 + unit / 0x1000 - 0xE0) * 0x1000 + unit / 0x40 % 0x40 * 0x40 +
        unit % 0x40 = unit := by omega
    rw [unitForm_three (by omega)]
    simp only [readUnit, threeBytes, List.cons_append, List.nil_append, le_ofNat_iff hsize,
      ofNat_le_iff hsize, UInt8.reduceToNat, toNat_ofNat hsize, List.drop_one, List.tail_cons,
      show ¬(1 ≤ 0xE0 + unit / 0x1000 ∧ 0xE0 + unit / 0x1000 ≤ 127) by omega,
      show ¬(192 ≤ 0xE0 + unit / 0x1000 ∧ 0xE0 + unit / 0x1000 ≤ 223) by omega,
      show 224 ≤ 0xE0 + unit / 0x1000 ∧ 0xE0 + unit / 0x1000 ≤ 239 by omega, and_self, if_true,
      if_false, continuation_ofNat (show unit / 0x40 % 0x40 < 0x40 by omega),
      continuation_ofNat (show unit % 0x40 < 0x40 by omega)]
    change (if _ then _ else _) = _
    rw [hvalue, if_neg (by omega)]
    rfl

/-- What is read as a code unit is the form of that unit. -/
theorem readUnit_eq_ok {offset unit size : Nat} {bytes : List UInt8}
    (h : readUnit offset bytes = .ok (unit, size)) :
    unit ≤ 0xFFFF ∧ size = (unitForm unit).length ∧ ∃ rest, bytes = unitForm unit ++ rest := by
  cases bytes with
  | nil => cases h
  | cons first rest =>
      have hself : first = UInt8.ofNat first.toNat := UInt8.ofNat_toNat.symm
      simp only [readUnit, UInt8.le_iff_toNat_le, UInt8.reduceToNat] at h
      split at h
      next hfirst =>
        cases h
        rw [unitForm_one (by omega) (by omega), ← hself]
        exact ⟨by omega, rfl, rest, rfl⟩
      split at h
      next hfirst =>
        obtain ⟨second, hsecond, h⟩ := exists_of_bind_eq_ok h
        obtain ⟨hbits, tail, hrest⟩ := continuation_eq_ok hsecond
        split at h
        next => cases h
        next hshortest =>
          cases h
          have hhead : 0xC0 + ((first.toNat - 0xC0) * 0x40 + second) / 0x40 = first.toNat := by
            omega
          have hlast : ((first.toNat - 0xC0) * 0x40 + second) % 0x40 = second := by omega
          rw [unitForm_two (by omega) (by omega), hhead, hlast, ← hself, hrest]
          exact ⟨by omega, rfl, tail, rfl⟩
      split at h
      next hfirst =>
        obtain ⟨second, hsecond, h⟩ := exists_of_bind_eq_ok h
        obtain ⟨third, hthird, h⟩ := exists_of_bind_eq_ok h
        obtain ⟨hsecondBits, more, hrest⟩ := continuation_eq_ok hsecond
        rw [hrest, List.drop_one, List.tail_cons] at hthird
        obtain ⟨hthirdBits, tail, hmore⟩ := continuation_eq_ok hthird
        split at h
        next => cases h
        next hshortest =>
          cases h
          have hhead : 0xE0 + ((first.toNat - 0xE0) * 0x1000 + second * 0x40 + third) / 0x1000 =
              first.toNat := by omega
          have hmiddle : ((first.toNat - 0xE0) * 0x1000 + second * 0x40 + third) / 0x40 % 0x40 =
              second := by omega
          have hlast : ((first.toNat - 0xE0) * 0x1000 + second * 0x40 + third) % 0x40 = third := by
            omega
          rw [unitForm_three (by omega), threeBytes, hhead, hmiddle, hlast, ← hself, hrest, hmore]
          exact ⟨by omega, rfl, tail, rfl⟩
      next => cases h

/-- A code unit is read at the front of bytes exactly if its form stands there. -/
theorem readUnit_eq_ok_iff {offset unit size : Nat} {bytes : List UInt8} :
    readUnit offset bytes = .ok (unit, size) ↔
      unit ≤ 0xFFFF ∧ size = (unitForm unit).length ∧ ∃ rest, bytes = unitForm unit ++ rest := by
  constructor
  · exact readUnit_eq_ok
  · rintro ⟨hunit, rfl, rest, rfl⟩
    exact readUnit_unitForm hunit offset rest

/-! ## The code units of a character -/

theorem utf8EncodeChar_eq_unitForm {c : Char} (hzero : c.toNat ≠ 0) (hbasic : c.toNat ≤ 0xFFFF) :
    String.utf8EncodeChar c = unitForm c.toNat := by
  fun_cases String.utf8EncodeChar c with
  | case1 v hv => exact (unitForm_one (Nat.pos_of_ne_zero hzero) (Nat.lt_succ_of_le hv)).symm
  | case2 v hv₁ hv₂ =>
      have hhead : v / 64 % 0x20 + 0xC0 = 0xC0 + v / 0x40 := by omega
      have hlast : v % 0x40 + 0x80 = 0x80 + v % 0x40 := Nat.add_comm _ _
      rw [hhead, hlast]
      exact (unitForm_two (.inr (by omega)) (by omega)).symm
  | case3 v hv₁ hv₂ hv₃ =>
      have hhead : v / 4096 % 0x10 + 0xE0 = 0xE0 + v / 0x1000 := by omega
      have hmiddle : v / 64 % 0x40 + 0x80 = 0x80 + v / 0x40 % 0x40 := Nat.add_comm _ _
      have hlast : v % 0x40 + 0x80 = 0x80 + v % 0x40 := Nat.add_comm _ _
      rw [hhead, hmiddle, hlast]
      exact (unitForm_three (by omega)).symm
  | case4 v hv₁ hv₂ hv₃ => exact absurd hbasic hv₃

/-- A character up to U+FFFF is one code unit. -/
theorem encodeChar_eq_unitForm {c : Char} (hbasic : c.toNat ≤ 0xFFFF) :
    encodeChar c = unitForm c.toNat := by
  unfold encodeChar
  split
  next hzero => rw [hzero, unitForm_two (.inl rfl) (by omega)]; rfl
  next hzero =>
    rw [if_neg (by omega)]
    exact utf8EncodeChar_eq_unitForm hzero hbasic

/-- A character beyond U+FFFF is two code units, its surrogates. -/
theorem encodeChar_eq_pair {c : Char} (hbeyond : 0xFFFF < c.toNat) :
    encodeChar c = unitForm (highSurrogate c.toNat) ++ unitForm (lowSurrogate c.toNat) := by
  have hhigh : 0x800 ≤ highSurrogate c.toNat := by
    unfold highSurrogate
    omega
  have hlow : 0x800 ≤ lowSurrogate c.toNat := by
    unfold lowSurrogate
    omega
  rw [encodeChar, if_neg (by omega), if_pos hbeyond, unitForm_three hhigh, unitForm_three hlow]

end LauncherOptions.ModifiedUtf8
