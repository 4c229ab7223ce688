import LauncherOptions.Proofs.Except
import LauncherOptions.Text.Utf8

/-! # Reading what was written as UTF-8

The bytes of a character are read as the code point of that character (`readCodePoint_encode`), so
the bytes of a text are read as that text (`decode_encode`). Bytes that are refused begin with those
of some characters, and the refusal tells where these end (`decodeFrom_eq_error`).
-/

namespace LauncherOptions.Text.Utf8

theorem toNat_ofNat {byte : Nat} (hsize : byte < 256) : (UInt8.ofNat byte).toNat = byte :=
  UInt8.toNat_ofNat_of_lt' hsize

theorem ofNat_le_iff {byte : Nat} (hsize : byte < 256) (bound : UInt8) :
    UInt8.ofNat byte ≤ bound ↔ byte ≤ bound.toNat := by
  rw [UInt8.le_iff_toNat_le, toNat_ofNat hsize]

theorem le_ofNat_iff {byte : Nat} (hsize : byte < 256) (bound : UInt8) :
    bound ≤ UInt8.ofNat byte ↔ bound.toNat ≤ byte := by
  rw [UInt8.le_iff_toNat_le, toNat_ofNat hsize]

theorem ofNat_lt_iff {byte : Nat} (hsize : byte < 256) (bound : UInt8) :
    UInt8.ofNat byte < bound ↔ byte < bound.toNat := by
  rw [UInt8.lt_iff_toNat_lt, toNat_ofNat hsize]

theorem expect_ofNat (bounds : UInt8 × UInt8) {byte : Nat} (hsize : byte < 256)
    (hlow : bounds.1.toNat ≤ byte) (hhigh : byte ≤ bounds.2.toNat) (length index : Nat)
    (rest : List UInt8) :
    expect bounds length index (UInt8.ofNat byte :: rest) = .ok (byte - 0x80) := by
  have hbetween : bounds.1 ≤ UInt8.ofNat byte ∧ UInt8.ofNat byte ≤ bounds.2 := by
    rw [le_ofNat_iff hsize, ofNat_le_iff hsize]
    exact ⟨hlow, hhigh⟩
  rw [expect, if_pos hbetween, toNat_ofNat hsize]

/-- The second byte of a character lies in its range if it does not begin a form that is too long,
a surrogate or a code point that is too large. -/
theorem between_secondByteRange {first second : Nat} (hsize : first < 256)
    (hsecond : 0x80 ≤ second ∧ second ≤ 0xBF) (hlong : first = 0xE0 → 0xA0 ≤ second)
    (hsurrogate : first = 0xED → second ≤ 0x9F) (hlonger : first = 0xF0 → 0x90 ≤ second)
    (hlarge : first = 0xF4 → second ≤ 0x8F) :
    (secondByteRange (UInt8.ofNat first)).1.toNat ≤ second ∧
      second ≤ (secondByteRange (UInt8.ofNat first)).2.toNat := by
  have hfirst : ∀ byte : UInt8, UInt8.ofNat first = byte → first = byte.toNat := by
    rintro byte rfl
    exact (toNat_ofNat hsize).symm
  unfold secondByteRange
  split
  next h => exact ⟨hlong (hfirst _ h), hsecond.2⟩
  next =>
    split
    next h => exact ⟨hsecond.1, hsurrogate (hfirst _ h)⟩
    next =>
      split
      next h => exact ⟨hlonger (hfirst _ h), hsecond.2⟩
      next =>
        split
        next h => exact ⟨hsecond.1, hlarge (hfirst _ h)⟩
        next => exact hsecond

/-! ## Characters by the number of their bytes -/

theorem readCodePoint_two {first second : Nat} (hfirst : 0xC2 ≤ first ∧ first ≤ 0xDF)
    (hsecond : 0x80 ≤ second ∧ second ≤ 0xBF) (index : Nat) (rest : List UInt8) :
    readCodePoint index (UInt8.ofNat first) (UInt8.ofNat second :: rest) =
      .ok ((first - 0xC0) * 0x40 + (second - 0x80), 2) := by
  have hsize : first < 256 := by omega
  have hnot : ¬first < 0x80 := by omega
  simp only [readCodePoint, ofNat_lt_iff hsize, ofNat_le_iff hsize, le_ofNat_iff hsize,
    toNat_ofNat hsize, UInt8.reduceToNat, hnot, if_false, hfirst, and_self, if_true,
    expect_ofNat (0x80, 0xBF) (show second < 256 by omega) hsecond.1 hsecond.2]
  rfl

theorem readCodePoint_three {first second third : Nat} (hfirst : 0xE0 ≤ first ∧ first ≤ 0xEF)
    (hsecond : 0x80 ≤ second ∧ second ≤ 0xBF) (hthird : 0x80 ≤ third ∧ third ≤ 0xBF)
    (hlong : first = 0xE0 → 0xA0 ≤ second) (hsurrogate : first = 0xED → second ≤ 0x9F)
    (index : Nat) (rest : List UInt8) :
    readCodePoint index (UInt8.ofNat first) (UInt8.ofNat second :: UInt8.ofNat third :: rest) =
      .ok ((first - 0xE0) * 0x1000 + (second - 0x80) * 0x40 + (third - 0x80), 3) := by
  have hsize : first < 256 := by omega
  have hnot : ¬first < 0x80 := by omega
  have hnotTwo : ¬(0xC2 ≤ first ∧ first ≤ 0xDF) := by omega
  obtain ⟨hlow, hhigh⟩ := between_secondByteRange hsize hsecond hlong hsurrogate
    (by omega) (by omega)
  simp only [readCodePoint, ofNat_lt_iff hsize, ofNat_le_iff hsize, le_ofNat_iff hsize,
    toNat_ofNat hsize, UInt8.reduceToNat, hnot, hnotTwo, if_false, hfirst, and_self, if_true,
    expect_ofNat _ (show second < 256 by omega) hlow hhigh, List.drop_succ_cons, List.drop_zero,
    expect_ofNat (0x80, 0xBF) (show third < 256 by omega) hthird.1 hthird.2]
  rfl

theorem readCodePoint_four {first second third fourth : Nat}
    (hfirst : 0xF0 ≤ first ∧ first ≤ 0xF4) (hsecond : 0x80 ≤ second ∧ second ≤ 0xBF)
    (hthird : 0x80 ≤ third ∧ third ≤ 0xBF) (hfourth : 0x80 ≤ fourth ∧ fourth ≤ 0xBF)
    (hlonger : first = 0xF0 → 0x90 ≤ second) (hlarge : first = 0xF4 → second ≤ 0x8F)
    (index : Nat) (rest : List UInt8) :
    readCodePoint index (UInt8.ofNat first)
        (UInt8.ofNat second :: UInt8.ofNat third :: UInt8.ofNat fourth :: rest) =
      .ok ((first - 0xF0) * 0x40000 + (second - 0x80) * 0x1000 + (third - 0x80) * 0x40 +
        (fourth - 0x80), 4) := by
  have hsize : first < 256 := by omega
  have hnot : ¬first < 0x80 := by omega
  have hnotTwo : ¬(0xC2 ≤ first ∧ first ≤ 0xDF) := by omega
  have hnotThree : ¬(0xE0 ≤ first ∧ first ≤ 0xEF) := by omega
  obtain ⟨hlow, hhigh⟩ := between_secondByteRange hsize hsecond (by omega) (by omega)
    hlonger hlarge
  simp only [readCodePoint, ofNat_lt_iff hsize, ofNat_le_iff hsize, le_ofNat_iff hsize,
    toNat_ofNat hsize, UInt8.reduceToNat, hnot, hnotTwo, hnotThree, if_false, hfirst, and_self,
    if_true, expect_ofNat _ (show second < 256 by omega) hlow hhigh, List.drop_succ_cons,
    List.drop_zero, expect_ofNat (0x80, 0xBF) (show third < 256 by omega) hthird.1
      hthird.2, expect_ofNat (0x80, 0xBF) (show fourth < 256 by omega) hfourth.1
      hfourth.2]
  rfl

/-- The bytes of a character are read as its code point. -/
theorem readCodePoint_encode (c : Char) (index : Nat) (rest : List UInt8) :
    ∃ first more, String.utf8EncodeChar c = first :: more ∧
      readCodePoint index first (more ++ rest) = .ok (c.toNat, more.length + 1) := by
  have hvalid : c.toNat < 0xD800 ∨ 0xDFFF < c.toNat ∧ c.toNat < 0x110000 := c.valid
  fun_cases String.utf8EncodeChar c with
  | case1 v hv =>
      have hsize : v < 256 := by omega
      have hlt : UInt8.ofNat v < 0x80 := (ofNat_lt_iff hsize _).mpr (Nat.lt_succ_of_le hv)
      refine ⟨_, _, rfl, ?_⟩
      rw [readCodePoint, if_pos hlt, toNat_ofNat hsize]
      rfl
  | case2 v hv₁ hv₂ =>
      refine ⟨_, _, rfl, ?_⟩
      have hcode : (v / 64 % 0x20 + 0xC0 - 0xC0) * 0x40 + (v % 0x40 + 0x80 - 0x80) = v := by
        omega
      rw [List.singleton_append, readCodePoint_two (by omega) (by omega), hcode]
      rfl
  | case3 v hv₁ hv₂ hv₃ =>
      change v < 0xD800 ∨ 0xDFFF < v ∧ v < 0x110000 at hvalid
      refine ⟨_, _, rfl, ?_⟩
      have hcode : (v / 4096 % 0x10 + 0xE0 - 0xE0) * 0x1000 +
          (v / 64 % 0x40 + 0x80 - 0x80) * 0x40 + (v % 0x40 + 0x80 - 0x80) = v := by
        omega
      rw [List.cons_append, List.singleton_append, readCodePoint_three (by omega) (by omega)
        (by omega) (by omega) (by omega), hcode]
      rfl
  | case4 v hv₁ hv₂ hv₃ =>
      change v < 0xD800 ∨ 0xDFFF < v ∧ v < 0x110000 at hvalid
      refine ⟨_, _, rfl, ?_⟩
      have hcode : (v / 262144 % 0x08 + 0xF0 - 0xF0) * 0x40000 +
          (v / 4096 % 0x40 + 0x80 - 0x80) * 0x1000 + (v / 64 % 0x40 + 0x80 - 0x80) * 0x40 +
            (v % 0x40 + 0x80 - 0x80) = v := by
        omega
      rw [List.cons_append, List.cons_append, List.singleton_append, readCodePoint_four
        (by omega) (by omega) (by omega) (by omega) (by omega) (by omega), hcode]
      rfl

theorem decodeFrom_flatMap (text : List Char) (index : Nat) :
    decodeFrom index (text.flatMap String.utf8EncodeChar) = .ok text := by
  induction text generalizing index with
  | nil => rw [List.flatMap_nil, decodeFrom]
  | cons c rest ih =>
      obtain ⟨first, more, hencode, hread⟩ :=
        readCodePoint_encode c index (rest.flatMap String.utf8EncodeChar)
      have hrest : (more ++ rest.flatMap String.utf8EncodeChar).drop more.length =
          rest.flatMap String.utf8EncodeChar := List.drop_left
      rw [List.flatMap_cons, hencode, List.cons_append, decodeFrom, hread]
      change (do
        let text ← decodeFrom (index + (more.length + 1)) ((more ++ _).drop (more.length + 1 - 1))
        return Char.ofNat c.toNat :: text) = _
      rw [Nat.add_sub_cancel, hrest, ih, Char.ofNat_toNat]
      rfl

/-- The bytes of a text are read as that text. -/
theorem decode_encode (text : String) : decode (encode text) = .ok text := by
  rw [decode, encode, decodeFrom_flatMap]
  exact congrArg Except.ok String.ofList_toList

/-! ## What is read was written -/

theorem toNat_charOfNat {code : Nat} (h : code.isValidChar) : (Char.ofNat code).toNat = code := by
  rw [Char.ofNat, dif_pos h]
  rfl

theorem eq_ofNat_of_toNat_eq {byte : UInt8} {value : Nat} (h : byte.toNat = value) :
    byte = UInt8.ofNat value := by
  rw [← h, UInt8.ofNat_toNat]

theorem expect_eq_ok {bounds : UInt8 × UInt8} {length index bits : Nat} {bytes : List UInt8}
    (hbounds : 0x80 ≤ bounds.1.toNat) (h : expect bounds length index bytes = .ok bits) :
    ∃ rest, bytes = UInt8.ofNat (bits + 0x80) :: rest ∧
      bounds.1.toNat ≤ bits + 0x80 ∧ bits + 0x80 ≤ bounds.2.toNat := by
  cases bytes with
  | nil => cases h
  | cons byte rest =>
      rw [expect] at h
      split at h
      next hbetween =>
        rw [UInt8.le_iff_toNat_le, UInt8.le_iff_toNat_le] at hbetween
        have hbits : byte.toNat = bits + 0x80 := by
          rw [Except.ok.injEq] at h
          omega
        exact ⟨rest, congrArg (· :: rest) (eq_ofNat_of_toNat_eq hbits), by omega⟩
      next => cases h

theorem expect_continuation_eq_ok {length index bits : Nat} {bytes : List UInt8}
    (h : expect (0x80, 0xBF) length index bytes = .ok bits) :
    ∃ rest, bytes = UInt8.ofNat (bits + 0x80) :: rest ∧ bits < 0x40 := by
  obtain ⟨rest, hbytes, _, hhigh⟩ := expect_eq_ok (by decide) h
  refine ⟨rest, hbytes, ?_⟩
  simp only [UInt8.reduceToNat] at hhigh
  omega

/-- The bounds of a second byte lie among the bytes that continue a character; they are narrower
after four of the first bytes. -/
theorem secondByteRange_bounds (first : UInt8) :
    0x80 ≤ (secondByteRange first).1.toNat ∧ (secondByteRange first).2.toNat ≤ 0xBF ∧
      (first.toNat = 0xE0 → (secondByteRange first).1.toNat = 0xA0) ∧
      (first.toNat = 0xED → (secondByteRange first).2.toNat = 0x9F) ∧
      (first.toNat = 0xF0 → (secondByteRange first).1.toNat = 0x90) ∧
      (first.toNat = 0xF4 → (secondByteRange first).2.toNat = 0x8F) := by
  unfold secondByteRange
  split
  next h => subst h; decide
  next hlong =>
    split
    next h => subst h; decide
    next hsurrogate =>
      split
      next h => subst h; decide
      next hlonger =>
        split
        next h => subst h; decide
        next hlarge =>
          refine ⟨by decide, by decide, ?_, ?_, ?_, ?_⟩
          · exact fun h => absurd (UInt8.toNat_inj.mp h) hlong
          · exact fun h => absurd (UInt8.toNat_inj.mp h) hsurrogate
          · exact fun h => absurd (UInt8.toNat_inj.mp h) hlonger
          · exact fun h => absurd (UInt8.toNat_inj.mp h) hlarge

theorem utf8EncodeChar_two {first second : Nat} (hfirst : 0xC2 ≤ first ∧ first ≤ 0xDF)
    (hsecond : second < 0x40) :
    String.utf8EncodeChar (Char.ofNat ((first - 0xC0) * 0x40 + second)) =
      [UInt8.ofNat first, UInt8.ofNat (second + 0x80)] := by
  have hcode : (Char.ofNat ((first - 0xC0) * 0x40 + second)).val.toNat =
      (first - 0xC0) * 0x40 + second := toNat_charOfNat (.inl (by omega))
  generalize hvalue : (first - 0xC0) * 0x40 + second = value at hcode ⊢
  have hhead : value / 64 % 32 + 192 = first := by omega
  have hlast : value % 64 = second := by omega
  rw [String.utf8EncodeChar, hcode]
  simp only [show ¬value ≤ 127 by omega, show value ≤ 2047 by omega, if_true, if_false, hhead,
    hlast]

theorem utf8EncodeChar_three {first second third : Nat} (hfirst : 0xE0 ≤ first ∧ first ≤ 0xEF)
    (hsecond : second < 0x40) (hthird : third < 0x40) (hlong : first = 0xE0 → 0x20 ≤ second)
    (hsurrogate : first = 0xED → second < 0x20) :
    String.utf8EncodeChar (Char.ofNat ((first - 0xE0) * 0x1000 + second * 0x40 + third)) =
      [UInt8.ofNat first, UInt8.ofNat (second + 0x80), UInt8.ofNat (third + 0x80)] := by
  have hvalid : ((first - 0xE0) * 0x1000 + second * 0x40 + third).isValidChar := by
    unfold Nat.isValidChar
    omega
  have hcode := toNat_charOfNat hvalid
  generalize hvalue : (first - 0xE0) * 0x1000 + second * 0x40 + third = value at hcode ⊢
  change (Char.ofNat value).val.toNat = value at hcode
  have hhead : value / 4096 % 16 + 224 = first := by omega
  have hmiddle : value / 64 % 64 = second := by omega
  have hlast : value % 64 = third := by omega
  rw [String.utf8EncodeChar, hcode]
  simp only [show ¬value ≤ 127 by omega, show ¬value ≤ 2047 by omega,
    show value ≤ 65535 by omega, if_true, if_false, hhead, hmiddle, hlast]

theorem utf8EncodeChar_four {first second third fourth : Nat}
    (hfirst : 0xF0 ≤ first ∧ first ≤ 0xF4) (hsecond : second < 0x40) (hthird : third < 0x40)
    (hfourth : fourth < 0x40) (hlonger : first = 0xF0 → 0x10 ≤ second)
    (hlarge : first = 0xF4 → second < 0x10) :
    String.utf8EncodeChar
        (Char.ofNat ((first - 0xF0) * 0x40000 + second * 0x1000 + third * 0x40 + fourth)) =
      [UInt8.ofNat first, UInt8.ofNat (second + 0x80), UInt8.ofNat (third + 0x80),
        UInt8.ofNat (fourth + 0x80)] := by
  have hvalid :
      ((first - 0xF0) * 0x40000 + second * 0x1000 + third * 0x40 + fourth).isValidChar := by
    unfold Nat.isValidChar
    omega
  have hcode := toNat_charOfNat hvalid
  generalize hvalue :
    (first - 0xF0) * 0x40000 + second * 0x1000 + third * 0x40 + fourth = value at hcode ⊢
  change (Char.ofNat value).val.toNat = value at hcode
  have hhead : value / 262144 % 8 + 240 = first := by omega
  have hnext : value / 4096 % 64 = second := by omega
  have hmiddle : value / 64 % 64 = third := by omega
  have hlast : value % 64 = fourth := by omega
  rw [String.utf8EncodeChar, hcode]
  simp only [show ¬value ≤ 127 by omega, show ¬value ≤ 2047 by omega,
    show ¬value ≤ 65535 by omega, if_false, hhead, hnext, hmiddle, hlast]

/-- A code point that is read is that of a character, whose bytes stand at the front. -/
theorem readCodePoint_eq_ok {index : Nat} {first : UInt8} {rest : List UInt8} {code size : Nat}
    (h : readCodePoint index first rest = .ok (code, size)) :
    ∃ tail, first :: rest = String.utf8EncodeChar (Char.ofNat code) ++ tail ∧
      size = (String.utf8EncodeChar (Char.ofNat code)).length := by
  obtain ⟨hrangeLow, hrangeHigh, hlong, hsurrogate, hlonger, hlarge⟩ :=
    secondByteRange_bounds first
  have hself : first = UInt8.ofNat first.toNat := UInt8.ofNat_toNat.symm
  simp only [readCodePoint, UInt8.lt_iff_toNat_lt, UInt8.le_iff_toNat_le, UInt8.reduceToNat] at h
  split at h
  next hfirst =>
    cases h
    have hcode : (Char.ofNat first.toNat).val.toNat = first.toNat :=
      toNat_charOfNat (.inl (by omega))
    refine ⟨rest, ?_⟩
    rw [String.utf8EncodeChar, hcode]
    simp [show first.toNat ≤ 127 by omega]
  split at h
  next hfirst =>
    obtain ⟨second, hsecond, hcode⟩ := exists_of_bind_eq_ok h
    obtain ⟨tail, hrest, hbits⟩ := expect_continuation_eq_ok hsecond
    cases hcode
    refine ⟨tail, ?_⟩
    rw [hrest, utf8EncodeChar_two hfirst hbits, ← hself]
    exact ⟨rfl, rfl⟩
  split at h
  next hfirst =>
    obtain ⟨second, hsecond, h⟩ := exists_of_bind_eq_ok h
    obtain ⟨third, hthird, hcode⟩ := exists_of_bind_eq_ok h
    obtain ⟨more, hrest, hlow, hhigh⟩ := expect_eq_ok hrangeLow hsecond
    rw [hrest, List.drop_one, List.tail_cons] at hthird
    obtain ⟨tail, hmore, hbits⟩ := expect_continuation_eq_ok hthird
    cases hcode
    refine ⟨tail, ?_⟩
    rw [hrest, hmore, utf8EncodeChar_three hfirst (by omega) hbits (by omega) (by omega), ← hself]
    exact ⟨rfl, rfl⟩
  split at h
  next hfirst =>
    obtain ⟨second, hsecond, h⟩ := exists_of_bind_eq_ok h
    obtain ⟨third, hthird, h⟩ := exists_of_bind_eq_ok h
    obtain ⟨fourth, hfourth, hcode⟩ := exists_of_bind_eq_ok h
    obtain ⟨more, hrest, hlow, hhigh⟩ := expect_eq_ok hrangeLow hsecond
    rw [hrest, List.drop_one, List.tail_cons] at hthird
    obtain ⟨most, hmore, hthirdBits⟩ := expect_continuation_eq_ok hthird
    rw [hrest, hmore, List.drop_succ_cons, List.drop_one, List.tail_cons] at hfourth
    obtain ⟨tail, hmost, hfourthBits⟩ := expect_continuation_eq_ok hfourth
    cases hcode
    refine ⟨tail, ?_⟩
    rw [hrest, hmore, hmost, utf8EncodeChar_four hfirst (by omega) hthirdBits hfourthBits
      (by omega) (by omega), ← hself]
    exact ⟨rfl, rfl⟩
  next => cases h

/-- What follows a form at the front is left when the form is dropped. -/
theorem drop_pred_length {α : Type} {first : α} {rest form after : List α}
    (h : first :: rest = form ++ after) (hform : form ≠ []) :
    rest.drop (form.length - 1) = after := by
  cases form with
  | nil => exact absurd rfl hform
  | cons head tail =>
      obtain ⟨_, rfl⟩ := List.cons.inj h
      exact List.drop_left

theorem utf8EncodeChar_ne_nil (c : Char) : String.utf8EncodeChar c ≠ [] := by
  apply List.ne_nil_of_length_pos
  rw [String.length_utf8EncodeChar]
  exact c.utf8Size_pos

theorem decodeFrom_eq_ok {index : Nat} {bytes : List UInt8} {text : List Char}
    (h : decodeFrom index bytes = .ok text) : text.flatMap String.utf8EncodeChar = bytes := by
  fun_induction decodeFrom index bytes generalizing text with
  | case1 => cases h; rfl
  | case2 index first rest ih =>
      obtain ⟨⟨code, size⟩, hread, h⟩ := exists_of_bind_eq_ok h
      obtain ⟨tail, htail, hdecode⟩ := exists_of_bind_eq_ok h
      obtain ⟨after, hbytes, hsize⟩ := readCodePoint_eq_ok hread
      cases hdecode
      rw [List.flatMap_cons, ih size htail, hsize,
        drop_pred_length hbytes (utf8EncodeChar_ne_nil _), ← hbytes]

/-- Bytes are read as a text exactly if they are the bytes of that text. -/
theorem decode_eq_ok_iff {bytes : List UInt8} {text : String} :
    decode bytes = .ok text ↔ encode text = bytes := by
  constructor
  · intro h
    obtain ⟨chars, hchars, rfl⟩ := exists_of_map_eq_ok h
    rw [encode, String.toList_ofList]
    exact decodeFrom_eq_ok hchars
  · rintro rfl
    exact decode_encode text

/-! ## Where reading stops -/

/-- Where the readable part ends. -/
def Fault.index : Fault → Nat
  | .invalid _ index => index
  | .incomplete index => index

theorem expect_eq_error {bounds : UInt8 × UInt8} {length index : Nat} {bytes : List UInt8}
    {fault : Fault} (h : expect bounds length index bytes = .error fault) :
    fault.index = index := by
  cases bytes with
  | nil => cases h; rfl
  | cons byte rest =>
      rw [expect] at h
      split at h
      next => cases h
      next => cases h; rfl

theorem readCodePoint_eq_error {index : Nat} {first : UInt8} {rest : List UInt8} {fault : Fault}
    (h : readCodePoint index first rest = .error fault) : fault.index = index := by
  rw [readCodePoint] at h
  split at h
  next => cases h
  split at h
  next =>
    rcases cases_of_bind_eq_error h with hsecond | ⟨_, _, h⟩
    · exact expect_eq_error hsecond
    · cases h
  split at h
  next =>
    rcases cases_of_bind_eq_error h with hsecond | ⟨_, _, h⟩
    · exact expect_eq_error hsecond
    rcases cases_of_bind_eq_error h with hthird | ⟨_, _, h⟩
    · exact expect_eq_error hthird
    · cases h
  split at h
  next =>
    rcases cases_of_bind_eq_error h with hsecond | ⟨_, _, h⟩
    · exact expect_eq_error hsecond
    rcases cases_of_bind_eq_error h with hthird | ⟨_, _, h⟩
    · exact expect_eq_error hthird
    rcases cases_of_bind_eq_error h with hfourth | ⟨_, _, h⟩
    · exact expect_eq_error hfourth
    · cases h
  next => cases h; rfl

/-- Where no code point can be read, no character begins. -/
theorem not_isPrefix_of_readCodePoint {index : Nat} {first : UInt8} {rest : List UInt8}
    {fault : Fault} (h : readCodePoint index first rest = .error fault) (c : Char) :
    ¬String.utf8EncodeChar c <+: first :: rest := by
  rintro ⟨tail, htail⟩
  obtain ⟨head, more, hencode, hread⟩ := readCodePoint_encode c index tail
  rw [hencode, List.cons_append] at htail
  obtain ⟨rfl, rfl⟩ := List.cons.inj htail
  rw [h] at hread
  cases hread

/-- Bytes that are refused are those of some characters, and then some that begin with none. -/
theorem decodeFrom_eq_error {index : Nat} {bytes : List UInt8} {fault : Fault}
    (h : decodeFrom index bytes = .error fault) :
    ∃ (read : List Char) (rest : List UInt8),
      bytes = read.flatMap String.utf8EncodeChar ++ rest ∧
        (∀ c, ¬String.utf8EncodeChar c <+: rest) ∧
        fault.index = index + (read.flatMap String.utf8EncodeChar).length := by
  fun_induction decodeFrom index bytes with
  | case1 => cases h
  | case2 index first rest ih =>
      rcases cases_of_bind_eq_error h with hread | ⟨⟨code, size⟩, hread, h⟩
      · exact ⟨[], first :: rest, rfl, not_isPrefix_of_readCodePoint hread,
          readCodePoint_eq_error hread⟩
      rcases cases_of_bind_eq_error h with hrest | ⟨_, _, h⟩
      · obtain ⟨after, hbytes, hsize⟩ := readCodePoint_eq_ok hread
        obtain ⟨read, stop, hstop, hnone, hindex⟩ := ih size hrest
        rw [hsize, drop_pred_length hbytes (utf8EncodeChar_ne_nil _)] at hstop
        refine ⟨Char.ofNat code :: read, stop, ?_, hnone, ?_⟩
        · rw [hbytes, hstop, List.flatMap_cons, List.append_assoc]
        · rw [hindex, List.flatMap_cons, List.length_append, hsize, Nat.add_assoc]
      · cases h

end LauncherOptions.Text.Utf8
