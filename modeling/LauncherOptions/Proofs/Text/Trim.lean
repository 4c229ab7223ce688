import LauncherOptions.Text.Blank
import Mathlib.Data.List.DropRight

/-! # Laws of trimming

Trimming stops at the first character from either end that is not blank. A text that trimming
leaves alone starts with such a character (`isBlank_head_of_trim_eq`), and only a text of blanks is
lost (`trim_eq_nil_iff`). More blanks at either end make no difference
(`trimStart_append_of_isBlank`, `trim_append_of_isBlank`).
-/

namespace LauncherOptions.Text

theorem trimEnd_eq_rdropWhile (text : List Char) : trimEnd text = text.rdropWhile isBlank := rfl

/-- Blanks at the end are no matter of the characters before them. -/
theorem trimEnd_cons_of_not_isBlank {c : Char} (h : isBlank c = false) (text : List Char) :
    trimEnd (c :: text) = c :: trimEnd text := by
  have hc : [c].dropWhile isBlank = [c] := by simp [h]
  unfold trimEnd
  rw [List.reverse_cons, List.dropWhile_append, hc]
  split
  next hempty => simp [List.isEmpty_iff.mp hempty]
  next => simp

theorem trimEnd_concat_of_not_isBlank {c : Char} (h : isBlank c = false) (text : List Char) :
    trimEnd (text ++ [c]) = text ++ [c] := by
  rw [trimEnd_eq_rdropWhile]
  exact List.rdropWhile_concat_neg _ _ _ (by simp [h])

/-- A text that trimming at both ends leaves alone is left alone by trimming at its start. -/
theorem trimStart_eq_of_trim_eq {text : List Char} (h : trim text = text) :
    trimStart text = text := by
  have hsuffix : trimStart text <:+ text := List.dropWhile_suffix isBlank
  apply hsuffix.eq_of_length_le
  -- what both ends lose is at least what the start loses
  calc
    text.length = (trimEnd (trimStart text)).length := congrArg List.length h.symm
    _ ≤ (trimStart text).length := (List.rdropWhile_prefix _ _).length_le

theorem isBlank_head_of_trim_eq {c : Char} {text : List Char} (h : trim (c :: text) = c :: text) :
    isBlank c = false := by
  have hstart := trimStart_eq_of_trim_eq h
  by_contra hblank
  have hshort : trimStart text = c :: text := by
    rw [← trimStart_cons_of_isBlank (Bool.not_eq_false _ ▸ hblank), hstart]
  have hlength : (trimStart text).length ≤ text.length :=
    (List.dropWhile_suffix isBlank).length_le
  rw [hshort, List.length_cons] at hlength
  omega

/-- What is left at the start does not begin with a blank. -/
theorem isBlank_head_trimStart {text : List Char} {c : Char}
    (h : (trimStart text).head? = some c) : isBlank c = false := by
  have hnot := List.head?_dropWhile_not isBlank text
  rw [← trimStart, h] at hnot
  simpa using hnot

/-- What is left at the start is nothing, or begins with a character that is not blank. -/
theorem trimStart_cases (text : List Char) :
    trimStart text = [] ∨ ∃ c rest, trimStart text = c :: rest ∧ isBlank c = false := by
  cases h : trimStart text with
  | nil => exact .inl rfl
  | cons c rest => exact .inr ⟨c, rest, rfl, isBlank_head_trimStart (congrArg List.head? h)⟩

/-- What is lost at the start are blanks. -/
theorem exists_append_trimStart (text : List Char) :
    ∃ blanks, text = blanks ++ trimStart text ∧ ∀ c ∈ blanks, isBlank c = true :=
  ⟨text.takeWhile isBlank, List.takeWhile_append_dropWhile.symm, fun _ => List.mem_takeWhile_imp⟩

theorem trim_cons_trimEnd {c : Char} (h : isBlank c = false) (text : List Char) :
    trim (c :: trimEnd text) = c :: trimEnd text := by
  rw [trim, trimStart_cons_of_not_isBlank h, trimEnd_cons_of_not_isBlank h, trimEnd_eq_rdropWhile,
    trimEnd_eq_rdropWhile, List.rdropWhile_idempotent]

theorem trim_trim (text : List Char) : trim (trim text) = trim text := by
  rcases trimStart_cases text with hempty | ⟨c, rest, hcons, hblank⟩
  · rw [trim, trim, hempty]
    rfl
  · rw [show trim text = c :: trimEnd rest by
      rw [trim, hcons, trimEnd_cons_of_not_isBlank hblank]]
    exact trim_cons_trimEnd hblank rest

theorem trimStart_sublist (text : List Char) : (trimStart text).Sublist text :=
  List.dropWhile_sublist isBlank

theorem trimEnd_sublist (text : List Char) : (trimEnd text).Sublist text :=
  (List.rdropWhile_prefix isBlank text).sublist

theorem trim_sublist (text : List Char) : (trim text).Sublist text :=
  (trimEnd_sublist _).trans (trimStart_sublist text)

/-! ## Trimmed texts -/

/-- A text that does not vanish starts, after the blanks, with the character that its trimmed form
starts with. -/
theorem exists_of_trim_eq_cons {text rest : List Char} {c : Char} (h : trim text = c :: rest) :
    isBlank c = false ∧ ∃ tail, trimStart text = c :: tail ∧ trimEnd tail = rest := by
  rcases trimStart_cases text with hempty | ⟨d, tail, hcons, hblank⟩
  · rw [trim, hempty] at h
    cases h
  · rw [trim, hcons, trimEnd_cons_of_not_isBlank hblank] at h
    obtain ⟨rfl, rfl⟩ := List.cons.inj h
    exact ⟨hblank, tail, hcons, rfl⟩

theorem trim_eq_nil_iff {text : List Char} : trim text = [] ↔ ∀ c ∈ text, isBlank c = true := by
  rw [trim, trimEnd_eq_rdropWhile, List.rdropWhile_eq_nil_iff]
  constructor
  · intro h
    rcases trimStart_cases text with hempty | ⟨c, tail, hcons, hblank⟩
    · exact List.dropWhile_eq_nil_iff.mp hempty
    · have hc := h c (hcons ▸ List.mem_cons_self)
      rw [hblank] at hc
      cases hc
  · exact fun h c hc => h c ((trimStart_sublist text).mem hc)

theorem trim_ne_nil_iff {text : List Char} : trim text ≠ [] ↔ ∃ c ∈ text, isBlank c = false := by
  simp [trim_eq_nil_iff]

/-- Trimming at the start goes no further than the first character that is not blank. -/
theorem trimStart_append {text : List Char} (h : ∃ c ∈ text, isBlank c = false)
    (rest : List Char) : trimStart (text ++ rest) = trimStart text ++ rest := by
  have hne : text.dropWhile isBlank ≠ [] := by
    rw [Ne, List.dropWhile_eq_nil_iff]
    obtain ⟨c, hc, hblank⟩ := h
    intro hall
    rw [hall c hc] at hblank
    cases hblank
  rw [trimStart, trimStart, List.dropWhile_append, if_neg (by simpa using hne)]

theorem trimStart_append_of_isBlank {text : List Char} (h : ∀ c ∈ text, isBlank c = true)
    (rest : List Char) : trimStart (text ++ rest) = trimStart rest :=
  List.dropWhile_append_of_pos h

theorem trim_trimStart (text : List Char) : trim (trimStart text) = trim text := by
  simp only [trim, trimStart, List.dropWhile_idempotent]

theorem trimEnd_append_of_isBlank {blanks : List Char} (h : ∀ c ∈ blanks, isBlank c = true)
    (text : List Char) : trimEnd (text ++ blanks) = trimEnd text := by
  have hreverse : ∀ c ∈ blanks.reverse, isBlank c = true := fun c hc =>
    h c (List.mem_reverse.mp hc)
  rw [trimEnd, trimEnd, List.reverse_append, List.dropWhile_append_of_pos hreverse]

theorem trim_append_of_isBlank {blanks : List Char} (h : ∀ c ∈ blanks, isBlank c = true)
    (text : List Char) : trim (text ++ blanks) = trim text := by
  by_cases htext : ∃ c ∈ text, isBlank c = false
  · rw [trim, trim, trimStart_append htext, trimEnd_append_of_isBlank h]
  · have hall : ∀ c ∈ text, isBlank c = true := by simpa using htext
    rw [trim_eq_nil_iff.mpr hall, trim_eq_nil_iff.mpr (List.forall_mem_append.mpr ⟨hall, h⟩)]

end LauncherOptions.Text
