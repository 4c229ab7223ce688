import LauncherOptions.Validation

/-! # Which keys, values and batches pass the checks

The checks of a key and of a value as conditions on their characters, and the check of a batch as a
condition on its pairs: a batch passes if all of them can be stored (`validateBatch_eq_ok_iff`), and
otherwise fails with the fault of the first one that cannot (`validateBatch_eq_error_iff`).
-/

namespace LauncherOptions

/-! ## Keys and values -/

/-- A key passes if it is not empty, has no blanks around it, holds neither an equals sign nor a
line break, and does not start like a header or a comment. -/
theorem validateKey_eq_ok_iff {key : String} :
    validateKey key = .ok () ↔
      key.toList ≠ [] ∧ Text.trim key.toList = key.toList ∧
        (∀ c ∈ key.toList, c ≠ '=' ∧ isLineBreak c = false) ∧
        key.toList.head?.any isDelimiter = false := by
  simp only [validateKey]
  split
  next hempty => simp [hempty]
  next hempty =>
    split
    next hpadded => simp [hpadded]
    next hpadded =>
      split
      next hbroken =>
        rw [List.any_eq_true] at hbroken
        obtain ⟨c, hmem, hc⟩ := hbroken
        simp only [reduceCtorEq, false_iff]
        rintro ⟨_, _, hall, _⟩
        obtain ⟨hequals, hbreak⟩ := hall c hmem
        simp [hequals, hbreak] at hc
      next hbroken =>
        have hall : ∀ c ∈ key.toList, c ≠ '=' ∧ isLineBreak c = false := by
          simpa [List.any_eq_true] using hbroken
        split
        next hdelimiter => simp [hdelimiter]
        next hdelimiter =>
          simp only [true_iff]
          exact ⟨hempty, Decidable.not_not.mp hpadded, hall, by simpa using hdelimiter⟩

theorem validateValue_eq_ok_iff {key value : String} :
    validateValue key value = .ok () ↔ ∀ c ∈ value.toList, isLineBreak c = false := by
  unfold validateValue
  split
  next h => simpa [List.any_eq_true] using h
  next h => simpa [List.any_eq_true] using h

/-! ## Batches -/

/-- The pair can be stored. -/
def Admissible (pair : String × String) : Prop :=
  validateKey pair.1 = .ok () ∧ validateValue pair.1 pair.2 = .ok ()

/-- The pair is refused with a fault. The key is checked before the value. -/
inductive Refused : String × String → ArgumentFault → Prop
  | key {key value : String} {fault : ArgumentFault} (hkey : validateKey key = .error fault) :
      Refused (key, value) fault
  | value {key value : String} {fault : ArgumentFault} (hkey : validateKey key = .ok ())
      (hvalue : validateValue key value = .error fault) : Refused (key, value) fault

/-- The first pair of the batch that cannot be stored is refused with a fault. -/
def FirstRefused (batch : List (String × String)) (fault : ArgumentFault) : Prop :=
  ∃ before pair after, batch = before ++ pair :: after ∧
    (∀ earlier ∈ before, Admissible earlier) ∧ Refused pair fault

theorem Refused.not_admissible {pair : String × String} {fault : ArgumentFault}
    (h : Refused pair fault) : ¬Admissible pair := by
  rintro ⟨hkey, hvalue⟩
  cases h with
  | key h => simp [hkey] at h
  | value _ h => simp [hvalue] at h

theorem admissible_or_refused (pair : String × String) :
    Admissible pair ∨ ∃ fault, Refused pair fault := by
  obtain ⟨key, value⟩ := pair
  cases hkey : validateKey key with
  | error fault => exact .inr ⟨fault, .key hkey⟩
  | ok =>
      cases hvalue : validateValue key value with
      | error fault => exact .inr ⟨fault, .value hkey hvalue⟩
      | ok => exact .inl ⟨hkey, hvalue⟩

theorem validateBatch_cons_of_admissible {pair : String × String} (h : Admissible pair)
    (rest : List (String × String)) : validateBatch (pair :: rest) = validateBatch rest := by
  obtain ⟨hkey, hvalue⟩ := h
  simp only [validateBatch, hkey, hvalue]
  rfl

theorem validateBatch_cons_of_refused {pair : String × String} {fault : ArgumentFault}
    (h : Refused pair fault) (rest : List (String × String)) :
    validateBatch (pair :: rest) = .error fault := by
  cases h with
  | key hkey =>
      simp only [validateBatch, hkey]
      rfl
  | value hkey hvalue =>
      simp only [validateBatch, hkey, hvalue]
      rfl

/-- A batch passes if all of its pairs can be stored, and otherwise fails with the fault of the
first one that cannot. -/
theorem validateBatch_cases (batch : List (String × String)) :
    (validateBatch batch = .ok () ∧ ∀ pair ∈ batch, Admissible pair) ∨
      ∃ fault, validateBatch batch = .error fault ∧ FirstRefused batch fault := by
  induction batch with
  | nil => exact .inl ⟨rfl, by simp⟩
  | cons pair rest ih =>
      rcases admissible_or_refused pair with hpair | ⟨fault, hpair⟩
      · rw [validateBatch_cons_of_admissible hpair]
        rcases ih with ⟨hrest, hall⟩ | ⟨fault, hrest, before, bad, after, rfl, hbefore, hbad⟩
        · exact .inl ⟨hrest, List.forall_mem_cons.mpr ⟨hpair, hall⟩⟩
        · exact .inr ⟨fault, hrest, pair :: before, bad, after, rfl,
            List.forall_mem_cons.mpr ⟨hpair, hbefore⟩, hbad⟩
      · exact .inr ⟨fault, validateBatch_cons_of_refused hpair rest, [], pair, rest, rfl,
          by simp, hpair⟩

theorem FirstRefused.exists_not_admissible {batch : List (String × String)}
    {fault : ArgumentFault} (h : FirstRefused batch fault) : ∃ pair ∈ batch, ¬Admissible pair := by
  obtain ⟨before, pair, after, rfl, _, hpair⟩ := h
  exact ⟨pair, by simp, hpair.not_admissible⟩

theorem validateBatch_eq_ok_iff {batch : List (String × String)} :
    validateBatch batch = .ok () ↔ ∀ pair ∈ batch, Admissible pair := by
  rcases validateBatch_cases batch with ⟨hok, hall⟩ | ⟨fault, herror, hfirst⟩
  · exact ⟨fun _ => hall, fun _ => hok⟩
  · obtain ⟨pair, hmem, hpair⟩ := hfirst.exists_not_admissible
    exact ⟨fun hok => by simp [herror] at hok, fun hall => absurd (hall pair hmem) hpair⟩

theorem exists_firstRefused_iff {batch : List (String × String)} :
    (∃ fault, FirstRefused batch fault) ↔ ∃ pair ∈ batch, ¬Admissible pair := by
  constructor
  · rintro ⟨fault, hfirst⟩
    exact hfirst.exists_not_admissible
  · rintro ⟨pair, hmem, hpair⟩
    rcases validateBatch_cases batch with ⟨_, hall⟩ | ⟨fault, _, hfirst⟩
    · exact absurd (hall pair hmem) hpair
    · exact ⟨fault, hfirst⟩

theorem FirstRefused.validateBatch_eq {batch : List (String × String)} {fault : ArgumentFault}
    (h : FirstRefused batch fault) : validateBatch batch = .error fault := by
  obtain ⟨before, pair, after, rfl, hbefore, hpair⟩ := h
  induction before with
  | nil => exact validateBatch_cons_of_refused hpair after
  | cons earlier before ih =>
      obtain ⟨hearlier, hbefore⟩ := List.forall_mem_cons.mp hbefore
      rw [List.cons_append, validateBatch_cons_of_admissible hearlier]
      exact ih hbefore

theorem validateBatch_eq_error_iff {batch : List (String × String)} {fault : ArgumentFault} :
    validateBatch batch = .error fault ↔ FirstRefused batch fault := by
  refine ⟨fun h => ?_, FirstRefused.validateBatch_eq⟩
  rcases validateBatch_cases batch with ⟨hok, _⟩ | ⟨other, herror, hfirst⟩
  · simp [hok] at h
  · rw [h] at herror
    cases herror
    exact hfirst

end LauncherOptions
