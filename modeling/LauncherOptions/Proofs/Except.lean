/-! # Results that depend on other results

A result that is made from another one is only there if the other one is. These laws take such a
result apart.
-/

namespace LauncherOptions

variable {ε ε' α β : Type}

/-- A result that depends on another one is only there if both are. -/
theorem exists_of_bind_eq_ok {first : Except ε α} {next : α → Except ε β} {result : β}
    (h : (first >>= next) = .ok result) :
    ∃ value, first = .ok value ∧ next value = .ok result := by
  cases first with
  | error error => cases h
  | ok value => exact ⟨value, rfl, h⟩

/-- A result that depends on another one is missing if either is. -/
theorem cases_of_bind_eq_error {first : Except ε α} {next : α → Except ε β} {error : ε}
    (h : (first >>= next) = .error error) :
    first = .error error ∨ ∃ value, first = .ok value ∧ next value = .error error := by
  cases first with
  | error cause => exact .inl (congrArg Except.error (Except.error.inj h))
  | ok value => exact .inr ⟨value, rfl, h⟩

theorem exists_of_map_eq_ok {first : Except ε α} {change : α → β} {result : β}
    (h : first.map change = .ok result) : ∃ value, first = .ok value ∧ change value = result := by
  cases first with
  | error error => cases h
  | ok value => exact ⟨value, rfl, Except.ok.inj h⟩

theorem eq_error_of_map_eq_error {first : Except ε α} {change : α → β} {error : ε}
    (h : first.map change = .error error) : first = .error error := by
  cases first with
  | error cause => exact congrArg Except.error (Except.error.inj h)
  | ok value => cases h

theorem eq_ok_of_mapError_eq_ok {first : Except ε α} {report : ε → ε'} {result : α}
    (h : first.mapError report = .ok result) : first = .ok result := by
  cases first with
  | error error => cases h
  | ok value => exact congrArg Except.ok (Except.ok.inj h)

theorem exists_of_mapError_eq_error {first : Except ε α} {report : ε → ε'} {error : ε'}
    (h : first.mapError report = .error error) :
    ∃ cause, first = .error cause ∧ report cause = error := by
  cases first with
  | error cause => exact ⟨cause, rfl, Except.error.inj h⟩
  | ok value => cases h

end LauncherOptions
