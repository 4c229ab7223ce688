/-! # Attempts

An attempt works on a state and ends with a value or an error. What it did to the state stays done
when it fails: files that were written and calls that were made are not taken back. An attempt on
a part of a larger state is an attempt on the whole.
-/

namespace LauncherOptions

/-- A computation that may change a state and may fail. -/
def Attempt (ε σ α : Type) : Type :=
  σ → Except ε α × σ

/-- A part of a larger state: how to look at it and how to put it back. -/
structure Focus (σ τ : Type) where
  get : σ → τ
  set : τ → σ → σ

namespace Attempt

variable {ε ε' σ τ α β : Type}

/-- Goes on with the value if there is one. -/
protected def bind (first : Attempt ε σ α) (next : α → Attempt ε σ β) :
    Attempt ε σ β := fun state =>
  match first state with
  | (.ok value, after) => next value after
  | (.error error, after) => (.error error, after)

instance : Monad (Attempt ε σ) where
  pure value := fun state => (.ok value, state)
  bind := Attempt.bind

instance : MonadStateOf σ (Attempt ε σ) where
  get := fun state => (.ok state, state)
  set state := fun _ => (.ok (), state)
  modifyGet change := fun state =>
    let (value, after) := change state
    (.ok value, after)

instance : MonadExceptOf ε (Attempt ε σ) where
  throw error := fun state => (.error error, state)
  tryCatch first handle := fun state =>
    match first state with
    | (.ok value, after) => (.ok value, after)
    | (.error error, after) => handle error after

/-- A computation that cannot fail, as an attempt. -/
instance : MonadLift (StateM σ) (Attempt ε σ) where
  monadLift action := fun state =>
    let (value, after) := action state
    (.ok value, after)

/-- A result that is known without looking at the state. -/
def ofExcept (result : Except ε α) : Attempt ε σ α := fun state =>
  (result, state)

/-- The attempt with its errors reported as other ones. -/
def mapError (report : ε → ε') (attempt : Attempt ε σ α) : Attempt ε' σ α := fun state =>
  let (result, after) := attempt state
  (result.mapError report, after)

/-- The attempt, with its failure as a value. -/
def outcome (attempt : Attempt ε σ α) : Attempt ε' σ (Except ε α) := fun state =>
  let (result, after) := attempt state
  (.ok result, after)

/-- An attempt on a part of the state. -/
def within (part : Focus σ τ) (attempt : Attempt ε τ α) : Attempt ε σ α := fun state =>
  let (result, after) := attempt (part.get state)
  (result, part.set after state)

/-- The attempt, followed by a clean-up that takes place whether it fails or not. -/
def ensuring (attempt : Attempt ε σ α) (cleanUp : StateM σ Unit) : Attempt ε σ α := fun state =>
  let (result, after) := attempt state
  (result, (cleanUp after).2)

/-! ## What each way of building an attempt does -/

@[simp] theorem pure_apply (value : α) (state : σ) :
    (pure value : Attempt ε σ α) state = (.ok value, state) := rfl

@[simp] theorem throw_apply (error : ε) (state : σ) :
    (throw error : Attempt ε σ α) state = (.error error, state) := rfl

@[simp] theorem get_apply (state : σ) : (get : Attempt ε σ σ) state = (.ok state, state) := rfl

@[simp] theorem set_apply (after state : σ) :
    (set after : Attempt ε σ PUnit) state = (.ok ⟨⟩, after) := rfl

@[simp] theorem modify_apply (change : σ → σ) (state : σ) :
    (modify change : Attempt ε σ PUnit) state = (.ok ⟨⟩, change state) := rfl

@[simp] theorem lift_apply (action : StateM σ α) (state : σ) :
    (liftM action : Attempt ε σ α) state = (.ok (action state).1, (action state).2) := rfl

theorem bind_apply (first : Attempt ε σ α) (next : α → Attempt ε σ β) (state : σ) :
    (first >>= next) state =
      match first state with
      | (.ok value, after) => next value after
      | (.error error, after) => (.error error, after) := rfl

/-- A step that succeeds hands its value and its state to the next one. -/
theorem bind_of_ok {first : Attempt ε σ α} {state after : σ} {value : α}
    (h : first state = (.ok value, after)) (next : α → Attempt ε σ β) :
    (first >>= next) state = next value after := by
  rw [bind_apply, h]

/-- A step that fails is the last one. -/
theorem bind_of_error {first : Attempt ε σ α} {state after : σ} {error : ε}
    (h : first state = (.error error, after)) (next : α → Attempt ε σ β) :
    (first >>= next) state = (.error error, after) := by
  rw [bind_apply, h]

/-- What either of two steps does to any state, both do to it together. -/
theorem related_bind (related : σ → σ → Prop) {first : Attempt ε σ α} {next : α → Attempt ε σ β}
    (htrans : ∀ before middle after, related before middle → related middle after →
      related before after)
    (hfirst : ∀ state, related state (first state).2)
    (hnext : ∀ value state, related state (next value state).2) (state : σ) :
    related state ((first >>= next) state).2 := by
  have hstart := hfirst state
  rw [bind_apply]
  rcases hmiddle : first state with ⟨error | value, middle⟩
  · rw [hmiddle] at hstart
    exact hstart
  · rw [hmiddle] at hstart
    exact htrans state middle _ hstart (hnext value middle)

@[simp] theorem ofExcept_apply (result : Except ε α) (state : σ) :
    (ofExcept result : Attempt ε σ α) state = (result, state) := rfl

@[simp] theorem mapError_apply (report : ε → ε') (attempt : Attempt ε σ α) (state : σ) :
    attempt.mapError report state = ((attempt state).1.mapError report, (attempt state).2) := rfl

@[simp] theorem outcome_apply (attempt : Attempt ε σ α) (state : σ) :
    (attempt.outcome : Attempt ε' σ (Except ε α)) state =
      (.ok (attempt state).1, (attempt state).2) := rfl

@[simp] theorem within_apply (part : Focus σ τ) (attempt : Attempt ε τ α) (state : σ) :
    attempt.within part state =
      ((attempt (part.get state)).1, part.set (attempt (part.get state)).2 state) := rfl

@[simp] theorem ensuring_apply (attempt : Attempt ε σ α) (cleanUp : StateM σ Unit) (state : σ) :
    attempt.ensuring cleanUp state = ((attempt state).1, (cleanUp (attempt state).2).2) := rfl

end Attempt

end LauncherOptions
