import LauncherOptions.Overrides

/-! # Outcomes of saving the overrides

Saving makes the directory, writes the temporary file and moves it into place. It ends at the first
of these stages that fails, and a failed move is followed by the removal of the temporary file.
`SaveOutcome` lists the stages with the disk that each of them leaves behind.
-/

namespace LauncherOptions.Overrides

/-- The ways in which saving can end. -/
inductive SaveOutcome (path : Path) (overrides : OptionMap) (disk : Disk) :
    Except Error Unit → Disk → Prop
  /-- The directory of the file cannot be made. -/
  | unprepared {error : Error} {prepared : Disk}
      (hprepare : prepareDirectory path disk = (.error error, prepared)) :
      SaveOutcome path overrides disk (.error error) prepared
  /-- The temporary file cannot be written. -/
  | unwritten {cause : IoCause} {prepared written : Disk}
      (hprepare : prepareDirectory path disk = (.ok (), prepared))
      (hwrite : Disk.write (temporary path) (bytes overrides) prepared =
        (.error cause, written)) :
      SaveOutcome path overrides disk (.error (.io (temporary path) cause)) written
  /-- The temporary file cannot be moved into place, and is removed if possible. -/
  | unmoved {cause : IoCause} {prepared written moved removed : Disk}
      (hprepare : prepareDirectory path disk = (.ok (), prepared))
      (hwrite : Disk.write (temporary path) (bytes overrides) prepared = (.ok (), written))
      (hrename : Disk.rename (temporary path) path written = (.error cause, moved))
      (hremove : (Disk.remove (temporary path) moved).2 = removed) :
      SaveOutcome path overrides disk (.error (.io path cause)) removed
  /-- The temporary file takes the place of the overrides file. -/
  | moved {prepared written moved : Disk}
      (hprepare : prepareDirectory path disk = (.ok (), prepared))
      (hwrite : Disk.write (temporary path) (bytes overrides) prepared = (.ok (), written))
      (hrename : Disk.rename (temporary path) path written = (.ok (), moved)) :
      SaveOutcome path overrides disk (.ok ()) moved

/-- Saving ends in one of the listed ways. -/
theorem save_outcome (path : Path) (overrides : OptionMap) (disk : Disk) :
    SaveOutcome path overrides disk (save path overrides disk).1
      (save path overrides disk).2 := by
  rw [save]
  rcases hprepare : prepareDirectory path disk with ⟨result, prepared⟩
  cases result with
  | error error =>
      rw [Attempt.bind_of_error hprepare]
      exact .unprepared hprepare
  | ok =>
      rw [Attempt.bind_of_ok hprepare]
      rcases hwrite : Disk.write (temporary path) (bytes overrides) prepared with
        ⟨result, written⟩
      cases result with
      | error cause =>
          have hreport : ((Disk.write (temporary path) (bytes overrides)).mapError
              (Error.io (temporary path))) prepared =
                (.error (.io (temporary path) cause), written) := by
            rw [Attempt.mapError_apply, hwrite]
            rfl
          rw [Attempt.bind_of_error hreport]
          exact .unwritten hprepare hwrite
      | ok =>
          have hreport : ((Disk.write (temporary path) (bytes overrides)).mapError
              (Error.io (temporary path))) prepared = (.ok (), written) := by
            rw [Attempt.mapError_apply, hwrite]
            rfl
          rw [Attempt.bind_of_ok hreport,
            Attempt.bind_of_ok (Attempt.outcome_apply _ written)]
          rcases hrename : Disk.rename (temporary path) path written with ⟨result, moved⟩
          cases result with
          | ok => exact .moved hprepare hwrite hrename
          | error cause => exact .unmoved hprepare hwrite hrename rfl

/-- Making the directory fails with the cause that the disk reports. -/
theorem prepareDirectory_error {path : Path} {disk after : Disk} {error : Error}
    (h : prepareDirectory path disk = (.error error, after)) :
    ∃ parent cause, error = .io parent cause := by
  cases hparent : path.parent? with
  | none => simp [prepareDirectory, hparent] at h
  | some parent =>
      by_cases hempty : parent.text.isEmpty
      · simp [prepareDirectory, hparent, hempty] at h
      · simp only [prepareDirectory, hparent, hempty, Bool.false_eq_true, if_false,
          Attempt.mapError_apply, Prod.mk.injEq] at h
        cases hmake : (Disk.makeDirectoryTree parent disk).1 with
        | ok =>
            rw [hmake] at h
            cases h.1
        | error cause =>
            rw [hmake] at h
            cases h.1
            exact ⟨parent, cause, rfl⟩

/-- Every failure to save is a failure of a file operation. -/
theorem save_error_io {path : Path} {overrides : OptionMap} {disk after : Disk} {error : Error}
    (h : save path overrides disk = (.error error, after)) :
    ∃ place cause, error = .io place cause := by
  have houtcome := save_outcome path overrides disk
  rw [h] at houtcome
  cases houtcome with
  | unprepared hprepare => exact prepareDirectory_error hprepare
  | unwritten => exact ⟨_, _, rfl⟩
  | unmoved => exact ⟨_, _, rfl⟩

end LauncherOptions.Overrides
