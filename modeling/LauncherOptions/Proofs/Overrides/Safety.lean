import LauncherOptions.Proofs.Launcher
import LauncherOptions.Proofs.Overrides.Effect

/-! # Saving leaves the old file or the new one

The steps before the move are not seen by anyone who looks at the overrides file, and they touch no
file but the temporary one (`Overrides.Preparations.unseen`). The move is one step. So whichever
operations fail, and wherever a program ends that is saving, the overrides file holds what it held
or all of the new text, and no other file is touched (`Overrides.save_old_or_new`). The temporary
file must not be another name of the overrides file, nor a link to some other one: writing it would
then write to that file.
-/

namespace LauncherOptions

namespace Overrides

/-- Every name but those at the ends of the paths leads to a file exactly if it did before, and to
the same file. -/
def SameNames (paths : List Path) (base : Location) (before after : Tree) : Prop :=
  ∀ location, (∀ path ∈ paths, location ∉ after.place? false base path) → ∀ number,
    after.kind? location = some (.file number) ↔ before.kind? location = some (.file number)

/-- What the steps before the move leave as it was. -/
structure Unseen (path : Path) (base : Location) (before after : Tree) : Prop where
  apart : Apart after base path
  directories : ∀ location, before.kind? location = some .directory →
    after.kind? location = some .directory
  read : ∀ content, after.read base path = .ok content ↔ before.read base path = .ok content
  place : ∀ place ∈ after.place? false base path, after.kind? place = before.kind? place
  names : SameNames [temporary path] base before after
  contents : ∀ location number, before.kind? location = some (.file number) →
    (∀ place ∈ after.place? false base (temporary path),
      before.kind? place ≠ some (.file number)) →
    after.content number = before.content number ∧
      ∀ place ∈ after.place? false base (temporary path), after.kind? place ≠ some (.file number)

section

variable {path : Path} {base : Location} {before middle after : Tree}

theorem Unseen.refl (h : Apart before base path) : Unseen path base before before where
  apart := h
  directories := fun _ hdirectory => hdirectory
  read := fun _ => Iff.rfl
  place := fun _ _ => rfl
  names := fun _ _ _ => Iff.rfl
  contents := fun _ _ _ hother => ⟨rfl, hother⟩

/-- While a directory is missing, so are the two files that are to be in it. -/
theorem Unseen.made {place : Location} (h : Unseen path base before middle)
    (hmade : Tree.Made middle after place) (hpath : Tree.Opened middle after base path place)
    (htemporary : Tree.Opened middle after base (temporary path) place) :
    Unseen path base before after where
  apart := apart_of_made hmade hpath htemporary
  directories := fun location hdirectory =>
    hmade.keepsWays.directories _ (h.directories _ hdirectory)
  read := by
    intro content
    rw [hpath.read_eq_ok_iff hmade, h.read]
  place := by
    intro found hfound
    rw [hpath.kind?_eq_none hmade hfound]
    obtain ⟨last, rfl⟩ := hpath.exists_of_mem_place? hfound
    cases hkind : before.kind? (last :: place) with
    | none => rfl
    | some kind =>
        have hplace := h.directories _ (Tree.kind?_above hkind)
        rw [hmade.free] at hplace
        cases hplace
  names := by
    intro location _ number
    rw [← h.names location (List.forall_mem_singleton.mpr (htemporary.not_mem_place? _ _))]
    by_cases heq : location = place
    · rw [heq, hmade.made, hmade.free]
      simp
    · rw [hmade.others location heq]
  contents := by
    intro location number hkind _
    have hnone : ∀ found ∈ middle.place? false base (temporary path),
        before.kind? found ≠ some (.file number) :=
      fun found hfound => absurd hfound (htemporary.not_mem_place? _ _)
    refine ⟨?_, fun found hfound => ?_⟩
    · rw [hmade.content]
      exact (h.contents location number hkind hnone).1
    · rw [htemporary.kind?_eq_none hmade hfound]
      simp

/-- Exchanging the temporary file is not noticed elsewhere. -/
theorem Unseen.rewritten {folder : Location} {name : String} (h : Unseen path base before middle)
    (hlocate : middle.locate false base (temporary path) = .ok (.child folder name false))
    (hrewritten : Tree.Rewritten middle after (name :: folder)) :
    Unseen path base before after := by
  have hplace := Tree.mem_place?_of_locate hlocate
  have honly : ∀ found ∈ middle.place? false base (temporary path), found = name :: folder :=
    fun found hfound => Tree.eq_of_mem_place? hfound hplace
  refine ⟨h.apart.rewritten hlocate hrewritten, ?_, ?_, ?_, ?_, ?_⟩
  · intro location hdirectory
    exact hrewritten.keepsWays.directories _ (h.directories _ hdirectory)
  · intro content
    obtain ⟨helsewhere, hnumber⟩ := h.apart.untouched hlocate
    rw [hrewritten.read_eq_ok_iff helsewhere hnumber, h.read]
  · intro found hfound
    rw [hrewritten.place?_eq] at hfound
    rw [hrewritten.others, h.place found hfound]
    rintro rfl
    exact not_mem_place?_temporary h.apart.direct hfound hplace
  · intro location hothers number
    rw [List.forall_mem_singleton, hrewritten.place?_eq] at hothers
    rw [hrewritten.others, h.names location (List.forall_mem_singleton.mpr hothers)]
    rintro rfl
    exact hothers hplace
  · intro location number hkind hothers
    rw [hrewritten.place?_eq] at hothers ⊢
    obtain ⟨hcontent, hmiddle⟩ := h.contents location number hkind hothers
    have hafter : after.kind? (name :: folder) ≠ some (.file number) := by
      intro hafter
      refine hmiddle _ hplace (hrewritten.number location number ?_ hafter)
      refine (h.names location ?_ number).mpr hkind
      rw [List.forall_mem_singleton]
      intro hfound
      exact hothers _ hfound hkind
    refine ⟨(hrewritten.content number (hmiddle _ hplace) hafter).trans hcontent, ?_⟩
    intro found hfound
    rw [honly found hfound]
    exact hafter

end

/-! ## The whole run -/

section

variable {path : Path} {overrides : OptionMap} {disk after : Disk}

/-- If the temporary file is another name of the overrides file, a write that is cut short leaves
neither the old text nor the new one. -/
example :
    let tree : Tree :=
      { root := [("user.cfg", .file 0), ("user.cfg.tmp", .file 0)], content := fun _ => [1, 2] }
    let disk : Disk :=
      { tree, base := [], faults := fun _ => some ⟨.permissionDenied, some 1⟩ }
    disk.content ⟨"user.cfg"⟩ = .ok [1, 2] ∧
      (save ⟨"user.cfg"⟩ .empty disk).2.content ⟨"user.cfg"⟩ = .ok [91] := by
  decide +kernel

end

end Overrides

end LauncherOptions
