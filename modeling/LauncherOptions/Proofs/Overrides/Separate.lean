import LauncherOptions.Proofs.Overrides.Effect

/-! # The launcher's files

The launcher reads its configuration and the overrides, and writes the overrides through a temporary
file. Saving keeps these three files apart if they are different ones and the last two are not
behind links (`Overrides.Separate`), whether it succeeds or not. Then the configuration is read as
before, and an overrides file that is missing stays missing until it is saved. Where there are no
links, it is enough that the paths name different places (`Overrides.separate_of_linkless`).
-/

namespace LauncherOptions

/-- Every segment of the path is a name that a directory can hold. -/
def Path.Fits (path : Path) : Prop :=
  ∀ segment ∈ path.segments, segment.utf8ByteSize ≤ Tree.maxNameSize

instance (path : Path) : Decidable path.Fits :=
  inferInstanceAs (Decidable (∀ segment ∈ path.segments, _))

/-- No file can be read at the path, as there is none or there cannot be one. -/
def Tree.Missing (tree : Tree) (base : Location) (path : Path) : Prop :=
  tree.read base path = .error .noEntry ∨
    tree.read base path = .error .nameTooLong ∧ ¬path.Fits

namespace Overrides

/-- The overrides file and the temporary one are not behind links, and with the configuration file
they are three different files. -/
structure Separate (tree : Tree) (base : Location) (config path : Path) : Prop where
  direct : tree.Direct base path
  directTemporary : tree.Direct base (temporary path)
  pathTemporary : tree.Distinct base path (temporary path)
  configPath : tree.Distinct base config path
  configTemporary : tree.Distinct base config (temporary path)

instance (tree : Tree) (base : Location) (config path : Path) :
    Decidable (Separate tree base config path) :=
  decidable_of_iff
    (tree.Direct base path ∧ tree.Direct base (temporary path) ∧
      tree.Distinct base path (temporary path) ∧ tree.Distinct base config path ∧
      tree.Distinct base config (temporary path))
    ⟨fun ⟨hpath, htemporary, hown, hconfig, hother⟩ => ⟨hpath, htemporary, hown, hconfig, hother⟩,
      fun h => ⟨h.direct, h.directTemporary, h.pathTemporary, h.configPath, h.configTemporary⟩⟩

variable {config path : Path} {base : Location} {before after : Tree} {content : List UInt8}

theorem Separate.apart {tree : Tree} (h : Separate tree base config path) : Apart tree base path :=
  apart_of_direct h.direct h.directTemporary h.pathTemporary

/-- In a tree without links, three paths that name different places lead to different files. -/
theorem separate_of_linkless {tree : Tree} (h : tree.Linkless)
    (hpath : config.location base ≠ path.location base)
    (htemporary : config.location base ≠ (temporary path).location base) :
    Separate tree base config path := by
  have hapart := apart_of_linkless h base path
  refine ⟨h.direct base path, hapart.direct, hapart.distinct, h.distinct ?_, h.distinct ?_⟩
  · intro place hplace hother
    exact hpath ((h.location_eq hplace).symm.trans (h.location_eq hother))
  · intro place hplace hother
    exact htemporary ((h.location_eq hplace).symm.trans (h.location_eq hother))

/-! ## Steps before the move -/

theorem Separate.made {place : Location} (hread : before.read base config = .ok content)
    (hmade : Tree.Made before after place) (hpath : Tree.Opened before after base path place)
    (htemporary : Tree.Opened before after base (temporary path) place) :
    Separate after base config path := by
  have hapart := apart_of_made hmade hpath htemporary
  have hconfig : ∀ found ∈ after.place? true base config, after.kind? found ≠ none := by
    intro found hfound
    obtain ⟨folder, name, number, hlocate, _, hkind, _⟩ :=
      Tree.read_eq_ok_iff.mp (hmade.read_eq_ok hread)
    rw [Tree.eq_of_mem_place? hfound (Tree.mem_place?_of_locate hlocate), hkind]
    simp
  exact ⟨hpath.direct hmade, hapart.direct, hapart.distinct,
    Tree.distinct_of_vacant hconfig fun _ hfound => hpath.kind?_eq_none hmade hfound,
    Tree.distinct_of_vacant hconfig fun _ hfound => htemporary.kind?_eq_none hmade hfound⟩

theorem Separate.rewritten {folder : Location} {name : String}
    (h : Separate before base config path)
    (hlocate : before.locate false base (temporary path) = .ok (.child folder name false))
    (hrewritten : Tree.Rewritten before after (name :: folder)) :
    Separate after base config path := by
  have htarget := h.apart.target hlocate
  have hapart := h.apart.rewritten hlocate hrewritten
  refine ⟨hrewritten.direct h.direct, hapart.direct, hapart.distinct, ?_,
    hrewritten.distinct htarget h.configTemporary⟩
  exact hrewritten.distinct_others (fun hfound => h.configTemporary.places _ hfound htarget)
    (h.apart.untouched hlocate).1 h.configPath

/-- A step before the move leaves the files apart and the configuration as it was. -/
theorem Preparation.separate (hdescending : path.Descending)
    (hstep : Preparation path base before after) (h : Separate before base config path)
    (hread : before.read base config = .ok content) :
    Separate after base config path ∧ after.read base config = .ok content := by
  rcases hstep.effect hdescending h.directTemporary with
    ⟨place, hmade, hpath, htemporary⟩ | ⟨folder, name, hlocate, hrewritten⟩
  · exact ⟨.made hread hmade hpath htemporary, hmade.read_eq_ok hread⟩
  · have htarget := h.apart.target hlocate
    refine ⟨h.rewritten hlocate hrewritten, (hrewritten.read_eq_ok_iff ?_ ?_ content).mpr hread⟩
    · exact fun hfound => h.configTemporary.places _ hfound htarget
    · intro number hnumber hkind
      exact h.configTemporary.numbers _ hnumber (Tree.mem_number?_iff.mpr ⟨_, htarget, hkind⟩)

theorem Preparation.read_eq_ok_iff (hdescending : path.Descending)
    (hstep : Preparation path base before after) (h : Apart before base path)
    (content : List UInt8) :
    after.read base path = .ok content ↔ before.read base path = .ok content := by
  rcases hstep.effect hdescending h.direct with
    ⟨place, hmade, hpath, _⟩ | ⟨folder, name, hlocate, hrewritten⟩
  · exact hpath.read_eq_ok_iff hmade content
  · obtain ⟨helsewhere, hnumber⟩ := h.untouched hlocate
    exact hrewritten.read_eq_ok_iff helsewhere hnumber content

/-- An overrides file that is missing stays missing. Directories that are made on the way may bring
out that a name is too long. -/
theorem Preparation.missing (hplain : path.Plain) (hstep : Preparation path base before after)
    (h : Apart before base path) (hdirect : before.Direct base path)
    (hmissing : before.Missing base path) : after.Missing base path := by
  rcases hstep.effect hplain.dotless.descending h.direct with
    ⟨place, hmade, hpath, _⟩ | ⟨folder, name, hlocate, hrewritten⟩
  · rcases hpath true with ⟨hbefore, hafter⟩ | ⟨_, rest, hrest, hsegments, hbarren⟩
    · have hread : before.read base path = .error .nameTooLong := by
        rw [Tree.read, hbefore]
        rfl
      rcases hmissing with hnone | ⟨_, hfits⟩
      · rw [hread] at hnone
        cases hnone
      · refine .inr ⟨?_, hfits⟩
        rw [Tree.read, hafter]
        rfl
    · unfold Tree.Missing Tree.read
      generalize after.locate true base path = outcome at hbarren ⊢
      cases hbarren with
      | stay hdots =>
          obtain ⟨segment, hsegment⟩ := List.exists_mem_of_ne_nil rest hrest
          exact absurd (hdots segment hsegment) (hplain.dotless segment (hsegments hsegment)).1
      | @child segment hsegment =>
          have hcontent := Tree.contentAt_of_none path.endsInSlash (hmade.empty segment)
          split at hcontent
          next hsize =>
            exact .inr ⟨hcontent,
              fun hfits => Nat.not_lt.mpr (hfits segment (hsegments hsegment)) hsize⟩
          next => exact .inl hcontent
      | noEntry => exact .inl rfl
      | @nameTooLong segment hsegment hsize =>
          exact .inr ⟨rfl, fun hfits => Nat.not_lt.mpr (hfits segment (hsegments hsegment)) hsize⟩
  · by_cases hempty : path.text = ""
    · left
      rw [Tree.read, Tree.locate, if_pos (by simp [hempty])]
      rfl
    obtain ⟨last, hlast⟩ := locate_of_temporary hplain hempty hlocate
    have hlink := hdirect _ (Tree.mem_place?_of_locate hlast)
    obtain ⟨helsewhere, hnumber⟩ := h.untouched hlocate
    unfold Tree.Missing
    rw [hrewritten.read_eq (Tree.locate_taking hlast hlink) helsewhere hnumber]
    exact hmissing

/-- What holds of the launcher's files after any number of steps before the move. -/
theorem Preparations.separate (hplain : path.Plain) (hsteps : Preparations path base before after)
    (h : Separate before base config path) (hread : before.read base config = .ok content) :
    Separate after base config path ∧ after.read base config = .ok content ∧
      (∀ text, after.read base path = .ok text ↔ before.read base path = .ok text) ∧
      (before.Missing base path → after.Missing base path) := by
  have hdescending := hplain.dotless.descending
  induction hsteps with
  | refl => exact ⟨h, hread, fun _ => Iff.rfl, fun hmissing => hmissing⟩
  | tail _ hstep ih =>
      obtain ⟨hmiddle, hconfig, hpath, hmissing⟩ := ih
      obtain ⟨hafter, hreadAfter⟩ := hstep.separate hdescending hmiddle hconfig
      refine ⟨hafter, hreadAfter, fun text => ?_, fun hnone => ?_⟩
      · rw [hstep.read_eq_ok_iff hdescending hmiddle.apart, hpath]
      · exact hstep.missing hplain hmiddle.apart hmiddle.direct (hmissing hnone)

/-! ## The move -/

section

variable {folder : Location} {name : String} {number : Nat}

/-- If no link is replaced, the move lets all ways be. -/
theorem Moved.keepsWays (h : Moved path base before after folder name number)
    (hdirect : before.Direct base path) :
    Tree.KeepsWays before after ∧ Tree.KeepsWays after before := by
  have hlink := hdirect _ (Tree.mem_place?_of_locate h.pathBefore)
  -- before and after the move there is a file or nothing at the two places
  have hfiles : ∀ location, after.kind? location ≠ before.kind? location →
      (∀ kind, before.kind? location = some kind → kind.isFile = true) ∧
        ∀ kind, after.kind? location = some kind → kind.isFile = true := by
    intro location hchanged
    rw [h.seen] at hchanged ⊢
    split at hchanged
    next hpath =>
      rw [if_pos hpath, hpath]
      refine ⟨fun kind hkind => Tree.isFile_of_kind? hkind h.free hlink, fun kind hkind => ?_⟩
      cases hkind
      rfl
    next hpath =>
      split at hchanged
      next htemporary =>
        rw [if_neg hpath, if_pos htemporary, htemporary, h.file]
        refine ⟨fun kind hkind => ?_, fun kind hkind => ?_⟩
        · cases hkind
          rfl
        · cases hkind
      next => exact absurd rfl hchanged
  have hlinks : ∀ {kind : Kind} {target : Path}, kind.isFile = true → kind ≠ .link target := by
    rintro kind target hfile rfl
    cases hfile
  constructor
  · refine Tree.keepsWays_of_files fun location hne => ?_
    obtain ⟨hbefore, hafter⟩ := hfiles location hne
    exact ⟨hbefore, fun target htarget => hlinks (hafter _ htarget) rfl⟩
  · refine Tree.keepsWays_of_files fun location hne => ?_
    obtain ⟨hbefore, hafter⟩ := hfiles location hne.symm
    exact ⟨hafter, fun target htarget => hlinks (hbefore _ htarget) rfl⟩

theorem Moved.separate (hmoved : Moved path base before after folder name number)
    (h : Separate before base config path) (hread : before.read base config = .ok content) :
    Separate after base config path ∧ after.read base config = .ok content := by
  obtain ⟨hways, _⟩ := hmoved.keepsWays h.direct
  have hplace : name :: folder ∈ before.place? true base path :=
    Tree.mem_place?_of_locate (Tree.locate_taking hmoved.pathBefore
      (h.direct _ (Tree.mem_place?_of_locate hmoved.pathBefore)))
  have hbeside := h.apart.target hmoved.temporaryBefore
  obtain ⟨configFolder, configName, configNumber, hlocate, hsize, hkind, hcontent⟩ :=
    Tree.read_eq_ok_iff.mp hread
  have hconfig := Tree.mem_place?_of_locate hlocate
  -- the configuration is at neither of the two places
  have hnotPath : configName :: configFolder ≠ name :: folder :=
    fun heq => h.configPath.places _ hconfig (heq ▸ hplace)
  have hnotTemporary : configName :: configFolder ≠ (name ++ temporarySuffix) :: folder :=
    fun heq => h.configTemporary.places _ hconfig (heq ▸ hbeside)
  have hkept : after.kind? (configName :: configFolder) = some (.file configNumber) := by
    rw [hmoved.seen, if_neg hnotPath, if_neg hnotTemporary, hkind]
  have hconfigAfter : ∀ found ∈ after.place? true base config, found = configName :: configFolder :=
    fun found hfound => Tree.eq_of_mem_place? hfound (Tree.place?_of_keepsWays hways hconfig)
  have hpathAfter : ∀ found ∈ after.place? true base path, found = name :: folder :=
    fun found hfound => Tree.eq_of_mem_place? hfound (Tree.place?_of_keepsWays hways hplace)
  have hvacant : ∀ found ∈ after.place? true base (temporary path), after.kind? found = none := by
    intro found hfound
    rw [Tree.eq_of_mem_place? hfound (Tree.place?_of_keepsWays hways hbeside),
      hmoved.kind?_temporary]
  refine ⟨⟨?_, ?_, ?_, ⟨?_, ?_⟩, ?_⟩, ?_⟩
  · intro found hfound
    rw [Tree.eq_of_mem_place? hfound (Tree.mem_place?_of_locate hmoved.pathAfter)]
    simp [Tree.isLink, hmoved.kind?_path]
  · intro found hfound
    rw [Tree.eq_of_mem_place? hfound (Tree.mem_place?_of_locate hmoved.temporaryAfter)]
    simp [Tree.isLink, hmoved.kind?_temporary]
  · refine Tree.distinct_of_vacant (fun found hfound => ?_) hvacant
    rw [hpathAfter found hfound, hmoved.kind?_path]
    simp
  · intro found hfound hother
    exact hnotPath ((hconfigAfter found hfound).symm.trans (hpathAfter found hother))
  · intro found hfound hother
    obtain ⟨_, hfirst, hfirstKind⟩ := Tree.mem_number?_iff.mp hfound
    obtain ⟨_, hsecond, hsecondKind⟩ := Tree.mem_number?_iff.mp hother
    rw [hconfigAfter _ hfirst, hkept] at hfirstKind
    rw [hpathAfter _ hsecond, hmoved.kind?_path] at hsecondKind
    cases hfirstKind
    cases hsecondKind
    exact h.configTemporary.numbers _ (Tree.mem_number?_iff.mpr ⟨_, hconfig, hkind⟩)
      (Tree.mem_number?_iff.mpr ⟨_, hbeside, hmoved.file⟩)
  · refine Tree.distinct_of_vacant (fun found hfound => ?_) hvacant
    rw [hconfigAfter found hfound, hkept]
    simp
  · refine Tree.read_eq_ok_iff.mpr ⟨configFolder, configName, configNumber,
      Tree.locate_of_keepsWays hways hlocate, hsize, hkept, ?_⟩
    rw [hmoved.content, hcontent]

end

/-! ## Saving -/

/-- Whether saving succeeds or not, the launcher's files stay apart, and the configuration stays
what it is. -/
theorem separate_of_save {overrides : OptionMap} {disk left : Disk} {result : Except Error Unit}
    (hplain : path.Plain) (hsave : save path overrides disk = (result, left))
    (h : Separate disk.tree disk.base config path)
    (hread : disk.tree.read disk.base config = .ok content) :
    left.base = disk.base ∧ Separate left.tree disk.base config path ∧
      left.tree.read disk.base config = .ok content := by
  cases result with
  | error error =>
      obtain ⟨hbase, hsteps⟩ := save_eq_error hsave
      obtain ⟨hseparate, hconfig, _⟩ := hsteps.separate hplain h hread
      exact ⟨hbase, hseparate, hconfig⟩
  | ok =>
      obtain ⟨_, hbase, prepared, written, hprepared, hwrite, hmove⟩ := exists_move_of_save hsave
      have hdescending := hplain.dotless.descending
      obtain ⟨hready, hconfigReady, _⟩ := hprepared.separate hplain h hread
      obtain ⟨hwritten, hconfigWritten⟩ :=
        Preparation.separate hdescending (.write hwrite) hready hconfigReady
      obtain ⟨folder, name, number, hmoved, _⟩ := (hready.apart.pending hwrite).moved hmove
      exact ⟨hbase, hmoved.separate hwritten hconfigWritten⟩

/-- Saving that succeeds leaves the new text in the overrides file. -/
theorem read_of_save_eq_ok {overrides : OptionMap} {disk left : Disk} (hplain : path.Plain)
    (hsave : save path overrides disk = (.ok (), left))
    (h : Separate disk.tree disk.base config path)
    (hread : disk.tree.read disk.base config = .ok content) :
    left.tree.read disk.base path = .ok (bytes overrides) := by
  obtain ⟨_, _, prepared, written, hprepared, hwrite, hmove⟩ := exists_move_of_save hsave
  obtain ⟨hready, _⟩ := hprepared.separate hplain h hread
  obtain ⟨folder, name, number, hmoved, hcontent⟩ := (hready.apart.pending hwrite).moved hmove
  rw [hmoved.read_eq, hcontent]

end Overrides

end LauncherOptions
