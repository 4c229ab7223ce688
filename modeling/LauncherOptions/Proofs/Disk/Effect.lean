import LauncherOptions.Disk.Basic
import LauncherOptions.Proofs.Disk.Place
import Mathlib.Logic.Relation

/-! # Effects of file operations

Making a directory is seen at its place alone (`Tree.Made`), and so is writing a file, apart from
the other names that the file may have (`Tree.Rewritten`). Moving a file is seen at two places
(`Tree.rename_eq_ok`). An operation on a disk succeeds like the one on its tree or fails for reasons
of its own, so an attempt made of such operations takes the tree through steps of the same kind,
whichever of them fail (`Disk.Confined`).
-/

namespace LauncherOptions

namespace Tree

variable {tree before after : Tree} {base place : Location} {path : Path}

/-- Ways do not lead through files, so files can come and go. -/
theorem keepsWays_of_files
    (h : ∀ location, after.kind? location ≠ before.kind? location →
      (∀ kind, before.kind? location = some kind → kind.isFile = true) ∧
        ∀ target, after.kind? location ≠ some (.link target)) : KeepsWays before after := by
  refine ⟨fun location hdirectory => ?_, fun location target => ?_⟩
  · by_contra hlost
    rw [← hdirectory] at hlost
    cases (h location hlost).1 _ hdirectory
  · by_cases hsame : after.kind? location = before.kind? location
    · rw [hsame]
    · obtain ⟨hbefore, hafter⟩ := h location hsame
      exact iff_of_false (hafter target) fun hlink => by cases hbefore _ hlink

theorem keepsWays_of_ne {place : Location}
    (hbefore : ∀ kind, before.kind? place = some kind → kind.isFile = true)
    (hafter : ∀ target, after.kind? place ≠ some (.link target))
    (hothers : ∀ other, other ≠ place → after.kind? other = before.kind? other) :
    KeepsWays before after := by
  refine keepsWays_of_files fun location hne => ?_
  obtain rfl : location = place := by
    by_contra hother
    exact hne (hothers location hother)
  exact ⟨hbefore, hafter⟩

/-- Ways that are kept are kept without a link as well. -/
theorem KeepsWays.erase (h : KeepsWays before after) {folder : Location} {name : String}
    (hfolder : before.kind? folder = some .directory)
    (hlink : before.isLink (name :: folder) = true) :
    KeepsWays (before.erase folder name) (after.erase folder name) := by
  obtain ⟨target, htarget⟩ := exists_of_isLink hlink
  have hbefore := kind?_erase hfolder (show before.kind? (name :: folder) ≠
    some .directory by simp [htarget])
  have hafter := kind?_erase (h.directories _ hfolder) (show after.kind? (name :: folder) ≠
    some .directory by simp [(h.links _ _).mpr htarget])
  refine ⟨fun location hdirectory => ?_, fun location target => ?_⟩
  · rw [hbefore] at hdirectory
    rw [hafter]
    split at hdirectory
    · cases hdirectory
    next hne => rw [if_neg hne, h.directories _ hdirectory]
  · rw [hbefore, hafter]
    split
    · rfl
    · exact h.links _ _

/-- A directory is made at a place where nothing stands. -/
structure Made (before after : Tree) (place : Location) : Prop where
  free : before.kind? place = none
  made : after.kind? place = some .directory
  others : ∀ other, other ≠ place → after.kind? other = before.kind? other
  content : after.content = before.content

theorem Made.keepsWays (h : Made before after place) : KeepsWays before after := by
  refine keepsWays_of_ne (fun kind hkind => ?_) (fun target hlink => ?_) h.others
  · rw [h.free] at hkind
    cases hkind
  · rw [h.made] at hlink
    cases hlink

/-- Nothing stands in a directory that has just been made. -/
theorem Made.empty (h : Made before after place) (name : String) :
    after.kind? (name :: place) = none := by
  rw [h.others _ (by simp)]
  cases hkind : before.kind? (name :: place) with
  | none => rfl
  | some kind =>
      have hplace := kind?_above hkind
      rw [h.free] at hplace
      cases hplace

theorem Made.read_eq_ok (h : Made before after place) {content : List UInt8}
    (hread : before.read base path = .ok content) : after.read base path = .ok content := by
  rw [read_eq_ok_iff] at hread ⊢
  obtain ⟨folder, name, number, hlocate, hsize, hkind, hcontent⟩ := hread
  refine ⟨folder, name, number, locate_of_keepsWays h.keepsWays hlocate, hsize, ?_, ?_⟩
  · rw [h.others, hkind]
    rintro rfl
    rw [h.free] at hkind
    cases hkind
  · rw [h.content, hcontent]

/-- A path that led nowhere goes on into an empty directory, if it is not too long for any tree. -/
def Opened (before after : Tree) (base : Location) (path : Path) (place : Location) : Prop :=
  ∀ through,
    before.locate through base path = .error .nameTooLong ∧
        after.locate through base path = .error .nameTooLong ∨
      before.locate through base path = .error .noEntry ∧
        ∃ rest, rest ≠ [] ∧ rest ⊆ path.segments ∧
          Barren place path.endsInSlash rest (after.locate through base path)

theorem Opened.not_mem_place? (h : Opened before after base path place) (through : Bool)
    (found : Location) : found ∉ before.place? through base path := by
  intro hfound
  obtain ⟨folder, name, slash, hlocate, _⟩ := mem_place?_iff.mp hfound
  rcases h through with ⟨hbefore, _⟩ | ⟨hbefore, _⟩ <;>
  · rw [hbefore] at hlocate
    cases hlocate

theorem Opened.exists_of_mem_place? (h : Opened before after base path place) {through : Bool}
    {found : Location} (hfound : found ∈ after.place? through base path) :
    ∃ last, found = last :: place := by
  obtain ⟨folder, name, slash, hlocate, rfl⟩ := mem_place?_iff.mp hfound
  rcases h through with ⟨_, hafter⟩ | ⟨_, rest, _, _, hbarren⟩
  · rw [hafter] at hlocate
    cases hlocate
  · rw [hlocate] at hbarren
    cases hbarren with
    | child => exact ⟨name, rfl⟩

theorem Opened.read_ne_ok (h : Opened before after base path place) (content : List UInt8) :
    before.read base path ≠ .ok content := by
  intro hread
  obtain ⟨folder, name, number, hlocate, _⟩ := Tree.read_eq_ok_iff.mp hread
  exact h.not_mem_place? _ _ (mem_place?_of_locate hlocate)

/-- A directory that is made lets the paths go on that have its names first. -/
theorem Made.opened {above : Path} {folder : Location} {name : String} {slash : Bool}
    {more : List String} (h : Made before after (name :: folder))
    (hlocate : before.locate false base above = .ok (.child folder name slash))
    (hsize : name.utf8ByteSize ≤ maxNameSize) (habsolute : above.isAbsolute = path.isAbsolute)
    (hnames : path.names = above.names ++ more) (hmore : more ≠ [])
    (hdescending : path.Descending) : Opened before after base path (name :: folder) := by
  intro through
  have hempty : path.text.isEmpty = false := by
    cases htext : path.text.isEmpty with
    | false => rfl
    | true =>
        obtain ⟨text⟩ := path
        obtain rfl : text = "" := by simpa using htext
        have hnone : (Path.mk "").names = [] := by decide
        rw [hnone] at hnames
        exact absurd (List.append_eq_nil_iff.mp hnames.symm).2 hmore
  by_cases hlong : maxPathSize ≤ path.text.utf8ByteSize
  · left
    simp [locate, hempty, hlong]
  have hshort := Nat.lt_of_not_le hlong
  have hname := (exists_arrives_of_locate hlocate).1
  right
  constructor
  · obtain ⟨left, rest, hrest, _, hfollow⟩ :=
      locate_of_above hlocate habsolute hnames hmore hempty hshort
    rw [hfollow, follow_cons_of_ne_nil hname hrest, if_neg (Nat.not_lt.mpr hsize), h.free]
  · obtain ⟨left, rest, hrest, hsubset, hfollow⟩ :=
      locate_of_above (locate_of_keepsWays h.keepsWays hlocate) habsolute hnames hmore hempty hshort
    refine ⟨rest, hrest, hsubset, ?_⟩
    rw [hfollow, follow_directory hname hrest hsize h.made]
    exact follow_barren h.empty _ _ _ fun hmem => hdescending (hsubset hmem)

/-- Nothing stands yet where a path ends that goes on into a directory just made. -/
theorem Opened.kind?_eq_none (h : Opened before after base path place)
    (hmade : Made before after place) {through : Bool} {found : Location}
    (hfound : found ∈ after.place? through base path) : after.kind? found = none := by
  obtain ⟨last, rfl⟩ := h.exists_of_mem_place? hfound
  exact hmade.empty last

theorem Opened.direct (h : Opened before after base path place)
    (hmade : Made before after place) : after.Direct base path := by
  intro found hfound
  simp [isLink, h.kind?_eq_none hmade hfound]

theorem Opened.read_eq_ok_iff (h : Opened before after base path place)
    (hmade : Made before after place) (content : List UInt8) :
    after.read base path = .ok content ↔ before.read base path = .ok content := by
  refine iff_of_false (fun hread => ?_) (h.read_ne_ok content)
  obtain ⟨folder, name, number, hlocate, _, hkind, _⟩ := Tree.read_eq_ok_iff.mp hread
  rw [h.kind?_eq_none hmade (mem_place?_of_locate hlocate)] at hkind
  cases hkind

/-- The trees differ in the file at one place. -/
structure Rewritten (before after : Tree) (place : Location) : Prop where
  fileBefore : ∀ kind, before.kind? place = some kind → kind.isFile = true
  fileAfter : ∀ kind, after.kind? place = some kind → kind.isFile = true
  others : ∀ other, other ≠ place → after.kind? other = before.kind? other
  /-- A file that is neither the old nor the new one holds what it held. -/
  content : ∀ number, before.kind? place ≠ some (.file number) →
    after.kind? place ≠ some (.file number) → after.content number = before.content number
  /-- The new file is the old one or has no other name. -/
  number : ∀ other number, before.kind? other = some (.file number) →
    after.kind? place = some (.file number) → before.kind? place = some (.file number)

namespace Rewritten

theorem keepsWays (h : Rewritten before after place) : KeepsWays before after :=
  keepsWays_of_ne h.fileBefore (fun _ hlink => by cases h.fileAfter _ hlink) h.others

theorem keepsWays_symm (h : Rewritten before after place) : KeepsWays after before :=
  keepsWays_of_ne h.fileAfter (fun _ hlink => by cases h.fileBefore _ hlink)
    fun other hne => (h.others other hne).symm

theorem place?_eq (h : Rewritten before after place) (through : Bool) (base : Location)
    (path : Path) : after.place? through base path = before.place? through base path := by
  apply Option.ext
  intro found
  exact ⟨place?_of_keepsWays h.keepsWays_symm, place?_of_keepsWays h.keepsWays⟩

theorem number?_eq (h : Rewritten before after place)
    (hplace : place ∉ before.place? true base path) :
    after.number? base path = before.number? base path := by
  apply Option.ext
  intro number
  have hsame : ∀ found ∈ before.place? true base path,
      after.kind? found = before.kind? found := by
    rintro found hfound
    apply h.others
    rintro rfl
    exact hplace hfound
  rw [← Option.mem_def, ← Option.mem_def, mem_number?_iff, mem_number?_iff, h.place?_eq]
  constructor
  · rintro ⟨found, hfound, hkind⟩
    exact ⟨found, hfound, (hsame found hfound).symm.trans hkind⟩
  · rintro ⟨found, hfound, hkind⟩
    exact ⟨found, hfound, (hsame found hfound).trans hkind⟩

/-- What a path leads to elsewhere is read as before. -/
theorem read_eq (h : Rewritten before after place) {folder : Location} {name : String}
    {slash : Bool} (hlocate : before.locate true base path = .ok (.child folder name slash))
    (hplace : place ∉ before.place? true base path)
    (hnumber : ∀ number ∈ before.number? base path, before.kind? place ≠ some (.file number)) :
    after.read base path = before.read base path := by
  have hfound := mem_place?_of_locate hlocate
  have hne : name :: folder ≠ place := by
    rintro rfl
    exact hplace hfound
  rw [read, read, hlocate, locate_of_keepsWays h.keepsWays hlocate]
  refine contentAt_congr slash (h.others _ hne) fun number hkind => ?_
  have hother := hnumber number (mem_number?_iff.mpr ⟨_, hfound, hkind⟩)
  exact h.content number hother fun hafter => hother (h.number _ _ hkind hafter)

theorem read_eq_ok_iff (h : Rewritten before after place)
    (hplace : place ∉ before.place? true base path)
    (hnumber : ∀ number ∈ before.number? base path, before.kind? place ≠ some (.file number))
    (content : List UInt8) :
    after.read base path = .ok content ↔ before.read base path = .ok content := by
  constructor
  · intro hread
    obtain ⟨folder, name, number, hlocate, _⟩ := Tree.read_eq_ok_iff.mp hread
    rwa [h.read_eq (locate_of_keepsWays h.keepsWays_symm hlocate) hplace hnumber] at hread
  · intro hread
    obtain ⟨folder, name, number, hlocate, _⟩ := Tree.read_eq_ok_iff.mp hread
    rwa [h.read_eq hlocate hplace hnumber]

/-- The file at the place does not become that of another path. -/
theorem distinct (h : Rewritten before after place) {other : Path}
    (hplace : place ∈ before.place? true base other) (hdistinct : before.Distinct base path other) :
    after.Distinct base path other := by
  have hapart : place ∉ before.place? true base path :=
    fun hfound => hdistinct.places _ hfound hplace
  refine ⟨?_, ?_⟩
  · rw [h.place?_eq, h.place?_eq]
    exact hdistinct.places
  · intro number hnumber hother
    rw [h.number?_eq hapart] at hnumber
    obtain ⟨found, _, hkind⟩ := mem_number?_iff.mp hnumber
    obtain ⟨again, hagain, hafter⟩ := mem_number?_iff.mp hother
    rw [h.place?_eq] at hagain
    obtain rfl := eq_of_mem_place? hplace hagain
    exact hdistinct.numbers _ hnumber
      (mem_number?_iff.mpr ⟨place, hplace, h.number _ _ hkind hafter⟩)

theorem distinct_others (h : Rewritten before after place) {other : Path}
    (hpath : place ∉ before.place? true base path) (hother : place ∉ before.place? true base other)
    (hdistinct : before.Distinct base path other) : after.Distinct base path other := by
  refine ⟨?_, ?_⟩
  · rw [h.place?_eq, h.place?_eq]
    exact hdistinct.places
  · rw [h.number?_eq hpath, h.number?_eq hother]
    exact hdistinct.numbers

theorem direct (h : Rewritten before after place) (hdirect : before.Direct base path) :
    after.Direct base path := by
  intro found hfound
  rw [h.place?_eq] at hfound
  rw [h.keepsWays.isLink_eq]
  exact hdirect found hfound

end Rewritten

/-! ## Operations on trees -/

theorem rewritten_store {number : Nat} (hkind : tree.kind? place = some (.file number))
    (content : List UInt8) : Rewritten tree (tree.store number content) place := by
  refine ⟨?_, ?_, fun other _ => kind?_store _ _ _ _, ?_, ?_⟩
  · intro kind hfound
    rw [hkind] at hfound
    cases hfound
    rfl
  · intro kind hfound
    rw [kind?_store, hkind] at hfound
    cases hfound
    rfl
  · intro other hother _
    refine if_neg fun heq => hother ?_
    rw [heq, hkind]
  · intro other found _ hfound
    rwa [kind?_store] at hfound

theorem rewritten_create {folder : Location} {name : String} (content : List UInt8)
    (hfolder : tree.kind? folder = some .directory) (hfree : tree.kind? (name :: folder) = none) :
    Rewritten tree (tree.create folder name content) (name :: folder) := by
  have hnone : tree.kind? (name :: folder) ≠ some .directory := by simp [hfree]
  have hseen := kind?_create content hfolder hnone
  refine ⟨?_, ?_, fun other hne => by rw [hseen, if_neg hne], ?_, ?_⟩
  · intro kind hfound
    rw [hfree] at hfound
    cases hfound
  · intro kind hfound
    rw [hseen, if_pos rfl] at hfound
    cases hfound
    rfl
  · intro number _ hnumber
    rw [hseen, if_pos rfl] at hnumber
    exact if_neg fun heq => hnumber (by rw [heq])
  · -- a number that is in use is not given out again
    intro other number hother hnumber
    rw [hseen, if_pos rfl] at hnumber
    cases hnumber
    exact absurd (lt_fresh_of_kind? hother) (Nat.lt_irrefl _)

/-- Writing goes to the file that the path leads to, or makes it. -/
theorem write_eq_ok {content : List UInt8} (h : tree.write base path content = .ok after) :
    ∃ folder name number, tree.locate true base path = .ok (.child folder name false) ∧
      Rewritten tree after (name :: folder) ∧
      after.kind? (name :: folder) = some (.file number) ∧ after.content number = content := by
  obtain ⟨spot, hlocate, h⟩ := exists_of_bind_eq_ok h
  cases spot with
  | directory location => cases h
  | child folder name slash =>
      obtain ⟨found, hlookup, h⟩ := exists_of_bind_eq_ok h
      obtain ⟨_, hkind⟩ := lookup_eq_ok hlookup
      cases slash with
      | true => split at h <;> cases h
      | false =>
          split at h
          · cases h
          · cases h
          next number =>
            cases h
            exact ⟨folder, name, number, hlocate, rewritten_store hkind content,
              (kind?_store _ _ _ _).trans hkind, if_pos rfl⟩
          next =>
            cases h
            have hfolder := kind?_folder_of_locate hlocate
            refine ⟨folder, name, tree.fresh, hlocate, rewritten_create content hfolder hkind, ?_,
              if_pos rfl⟩
            rw [kind?_create content hfolder (by simp [hkind]), if_pos rfl]

theorem makeDirectory_eq_ok (h : tree.makeDirectory base path = .ok after) :
    ∃ folder name slash, tree.locate false base path = .ok (.child folder name slash) ∧
      name.utf8ByteSize ≤ maxNameSize ∧ Made tree after (name :: folder) := by
  obtain ⟨spot, hlocate, h⟩ := exists_of_bind_eq_ok h
  cases spot with
  | directory location => cases h
  | child folder name slash =>
      obtain ⟨found, hlookup, h⟩ := exists_of_bind_eq_ok h
      obtain ⟨hsize, hkind⟩ := lookup_eq_ok hlookup
      cases found with
      | some kind => cases h
      | none =>
          cases h
          have hfree : tree.kind? (name :: folder) ≠ some .directory := by simp [hkind]
          have hseen : ∀ other, (tree.put folder name (.directory [])).kind? other =
              if other = name :: folder then some .directory else tree.kind? other :=
            kind?_put .directory (kind?_folder_of_locate hlocate) hfree
          refine ⟨folder, name, slash, hlocate, hsize, hkind, ?_, fun other hne => ?_, rfl⟩
          · rw [hseen, if_pos rfl]
          · rw [hseen, if_neg hne]

theorem remove_eq_ok (h : tree.remove base path = .ok after) :
    ∃ folder name kind, tree.locate false base path = .ok (.child folder name false) ∧
      tree.kind? (name :: folder) = some kind ∧ kind ≠ .directory ∧
      after.content = tree.content ∧
      ∀ other, after.kind? other = if other = name :: folder then none else tree.kind? other := by
  obtain ⟨spot, hlocate, h⟩ := exists_of_bind_eq_ok h
  cases spot with
  | directory location => cases h
  | child folder name slash =>
      obtain ⟨found, hlookup, h⟩ := exists_of_bind_eq_ok h
      obtain ⟨_, hkind⟩ := lookup_eq_ok hlookup
      have hfolder := kind?_folder_of_locate hlocate
      split at h
      · cases h
      · cases h
      next kind hdirectory =>
        cases slash with
        | true => cases h
        | false =>
            cases h
            refine ⟨folder, name, kind, hlocate, hkind, hdirectory, rfl, kind?_erase hfolder ?_⟩
            rw [hkind]
            exact fun heq => hdirectory (Option.some.inj heq)

theorem kind?_erase_put {folder targetFolder : Location} {name targetName : String} (kind : Kind)
    (hfolder : tree.kind? folder = some .directory)
    (hfree : tree.kind? (name :: folder) ≠ some .directory)
    (htargetFolder : tree.kind? targetFolder = some .directory)
    (htargetFree : tree.kind? (targetName :: targetFolder) ≠ some .directory) (other : Location) :
    ((tree.erase folder name).put targetFolder targetName kind.node).kind? other =
      if other = targetName :: targetFolder then some kind
      else if other = name :: folder then none
      else tree.kind? other := by
  have herased := kind?_erase hfolder hfree
  -- taking the file away cannot touch the directory that it is moved to
  have hkept : (tree.erase folder name).kind? targetFolder = some .directory := by
    rw [herased, if_neg ?_]
    · exact htargetFolder
    · rintro rfl
      exact hfree htargetFolder
  have hvacated : (tree.erase folder name).kind? (targetName :: targetFolder) ≠
      some .directory := by
    rw [herased]
    split
    · simp
    · exact htargetFree
  rw [kind?_put kind hkept hvacated, herased]

/-- Moving a file takes it from one place to the other, unless it is there already. -/
theorem rename_eq_ok {source target : Path} (h : tree.rename base source target = .ok after) :
    ∃ folder name targetFolder targetName kind,
      tree.locate false base source = .ok (.child folder name false) ∧
      tree.locate false base target = .ok (.child targetFolder targetName false) ∧
      targetName.utf8ByteSize ≤ maxNameSize ∧ tree.kind? (name :: folder) = some kind ∧
      kind ≠ .directory ∧ tree.kind? (targetName :: targetFolder) ≠ some .directory ∧
      (tree.kind? (targetName :: targetFolder) = some kind ∧ kind.isFile = true ∨
        after.content = tree.content ∧ ∀ other, after.kind? other =
          if other = targetName :: targetFolder then some kind
          else if other = name :: folder then none
          else tree.kind? other) := by
  obtain ⟨origin, horigin, h⟩ := exists_of_bind_eq_ok h
  obtain ⟨destination, hdestination, h⟩ := exists_of_bind_eq_ok h
  rcases origin with _ | ⟨folder, name, slash⟩
  · cases h
  rcases destination with _ | ⟨targetFolder, targetName, targetSlash⟩
  · cases h
  obtain ⟨found, hlookup, h⟩ := exists_of_bind_eq_ok h
  obtain ⟨_, hkind⟩ := lookup_eq_ok hlookup
  split at h
  · cases h
  · cases h
  next kind hdirectory =>
    obtain ⟨present, hpresent, hmoved⟩ := exists_of_bind_eq_ok h
    obtain ⟨hsize, htarget⟩ := lookup_eq_ok hpresent
    split at hmoved
    · cases hmoved
    next hslash =>
      obtain ⟨rfl, rfl⟩ : slash = false ∧ targetSlash = false := by simpa using hslash
      split at hmoved
      · cases hmoved
      next hfree =>
        have hne : kind ≠ .directory := hdirectory
        rw [← htarget] at hfree
        refine ⟨folder, name, targetFolder, targetName, kind, horigin, hdestination, hsize, hkind,
          hne, hfree, ?_⟩
        split at hmoved
        next hsame => exact .inl ⟨htarget.trans hsame.2, hsame.1⟩
        next =>
          cases hmoved
          refine .inr ⟨rfl, kind?_erase_put kind (kind?_folder_of_locate horigin) ?_
            (kind?_folder_of_locate hdestination) hfree⟩
          rw [hkind]
          exact fun heq => hne (Option.some.inj heq)

end Tree

/-! ## Operations on disks -/

namespace Disk

variable {ε ε' α β : Type} {step : Location → Tree → Tree → Prop}

/-- Whatever comes of it, the attempt takes the tree through steps of one kind and stays in the
working directory. -/
def Confined (step : Location → Tree → Tree → Prop) (attempt : Attempt ε Disk α) : Prop :=
  ∀ disk, (attempt disk).2.base = disk.base ∧
    Relation.ReflTransGen (step disk.base) disk.tree (attempt disk).2.tree

theorem confined_of_tree {attempt : Attempt ε Disk α}
    (h : ∀ disk, (attempt disk).2.base = disk.base ∧ (attempt disk).2.tree = disk.tree) :
    Confined step attempt := by
  intro disk
  obtain ⟨hbase, htree⟩ := h disk
  rw [htree]
  exact ⟨hbase, .refl⟩

theorem Confined.bind {first : Attempt ε Disk α} {next : α → Attempt ε Disk β}
    (hfirst : Confined step first) (hnext : ∀ value, Confined step (next value)) :
    Confined step (first >>= next) := by
  apply Attempt.related_bind (fun before after : Disk => after.base = before.base ∧
    Relation.ReflTransGen (step before.base) before.tree after.tree) ?_ hfirst hnext
  intro before middle after ⟨hbase, hsteps⟩ ⟨hbaseEnd, hstepsEnd⟩
  rw [hbase] at hbaseEnd hstepsEnd
  exact ⟨hbaseEnd, hsteps.trans hstepsEnd⟩

theorem Confined.outcome {attempt : Attempt ε Disk α} (h : Confined step attempt) :
    Confined step (attempt.outcome : Attempt ε' Disk (Except ε α)) := h

theorem Confined.mapError {attempt : Attempt ε Disk α} (h : Confined step attempt)
    (report : ε → ε') : Confined step (attempt.mapError report) := h

theorem confined_pure (value : α) : Confined step (pure value : Attempt ε Disk α) :=
  confined_of_tree fun _ => ⟨rfl, rfl⟩

theorem confined_throw (error : ε) : Confined step (throw error : Attempt ε Disk α) :=
  confined_of_tree fun _ => ⟨rfl, rfl⟩

theorem confined_checkPath (path : Path) : Confined step (checkPath path) := by
  unfold checkPath
  split
  · exact confined_throw _
  · exact confined_pure _

theorem tick_apply (disk : Disk) :
    tick disk = (.ok (disk.faults disk.clock), { disk with clock := disk.clock + 1 }) := rfl

/-- What an operation comes to: the fault of its tick, or what it comes to on the tree alone. -/
def result (disk : Disk) (operation : Tree → Location → Except IoCause α) : Except IoCause α :=
  match disk.faults disk.clock with
  | some fault => .error fault.cause
  | none => operation disk.tree disk.base

theorem result_eq_ok {disk : Disk} {operation : Tree → Location → Except IoCause α} {value : α}
    (h : disk.result operation = .ok value) : operation disk.tree disk.base = .ok value := by
  unfold result at h
  split at h
  · cases h
  · exact h

theorem inspect_apply (operation : Tree → Location → Except IoCause α) (disk : Disk) :
    inspect operation disk = (disk.result operation, { disk with clock := disk.clock + 1 }) := by
  rw [inspect, Attempt.bind_of_ok (tick_apply disk), result]
  cases disk.faults disk.clock <;> rfl

theorem change_apply (operation : Tree → Location → Except IoCause Tree) (disk : Disk) :
    change operation disk =
      match disk.result operation with
      | .ok tree => (.ok (), { disk with tree, clock := disk.clock + 1 })
      | .error cause => (.error cause, { disk with clock := disk.clock + 1 }) := by
  rw [change, Attempt.bind_apply, inspect_apply]
  cases disk.result operation <;> rfl

theorem confined_inspect (operation : Tree → Location → Except IoCause α) :
    Confined step (inspect operation) := by
  apply confined_of_tree
  intro disk
  rw [inspect_apply]
  exact ⟨rfl, rfl⟩

theorem confined_change {operation : Tree → Location → Except IoCause Tree}
    (h : ∀ base before after, operation before base = .ok after → step base before after) :
    Confined step (change operation) := by
  intro disk
  rw [change_apply]
  cases hresult : disk.result operation with
  | error cause => exact ⟨rfl, .refl⟩
  | ok after => exact ⟨rfl, .single (h _ _ _ (result_eq_ok hresult))⟩

theorem confined_makeDirectory {path : Path}
    (h : ∀ base before after, before.makeDirectory base path = .ok after → step base before after) :
    Confined step (makeDirectory path) :=
  (confined_checkPath path).bind fun _ => confined_change h

theorem confined_remove {path : Path}
    (h : ∀ base before after, before.remove base path = .ok after → step base before after) :
    Confined step (remove path) :=
  (confined_checkPath path).bind fun _ => confined_change h

theorem confined_isDirectory (path : Path) : Confined step (isDirectory path) := by
  have hlook : Confined step (checkPath path *> inspect (·.isDirectory · path)) :=
    (confined_checkPath path).bind fun _ => confined_inspect _
  refine hlook.outcome.bind fun result => ?_
  cases result with
  | ok answer => exact confined_pure _
  | error cause => exact confined_pure _

theorem confined_makeDirectories {paths : List Path}
    (h : ∀ path ∈ paths, path.text ≠ "" → ∀ base before after,
      before.makeDirectory base path = .ok after → step base before after) :
    Confined step (makeDirectories paths) := by
  induction paths with
  | nil => exact confined_throw _
  | cons path parents ih =>
      obtain ⟨hpath, hparents⟩ := List.forall_mem_cons.mp h
      -- after a failure it is asked whether the directory is there all the same
      have hsettle : ∀ cause, Confined step (do
          if ← isDirectory path then return else throw cause : Attempt IoCause Disk Unit) := by
        intro cause
        refine (confined_isDirectory path).bind fun answer => ?_
        cases answer with
        | true => exact confined_pure _
        | false => exact confined_throw _
      unfold makeDirectories
      split
      · exact confined_pure _
      next hempty =>
        have hmake := confined_makeDirectory (hpath (by simpa using hempty))
        refine hmake.outcome.bind fun result => ?_
        split
        · exact confined_pure _
        · refine (ih hparents).bind fun _ => hmake.outcome.bind fun result => ?_
          split
          · exact confined_pure _
          · exact hsettle _
        · exact hsettle _

/-! ## Results of operations on disks -/

theorem checkPath_bind (path : Path) (next : Unit → Attempt IoCause Disk α) (disk : Disk) :
    (checkPath path >>= next) disk =
      if path.text.toList.contains '\x00' then (.error .nulInPath, disk) else next () disk := by
  unfold checkPath
  split
  next hnul => rfl
  next hnul => rfl

theorem change_eq_ok {operation : Tree → Location → Except IoCause Tree} {disk after : Disk}
    (h : change operation disk = (.ok (), after)) :
    after.base = disk.base ∧ operation disk.tree disk.base = .ok after.tree := by
  rw [change_apply] at h
  split at h
  next tree hresult =>
    cases h
    exact ⟨rfl, result_eq_ok hresult⟩
  next => cases h

theorem change_eq_error {operation : Tree → Location → Except IoCause Tree} {disk after : Disk}
    {cause : IoCause} (h : change operation disk = (.error cause, after)) :
    after.base = disk.base ∧ after.tree = disk.tree := by
  rw [change_apply] at h
  split at h
  next => cases h
  next =>
    cases h
    exact ⟨rfl, rfl⟩

theorem rename_eq_ok {source target : Path} {disk after : Disk}
    (h : rename source target disk = (.ok (), after)) :
    '\x00' ∉ target.text.toList ∧ after.base = disk.base ∧
      disk.tree.rename disk.base source target = .ok after.tree := by
  rw [rename, checkPath_bind, checkPath_bind] at h
  split at h
  · cases h
  split at h
  · cases h
  next hnul => exact ⟨by simpa using hnul, change_eq_ok h⟩

theorem rename_eq_error {source target : Path} {disk after : Disk} {cause : IoCause}
    (h : rename source target disk = (.error cause, after)) :
    after.base = disk.base ∧ after.tree = disk.tree := by
  rw [rename, checkPath_bind, checkPath_bind] at h
  split at h
  · cases h
    exact ⟨rfl, rfl⟩
  split at h
  · cases h
    exact ⟨rfl, rfl⟩
  exact change_eq_error h

/-- The ways in which a write can end. -/
inductive WriteOutcome (path : Path) (content : List UInt8) (disk : Disk) :
    Except IoCause Unit → Disk → Prop
  /-- The file is not touched. -/
  | untouched (cause : IoCause) (clock : Nat) :
      WriteOutcome path content disk (.error cause) { disk with clock }
  /-- The write is cut short. -/
  | cut {count : Nat} {tree : Tree} (cause : IoCause) (clock : Nat)
      (hwrite : disk.tree.write disk.base path (content.take count) = .ok tree) :
      WriteOutcome path content disk (.error cause) { disk with tree, clock }
  /-- The file holds the content. -/
  | written {tree : Tree} (clock : Nat)
      (hwrite : disk.tree.write disk.base path content = .ok tree) :
      WriteOutcome path content disk (.ok ()) { disk with tree, clock }

theorem write_outcome (path : Path) (content : List UInt8) (disk : Disk) :
    WriteOutcome path content disk (write path content disk).1 (write path content disk).2 := by
  rw [write, checkPath_bind]
  split
  next => exact .untouched _ disk.clock
  rw [Attempt.bind_of_ok (tick_apply disk), Attempt.bind_of_ok (Attempt.get_apply _)]
  rcases disk.faults disk.clock with _ | ⟨cause, _ | landed⟩
  · dsimp only
    cases hwrite : disk.tree.write disk.base path content with
    | error cause => exact .untouched _ _
    | ok tree => exact .written _ hwrite
  · exact .untouched _ _
  · dsimp only
    cases hwrite : disk.tree.write disk.base path (content.take landed) with
    | error cause => exact .untouched _ _
    | ok tree => exact .cut _ _ hwrite

theorem write_eq_ok {path : Path} {content : List UInt8} {disk after : Disk}
    (h : write path content disk = (.ok (), after)) :
    after.base = disk.base ∧ disk.tree.write disk.base path content = .ok after.tree := by
  have houtcome := write_outcome path content disk
  rw [h] at houtcome
  cases houtcome with
  | written _ hwrite => exact ⟨rfl, hwrite⟩

theorem confined_write {path : Path} {content : List UInt8}
    (h : ∀ base before after part, before.write base path part = .ok after →
      step base before after) :
    Confined step (write path content) := by
  intro disk
  have houtcome := write_outcome path content disk
  generalize (write path content disk).1 = result at houtcome
  generalize (write path content disk).2 = after at houtcome ⊢
  cases houtcome with
  | untouched => exact ⟨rfl, .refl⟩
  | cut _ _ hwrite => exact ⟨rfl, .single (h _ _ _ _ hwrite)⟩
  | written _ hwrite => exact ⟨rfl, .single (h _ _ _ _ hwrite)⟩

end Disk

end LauncherOptions
