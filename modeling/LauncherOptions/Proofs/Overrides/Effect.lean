import LauncherOptions.Proofs.Disk.Effect
import LauncherOptions.Proofs.Overrides.Outcome

/-! # What saving the overrides does to the disk

Until the new file is moved into place, saving only makes directories above it and writes or removes
the temporary file, whichever operations fail (`Overrides.Preparation`). A directory is made while
the overrides file cannot be there yet, and the temporary file is a file of its own unless a link or
a second name leads from it to another (`Overrides.Apart`).
-/

namespace LauncherOptions

/-- The path has neither `.` nor `..` segments and does not end with a slash. -/
structure Path.Plain (path : Path) : Prop where
  dotless : path.Dotless
  endsInName : path.endsInSlash = false

namespace Overrides

/-! ## The path of the temporary file -/

section

variable {tree : Tree} {base folder : Location} {path : Path} {name : String} {slash : Bool}

theorem isAbsolute_temporary (path : Path) :
    (temporary path).isAbsolute = path.isAbsolute := by
  by_cases hne : path.text = ""
  · obtain ⟨text⟩ := path
    cases hne
    decide
  · exact Path.isAbsolute_withSuffix hne _

theorem endsInSlash_temporary (path : Path) : (temporary path).endsInSlash = false :=
  path.endsInSlash_withSuffix (show temporarySuffix ≠ "" by decide) (by decide)

theorem append_temporarySuffix_ne (name other : String)
    (h : other.length < name.length + 4) : name ++ temporarySuffix ≠ other := by
  rintro rfl
  rw [String.length_append] at h
  exact Nat.lt_irrefl _ h

theorem isName_temporary (name : String) :
    name ++ temporarySuffix ≠ "." ∧ name ++ temporarySuffix ≠ ".." := by
  constructor <;>
  · apply append_temporarySuffix_ne
    exact Nat.lt_of_lt_of_le (by decide) (Nat.le_add_left 4 _)

theorem segments_temporary (path : Path) :
    ∃ front last, path.segments = front ++ (if last = "" then [] else [last]) ∧
      (temporary path).segments = front ++ [last ++ temporarySuffix] ∧
      (last = "" → path.text ≠ "" → path.endsInSlash = true) :=
  path.segments_withSuffix (show temporarySuffix ≠ "" by decide) (by decide)

theorem descending_temporary (hdescending : path.Descending) : (temporary path).Descending := by
  obtain ⟨front, last, hsegments, htemporary, _⟩ := segments_temporary path
  intro hmem
  rw [htemporary] at hmem
  rcases List.mem_append.mp hmem with hfront | hlast
  · apply hdescending
    rw [hsegments]
    exact List.mem_append_left _ hfront
  · exact (isName_temporary last).2 (List.mem_singleton.mp hlast).symm

/-- The temporary file is to be below the directories that the overrides file is to be below. -/
theorem names_temporary {above : Path} {more : List String} (hmore : more ≠ [])
    (h : path.names = above.names ++ more) :
    ∃ rest, rest ≠ [] ∧ (temporary path).names = above.names ++ rest := by
  obtain ⟨front, last, hsegments, htemporary, _⟩ := segments_temporary path
  have hlast : (temporary path).names =
      front.filter (· ≠ ".") ++ [last ++ temporarySuffix] := by
    rw [Path.names, htemporary, List.filter_append]
    simp [(isName_temporary last).1]
  rw [Path.names, hsegments, List.filter_append] at h
  rcases List.append_eq_append_iff.mp h with ⟨between, habove, htail⟩ | ⟨between, hfront, _⟩
  · -- all names of the path but the last belong to the directory
    obtain rfl : between = [] := by
      have hlength := congrArg List.length htail
      have hshort := List.length_filter_le (fun segment : String => segment ≠ ".")
        (if last = "" then [] else [last])
      have hone : (if last = "" then [] else [last]).length ≤ 1 := by split <;> simp
      have hpos := List.length_pos_iff.mpr hmore
      rw [List.length_append] at hlength
      apply List.length_eq_zero_iff.mp
      omega
    exact ⟨[last ++ temporarySuffix], by simp, by rw [hlast, habove, List.append_nil]⟩
  · exact ⟨between ++ [last ++ temporarySuffix], by simp, by rw [hlast, hfront, List.append_assoc]⟩

/-- The overrides file and the temporary one are in one directory. -/
theorem locate_temporary (h : tree.locate false base path = .ok (.child folder name false))
    (hsize : (temporary path).text.utf8ByteSize < Tree.maxPathSize) :
    tree.locate false base (temporary path) =
      .ok (.child folder (name ++ temporarySuffix) false) := by
  obtain ⟨hempty, _⟩ := Tree.locate_eq_ok_iff.mp h
  obtain ⟨_, hslash, found, left, hfound, _⟩ := Tree.exists_arrives_of_locate h
  obtain ⟨front, last, hsegments, htemporary, hends⟩ := segments_temporary path
  have hlast : last ≠ "" := by
    intro hlast
    have hends := hends hlast (by simpa using hempty)
    rw [← hslash] at hends
    cases hends
  rw [if_neg hlast, hfound] at hsegments
  obtain ⟨rfl, hname⟩ := List.append_inj' hsegments rfl
  cases hname
  rw [Tree.locate_sibling h hfound htemporary (isAbsolute_temporary path) (isName_temporary _) ?_
    hsize, endsInSlash_temporary]
  simp [temporary, Path.withSuffix, temporarySuffix]

theorem locate_of_temporary (hplain : path.Plain) (hne : path.text ≠ "")
    (h : tree.locate false base (temporary path) = .ok (.child folder name slash)) :
    ∃ last, tree.locate false base path = .ok (.child folder last false) := by
  obtain ⟨_, hsize, _⟩ := Tree.locate_eq_ok_iff.mp h
  obtain ⟨_, _, found, left, hfound, _⟩ := Tree.exists_arrives_of_locate h
  obtain ⟨front, last, hsegments, htemporary, hends⟩ := segments_temporary path
  have hlast : last ≠ "" := by
    intro hlast
    have hends := hends hlast hne
    rw [hplain.endsInName] at hends
    cases hends
  rw [if_neg hlast] at hsegments
  obtain ⟨rfl, hname⟩ := List.append_inj' (hfound.symm.trans htemporary) rfl
  cases hname
  have hshort : path.text.utf8ByteSize < Tree.maxPathSize := by
    refine Nat.lt_of_le_of_lt ?_ hsize
    simp [temporary, Path.withSuffix]
  refine ⟨last, ?_⟩
  rw [Tree.locate_sibling h hfound hsegments (isAbsolute_temporary path).symm
    (hplain.dotless last (by simp [hsegments])) (by simpa using hne) hshort, hplain.endsInName]

/-- If the two paths end at the same name in the same directory, this is a link: the path of the
overrides then ends with a slash, and the link leads back to the directory that it is in. -/
theorem isLink_of_mem_place?_temporary {place : Location}
    (hpath : place ∈ tree.place? false base path)
    (htemporary : place ∈ tree.place? false base (temporary path)) : tree.isLink place = true := by
  obtain ⟨folder, name, slash, hlocate, rfl⟩ := Tree.mem_place?_iff.mp hpath
  obtain ⟨other, last, ending, hother, hsame⟩ := Tree.mem_place?_iff.mp htemporary
  obtain ⟨rfl, rfl⟩ := List.cons.inj hsame
  obtain ⟨hname, _, front, left, hfront, harrives⟩ := Tree.exists_arrives_of_locate hlocate
  obtain ⟨_, _, before, _, hbefore, _⟩ := Tree.exists_arrives_of_locate hother
  obtain ⟨_, _, _, hleads⟩ := Tree.locate_eq_ok_iff.mp hother
  obtain ⟨shared, stem, hsegments, hsuffixed, _⟩ := segments_temporary path
  obtain ⟨rfl, hlast⟩ := List.append_inj' (hbefore.symm.trans hsuffixed) rfl
  obtain ⟨hstem, _⟩ := List.cons.inj hlast
  by_cases hempty : stem = ""
  · -- the path ends with a slash, and the temporary file is to be in the directory it leads to
    rw [if_pos hempty, List.append_nil, hfront] at hsegments
    have hfollow := hleads.follow_eq
    have hstart : (temporary path).start base = path.start base := by
      rw [Path.start, Path.start, isAbsolute_temporary]
    rw [hbefore, ← hsegments, hstart, List.append_assoc, harrives _ _ _ (by simp)] at hfollow
    cases Tree.leads_of_follow hfollow with
    | dot => exact absurd rfl hname.1
    | back => exact absurd rfl hname.2
    | link _ _ _ hkind _ => exact Tree.isLink_of_kind? hkind
    | enter _ _ _ _ hinside =>
        cases hinside with
        | dot => exact absurd rfl hname.1
        | back => exact absurd rfl hname.2
        | enter _ hrest => exact absurd rfl hrest
        | link _ hrest => cases hrest rfl
  · rw [if_neg hempty, hfront] at hsegments
    obtain ⟨hsame, _⟩ := List.cons.inj (List.append_inj' hsegments rfl).2
    exact absurd (hstem.symm.trans hsame) (append_temporarySuffix_ne _ _ (by omega))

theorem not_mem_place?_temporary {place : Location} (hdirect : tree.Direct base (temporary path))
    (hpath : place ∈ tree.place? false base path) :
    place ∉ tree.place? false base (temporary path) := by
  intro htemporary
  have hlink := isLink_of_mem_place?_temporary hpath htemporary
  rw [hdirect _ htemporary] at hlink
  cases hlink

end

/-! ## Steps before the move -/

/-- A step that saving takes before the temporary file is moved into place, or after that has
failed. -/
inductive Preparation (path : Path) (base : Location) (before after : Tree) : Prop
  | makeDirectory {parent above : Path} (hparent : path.parent? = some parent)
      (habove : above ∈ parent.ancestors) (hne : above.text ≠ "")
      (hmake : before.makeDirectory base above = .ok after)
  | write {content : List UInt8} (hwrite : before.write base (temporary path) content = .ok after)
  | remove (hremove : before.remove base (temporary path) = .ok after)

/-- Any number of steps before the move. -/
abbrev Preparations (path : Path) (base : Location) : Tree → Tree → Prop :=
  Relation.ReflTransGen (Preparation path base)

section

variable {path : Path} {base : Location} {before after : Tree}

/-- The effect of a step: a directory is made above the two files, which cannot be there before, or
the temporary file is exchanged. -/
theorem Preparation.effect (hdescending : path.Descending)
    (hdirect : before.Direct base (temporary path)) (h : Preparation path base before after) :
    (∃ place, Tree.Made before after place ∧ Tree.Opened before after base path place ∧
        Tree.Opened before after base (temporary path) place) ∨
      ∃ folder name,
        before.locate false base (temporary path) = .ok (.child folder name false) ∧
          Tree.Rewritten before after (name :: folder) := by
  cases h with
  | makeDirectory hparent habove hne hmake =>
      obtain ⟨habsolute, more, hmore, hnames⟩ := Path.ancestors_parent?_names hparent habove hne
      obtain ⟨rest, hrest, htemporary⟩ := names_temporary hmore hnames
      obtain ⟨folder, name, slash, hlocate, hsize, hmade⟩ := Tree.makeDirectory_eq_ok hmake
      exact .inl ⟨name :: folder, hmade,
        hmade.opened hlocate hsize habsolute hnames hmore hdescending,
        hmade.opened hlocate hsize (habsolute.trans (isAbsolute_temporary path).symm) htemporary
          hrest (descending_temporary hdescending)⟩
  | write hwrite =>
      obtain ⟨folder, name, _, hlocate, hrewritten, _⟩ := Tree.write_eq_ok hwrite
      exact .inr ⟨folder, name, Tree.locate_of_direct hdirect hlocate, hrewritten⟩
  | remove hremove =>
      obtain ⟨folder, name, kind, hlocate, hkind, hdirectory, hcontent, hseen⟩ :=
        Tree.remove_eq_ok hremove
      have hlink := hdirect _ (Tree.mem_place?_of_locate hlocate)
      have hafter : after.kind? (name :: folder) = none := by rw [hseen, if_pos rfl]
      have hfree : before.kind? (name :: folder) ≠ some .directory := by
        rw [hkind]
        exact fun heq => hdirectory (Option.some.inj heq)
      have hothers : ∀ other, other ≠ name :: folder → after.kind? other = before.kind? other :=
        fun other hne => by rw [hseen, if_neg hne]
      refine .inr ⟨folder, name, hlocate, ?_, ?_, hothers, ?_, ?_⟩
      · intro found hfound
        exact Tree.isFile_of_kind? hfound hfree hlink
      · simp [hafter]
      · intro number _ _
        rw [hcontent]
      · simp [hafter]

/-! ## Files that are apart -/

/-- The temporary file is a file of its own: its path does not end at a link, and it does not lead
to the file that the path of the overrides leads to. If the overrides are behind a link, then the
way to the link is not through the link itself. -/
structure Apart (tree : Tree) (base : Location) (path : Path) : Prop where
  direct : tree.Direct base (temporary path)
  distinct : tree.Distinct base path (temporary path)
  clear : ∀ folder name slash, tree.locate false base path = .ok (.child folder name slash) →
    tree.isLink (name :: folder) = true →
      (tree.erase folder name).locate false base path = .ok (.child folder name slash)

theorem apart_of_direct {tree : Tree} (hpath : tree.Direct base path)
    (htemporary : tree.Direct base (temporary path))
    (hdistinct : tree.Distinct base path (temporary path)) : Apart tree base path := by
  refine ⟨htemporary, hdistinct, fun folder name slash hlocate hlink => ?_⟩
  rw [hpath _ (Tree.mem_place?_of_locate hlocate)] at hlink
  cases hlink

/-- Paths to two names in one directory are apart if there are no links. -/
theorem apart_of_linkless {tree : Tree} (h : tree.Linkless) (base : Location) (path : Path) :
    Apart tree base path := by
  refine apart_of_direct (h.direct base path) (h.direct base _) (h.distinct ?_)
  intro place hplace hother
  exact not_mem_place?_temporary (h.direct base _)
    (Tree.place?_of_direct (h.direct base path) hplace)
    (Tree.place?_of_direct (h.direct base _) hother)

/-- Nothing is shared in a directory that has just been made. -/
theorem apart_of_made {place : Location} (hmade : Tree.Made before after place)
    (hpath : Tree.Opened before after base path place)
    (htemporary : Tree.Opened before after base (temporary path) place) :
    Apart after base path := by
  have hdirect := hpath.direct hmade
  have hdirectTemporary := htemporary.direct hmade
  refine apart_of_direct hdirect hdirectTemporary ⟨?_, ?_⟩
  · intro found hfound hother
    exact not_mem_place?_temporary hdirectTemporary (Tree.place?_of_direct hdirect hfound)
      (Tree.place?_of_direct hdirectTemporary hother)
  · intro number hnumber _
    obtain ⟨found, hfound, hkind⟩ := Tree.mem_number?_iff.mp hnumber
    rw [hpath.kind?_eq_none hmade hfound] at hkind
    cases hkind

theorem Apart.target {tree : Tree} {folder : Location} {name : String}
    (h : Apart tree base path)
    (hlocate : tree.locate false base (temporary path) = .ok (.child folder name false)) :
    name :: folder ∈ tree.place? true base (temporary path) :=
  Tree.mem_place?_of_locate
    (Tree.locate_taking hlocate (h.direct _ (Tree.mem_place?_of_locate hlocate)))

theorem Apart.rewritten {folder : Location} {name : String} (h : Apart before base path)
    (hlocate : before.locate false base (temporary path) = .ok (.child folder name false))
    (hrewritten : Tree.Rewritten before after (name :: folder)) : Apart after base path := by
  refine ⟨hrewritten.direct h.direct, hrewritten.distinct (h.target hlocate) h.distinct, ?_⟩
  intro pathFolder pathName slash hpath hlink
  have hbefore := Tree.locate_of_keepsWays hrewritten.keepsWays_symm hpath
  rw [hrewritten.keepsWays.isLink_eq] at hlink
  exact Tree.locate_of_keepsWays
    (hrewritten.keepsWays.erase (Tree.kind?_folder_of_locate hbefore) hlink)
    (h.clear pathFolder pathName slash hbefore hlink)

/-- Exchanging the temporary file does not touch the one that the path leads to. -/
theorem Apart.untouched {folder : Location} {name : String} (h : Apart before base path)
    (hlocate : before.locate false base (temporary path) = .ok (.child folder name false)) :
    name :: folder ∉ before.place? true base path ∧
      ∀ number ∈ before.number? base path, before.kind? (name :: folder) ≠ some (.file number) := by
  refine ⟨fun hfound => h.distinct.places _ hfound (h.target hlocate), ?_⟩
  intro number hnumber hkind
  exact h.distinct.numbers _ hnumber (Tree.mem_number?_iff.mpr ⟨_, h.target hlocate, hkind⟩)

/-- Taking away what the path leads to leaves the way to it, as long as this is no directory. -/
theorem Apart.locate_erase {tree : Tree} {folder : Location} {name : String} {slash : Bool}
    (h : Apart tree base path)
    (hlocate : tree.locate false base path = .ok (.child folder name slash))
    (hfree : tree.kind? (name :: folder) ≠ some .directory) :
    (tree.erase folder name).locate false base path = .ok (.child folder name slash) := by
  by_cases hlink : tree.isLink (name :: folder) = true
  · exact h.clear folder name slash hlocate hlink
  have hseen := Tree.kind?_erase (Tree.kind?_folder_of_locate hlocate) hfree
  have hways : Tree.KeepsWays tree (tree.erase folder name) := by
    refine Tree.keepsWays_of_ne (fun kind hkind => ?_) (fun target => ?_)
      fun other (hne : other ≠ name :: folder) => ?_
    · exact Tree.isFile_of_kind? hkind hfree (by simpa using hlink)
    · simp [hseen]
    · rw [hseen, if_neg hne]
  exact Tree.locate_of_keepsWays hways hlocate

/-! ## The move -/

/-- The temporary file with a content stands next to the place of the overrides file. -/
structure Pending (tree : Tree) (base : Location) (path : Path) (content : List UInt8) : Prop where
  apart : Apart tree base path
  file : ∃ folder name number,
    tree.locate false base (temporary path) = .ok (.child folder name false) ∧
      tree.kind? (name :: folder) = some (.file number) ∧ tree.content number = content

theorem Apart.pending {content : List UInt8} (h : Apart before base path)
    (hwrite : before.write base (temporary path) content = .ok after) :
    Pending after base path content := by
  obtain ⟨folder, name, number, hlocate, hrewritten, hkind, hcontent⟩ := Tree.write_eq_ok hwrite
  have hplace := Tree.locate_of_direct h.direct hlocate
  exact ⟨h.rewritten hplace hrewritten, folder, name, number,
    Tree.locate_of_keepsWays hrewritten.keepsWays hplace, hkind, hcontent⟩

/-- The temporary file takes the place of the overrides file in their directory. -/
structure Moved (path : Path) (base : Location) (before after : Tree) (folder : Location)
    (name : String) (number : Nat) : Prop where
  size : name.utf8ByteSize ≤ Tree.maxNameSize
  pathBefore : before.locate false base path = .ok (.child folder name false)
  temporaryBefore : before.locate false base (temporary path) =
    .ok (.child folder (name ++ temporarySuffix) false)
  pathAfter : after.locate false base path = .ok (.child folder name false)
  temporaryAfter : after.locate false base (temporary path) =
    .ok (.child folder (name ++ temporarySuffix) false)
  free : before.kind? (name :: folder) ≠ some .directory
  file : before.kind? ((name ++ temporarySuffix) :: folder) = some (.file number)
  content : after.content = before.content
  seen : ∀ other, after.kind? other =
    if other = name :: folder then some (.file number)
    else if other = (name ++ temporarySuffix) :: folder then none
    else before.kind? other

theorem Pending.moved {content : List UInt8} (h : Pending before base path content)
    (hmove : before.rename base (temporary path) path = .ok after) :
    ∃ folder name number, Moved path base before after folder name number ∧
      before.content number = content := by
  obtain ⟨folder, name, number, hlocate, hkind, hcontent⟩ := h.file
  obtain ⟨source, sourceName, target, targetName, kind, hsource, htarget, hfits, hfound, _, hfree,
    hmoved⟩ := Tree.rename_eq_ok hmove
  obtain ⟨_, hsize, _⟩ := Tree.locate_eq_ok_iff.mp hlocate
  have hsibling := locate_temporary htarget hsize
  rw [hsource] at hsibling hlocate
  cases hsibling
  cases hlocate
  rw [hkind] at hfound
  cases hfound
  rcases hmoved with ⟨hsame, _⟩ | ⟨hkept, hseen⟩
  · -- two names of one file are not apart
    have hnumber : number ∈ before.number? base path := by
      refine Tree.mem_number?_iff.mpr ⟨_, Tree.mem_place?_of_locate (Tree.locate_taking htarget ?_),
        hsame⟩
      simp [Tree.isLink, hsame]
    have hother : number ∈ before.number? base (temporary path) :=
      Tree.mem_number?_iff.mpr ⟨_, h.apart.target hsource, hkind⟩
    exact absurd hother (h.apart.distinct.numbers _ hnumber)
  · have hways : Tree.KeepsWays (before.erase folder targetName) after := by
      have herased := Tree.kind?_erase (Tree.kind?_folder_of_locate htarget) hfree
      refine ⟨fun location hdirectory => ?_, fun location link => ?_⟩
      · rw [herased] at hdirectory
        rw [hseen]
        split at hdirectory
        · cases hdirectory
        next hne =>
          rw [if_neg hne, if_neg ?_, hdirectory]
          rintro rfl
          rw [hkind] at hdirectory
          cases hdirectory
      · rw [herased, hseen]
        split
        · simp
        · split
          next heq => simp [heq, hkind]
          next => rfl
    have hpath := Tree.locate_of_keepsWays hways (h.apart.locate_erase htarget hfree)
    exact ⟨folder, targetName, number, ⟨hfits, htarget, hsource, hpath,
      locate_temporary hpath hsize, hfree, hkind, hkept, hseen⟩, hcontent⟩

section

variable {folder : Location} {name : String} {number : Nat}

theorem cons_temporary_ne (name : String) (folder : Location) :
    (name ++ temporarySuffix) :: folder ≠ name :: folder := by
  intro heq
  exact append_temporarySuffix_ne name name (by omega) (List.cons.inj heq).1

theorem Moved.kind?_path (h : Moved path base before after folder name number) :
    after.kind? (name :: folder) = some (.file number) := by
  rw [h.seen, if_pos rfl]

theorem Moved.kind?_temporary (h : Moved path base before after folder name number) :
    after.kind? ((name ++ temporarySuffix) :: folder) = none := by
  rw [h.seen, if_neg (cons_temporary_ne _ _), if_pos rfl]

theorem Moved.read_eq (h : Moved path base before after folder name number) :
    after.read base path = .ok (before.content number) := by
  refine Tree.read_eq_ok_iff.mpr ⟨folder, name, number, ?_, h.size, h.kind?_path, ?_⟩
  · exact Tree.locate_taking h.pathAfter (by simp [Tree.isLink, h.kind?_path])
  · rw [h.content]

end

end

/-! ## Saving -/

theorem confined_prepareDirectory (path : Path) :
    Disk.Confined (Preparation path) (prepareDirectory path) := by
  unfold prepareDirectory
  split
  next parent hparent =>
    split
    · exact Disk.confined_pure _
    · refine (Disk.confined_makeDirectories ?_).mapError _
      intro above habove hne base before after hmake
      exact .makeDirectory hparent habove hne hmake
  next => exact Disk.confined_pure _

theorem confined_write_temporary (path : Path) (content : List UInt8) :
    Disk.Confined (Preparation path) (Disk.write (temporary path) content) :=
  Disk.confined_write fun _ _ _ _ hwrite => .write hwrite

theorem confined_remove_temporary (path : Path) :
    Disk.Confined (Preparation path) (Disk.remove (temporary path)) :=
  Disk.confined_remove fun _ _ _ hremove => .remove hremove

/-- Saving that fails has taken no step but those before the move. -/
theorem save_eq_error {path : Path} {overrides : OptionMap} {disk after : Disk} {error : Error}
    (h : save path overrides disk = (.error error, after)) :
    after.base = disk.base ∧ Preparations path disk.base disk.tree after.tree := by
  have houtcome := save_outcome path overrides disk
  rw [h] at houtcome
  cases houtcome with
  | unprepared hprepare =>
      have hprepared := confined_prepareDirectory path disk
      rw [hprepare] at hprepared
      exact hprepared
  | @unwritten cause prepared written hprepare hwrite =>
      have hprepared := confined_prepareDirectory path disk
      have hwritten := confined_write_temporary path (bytes overrides) prepared
      rw [hprepare] at hprepared
      rw [hwrite, hprepared.1] at hwritten
      exact ⟨hwritten.1, hprepared.2.trans hwritten.2⟩
  | @unmoved cause prepared written moved removed hprepare hwrite hrename hremove =>
      have hprepared := confined_prepareDirectory path disk
      have hwritten := confined_write_temporary path (bytes overrides) prepared
      have hremoved := confined_remove_temporary path moved
      obtain ⟨hbase, htree⟩ := Disk.rename_eq_error hrename
      rw [hprepare] at hprepared
      rw [hwrite, hprepared.1] at hwritten
      rw [hremove, hbase, htree, hwritten.1] at hremoved
      exact ⟨hremoved.1, (hprepared.2.trans hwritten.2).trans hremoved.2⟩

/-- Saving that succeeds ends with the move of a temporary file that holds the new text. -/
theorem exists_move_of_save {path : Path} {overrides : OptionMap} {disk after : Disk}
    (h : save path overrides disk = (.ok (), after)) :
    '\x00' ∉ path.text.toList ∧ after.base = disk.base ∧
      ∃ prepared written, Preparations path disk.base disk.tree prepared ∧
        prepared.write disk.base (temporary path) (bytes overrides) = .ok written ∧
        written.rename disk.base (temporary path) path = .ok after.tree := by
  have houtcome := save_outcome path overrides disk
  rw [h] at houtcome
  cases houtcome with
  | @moved prepared written moved hprepare hwrite hrename =>
      obtain ⟨hpreparedBase, hprepared⟩ : prepared.base = disk.base ∧
          Preparations path disk.base disk.tree prepared.tree := by
        have hconfined := confined_prepareDirectory path disk
        rw [hprepare] at hconfined
        exact hconfined
      obtain ⟨hwrittenBase, hwritten⟩ := Disk.write_eq_ok hwrite
      obtain ⟨hnul, hmovedBase, hmoved⟩ := Disk.rename_eq_ok hrename
      rw [hpreparedBase] at hwrittenBase hwritten
      rw [hwrittenBase] at hmovedBase hmoved
      exact ⟨hnul, hmovedBase, prepared.tree, written.tree, hprepared, hwritten, hmoved⟩

end Overrides

end LauncherOptions
