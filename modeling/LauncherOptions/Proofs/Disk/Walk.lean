import LauncherOptions.Disk.Access
import LauncherOptions.Proofs.Except
import LauncherOptions.Proofs.Path

/-! # Where paths lead

When following names succeeds, it does so by a way through directories and links (`Tree.Leads`). The
way to the last name depends on the names before it alone (`Tree.Leads.exists_arrives`), and it
outlasts every change that keeps directories and links (`Tree.locate_of_keepsWays`).
-/

namespace LauncherOptions

namespace Tree

variable {tree before after : Tree} {through : Bool} {links : Nat} {here folder : Location}
variable {slash : Bool} {names rest : List String} {name : String} {spot : Spot}

/-! ## Ways -/

/-- Names lead from a directory to a spot, by way of at most so many links. -/
inductive Leads (tree : Tree) (through : Bool) :
    Nat → Location → Bool → List String → Spot → Prop
  | stay {links : Nat} {here : Location} {slash : Bool} :
      Leads tree through links here slash [] (.directory here)
  | dot {links : Nat} {here : Location} {slash : Bool} {rest : List String} {spot : Spot}
      (h : Leads tree through links here slash rest spot) :
      Leads tree through links here slash ("." :: rest) spot
  | back {links : Nat} {here : Location} {slash : Bool} {rest : List String} {spot : Spot}
      (h : Leads tree through links here.tail slash rest spot) :
      Leads tree through links here slash (".." :: rest) spot
  | child {links : Nat} {here : Location} {slash : Bool} {name : String}
      (hname : name ≠ "." ∧ name ≠ "..") (hlink : ¬(through ∧ tree.isLink (name :: here))) :
      Leads tree through links here slash [name] (.child here name slash)
  | enter {links : Nat} {here : Location} {slash : Bool} {name : String} {rest : List String}
      {spot : Spot} (hname : name ≠ "." ∧ name ≠ "..") (hrest : rest ≠ [])
      (hsize : name.utf8ByteSize ≤ maxNameSize)
      (hkind : tree.kind? (name :: here) = some .directory)
      (h : Leads tree through links (name :: here) slash rest spot) :
      Leads tree through links here slash (name :: rest) spot
  | link {links : Nat} {here : Location} {slash : Bool} {name : String} {rest : List String}
      {spot : Spot} {target : Path} (hname : name ≠ "." ∧ name ≠ "..")
      (hrest : rest = [] → through = true) (hsize : name.utf8ByteSize ≤ maxNameSize)
      (hkind : tree.kind? (name :: here) = some (.link target))
      (h : Leads tree through links (target.start here)
        (slash || rest.isEmpty && target.endsInSlash) (target.segments ++ rest) spot) :
      Leads tree through (links + 1) here slash (name :: rest) spot

theorem isLink_of_kind? {target : Path} {location : Location}
    (h : tree.kind? location = some (.link target)) : tree.isLink location = true := by
  simp [isLink, h]

theorem exists_of_isLink {location : Location} (h : tree.isLink location = true) :
    ∃ target, tree.kind? location = some (.link target) := by
  unfold isLink at h
  split at h
  next target hkind => exact ⟨target, hkind⟩
  next => cases h

theorem isFile_of_kind? {location : Location} {kind : Kind} (h : tree.kind? location = some kind)
    (hfree : tree.kind? location ≠ some .directory) (hlink : tree.isLink location = false) :
    kind.isFile = true := by
  cases kind with
  | file number => rfl
  | directory => exact absurd h hfree
  | link target =>
      rw [isLink_of_kind? h] at hlink
      cases hlink

/-- One step of following names, whichever links are left. -/
theorem follow_cons (tree : Tree) (through : Bool) (links : Nat) (here : Location) (slash : Bool)
    (name : String) (rest : List String) :
    tree.follow through links here slash (name :: rest) =
      if name = "." then tree.follow through links here slash rest
      else if name = ".." then tree.follow through links here.tail slash rest
      else if rest = [] ∧ ¬(through ∧ tree.isLink (name :: here)) then .ok (.child here name slash)
      else if maxNameSize < name.utf8ByteSize then .error .nameTooLong
      else
        match tree.kind? (name :: here), links with
        | some .directory, _ => tree.follow through links (name :: here) slash rest
        | some (.file _), _ => .error .notDirectory
        | some (.link _), 0 => .error .tooManyLinks
        | some (.link target), links + 1 =>
          tree.follow through links (target.start here)
            (slash || rest.isEmpty && target.endsInSlash) (target.segments ++ rest)
        | none, _ => .error .noEntry := by
  cases links with
  | zero =>
      rw [follow, trace]
      cases tree.kind? (name :: here) with
      | none => rfl
      | some kind => cases kind <;> rfl
  | succ links =>
      rw [follow, trace]
      cases tree.kind? (name :: here) with
      | none => rfl
      | some kind => cases kind <;> rfl

theorem follow_nil (tree : Tree) (through : Bool) (links : Nat) (here : Location) (slash : Bool) :
    tree.follow through links here slash [] = .ok (.directory here) := by
  cases links <;> rfl

theorem follow_dot (tree : Tree) (through : Bool) (links : Nat) (here : Location) (slash : Bool)
    (rest : List String) :
    tree.follow through links here slash ("." :: rest) =
      tree.follow through links here slash rest := by
  rw [follow_cons, if_pos rfl]

theorem follow_back (tree : Tree) (through : Bool) (links : Nat) (here : Location) (slash : Bool)
    (rest : List String) :
    tree.follow through links here slash (".." :: rest) =
      tree.follow through links here.tail slash rest := by
  rw [follow_cons, if_neg (by decide), if_pos rfl]

theorem follow_child (hname : name ≠ "." ∧ name ≠ "..")
    (hlink : ¬(through ∧ tree.isLink (name :: here))) :
    tree.follow through links here slash [name] = .ok (.child here name slash) := by
  rw [follow_cons, if_neg hname.1, if_neg hname.2, if_pos ⟨rfl, hlink⟩]

/-- A name before others has to lead on. -/
theorem follow_cons_of_ne_nil (hname : name ≠ "." ∧ name ≠ "..") (hrest : rest ≠ []) :
    tree.follow through links here slash (name :: rest) =
      if maxNameSize < name.utf8ByteSize then .error .nameTooLong
      else
        match tree.kind? (name :: here), links with
        | some .directory, _ => tree.follow through links (name :: here) slash rest
        | some (.file _), _ => .error .notDirectory
        | some (.link _), 0 => .error .tooManyLinks
        | some (.link target), links + 1 =>
          tree.follow through links (target.start here) slash (target.segments ++ rest)
        | none, _ => .error .noEntry := by
  rw [follow_cons, if_neg hname.1, if_neg hname.2, if_neg (fun h => hrest h.1)]
  simp only [List.isEmpty_eq_false_iff.mpr hrest, Bool.false_and, Bool.or_false]

theorem follow_directory (hname : name ≠ "." ∧ name ≠ "..") (hrest : rest ≠ [])
    (hsize : name.utf8ByteSize ≤ maxNameSize)
    (hkind : tree.kind? (name :: here) = some .directory) :
    tree.follow through links here slash (name :: rest) =
      tree.follow through links (name :: here) slash rest := by
  rw [follow_cons_of_ne_nil hname hrest, if_neg (Nat.not_lt.mpr hsize), hkind]

theorem follow_link {target : Path} (hname : name ≠ "." ∧ name ≠ "..")
    (hrest : rest = [] → through = true) (hsize : name.utf8ByteSize ≤ maxNameSize)
    (hkind : tree.kind? (name :: here) = some (.link target)) :
    tree.follow through (links + 1) here slash (name :: rest) =
      tree.follow through links (target.start here)
        (slash || rest.isEmpty && target.endsInSlash) (target.segments ++ rest) := by
  have hon : ¬(rest = [] ∧ ¬(through ∧ tree.isLink (name :: here))) :=
    fun h => h.2 ⟨hrest h.1, isLink_of_kind? hkind⟩
  rw [follow_cons, if_neg hname.1, if_neg hname.2, if_neg hon, if_neg (Nat.not_lt.mpr hsize), hkind]

theorem Leads.follow_eq (h : Leads tree through links here slash names spot) :
    tree.follow through links here slash names = .ok spot := by
  induction h with
  | stay => exact follow_nil _ _ _ _ _
  | dot _ ih => rw [follow_dot, ih]
  | back _ ih => rw [follow_back, ih]
  | child hname hlink => exact follow_child hname hlink
  | enter hname hrest hsize hkind _ ih => rw [follow_directory hname hrest hsize hkind, ih]
  | link hname hrest hsize hkind _ ih => rw [follow_link hname hrest hsize hkind, ih]

/-- Following names succeeds by a way. -/
theorem leads_of_follow (h : tree.follow through links here slash names = .ok spot) :
    Leads tree through links here slash names spot := by
  induction links using Nat.strongRecOn generalizing here slash names with
  | ind links outer =>
      induction names generalizing here with
      | nil =>
          rw [follow_nil] at h
          cases h
          exact .stay
      | cons name rest ih =>
          rw [follow_cons] at h
          split at h
          next hdot =>
            rw [hdot]
            exact .dot (ih h)
          next hdot =>
            split at h
            next hback =>
              rw [hback]
              exact .back (ih h)
            next hback =>
              split at h
              next hlast =>
                obtain ⟨rfl, hlink⟩ := hlast
                cases h
                exact .child ⟨hdot, hback⟩ hlink
              next hlast =>
                split at h
                · cases h
                next hsize =>
                  have hfits := Nat.le_of_not_lt hsize
                  split at h
                  next hkind =>
                    -- the last name is entered only if it is a link
                    have hrest : rest ≠ [] := by
                      rintro rfl
                      exact hlast ⟨rfl, by simp [isLink, hkind]⟩
                    exact .enter ⟨hdot, hback⟩ hrest hfits hkind (ih h)
                  · cases h
                  · cases h
                  next target links hkind =>
                    have hthrough : rest = [] → through = true := by
                      rintro rfl
                      by_contra hstay
                      exact hlast ⟨rfl, fun h => hstay h.1⟩
                    exact .link ⟨hdot, hback⟩ hthrough hfits hkind
                      (outer links (Nat.lt_succ_self _) h)
                  · cases h

/-! ## The way to the last name -/

/-- Names lead to a directory, from which so many links can still be taken. -/
def Arrives (tree : Tree) (links : Nat) (here : Location) (names : List String) (left : Nat)
    (folder : Location) : Prop :=
  ∀ through slash rest, rest ≠ [] →
    tree.follow through links here slash (names ++ rest) =
      tree.follow through left folder slash rest

/-- Where a path ends that is not followed through a link under its last name: at this name, in the
directory that the names before it lead to. -/
theorem Leads.exists_arrives {folder : Location} {name : String} {ending : Bool}
    (h : Leads tree false links here slash names (.child folder name ending)) :
    (name ≠ "." ∧ name ≠ "..") ∧ ending = slash ∧
      ∃ front left, names = front ++ [name] ∧ Arrives tree links here front left folder := by
  generalize hspot : Spot.child folder name ending = spot at h
  induction h with
  | stay => cases hspot
  | dot _ ih =>
      obtain ⟨hname, hending, front, left, rfl, harrives⟩ := ih hspot
      refine ⟨hname, hending, "." :: front, left, rfl, fun through slash rest hrest => ?_⟩
      rw [List.cons_append, follow_dot]
      exact harrives through slash rest hrest
  | back _ ih =>
      obtain ⟨hname, hending, front, left, rfl, harrives⟩ := ih hspot
      refine ⟨hname, hending, ".." :: front, left, rfl, fun through slash rest hrest => ?_⟩
      rw [List.cons_append, follow_back]
      exact harrives through slash rest hrest
  | child hname _ =>
      cases hspot
      exact ⟨hname, rfl, [], _, rfl, fun _ _ _ _ => rfl⟩
  | enter hstep _ hsize hkind _ ih =>
      obtain ⟨hname, hending, front, left, rfl, harrives⟩ := ih hspot
      refine ⟨hname, hending, _ :: front, left, rfl, fun through slash rest hrest => ?_⟩
      rw [List.cons_append, follow_directory hstep (by simp [hrest]) hsize hkind]
      exact harrives through slash rest hrest
  | @link links here slash step more spot target hstep hmore hsize hkind _ ih =>
      obtain ⟨hname, hending, front, left, hnames, harrives⟩ := ih hspot
      -- the names of the target come before the last name, which is one of the path itself
      obtain ⟨between, last, rfl⟩ : ∃ between last, more = between ++ [last] := by
        rcases List.eq_nil_or_concat more with rfl | ⟨between, last, rfl⟩
        · cases hmore rfl
        · exact ⟨between, last, List.concat_eq_append⟩
      rw [← List.append_assoc] at hnames
      obtain ⟨rfl, hlast⟩ := List.append_inj' hnames rfl
      cases hlast
      rw [List.isEmpty_eq_false_iff.mpr (by simp), Bool.false_and, Bool.or_false] at hending
      refine ⟨hname, hending, step :: between, left, rfl, fun through slash rest hrest => ?_⟩
      rw [List.cons_append, follow_cons_of_ne_nil hstep (by simp [hrest]),
        if_neg (Nat.not_lt.mpr hsize), hkind, ← harrives through slash rest hrest,
        List.append_assoc]

/-- Another name in the place of the last one is looked for in the same directory. -/
theorem Arrives.follow_singleton {left : Nat} (h : Arrives tree links here names left folder)
    (hname : name ≠ "." ∧ name ≠ "..") (slash : Bool) :
    tree.follow false links here slash (names ++ [name]) = .ok (.child folder name slash) := by
  rw [h _ _ _ (by simp), follow_child hname (by simp)]

/-- Segments that stay where they are make no difference before others. -/
theorem follow_filter_append (tree : Tree) (through : Bool) (links : Nat) (here : Location)
    (slash : Bool) (segments : List String) {rest : List String} (hrest : rest ≠ []) :
    tree.follow through links here slash (segments.filter (· ≠ ".") ++ rest) =
      tree.follow through links here slash (segments ++ rest) := by
  induction links using Nat.strongRecOn generalizing here slash segments with
  | ind links outer =>
      induction segments generalizing here with
      | nil => rfl
      | cons name more ih =>
          by_cases hdot : name = "."
          · rw [hdot, List.filter_cons_of_neg (by simp), List.cons_append, follow_dot, ih]
          rw [List.filter_cons_of_pos (by simp [hdot]), List.cons_append, List.cons_append]
          by_cases hback : name = ".."
          · rw [hback, follow_back, follow_back, ih]
          rw [follow_cons_of_ne_nil ⟨hdot, hback⟩ (by simp [hrest]),
            follow_cons_of_ne_nil ⟨hdot, hback⟩ (by simp [hrest]), ih]
          -- behind a link, both lists come to the one without any dots
          have hsame : ∀ fewer, fewer < links → ∀ (target : List String) (here : Location),
              tree.follow through fewer here slash (target ++ (more.filter (· ≠ ".") ++ rest)) =
                tree.follow through fewer here slash (target ++ (more ++ rest)) := by
            intro fewer hfewer target here
            rw [← List.append_assoc, ← List.append_assoc, ← outer fewer hfewer,
              ← outer fewer hfewer _ _ (target ++ more)]
            simp
          cases hkind : tree.kind? (name :: here) with
          | none => rfl
          | some kind =>
              cases kind with
              | directory => rfl
              | file number => rfl
              | link target =>
                  cases links with
                  | zero => rfl
                  | succ links => simp only [hsame links (Nat.lt_succ_self _)]

/-! ## Where ways end -/

/-- A way from a directory ends in a directory. -/
theorem Leads.kind?_folder {ending : Bool}
    (h : Leads tree through links here slash names (.child folder name ending))
    (hhere : tree.kind? here = some .directory) : tree.kind? folder = some .directory := by
  generalize hspot : Spot.child folder name ending = spot at h
  induction h with
  | stay => cases hspot
  | dot _ ih => exact ih hhere hspot
  | @back links here slash rest spot _ ih =>
      refine ih ?_ hspot
      cases here with
      | nil => rfl
      | cons last above => exact kind?_above hhere
  | child =>
      cases hspot
      exact hhere
  | enter _ _ _ hkind _ ih => exact ih hkind hspot
  | @link links here slash name rest spot target _ _ _ _ _ ih =>
      refine ih ?_ hspot
      unfold Path.start
      split
      · rfl
      · exact hhere

/-- At a name that is no link, it does not matter whether links are taken there. -/
theorem Leads.taking {ending : Bool}
    (h : Leads tree false links here slash names (.child folder name ending))
    (hlink : tree.isLink (name :: folder) = false) :
    Leads tree true links here slash names (.child folder name ending) := by
  generalize hspot : Spot.child folder name ending = spot at h ⊢
  induction h with
  | stay => exact .stay
  | dot _ ih => exact .dot (ih hspot)
  | back _ ih => exact .back (ih hspot)
  | child hname _ =>
      cases hspot
      exact .child hname (by simp [hlink])
  | enter hname hrest hsize hkind _ ih => exact .enter hname hrest hsize hkind (ih hspot)
  | link hname _ hsize hkind _ ih => exact .link hname (fun _ => rfl) hsize hkind (ih hspot)

/-- A way that takes all links is the one that leaves the last name alone, unless this one ends at a
link. -/
theorem Leads.leaving (h : Leads tree true links here slash names spot) :
    Leads tree false links here slash names spot ∨
      ∃ folder name ending, Leads tree false links here slash names (.child folder name ending) ∧
        tree.isLink (name :: folder) = true := by
  induction h with
  | stay => exact .inl .stay
  | dot _ ih =>
      rcases ih with ih | ⟨folder, name, ending, ih, hlink⟩
      · exact .inl (.dot ih)
      · exact .inr ⟨folder, name, ending, .dot ih, hlink⟩
  | back _ ih =>
      rcases ih with ih | ⟨folder, name, ending, ih, hlink⟩
      · exact .inl (.back ih)
      · exact .inr ⟨folder, name, ending, .back ih, hlink⟩
  | child hname _ => exact .inl (.child hname (by simp))
  | enter hname hrest hsize hkind _ ih =>
      rcases ih with ih | ⟨folder, name, ending, ih, hlink⟩
      · exact .inl (.enter hname hrest hsize hkind ih)
      · exact .inr ⟨folder, name, ending, .enter hname hrest hsize hkind ih, hlink⟩
  | @link links here slash name rest spot target hname _ hsize hkind _ ih =>
      by_cases hrest : rest = []
      · rw [hrest]
        exact .inr ⟨here, name, slash, .child hname (by simp), isLink_of_kind? hkind⟩
      · have hmore : rest = [] → false = true := fun h => absurd h hrest
        rcases ih with ih | ⟨folder, name, ending, ih, hlink⟩
        · exact .inl (.link hname hmore hsize hkind ih)
        · exact .inr ⟨folder, name, ending, .link hname hmore hsize hkind ih, hlink⟩

/-- What comes of following names down from an empty directory. -/
inductive Barren (here : Location) (slash : Bool) (names : List String) :
    Except IoCause Spot → Prop
  | stay (h : ∀ name ∈ names, name = ".") : Barren here slash names (.ok (.directory here))
  | child {name : String} (hname : name ∈ names) :
      Barren here slash names (.ok (.child here name slash))
  | noEntry : Barren here slash names (.error .noEntry)
  | nameTooLong {name : String} (hname : name ∈ names)
      (hsize : maxNameSize < name.utf8ByteSize) : Barren here slash names (.error .nameTooLong)

theorem follow_barren (hempty : ∀ name, tree.kind? (name :: here) = none) (through : Bool)
    (links : Nat) (slash : Bool) (hnames : ".." ∉ names) :
    Barren here slash names (tree.follow through links here slash names) := by
  have hlink : ∀ name, tree.isLink (name :: here) = false := by
    intro name
    simp [isLink, hempty]
  induction names with
  | nil =>
      rw [follow_nil]
      exact .stay (by simp)
  | cons name rest ih =>
      obtain ⟨hback, hrest⟩ : name ≠ ".." ∧ ".." ∉ rest := by simpa [eq_comm] using hnames
      by_cases hdot : name = "."
      · have hbarren := ih hrest
        rw [hdot, follow_dot]
        generalize tree.follow through links here slash rest = outcome at hbarren ⊢
        cases hbarren with
        | stay h => exact .stay (by simpa using h)
        | child hname => exact .child (List.mem_cons_of_mem _ hname)
        | noEntry => exact .noEntry
        | nameTooLong hname hsize => exact .nameTooLong (List.mem_cons_of_mem _ hname) hsize
      by_cases hlast : rest = []
      · rw [hlast, follow_child ⟨hdot, hback⟩ (by simp [hlink])]
        exact .child List.mem_cons_self
      rw [follow_cons_of_ne_nil ⟨hdot, hback⟩ hlast, hempty]
      split
      next hsize => exact .nameTooLong List.mem_cons_self hsize
      next => exact .noEntry

/-! ## Changes that keep ways -/

/-- No directory is lost, and no link comes or goes. -/
structure KeepsWays (before after : Tree) : Prop where
  directories : ∀ location, before.kind? location = some .directory →
    after.kind? location = some .directory
  links : ∀ location target, after.kind? location = some (.link target) ↔
    before.kind? location = some (.link target)

theorem KeepsWays.isLink_eq (h : KeepsWays before after) (location : Location) :
    after.isLink location = before.isLink location := by
  rw [Bool.eq_iff_iff]
  constructor
  · intro hlink
    obtain ⟨target, htarget⟩ := exists_of_isLink hlink
    exact isLink_of_kind? ((h.links _ _).mp htarget)
  · intro hlink
    obtain ⟨target, htarget⟩ := exists_of_isLink hlink
    exact isLink_of_kind? ((h.links _ _).mpr htarget)

theorem Leads.of_keepsWays (hways : KeepsWays before after)
    (h : Leads before through links here slash names spot) :
    Leads after through links here slash names spot := by
  induction h with
  | stay => exact .stay
  | dot _ ih => exact .dot ih
  | back _ ih => exact .back ih
  | child hname hlink => exact .child hname (by rwa [hways.isLink_eq])
  | enter hname hrest hsize hkind _ ih =>
      exact .enter hname hrest hsize (hways.directories _ hkind) ih
  | link hname hrest hsize hkind _ ih =>
      exact .link hname hrest hsize ((hways.links _ _).mpr hkind) ih

/-! ## Paths -/

variable {base : Location} {path : Path}

theorem locate_eq_ok_iff :
    tree.locate through base path = .ok spot ↔
      path.text.isEmpty = false ∧ path.text.utf8ByteSize < maxPathSize ∧
        tree.kind? (path.start base) = some .directory ∧
        Leads tree through maxLinks (path.start base) path.endsInSlash path.segments spot := by
  constructor
  · intro h
    unfold locate at h
    split at h
    · cases h
    split at h
    · cases h
    split at h
    · cases h
    next hempty hsize horigin =>
      exact ⟨by simpa using hempty, Nat.lt_of_not_le hsize, by simpa using horigin,
        leads_of_follow h⟩
  · rintro ⟨hempty, hsize, horigin, hleads⟩
    rw [locate, hempty, if_neg (by simp), if_neg (Nat.not_le.mpr hsize), if_neg (by simp [horigin])]
    exact hleads.follow_eq

theorem locate_of_keepsWays (hways : KeepsWays before after)
    (h : before.locate through base path = .ok spot) :
    after.locate through base path = .ok spot := by
  rw [locate_eq_ok_iff] at h ⊢
  obtain ⟨hempty, hsize, horigin, hleads⟩ := h
  exact ⟨hempty, hsize, hways.directories _ horigin, hleads.of_keepsWays hways⟩

theorem kind?_folder_of_locate
    (h : tree.locate through base path = .ok (.child folder name slash)) :
    tree.kind? folder = some .directory := by
  obtain ⟨_, _, horigin, hleads⟩ := locate_eq_ok_iff.mp h
  exact hleads.kind?_folder horigin

theorem locate_taking (h : tree.locate false base path = .ok (.child folder name slash))
    (hlink : tree.isLink (name :: folder) = false) :
    tree.locate true base path = .ok (.child folder name slash) := by
  rw [locate_eq_ok_iff] at h ⊢
  obtain ⟨hempty, hsize, horigin, hleads⟩ := h
  exact ⟨hempty, hsize, horigin, hleads.taking hlink⟩

theorem locate_leaving (h : tree.locate true base path = .ok spot) :
    tree.locate false base path = .ok spot ∨
      ∃ folder name slash, tree.locate false base path = .ok (.child folder name slash) ∧
        tree.isLink (name :: folder) = true := by
  obtain ⟨hempty, hsize, horigin, hleads⟩ := locate_eq_ok_iff.mp h
  rcases hleads.leaving with hleads | ⟨folder, name, slash, hleads, hlink⟩
  · exact .inl (locate_eq_ok_iff.mpr ⟨hempty, hsize, horigin, hleads⟩)
  · exact .inr ⟨folder, name, slash, locate_eq_ok_iff.mpr ⟨hempty, hsize, horigin, hleads⟩, hlink⟩

/-- A path that is not followed through a link at its end leads to its last segment. -/
theorem exists_arrives_of_locate
    (h : tree.locate false base path = .ok (.child folder name slash)) :
    (name ≠ "." ∧ name ≠ "..") ∧ slash = path.endsInSlash ∧
      ∃ front left, path.segments = front ++ [name] ∧
        Arrives tree maxLinks (path.start base) front left folder := by
  obtain ⟨_, _, _, hleads⟩ := locate_eq_ok_iff.mp h
  exact hleads.exists_arrives

/-- Paths that differ in their last segment alone lead to the same directory. -/
theorem locate_sibling {other : Path} {front : List String} {last : String}
    (h : tree.locate false base path = .ok (.child folder name slash))
    (hsegments : path.segments = front ++ [name]) (hother : other.segments = front ++ [last])
    (habsolute : other.isAbsolute = path.isAbsolute) (hlast : last ≠ "." ∧ last ≠ "..")
    (hempty : other.text.isEmpty = false) (hsize : other.text.utf8ByteSize < maxPathSize) :
    tree.locate false base other = .ok (.child folder last other.endsInSlash) := by
  obtain ⟨_, _, found, left, hfound, harrives⟩ := exists_arrives_of_locate h
  obtain rfl : front = found := (List.append_inj' (hsegments.symm.trans hfound) rfl).1
  obtain ⟨_, _, horigin, _⟩ := locate_eq_ok_iff.mp h
  have hstart : other.start base = path.start base := by
    rw [Path.start, Path.start, habsolute]
  rw [locate, hempty, if_neg (by simp), if_neg (Nat.not_le.mpr hsize), hstart,
    if_neg (by simp [horigin]), hother]
  exact harrives.follow_singleton hlast _

/-- A path goes on from where another one ends that has its first names. -/
theorem locate_of_above {above : Path} {more : List String}
    (h : tree.locate false base above = .ok (.child folder name slash))
    (habsolute : above.isAbsolute = path.isAbsolute) (hnames : path.names = above.names ++ more)
    (hmore : more ≠ []) (hempty : path.text.isEmpty = false)
    (hsize : path.text.utf8ByteSize < maxPathSize) :
    ∃ left rest, rest ≠ [] ∧ rest ⊆ path.segments ∧ ∀ through,
      tree.locate through base path =
        tree.follow through left folder path.endsInSlash (name :: rest) := by
  obtain ⟨hname, _, front, left, hfront, harrives⟩ := exists_arrives_of_locate h
  obtain ⟨_, _, horigin, _⟩ := locate_eq_ok_iff.mp h
  have hstart : above.start base = path.start base := by
    rw [Path.start, Path.start, habsolute]
  rw [hstart] at harrives horigin
  obtain ⟨first, rest, hsegments, hfirst, hrest⟩ := List.filter_eq_append_iff.mp hnames
  have hlong : rest ≠ [] := by
    rintro rfl
    exact hmore hrest.symm
  refine ⟨left, rest, hlong, by simp [hsegments], fun through => ?_⟩
  rw [locate, hempty, if_neg (by simp), if_neg (Nat.not_le.mpr hsize), if_neg (by simp [horigin]),
    hsegments, ← follow_filter_append _ _ _ _ _ _ hlong, hfirst, Path.names,
    follow_filter_append _ _ _ _ _ _ hlong, hfront, List.append_assoc, List.singleton_append]
  exact harrives _ _ _ (by simp)

end Tree

end LauncherOptions
