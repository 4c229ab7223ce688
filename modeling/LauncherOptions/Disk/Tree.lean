import LauncherOptions.Disk.Node

/-! # Directory trees

What a disk holds: the folder of the root, through it all others, and the content of the files. A
location is the list of names on the way to a place, the last one first, so that the folder above is
the tail of the list. Main statement: a change of what one name leads to is seen at that name and
nowhere else (`kind?_change`).
-/

namespace LauncherOptions

/-- A place in a directory tree: the names that lead to it from the root, the last one first. -/
abbrev Location := List String

structure Tree where
  root : Folder
  /-- What the file with a number holds. -/
  content : Nat → List UInt8 := fun _ => []

namespace Tree

def empty : Tree := { root := [] }

def folder? (tree : Tree) : Location → Option Folder
  | [] => some tree.root
  | name :: above =>
    match (tree.folder? above).bind (Folder.get? · name) with
    | some (.directory inner) => some inner
    | _ => none

def node? (tree : Tree) : Location → Option Node
  | [] => some (.directory tree.root)
  | name :: above => (tree.folder? above).bind (Folder.get? · name)

/-- Whether there is a directory, a file or a link at a location, and which. -/
def kind? (tree : Tree) (location : Location) : Option Kind :=
  (tree.node? location).map Node.kind

/-- The folder of a root with the folder at a location changed. -/
def changeBelow (change : Folder → Folder) : Location → Folder → Folder
  | [], root => change root
  | name :: above, root => changeBelow (Folder.inside name change) above root

def change (tree : Tree) (location : Location) (change : Folder → Folder) : Tree :=
  { tree with root := changeBelow change location tree.root }

def put (tree : Tree) (folder : Location) (name : String) (node : Node) : Tree :=
  tree.change folder fun entries => entries.put name node

def erase (tree : Tree) (folder : Location) (name : String) : Tree :=
  tree.change folder fun entries => entries.erase name

/-- Gives the file with a number new content, which is seen under all its names. -/
def store (tree : Tree) (number : Nat) (content : List UInt8) : Tree :=
  { tree with content := fun other => if other = number then content else tree.content other }

/-- A number that no file has. -/
def fresh (tree : Tree) : Nat :=
  Folder.bound tree.root

/-- Makes a file under a name in a folder. -/
def create (tree : Tree) (folder : Location) (name : String) (content : List UInt8) : Tree :=
  (tree.put folder name (.file tree.fresh)).store tree.fresh content

/-- All that is below a location, with the paths that lead there. -/
def listing (tree : Tree) (location : Location) : List (String × Option (List UInt8)) :=
  ((tree.folder? location).map (Folder.listing tree.content "")).getD []

/-! ## What a change does -/

theorem folder?_change_self (tree : Tree) (location : Location) (change : Folder → Folder) :
    (tree.change location change).folder? location = (tree.folder? location).map change := by
  induction location generalizing change with
  | nil => rfl
  | cons name above ih =>
      have hchange : tree.change (name :: above) change =
          tree.change above (Folder.inside name change) := rfl
      rw [hchange, folder?, folder?, ih]
      cases tree.folder? above with
      | none => rfl
      | some entries =>
          simp only [Option.map_some, Option.bind_some, Folder.get?_inside, if_true]
          cases entries.get? name with
          | none => rfl
          | some node => cases node <;> rfl

theorem folder?_append_congr {before after : Tree} {location : Location}
    (h : after.folder? location = before.folder? location) (below : Location) :
    after.folder? (below ++ location) = before.folder? (below ++ location) := by
  induction below with
  | nil => exact h
  | cons name rest ih => simp only [List.cons_append, folder?, ih]

theorem folder?_cons_congr {before after : Tree} {name : String} {above : Location}
    (h : after.node? (name :: above) = before.node? (name :: above)) :
    after.folder? (name :: above) = before.folder? (name :: above) := by
  simp only [node?] at h
  simp only [folder?, h]

theorem kind?_change_inside (tree : Tree) (folder : Location) (step name : String)
    (change : Folder → Folder) :
    (tree.change folder (Folder.inside step change)).kind? (name :: folder) =
      tree.kind? (name :: folder) := by
  simp only [kind?, node?, folder?_change_self]
  cases tree.folder? folder with
  | none => rfl
  | some entries =>
      simp only [Option.map_some, Option.bind_some, Folder.get?_inside]
      split
      · cases entries.get? name <;> simp
      · rfl

theorem node?_change_inside_of_ne (tree : Tree) (folder : Location) {step name : String}
    (change : Folder → Folder) (h : name ≠ step) :
    (tree.change folder (Folder.inside step change)).node? (name :: folder) =
      tree.node? (name :: folder) := by
  simp only [node?, folder?_change_self]
  cases tree.folder? folder with
  | none => rfl
  | some entries => simp [Folder.get?_inside, h]

/-- What is neither in a folder nor below it is left alone by a change of the folder. -/
theorem kind?_change_of_not_suffix (tree : Tree) (change : Folder → Folder)
    {location above : Location} (name : String) (h : ¬location <:+ above) :
    (tree.change location change).kind? (name :: above) = tree.kind? (name :: above) := by
  induction location generalizing change with
  | nil => exact absurd List.nil_suffix h
  | cons step rest ih =>
      have hchange : tree.change (step :: rest) change =
          tree.change rest (Folder.inside step change) := rfl
      rw [hchange]
      by_cases hrest : rest <:+ above
      · obtain ⟨below, rfl⟩ := hrest
        rcases List.eq_nil_or_concat below with rfl | ⟨front, last, rfl⟩
        · exact tree.kind?_change_inside rest step name change
        · have hlast : last ≠ step := by
            rintro rfl
            exact h ⟨front, by simp⟩
          have hnode := tree.node?_change_inside_of_ne rest change hlast
          have hfolder := folder?_append_congr (folder?_cons_congr hnode) front
          simp only [List.concat_eq_append, List.append_assoc, List.singleton_append, kind?,
            node?]
          rw [hfolder]
      · exact ih _ hrest

/-! ## What is at a location -/

@[simp] theorem kind?_nil (tree : Tree) : tree.kind? [] = some .directory := rfl

theorem kind?_eq_directory_iff {tree : Tree} {location : Location} :
    tree.kind? location = some .directory ↔ ∃ entries, tree.folder? location = some entries := by
  cases location with
  | nil => simp [folder?]
  | cons name above =>
      simp only [kind?, node?, folder?]
      cases (tree.folder? above).bind (Folder.get? · name) with
      | none => simp
      | some node => cases node <;> simp [Node.kind]

/-- Whatever there is stands in a directory. -/
theorem kind?_above {tree : Tree} {name : String} {above : Location} {kind : Kind}
    (h : tree.kind? (name :: above) = some kind) : tree.kind? above = some .directory := by
  rw [kind?_eq_directory_iff]
  cases hfolder : tree.folder? above with
  | none => simp [kind?, node?, hfolder] at h
  | some entries => exact ⟨entries, rfl⟩

/-- There is nothing below a location without a folder, or with an empty one. -/
theorem kind?_below_eq_none {tree : Tree} {location : Location}
    (h : ∀ entries, tree.folder? location = some entries → entries = []) (below : Location)
    (name : String) : tree.kind? (name :: (below ++ location)) = none := by
  induction below generalizing name with
  | nil =>
      simp only [List.nil_append, kind?, node?]
      cases hfolder : tree.folder? location with
      | none => rfl
      | some entries =>
          rw [h entries hfolder]
          rfl
  | cons step rest ih =>
      cases hkind : tree.kind? (name :: (step :: rest ++ location)) with
      | none => rfl
      | some kind =>
          have hstep := kind?_above hkind
          rw [List.cons_append, ih step] at hstep
          cases hstep

theorem folder?_cons_eq_nil {tree : Tree} {folder : Location} {name : String} {entries : Folder}
    (hfolder : tree.folder? folder = some entries)
    (h : ∀ inner, entries.get? name = some (.directory inner) → inner = []) (inner : Folder)
    (hinner : tree.folder? (name :: folder) = some inner) : inner = [] := by
  simp only [folder?, hfolder, Option.bind_some] at hinner
  split at hinner
  next entry hentry =>
    cases hinner
    exact h _ hentry
  next => cases hinner

/-- A change of a folder that touches only what one name leads to, neither of which holds anything,
is seen at that name and nowhere else. -/
theorem kind?_change {tree : Tree} {folder : Location} {name : String} {entries : Folder}
    (change : Folder → Folder) (hfolder : tree.folder? folder = some entries)
    (hothers : ∀ other, other ≠ name → (change entries).get? other = entries.get? other)
    (hbefore : tree.kind? (name :: folder) ≠ some .directory)
    (hafter : ∀ inner, (change entries).get? name = some (.directory inner) → inner = [])
    (location : Location) :
    (tree.change folder change).kind? location =
      if location = name :: folder then ((change entries).get? name).map Node.kind
      else tree.kind? location := by
  have hchanged : (tree.change folder change).folder? folder = some (change entries) := by
    rw [folder?_change_self, hfolder]
    rfl
  cases location with
  | nil => rfl
  | cons last above =>
      by_cases hsuffix : folder <:+ above
      · obtain ⟨below, rfl⟩ := hsuffix
        rcases List.eq_nil_or_concat below with rfl | ⟨front, step, rfl⟩
        · simp only [List.nil_append, kind?, node?, hchanged, hfolder, Option.bind_some,
            List.cons.injEq, and_true]
          split
          next hlast => rw [hlast]
          next hlast => rw [hothers last hlast]
        · have hlocation : last :: (front.concat step ++ folder) =
              last :: (front ++ step :: folder) := by simp
          have hne : ¬last :: (front ++ step :: folder) = name :: folder := by
            intro heq
            have hlength := congrArg List.length heq
            simp only [List.length_cons, List.length_append] at hlength
            omega
          rw [hlocation, if_neg hne]
          by_cases hstep : step = name
          · subst step
            -- below the name itself there is nothing, before the change and after it
            rw [kind?_below_eq_none (folder?_cons_eq_nil hchanged hafter),
              kind?_below_eq_none fun entries h =>
                absurd (kind?_eq_directory_iff.mpr ⟨entries, h⟩) hbefore]
          · have hnode : (tree.change folder change).node? (step :: folder) =
                tree.node? (step :: folder) := by
              simp only [node?, hchanged, hfolder, Option.bind_some, hothers step hstep]
            simp only [kind?, node?, folder?_append_congr (folder?_cons_congr hnode) front]
      · have hne : ¬last :: above = name :: folder := by
          rintro ⟨⟩
          exact hsuffix (List.suffix_refl _)
        rw [if_neg hne]
        exact tree.kind?_change_of_not_suffix change last hsuffix

/-- Putting something that holds nothing where there is no directory. -/
theorem kind?_put {tree : Tree} {folder : Location} {name : String} (kind : Kind)
    (hfolder : tree.kind? folder = some .directory)
    (hbefore : tree.kind? (name :: folder) ≠ some .directory) (location : Location) :
    (tree.put folder name kind.node).kind? location =
      if location = name :: folder then some kind else tree.kind? location := by
  obtain ⟨entries, hentries⟩ := kind?_eq_directory_iff.mp hfolder
  have hself : (entries.put name kind.node).get? name = some kind.node := by
    rw [Folder.get?_put, if_pos rfl]
  have hothers : ∀ other, other ≠ name →
      (entries.put name kind.node).get? other = entries.get? other := by
    intro other hne
    rw [Folder.get?_put, if_neg hne]
  rw [put, kind?_change (Folder.put · name kind.node) hentries hothers hbefore, hself,
    Option.map_some, Kind.kind_node]
  intro inner hinner
  rw [hself] at hinner
  cases kind <;> cases hinner
  rfl

theorem kind?_erase {tree : Tree} {folder : Location} {name : String}
    (hfolder : tree.kind? folder = some .directory)
    (hbefore : tree.kind? (name :: folder) ≠ some .directory) (location : Location) :
    (tree.erase folder name).kind? location =
      if location = name :: folder then none else tree.kind? location := by
  obtain ⟨entries, hentries⟩ := kind?_eq_directory_iff.mp hfolder
  have hself : (entries.erase name).get? name = none := by
    rw [Folder.get?_erase, if_pos rfl]
  have hothers : ∀ other, other ≠ name → (entries.erase name).get? other = entries.get? other := by
    intro other hne
    rw [Folder.get?_erase, if_neg hne]
  rw [erase, kind?_change (Folder.erase · name) hentries hothers hbefore, hself]
  · rfl
  · intro inner hinner
    rw [hself] at hinner
    cases hinner

/-! ## Files by their numbers -/

theorem folder?_congr {before after : Tree} (h : after.root = before.root) (location : Location) :
    after.folder? location = before.folder? location := by
  induction location with
  | nil => exact congrArg some h
  | cons name above ih => simp only [folder?, ih]

theorem kind?_congr {before after : Tree} (h : after.root = before.root) (location : Location) :
    after.kind? location = before.kind? location := by
  cases location with
  | nil => rfl
  | cons name above => simp only [kind?, node?, folder?_congr h]

theorem bound_le_fresh {tree : Tree} {location : Location} {entries : Folder}
    (h : tree.folder? location = some entries) : Folder.bound entries ≤ tree.fresh := by
  induction location generalizing entries with
  | nil =>
      cases h
      exact Nat.le_refl _
  | cons name above ih =>
      rw [folder?] at h
      split at h
      next inner hnode =>
        cases h
        obtain ⟨outer, houter, hget⟩ := Option.bind_eq_some_iff.mp hnode
        exact Nat.le_trans (Folder.bound_le_of_get? hget) (ih houter)
      next => cases h

@[simp] theorem kind?_store (tree : Tree) (number : Nat) (content : List UInt8)
    (location : Location) : (tree.store number content).kind? location = tree.kind? location :=
  kind?_congr (show (tree.store number content).root = tree.root from rfl) location

theorem kind?_create {tree : Tree} {folder : Location} {name : String} (content : List UInt8)
    (hfolder : tree.kind? folder = some .directory)
    (hbefore : tree.kind? (name :: folder) ≠ some .directory) (location : Location) :
    (tree.create folder name content).kind? location =
      if location = name :: folder then some (.file tree.fresh) else tree.kind? location := by
  rw [create, kind?_store]
  exact kind?_put (.file tree.fresh) hfolder hbefore location

/-- No file has the number that is given to the next one. -/
theorem lt_fresh_of_kind? {tree : Tree} {location : Location} {number : Nat}
    (h : tree.kind? location = some (.file number)) : number < tree.fresh := by
  cases location with
  | nil => cases h
  | cons name above =>
      obtain ⟨node, hnode, hkind⟩ := Option.map_eq_some_iff.mp h
      obtain ⟨entries, hentries, hget⟩ := Option.bind_eq_some_iff.mp hnode
      cases node with
      | file found =>
          cases hkind
          exact Nat.le_trans (Folder.bound_le_of_get? hget) (bound_le_fresh hentries)
      | directory inner => cases hkind
      | link target => cases hkind

end Tree

end LauncherOptions
