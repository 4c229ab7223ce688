import LauncherOptions.Proofs.Disk.Walk

/-! # Files by their paths

A path leads to a place, and the file there has a number. Two paths may lead to the same file,
through links or because the file has two names; `Tree.Distinct` says that they do not. What is read
at a path is the content of the file with its number (`Tree.read_eq_ok_iff`). Where there are no
links, a path leads to the place that it names (`Tree.Linkless.location_eq`).
-/

namespace LauncherOptions

/-- The place where a path ends, if it ends at a name. -/
def Spot.place? : Spot → Option Location
  | .directory _ => none
  | .child folder name _ => some (name :: folder)

/-- Where a name leads that does not lead to a link. -/
def Location.resolve (here : Location) (name : String) : Location :=
  if name = "." then here else if name = ".." then here.tail else name :: here

/-- The place that a path names, whether it leads there or not. -/
def Path.location (path : Path) (base : Location) : Location :=
  path.segments.foldl Location.resolve (path.start base)

namespace Tree

variable {tree before after : Tree} {through : Bool} {base place : Location} {path : Path}

/-- The place that a path leads to, if it ends at a name. -/
def place? (tree : Tree) (through : Bool) (base : Location) (path : Path) : Option Location :=
  (tree.locate through base path).toOption.bind Spot.place?

theorem mem_place?_iff :
    place ∈ tree.place? through base path ↔
      ∃ folder name slash, tree.locate through base path = .ok (.child folder name slash) ∧
        name :: folder = place := by
  rw [place?]
  constructor
  · intro h
    obtain ⟨spot, hspot, hplace⟩ := Option.bind_eq_some_iff.mp h
    cases hlocate : tree.locate through base path with
    | error cause =>
        rw [hlocate] at hspot
        cases hspot
    | ok found =>
        rw [hlocate] at hspot
        cases hspot
        cases spot with
        | directory location => cases hplace
        | child folder name slash => exact ⟨folder, name, slash, rfl, Option.some.inj hplace⟩
  · rintro ⟨folder, name, slash, hlocate, rfl⟩
    rw [hlocate]
    rfl

theorem mem_place?_of_locate {folder : Location} {name : String} {slash : Bool}
    (h : tree.locate through base path = .ok (.child folder name slash)) :
    name :: folder ∈ tree.place? through base path :=
  mem_place?_iff.mpr ⟨folder, name, slash, h, rfl⟩

theorem eq_of_mem_place? {other : Location} (h : place ∈ tree.place? through base path)
    (hother : other ∈ tree.place? through base path) : place = other :=
  Option.some.inj (h.symm.trans hother)

theorem place?_of_keepsWays (hways : KeepsWays before after)
    (h : place ∈ before.place? through base path) : place ∈ after.place? through base path := by
  rw [mem_place?_iff] at h ⊢
  obtain ⟨folder, name, slash, hlocate, hplace⟩ := h
  exact ⟨folder, name, slash, locate_of_keepsWays hways hlocate, hplace⟩

/-- The number of the file that a path leads to. -/
def number? (tree : Tree) (base : Location) (path : Path) : Option Nat :=
  (tree.place? true base path).bind fun place =>
    match tree.kind? place with
    | some (.file number) => some number
    | _ => none

theorem lookup_eq_ok {folder : Location} {name : String} {found : Option Kind}
    (h : tree.lookup folder name = .ok found) :
    name.utf8ByteSize ≤ maxNameSize ∧ tree.kind? (name :: folder) = found := by
  unfold lookup at h
  split at h
  · cases h
  next hsize =>
    cases h
    exact ⟨Nat.le_of_not_lt hsize, rfl⟩

theorem mem_number?_iff {number : Nat} :
    number ∈ tree.number? base path ↔
      ∃ place ∈ tree.place? true base path, tree.kind? place = some (.file number) := by
  constructor
  · intro h
    obtain ⟨place, hplace, hnumber⟩ := Option.bind_eq_some_iff.mp h
    split at hnumber
    next found hkind =>
      cases hnumber
      exact ⟨place, hplace, hkind⟩
    next => cases hnumber
  · rintro ⟨place, hplace, hkind⟩
    refine Option.bind_eq_some_iff.mpr ⟨place, hplace, ?_⟩
    rw [hkind]

theorem contentAt_eq_ok_iff {spot : Spot} {content : List UInt8} :
    tree.contentAt spot = .ok content ↔
      ∃ folder name number, spot = .child folder name false ∧
        name.utf8ByteSize ≤ maxNameSize ∧ tree.kind? (name :: folder) = some (.file number) ∧
        tree.content number = content := by
  constructor
  · intro h
    cases spot with
    | directory location => cases h
    | child folder name slash =>
        obtain ⟨found, hlookup, hfound⟩ := exists_of_bind_eq_ok h
        obtain ⟨hsize, rfl⟩ := lookup_eq_ok hlookup
        split at hfound
        · cases hfound
        · cases hfound
        next number hkind =>
          split at hfound
          · cases hfound
          next hslash =>
            cases hfound
            exact ⟨folder, name, number, by simpa using hslash, hsize, hkind, rfl⟩
        · cases hfound
  · rintro ⟨folder, name, number, rfl, hsize, hkind, rfl⟩
    rw [contentAt, lookup, if_neg (Nat.not_lt.mpr hsize), hkind]
    rfl

theorem contentAt_of_none {folder : Location} {name : String} (slash : Bool)
    (h : tree.kind? (name :: folder) = none) :
    tree.contentAt (.child folder name slash) =
      .error (if maxNameSize < name.utf8ByteSize then .nameTooLong else .noEntry) := by
  rw [contentAt, lookup]
  split
  · rfl
  · rw [h]
    rfl

theorem contentAt_congr {folder : Location} {name : String} (slash : Bool)
    (hkind : after.kind? (name :: folder) = before.kind? (name :: folder))
    (hcontent : ∀ number, before.kind? (name :: folder) = some (.file number) →
      after.content number = before.content number) :
    after.contentAt (.child folder name slash) = before.contentAt (.child folder name slash) := by
  rw [contentAt, contentAt, lookup, lookup, hkind]
  by_cases hsize : maxNameSize < name.utf8ByteSize
  · simp only [hsize, if_true]
    rfl
  · simp only [hsize, if_false]
    cases hfound : before.kind? (name :: folder) with
    | none => rfl
    | some kind =>
        cases kind with
        | directory => rfl
        | file number => simp only [bind, Except.bind, hcontent number hfound]
        | link target => rfl

/-- What is read at a path is the content of a file that the path leads to. -/
theorem read_eq_ok_iff {content : List UInt8} :
    tree.read base path = .ok content ↔
      ∃ folder name number, tree.locate true base path = .ok (.child folder name false) ∧
        name.utf8ByteSize ≤ maxNameSize ∧ tree.kind? (name :: folder) = some (.file number) ∧
        tree.content number = content := by
  constructor
  · intro h
    obtain ⟨spot, hlocate, hcontent⟩ := exists_of_bind_eq_ok h
    obtain ⟨folder, name, number, rfl, hfile⟩ := contentAt_eq_ok_iff.mp hcontent
    exact ⟨folder, name, number, hlocate, hfile⟩
  · rintro ⟨folder, name, number, hlocate, hfile⟩
    rw [read, hlocate]
    exact contentAt_eq_ok_iff.mpr ⟨folder, name, number, rfl, hfile⟩

/-- The paths lead neither to the same place nor to two names of the same file. -/
structure Distinct (tree : Tree) (base : Location) (first second : Path) : Prop where
  places : ∀ place ∈ tree.place? true base first, place ∉ tree.place? true base second
  numbers : ∀ number ∈ tree.number? base first, number ∉ tree.number? base second

instance (tree : Tree) (base : Location) (first second : Path) :
    Decidable (tree.Distinct base first second) :=
  decidable_of_iff
    ((∀ place ∈ tree.place? true base first, place ∉ tree.place? true base second) ∧
      ∀ number ∈ tree.number? base first, number ∉ tree.number? base second)
    ⟨fun h => ⟨h.1, h.2⟩, fun h => ⟨h.places, h.numbers⟩⟩

/-- A path that leads to something is distinct from one that leads to nothing. -/
theorem distinct_of_vacant {first second : Path}
    (hfirst : ∀ place ∈ tree.place? true base first, tree.kind? place ≠ none)
    (hsecond : ∀ place ∈ tree.place? true base second, tree.kind? place = none) :
    tree.Distinct base first second := by
  refine ⟨fun place hplace hother => hfirst place hplace (hsecond place hother), ?_⟩
  intro number _ hother
  obtain ⟨place, hplace, hkind⟩ := mem_number?_iff.mp hother
  rw [hsecond place hplace] at hkind
  cases hkind

/-- The path does not end at a link. -/
def Direct (tree : Tree) (base : Location) (path : Path) : Prop :=
  ∀ place ∈ tree.place? false base path, tree.isLink place = false

instance (tree : Tree) (base : Location) (path : Path) : Decidable (tree.Direct base path) :=
  inferInstanceAs (Decidable (∀ place ∈ tree.place? false base path, _))

theorem locate_of_direct {spot : Spot} (hdirect : tree.Direct base path)
    (h : tree.locate true base path = .ok spot) : tree.locate false base path = .ok spot := by
  rcases locate_leaving h with h | ⟨folder, name, slash, h, hlink⟩
  · exact h
  · rw [hdirect _ (mem_place?_of_locate h)] at hlink
    cases hlink

theorem place?_of_direct (hdirect : tree.Direct base path)
    (h : place ∈ tree.place? true base path) : place ∈ tree.place? false base path := by
  obtain ⟨folder, name, slash, hlocate, rfl⟩ := mem_place?_iff.mp h
  exact mem_place?_of_locate (locate_of_direct hdirect hlocate)

/-! ## Trees without links -/

/-- There are no links, and no file has two names. -/
structure Linkless (tree : Tree) : Prop where
  links : ∀ location, tree.isLink location = false
  numbers : ∀ first second number, tree.kind? first = some (.file number) →
    tree.kind? second = some (.file number) → first = second

theorem Linkless.direct (h : tree.Linkless) (base : Location) (path : Path) :
    tree.Direct base path :=
  fun place _ => h.links place

theorem Linkless.distinct (h : tree.Linkless) {first second : Path}
    (hplaces : ∀ place ∈ tree.place? true base first, place ∉ tree.place? true base second) :
    tree.Distinct base first second := by
  refine ⟨hplaces, fun number hfirst hsecond => ?_⟩
  obtain ⟨place, hplace, hkind⟩ := mem_number?_iff.mp hfirst
  obtain ⟨other, hother, hsame⟩ := mem_number?_iff.mp hsecond
  obtain rfl := h.numbers _ _ _ hkind hsame
  exact hplaces _ hplace hother

theorem Linkless.leads_resolve (h : tree.Linkless) {links : Nat} {here folder : Location}
    {slash ending : Bool} {names : List String} {name : String}
    (hleads : Leads tree through links here slash names (.child folder name ending)) :
    name :: folder = names.foldl Location.resolve here := by
  generalize hspot : Spot.child folder name ending = spot at hleads
  induction hleads with
  | stay => cases hspot
  | dot _ ih => exact ih hspot
  | back _ ih => exact ih hspot
  | child hname _ =>
      cases hspot
      simp [Location.resolve, hname]
  | enter hname _ _ _ _ ih =>
      rw [ih hspot, List.foldl_cons, Location.resolve, if_neg hname.1, if_neg hname.2]
  | link _ _ _ hkind _ _ =>
      have hlink := isLink_of_kind? hkind
      rw [h.links] at hlink
      cases hlink

/-- Without links a path leads to the place that it names. -/
theorem Linkless.location_eq (h : tree.Linkless) (hplace : place ∈ tree.place? through base path) :
    place = path.location base := by
  obtain ⟨folder, name, slash, hlocate, rfl⟩ := mem_place?_iff.mp hplace
  obtain ⟨_, _, _, hleads⟩ := locate_eq_ok_iff.mp hlocate
  exact h.leads_resolve hleads

end Tree

end LauncherOptions
