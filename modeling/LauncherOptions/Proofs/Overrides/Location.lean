import LauncherOptions.Launcher
import LauncherOptions.Proofs.Path
import Mathlib.Data.List.Basic

/-! # Where the overrides of an application are

The overrides file of an application lies below the directory for the user's settings, in one named
after the application's identifier. The identifier is whatever the application's configuration
says, and separators or dots in it could lead anywhere. What counts is how the path is followed, not
how it is written, so paths are compared by their components: a usable identifier is one component,
a name, and the path to the file is that of the directory and three names
(`overridesPath_contained`).
-/

namespace LauncherOptions

namespace Path

/-- One step of following a path. -/
inductive Component
  | root
  /-- Staying in the working directory, which only the start of a path can say. -/
  | here
  /-- Going back to the directory above. -/
  | above
  /-- Going on to what has this name. -/
  | name (text : String)
  deriving DecidableEq

/-- The component of a part between slashes that is neither empty nor `.`. -/
def Component.ofPart (part : List Char) : Component :=
  if part = ['.', '.'] then .above else .name (String.ofList part)

/-- Where the text of a path says that it starts. -/
def origin (text : List Char) : List Component :=
  if text.head? = some '/' then [.root]
  else if (Text.splitAt '/' text).head? = some ['.'] then [.here]
  else []

/-- The components of a path. Repeated slashes, a slash at the end and `.` parts after the start
make no difference. -/
def components (path : Path) : List Component :=
  origin path.text.toList ++ (namedParts path.text.toList).map Component.ofPart

example : components ⟨"./a//./../b/"⟩ = [.here, .name "a", .above, .name "b"] := by decide

example : components ⟨"/.config"⟩ = [.root, .name ".config"] := by decide

/-! ## One name more -/

theorem namedParts_append_slash (front back : List Char) :
    namedParts (front ++ '/' :: back) = namedParts front ++ namedParts back := by
  rw [namedParts, Text.splitAt_append_separator, List.filter_append]
  rfl

/-- What follows a slash does not change where the text starts. -/
theorem origin_append_slash {front : List Char} (hne : front ≠ []) (back : List Char) :
    origin (front ++ '/' :: back) = origin front := by
  rw [origin, origin, List.head?_append_of_ne_nil _ hne, Text.splitAt_append_separator,
    List.head?_append_of_ne_nil _ (Text.splitAt_ne_nil _ _)]

/-- A text that is one component of a path, and one that leads on: it is not empty, not `.` or `..`,
and holds no slash. -/
structure OneName (name : String) : Prop where
  slash : '/' ∉ name.toList
  ne_empty : name ≠ ""
  ne_here : name ≠ "."
  ne_above : name ≠ ".."

theorem OneName.namedParts_eq {name : String} (h : OneName name) :
    namedParts name.toList = [name.toList] := by
  have hempty : name.toList ≠ [] := by simpa using h.ne_empty
  have hhere : name.toList ≠ ['.'] := fun heq => h.ne_here (String.toList_inj.mp heq)
  rw [namedParts, Text.splitAt_of_not_mem h.slash]
  simp [isIdle, hempty, hhere]

theorem OneName.ofPart_eq {name : String} (h : OneName name) :
    Component.ofPart name.toList = .name name := by
  have habove : name.toList ≠ ['.', '.'] := fun heq => h.ne_above (String.toList_inj.mp heq)
  rw [Component.ofPart, if_neg habove, String.ofList_toList]

theorem OneName.origin_eq {name : String} (h : OneName name) : origin name.toList = [] := by
  have hhere : name.toList ≠ ['.'] := fun heq => h.ne_here (String.toList_inj.mp heq)
  have hslash : name.toList.head? ≠ some '/' := fun heq => h.slash (List.mem_of_head? heq)
  rw [origin, if_neg hslash, Text.splitAt_of_not_mem h.slash]
  simp [hhere]

/-- Where the slash before a name comes from, if there is one. -/
theorem join_cases (path : Path) (name : String) :
    path.text = "" ∧ (path.join name).text = name ∨
      (∃ front, path.text.toList = front ++ ['/'] ∧
        (path.join name).text.toList = front ++ '/' :: name.toList) ∨
      path.text ≠ "" ∧ (path.join name).text.toList = path.text.toList ++ '/' :: name.toList := by
  by_cases hempty : path.text = ""
  · refine .inl ⟨hempty, ?_⟩
    simp [join, hempty]
  by_cases hslash : path.text.toList.getLast? = some '/'
  · obtain ⟨front, hfront⟩ := List.getLast?_eq_some_iff.mp hslash
    refine .inr (.inl ⟨front, hfront, ?_⟩)
    simp [join, endsInSlash, hfront]
  · refine .inr (.inr ⟨hempty, ?_⟩)
    simp [join, endsInSlash, hslash, hempty]

/-- Below a directory, a name is one component more. -/
theorem components_join (path : Path) {name : String} (h : OneName name) :
    (path.join name).components = path.components ++ [.name name] := by
  have hname : (namedParts name.toList).map Component.ofPart = [.name name] := by
    rw [h.namedParts_eq, List.map_singleton, h.ofPart_eq]
  rcases path.join_cases name with ⟨hempty, hjoin⟩ | ⟨front, hfront, hjoin⟩ | ⟨hne, hjoin⟩
  · rw [components, components, hjoin, hempty, h.origin_eq, hname]
    rfl
  · have horigin : origin (front ++ '/' :: name.toList) = origin (front ++ ['/']) := by
      cases front with
      | nil => rfl
      | cons c rest =>
          have hne : c :: rest ≠ [] := List.cons_ne_nil c rest
          rw [origin_append_slash hne, origin_append_slash hne]
    rw [components, components, hjoin, hfront, horigin, namedParts_append_slash,
      namedParts_append_slash, List.map_append, List.map_append, hname, List.append_assoc,
      List.append_assoc]
    rfl
  · have hfront : path.text.toList ≠ [] := by simpa using hne
    rw [components, components, hjoin, origin_append_slash hfront, namedParts_append_slash,
      List.map_append, hname, List.append_assoc]

end Path

namespace Launcher

open LauncherOptions.Path

/-- The application's configuration states an identifier that, without the blanks around it, can
name a directory, and would do so as well if backslashes were separators. -/
structure UsableIdentifier (app : ConfigFile) (identifier : String) : Prop
    extends OneName identifier where
  stated : ∃ text, app.get? "Application" "app.identifier" = some text ∧
    identifier.toList = Text.trim text.toList
  backslash : '\\' ∉ identifier.toList

theorem isUsableIdentifier_iff {identifier : String} :
    isUsableIdentifier identifier.toList = true ↔
      OneName identifier ∧ '\\' ∉ identifier.toList := by
  have hhere : identifier.toList = ['.'] ↔ identifier = "." := @String.toList_inj identifier "."
  have habove : identifier.toList = ['.', '.'] ↔ identifier = ".." :=
    @String.toList_inj identifier ".."
  have hseparators : (∀ c ∈ identifier.toList, ¬c = '/' ∧ ¬c = '\\') ↔
      '/' ∉ identifier.toList ∧ '\\' ∉ identifier.toList := by
    constructor
    · intro h
      exact ⟨fun hmem => (h _ hmem).1 rfl, fun hmem => (h _ hmem).2 rfl⟩
    · rintro ⟨hslash, hbackslash⟩ c hc
      exact ⟨fun heq => hslash (heq ▸ hc), fun heq => hbackslash (heq ▸ hc)⟩
  simp only [isUsableIdentifier, ne_eq, Bool.and_eq_true, decide_eq_true_eq, hhere, habove,
    String.toList_eq_nil_iff, Bool.not_eq_true', List.any_eq_false, Bool.or_eq_true, beq_iff_eq,
    not_or, and_assoc, hseparators]
  constructor
  · rintro ⟨hempty, hhere, habove, hslash, hbackslash⟩
    exact ⟨⟨hslash, hempty, hhere, habove⟩, hbackslash⟩
  · rintro ⟨⟨hslash, hempty, hhere, habove⟩, hbackslash⟩
    exact ⟨hempty, hhere, habove, hslash, hbackslash⟩

theorem usableIdentifier_iff {app : ConfigFile} {stated identifier : String}
    (h : app.get? ConfigFile.applicationSection ConfigFile.identifierKey = some stated) :
    UsableIdentifier app identifier ↔
      identifier = String.ofList (Text.trim stated.toList) ∧
        isUsableIdentifier (Text.trim stated.toList) = true := by
  constructor
  · rintro ⟨hname, ⟨text, htext, htrim⟩, hbackslash⟩
    obtain rfl : stated = text := Option.some.inj (h.symm.trans htext)
    rw [← htrim, String.ofList_toList]
    exact ⟨rfl, isUsableIdentifier_iff.mpr ⟨hname, hbackslash⟩⟩
  · rintro ⟨rfl, husable⟩
    rw [← @String.toList_ofList (Text.trim stated.toList), isUsableIdentifier_iff] at husable
    exact ⟨husable.1, ⟨stated, h, String.toList_ofList⟩, husable.2⟩

/-- An application with a usable identifier has an overrides file, and no other application has. -/
theorem defaultOverridesPath?_eq_some_iff {app : ConfigFile} {host : Host} {directory : Path}
    (h : host.environment.configDirectory? = some directory) {path : Path} :
    (defaultOverridesPath? app host).1 = some path ↔
      ∃ identifier, UsableIdentifier app identifier ∧
        path = overridesPath directory identifier := by
  unfold defaultOverridesPath?
  cases hstated : app.get? ConfigFile.applicationSection ConfigFile.identifierKey with
  | none =>
      constructor
      · intro hnone
        cases hnone
      · rintro ⟨identifier, husable, _⟩
        obtain ⟨text, htext, _⟩ := husable.stated
        cases hstated.symm.trans htext
  | some stated =>
      simp only [usableIdentifier_iff hstated]
      split
      next husable =>
        change host.environment.configDirectory?.map _ = _ ↔ _
        rw [h]
        constructor
        · intro hpath
          exact ⟨_, ⟨rfl, husable⟩, (Option.some.inj hpath).symm⟩
        · rintro ⟨identifier, ⟨rfl, _⟩, rfl⟩
          rfl
      next husable =>
        constructor
        · intro hnone
          cases hnone
        · rintro ⟨_, ⟨_, hyes⟩, _⟩
          exact absurd hyes husable

theorem components_overridesPath (directory : Path) {identifier : String} (h : OneName identifier) :
    (overridesPath directory identifier).components =
      directory.components ++ [.name identifier, .name "packager", .name "jvmuserargs.cfg"] := by
  have hpackager : OneName "packager" := ⟨by decide, by decide, by decide, by decide⟩
  have hfile : OneName Overrides.fileName := ⟨by decide, by decide, by decide, by decide⟩
  rw [overridesPath, components_join _ hfile, components_join _ hpackager, components_join _ h,
    List.append_assoc, List.append_assoc]
  rfl

/-- The overrides file of an application is found exactly if the application has a usable
identifier. Its path leads from the directory for settings, whichever that is, over three names, of
which the first is the identifier. So it stays below the directory, and applications with different
identifiers have different files. -/
theorem overridesPath_contained (app : ConfigFile) (directory : Path) :
    (∀ host : Host, host.environment.configDirectory? = some directory →
        ∀ path, (defaultOverridesPath? app host).1 = some path ↔
          ∃ identifier, UsableIdentifier app identifier ∧
            path = overridesPath directory identifier) ∧
      (∀ identifier, UsableIdentifier app identifier →
        (overridesPath directory identifier).components = directory.components ++
          [.name identifier, .name "packager", .name "jvmuserargs.cfg"]) ∧
      ∀ other identifier otherIdentifier, UsableIdentifier app identifier →
        UsableIdentifier other otherIdentifier → identifier ≠ otherIdentifier →
        (overridesPath directory identifier).components ≠
          (overridesPath directory otherIdentifier).components := by
  refine ⟨fun host h path => defaultOverridesPath?_eq_some_iff h,
    fun identifier h => components_overridesPath directory h.toOneName, ?_⟩
  intro other identifier otherIdentifier h hother hne heq
  rw [components_overridesPath directory h.toOneName,
    components_overridesPath directory hother.toOneName, List.append_cancel_left_eq] at heq
  injection heq with hname
  exact hne (Component.name.inj hname)

/-- Two identifiers of dots, one more than would lead out of the directory and with blanks around
it, below a directory that is written with a `.` part and a slash at its end. -/
theorem overridesPath_contained_dots :
    let app :=
      ConfigFile.empty.setSection "Application" (.ofList [("app.identifier", "\u3000...\t")])
    let other := ConfigFile.empty.setSection "Application" (.ofList [("app.identifier", "....")])
    let host : Host :=
      { disk := { tree := .empty, base := [] }
        environment := { configDirectory? := some ⟨"/home/./u/"⟩ } }
    let path : Path := ⟨"/home/./u/.../packager/jvmuserargs.cfg"⟩
    let otherPath : Path := ⟨"/home/./u/..../packager/jvmuserargs.cfg"⟩
    (defaultOverridesPath? app host).1 = some path ∧
      (defaultOverridesPath? other host).1 = some otherPath ∧
      path.components =
        [.root, .name "home", .name "u", .name "...", .name "packager", .name "jvmuserargs.cfg"] ∧
      path.components ≠ otherPath.components := by
  intro app other host path otherPath
  have husable : UsableIdentifier app "..." :=
    ⟨⟨by decide, by decide, by decide, by decide⟩, ⟨"\u3000...\t", by decide, by decide⟩, by decide⟩
  have hother : UsableIdentifier other "...." :=
    ⟨⟨by decide, by decide, by decide, by decide⟩, ⟨"....", by decide, by decide⟩, by decide⟩
  obtain ⟨hfound, hcomponents, hdifferent⟩ := overridesPath_contained app ⟨"/home/./u/"⟩
  obtain ⟨hotherFound, _, _⟩ := overridesPath_contained other ⟨"/home/./u/"⟩
  have hpath : path = overridesPath ⟨"/home/./u/"⟩ "..." := by decide
  have hotherPath : otherPath = overridesPath ⟨"/home/./u/"⟩ "...." := by decide
  refine ⟨(hfound host (by decide) path).mpr ⟨"...", husable, hpath⟩,
    (hotherFound host (by decide) otherPath).mpr ⟨"....", hother, hotherPath⟩, ?_, ?_⟩
  · rw [hpath, hcomponents _ husable]
    decide
  · rw [hpath, hotherPath]
    exact hdifferent other _ _ husable hother (by decide)

end Launcher

end LauncherOptions
