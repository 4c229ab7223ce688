import LauncherOptions.Path
import Mathlib.Data.List.TakeWhile

/-! # Segments of paths

The parent of a path has all its names but the last one, `.` segments aside, and starts at the root
if the path does (`Path.parent?_eq_some`). The paths above a path therefore have the first names of
it (`Path.ancestors_parent?_names`), and a suffix without a slash goes to the last segment
(`Path.segments_withSuffix`).
-/

namespace LauncherOptions

namespace Text

variable {separator : Char}

/-- The parts on either side of a separator are split for themselves. -/
theorem splitAt_append_separator (separator : Char) (front back : List Char) :
    splitAt separator (front ++ separator :: back) =
      splitAt separator front ++ splitAt separator back := by
  induction front with
  | nil => simp [splitAt]
  | cons c front ih =>
      rw [List.cons_append, splitAt, splitAt, ih]
      split
      next => rw [List.cons_append]
      next =>
        cases h : splitAt separator front with
        | nil => exact absurd h (splitAt_ne_nil separator front)
        | cons part more => rfl

theorem splitAt_of_not_mem {text : List Char} (h : separator ∉ text) :
    splitAt separator text = [text] := by
  induction text with
  | nil => rfl
  | cons c rest ih =>
      obtain ⟨hc, hrest⟩ : separator ≠ c ∧ separator ∉ rest := by simpa using h
      rw [splitAt, if_neg (Ne.symm hc), ih hrest]

theorem splitAt_append_cons {part : List Char} (h : separator ∉ part) (rest : List Char) :
    splitAt separator (part ++ separator :: rest) = part :: splitAt separator rest := by
  rw [splitAt_append_separator, splitAt_of_not_mem h, List.singleton_append]

theorem not_mem_of_mem_splitAt {text part : List Char} (h : part ∈ splitAt separator text) :
    separator ∉ part := by
  induction text generalizing part with
  | nil =>
      rw [List.mem_singleton.mp h]
      exact List.not_mem_nil
  | cons c rest ih =>
      rw [splitAt] at h
      split at h
      next =>
        rcases List.mem_cons.mp h with rfl | hrest
        · exact List.not_mem_nil
        · exact ih hrest
      next hc =>
        cases hsplit : splitAt separator rest with
        | nil => exact absurd hsplit (splitAt_ne_nil separator rest)
        | cons first more =>
            rw [hsplit] at h
            rcases List.mem_cons.mp h with rfl | hmore
            · have hfirst : separator ∉ first := ih (by simp [hsplit])
              simp [Ne.symm hc, hfirst]
            · exact ih (by simp [hsplit, hmore])

theorem splitAt_joinWith {parts : List (List Char)} (hne : parts ≠ [])
    (h : ∀ part ∈ parts, separator ∉ part) :
    splitAt separator (joinWith separator parts) = parts := by
  induction parts with
  | nil => exact absurd rfl hne
  | cons part rest ih =>
      obtain ⟨hpart, hrest⟩ := List.forall_mem_cons.mp h
      cases rest with
      | nil => exact splitAt_of_not_mem hpart
      | cons next more =>
          rw [joinWith, splitAt_append_cons hpart, ih (by simp) hrest]
          simp

theorem joinWith_append {front back : List (List Char)} (hfront : front ≠ []) (hback : back ≠ []) :
    joinWith separator (front ++ back) =
      joinWith separator front ++ separator :: joinWith separator back := by
  induction front with
  | nil => exact absurd rfl hfront
  | cons part rest ih =>
      cases rest with
      | nil =>
          obtain ⟨first, more, rfl⟩ := List.exists_cons_of_ne_nil hback
          rfl
      | cons next more =>
          have hstep : ∀ rest, joinWith separator (part :: next :: rest) =
              part ++ separator :: joinWith separator (next :: rest) := fun _ => rfl
          have hrest := ih (by simp)
          rw [List.cons_append] at hrest
          rw [List.cons_append, List.cons_append, hstep, hrest, hstep, List.append_assoc,
            List.cons_append]

theorem joinWith_isPrefix (front back : List (List Char)) :
    joinWith separator front <+: joinWith separator (front ++ back) := by
  by_cases hfront : front = []
  · rw [hfront]
    exact List.nil_prefix
  by_cases hback : back = []
  · have hsame : front ++ back = front := by
      rw [hback, List.append_nil]
    exact hsame.symm ▸ List.prefix_refl _
  rw [joinWith_append hfront hback]
  exact List.prefix_append _ _

/-- Text without a separator that is added at the end goes to the last part. -/
theorem splitAt_append {text suffix last : List Char} {front : List (List Char)}
    (hsplit : splitAt separator text = front ++ [last]) (hsuffix : separator ∉ suffix) :
    splitAt separator (text ++ suffix) = front ++ [last ++ suffix] := by
  have hparts : ∀ part ∈ front ++ [last ++ suffix], separator ∉ part := by
    intro part hpart
    have hall : ∀ part ∈ front ++ [last], separator ∉ part := by
      intro part hmem
      exact not_mem_of_mem_splitAt (hsplit ▸ hmem)
    rcases List.mem_append.mp hpart with hfront | hlast
    · exact hall part (List.mem_append_left _ hfront)
    · rw [List.mem_singleton.mp hlast, List.mem_append, not_or]
      exact ⟨hall last (by simp), hsuffix⟩
  have htext : text ++ suffix = joinWith separator (front ++ [last ++ suffix]) := by
    have hjoin := joinWith_splitAt separator text
    rw [hsplit] at hjoin
    rw [← hjoin]
    by_cases hfront : front = []
    · simp [hfront, joinWith]
    · simp [joinWith_append hfront, joinWith]
  rw [htext, splitAt_joinWith (by simp) hparts]

end Text

namespace Path

/-- No segment of the path stays where it is or goes back. -/
def Dotless (path : Path) : Prop :=
  ∀ segment ∈ path.segments, segment ≠ "." ∧ segment ≠ ".."

/-- No segment of the path goes back. -/
def Descending (path : Path) : Prop :=
  ".." ∉ path.segments

/-- The segments of the path other than those that stay where they are. -/
def names (path : Path) : List String :=
  path.segments.filter (· ≠ ".")

theorem Dotless.descending {path : Path} (h : path.Dotless) : path.Descending :=
  fun hmem => (h _ hmem).2 rfl

/-! ## The parent -/

/-- The parts of a text between slashes that name something. -/
def namedParts (text : List Char) : List (List Char) :=
  (Text.splitAt '/' text).filter (!isIdle ·)

theorem names_eq_map (path : Path) :
    path.names = (namedParts path.text.toList).map String.ofList := by
  have hdot : ∀ part : List Char, String.ofList part = "." ↔ part = ['.'] := by
    intro part
    rw [← String.toList_inj, String.toList_ofList]
    rfl
  rw [names, segments, List.filter_map, List.filter_filter, namedParts]
  congr 2
  funext part
  rw [Bool.eq_iff_iff]
  simp [isIdle, hdot, and_comm]

theorem namedParts_slash (rest : List Char) : namedParts ('/' :: rest) = namedParts rest := by
  simp [namedParts, Text.splitAt, isIdle]

theorem namedParts_dot_slash (rest : List Char) :
    namedParts ('.' :: '/' :: rest) = namedParts rest := by
  have hsplit : Text.splitAt '/' ('.' :: '/' :: rest) = ['.'] :: Text.splitAt '/' rest :=
    Text.splitAt_append_cons (show '/' ∉ ['.'] by decide) rest
  simp [namedParts, hsplit, isIdle]

theorem namedParts_joinWith {parts : List (List Char)} (h : ∀ part ∈ parts, '/' ∉ part) :
    namedParts (Text.joinWith '/' parts) = parts.filter (!isIdle ·) := by
  by_cases hne : parts = []
  · rw [hne]
    rfl
  · rw [namedParts, Text.splitAt_joinWith hne h]

/-- What a text starts with names nothing. -/
theorem namedParts_anchor {text : List Char} {front back : List (List Char)}
    (hsplit : Text.splitAt '/' (text.drop (anchor text).length) = front ++ back) :
    namedParts (anchor text ++ Text.joinWith '/' front) = front.filter (!isIdle ·) := by
  have hslash : ∀ part ∈ front, '/' ∉ part := by
    intro part hpart
    apply Text.not_mem_of_mem_splitAt
    rw [hsplit]
    exact List.mem_append_left _ hpart
  have hjoin := namedParts_joinWith hslash
  revert hsplit
  unfold anchor
  split
  next =>
    intro _
    rw [List.singleton_append, namedParts_slash, hjoin]
  next =>
    intro hsplit
    rcases List.append_eq_singleton_iff.mp hsplit.symm with ⟨rfl, _⟩ | ⟨rfl, _⟩ <;> rfl
  next rest =>
    -- the part before the slash is empty, and the slash follows the dot again
    intro hsplit
    have hparts : Text.splitAt '/' ('/' :: rest) = [] :: Text.splitAt '/' rest := by
      rw [Text.splitAt, if_pos rfl]
    rw [List.length_singleton, List.drop_succ_cons, List.drop_zero, hparts] at hsplit
    rcases List.cons_eq_append_iff.mp hsplit with ⟨rfl, _⟩ | ⟨more, rfl, _⟩
    · rfl
    · cases more with
      | nil => rfl
      | cons next others =>
          have hjoined : Text.joinWith '/' ([] :: next :: others) =
              '/' :: Text.joinWith '/' (next :: others) := rfl
          rw [hjoined, List.singleton_append, namedParts_dot_slash,
            namedParts_joinWith fun part hpart => hslash part (List.mem_cons_of_mem _ hpart)]
          rfl
  next =>
    intro _
    exact hjoin

theorem dropLastNamed?_eq_some {reversed rest : List (List Char)}
    (h : dropLastNamed? reversed = some rest) :
    ∃ after last before, reversed = after ++ last :: (before ++ rest) ∧
      isIdle last = false ∧ ∀ part ∈ after ++ before, isIdle part = true := by
  unfold dropLastNamed? at h
  split at h
  next => cases h
  next last more hdrop =>
    cases h
    refine ⟨reversed.takeWhile isIdle, last, more.takeWhile isIdle, ?_, ?_, ?_⟩
    · rw [List.takeWhile_append_dropWhile, ← hdrop, List.takeWhile_append_dropWhile]
    · have hlast := List.head_dropWhile_not isIdle
        (show reversed.dropWhile isIdle ≠ [] by simp [hdrop])
      simpa [hdrop] using hlast
    · intro part hpart
      rcases List.mem_append.mp hpart with hafter | hbefore
      · exact List.mem_takeWhile_imp hafter
      · exact List.mem_takeWhile_imp hbefore

theorem anchor_append_drop (text : List Char) :
    anchor text ++ text.drop (anchor text).length = text := by
  unfold anchor
  split <;> rfl

/-- Where the text of a path is cut to get its parent. -/
theorem exists_of_parent?_eq_some {path parent : Path} (h : path.parent? = some parent)
    (hne : parent.text ≠ "") :
    ∃ front before last after,
      Text.splitAt '/' (path.text.toList.drop (anchor path.text.toList).length) =
          front ++ (before ++ last :: after) ∧
        parent.text.toList = anchor path.text.toList ++ Text.joinWith '/' front ∧
        isIdle last = false ∧ ∀ part ∈ before ++ after, isIdle part = true := by
  unfold parent? at h
  dsimp only at h
  split at h
  next reversed hdrop =>
    obtain ⟨after, last, before, hreversed, hlast, hidle⟩ := dropLastNamed?_eq_some hdrop
    cases h
    refine ⟨reversed.reverse, before.reverse, last, after.reverse, ?_, ?_, hlast, ?_⟩
    · rw [← List.reverse_inj, hreversed]
      simp
    · rw [String.toList_ofList]
    · intro part hpart
      apply hidle
      simpa [or_comm] using hpart
  next =>
    split at h
    next =>
      cases h
      exact absurd rfl hne
    next => cases h

theorem isAbsolute_of_isPrefix {path parent : Path} (h : parent.text.toList <+: path.text.toList)
    (hne : parent.text ≠ "") : parent.isAbsolute = path.isAbsolute := by
  obtain ⟨rest, hrest⟩ := h
  obtain ⟨c, tail, hparent⟩ := List.exists_cons_of_ne_nil (show parent.text.toList ≠ [] by simpa)
  rw [isAbsolute, isAbsolute, ← hrest, hparent]
  rfl

/-- The parent of a path lacks its last name. -/
theorem parent?_eq_some {path parent : Path} (h : path.parent? = some parent)
    (hne : parent.text ≠ "") :
    parent.isAbsolute = path.isAbsolute ∧ ∃ last, path.names = parent.names ++ [last] := by
  obtain ⟨front, before, last, after, hsplit, htext, hlast, hidle⟩ :=
    exists_of_parent?_eq_some h hne
  -- `before` and `after` hold idle parts only, so `last` is the last name of the path and the
  -- names in `front` are all the others
  have hbody := Text.joinWith_splitAt '/' (path.text.toList.drop (anchor path.text.toList).length)
  have hpath := anchor_append_drop path.text.toList
  rw [← hbody, hsplit] at hpath
  constructor
  · obtain ⟨rest, hrest⟩ := Text.joinWith_isPrefix front (before ++ last :: after)
    exact isAbsolute_of_isPrefix ⟨rest, by rw [htext, List.append_assoc, hrest, hpath]⟩ hne
  · refine ⟨String.ofList last, ?_⟩
    have hwhole := namedParts_anchor (hsplit.trans (List.append_nil _).symm)
    have hbefore : before.filter (!isIdle ·) = [] := by
      simpa using fun part hpart => hidle part (List.mem_append_left _ hpart)
    have hafter : after.filter (!isIdle ·) = [] := by
      simpa using fun part hpart => hidle part (List.mem_append_right _ hpart)
    rw [hpath, List.filter_append, List.filter_append, List.filter_cons_of_pos (by simp [hlast]),
      hbefore, hafter, List.nil_append] at hwhole
    rw [names_eq_map, names_eq_map, hwhole, htext, namedParts_anchor hsplit, List.map_append]
    rfl

/-! ## The paths above a path -/

theorem ancestorsWithin_empty (limit : Nat) {path above : Path} (hempty : path.text = "")
    (h : above ∈ ancestorsWithin limit path) : above.text = "" := by
  obtain ⟨text⟩ := path
  cases hempty
  have hparent : parent? ⟨""⟩ = none := by decide
  cases limit with
  | zero => cases h
  | succ limit =>
      rw [ancestorsWithin, hparent, List.mem_singleton] at h
      rw [h]

/-- The paths above a path have the first names of it. -/
theorem ancestorsWithin_names (limit : Nat) {path above : Path}
    (h : above ∈ ancestorsWithin limit path) (hne : above.text ≠ "") :
    above.isAbsolute = path.isAbsolute ∧ above.names <+: path.names := by
  induction limit generalizing path with
  | zero => cases h
  | succ limit ih =>
      rcases List.mem_cons.mp h with rfl | habove
      · exact ⟨rfl, List.prefix_refl _⟩
      cases hparent : path.parent? with
      | none =>
          rw [hparent] at habove
          cases habove
      | some parent =>
          rw [hparent] at habove
          -- above the empty path there is only the empty path
          have hnonempty : parent.text ≠ "" := by
            intro hempty
            exact hne (ancestorsWithin_empty limit hempty habove)
          obtain ⟨habsolute, last, hnames⟩ := parent?_eq_some hparent hnonempty
          obtain ⟨hsame, hfirst⟩ := ih habove
          exact ⟨hsame.trans habsolute, hfirst.trans ⟨[last], hnames.symm⟩⟩

/-- The directories above a file have the first names of its path, but not all of them. -/
theorem ancestors_parent?_names {path parent above : Path} (hparent : path.parent? = some parent)
    (habove : above ∈ parent.ancestors) (hne : above.text ≠ "") :
    above.isAbsolute = path.isAbsolute ∧
      ∃ more, more ≠ [] ∧ path.names = above.names ++ more := by
  have hnonempty : parent.text ≠ "" := by
    intro hempty
    exact hne (ancestorsWithin_empty _ hempty habove)
  obtain ⟨habsolute, last, hnames⟩ := parent?_eq_some hparent hnonempty
  obtain ⟨hsame, more, hmore⟩ := ancestorsWithin_names _ habove hne
  refine ⟨hsame.trans habsolute, more ++ [last], by simp, ?_⟩
  rw [hnames, ← hmore, List.append_assoc]

/-! ## Suffixes -/

theorem endsInSlash_of_splitAt {path : Path} {front : List (List Char)}
    (h : Text.splitAt '/' path.text.toList = front ++ [[]]) (hne : path.text ≠ "") :
    path.endsInSlash = true := by
  have hjoin := Text.joinWith_splitAt '/' path.text.toList
  rw [h] at hjoin
  by_cases hfront : front = []
  · rw [hfront] at hjoin
    exact absurd (String.toList_inj.mp hjoin.symm) hne
  · rw [Text.joinWith_append hfront (by simp)] at hjoin
    simp [endsInSlash, ← hjoin, Text.joinWith]

/-- A suffix without a slash is added to the last segment, or is a segment of its own after a
slash. -/
theorem segments_withSuffix (path : Path) {suffix : String} (hne : suffix ≠ "")
    (hslash : '/' ∉ suffix.toList) :
    ∃ front last, path.segments = front ++ (if last = "" then [] else [last]) ∧
      (path.withSuffix suffix).segments = front ++ [last ++ suffix] ∧
      (last = "" → path.text ≠ "" → path.endsInSlash = true) := by
  obtain ⟨front, last, hsplit⟩ : ∃ front last,
      Text.splitAt '/' path.text.toList = front ++ [last] := by
    rcases List.eq_nil_or_concat (Text.splitAt '/' path.text.toList) with hnil | ⟨front, last, h⟩
    · exact absurd hnil (Text.splitAt_ne_nil _ _)
    · exact ⟨front, last, by simpa using h⟩
  have happend := Text.splitAt_append hsplit hslash
  refine ⟨(front.filter (· ≠ [])).map String.ofList, String.ofList last, ?_, ?_, ?_⟩
  · by_cases hlast : last = [] <;> simp [segments, hsplit, hlast]
  · have htext : (path.withSuffix suffix).text.toList = path.text.toList ++ suffix.toList :=
      String.toList_append
    have hofList : String.ofList (last ++ suffix.toList) = String.ofList last ++ suffix := by
      rw [String.ofList_append, String.ofList_toList]
    simp [segments, htext, happend, hne, hofList]
  · intro hempty
    obtain rfl : last = [] := by simpa using hempty
    exact endsInSlash_of_splitAt hsplit

theorem endsInSlash_withSuffix (path : Path) {suffix : String} (hne : suffix ≠ "")
    (hslash : '/' ∉ suffix.toList) : (path.withSuffix suffix).endsInSlash = false := by
  have htext : (path.withSuffix suffix).text.toList = path.text.toList ++ suffix.toList :=
    String.toList_append
  obtain ⟨last, hlast⟩ : ∃ last, suffix.toList.getLast? = some last :=
    Option.isSome_iff_exists.mp (by simpa using hne)
  have hchar : last ≠ '/' := by
    rintro rfl
    exact hslash (List.mem_of_getLast? hlast)
  simp [endsInSlash, htext, List.getLast?_append, hlast, hchar]

theorem isAbsolute_withSuffix {path : Path} (hne : path.text ≠ "") (suffix : String) :
    (path.withSuffix suffix).isAbsolute = path.isAbsolute := by
  refine (isAbsolute_of_isPrefix ⟨suffix.toList, ?_⟩ hne).symm
  exact String.toList_append.symm

end Path

end LauncherOptions
