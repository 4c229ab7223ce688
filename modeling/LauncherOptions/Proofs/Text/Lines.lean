import LauncherOptions.Text.Lines

/-! # Laws of line splitting

Texts without line feeds that do not end in a carriage return, each followed by a line feed, are the
lines of the text that they make (`lines_unlines`). Splitting loses the line feeds and the carriage
returns right before them, and nothing else is added (`flatten_lines_sublist`,
`count_flatten_lines_lt`, `ReturnsPaired.not_mem_lines`). A text that ends with a line can be
followed by any other (`lines_append`), and it does not matter which of the two ends lines have
(`lines_withReturns`).
-/

namespace LauncherOptions.Text

/-- The text of lines, each followed by a line feed. -/
def unlines (texts : List (List Char)) : List Char :=
  texts.flatMap fun line => line ++ ['\n']

theorem unlines_append (first second : List (List Char)) :
    unlines (first ++ second) = unlines first ++ unlines second :=
  List.flatMap_append

theorem unlines_cons (line : List Char) (rest : List (List Char)) :
    unlines (line :: rest) = line ++ '\n' :: unlines rest := by
  simp [unlines]

theorem infix_unlines {line : List Char} {texts : List (List Char)} (h : line ∈ texts) :
    line ++ ['\n'] <:+: unlines texts := by
  obtain ⟨before, after, rfl⟩ := List.append_of_mem h
  refine ⟨unlines before, unlines after, ?_⟩
  simp [unlines_append, unlines_cons]

/-- A character that ends no line belongs to the first line of the text that it starts. -/
theorem lines_cons {c : Char} {rest : List Char} (hfeed : c ≠ '\n')
    (hreturn : c = '\r' → rest.head? ≠ some '\n') :
    lines (c :: rest) =
      match lines rest with
      | [] => [[c]]
      | line :: more => (c :: line) :: more := by
  have hlast : ∀ after, c = '\r' → rest = '\n' :: after → False := by
    rintro after hc rfl
    exact hreturn hc rfl
  exact lines.eq_4 c rest hlast hfeed

/-- A text without line feeds that does not end in a carriage return is a line if a line feed
follows it. -/
theorem lines_append_lineFeed {line : List Char} (hfeed : '\n' ∉ line)
    (hreturn : line.getLast? ≠ some '\r') (rest : List Char) :
    lines (line ++ '\n' :: rest) = line :: lines rest := by
  induction line with
  | nil => rw [List.nil_append, lines]
  | cons c text ih =>
      rw [List.mem_cons, not_or] at hfeed
      have hnext : c = '\r' → (text ++ '\n' :: rest).head? ≠ some '\n' := by
        rintro rfl
        cases text with
        | nil => exact absurd rfl hreturn
        | cons d more =>
            intro heq
            have hd : d = '\n' := Option.some.inj heq
            exact hfeed.2 (hd ▸ List.mem_cons_self)
      have htext : text.getLast? ≠ some '\r' := by
        cases text with
        | nil => simp
        | cons d more => simpa using hreturn
      rw [List.cons_append, lines_cons (Ne.symm hfeed.1) hnext, ih hfeed.2 htext]

theorem lines_unlines {texts : List (List Char)} (hfeed : ∀ line ∈ texts, '\n' ∉ line)
    (hreturn : ∀ line ∈ texts, line.getLast? ≠ some '\r') : lines (unlines texts) = texts := by
  induction texts with
  | nil => rfl
  | cons line rest ih =>
      obtain ⟨hlineFeed, hrestFeed⟩ := List.forall_mem_cons.mp hfeed
      obtain ⟨hlineReturn, hrestReturn⟩ := List.forall_mem_cons.mp hreturn
      rw [unlines_cons, lines_append_lineFeed hlineFeed hlineReturn, ih hrestFeed hrestReturn]

/-! ## What splitting loses -/

theorem lineFeed_not_mem_lines {text line : List Char} (h : line ∈ lines text) :
    '\n' ∉ line := by
  fun_induction lines text generalizing line with
  | case1 => cases h
  | case2 rest ih =>
      rcases List.mem_cons.mp h with rfl | h
      · exact List.not_mem_nil
      · exact ih h
  | case3 rest ih =>
      rcases List.mem_cons.mp h with rfl | h
      · exact List.not_mem_nil
      · exact ih h
  | case4 c rest _ hfeed hlines ih =>
      rw [List.mem_singleton.mp h, List.mem_singleton]
      exact fun heq => hfeed heq.symm
  | case5 c rest _ hfeed first more hlines ih =>
      rw [hlines] at ih
      rcases List.mem_cons.mp h with rfl | h
      · rw [List.mem_cons, not_or]
        exact ⟨fun heq => hfeed heq.symm, ih List.mem_cons_self⟩
      · exact ih (List.mem_cons_of_mem first h)

theorem flatten_lines_sublist (text : List Char) : (lines text).flatten.Sublist text := by
  fun_induction lines text with
  | case1 => exact List.Sublist.refl []
  | case2 rest ih => exact (ih.cons _).cons _
  | case3 rest ih => exact ih.cons _
  | case4 c rest _ _ hlines ih =>
      rw [hlines] at ih
      exact ih.cons_cons c
  | case5 c rest _ _ first more hlines ih =>
      rw [hlines] at ih
      exact ih.cons_cons c

theorem infix_of_infix_cons {c : Char} {rest : List Char}
    (hreturn : ∀ after, c = '\r' → rest = '\n' :: after → False)
    (h : ['\r', '\n'] <:+: c :: rest) : ['\r', '\n'] <:+: rest := by
  rcases List.infix_cons_iff.mp h with ⟨after, heq⟩ | hinfix
  · obtain ⟨hc, hrest⟩ := List.cons.inj heq
    exact absurd hrest.symm fun hrest => hreturn after hc.symm hrest
  · exact hinfix

/-- A carriage return right before a line feed is lost. -/
theorem count_flatten_lines_lt {text : List Char} (h : ['\r', '\n'] <:+: text) :
    (lines text).flatten.count '\r' < text.count '\r' := by
  fun_induction lines text with
  | case1 => exact absurd (List.infix_nil.mp h) (List.cons_ne_nil _ _)
  | case2 rest ih =>
      have hle := (flatten_lines_sublist rest).count_le '\r'
      have hcount : ('\r' :: '\n' :: rest).count '\r' = rest.count '\r' + 1 := by simp
      rw [List.flatten_cons, List.nil_append, hcount]
      omega
  | case3 rest ih =>
      have hlt := ih (infix_of_infix_cons (by simp) h)
      simpa using hlt
  | case4 c rest hreturn _ hlines ih =>
      have hlt := ih (infix_of_infix_cons hreturn h)
      rw [hlines] at hlt
      simpa [List.count_cons] using hlt
  | case5 c rest hreturn _ first more hlines ih =>
      have hlt := ih (infix_of_infix_cons hreturn h)
      rw [hlines] at hlt
      simpa [List.count_cons] using hlt

/-- Every carriage return stands right before a line feed. -/
def ReturnsPaired (text : List Char) : Prop :=
  ∀ index : Nat, text[index]? = some '\r' → text[index + 1]? = some '\n'

theorem ReturnsPaired.of_cons {c : Char} {rest : List Char} (h : ReturnsPaired (c :: rest)) :
    ReturnsPaired rest :=
  fun index => h (index + 1)

theorem ReturnsPaired.head_ne {c : Char} {rest : List Char} (h : ReturnsPaired (c :: rest))
    (hreturn : ∀ after, c = '\r' → rest = '\n' :: after → False) : c ≠ '\r' := by
  rintro rfl
  have hnext : rest.head? = some '\n' := by
    rw [List.head?_eq_getElem?]
    exact h 0 rfl
  obtain ⟨after, hrest⟩ := List.head?_eq_some_iff.mp hnext
  exact hreturn after rfl hrest

/-- If every carriage return stands right before a line feed, splitting loses all of them. -/
theorem ReturnsPaired.not_mem_lines {text line : List Char} (h : ReturnsPaired text)
    (hline : line ∈ lines text) : '\r' ∉ line := by
  fun_induction lines text generalizing line with
  | case1 => cases hline
  | case2 rest ih =>
      rcases List.mem_cons.mp hline with rfl | hline
      · exact List.not_mem_nil
      · exact ih h.of_cons.of_cons hline
  | case3 rest ih =>
      rcases List.mem_cons.mp hline with rfl | hline
      · exact List.not_mem_nil
      · exact ih h.of_cons hline
  | case4 c rest hreturn _ hlines ih =>
      rw [List.mem_singleton.mp hline, List.mem_singleton]
      exact (h.head_ne hreturn).symm
  | case5 c rest hreturn _ first more hlines ih =>
      rw [hlines] at ih
      rcases List.mem_cons.mp hline with rfl | hline
      · rw [List.mem_cons, not_or]
        exact ⟨(h.head_ne hreturn).symm, ih h.of_cons List.mem_cons_self⟩
      · exact ih h.of_cons (List.mem_cons_of_mem first hline)

/-! ## Texts put together -/

/-- Another line can follow: the text is empty or ends in a line feed. -/
def Closed (text : List Char) : Prop :=
  text = [] ∨ text.getLast? = some '\n'

theorem Closed.of_cons {c : Char} {rest : List Char} (h : Closed (c :: rest)) : Closed rest := by
  cases rest with
  | nil => exact .inl rfl
  | cons d more => exact .inr (by simpa [Closed] using h)

theorem lines_eq_nil_iff {text : List Char} : lines text = [] ↔ text = [] := by
  fun_cases lines text with
  | case1 => simp
  | case2 rest => simp
  | case3 rest => simp
  | case4 c rest _ _ hlines => simp
  | case5 c rest _ _ first more hlines => simp

/-- The lines of a text that ends with a line stay what they are, whatever follows. -/
theorem lines_append {first : List Char} (h : Closed first) (second : List Char) :
    lines (first ++ second) = lines first ++ lines second := by
  fun_induction lines first with
  | case1 => rfl
  | case2 rest ih =>
      rw [List.cons_append, List.cons_append, lines, ih h.of_cons.of_cons, List.cons_append]
  | case3 rest ih => rw [List.cons_append, lines, ih h.of_cons, List.cons_append]
  | case4 c rest _ hfeed hlines ih =>
      rw [lines_eq_nil_iff.mp hlines] at h
      exact absurd h (by simpa [Closed] using hfeed)
  | case5 c rest hreturn hfeed line more hlines ih =>
      have hrest : rest ≠ [] := by
        rintro rfl
        cases hlines
      have hnext : c = '\r' → (rest ++ second).head? ≠ some '\n' := by
        cases rest with
        | nil => exact absurd rfl hrest
        | cons d after =>
            rintro hc hhead
            have hd : d = '\n' := Option.some.inj hhead
            exact hreturn after hc (hd ▸ rfl)
      rw [List.cons_append, lines_cons hfeed hnext, ih h.of_cons, hlines]
      rfl

/-- Characters that end no line go to the first line of what follows. -/
theorem lines_append_of_plain {pad : List Char} (h : ∀ c ∈ pad, c ≠ '\n' ∧ c ≠ '\r')
    (rest : List Char) :
    lines (pad ++ rest) =
      match lines rest with
      | [] => if pad = [] then [] else [pad]
      | line :: more => (pad ++ line) :: more := by
  induction pad with
  | nil =>
      rw [List.nil_append]
      cases lines rest <;> rfl
  | cons c pad ih =>
      obtain ⟨hc, hpad⟩ := List.forall_mem_cons.mp h
      rw [List.cons_append, lines_cons hc.1 (fun hreturn => absurd hreturn hc.2), ih hpad]
      cases hrest : lines rest with
      | nil => cases pad <;> simp
      | cons line more => rfl

theorem lines_append_return {line : List Char} (h : '\n' ∉ line) (rest : List Char) :
    lines (line ++ '\r' :: '\n' :: rest) = line :: lines rest := by
  induction line with
  | nil => rw [List.nil_append, lines]
  | cons c text ih =>
      rw [List.mem_cons, not_or] at h
      have hnext : (text ++ '\r' :: '\n' :: rest).head? ≠ some '\n' := by
        cases text with
        | nil => simp
        | cons d more =>
            have hd : '\n' ≠ d := fun heq => h.2 (heq ▸ List.mem_cons_self)
            simpa using hd.symm
      rw [List.cons_append, lines_cons (Ne.symm h.1) (fun _ => hnext), ih h.2]

/-- A text without line feeds is a line if a line feed follows it, but for one carriage return at
its end. -/
theorem exists_lines_append_lineFeed {line : List Char} (h : '\n' ∉ line) (rest : List Char) :
    ∃ raw, lines (line ++ '\n' :: rest) = raw :: lines rest ∧
      (raw = line ∨ raw ++ ['\r'] = line) := by
  by_cases hreturn : line.getLast? = some '\r'
  · obtain ⟨raw, rfl⟩ := List.getLast?_eq_some_iff.mp hreturn
    have hraw : '\n' ∉ raw := fun hmem => h (List.mem_append_left _ hmem)
    refine ⟨raw, ?_, .inr rfl⟩
    rw [List.append_assoc]
    exact lines_append_return hraw rest
  · exact ⟨line, lines_append_lineFeed h hreturn rest, .inl rfl⟩

/-- The text with a carriage return before every line feed. -/
def withReturns (text : List Char) : List Char :=
  text.flatMap fun c => if c = '\n' then ['\r', '\n'] else [c]

theorem lines_withReturns {text : List Char} (h : '\r' ∉ text) :
    lines (withReturns text) = lines text := by
  induction text with
  | nil => rfl
  | cons c rest ih =>
      rw [List.mem_cons, not_or] at h
      have hplain : ∀ more : List Char, c = '\r' → more.head? ≠ some '\n' :=
        fun more hc => absurd hc.symm h.1
      by_cases hc : c = '\n'
      · subst hc
        rw [withReturns, List.flatMap_cons, if_pos rfl, List.cons_append, List.singleton_append,
          ← withReturns, lines, ih h.2, lines]
      · rw [withReturns, List.flatMap_cons, if_neg hc, List.singleton_append, ← withReturns,
          lines_cons hc (hplain _), ih h.2, lines_cons hc (hplain _)]

end LauncherOptions.Text
