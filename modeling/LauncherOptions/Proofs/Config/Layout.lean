import LauncherOptions.Proofs.Config.Grammar

/-! # What does not matter in a configuration text

How lines end, how they are indented, and blank lines and comments between them make no difference
to what is read; a line that is inserted only moves the number of a refused line below it
(`addLines_insert`). The same goes for a byte-order mark at the start. Main statement:
`parse_layout`.
-/

namespace LauncherOptions

/-! ## Numbers of lines -/

/-- The number of a line, once another one was inserted that now has the number `place`. -/
def renumbered (place line : Nat) : Nat :=
  if place ≤ line then line + 1 else line

/-- The error with the number of its line adapted to a line that was inserted. -/
def Error.renumbered (place : Nat) : Error → Error
  | .parse path line fault => .parse path (LauncherOptions.renumbered place line) fault
  | error => error

namespace Reading

/-- A reading that begins one line further down refuses a line with a number one higher. -/
theorem addLines_succ {place number : Nat} (h : place ≤ number) (reading : Reading)
    (raws : List (List Char)) :
    reading.addLines (number + 1) raws =
      (reading.addLines number raws).mapError fun refusal =>
        (renumbered place refusal.1, refusal.2) := by
  induction raws generalizing reading number with
  | nil => rfl
  | cons raw rest ih =>
      simp only [addLines]
      cases Line.read raw with
      | ok line => exact ih (Nat.le_succ_of_le h) _
      | error fault => simp [Except.mapError, renumbered, h]

/-- A line without meaning makes no difference, except to the numbers of the lines below it. -/
theorem addLines_insert {raw : List Char} (h : Line.read raw = .ok .ignored) (reading : Reading)
    (number : Nat) (above below : List (List Char)) :
    reading.addLines number (above ++ raw :: below) =
      (reading.addLines number (above ++ below)).mapError fun refusal =>
        (renumbered (number + above.length) refusal.1, refusal.2) := by
  induction above generalizing reading number with
  | nil =>
      rw [List.nil_append, addLines, h]
      exact addLines_succ (Nat.le_refl number) reading below
  | cons first above ih =>
      simp only [List.cons_append, addLines]
      cases Line.read first with
      | ok line =>
          have hplace : number + (above.length + 1) = number + 1 + above.length := by omega
          rw [List.length_cons, hplace]
          exact ih _ _
      | error fault =>
          have hlt : ¬number + (above.length + 1) ≤ number := by omega
          simp [Except.mapError, renumbered, hlt]

/-- Only what the lines are read as matters. -/
theorem addLines_congr {raws others : List (List Char)}
    (h : raws.map Line.read = others.map Line.read) (reading : Reading) (number : Nat) :
    reading.addLines number raws = reading.addLines number others := by
  induction raws generalizing reading number others with
  | nil =>
      cases others with
      | nil => rfl
      | cons other more => cases h
  | cons raw rest ih =>
      cases others with
      | nil => cases h
      | cons other more =>
          obtain ⟨hread, hrest⟩ := List.cons.inj h
          simp only [addLines, hread]
          cases Line.read other with
          | ok line => exact ih hrest _ _
          | error fault => rfl

end Reading

/-! ## Lines with other blanks -/

namespace Line

/-- Blanks before a line make no difference. -/
theorem read_append_of_isBlank {pad : List Char} (h : ∀ c ∈ pad, Text.isBlank c = true)
    (raw : List Char) : read (pad ++ raw) = read raw := by
  simp only [read, Text.trimStart_append_of_isBlank h]

/-- A line that says nothing says nothing without the blanks at its end either. -/
theorem not_speaks_of_append {raw blanks : List Char} (h : ¬Speaks (raw ++ blanks))
    (hblank : ∀ c ∈ blanks, Text.isBlank c = true) : ¬Speaks raw := by
  rintro ⟨c, rest, htrim, hcomment⟩
  exact h ⟨c, rest, (Text.trim_append_of_isBlank hblank raw).trans htrim, hcomment⟩

theorem head?_ne_mark_of_not_speaks {raw : List Char} (h : ¬Speaks raw) :
    raw.head? ≠ some '\uFEFF' := by
  intro hhead
  obtain ⟨rest, rfl⟩ := List.head?_eq_some_iff.mp hhead
  refine h ⟨'\uFEFF', Text.trimEnd rest, ?_, by decide, by decide⟩
  rw [Text.trim, Text.trimStart_cons_of_not_isBlank (by decide),
    Text.trimEnd_cons_of_not_isBlank (by decide)]

end Line

/-! ## Texts with other layouts -/

namespace ConfigFile

open Reading

theorem rawLines_eq_lines {text : String} (h : text.toList.head? ≠ some '\uFEFF') :
    rawLines text = Text.lines text.toList := by
  rw [rawLines, withoutMark_eq_self h]

/-- Only what the lines are read as matters to the result. -/
theorem parse_congr {text other : String}
    (h : (rawLines other).map Line.read = (rawLines text).map Line.read) :
    parse other = parse text := by
  have hread := addLines_congr h start 1
  rw [rawLines, rawLines] at hread
  rw [parse, parse, parseFrom, parseFrom, read, read, hread]

/-- A line without meaning more makes no difference to the result, except to the number of a refused
line below it. -/
theorem parse_insert {text other : String} {above below : List (List Char)} {raw : List Char}
    (htext : rawLines text = above ++ below) (hother : rawLines other = above ++ raw :: below)
    (hread : Line.read raw = .ok .ignored) :
    parse other = (parse text).mapError (Error.renumbered (above.length + 1)) := by
  have hinsert := addLines_insert hread start 1 above below
  rw [← htext, ← hother, rawLines, rawLines, Nat.add_comm] at hinsert
  rw [parse, parse, parseFrom, parseFrom, read, read, hinsert]
  cases start.addLines 1 (Text.lines (withoutMark text.toList)) with
  | ok reading => rfl
  | error refusal => rfl

theorem parse_mark (text : String) (h : text.toList.head? ≠ some '\uFEFF') :
    parse ("\uFEFF" ++ text) = parse text := by
  apply parse_congr
  rw [rawLines, rawLines_eq_lines h, String.toList_append]
  rfl

theorem parse_withReturns {text : String} (hmark : text.toList.head? ≠ some '\uFEFF')
    (h : '\r' ∉ text.toList) :
    parse (String.ofList (Text.withReturns text.toList)) = parse text := by
  have hreturns : (Text.withReturns text.toList).head? ≠ some '\uFEFF' := by
    cases hchars : text.toList with
    | nil => simp [Text.withReturns]
    | cons c rest =>
        rw [hchars, List.head?_cons] at hmark
        by_cases hc : c = '\n'
        · simp [Text.withReturns, hc]
        · simpa [Text.withReturns, hc] using hmark
  apply parse_congr
  rw [rawLines_eq_lines hmark, rawLines_eq_lines (by rwa [String.toList_ofList]),
    String.toList_ofList, Text.lines_withReturns h]

/-- The start of a text decides whether there is a byte-order mark. -/
theorem head?_append_ne {first second other : List Char} {c : Char}
    (h : (first ++ second).head? ≠ some c) (hother : other.head? ≠ some c) :
    (first ++ (other ++ second)).head? ≠ some c := by
  cases first with
  | cons d rest => exact h
  | nil =>
      cases other with
      | cons d rest => exact hother
      | nil => exact h

theorem parse_line_inserted {before after line : String}
    (hmark : (before ++ after).toList.head? ≠ some '\uFEFF') (hbefore : Text.Closed before.toList)
    (hfeed : '\n' ∉ line.toList) (hsilent : ¬Line.Speaks line.toList) :
    parse (before ++ line ++ "\n" ++ after) =
      (parse (before ++ after)).mapError
        (Error.renumbered ((Text.lines before.toList).length + 1)) := by
  have hchars : (before ++ line ++ "\n" ++ after).toList =
      before.toList ++ ((line.toList ++ ['\n']) ++ after.toList) := by
    simp [String.toList_append]
  have hline : (line.toList ++ ['\n']).head? ≠ some '\uFEFF' := by
    have hhead := Line.head?_ne_mark_of_not_speaks hsilent
    cases hcase : line.toList with
    | nil => decide
    | cons c rest => rwa [hcase] at hhead
  obtain ⟨raw, hraw, hsame⟩ := Text.exists_lines_append_lineFeed hfeed after.toList
  have hread : Line.read raw = .ok .ignored := by
    apply Line.read_of_not_speaks
    rcases hsame with rfl | hreturn
    · exact hsilent
    · rw [← hreturn] at hsilent
      exact Line.not_speaks_of_append hsilent (List.forall_mem_singleton.mpr rfl)
  have htext : rawLines (before ++ after) =
      Text.lines before.toList ++ Text.lines after.toList := by
    rw [rawLines_eq_lines hmark, String.toList_append, Text.lines_append hbefore]
  have hother : rawLines (before ++ line ++ "\n" ++ after) =
      Text.lines before.toList ++ raw :: Text.lines after.toList := by
    rw [String.toList_append] at hmark
    rw [rawLines_eq_lines (hchars ▸ head?_append_ne hmark hline), hchars,
      Text.lines_append hbefore, List.append_assoc, List.singleton_append, hraw]
  exact parse_insert htext hother hread

/-- Blanks before a line make no difference. -/
theorem parse_indented {before after pad : String}
    (hmark : (before ++ after).toList.head? ≠ some '\uFEFF') (hbefore : Text.Closed before.toList)
    (hafter : after ≠ "") (hpad : ∀ c ∈ pad.toList, c = ' ' ∨ c = '\t') :
    parse (before ++ pad ++ after) = parse (before ++ after) := by
  have hchars : (before ++ pad ++ after).toList =
      before.toList ++ (pad.toList ++ after.toList) := by
    simp [String.toList_append]
  have hblank : ∀ c ∈ pad.toList, Text.isBlank c = true := by
    intro c hc
    rcases hpad c hc with rfl | rfl <;> decide
  have hplain : ∀ c ∈ pad.toList, c ≠ '\n' ∧ c ≠ '\r' := by
    intro c hc
    rcases hpad c hc with rfl | rfl <;> decide
  have hhead : pad.toList.head? ≠ some '\uFEFF' := by
    intro hhead
    rcases hpad _ (List.mem_of_head? hhead) with heq | heq <;> exact absurd heq (by decide)
  have hlines : (Text.lines (pad.toList ++ after.toList)).map Line.read =
      (Text.lines after.toList).map Line.read := by
    rw [Text.lines_append_of_plain hplain]
    cases hcase : Text.lines after.toList with
    | nil => exact absurd (String.toList_eq_nil_iff.mp (Text.lines_eq_nil_iff.mp hcase)) hafter
    | cons raw more => simp [Line.read_append_of_isBlank hblank]
  apply parse_congr
  rw [rawLines_eq_lines hmark, String.toList_append, Text.lines_append hbefore]
  rw [String.toList_append] at hmark
  rw [rawLines_eq_lines (hchars ▸ head?_append_ne hmark hhead), hchars, Text.lines_append hbefore,
    List.map_append, List.map_append, hlines]

/-- Layout does not matter to what is read: a byte-order mark at the start, the kind of line ends
and the indentation of a line make no difference at all, and a blank line or a comment that is put
between two lines only moves the number of a refused line below it. -/
theorem parse_layout (text : String) (hmark : text.toList.head? ≠ some '\uFEFF') :
    parse ("\uFEFF" ++ text) = parse text ∧
      ('\r' ∉ text.toList →
        parse (String.ofList (Text.withReturns text.toList)) = parse text) ∧
      (∀ before after line, text = before ++ after → Text.Closed before.toList →
        '\n' ∉ line.toList → ¬Line.Speaks line.toList →
        parse (before ++ line ++ "\n" ++ after) =
          (parse text).mapError (Error.renumbered ((Text.lines before.toList).length + 1))) ∧
      ∀ before after pad, text = before ++ after → Text.Closed before.toList → after ≠ "" →
        (∀ c ∈ pad.toList, c = ' ' ∨ c = '\t') →
        parse (before ++ pad ++ after) = parse text := by
  refine ⟨parse_mark text hmark, parse_withReturns hmark, ?_, ?_⟩
  · rintro before after line rfl hbefore hfeed hsilent
    exact parse_line_inserted hmark hbefore hfeed hsilent
  · rintro before after pad rfl hbefore hafter hpad
    exact parse_indented hmark hbefore hafter hpad

/-- The third line of a text is refused with any layout, as the fourth one below a comment. -/
theorem parse_layout_refused :
    parse "\uFEFF[a]\nk = v\n= x" = .error (.parse ⟨"<input>"⟩ 3 .emptyKey) ∧
      parse "[a]\r\nk = v\r\n= x" = .error (.parse ⟨"<input>"⟩ 3 .emptyKey) ∧
      parse "[a]\n ; note\nk = v\n= x" = .error (.parse ⟨"<input>"⟩ 4 .emptyKey) ∧
      parse "[a]\nk = v\n \t= x" = .error (.parse ⟨"<input>"⟩ 3 .emptyKey) := by
  have hparse : parse "[a]\nk = v\n= x" = .error (.parse ⟨"<input>"⟩ 3 .emptyKey) := rfl
  have hsilent : ¬Line.Speaks " ; note".toList := by
    rintro ⟨c, rest, htrim, -, hsemicolon⟩
    have htrimmed : Text.trim " ; note".toList = "; note".toList := rfl
    exact hsemicolon (List.cons.inj (htrimmed.symm.trans htrim)).1.symm
  obtain ⟨hmarked, hreturns, hinserted, hindented⟩ :=
    parse_layout "[a]\nk = v\n= x" (by decide)
  refine ⟨hmarked.trans hparse, (hreturns (by decide)).trans hparse, ?_, ?_⟩
  · refine (hinserted "[a]\n" "k = v\n= x" " ; note" rfl (.inr rfl) (by decide) hsilent).trans ?_
    rw [hparse]
    rfl
  · have hpad : ∀ c ∈ " \t".toList, c = ' ' ∨ c = '\t' := by simp
    exact (hindented "[a]\nk = v\n" "= x" " \t" rfl (.inr rfl) (by decide) hpad).trans hparse

end ConfigFile

end LauncherOptions
