import LauncherOptions.Proofs.Config.Reread

/-! # Keys and values that can be both read and set

The checks that options pass before they are set are made for the text format. A key passes exactly
if a line with it, whatever its value, is read back as the one entry of its section
(`validateKey_iff_carried`). In the other direction the format gives no more than can be set: of all
that is read from a text, only what holds a carriage return is refused, and a text whose carriage
returns all belong to line ends gives no such thing (`parse_settable`).
-/

namespace LauncherOptions

theorem isLineBreak_eq_false_iff {c : Char} : isLineBreak c = false ↔ c ≠ '\r' ∧ c ≠ '\n' := by
  simp [isLineBreak]

theorem forall_not_isLineBreak_iff {text : List Char} (h : '\n' ∉ text) :
    (∀ c ∈ text, isLineBreak c = false) ↔ '\r' ∉ text := by
  constructor
  · intro hline hmem
    exact (isLineBreak_eq_false_iff.mp (hline _ hmem)).1 rfl
  · intro hreturn c hc
    rw [isLineBreak_eq_false_iff]
    constructor
    · rintro rfl
      exact hreturn hc
    · rintro rfl
      exact h hc

/-! ## Lines that are read and the checks -/

namespace Line

/-- A key that is told from the rest of its line passes unless it holds a carriage return. -/
theorem LegibleKey.validateKey_iff {key : String} (h : LegibleKey key.toList) :
    validateKey key = .ok () ↔ '\r' ∉ key.toList := by
  have hfeed : '\n' ∉ key.toList := fun hmem => (h.chars _ hmem).2 rfl
  rw [validateKey_eq_ok_iff, ← forall_not_isLineBreak_iff hfeed]
  constructor
  · rintro ⟨_, _, hchars, _⟩ c hc
    exact (hchars c hc).2
  · intro hline
    exact ⟨h.ne_nil, h.trim_eq, fun c hc => ⟨(h.chars c hc).1, hline c hc⟩, h.head⟩

/-- A value that fits on its line passes unless it holds a carriage return. -/
theorem validateValue_iff {key value : String} (h : '\n' ∉ value.toList) :
    validateValue key value = .ok () ↔ '\r' ∉ value.toList := by
  rw [validateValue_eq_ok_iff, forall_not_isLineBreak_iff h]

end Line

/-! ## Keys that a file can carry -/

namespace ConfigFile

/-- The file with one section that has one entry. -/
def single (name key value : String) : ConfigFile :=
  empty.setSection name (.ofList [(key, value)])

theorem sections_single (name key value : String) :
    (single name key value).sections.entries = [(name, .ofList [(key, value)])] := rfl

theorem section?_single (name key value : String) :
    (single name key value).section? name = some (.ofList [(key, value)]) := by
  rw [single, section?_setSection, if_pos rfl]

/-- The text of a file with one entry is its header and the entry, a line each. -/
theorem render_single {name : String} (hname : name ≠ "") (key value : String) :
    (single name key value).render = "[" ++ name ++ "]\n" ++ key ++ "=" ++ value ++ "\n" := by
  have hsection : (single name key value).section? "" = none := by
    rw [single, section?_setSection, if_neg hname.symm]
    rfl
  have hnamed : (single name key value).named = [(name, .ofList [(key, value)])] := by
    simp [named, sections_single, hname]
  apply String.toList_inj.mp
  simp only [render, String.toList_ofList, renderChars, hsection, hnamed]
  simp [renderSection, renderEntries, renderSeparated, OrderedMap.ofList, OrderedMap.insertMany,
    OrderedMap.setEntry]

theorem legible_single {name key value : String} (hname : (Line.header name).Legible)
    (hentry : (Line.entry key value).Legible) : (single name key value).Legible := by
  apply legible_empty.setSection
  · exact fun _ => hname
  · exact List.forall_mem_singleton.mpr hentry
  · exact fun heq => absurd heq hname.1

theorem stable_single {name key value : String} (hname : name ≠ "")
    (hvalue : '\r' ∉ value.toList) : (single name key value).Stable where
  value named hnamed entry hentry hlast := by
    cases List.mem_singleton.mp hnamed
    cases List.mem_singleton.mp hentry
    exact hvalue (List.mem_of_getLast? hlast)
  mark options entry rest hoptions := by
    rw [single, section?_setSection, if_neg hname.symm] at hoptions
    cases hoptions

/-- A line with a key that can be told from the rest is read back as the one entry of its
section. -/
theorem parse_single {name key value : String} (hname : (Line.header name).Legible)
    (hentry : (Line.entry key value).Legible) (hvalue : '\r' ∉ value.toList) :
    parse ("[" ++ name ++ "]\n" ++ key ++ "=" ++ value ++ "\n") =
      .ok (single name key value).inOrder := by
  have hread := (legible_single hname hentry).read_render (stable_single hname.1 hvalue)
  rw [render_single hname.1] at hread
  rw [parse, parseFrom, hread]
  rfl

/-- A key without a carriage return passes its check exactly if a text with one section, and in it
one line with this key and any value that fits there, is read as a file whose section holds this
entry and nothing else. -/
theorem validateKey_iff_carried (name key value : String) (hname : (Line.header name).Legible)
    (hkey : '\r' ∉ key.toList) (hvalue : '\r' ∉ value.toList ∧ '\n' ∉ value.toList) :
    validateKey key = .ok () ↔
      ∃ config options,
        parse ("[" ++ name ++ "]\n" ++ key ++ "=" ++ value ++ "\n") = .ok config ∧
          config.section? name = some options ∧ options.entries = [(key, value)] := by
  constructor
  · intro hvalid
    have hentry : (Line.entry key value).Legible :=
      ⟨Line.legibleKey_of_validateKey hvalid, hvalue.2⟩
    refine ⟨_, .ofList [(key, value)], parse_single hname hentry hvalue.1, ?_, rfl⟩
    rw [section?_inOrder, section?_single]
  · rintro ⟨config, options, hparse, hsection, hentries⟩
    have hnamed : (name, options) ∈ config.sections.entries :=
      OrderedMap.get?_eq_some_iff.mp hsection
    have hentry := (legible_of_parse hparse).entry _ hnamed (key, value)
      (hentries ▸ List.mem_singleton_self _)
    exact hentry.1.validateKey_iff.mpr hkey

/-- A key may hold a bracket and its value further equals signs. But a key that starts with a
bracket makes the whole line a header if the value ends in the other one: the line is read, and says
something else. -/
theorem validateKey_iff_carried_brackets :
    (validateKey "k]" = .ok () ∧ ∃ config options, parse "[S]\nk]== [x]\n" = .ok config ∧
      config.section? "S" = some options ∧ options.entries = [("k]", "= [x]")]) ∧
      parse "[S]\n[k=]\n" = .ok ((empty.setSection "S" .empty).setSection "k=" .empty) ∧
      validateKey "[k" ≠ .ok () := by
  have hname : (Line.header "S").Legible := ⟨by decide, rfl, by decide⟩
  have hread : parse "[S]\n[k=]\n" = .ok ((empty.setSection "S" .empty).setSection "k=" .empty) :=
    rfl
  have hvalid : validateKey "k]" = .ok () := rfl
  refine ⟨⟨hvalid, ?_⟩, hread, fun hrefused => ?_⟩
  · exact (validateKey_iff_carried "S" "k]" "= [x]" hname (by decide) (by decide)).mp hvalid
  · obtain ⟨config, options, hparse, hsection, hentries⟩ :=
      (validateKey_iff_carried "S" "[k" "]" hname (by decide) (by decide)).mp hrefused
    cases hread.symm.trans hparse
    cases hsection
    cases hentries

/-! ## What a text holds -/

/-- The characters of an entry are characters of its file. -/
theorem mem_content_of_entry {config : ConfigFile} {named : String × OptionMap}
    (hnamed : named ∈ config.sections.entries) {entry : String × String}
    (hentry : entry ∈ named.2.entries) {c : Char}
    (hc : c ∈ (Line.entry entry.1 entry.2).content) : c ∈ config.content := by
  refine List.mem_flatMap.mpr ⟨named, hnamed, List.mem_append_right _ ?_⟩
  exact List.mem_flatMap.mpr ⟨entry, hentry, hc⟩

theorem returnsPaired_withoutMark {text : List Char} (h : Text.ReturnsPaired text) :
    Text.ReturnsPaired (withoutMark text) := by
  cases text with
  | nil => exact h
  | cons c rest =>
      rw [withoutMark]
      split
      · exact h.of_cons
      · exact h

/-- A text whose carriage returns all belong to line ends gives a file without any. -/
theorem return_not_mem_content {text : String} {config : ConfigFile}
    (h : parse text = .ok config) (hreturns : Text.ReturnsPaired text.toList) :
    '\r' ∉ config.content := by
  have hlines : (Text.lines (withoutMark text.toList)).flatten.count '\r' = 0 := by
    rw [List.count_eq_zero, List.mem_flatten]
    rintro ⟨line, hline, hmem⟩
    exact (returnsPaired_withoutMark hreturns).not_mem_lines hline hmem
  rw [← List.count_eq_zero]
  exact Nat.le_zero.mp (hlines ▸ count_content_le h '\r')

/-- What is read from a text can be set, unless it holds a carriage return. The keys are never
empty or padded and hold neither an equals sign nor a line feed; the names are not padded either;
and a section without a name has at least one entry. So if every carriage return of the text stands
right before a line feed, every batch of options from the file passes its check. -/
theorem parse_settable {text : String} {config : ConfigFile} (h : parse text = .ok config) :
    (∀ named ∈ config.sections.entries, ∀ entry ∈ named.2.entries,
      (validateKey entry.1 = .ok () ↔ '\r' ∉ entry.1.toList) ∧
      (validateValue entry.1 entry.2 = .ok () ↔ '\r' ∉ entry.2.toList) ∧
      entry.1 ≠ "" ∧ '=' ∉ entry.1.toList ∧ '\n' ∉ entry.1.toList ∧
      Text.trim entry.1.toList = entry.1.toList) ∧
    (∀ named ∈ config.sections.entries, named.1 ≠ "" →
      Text.trim named.1.toList = named.1.toList) ∧
    (∀ options, config.section? "" = some options → options.entries ≠ []) ∧
    (Text.ReturnsPaired text.toList → ∀ batch : List (String × String),
      (∀ pair ∈ batch, ∃ named ∈ config.sections.entries, pair ∈ named.2.entries) →
      validateBatch batch = .ok ()) := by
  have hlegible := legible_of_parse h
  refine ⟨?_, ?_, hlegible.unnamed, ?_⟩
  · intro named hnamed entry hentry
    obtain ⟨hkey, hvalue⟩ := hlegible.entry named hnamed entry hentry
    refine ⟨hkey.validateKey_iff, Line.validateValue_iff hvalue, ?_, ?_, ?_, hkey.trim_eq⟩
    · simpa using hkey.ne_nil
    · exact fun hmem => (hkey.chars _ hmem).1 rfl
    · exact fun hmem => (hkey.chars _ hmem).2 rfl
  · intro named hnamed hname
    exact (hlegible.name named hnamed hname).2.1
  · intro hreturns batch hbatch
    have hcontent := return_not_mem_content h hreturns
    rw [validateBatch_eq_ok_iff]
    intro pair hpair
    obtain ⟨named, hnamed, hentry⟩ := hbatch pair hpair
    obtain ⟨hkey, hvalue⟩ := hlegible.entry named hnamed pair hentry
    have hline : '\r' ∉ (Line.entry pair.1 pair.2).content :=
      fun hmem => hcontent (mem_content_of_entry hnamed hentry hmem)
    rw [Line.content, List.mem_append, not_or] at hline
    exact ⟨hkey.validateKey_iff.mpr hline.1, (Line.validateValue_iff hvalue).mpr hline.2⟩

/-- Carriage returns inside a key and at the end of a last line are refused, while the options of a
text with proper line ends can all be set. -/
theorem parse_settable_returns :
    let stray := empty.setSection "" (.ofList [("a\rb", " 1"), ("c", "2\r")])
    let clean := (empty.setSection "" (.ofList [("k", " 1")])).setSection "s" (.ofList [("x", "=")])
    parse "a\rb = 1\r\nc=2\r" = .ok stray ∧
      validateKey "a\rb" ≠ .ok () ∧ validateValue "c" "2\r" ≠ .ok () ∧
      parse "\uFEFFk = 1\r\n[ s ]\r\nx==\r\n" = .ok clean ∧
      validateBatch [("x", "="), ("k", " 1")] = .ok () := by
  intro stray clean
  have hstray : parse "a\rb = 1\r\nc=2\r" = .ok stray := rfl
  have hclean : parse "\uFEFFk = 1\r\n[ s ]\r\nx==\r\n" = .ok clean := rfl
  obtain ⟨hentries, -⟩ := parse_settable hstray
  obtain ⟨-, -, -, hbatch⟩ := parse_settable hclean
  have hnamed := List.mem_singleton_self ("", OrderedMap.ofList [("a\rb", " 1"), ("c", "2\r")])
  obtain ⟨hkey, -⟩ := hentries _ hnamed ("a\rb", " 1") (by decide)
  obtain ⟨-, hvalue, -⟩ := hentries _ hnamed ("c", "2\r") (by decide)
  have hreturns : Text.ReturnsPaired "\uFEFFk = 1\r\n[ s ]\r\nx==\r\n".toList := by
    have hall : ∀ index < 20, "\uFEFFk = 1\r\n[ s ]\r\nx==\r\n".toList[index]? = some '\r' →
        "\uFEFFk = 1\r\n[ s ]\r\nx==\r\n".toList[index + 1]? = some '\n' := by
      decide
    intro index hindex
    exact hall index (List.getElem?_eq_some_iff.mp hindex).1 hindex
  refine ⟨hstray, fun hok => hkey.mp hok (by decide), fun hok => hvalue.mp hok (by decide), hclean,
    hbatch hreturns _ ?_⟩
  decide

end ConfigFile

end LauncherOptions
