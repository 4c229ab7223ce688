import LauncherOptions.Proofs.Config.RoundTrip
import LauncherOptions.Proofs.Except

/-! # Reading what was read before

Every file that is read from a text has lines that can be written again (`legible_of_read`). Two
things can still be lost when the written text is split into lines: a carriage return at the end of
a value, and a byte-order mark at the very start. They do not come back, because reading makes no
characters (`count_content_le`). So a file that was read from a text is read again from its own text
exactly if it holds neither of them (`reread_iff`).
-/

namespace LauncherOptions

/-! ## What the lines of a text say -/

namespace Line

/-- The characters of a line that a file keeps. -/
def content : Line → List Char
  | .ignored => []
  | .header name => name.toList
  | .entry key value => key.toList ++ value.toList

theorem read_of_trimStart {raw : List Char} {c : Char} {rest : List Char}
    (hcons : Text.trimStart raw = c :: rest) (hblank : Text.isBlank c = false) :
    read raw = read (c :: rest) := by
  simp only [read, hcons, Text.trimStart_cons_of_not_isBlank hblank]

/-- A line that makes sense says nothing, is a header, or is an entry that starts with neither a
blank nor a delimiter. -/
theorem read_eq_ok {raw : List Char} {line : Line} (h : read raw = .ok line) :
    line = .ignored ∨
      (∃ rest name, Text.trim raw = '[' :: rest ∧ headerName? rest = some name ∧
        line = .header (String.ofList name)) ∨
      ∃ c rest, Text.trimStart raw = c :: rest ∧ Text.isBlank c = false ∧
        isDelimiter c = false ∧ (splitEntry (c :: rest)).1 ≠ [] ∧
        line = .entry (String.ofList (splitEntry (c :: rest)).1)
          (String.ofList (splitEntry (c :: rest)).2) := by
  rcases Text.trimStart_cases raw with hempty | ⟨c, rest, hcons, hblank⟩
  · simp only [read, hempty, Text.trimEnd_nil] at h
    exact .inl (Except.ok.inj h).symm
  have htrim : Text.trim raw = c :: Text.trimEnd rest := by
    rw [Text.trim, hcons, Text.trimEnd_cons_of_not_isBlank hblank]
  cases hdelimiter : isDelimiter c with
  | false =>
      rw [read_of_trimStart hcons hblank, read_cons_of_not_isDelimiter hblank hdelimiter] at h
      split at h
      next => cases h
      next hkey =>
        exact .inr (.inr ⟨c, rest, hcons, hblank, hdelimiter, hkey, (Except.ok.inj h).symm⟩)
  | true =>
      simp only [isDelimiter, Bool.or_eq_true, beq_iff_eq] at hdelimiter
      rcases hdelimiter with (rfl | rfl) | rfl
      · simp only [read, hcons, Text.trimEnd_cons_of_not_isBlank hblank] at h
        split at h
        next name hname => exact .inr (.inl ⟨_, name, htrim, hname, (Except.ok.inj h).symm⟩)
        next => cases h
      · simp only [read, hcons, Text.trimEnd_cons_of_not_isBlank hblank] at h
        exact .inl (Except.ok.inj h).symm
      · simp only [read, hcons, Text.trimEnd_cons_of_not_isBlank hblank] at h
        exact .inl (Except.ok.inj h).symm

/-! ### Headers -/

theorem headerName?_eq_some {rest name : List Char} (h : headerName? rest = some name) :
    name ≠ [] ∧ Text.trim name = name ∧ name.Sublist rest := by
  simp only [headerName?] at h
  split at h
  next =>
    split at h
    next => cases h
    next hempty =>
      cases h
      exact ⟨hempty, Text.trim_trim _, (Text.trim_sublist _).trans (List.dropLast_sublist rest)⟩
  next => cases h

/-! ### Entries -/

/-- The key and the value of an entry stand in its line, one after the other. -/
theorem splitEntry_sublist (line : List Char) :
    ((splitEntry line).1 ++ (splitEntry line).2).Sublist line := by
  unfold splitEntry
  split
  next => simpa using Text.trimEnd_sublist line
  next equals value hdrop =>
    have hline : line.takeWhile (· ≠ '=') ++ equals :: value = line := by
      rw [← hdrop]
      exact List.takeWhile_append_dropWhile
    conv => rhs; rw [← hline]
    exact (Text.trim_sublist _).append (List.sublist_cons_self equals value)

/-- The key of an entry is what stands before the equals sign, less the blanks at its end. -/
theorem splitEntry_cons {c : Char} (hblank : Text.isBlank c = false) (hequals : c ≠ '=')
    (rest : List Char) :
    ∃ name, '=' ∉ name ∧ (splitEntry (c :: rest)).1 = c :: Text.trimEnd name := by
  have htake : (c :: rest).takeWhile (· ≠ '=') = c :: rest.takeWhile (· ≠ '=') := by
    simp [hequals]
  unfold splitEntry
  split
  next hdrop =>
    refine ⟨rest, fun hmem => ?_, ?_⟩
    · have hall := List.dropWhile_eq_nil_iff.mp hdrop '=' (List.mem_cons_of_mem c hmem)
      simp at hall
    · exact Text.trimEnd_cons_of_not_isBlank hblank rest
  next =>
    refine ⟨rest.takeWhile (· ≠ '='), fun hmem => ?_, ?_⟩
    · simpa using List.mem_takeWhile_imp hmem
    · rw [htake, Text.trim, Text.trimStart_cons_of_not_isBlank hblank,
        Text.trimEnd_cons_of_not_isBlank hblank]

theorem legibleKey_splitEntry {c : Char} {rest : List Char} (hblank : Text.isBlank c = false)
    (hdelimiter : isDelimiter c = false) (hkey : (splitEntry (c :: rest)).1 ≠ [])
    (hfeed : '\n' ∉ (splitEntry (c :: rest)).1) : LegibleKey (splitEntry (c :: rest)).1 := by
  have hequals : c ≠ '=' := by
    rintro rfl
    exact hkey rfl
  obtain ⟨name, hname, hsplit⟩ := splitEntry_cons hblank hequals rest
  have hchars : '=' ∉ c :: Text.trimEnd name := by
    rw [List.mem_cons, not_or]
    exact ⟨hequals.symm, fun hmem => hname ((Text.trimEnd_sublist name).mem hmem)⟩
  rw [hsplit] at hfeed ⊢
  refine ⟨List.cons_ne_nil _ _, Text.trim_cons_trimEnd hblank name, ?_, by simpa using hdelimiter⟩
  intro d hd
  exact ⟨fun heq => hchars (heq ▸ hd), fun heq => hfeed (heq ▸ hd)⟩

/-! ### Lines -/

/-- What a line says stands in it. -/
theorem content_sublist_of_read {raw : List Char} {line : Line} (h : read raw = .ok line) :
    line.content.Sublist raw := by
  rcases read_eq_ok h with rfl | ⟨rest, name, htrim, hname, rfl⟩ | ⟨c, rest, hcons, _, _, _, rfl⟩
  · exact List.nil_sublist raw
  · obtain ⟨_, _, hsublist⟩ := headerName?_eq_some hname
    rw [content, String.toList_ofList]
    apply (hsublist.trans (List.sublist_cons_self '[' rest)).trans
    rw [← htrim]
    exact Text.trim_sublist raw
  · rw [content, String.toList_ofList, String.toList_ofList]
    apply (splitEntry_sublist (c :: rest)).trans
    rw [← hcons]
    exact Text.trimStart_sublist raw

/-- A line that makes sense can be written again. -/
theorem legible_of_read {raw : List Char} {line : Line} (hfeed : '\n' ∉ raw)
    (h : read raw = .ok line) : line.Legible := by
  have hcontent : '\n' ∉ line.content := fun hmem =>
    hfeed ((content_sublist_of_read h).mem hmem)
  rcases read_eq_ok h with rfl | ⟨rest, name, _, hname, rfl⟩ |
    ⟨c, rest, _, hblank, hdelimiter, hkey, rfl⟩
  · trivial
  · obtain ⟨hempty, htrimmed, _⟩ := headerName?_eq_some hname
    exact ⟨by simpa using hempty, by simpa using htrimmed, hcontent⟩
  · rw [content, List.mem_append, not_or, String.toList_ofList] at hcontent
    refine ⟨?_, hcontent.2⟩
    rw [String.toList_ofList]
    exact legibleKey_splitEntry hblank hdelimiter hkey hcontent.1

end Line

/-! ## What a file is read from -/

namespace ConfigFile

theorem mem_setSection {config : ConfigFile} {name : String} {options : OptionMap}
    {named : String × OptionMap} :
    named ∈ (config.setSection name options).sections.entries ↔
      named = (name, options) ∨ named.1 ≠ name ∧ named ∈ config.sections.entries :=
  OrderedMap.mem_entries_insert

theorem mem_keys_setSection {config : ConfigFile} {name other : String} {options : OptionMap} :
    other ∈ (config.setSection name options).sections.keys ↔
      other = name ∨ other ∈ config.sections.keys := by
  rw [setSection, OrderedMap.keys_insert]
  split
  next h =>
    refine ⟨.inr, ?_⟩
    rintro (rfl | hold)
    · exact h
    · exact hold
  next => rw [List.mem_append, List.mem_singleton, or_comm]

theorem section?_setSection (config : ConfigFile) (name : String) (options : OptionMap)
    (other : String) :
    (config.setSection name options).section? other =
      if other = name then some options else config.section? other :=
  OrderedMap.get?_insert _ _ _ _

theorem mem_entriesOf {config : ConfigFile} {name : String} {entry : String × String}
    (h : entry ∈ (config.entriesOf name).entries) :
    ∃ options, (name, options) ∈ config.sections.entries ∧ entry ∈ options.entries := by
  unfold entriesOf at h
  cases hsection : config.section? name with
  | none =>
      rw [hsection] at h
      cases h
  | some options =>
      rw [hsection] at h
      exact ⟨options, OrderedMap.get?_eq_some_iff.mp hsection, h⟩

theorem legible_empty : empty.Legible where
  name named hnamed := by cases hnamed
  entry named hnamed := by cases hnamed
  unnamed options hoptions := by cases hoptions

/-- A file stays one whose lines can be written if a section of it gets new entries that can be. -/
theorem Legible.setSection {config : ConfigFile} (h : config.Legible) {name : String}
    {options : OptionMap} (hname : name ≠ "" → (Line.header name).Legible)
    (hentry : ∀ entry ∈ options.entries, (Line.entry entry.1 entry.2).Legible)
    (hunnamed : name = "" → options.entries ≠ []) : (config.setSection name options).Legible where
  name named hnamed := by
    rcases mem_setSection.mp hnamed with rfl | ⟨_, hold⟩
    · exact hname
    · exact h.name named hold
  entry named hnamed := by
    rcases mem_setSection.mp hnamed with rfl | ⟨_, hold⟩
    · exact hentry
    · exact h.entry named hold
  unnamed found hfound := by
    rw [section?_setSection] at hfound
    split at hfound
    next heq =>
      cases hfound
      exact hunnamed heq.symm
    next => exact h.unnamed found hfound

end ConfigFile

namespace Reading

/-- The lines taken in so far can be written again, and the section that entries go to is open
unless it is the one without a name. -/
structure Legible (reading : Reading) : Prop where
  config : reading.config.Legible
  current : reading.current ≠ "" → reading.current ∈ reading.config.sections.keys

theorem legible_start : start.Legible :=
  ⟨ConfigFile.legible_empty, fun h => absurd rfl h⟩

theorem Legible.add {reading : Reading} (h : reading.Legible) {line : Line}
    (hline : line.Legible) : (reading.add line).Legible := by
  have hentries : ∀ name, ∀ entry ∈ (reading.config.entriesOf name).entries,
      (Line.entry entry.1 entry.2).Legible := by
    intro name entry hentry
    obtain ⟨options, hmem, hentry⟩ := ConfigFile.mem_entriesOf hentry
    exact h.config.entry _ hmem entry hentry
  cases line with
  | ignored => exact h
  | header name =>
      constructor
      · exact h.config.setSection (fun _ => hline) (hentries name) fun heq => absurd heq hline.1
      · exact fun _ => ConfigFile.mem_keys_setSection.mpr (.inl rfl)
  | entry key value =>
      have hheader : reading.current ≠ "" → (Line.header reading.current).Legible := by
        intro hcurrent
        obtain ⟨named, hnamed, heq⟩ := List.mem_map.mp (h.current hcurrent)
        rw [← heq] at hcurrent ⊢
        exact h.config.name named hnamed hcurrent
      have hinserted : ((reading.config.entriesOf reading.current).insert key value).entries ≠ [] :=
        List.ne_nil_of_mem (OrderedMap.mem_entries_insert.mpr (.inl rfl))
      constructor
      · refine h.config.setSection hheader ?_ fun _ => hinserted
        intro entry hentry
        rcases OrderedMap.mem_entries_insert.mp hentry with rfl | ⟨_, hold⟩
        · exact hline
        · exact hentries reading.current entry hold
      · exact fun _ => ConfigFile.mem_keys_setSection.mpr (.inl rfl)

theorem Legible.addLines {raws : List (List Char)} (hfeed : ∀ raw ∈ raws, '\n' ∉ raw)
    {reading after : Reading} (h : reading.Legible) {number : Nat}
    (hread : reading.addLines number raws = .ok after) : after.Legible := by
  induction raws generalizing reading number with
  | nil =>
      cases hread
      exact h
  | cons raw rest ih =>
      obtain ⟨hraw, hrest⟩ := List.forall_mem_cons.mp hfeed
      rw [Reading.addLines] at hread
      split at hread
      next line hline => exact ih hrest (h.add (Line.legible_of_read hraw hline)) hread
      next => cases hread

end Reading

namespace ConfigFile

open Reading

theorem exists_reading_of_parse {text : String} {config : ConfigFile}
    (h : parse text = .ok config) :
    ∃ reading, start.addLines 1 (Text.lines (withoutMark text.toList)) = .ok reading ∧
      reading.config = config :=
  exists_of_map_eq_ok (eq_ok_of_mapError_eq_ok h)

/-- The lines of a file that is read from a text can be written again. -/
theorem legible_of_parse {text : String} {config : ConfigFile} (h : parse text = .ok config) :
    config.Legible := by
  obtain ⟨reading, hread, rfl⟩ := exists_reading_of_parse h
  exact (legible_start.addLines (fun _ => Text.lineFeed_not_mem_lines) hread).config

/-! ## Reading makes no characters -/

/-- The characters of entries that a file keeps. -/
def entriesContent (options : OptionMap) : List Char :=
  options.entries.flatMap fun entry => (Line.entry entry.1 entry.2).content

/-- The characters of a section that a file keeps. -/
def sectionContent (named : String × OptionMap) : List Char :=
  named.1.toList ++ entriesContent named.2

/-- The characters that a file keeps. -/
def content (config : ConfigFile) : List Char :=
  config.sections.entries.flatMap sectionContent

theorem count_sectionContent (name : String) (options : OptionMap) (x : Char) :
    (sectionContent (name, options)).count x =
      name.toList.count x + (entriesContent options).count x :=
  List.count_append

theorem count_sectionContent_insert (name : String) (options : OptionMap) (key value : String)
    (x : Char) :
    (sectionContent (name, options.insert key value)).count x ≤
      (sectionContent (name, options)).count x + (Line.entry key value).content.count x := by
  have hle : (entriesContent (options.insert key value)).count x ≤
      (entriesContent options).count x + (Line.entry key value).content.count x :=
    OrderedMap.count_flatMap_setEntry_le _ x (fun _ => Nat.le_refl _)
      fun _ _ => Nat.le_add_left _ _
  rw [count_sectionContent, count_sectionContent]
  omega

end ConfigFile

namespace Reading

open ConfigFile

/-- A line adds no more to a file than what it says. -/
theorem count_content_add {reading : Reading} (h : reading.Legible) (line : Line) (x : Char) :
    (reading.add line).config.content.count x ≤
      reading.config.content.count x + line.content.count x := by
  have hold : ∀ name options, (name, options) ∈ reading.config.sections.entries →
      reading.config.entriesOf name = options := by
    intro name options hmem
    rw [entriesOf, section?, OrderedMap.get?_eq_some_iff.mpr hmem]
    rfl
  cases line with
  | ignored => exact Nat.le_add_right _ _
  | header name =>
      apply OrderedMap.count_flatMap_setEntry_le sectionContent
      · intro hnew
        rw [entriesOf_of_not_mem hnew, count_sectionContent]
        exact Nat.le_refl _
      · intro options hmem
        rw [hold name options hmem]
        exact Nat.le_add_right _ _
  | entry key value =>
      apply OrderedMap.count_flatMap_setEntry_le sectionContent
      · intro hnew
        -- only the section without a name can be new here, and its name adds nothing
        have hcurrent : reading.current = "" := Decidable.not_not.mp fun hne => hnew (h.current hne)
        have hle := count_sectionContent_insert reading.current .empty key value x
        have hempty : (sectionContent (reading.current, .empty)).count x = 0 := by
          rw [hcurrent]
          rfl
        rw [entriesOf_of_not_mem hnew]
        omega
      · intro options hmem
        rw [hold reading.current options hmem]
        exact count_sectionContent_insert reading.current options key value x

theorem count_content_addLines {raws : List (List Char)} (hfeed : ∀ raw ∈ raws, '\n' ∉ raw)
    {reading after : Reading} (h : reading.Legible) {number : Nat}
    (hread : reading.addLines number raws = .ok after) (x : Char) :
    after.config.content.count x ≤ reading.config.content.count x + raws.flatten.count x := by
  induction raws generalizing reading number with
  | nil =>
      cases hread
      exact Nat.le_add_right _ _
  | cons raw rest ih =>
      obtain ⟨hraw, hrest⟩ := List.forall_mem_cons.mp hfeed
      rw [addLines] at hread
      split at hread
      next line hline =>
        have hstep := count_content_add h line x
        have hcontent := (Line.content_sublist_of_read hline).count_le x
        have hafter := ih hrest (h.add (Line.legible_of_read hraw hline)) hread
        rw [List.flatten_cons, List.count_append]
        omega
      next => cases hread

end Reading

namespace ConfigFile

open Reading

/-- A file holds a character at most as often as the lines that it is read from. -/
theorem count_content_le {text : String} {config : ConfigFile} (h : parse text = .ok config)
    (x : Char) :
    config.content.count x ≤ (Text.lines (withoutMark text.toList)).flatten.count x := by
  obtain ⟨reading, hread, rfl⟩ := exists_reading_of_parse h
  have hle := count_content_addLines (fun _ => Text.lineFeed_not_mem_lines) legible_start hread x
  have hstart : start.config.content.count x = 0 := rfl
  omega

/-! ### What is written for a file -/

/-- The character is none that writing adds. -/
abbrev IsInk (x : Char) : Prop :=
  x ≠ '=' ∧ x ≠ '[' ∧ x ≠ ']' ∧ x ≠ '\n'

theorem count_flatMap_congr {α : Type} {text other : α → List Char} {x : Char}
    (h : ∀ item, (text item).count x = (other item).count x) (items : List α) :
    (items.flatMap text).count x = (items.flatMap other).count x := by
  induction items with
  | nil => rfl
  | cons item rest ih =>
      rw [List.flatMap_cons, List.flatMap_cons, List.count_append, List.count_append, h, ih]

theorem count_renderEntries (options : OptionMap) {x : Char} (hx : IsInk x) :
    (renderEntries options).count x = (entriesContent options).count x := by
  obtain ⟨hequals, _, _, hfeed⟩ := hx
  apply count_flatMap_congr
  intro entry
  simp [Line.content, hequals.symm, hfeed.symm]

theorem count_renderSection (named : String × OptionMap) {x : Char} (hx : IsInk x) :
    (renderSection named).count x = (sectionContent named).count x := by
  obtain ⟨name, options⟩ := named
  have hentries := count_renderEntries options hx
  obtain ⟨_, hopening, hclosing, hfeed⟩ := hx
  rw [count_sectionContent, ← hentries]
  simp [renderSection, hopening.symm, hclosing.symm, hfeed.symm]

theorem count_renderSeparated (sections : List (String × OptionMap)) {x : Char} (hx : IsInk x) :
    (renderSeparated sections).count x = (sections.flatMap sectionContent).count x := by
  apply count_flatMap_congr
  intro named
  have hsection := count_renderSection named hx
  obtain ⟨_, _, _, hfeed⟩ := hx
  simpa [List.count_cons, hfeed.symm] using hsection

/-- What is written for a file are its own characters, and those that writing adds. -/
theorem count_renderChars (config : ConfigFile) {x : Char} (hx : IsInk x) :
    config.renderChars.count x = config.content.count x := by
  rw [content, ← (config.arranged_perm.flatMap_right sectionContent).count_eq]
  cases hunnamed : config.section? "" with
  | some options =>
      simp only [renderChars, arranged, hunnamed, List.count_append, List.flatMap_cons,
        count_renderEntries options hx, count_renderSeparated _ hx, count_sectionContent]
      simp
  | none =>
      cases hnamed : config.named with
      | nil => simp [renderChars, arranged, hunnamed, hnamed]
      | cons first rest =>
          simp only [renderChars, arranged, hunnamed, hnamed, List.count_append,
            List.flatMap_cons, count_renderSection first hx, count_renderSeparated rest hx]

/-! ## Files that are read again as they are -/

theorem mem_script_of_entry {config : ConfigFile} {named : String × OptionMap}
    (hnamed : named ∈ config.sections.entries) {entry : String × String}
    (hentry : entry ∈ named.2.entries) : Line.entry entry.1 entry.2 ∈ config.script := by
  have hline : Line.entry entry.1 entry.2 ∈ entryScript named.2 :=
    List.mem_map.mpr ⟨entry, hentry, rfl⟩
  have hsection : Line.entry entry.1 entry.2 ∈ sectionScript named :=
    List.mem_cons_of_mem _ hline
  have hseparated : ∀ sections, named ∈ sections →
      Line.entry entry.1 entry.2 ∈ separatedScript sections := fun sections hmem =>
    List.mem_flatMap.mpr ⟨named, hmem, List.mem_cons_of_mem _ hsection⟩
  by_cases hname : named.1 = ""
  · have hunnamed : config.section? "" = some named.2 :=
      OrderedMap.get?_eq_some_iff.mpr (hname ▸ hnamed)
    simp only [script, hunnamed]
    exact List.mem_append_left _ hline
  · have hmem : named ∈ config.named := mem_named.mpr ⟨hnamed, hname⟩
    unfold script
    split
    · exact List.mem_append_right _ (hseparated _ hmem)
    · split
      next heq =>
        rw [heq] at hmem
        cases hmem
      next first rest heq =>
        rw [heq] at hmem
        rcases List.mem_cons.mp hmem with rfl | hrest
        · exact List.mem_append_left _ hsection
        · exact List.mem_append_right _ (hseparated rest hrest)

/-- A carriage return at the end of a value is written right before a line feed. -/
theorem infix_renderChars {config : ConfigFile} {named : String × OptionMap}
    (hnamed : named ∈ config.sections.entries) {entry : String × String}
    (hentry : entry ∈ named.2.entries) (hlast : entry.2.toList.getLast? = some '\r') :
    ['\r', '\n'] <:+: config.renderChars := by
  obtain ⟨front, hvalue⟩ := List.getLast?_eq_some_iff.mp hlast
  have hline : (Line.entry entry.1 entry.2).write ∈ config.script.map Line.write :=
    List.mem_map_of_mem (mem_script_of_entry hnamed hentry)
  rw [renderChars_eq_script]
  apply List.IsInfix.trans _ (Text.infix_unlines hline)
  refine ⟨entry.1.toList ++ '=' :: front, [], ?_⟩
  simp [Line.write, hvalue]

theorem infix_withoutMark {text : List Char} (h : ['\r', '\n'] <:+: text) :
    ['\r', '\n'] <:+: withoutMark text := by
  cases text with
  | nil => exact h
  | cons c rest =>
      rw [withoutMark]
      split
      next hmark =>
        apply Text.infix_of_infix_cons _ h
        rintro after rfl
        exact absurd hmark (by decide)
      next => exact h

theorem withoutMark_sublist (text : List Char) : (withoutMark text).Sublist text := by
  cases text with
  | nil => exact List.Sublist.refl []
  | cons c rest =>
      rw [withoutMark]
      split
      · exact List.sublist_cons_self c rest
      · exact List.Sublist.refl _

theorem count_withoutMark {text : List Char} (h : text.head? = some '\uFEFF') :
    (withoutMark text).count '\uFEFF' < text.count '\uFEFF' := by
  obtain ⟨rest, rfl⟩ := List.head?_eq_some_iff.mp h
  rw [withoutMark, if_pos rfl, List.count_cons_self]
  exact Nat.lt_succ_self _

/-- A file with the same text as the one that it was read from holds every character as often as
the lines of that text do. -/
theorem count_render_le {config again : ConfigFile} (hparse : parse config.render = .ok again)
    (hrender : again.render = config.render) {x : Char} (hx : IsInk x) :
    config.renderChars.count x ≤ (Text.lines (withoutMark config.renderChars)).flatten.count x := by
  have hchars : again.renderChars = config.renderChars := by
    simpa [render] using congrArg String.toList hrender
  have hle := count_content_le hparse x
  rw [render, String.toList_ofList] at hle
  calc
    config.renderChars.count x = again.content.count x := by
      rw [← hchars, count_renderChars again hx]
    _ ≤ (Text.lines (withoutMark config.renderChars)).flatten.count x := hle

/-- A file that was read from a text is read again from what is written for it, as the same file
with the same text, exactly if no value of it ends in a carriage return and the first key of its
section without a name does not begin with a byte-order mark. -/
theorem reread_iff {text : String} {config : ConfigFile} (h : parse text = .ok config) :
    (∃ again, parse config.render = .ok again ∧ again.agrees config = true ∧
      again.render = config.render) ↔ config.Stable := by
  have hlegible := legible_of_parse h
  constructor
  · rintro ⟨again, hparse, _, hrender⟩
    constructor
    · intro named hnamed entry hentry hlast
      have hinfix := infix_renderChars hnamed hentry hlast
      have hle := count_render_le hparse hrender (show IsInk '\r' by decide)
      have hlost := Text.count_flatten_lines_lt (infix_withoutMark hinfix)
      have hsublist := (withoutMark_sublist config.renderChars).count_le '\r'
      omega
    · intro options entry rest hoptions hcons hhead
      have hmark := hlegible.head?_renderChars.mpr ⟨options, entry, rest, hoptions, hcons, hhead⟩
      have hle := count_render_le hparse hrender (show IsInk '\uFEFF' by decide)
      have hlost := count_withoutMark hmark
      have hsublist :=
        (Text.flatten_lines_sublist (withoutMark config.renderChars)).count_le '\uFEFF'
      omega
  · intro hstable
    refine ⟨config.inOrder, ?_, config.agrees_inOrder, config.render_inOrder⟩
    rw [parse, parseFrom, hlegible.read_render hstable]
    rfl

/-- A text with carriage returns inside a key and a value, a byte-order mark inside and at the
start, and a header with a bracket and blanks in it that stands there twice. -/
theorem reread_iff_stray_returns :
    let config := (empty.setSection "" (.ofList [("k\rl", "\rx = y")])).setSection "]s"
      (.ofList [("\uFEFFm", " 1")])
    parse "\uFEFFk\rl =\rx = y\r\n[ ]s ]\r\n\uFEFFm= 1\n[]s]" = .ok config ∧
      ∃ again, parse config.render = .ok again ∧ again.agrees config = true ∧
        again.render = config.render := by
  intro config
  have hparse : parse "\uFEFFk\rl =\rx = y\r\n[ ]s ]\r\n\uFEFFm= 1\n[]s]" = .ok config := rfl
  have hstable : config.Stable := by
    refine ⟨by decide, ?_⟩
    intro options entry rest hoptions hcons
    have hsection : config.section? "" = some (.ofList [("k\rl", "\rx = y")]) := rfl
    rw [hsection] at hoptions
    cases hoptions
    cases hcons
    decide
  exact ⟨hparse, (reread_iff hparse).mpr hstable⟩

/-- A carriage return at the end of a text belongs to the value there, and is lost when the value is
written and read again. -/
theorem reread_loses_last_return :
    ∃ config, parse "k=v\r" = .ok config ∧
      ¬∃ again, parse config.render = .ok again ∧ again.agrees config = true ∧
        again.render = config.render := by
  refine ⟨empty.setSection "" (.ofList [("k", "v\r")]), rfl, ?_⟩
  rintro ⟨again, hparse, hagrees, _⟩
  have hread : parse "k=v\r\n" = .ok (empty.setSection "" (.ofList [("k", "v")])) := rfl
  cases hparse.symm.trans hread
  exact absurd hagrees (by decide)

end ConfigFile

end LauncherOptions
