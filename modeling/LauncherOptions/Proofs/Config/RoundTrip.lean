import LauncherOptions.Config.Parser
import LauncherOptions.Config.Printer
import LauncherOptions.Proofs.OrderedMap
import LauncherOptions.Proofs.Text.Lines
import LauncherOptions.Proofs.Text.Trim
import LauncherOptions.Proofs.Validation

/-! # Writing and reading configuration texts

The text of a file is the script of its lines, written one after another (`renderChars_eq_script`).
A line that can be written is read as itself (`read_write`), and a reading that takes in the lines
of a section gains that section (`addAll_sectionScript`). So reading the text of a file gives the
file back, with the section without a name in front (`parse_render`).
-/

namespace LauncherOptions

/-! ## Single lines -/

namespace Line

/-- The text of a line. A line without meaning is written as an empty one. -/
def write : Line → List Char
  | .ignored => []
  | .header name => '[' :: name.toList ++ [']']
  | .entry key value => key.toList ++ '=' :: value.toList

/-- The key can be told from the rest of its line. -/
structure LegibleKey (key : List Char) : Prop where
  ne_nil : key ≠ []
  trim_eq : Text.trim key = key
  chars : ∀ c ∈ key, c ≠ '=' ∧ c ≠ '\n'
  head : key.head?.any isDelimiter = false

/-- The line can be written so that it is read as itself. -/
def Legible : Line → Prop
  | .ignored => True
  | .header name => name ≠ "" ∧ Text.trim name.toList = name.toList ∧ '\n' ∉ name.toList
  | .entry key value => LegibleKey key.toList ∧ '\n' ∉ value.toList

theorem ne_lineFeed_of_not_isLineBreak {c : Char} (h : isLineBreak c = false) : c ≠ '\n' := by
  rintro rfl
  cases h

theorem legibleKey_of_validateKey {key : String} (h : validateKey key = .ok ()) :
    LegibleKey key.toList := by
  obtain ⟨hempty, htrim, hchars, hhead⟩ := validateKey_eq_ok_iff.mp h
  refine ⟨hempty, htrim, fun c hc => ?_, hhead⟩
  exact ⟨(hchars c hc).1, ne_lineFeed_of_not_isLineBreak (hchars c hc).2⟩

theorem read_cons_of_not_isDelimiter {c : Char} {rest : List Char}
    (hblank : Text.isBlank c = false) (hdelimiter : isDelimiter c = false) :
    read (c :: rest) =
      if (splitEntry (c :: rest)).1 = [] then .error .emptyKey
      else .ok (.entry (String.ofList (splitEntry (c :: rest)).1)
        (String.ofList (splitEntry (c :: rest)).2)) := by
  simp only [isDelimiter, Bool.or_eq_false_iff, beq_eq_false_iff_ne] at hdelimiter
  obtain ⟨⟨hbracket, hhash⟩, hsemicolon⟩ := hdelimiter
  simp only [read, Text.trimStart_cons_of_not_isBlank hblank,
    Text.trimEnd_cons_of_not_isBlank hblank]
  split
  next heq => cases heq
  next heq => exact absurd (List.cons.inj heq).1 hhash
  next heq => exact absurd (List.cons.inj heq).1 hsemicolon
  next heq => exact absurd (List.cons.inj heq).1 hbracket
  next => rfl

/-- An entry is split at the equals sign after its key, whatever its value holds. -/
theorem splitEntry_append {key : List Char} (hkey : ∀ c ∈ key, c ≠ '=') (value : List Char) :
    splitEntry (key ++ '=' :: value) = (Text.trim key, value) := by
  have hall : ∀ c ∈ key, decide (c ≠ '=') = true := by simpa using hkey
  have hdrop : (key ++ '=' :: value).dropWhile (· ≠ '=') = '=' :: value := by
    rw [List.dropWhile_append_of_pos hall]
    rfl
  have htake : (key ++ '=' :: value).takeWhile (· ≠ '=') = key := by
    rw [List.takeWhile_append_of_pos hall]
    simp
  simp only [splitEntry, hdrop, htake]

theorem read_write_entry {key : String} (hkey : LegibleKey key.toList) (value : String) :
    read (write (.entry key value)) = .ok (.entry key value) := by
  have hsplit := splitEntry_append (fun c hc => (hkey.chars c hc).1) value.toList
  obtain ⟨c, rest, hcons⟩ := List.exists_cons_of_ne_nil hkey.ne_nil
  have hblank : Text.isBlank c = false := Text.isBlank_head_of_trim_eq (hcons ▸ hkey.trim_eq)
  have hdelimiter : isDelimiter c = false := by simpa [hcons] using hkey.head
  rw [hkey.trim_eq, hcons, List.cons_append] at hsplit
  rw [write, hcons, List.cons_append, read_cons_of_not_isDelimiter hblank hdelimiter, hsplit,
    ← hcons, if_neg hkey.ne_nil, String.ofList_toList, String.ofList_toList]

theorem read_write_header {name : String} (hempty : name ≠ "")
    (htrim : Text.trim name.toList = name.toList) :
    read (write (.header name)) = .ok (.header name) := by
  have hstart : Text.trimStart ('[' :: name.toList ++ [']']) = '[' :: name.toList ++ [']'] :=
    Text.trimStart_cons_of_not_isBlank (by decide) _
  have hend : Text.trimEnd ('[' :: name.toList ++ [']']) = '[' :: (name.toList ++ [']']) :=
    Text.trimEnd_concat_of_not_isBlank (by decide) _
  have hname : headerName? (name.toList ++ [']']) = some name.toList := by
    simp [headerName?, htrim, hempty]
  simp only [write, read, hstart, hend, hname, String.ofList_toList]

/-- A line that can be written is read as itself. -/
theorem read_write {line : Line} (h : line.Legible) : read line.write = .ok line := by
  cases line with
  | ignored => rfl
  | header name => exact read_write_header h.1 h.2.1
  | entry key value => exact read_write_entry h.1 value

theorem lineFeed_not_mem_write {line : Line} (h : line.Legible) : '\n' ∉ line.write := by
  cases line with
  | ignored => exact List.not_mem_nil
  | header name => simpa [write] using h.2.2
  | entry key value =>
      have hkey : '\n' ∉ key.toList := fun hmem => (h.1.chars _ hmem).2 rfl
      simp [write, hkey, h.2]

/-- Only an entry can end in a carriage return, and only if its value does. -/
theorem getLast?_write {line : Line}
    (h : ∀ key value, line = .entry key value → value.toList.getLast? ≠ some '\r') :
    line.write.getLast? ≠ some '\r' := by
  cases line with
  | ignored => simp [write]
  | header name => rw [write, List.getLast?_concat]; decide
  | entry key value =>
      have hvalue := h key value rfl
      rw [write, List.getLast?_append, List.getLast?_cons]
      cases hlast : value.toList.getLast? with
      | none => simp
      | some c => simpa [hlast] using hvalue

end Line

/-! ## Taking in lines -/

namespace ConfigFile

theorem entriesOf_setSection (config : ConfigFile) (name : String) (entries : OptionMap) :
    (config.setSection name entries).entriesOf name = entries := by
  rw [entriesOf, section?, setSection, OrderedMap.get?_insert, if_pos rfl]
  rfl

theorem setSection_setSection (config : ConfigFile) (name : String)
    (first second : OptionMap) :
    (config.setSection name first).setSection name second = config.setSection name second := by
  simp only [setSection, OrderedMap.insert_insert]

theorem entriesOf_of_not_mem {config : ConfigFile} {name : String}
    (h : name ∉ config.sections.keys) : config.entriesOf name = .empty := by
  rw [entriesOf, section?, OrderedMap.get?_eq_none_iff.mpr h]
  rfl

end ConfigFile

namespace Reading

/-- Takes in lines one after another. -/
def addAll (reading : Reading) (lines : List Line) : Reading :=
  lines.foldl add reading

theorem addAll_append (reading : Reading) (first second : List Line) :
    reading.addAll (first ++ second) = (reading.addAll first).addAll second :=
  List.foldl_append

/-- Reading lines that can be written is taking them in. -/
theorem addLines_write {lines : List Line} (h : ∀ line ∈ lines, line.Legible)
    (reading : Reading) (number : Nat) :
    reading.addLines number (lines.map Line.write) = .ok (reading.addAll lines) := by
  induction lines generalizing reading number with
  | nil => rfl
  | cons line rest ih =>
      obtain ⟨hline, hrest⟩ := List.forall_mem_cons.mp h
      rw [List.map_cons, addLines, Line.read_write hline]
      exact ih hrest _ _

/-- Entries that follow an entry of the same section are inserted into it. -/
theorem addAll_entries (config : ConfigFile) (name : String) (options : OptionMap)
    (entries : List (String × String)) :
    addAll ⟨config.setSection name options, name⟩
        (entries.map fun entry => .entry entry.1 entry.2) =
      ⟨config.setSection name (options.insertMany entries), name⟩ := by
  induction entries generalizing options with
  | nil => rfl
  | cons entry rest ih =>
      have hstep : add ⟨config.setSection name options, name⟩ (.entry entry.1 entry.2) =
          ⟨config.setSection name (options.insert entry.1 entry.2), name⟩ := by
        rw [add, ConfigFile.entriesOf_setSection, ConfigFile.setSection_setSection]
      rw [OrderedMap.insertMany_cons, ← ih, addAll, List.map_cons, List.foldl_cons, hstep]
      rfl

/-- The lines of the entries of a section. -/
def entryScript (options : OptionMap) : List Line :=
  options.entries.map fun entry => .entry entry.1 entry.2

/-- The lines of a section with a name. -/
def sectionScript (named : String × OptionMap) : List Line :=
  .header named.1 :: entryScript named.2

/-- The lines of sections with a name, an empty line before each. -/
def separatedScript (sections : List (String × OptionMap)) : List Line :=
  sections.flatMap fun named => .ignored :: sectionScript named

/-- The lines of a new section add that section. -/
theorem addAll_sectionScript {reading : Reading} {named : String × OptionMap}
    (hnew : named.1 ∉ reading.config.sections.keys) :
    reading.addAll (sectionScript named) =
      ⟨reading.config.setSection named.1 named.2, named.1⟩ := by
  have hheader : reading.add (.header named.1) =
      ⟨reading.config.setSection named.1 .empty, named.1⟩ := by
    rw [add, ConfigFile.entriesOf_of_not_mem hnew]
  have hentries := addAll_entries reading.config named.1 .empty named.2.entries
  rw [addAll, sectionScript, List.foldl_cons, hheader]
  rw [show OrderedMap.empty.insertMany named.2.entries = named.2 from
    OrderedMap.ofList_entries named.2] at hentries
  exact hentries

theorem addAll_separatedScript {sections : List (String × OptionMap)}
    (hnodup : (sections.map Prod.fst).Nodup) {reading : Reading}
    (hnew : ∀ name ∈ sections.map Prod.fst, name ∉ reading.config.sections.keys) :
    (reading.addAll (separatedScript sections)).config.sections =
      reading.config.sections.insertMany sections := by
  induction sections generalizing reading with
  | nil => rfl
  | cons named rest ih =>
      rw [List.map_cons, List.nodup_cons] at hnodup
      rw [List.map_cons, List.forall_mem_cons] at hnew
      have hsection : reading.addAll (.ignored :: sectionScript named) =
          ⟨reading.config.setSection named.1 named.2, named.1⟩ := addAll_sectionScript hnew.1
      rw [separatedScript, List.flatMap_cons, addAll_append, hsection, OrderedMap.insertMany_cons]
      apply ih hnodup.2
      intro name hname
      rw [ConfigFile.setSection, OrderedMap.keys_insert, if_neg hnew.1, List.mem_append,
        List.mem_singleton]
      rintro (hold | rfl)
      · exact hnew.2 name hname hold
      · exact hnodup.1 hname

/-- The entries at the start of a text, if there are any, make the section without a name. -/
theorem addAll_start_entryScript {options : OptionMap} (h : options.entries ≠ []) :
    start.addAll (entryScript options) = ⟨ConfigFile.empty.setSection "" options, ""⟩ := by
  obtain ⟨entry, rest, hcons⟩ := List.exists_cons_of_ne_nil h
  have hentries := addAll_entries .empty "" (OrderedMap.empty.insert entry.1 entry.2) rest
  have hoptions : (OrderedMap.empty.insert entry.1 entry.2).insertMany rest = options := by
    rw [← OrderedMap.insertMany_cons, ← hcons]
    exact OrderedMap.ofList_entries options
  rw [hoptions] at hentries
  rw [entryScript, hcons, List.map_cons]
  exact hentries

end Reading

/-! ## The script of a file -/

namespace ConfigFile

open Reading

/-- The lines of a file. -/
def script (config : ConfigFile) : List Line :=
  match config.section? "" with
  | some options => entryScript options ++ separatedScript config.named
  | none =>
    match config.named with
    | [] => []
    | first :: rest => sectionScript first ++ separatedScript rest

/-- The sections of a file in the order in which they are written. -/
def arranged (config : ConfigFile) : List (String × OptionMap) :=
  match config.section? "" with
  | some options => ("", options) :: config.named
  | none => config.named

theorem renderEntries_eq_script (options : OptionMap) :
    renderEntries options = Text.unlines ((entryScript options).map Line.write) := by
  simp [renderEntries, entryScript, Text.unlines, List.flatMap_map, Line.write]

theorem renderSection_eq_script (named : String × OptionMap) :
    renderSection named = Text.unlines ((sectionScript named).map Line.write) := by
  rw [renderSection, renderEntries_eq_script]
  simp [sectionScript, Text.unlines, Line.write]

theorem renderSeparated_eq_script (sections : List (String × OptionMap)) :
    renderSeparated sections = Text.unlines ((separatedScript sections).map Line.write) := by
  induction sections with
  | nil => rfl
  | cons named rest ih =>
      have hcons : separatedScript (named :: rest) =
          (.ignored :: sectionScript named) ++ separatedScript rest := rfl
      rw [hcons, List.map_append, Text.unlines_append, ← ih, List.map_cons]
      simp [renderSeparated, renderSection_eq_script, Text.unlines, Line.write]

/-- The text of a file is its script, written line by line. -/
theorem renderChars_eq_script (config : ConfigFile) :
    config.renderChars = Text.unlines (config.script.map Line.write) := by
  cases hunnamed : config.section? "" with
  | some options =>
      simp only [renderChars, script, hunnamed]
      rw [List.map_append, Text.unlines_append, renderEntries_eq_script,
        renderSeparated_eq_script]
  | none =>
      cases hnamed : config.named with
      | nil =>
          simp only [renderChars, script, hunnamed, hnamed]
          rfl
      | cons first rest =>
          simp only [renderChars, script, hunnamed, hnamed]
          rw [List.map_append, Text.unlines_append, renderSection_eq_script,
            renderSeparated_eq_script]

theorem mem_named {config : ConfigFile} {named : String × OptionMap} :
    named ∈ config.named ↔ named ∈ config.sections.entries ∧ named.1 ≠ "" := by
  simp [ConfigFile.named]

theorem nodup_named (config : ConfigFile) : (config.named.map Prod.fst).Nodup :=
  config.sections.nodup.sublist (List.filter_sublist.map Prod.fst)

theorem unnamed_not_mem (config : ConfigFile) : "" ∉ config.named.map Prod.fst := by
  rw [List.mem_map]
  rintro ⟨named, hmem, hname⟩
  exact (mem_named.mp hmem).2 hname

/-- The sections are written in another order, but they are the same ones. -/
theorem mem_arranged {config : ConfigFile} {named : String × OptionMap} :
    named ∈ config.arranged ↔ named ∈ config.sections.entries := by
  obtain ⟨name, options⟩ := named
  have hget : config.section? name = some options ↔ (name, options) ∈ config.sections.entries :=
    OrderedMap.get?_eq_some_iff
  by_cases hname : name = ""
  · subst name
    have hnot : ("", options) ∉ config.named := fun hmem => (mem_named.mp hmem).2 rfl
    rw [← hget]
    cases hunnamed : config.section? "" <;> simp [arranged, hunnamed, hnot, eq_comm]
  · have hnamed : (name, options) ∈ config.named ↔ (name, options) ∈ config.sections.entries :=
      mem_named.trans (and_iff_left hname)
    rw [← hnamed]
    cases hunnamed : config.section? "" <;> simp [arranged, hunnamed, hname]

theorem nodup_arranged (config : ConfigFile) : (config.arranged.map Prod.fst).Nodup := by
  unfold arranged
  split
  · exact List.nodup_cons.mpr ⟨config.unnamed_not_mem, config.nodup_named⟩
  · exact config.nodup_named

/-- The file with its sections in the order in which they are written. -/
def inOrder (config : ConfigFile) : ConfigFile :=
  ⟨⟨config.arranged, config.nodup_arranged⟩⟩

theorem section?_inOrder (config : ConfigFile) (name : String) :
    config.inOrder.section? name = config.section? name := by
  apply Option.ext
  intro options
  rw [section?, section?, OrderedMap.get?_eq_some_iff, OrderedMap.get?_eq_some_iff]
  exact mem_arranged

theorem named_inOrder (config : ConfigFile) : config.inOrder.named = config.named := by
  have hself : config.named.filter (fun named => named.1 ≠ "") = config.named := by
    rw [List.filter_eq_self]
    intro named hmem
    simpa using (mem_named.mp hmem).2
  have hfilter : config.inOrder.named = config.arranged.filter fun named => named.1 ≠ "" := rfl
  rw [hfilter]
  cases hunnamed : config.section? "" <;> simpa [arranged, hunnamed] using hself

theorem render_inOrder (config : ConfigFile) : config.inOrder.render = config.render := by
  simp only [render, renderChars, section?_inOrder, named_inOrder]

theorem arranged_perm (config : ConfigFile) :
    List.Perm config.arranged config.sections.entries := by
  rw [List.perm_ext_iff_of_nodup (.of_map _ config.nodup_arranged)
    (.of_map _ config.sections.nodup)]
  exact fun _ => mem_arranged

theorem agrees_inOrder (config : ConfigFile) : config.inOrder.agrees config = true := by
  simp only [agrees, Bool.and_eq_true, beq_iff_eq, List.all_eq_true, decide_eq_true_eq]
  refine ⟨config.arranged_perm.length_eq, ?_⟩
  rintro ⟨name, options⟩ hmem
  exact OrderedMap.get?_eq_some_iff.mpr (mem_arranged.mp hmem)

/-- Taking in the script of a file from the start gives the file, in the order in which it is
written. A section without a name and without entries leaves no trace in the script. -/
theorem addAll_script {config : ConfigFile}
    (hunnamed : ∀ options, config.section? "" = some options → options.entries ≠ []) :
    (start.addAll config.script).config = config.inOrder := by
  have hinOrder : (⟨.ofList config.arranged⟩ : ConfigFile) = config.inOrder :=
    congrArg ConfigFile.mk (OrderedMap.ofList_entries ⟨config.arranged, config.nodup_arranged⟩)
  rw [← hinOrder]
  apply congrArg ConfigFile.mk
  cases hsection : config.section? "" with
  | some options =>
      have hnew : ∀ name ∈ config.named.map Prod.fst,
          name ∉ (empty.setSection "" options).sections.keys := by
        intro name hname hold
        have hempty : name = "" := List.mem_singleton.mp hold
        exact config.unnamed_not_mem (hempty ▸ hname)
      simp only [script, arranged, hsection]
      rw [addAll_append, addAll_start_entryScript (hunnamed options hsection),
        addAll_separatedScript config.nodup_named hnew]
      rfl
  | none =>
      have hscript : start.addAll config.script = start.addAll (separatedScript config.named) := by
        simp only [script, hsection]
        cases config.named <;> rfl
      rw [hscript, addAll_separatedScript config.nodup_named (fun _ _ => List.not_mem_nil)]
      simp only [arranged, hsection]
      rfl

/-! ## Files that can be written and read again -/

/-- The lines of the file can be written, and there is at least one for the section without a
name. -/
structure Legible (config : ConfigFile) : Prop where
  name : ∀ named ∈ config.sections.entries, named.1 ≠ "" → (Line.header named.1).Legible
  entry : ∀ named ∈ config.sections.entries, ∀ entry ∈ named.2.entries,
    (Line.entry entry.1 entry.2).Legible
  unnamed : ∀ options, config.section? "" = some options → options.entries ≠ []

/-- Nothing of the file is lost between its lines: no value ends in a carriage return, and the text
does not start with a byte-order mark. -/
structure Stable (config : ConfigFile) : Prop where
  value : ∀ named ∈ config.sections.entries, ∀ entry ∈ named.2.entries,
    entry.2.toList.getLast? ≠ some '\r'
  mark : ∀ options entry rest, config.section? "" = some options →
    options.entries = entry :: rest → entry.1.toList.head? ≠ some '\uFEFF'

/-- The names, keys and values of the file fit on a line each and are told apart when the line is
read, and the section without a name, if there is one, has an entry that does not begin with a
byte-order mark. -/
structure Writable (config : ConfigFile) : Prop where
  name_trim : ∀ named ∈ config.sections.entries, named.1 ≠ "" →
    Text.trim named.1.toList = named.1.toList
  name_line : ∀ named ∈ config.sections.entries, ∀ c ∈ named.1.toList, isLineBreak c = false
  key : ∀ named ∈ config.sections.entries, ∀ entry ∈ named.2.entries,
    validateKey entry.1 = .ok ()
  value : ∀ named ∈ config.sections.entries, ∀ entry ∈ named.2.entries,
    ∀ c ∈ entry.2.toList, isLineBreak c = false
  unnamed : ∀ options, config.section? "" = some options →
    ∃ entry rest, options.entries = entry :: rest ∧ entry.1.toList.head? ≠ some '\uFEFF'

theorem lineFeed_not_mem_of_line {text : List Char} (h : ∀ c ∈ text, isLineBreak c = false) :
    '\n' ∉ text :=
  fun hmem => Line.ne_lineFeed_of_not_isLineBreak (h _ hmem) rfl

theorem Writable.legible {config : ConfigFile} (h : config.Writable) : config.Legible where
  name named hnamed hname :=
    ⟨hname, h.name_trim named hnamed hname, lineFeed_not_mem_of_line (h.name_line named hnamed)⟩
  entry named hnamed entry hentry :=
    ⟨Line.legibleKey_of_validateKey (h.key named hnamed entry hentry),
      lineFeed_not_mem_of_line (h.value named hnamed entry hentry)⟩
  unnamed options hoptions := by
    obtain ⟨entry, rest, hcons, _⟩ := h.unnamed options hoptions
    rw [hcons]
    exact List.cons_ne_nil entry rest

theorem Writable.stable {config : ConfigFile} (h : config.Writable) : config.Stable where
  value named hnamed entry hentry hlast := by
    have hreturn := h.value named hnamed entry hentry _ (List.mem_of_getLast? hlast)
    cases hreturn
  mark options entry rest hoptions hcons := by
    obtain ⟨first, more, hfirst, hmark⟩ := h.unnamed options hoptions
    rw [hcons] at hfirst
    rwa [(List.cons.inj hfirst).1]

/-- The lines of a file are empty ones, the headers of its sections and their entries. -/
theorem forall_mem_script {config : ConfigFile} {motive : Line → Prop}
    (hignored : motive .ignored)
    (hheader : ∀ named ∈ config.sections.entries, named.1 ≠ "" → motive (.header named.1))
    (hentry : ∀ named ∈ config.sections.entries, ∀ entry ∈ named.2.entries,
      motive (.entry entry.1 entry.2)) :
    ∀ line ∈ config.script, motive line := by
  have hentries : ∀ named ∈ config.sections.entries, ∀ line ∈ entryScript named.2,
      motive line := by
    intro named hnamed line hline
    obtain ⟨entry, hmem, rfl⟩ := List.mem_map.mp hline
    exact hentry named hnamed entry hmem
  have hsection : ∀ named ∈ config.named, ∀ line ∈ sectionScript named, motive line := by
    intro named hnamed
    obtain ⟨hmem, hname⟩ := mem_named.mp hnamed
    rw [sectionScript, List.forall_mem_cons]
    exact ⟨hheader named hmem hname, hentries named hmem⟩
  have hseparated : ∀ sections ⊆ config.named, ∀ line ∈ separatedScript sections,
      motive line := by
    intro sections hsubset line hline
    obtain ⟨named, hnamed, hline⟩ := List.mem_flatMap.mp hline
    rcases List.mem_cons.mp hline with rfl | hline
    · exact hignored
    · exact hsection named (hsubset hnamed) line hline
  cases hunnamed : config.section? "" with
  | some options =>
      simp only [script, hunnamed, List.forall_mem_append]
      exact ⟨hentries _ (OrderedMap.get?_eq_some_iff.mp hunnamed), hseparated _ fun _ h => h⟩
  | none =>
      cases hnamed : config.named with
      | nil => simp [script, hunnamed, hnamed]
      | cons first rest =>
          rw [hnamed] at hseparated hsection
          simp only [script, hunnamed, hnamed, List.forall_mem_append]
          exact ⟨hsection first List.mem_cons_self,
            hseparated rest (List.subset_cons_self first rest)⟩

theorem withoutMark_eq_self {text : List Char} (h : text.head? ≠ some '\uFEFF') :
    withoutMark text = text := by
  cases text with
  | nil => rfl
  | cons c rest =>
      have hc : c ≠ '\uFEFF' := by simpa using h
      rw [withoutMark, if_neg hc]

/-- The text starts with the first key of the section without a name, or with a bracket. -/
theorem Legible.head?_renderChars {config : ConfigFile} (h : config.Legible) :
    config.renderChars.head? = some '\uFEFF' ↔
      ∃ options entry rest, config.section? "" = some options ∧ options.entries = entry :: rest ∧
        entry.1.toList.head? = some '\uFEFF' := by
  cases hsection : config.section? "" with
  | some options =>
      obtain ⟨entry, rest, hcons⟩ := List.exists_cons_of_ne_nil (h.unnamed options hsection)
      have hmem : ("", options) ∈ config.sections.entries :=
        OrderedMap.get?_eq_some_iff.mp hsection
      have hentry := h.entry _ hmem entry (hcons ▸ List.mem_cons_self)
      obtain ⟨c, tail, hchars⟩ := List.exists_cons_of_ne_nil hentry.1.ne_nil
      have hhead : config.renderChars.head? = entry.1.toList.head? := by
        simp [renderChars, hsection, renderEntries, hcons, hchars]
      rw [hhead]
      constructor
      · exact fun hmark => ⟨options, entry, rest, rfl, hcons, hmark⟩
      · rintro ⟨_, other, more, ⟨⟩, hother, hmark⟩
        rw [hcons] at hother
        rwa [(List.cons.inj hother).1]
  | none => cases hnamed : config.named <;> simp [renderChars, hsection, hnamed, renderSection]

/-- A file whose lines can be written and that loses nothing between them is read back, in the
order in which it is written. -/
theorem Legible.read_render {config : ConfigFile} (h : config.Legible) (hstable : config.Stable) :
    read config.render = .ok config.inOrder := by
  have hlegible : ∀ line ∈ config.script, line.Legible :=
    forall_mem_script trivial h.name h.entry
  have hvalues : ∀ line ∈ config.script,
      ∀ key value, line = .entry key value → value.toList.getLast? ≠ some '\r' := by
    apply forall_mem_script
    · rintro key value ⟨⟩
    · rintro named _ _ key value ⟨⟩
    · rintro named hnamed entry hentry key value ⟨⟩
      exact hstable.value named hnamed entry hentry
  have hmark : config.renderChars.head? ≠ some '\uFEFF' := by
    rw [Ne, h.head?_renderChars]
    rintro ⟨options, entry, rest, hoptions, hcons, hhead⟩
    exact hstable.mark options entry rest hoptions hcons hhead
  have hlines : Text.lines (Text.unlines (config.script.map Line.write)) =
      config.script.map Line.write := by
    apply Text.lines_unlines
    · rw [List.forall_mem_map]
      exact fun line hline => Line.lineFeed_not_mem_write (hlegible line hline)
    · rw [List.forall_mem_map]
      exact fun line hline => Line.getLast?_write (hvalues line hline)
  rw [read, render, String.toList_ofList, withoutMark_eq_self hmark, renderChars_eq_script, hlines,
    addLines_write hlegible, ← addAll_script h.unnamed]
  rfl

theorem read_render {config : ConfigFile} (h : config.Writable) :
    read config.render = .ok config.inOrder :=
  h.legible.read_render h.stable

/-- A file that can be written is read back from its text: the same sections, each with the same
entries in the same order, and so the same text again. -/
theorem parse_render (config : ConfigFile) (h : config.Writable) :
    ∃ again, parse config.render = .ok again ∧ again.agrees config = true ∧
      (∀ name, again.section? name = config.section? name) ∧ again.render = config.render := by
  refine ⟨config.inOrder, ?_, config.agrees_inOrder, config.section?_inOrder,
    config.render_inOrder⟩
  rw [parse, parseFrom, read_render h]
  rfl

/-- A file whose section without a name comes last, with a name that holds brackets and an equals
sign, and with values that look like a header, like a comment or like nothing. -/
theorem parse_render_brackets :
    let config := (empty.setSection "a]=[b" (.ofList [("k", "[x]"), ("l", " #; = ")])).setSection
      "" (.ofList [("m", "\t\u3000"), ("n", "")])
    config.Writable ∧
      ∃ again, parse config.render = .ok again ∧ again.agrees config = true ∧
        (∀ name, again.section? name = config.section? name) ∧ again.render = config.render := by
  intro config
  have h : config.Writable := by
    have hnames : ∀ named ∈ config.sections.entries, validateValue "" named.1 = .ok () := by
      decide
    have hvalues : ∀ named ∈ config.sections.entries, ∀ entry ∈ named.2.entries,
        validateValue entry.1 entry.2 = .ok () := by
      decide
    refine ⟨by decide, ?_, by decide, ?_, ?_⟩
    · intro named hnamed
      exact validateValue_eq_ok_iff.mp (hnames named hnamed)
    · intro named hnamed entry hentry
      exact validateValue_eq_ok_iff.mp (hvalues named hnamed entry hentry)
    · intro options hoptions
      have hsection : config.section? "" = some (.ofList [("m", "\t\u3000"), ("n", "")]) := by
        decide
      rw [hsection] at hoptions
      cases hoptions
      exact ⟨_, _, rfl, by decide⟩
  exact ⟨h, parse_render config h⟩

end ConfigFile

end LauncherOptions
