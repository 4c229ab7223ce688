import LauncherOptions.Proofs.Config.Grammar
import Mathlib.Data.List.Induction

/-! # What a configuration text says

An entry belongs to the section of the nearest header above it (`governing`), so it is known for
each line which section and which key it is about (`EntryAt`, `AppearsAt`). A reading that has taken
in some lines holds what these lines say (`Tracks`): one more line keeps this (`Tracks.add`), and so
do all of them (`tracks_addAll`). Main statement: a file that is read from a text gives each key the
value of its last entry and lists sections and keys in the order in which they first stand in the
text (`parse_meaning`).
-/

namespace LauncherOptions

/-! ## Lists in the order of first places -/

/-- The keys are listed once each, in the order of the first places at which they occur. -/
structure ListedByFirst {α : Type} (keys : List α) (occurs : Nat → α → Prop) : Prop where
  nodup : keys.Nodup
  mem_iff : ∀ key, key ∈ keys ↔ ∃ index, occurs index key
  order : keys.Pairwise fun first second =>
    ∃ index, occurs index first ∧ ∀ later, occurs later second → index < later

namespace ListedByFirst

variable {α : Type} {keys : List α} {occurs occurs' : Nat → α → Prop}

theorem nil (h : ∀ index key, ¬occurs index key) : ListedByFirst [] occurs where
  nodup := List.nodup_nil
  mem_iff key := by simp [h]
  order := List.Pairwise.nil

theorem congr (h : ListedByFirst keys occurs)
    (hoccurs : ∀ index key, occurs' index key ↔ occurs index key) :
    ListedByFirst keys occurs' := by
  have heq : occurs' = occurs := by
    funext index key
    exact propext (hoccurs index key)
  rw [heq]
  exact h

/-- A key that occurs at the next place is listed at the end, unless it is listed already. -/
theorem insert [DecidableEq α] (h : ListedByFirst keys occurs) {next : Nat} {new : α}
    (hbound : ∀ index key, occurs index key → index < next)
    (hoccurs : ∀ index key, occurs' index key ↔ occurs index key ∨ index = next ∧ key = new) :
    ListedByFirst (if new ∈ keys then keys else keys ++ [new]) occurs' := by
  have horder : keys.Pairwise fun first second =>
      ∃ index, occurs' index first ∧ ∀ later, occurs' later second → index < later := by
    refine h.order.imp ?_
    rintro first second ⟨index, hindex, hlater⟩
    refine ⟨index, (hoccurs _ _).mpr (.inl hindex), fun later hoccurs' => ?_⟩
    rcases (hoccurs _ _).mp hoccurs' with hold | ⟨rfl, -⟩
    · exact hlater later hold
    · exact hbound index first hindex
  have hmem : ∀ key, (∃ index, occurs' index key) ↔ key ∈ keys ∨ key = new := by
    intro key
    simp only [hoccurs, exists_or, h.mem_iff, exists_eq_left]
  split
  next hnew =>
    refine ⟨h.nodup, fun key => ?_, horder⟩
    rw [hmem, or_iff_left_of_imp]
    rintro rfl
    exact hnew
  next hnew =>
    refine ⟨?_, fun key => ?_, ?_⟩
    · refine List.nodup_append.mpr ⟨h.nodup, List.nodup_singleton new, ?_⟩
      rintro key hkey _ hlast rfl
      exact hnew (List.mem_singleton.mp hlast ▸ hkey)
    · rw [hmem, List.mem_append, List.mem_singleton]
    · refine List.pairwise_append.mpr ⟨horder, List.pairwise_singleton _ new, ?_⟩
      intro key hkey _ hlast
      cases List.mem_singleton.mp hlast
      obtain ⟨index, hindex⟩ := (h.mem_iff key).mp hkey
      refine ⟨index, (hoccurs _ _).mpr (.inl hindex), fun later hlater => ?_⟩
      rcases (hoccurs _ _).mp hlater with hold | ⟨rfl, -⟩
      · exact absurd ((h.mem_iff new).mpr ⟨later, hold⟩) hnew
      · exact hbound index key hindex

end ListedByFirst

/-! ## Which section and which key a line is about -/

namespace Line

def header? : Line → Option String
  | .header name => some name
  | _ => none

/-- The section that an entry after the given lines belongs to: that of the nearest header, and the
one without a name if there is no header. -/
def governing (lines : List Line) : String :=
  (lines.filterMap header?).getLast?.getD ""

/-- The line at a place is an entry of a section. -/
def EntryAt (lines : List Line) (index : Nat) (name key value : String) : Prop :=
  lines[index]? = some (.entry key value) ∧ governing (lines.take index) = name

/-- The line at a place is a header of a section, or an entry of it. -/
def AppearsAt (lines : List Line) (index : Nat) (name : String) : Prop :=
  lines[index]? = some (.header name) ∨ ∃ key value, EntryAt lines index name key value

/-- The last entry of a section under a key has a value. -/
def LastEntry (lines : List Line) (name key value : String) : Prop :=
  ∃ index, EntryAt lines index name key value ∧
    ∀ later other, EntryAt lines later name key other → later ≤ index

theorem governing_concat (lines : List Line) (line : Line) :
    governing (lines ++ [line]) = line.header?.getD (governing lines) := by
  cases line <;> simp [governing, List.filterMap_append, header?]

theorem getElem?_concat_eq_some {lines : List Line} {line found : Line} {index : Nat} :
    (lines ++ [line])[index]? = some found ↔
      lines[index]? = some found ∨ index = lines.length ∧ line = found := by
  rcases Nat.lt_trichotomy index lines.length with hlt | rfl | hgt
  · simp [List.getElem?_append_left hlt, Nat.ne_of_lt hlt]
  · simp
  · have hnone : (lines ++ [line])[index]? = none := by
      rw [List.getElem?_eq_none_iff, List.length_append, List.length_singleton]
      omega
    simp [hnone, Nat.ne_of_gt hgt, Nat.le_of_lt hgt]

section

variable {lines : List Line} {index : Nat} {name key value : String}

theorem EntryAt.lt (h : EntryAt lines index name key value) : index < lines.length :=
  (List.getElem?_eq_some_iff.mp h.1).1

theorem AppearsAt.lt (h : AppearsAt lines index name) : index < lines.length := by
  rcases h with hheader | ⟨key, value, hentry⟩
  · exact (List.getElem?_eq_some_iff.mp hheader).1
  · exact hentry.lt

/-- A line after the given ones can be an entry of the section that governs there. -/
theorem entryAt_concat {line : Line} :
    EntryAt (lines ++ [line]) index name key value ↔
      EntryAt lines index name key value ∨
        index = lines.length ∧ line = .entry key value ∧ governing lines = name := by
  rw [EntryAt, getElem?_concat_eq_some, or_and_right]
  apply or_congr
  · apply and_congr_right
    intro hfound
    have hlt := (List.getElem?_eq_some_iff.mp hfound).1
    rw [List.take_append_of_le_length (Nat.le_of_lt hlt)]
  · rw [and_assoc]
    apply and_congr_right
    rintro rfl
    rw [List.take_left]

/-- An entry is no entry of another section or under another key. -/
theorem entryAt_concat_of_ne {found other : String} (h : governing lines = name → key ≠ other) :
    EntryAt (lines ++ [.entry key value]) index name other found ↔
      EntryAt lines index name other found := by
  rw [entryAt_concat, or_iff_left]
  rintro ⟨-, hline, hname⟩
  exact h hname (Line.entry.inj hline).1

/-- The section that a line after the given ones is about. -/
def about? (lines : List Line) : Line → Option String
  | .ignored => none
  | .header name => some name
  | .entry _ _ => some (governing lines)

theorem appearsAt_concat {line : Line} :
    AppearsAt (lines ++ [line]) index name ↔
      AppearsAt lines index name ∨ index = lines.length ∧ about? lines line = some name := by
  simp only [AppearsAt, getElem?_concat_eq_some, entryAt_concat, exists_or]
  rw [or_or_or_comm]
  apply or_congr_right
  cases line <;> simp [about?, eq_comm]

theorem lastEntry_congr {others : List Line}
    (h : ∀ index value, EntryAt others index name key value ↔ EntryAt lines index name key value) :
    LastEntry others name key value ↔ LastEntry lines name key value := by
  simp only [LastEntry, h]

/-- An entry is the last one when it is read. -/
theorem lastEntry_concat_self {other : String} :
    LastEntry (lines ++ [.entry key value]) (governing lines) key other ↔ value = other := by
  constructor
  · rintro ⟨index, hentry, hlast⟩
    have hle := hlast lines.length value (entryAt_concat.mpr (.inr ⟨rfl, rfl, rfl⟩))
    rcases entryAt_concat.mp hentry with hold | ⟨-, hline, -⟩
    · exact absurd hold.lt (Nat.not_lt.mpr hle)
    · exact (Line.entry.inj hline).2
  · rintro rfl
    refine ⟨lines.length, entryAt_concat.mpr (.inr ⟨rfl, rfl, rfl⟩), fun later other hentry => ?_⟩
    have hlt := hentry.lt
    rw [List.length_append, List.length_singleton] at hlt
    exact Nat.le_of_lt_succ hlt

end

end Line

/-! ## What a reading holds -/

namespace ConfigFile

theorem entriesOf_setSection_eq (config : ConfigFile) (name : String) (options : OptionMap)
    (other : String) :
    (config.setSection name options).entriesOf other =
      if other = name then options else config.entriesOf other := by
  rw [entriesOf, section?_setSection]
  split <;> rfl

theorem get?_eq (config : ConfigFile) (name key : String) :
    config.get? name key = (config.entriesOf name).get? key := by
  rw [get?, entriesOf]
  cases config.section? name <;> rfl

end ConfigFile

namespace Reading

open Line

/-- The reading holds what the lines say: it knows which section entries go to, it lists sections
and keys in the order of their first lines, and each key leads to the value of its last entry. -/
structure Tracks (lines : List Line) (reading : Reading) : Prop where
  current : reading.current = governing lines
  sections : ListedByFirst reading.config.sections.keys (AppearsAt lines)
  keys : ∀ name, ListedByFirst (reading.config.entriesOf name).keys
    fun index key => ∃ value, EntryAt lines index name key value
  values : ∀ name key value, (reading.config.entriesOf name).get? key = some value ↔
    LastEntry lines name key value

theorem tracks_start : Tracks [] start where
  current := rfl
  sections := .nil (by simp [AppearsAt, EntryAt])
  keys name := .nil (by simp [EntryAt])
  values name key value := by
    have hnone : (start.config.entriesOf name).get? key = none := rfl
    simp [hnone, LastEntry, EntryAt]

/-- A line that is no entry leaves the entries as they are. -/
theorem Tracks.concat_of_ne_entry {lines : List Line} {reading after : Reading}
    (h : Tracks lines reading) {line : Line} (hline : ∀ key value, line ≠ .entry key value)
    (hcurrent : after.current = governing (lines ++ [line]))
    (hsections : ListedByFirst after.config.sections.keys (AppearsAt (lines ++ [line])))
    (hentries : ∀ name, after.config.entriesOf name = reading.config.entriesOf name) :
    Tracks (lines ++ [line]) after := by
  have hentryAt : ∀ index name key value,
      EntryAt (lines ++ [line]) index name key value ↔ EntryAt lines index name key value := by
    intro index name key value
    simp [entryAt_concat, hline]
  refine ⟨hcurrent, hsections, fun name => ?_, fun name key value => ?_⟩
  · rw [hentries]
    refine (h.keys name).congr fun index key => ?_
    simp only [hentryAt]
  · rw [hentries, h.values, lastEntry_congr fun index value => hentryAt index name key value]

theorem Tracks.addHeader {lines : List Line} {reading : Reading} (h : Tracks lines reading)
    (name : String) : Tracks (lines ++ [.header name]) (reading.add (.header name)) := by
  have hkeys : (reading.add (.header name)).config.sections.keys =
      if name ∈ reading.config.sections.keys then reading.config.sections.keys
      else reading.config.sections.keys ++ [name] := OrderedMap.keys_insert _ _ _
  apply h.concat_of_ne_entry
  · rintro key value ⟨⟩
  · rw [governing_concat]
    rfl
  · rw [hkeys]
    refine h.sections.insert (fun index key => AppearsAt.lt) fun index other => ?_
    simp [appearsAt_concat, about?, eq_comm]
  · intro other
    rw [Reading.add, ConfigFile.entriesOf_setSection_eq]
    split
    next heq => rw [heq]
    next => rfl

theorem Tracks.addEntry {lines : List Line} {reading : Reading} (h : Tracks lines reading)
    (key value : String) :
    Tracks (lines ++ [.entry key value]) (reading.add (.entry key value)) := by
  have hkeys : (reading.add (.entry key value)).config.sections.keys =
      if reading.current ∈ reading.config.sections.keys then reading.config.sections.keys
      else reading.config.sections.keys ++ [reading.current] := OrderedMap.keys_insert _ _ _
  have hentries : ∀ name, (reading.add (.entry key value)).config.entriesOf name =
      if name = reading.current then (reading.config.entriesOf reading.current).insert key value
      else reading.config.entriesOf name :=
    ConfigFile.entriesOf_setSection_eq _ _ _
  refine ⟨?_, ?_, fun name => ?_, fun name other found => ?_⟩
  · rw [governing_concat]
    exact h.current
  · rw [hkeys]
    refine h.sections.insert (fun index key => AppearsAt.lt) fun index other => ?_
    simp [appearsAt_concat, about?, h.current, eq_comm]
  · rw [hentries]
    split
    next hname =>
      subst hname
      rw [OrderedMap.keys_insert]
      refine (h.keys _).insert (fun index other ⟨_, hentry⟩ => hentry.lt) fun index other => ?_
      simp [entryAt_concat, exists_or, h.current, eq_comm]
    next hname =>
      refine (h.keys name).congr fun index other => exists_congr fun found => ?_
      exact entryAt_concat_of_ne fun heq => absurd (heq.symm.trans h.current.symm) hname
  · rw [hentries]
    split
    next hname =>
      subst hname
      rw [OrderedMap.get?_insert]
      split
      next hother => rw [hother, h.current, lastEntry_concat_self, Option.some_inj]
      next hother =>
        rw [h.values]
        refine (lastEntry_congr fun index found => entryAt_concat_of_ne fun _ => ?_).symm
        exact fun heq => hother heq.symm
    next hname =>
      rw [h.values]
      refine (lastEntry_congr fun index found => entryAt_concat_of_ne fun heq => ?_).symm
      exact absurd (heq.symm.trans h.current.symm) hname

/-- One more line is taken in. -/
theorem Tracks.add {lines : List Line} {reading : Reading} (h : Tracks lines reading)
    (line : Line) : Tracks (lines ++ [line]) (reading.add line) := by
  cases line with
  | ignored =>
      apply h.concat_of_ne_entry
      · rintro key value ⟨⟩
      · rw [governing_concat]
        exact h.current
      · refine h.sections.congr fun index name => ?_
        simp [appearsAt_concat, about?]
      · exact fun name => rfl
  | header name => exact h.addHeader name
  | entry key value => exact h.addEntry key value

theorem tracks_addAll (lines : List Line) : Tracks lines (start.addAll lines) := by
  induction lines using List.reverseRecOn with
  | nil => exact tracks_start
  | append_singleton lines line ih =>
      rw [addAll_append]
      exact ih.add line

end Reading

/-! ## What a file says -/

namespace Line

theorem mem_of_header? {lines : List Line} {name : String} (h : name ∈ lines.filterMap header?) :
    .header name ∈ lines := by
  obtain ⟨line, hline, hname⟩ := List.mem_filterMap.mp h
  cases line with
  | header other => exact Option.some.inj hname ▸ hline
  | ignored => cases hname
  | entry key value => cases hname

/-- A section with a name governs only after a header of it. -/
theorem header_mem_of_governing {lines : List Line} {name : String} (h : governing lines = name)
    (hname : name ≠ "") : .header name ∈ lines := by
  unfold governing at h
  cases hlast : (lines.filterMap header?).getLast? with
  | none =>
      rw [hlast] at h
      exact absurd h.symm hname
  | some last =>
      rw [hlast] at h
      exact mem_of_header? (h ▸ List.mem_of_getLast? hlast)

/-- If every header has a name, the section without one governs as long as there is no header. -/
theorem governing_eq_empty_iff {lines : List Line} (h : .header "" ∉ lines) :
    governing lines = "" ↔ ∀ name, .header name ∉ lines := by
  constructor
  · intro hempty name hmem
    have hne : lines.filterMap header? ≠ [] :=
      List.ne_nil_of_mem (List.mem_filterMap.mpr ⟨_, hmem, rfl⟩)
    have hlast := List.getLast?_eq_some_getLast hne
    rw [governing, hlast, Option.getD_some] at hempty
    exact h (mem_of_header? (hempty ▸ List.getLast_mem hne))
  · intro hnone
    by_contra hname
    exact hnone _ (header_mem_of_governing rfl hname)

theorem Means.header_ne_empty {raw : List Char} {name : String} (h : Means raw (.header name)) :
    name ≠ "" := by
  cases h with
  | header hinner =>
      have hne := Text.trim_ne_nil_iff.mpr hinner.2
      simpa using hne

end Line

namespace ConfigFile

open Line Reading

/-- The file says what the lines say. Its keys lead to the values of their last entries, and are
listed in the order of their first ones. There is a section for every header, and one without a name
if an entry stands above all headers; sections are listed in the order of the first lines that are
about them. -/
structure Tells (config : ConfigFile) (lines : List Line) : Prop where
  value : ∀ name key value,
    config.get? name key = some value ↔ LastEntry lines name key value
  keys : ∀ name options, config.section? name = some options →
    ListedByFirst options.keys fun index key => ∃ value, EntryAt lines index name key value
  named : ∀ name, name ≠ "" →
    ((∃ options, config.section? name = some options) ↔
      ∃ index : Nat, lines[index]? = some (.header name))
  unnamed : (∃ options, config.section? "" = some options) ↔
    ∃ index key value, lines[index]? = some (.entry key value) ∧
      ∀ name, .header name ∉ lines.take index
  sections : ListedByFirst config.sections.keys (AppearsAt lines)

theorem exists_section?_iff {config : ConfigFile} {name : String} :
    (∃ options, config.section? name = some options) ↔ name ∈ config.sections.keys :=
  OrderedMap.mem_keys_iff.symm

theorem tells_of_tracks {lines : List Line} {reading : Reading} (h : Tracks lines reading)
    (hnames : .header "" ∉ lines) : reading.config.Tells lines where
  value name key value := by rw [get?_eq, h.values]
  keys name options hoptions := by
    have hkeys := h.keys name
    rw [entriesOf, hoptions] at hkeys
    exact hkeys
  named name hname := by
    rw [exists_section?_iff, h.sections.mem_iff]
    constructor
    · rintro ⟨index, hheader | ⟨key, value, hentry⟩⟩
      · exact ⟨index, hheader⟩
      · have hmem := header_mem_of_governing hentry.2 hname
        exact List.getElem?_of_mem (List.mem_of_mem_take hmem)
    · rintro ⟨index, hheader⟩
      exact ⟨index, .inl hheader⟩
  unnamed := by
    rw [exists_section?_iff, h.sections.mem_iff]
    constructor
    · rintro ⟨index, hheader | ⟨key, value, hentry, hgoverning⟩⟩
      · exact absurd (List.mem_of_getElem? hheader) hnames
      · have habove : .header "" ∉ lines.take index :=
          fun hmem => hnames (List.mem_of_mem_take hmem)
        exact ⟨index, key, value, hentry, (governing_eq_empty_iff habove).mp hgoverning⟩
    · rintro ⟨index, key, value, hentry, hnone⟩
      exact ⟨index, .inr ⟨key, value, hentry, (governing_eq_empty_iff (hnone "")).mpr hnone⟩⟩
  sections := h.sections

theorem header_empty_not_mem {raws : List (List Char)} {lines : List Line}
    (h : List.Forall₂ Line.Means raws lines) : .header "" ∉ lines := by
  induction h with
  | nil => exact List.not_mem_nil
  | cons hline _ ih =>
      rw [List.mem_cons, not_or]
      refine ⟨?_, ih⟩
      rintro rfl
      exact hline.header_ne_empty rfl

/-- A file that is read from a text says what the lines of the text say. -/
theorem parse_meaning {text : String} {config : ConfigFile} (h : parse text = .ok config) :
    ∃ lines, List.Forall₂ Line.Means (rawLines text) lines ∧ config.Tells lines := by
  obtain ⟨lines, hlines, rfl⟩ := parse_eq_ok_iff.mp h
  exact ⟨lines, hlines, tells_of_tracks (tracks_addAll lines) (header_empty_not_mem hlines)⟩

/-- A text with a section that is left and taken up again, a key that comes twice and whose last
value starts with an equals sign, a section without entries, and the same key in two sections. -/
theorem parse_meaning_reopened :
    let config := ((empty.setSection "" (.ofList [("k", "1")])).setSection "b"
      (.ofList [("x", "= 2 "), ("y", ""), ("k", "")])).setSection "a" .empty
    parse "k=1\r\n;c\n[b]\nx = 1\n[ a ]\n\n [b]\ny\n x == 2 \nk=" = .ok config ∧
      ∃ lines, List.Forall₂ Line.Means
        (rawLines "k=1\r\n;c\n[b]\nx = 1\n[ a ]\n\n [b]\ny\n x == 2 \nk=") lines ∧
          config.Tells lines := by
  intro config
  have hparse : parse "k=1\r\n;c\n[b]\nx = 1\n[ a ]\n\n [b]\ny\n x == 2 \nk=" = .ok config := rfl
  exact ⟨hparse, parse_meaning hparse⟩

end ConfigFile

end LauncherOptions
