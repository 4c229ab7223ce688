import LauncherOptions.Proofs.Config.Reread
import Mathlib.Data.List.Forall2

/-! # The grammar of configuration texts

What a line says (`Means`) and what is wrong with it (`Faulty`) are given by how the line looks, and
reading finds exactly this (`read_eq_ok_iff`, `read_eq_error_iff`). The lines of a text are read up
to the first bad one (`addLines_of_means`, `addLines_of_firstBad`). Main statement: a text is
refused exactly if it has a bad line, and the first one is to blame, whatever comes after it
(`parse_verdict`).
-/

namespace LauncherOptions

/-! ## How a line looks -/

namespace Line

/-- The line is neither blank nor a comment. -/
def Speaks (raw : List Char) : Prop :=
  ∃ c rest, Text.trim raw = c :: rest ∧ c ≠ '#' ∧ c ≠ ';'

/-- The line begins like a header. -/
def Opens (raw : List Char) : Prop :=
  ∃ rest, Text.trim raw = '[' :: rest

/-- The line is a pair of brackets with something between them that is not all blank. -/
def Encloses (raw inner : List Char) : Prop :=
  Text.trim raw = '[' :: (inner ++ [']']) ∧ ∃ c ∈ inner, Text.isBlank c = false

/-- There is an equals sign in the line, and nothing but blanks before it. -/
def Keyless (raw : List Char) : Prop :=
  ∃ before after, Text.trim raw = before ++ '=' :: after ∧ ∀ c ∈ before, Text.isBlank c = true

/-- What is wrong with a line, if anything is. -/
inductive Faulty (raw : List Char) : LineFault → Prop
  | header (hspeaks : Speaks raw) (hopens : Opens raw) (hnone : ¬∃ inner, Encloses raw inner) :
      Faulty raw (.malformedHeader (String.ofList (Text.trim raw)))
  | entry (hspeaks : Speaks raw) (hopens : ¬Opens raw) (hkeyless : Keyless raw) :
      Faulty raw .emptyKey

/-- Something is wrong with the line. -/
def Bad (raw : List Char) : Prop :=
  ∃ fault, Faulty raw fault

/-- What a line says. The key of an entry is what stands before its first equals sign, without the
blanks around it, and the value is all that follows; without an equals sign the whole line is the
key. -/
inductive Means (raw : List Char) : Line → Prop
  | silent (hsilent : ¬Speaks raw) : Means raw .ignored
  | header {inner : List Char} (hinner : Encloses raw inner) :
      Means raw (.header (String.ofList (Text.trim inner)))
  | entry {before value : List Char} (hspeaks : Speaks raw) (hopens : ¬Opens raw)
      (hraw : raw = before ++ '=' :: value) (hfirst : '=' ∉ before)
      (hkey : ∃ c ∈ before, Text.isBlank c = false) :
      Means raw (.entry (String.ofList (Text.trim before)) (String.ofList value))
  | bare (hspeaks : Speaks raw) (hopens : ¬Opens raw) (hraw : '=' ∉ raw) :
      Means raw (.entry (String.ofList (Text.trim raw)) "")

/-! ## Reading a line by its look -/

theorem read_of_not_speaks {raw : List Char} (h : ¬Speaks raw) : read raw = .ok .ignored := by
  cases htrim : Text.trimEnd (Text.trimStart raw) with
  | nil => simp only [read, htrim]
  | cons c rest =>
      by_cases hhash : c = '#'
      · subst hhash
        simp only [read, htrim]
      by_cases hsemicolon : c = ';'
      · subst hsemicolon
        simp only [read, htrim]
      exact absurd ⟨c, rest, htrim, hhash, hsemicolon⟩ h

theorem read_of_opens {raw rest : List Char} (h : Text.trim raw = '[' :: rest) :
    read raw = match headerName? rest with
      | some name => .ok (.header (String.ofList name))
      | none => .error (.malformedHeader (String.ofList (Text.trim raw))) := by
  rw [Text.trim] at h ⊢
  cases hname : headerName? rest with
  | none => simp only [read, h, hname]
  | some name => simp only [read, h, hname]

/-- A line that is neither silent nor begins like a header is split at its equals sign. -/
theorem read_of_speaks {raw : List Char} (hspeaks : Speaks raw) (hopens : ¬Opens raw) :
    read raw =
      if (splitEntry (Text.trimStart raw)).1 = [] then .error .emptyKey
      else .ok (.entry (String.ofList (splitEntry (Text.trimStart raw)).1)
        (String.ofList (splitEntry (Text.trimStart raw)).2)) := by
  obtain ⟨c, rest, htrim, hhash, hsemicolon⟩ := hspeaks
  obtain ⟨hblank, tail, hstart, -⟩ := Text.exists_of_trim_eq_cons htrim
  have hbracket : c ≠ '[' := by
    rintro rfl
    exact hopens ⟨rest, htrim⟩
  have hdelimiter : isDelimiter c = false := by
    simp [isDelimiter, hbracket, hhash, hsemicolon]
  rw [read_of_trimStart hstart hblank, hstart, read_cons_of_not_isDelimiter hblank hdelimiter]

theorem headerName?_concat {inner : List Char} (h : ∃ c ∈ inner, Text.isBlank c = false) :
    headerName? (inner ++ [']']) = some (Text.trim inner) := by
  simp [headerName?, Text.trim_ne_nil_iff.mpr h]

/-- A header with a name ends in a bracket, and not all before it is blank. -/
theorem exists_of_headerName? {rest name : List Char} (h : headerName? rest = some name) :
    ∃ inner, rest = inner ++ [']'] ∧ ∃ c ∈ inner, Text.isBlank c = false := by
  simp only [headerName?] at h
  split at h
  next hlast =>
    obtain ⟨inner, rfl⟩ := List.getLast?_eq_some_iff.mp hlast
    rw [List.dropLast_concat] at h
    split at h
    next => cases h
    next hname => exact ⟨inner, rfl, Text.trim_ne_nil_iff.mp hname⟩
  next => cases h

theorem splitEntry_of_not_mem {line : List Char} (h : '=' ∉ line) :
    splitEntry line = (Text.trimEnd line, []) := by
  have hdrop : line.dropWhile (· ≠ '=') = [] := by
    rw [List.dropWhile_eq_nil_iff]
    intro c hc
    have hne : c ≠ '=' := fun heq => h (heq ▸ hc)
    simpa using hne
  simp only [splitEntry, hdrop]

/-- Nothing but blanks before the equals sign means that the line starts with it. -/
theorem Keyless.trimStart_eq {raw : List Char} (h : Keyless raw) :
    ∃ rest, Text.trimStart raw = '=' :: rest := by
  obtain ⟨before, after, htrim, hblanks⟩ := h
  cases before with
  | nil =>
      obtain ⟨-, tail, hstart, -⟩ := Text.exists_of_trim_eq_cons htrim
      exact ⟨tail, hstart⟩
  | cons c before =>
      obtain ⟨hblank, -⟩ := Text.exists_of_trim_eq_cons htrim
      rw [hblanks c List.mem_cons_self] at hblank
      cases hblank

/-- What a line says is what it is read as. -/
theorem Means.read_eq {raw : List Char} {line : Line} (h : Means raw line) :
    read raw = .ok line := by
  cases h with
  | silent hsilent => exact read_of_not_speaks hsilent
  | header hinner =>
      obtain ⟨htrim, hname⟩ := hinner
      rw [read_of_opens htrim, headerName?_concat hname]
  | @entry before value hspeaks hopens hraw hfirst hkey =>
      have hbefore : ∀ c ∈ Text.trimStart before, c ≠ '=' := by
        rintro c hc rfl
        exact hfirst ((Text.trimStart_sublist before).mem hc)
      have hsplit : splitEntry (Text.trimStart raw) = (Text.trim before, value) := by
        rw [hraw, Text.trimStart_append hkey, splitEntry_append hbefore, Text.trim_trimStart]
      rw [read_of_speaks hspeaks hopens, hsplit, if_neg (Text.trim_ne_nil_iff.mpr hkey)]
  | bare hspeaks hopens hraw =>
      have hsplit : splitEntry (Text.trimStart raw) = (Text.trim raw, []) :=
        splitEntry_of_not_mem fun hmem => hraw ((Text.trimStart_sublist raw).mem hmem)
      have ⟨c, rest, htrim, _⟩ := hspeaks
      have hkey : Text.trim raw ≠ [] := htrim ▸ List.cons_ne_nil c rest
      rw [read_of_speaks hspeaks hopens, hsplit, if_neg hkey]

theorem Faulty.read_eq {raw : List Char} {fault : LineFault} (h : Faulty raw fault) :
    read raw = .error fault := by
  cases h with
  | header _ hopens hnone =>
      obtain ⟨rest, htrim⟩ := hopens
      cases hname : headerName? rest with
      | none => rw [read_of_opens htrim, hname]
      | some name =>
          obtain ⟨inner, rfl, hinner⟩ := exists_of_headerName? hname
          exact absurd ⟨inner, htrim, hinner⟩ hnone
  | entry hspeaks hopens hkeyless =>
      obtain ⟨rest, hstart⟩ := hkeyless.trimStart_eq
      rw [read_of_speaks hspeaks hopens, hstart, if_pos (by rfl)]

/-- Either a line says something or something is wrong with it. -/
theorem means_or_faulty (raw : List Char) :
    (∃ line, Means raw line) ∨ ∃ fault, Faulty raw fault := by
  by_cases hspeaks : Speaks raw
  case neg => exact .inl ⟨_, .silent hspeaks⟩
  by_cases hopens : Opens raw
  · by_cases hinner : ∃ inner, Encloses raw inner
    · obtain ⟨inner, hinner⟩ := hinner
      exact .inl ⟨_, .header hinner⟩
    · exact .inr ⟨_, .header hspeaks hopens hinner⟩
  by_cases hequals : '=' ∈ raw
  case neg => exact .inl ⟨_, .bare hspeaks hopens hequals⟩
  obtain ⟨before, value, hraw, hfirst⟩ := List.eq_append_cons_of_mem hequals
  by_cases hkey : ∃ c ∈ before, Text.isBlank c = false
  · exact .inl ⟨_, .entry hspeaks hopens hraw hfirst hkey⟩
  · have hblanks : ∀ c ∈ before, Text.isBlank c = true := by simpa using hkey
    have htrim : Text.trim raw = '=' :: Text.trimEnd value := by
      rw [hraw, Text.trim, Text.trimStart_append_of_isBlank hblanks,
        Text.trimStart_cons_of_not_isBlank (by decide),
        Text.trimEnd_cons_of_not_isBlank (by decide)]
    exact .inr ⟨_, .entry hspeaks hopens ⟨[], _, htrim, fun _ hc => absurd hc List.not_mem_nil⟩⟩

theorem read_eq_ok_iff {raw : List Char} {line : Line} : read raw = .ok line ↔ Means raw line := by
  refine ⟨fun h => ?_, Means.read_eq⟩
  rcases means_or_faulty raw with ⟨other, hmeans⟩ | ⟨fault, hfaulty⟩
  · cases hmeans.read_eq.symm.trans h
    exact hmeans
  · cases hfaulty.read_eq.symm.trans h

theorem read_eq_error_iff {raw : List Char} {fault : LineFault} :
    read raw = .error fault ↔ Faulty raw fault := by
  refine ⟨fun h => ?_, Faulty.read_eq⟩
  rcases means_or_faulty raw with ⟨line, hmeans⟩ | ⟨other, hfaulty⟩
  · cases hmeans.read_eq.symm.trans h
  · cases hfaulty.read_eq.symm.trans h
    exact hfaulty

theorem not_bad_iff {raw : List Char} : ¬Bad raw ↔ ∃ line, Means raw line := by
  constructor
  · exact (means_or_faulty raw).resolve_right
  · rintro ⟨line, hmeans⟩ ⟨fault, hfaulty⟩
    cases hmeans.read_eq.symm.trans hfaulty.read_eq

/-- The wording of what is wrong with a line. -/
theorem Faulty.message_eq {raw : List Char} {fault : LineFault} (h : Faulty raw fault) :
    (Opens raw ∧ fault.message =
        "malformed section header " ++ Text.quoted (String.ofList (Text.trim raw))) ∨
      (¬Opens raw ∧ fault.message = "entry has an empty key") := by
  cases h with
  | header _ hopens _ => exact .inl ⟨hopens, rfl⟩
  | entry _ hopens _ => exact .inr ⟨hopens, rfl⟩

end Line

/-! ## The lines of a text -/

/-- `bad` is the first bad line, and `before` are the lines before it. -/
structure FirstBad (raws before : List (List Char)) (bad : List Char) : Prop where
  isPrefix : before ++ [bad] <+: raws
  good : ∀ raw ∈ before, ¬Line.Bad raw
  bad : Line.Bad bad

/-- Either all lines say something or there is a first bad one. -/
theorem means_or_firstBad (raws : List (List Char)) :
    (∃ lines, List.Forall₂ Line.Means raws lines) ∨ ∃ before bad, FirstBad raws before bad := by
  induction raws with
  | nil => exact .inl ⟨[], .nil⟩
  | cons raw rest ih =>
      rcases Line.means_or_faulty raw with ⟨line, hline⟩ | hbad
      · rcases ih with ⟨lines, hlines⟩ | ⟨before, bad, hfirst⟩
        · exact .inl ⟨line :: lines, .cons hline hlines⟩
        · refine .inr ⟨raw :: before, bad, ?_, ?_, hfirst.bad⟩
          · exact (List.prefix_cons_inj raw).mpr hfirst.isPrefix
          · exact List.forall_mem_cons.mpr ⟨Line.not_bad_iff.mpr ⟨line, hline⟩, hfirst.good⟩
      · refine .inr ⟨[], raw, List.prefix_append [raw] rest, ?_, hbad⟩
        exact fun _ h => absurd h List.not_mem_nil

theorem forall_not_bad_iff {raws : List (List Char)} :
    (∀ raw ∈ raws, ¬Line.Bad raw) ↔ ∃ lines, List.Forall₂ Line.Means raws lines := by
  constructor
  · intro hgood
    refine (means_or_firstBad raws).resolve_right ?_
    rintro ⟨before, bad, hfirst⟩
    have hmem := hfirst.isPrefix.mem (List.mem_append_right before List.mem_cons_self)
    exact hgood bad hmem hfirst.bad
  · rintro ⟨lines, hlines⟩
    induction hlines with
    | nil => exact fun _ h => absurd h List.not_mem_nil
    | cons hline _ ih => exact List.forall_mem_cons.mpr ⟨Line.not_bad_iff.mpr ⟨_, hline⟩, ih⟩

namespace Reading

/-- Lines that say something are taken in. -/
theorem addLines_of_means {raws : List (List Char)} {lines : List Line}
    (h : List.Forall₂ Line.Means raws lines) (reading : Reading) (number : Nat) :
    reading.addLines number raws = .ok (reading.addAll lines) := by
  induction h generalizing reading number with
  | nil => rfl
  | cons hline _ ih =>
      rw [addLines, hline.read_eq]
      exact ih _ _

/-- The first bad line ends the reading. -/
theorem addLines_of_firstBad {raws before : List (List Char)} {bad : List Char}
    (h : FirstBad raws before bad) {fault : LineFault} (hfault : Line.Faulty bad fault)
    (reading : Reading) (number : Nat) :
    reading.addLines number raws = .error (number + before.length, fault) := by
  obtain ⟨⟨after, rfl⟩, hgood, -⟩ := h
  induction before generalizing reading number with
  | nil =>
      rw [List.nil_append, List.singleton_append, addLines, hfault.read_eq]
      rfl
  | cons raw before ih =>
      obtain ⟨hraw, hbefore⟩ := List.forall_mem_cons.mp hgood
      obtain ⟨line, hline⟩ := Line.not_bad_iff.mp hraw
      have hrest := ih (reading.add line) (number + 1) hbefore
      rw [Nat.add_right_comm] at hrest
      rw [List.cons_append, List.cons_append, addLines, hline.read_eq]
      exact hrest

end Reading

namespace ConfigFile

open Reading

/-- The lines of a text, less the byte-order mark at its start. -/
def rawLines (text : String) : List (List Char) :=
  Text.lines (withoutMark text.toList)

theorem parse_of_means {text : String} {lines : List Line}
    (h : List.Forall₂ Line.Means (rawLines text) lines) :
    parse text = .ok (start.addAll lines).config := by
  rw [rawLines] at h
  rw [parse, parseFrom, read, addLines_of_means h]
  rfl

theorem parse_of_firstBad {text : String} {before : List (List Char)} {bad : List Char}
    (h : FirstBad (rawLines text) before bad) {fault : LineFault}
    (hfault : Line.Faulty bad fault) :
    parse text = .error (.parse ⟨"<input>"⟩ (before.length + 1) fault) := by
  rw [rawLines] at h
  rw [parse, parseFrom, read, addLines_of_firstBad h hfault, Nat.add_comm]
  rfl

theorem parse_eq_ok_iff {text : String} {config : ConfigFile} :
    parse text = .ok config ↔
      ∃ lines, List.Forall₂ Line.Means (rawLines text) lines ∧
        (start.addAll lines).config = config := by
  constructor
  · intro hparse
    rcases means_or_firstBad (rawLines text) with ⟨lines, hlines⟩ | ⟨before, bad, hfirst⟩
    · exact ⟨lines, hlines, Except.ok.inj ((parse_of_means hlines).symm.trans hparse)⟩
    · obtain ⟨fault, hfault⟩ := hfirst.bad
      cases (parse_of_firstBad hfirst hfault).symm.trans hparse
  · rintro ⟨lines, hlines, rfl⟩
    exact parse_of_means hlines

theorem parse_eq_error_iff {text : String} {error : Error} :
    parse text = .error error ↔
      ∃ before bad fault, FirstBad (rawLines text) before bad ∧ Line.Faulty bad fault ∧
        error = .parse ⟨"<input>"⟩ (before.length + 1) fault := by
  constructor
  · intro hparse
    rcases means_or_firstBad (rawLines text) with ⟨lines, hlines⟩ | ⟨before, bad, hfirst⟩
    · cases (parse_of_means hlines).symm.trans hparse
    · obtain ⟨fault, hfault⟩ := hfirst.bad
      have herror := (parse_of_firstBad hfirst hfault).symm.trans hparse
      exact ⟨before, bad, fault, hfirst, hfault, (Except.error.inj herror).symm⟩
  · rintro ⟨before, bad, fault, hfirst, hfault, rfl⟩
    exact parse_of_firstBad hfirst hfault

/-- A text is accepted exactly if none of its lines is bad. Otherwise the error gives the number of
the first bad line, counted from one, and what is wrong with it, in the wording for a header or for
an entry; and what comes after this line has no part in it. -/
theorem parse_verdict (text : String) :
    ((∃ config, parse text = .ok config) ↔ ∀ raw ∈ rawLines text, ¬Line.Bad raw) ∧
      (∀ error, parse text = .error error ↔ ∃ before bad fault,
        FirstBad (rawLines text) before bad ∧ Line.Faulty bad fault ∧
          error = .parse ⟨"<input>"⟩ (before.length + 1) fault) ∧
      (∀ raw fault, Line.Faulty raw fault →
        (Line.Opens raw ∧ fault.message =
          "malformed section header " ++ Text.quoted (String.ofList (Text.trim raw))) ∨
        (¬Line.Opens raw ∧ fault.message = "entry has an empty key")) ∧
      ∀ other before bad, FirstBad (rawLines text) before bad →
        FirstBad (rawLines other) before bad → parse other = parse text := by
  refine ⟨?_, fun _ => parse_eq_error_iff, fun _ _ hfaulty => hfaulty.message_eq, ?_⟩
  · rw [forall_not_bad_iff]
    constructor
    · rintro ⟨config, hparse⟩
      obtain ⟨lines, hlines, -⟩ := parse_eq_ok_iff.mp hparse
      exact ⟨lines, hlines⟩
    · rintro ⟨lines, hlines⟩
      exact ⟨_, parse_of_means hlines⟩
  · intro other before bad hfirst hother
    obtain ⟨fault, hfault⟩ := hfirst.bad
    rw [parse_of_firstBad hother hfault, parse_of_firstBad hfirst hfault]

example : parse "\uFEFF[a]b]\r\n\u3000[x]=y \n= v" =
    .error (.parse ⟨"<input>"⟩ 2 (.malformedHeader "[x]=y")) := rfl

end ConfigFile

end LauncherOptions
