import LauncherOptions.Config.Basic
import LauncherOptions.Config.Line
import LauncherOptions.Text.Lines

/-! # Reading configuration texts

The lines of a text are read one after another. A header opens its section, again if it was open
before, and an entry goes to the section opened last. The first line that makes no sense ends the
reading, and its number is reported.
-/

namespace LauncherOptions

/-- What has been read of a configuration text. -/
structure Reading where
  config : ConfigFile
  /-- The name of the section that entries go to. -/
  current : String

namespace Reading

/-- Before the first line, entries go to the section with the empty name. -/
def start : Reading := ⟨.empty, ""⟩

def add (reading : Reading) : Line → Reading
  | .ignored => reading
  | .header name => ⟨reading.config.setSection name (reading.config.entriesOf name), name⟩
  | .entry key value =>
    let entries := (reading.config.entriesOf reading.current).insert key value
    { reading with config := reading.config.setSection reading.current entries }

/-- Takes in the lines of a text, the first of which has the given number. A refusal comes with
the number of the refused line. -/
def addLines (reading : Reading) (number : Nat) :
    List (List Char) → Except (Nat × LineFault) Reading
  | [] => .ok reading
  | raw :: rest =>
    match Line.read raw with
    | .ok line => (reading.add line).addLines (number + 1) rest
    | .error fault => .error (number, fault)

end Reading

namespace ConfigFile

/-- The text without a byte-order mark at its start. -/
def withoutMark : List Char → List Char
  | [] => []
  | c :: rest => if c = '\uFEFF' then rest else c :: rest

/-- The sections of a text, or the number and the fault of its first refused line. -/
def read (text : String) : Except (Nat × LineFault) ConfigFile :=
  (Reading.start.addLines 1 (Text.lines (withoutMark text.toList))).map Reading.config

/-- The sections of a text that comes from `source`. -/
def parseFrom (source : Path) (text : String) : Except Error ConfigFile :=
  (read text).mapError fun (line, fault) => .parse source line fault

/-- The sections of a text that comes from no file. -/
def parse (text : String) : Except Error ConfigFile :=
  parseFrom ⟨"<input>"⟩ text

end ConfigFile

end LauncherOptions
