import LauncherOptions.Text.Combining
import LauncherOptions.Text.Hex
import LauncherOptions.Text.Printable

/-! # Quoted text in messages

Messages quote the text they complain about. Quotes, backslashes, tabs, line ends and the null
character have short escapes; a character that would not show on its own, because it is
unprintable or attaches to the one before it, is written by its number.
-/

namespace LauncherOptions.Text

/-- A character written by its number. -/
def numbered (c : Char) : List Char :=
  "\\u\x7b".toList ++ hex c.toNat ++ ['\x7d']

/-- How a character is written between quotes. -/
def escaped (c : Char) : List Char :=
  if c = '\x00' then ['\\', '0']
  else if c = '\t' then ['\\', 't']
  else if c = '\r' then ['\\', 'r']
  else if c = '\n' then ['\\', 'n']
  else if c = '\\' then ['\\', '\\']
  else if c = '"' then ['\\', '"']
  else if 0x20 ≤ c.toNat && c.toNat < 0x7F then [c]
  else if isCombining c || !isPrintable c then numbered c
  else [c]

/-- The text between quotes, with what would not show escaped. -/
def quoted (text : String) : String :=
  String.ofList ('"' :: text.toList.flatMap escaped ++ ['"'])

example : quoted "a\"b'\n" = "\"a\\\"b'\\n\"" := by decide

example : quoted "e\u0301\x07" = "\"e\\u\x7b301\x7d\\u\x7b7\x7d\"" := by decide +kernel

example : quoted "\u115f\uff76\uff9e" = "\"\\u\x7b115f\x7d\uff76\uff9e\"" := by decide +kernel

end LauncherOptions.Text
