/-! # Lines of a text

A line ends with a line feed, and one carriage return right before the line feed belongs to the
line's end. What follows the last line feed is a line too unless it is empty; it keeps whatever
carriage returns it holds.
-/

namespace LauncherOptions.Text

/-- The lines of a text without their ends. -/
def lines : List Char → List (List Char)
  | [] => []
  | '\r' :: '\n' :: rest => [] :: lines rest
  | '\n' :: rest => [] :: lines rest
  | c :: rest =>
    match lines rest with
    | [] => [[c]]
    | line :: more => (c :: line) :: more

example : lines "a\r\n\nb\r".toList = ["a".toList, [], "b\r".toList] := by decide

end LauncherOptions.Text
