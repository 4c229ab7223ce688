/-! # Hexadecimal numbers in messages

Numbers in base sixteen with lower-case digits, either as short as possible or filled with zeros
to a given width.
-/

namespace LauncherOptions.Text

/-- The number in base sixteen, without leading zeros. -/
def hex (n : Nat) : List Char :=
  Nat.toDigits 16 n

/-- The number in base sixteen with at least `width` digits, marked by a leading `0x`. -/
def hexPadded (width n : Nat) : String :=
  let digits := hex n
  "0x" ++ String.ofList (List.replicate (width - digits.length) '0' ++ digits)

example : hexPadded 2 7 = "0x07" := by decide

example : hexPadded 4 0xd83d = "0xd83d" := by decide

end LauncherOptions.Text
