/-! # Standard UTF-8

The bytes of a text, and the reader that gets the text back. The reader refuses anything but the
shortest form of a scalar value, and a refusal says where the readable part ends and how many of
the bytes after it could still have begun a character.
-/

namespace LauncherOptions.Text.Utf8

def encode (text : String) : List UInt8 :=
  text.toList.flatMap String.utf8EncodeChar

/-- Why bytes are not UTF-8. `index` is the length of the readable part. -/
inductive Fault
  /-- The `length` bytes at `index` begin no character. -/
  | invalid (length index : Nat)
  /-- The bytes end inside a character. -/
  | incomplete (index : Nat)
  deriving DecidableEq

def Fault.message : Fault → String
  | .invalid length index => s!"invalid utf-8 sequence of {length} bytes from index {index}"
  | .incomplete index => s!"incomplete utf-8 byte sequence from index {index}"

/-- The bytes that may follow the first byte of a character of three or four bytes. They leave out
the forms that would be too long, the surrogates and what lies beyond the last scalar value. -/
def secondByteRange (first : UInt8) : UInt8 × UInt8 :=
  if first = 0xE0 then (0xA0, 0xBF)
  else if first = 0xED then (0x80, 0x9F)
  else if first = 0xF0 then (0x90, 0xBF)
  else if first = 0xF4 then (0x80, 0x8F)
  else (0x80, 0xBF)

/-- The byte at the front, which has to lie between the bounds. `length` bytes of the character
came before it, and the character begins at `index`. -/
def expect (bounds : UInt8 × UInt8) (length index : Nat) : List UInt8 → Except Fault Nat
  | [] => .error (.incomplete index)
  | byte :: _ =>
    if bounds.1 ≤ byte ∧ byte ≤ bounds.2 then .ok (byte.toNat - 0x80)
    else .error (.invalid length index)

/-- The code point at the front of the bytes and the number of bytes it takes. -/
def readCodePoint (index : Nat) (first : UInt8) (rest : List UInt8) : Except Fault (Nat × Nat) :=
  if first < 0x80 then
    .ok (first.toNat, 1)
  else if 0xC2 ≤ first ∧ first ≤ 0xDF then do
    let second ← expect (0x80, 0xBF) 1 index rest
    return ((first.toNat - 0xC0) * 0x40 + second, 2)
  else if 0xE0 ≤ first ∧ first ≤ 0xEF then do
    let second ← expect (secondByteRange first) 1 index rest
    let third ← expect (0x80, 0xBF) 2 index (rest.drop 1)
    return ((first.toNat - 0xE0) * 0x1000 + second * 0x40 + third, 3)
  else if 0xF0 ≤ first ∧ first ≤ 0xF4 then do
    let second ← expect (secondByteRange first) 1 index rest
    let third ← expect (0x80, 0xBF) 2 index (rest.drop 1)
    let fourth ← expect (0x80, 0xBF) 3 index (rest.drop 2)
    return ((first.toNat - 0xF0) * 0x40000 + second * 0x1000 + third * 0x40 + fourth, 4)
  else
    .error (.invalid 1 index)

/-- The characters of the bytes, the first of which stands at `index` of the whole. -/
def decodeFrom (index : Nat) : List UInt8 → Except Fault (List Char)
  | [] => .ok []
  | first :: rest => do
    let (code, size) ← readCodePoint index first rest
    let text ← decodeFrom (index + size) (rest.drop (size - 1))
    return Char.ofNat code :: text
termination_by bytes => bytes.length
decreasing_by simp only [List.length_cons, List.length_drop]; omega

/-- The text whose UTF-8 form the bytes are. -/
def decode (bytes : List UInt8) : Except Fault String :=
  (decodeFrom 0 bytes).map String.ofList

end LauncherOptions.Text.Utf8
