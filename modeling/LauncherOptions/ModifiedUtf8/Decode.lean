import LauncherOptions.Text.Hex
import LauncherOptions.Text.Utf8

/-! # Reading modified UTF-8

Bytes that could only be plain UTF-8 are checked as such. All others are read code unit by code
unit, each in its shortest form except for the null character's `C0 80`; a leading surrogate has to
be followed at once by a trailing one, and the two make one character.
-/

namespace LauncherOptions.ModifiedUtf8

/-- Why bytes are not modified UTF-8. Offsets count from the start of the bytes. -/
inductive Fault
  /-- Bytes that could only be plain UTF-8 are not. -/
  | notUtf8 (fault : Text.Utf8.Fault)
  /-- A byte that begins no code unit. -/
  | unexpectedByte (byte : UInt8) (offset : Nat)
  /-- A code unit at `offset` that has a shorter form. -/
  | overlong (offset : Nat)
  /-- A byte that should have continued a code unit. -/
  | notContinuation (byte : UInt8) (offset : Nat)
  /-- The bytes end inside a code unit. -/
  | truncated
  /-- A surrogate without its partner. -/
  | loneSurrogate (unit : Nat)
  deriving DecidableEq

def Fault.message : Fault → String
  | .notUtf8 fault => s!"invalid modified UTF-8: {fault.message}"
  | .unexpectedByte byte offset =>
    s!"unexpected byte {Text.hexPadded 2 byte.toNat} at offset {offset} in modified UTF-8"
  | .overlong offset => s!"overlong sequence at offset {offset} in modified UTF-8"
  | .notContinuation byte offset =>
    s!"expected continuation byte at offset {offset}, found {Text.hexPadded 2 byte.toNat}"
  | .truncated => "truncated modified UTF-8"
  | .loneSurrogate unit => s!"unpaired surrogate {Text.hexPadded 4 unit} in Java string"

/-- The six bits of the continuation byte at the front, which stands at `offset`. -/
def continuation (offset : Nat) : List UInt8 → Except Fault Nat
  | [] => .error .truncated
  | byte :: _ =>
    if 0x80 ≤ byte ∧ byte ≤ 0xBF then .ok (byte.toNat - 0x80)
    else .error (.notContinuation byte offset)

/-- The code unit at the front of the bytes, which stands at `offset`, and the number of bytes it
takes. -/
def readUnit (offset : Nat) : List UInt8 → Except Fault (Nat × Nat)
  | [] => .error .truncated
  | first :: rest =>
    if 0x01 ≤ first ∧ first ≤ 0x7F then
      .ok (first.toNat, 1)
    else if 0xC0 ≤ first ∧ first ≤ 0xDF then do
      let second ← continuation (offset + 1) rest
      let unit := (first.toNat - 0xC0) * 0x40 + second
      if unit ≠ 0 ∧ unit < 0x80 then throw (.overlong offset) else return (unit, 2)
    else if 0xE0 ≤ first ∧ first ≤ 0xEF then do
      let second ← continuation (offset + 1) rest
      let third ← continuation (offset + 2) (rest.drop 1)
      let unit := (first.toNat - 0xE0) * 0x1000 + second * 0x40 + third
      if unit < 0x800 then throw (.overlong offset) else return (unit, 3)
    else
      .error (.unexpectedByte first offset)

def isHighSurrogate (unit : Nat) : Bool :=
  0xD800 ≤ unit && unit ≤ 0xDBFF

def isLowSurrogate (unit : Nat) : Bool :=
  0xDC00 ≤ unit && unit ≤ 0xDFFF

def pairedChar (high low : Nat) : Char :=
  Char.ofNat (0x10000 + (high - 0xD800) * 0x400 + (low - 0xDC00))

/-- The characters of the bytes, the first of which stands at `offset` of the whole. Whatever goes
wrong in place of a trailing surrogate is blamed on the leading one. -/
def decodeUnits (offset : Nat) : List UInt8 → Except Fault (List Char)
  | [] => .ok []
  | first :: rest =>
    match readUnit offset (first :: rest) with
    | .error fault => .error fault
    | .ok (unit, size) =>
      let after := rest.drop (size - 1)
      if isHighSurrogate unit then
        match readUnit (offset + size) after with
        | .error _ => .error (.loneSurrogate unit)
        | .ok (low, lowSize) =>
          if isLowSurrogate low then
            (decodeUnits (offset + size + lowSize) (after.drop lowSize)).map
              (pairedChar unit low :: ·)
          else .error (.loneSurrogate unit)
      else if isLowSurrogate unit then .error (.loneSurrogate unit)
      else (decodeUnits (offset + size) after).map (Char.ofNat unit :: ·)
termination_by bytes => bytes.length
decreasing_by all_goals simp only [List.length_cons, List.length_drop]; omega

/-- Whether a byte calls for reading by code units: a null byte, the first byte of the null
character's form or of a surrogate, and those that would begin four bytes. -/
def isSpecialByte (byte : UInt8) : Bool :=
  byte == 0 || byte == 0xC0 || byte == 0xED || 0xF0 ≤ byte

/-- The text whose modified UTF-8 form the bytes are. -/
def decode (bytes : List UInt8) : Except Fault String :=
  if bytes.any isSpecialByte then (decodeUnits 0 bytes).map String.ofList
  else (Text.Utf8.decode bytes).mapError .notUtf8

end LauncherOptions.ModifiedUtf8
