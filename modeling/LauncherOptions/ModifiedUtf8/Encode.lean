import LauncherOptions.Text.Utf8

/-! # Writing modified UTF-8

Strings cross into the virtual machine as modified UTF-8. It is UTF-8 but for two points: the null
character takes the two bytes `C0 80`, so that no byte is zero, and a character beyond U+FFFF is
written as its two surrogates, each in the three-byte form. A text with neither kind of character
has the same bytes in both encodings.
-/

namespace LauncherOptions.ModifiedUtf8

/-- The leading surrogate of a character beyond U+FFFF. -/
def highSurrogate (code : Nat) : Nat :=
  0xD800 + (code - 0x10000) / 0x400

/-- The trailing surrogate of a character beyond U+FFFF. -/
def lowSurrogate (code : Nat) : Nat :=
  0xDC00 + (code - 0x10000) % 0x400

def threeBytes (unit : Nat) : List UInt8 :=
  [UInt8.ofNat (0xE0 + unit / 0x1000), UInt8.ofNat (0x80 + unit / 0x40 % 0x40),
    UInt8.ofNat (0x80 + unit % 0x40)]

/-- Whether a character is written differently from UTF-8. -/
def isSpecial (c : Char) : Bool :=
  c.toNat == 0 || 0xFFFF < c.toNat

def encodeChar (c : Char) : List UInt8 :=
  if c.toNat = 0 then [0xC0, 0x80]
  else if 0xFFFF < c.toNat then
    threeBytes (highSurrogate c.toNat) ++ threeBytes (lowSurrogate c.toNat)
  else String.utf8EncodeChar c

/-- The modified UTF-8 bytes of a text. A text without special characters is copied as UTF-8. -/
def encode (text : String) : List UInt8 :=
  if text.toList.any isSpecial then text.toList.flatMap encodeChar
  else Text.Utf8.encode text

end LauncherOptions.ModifiedUtf8
