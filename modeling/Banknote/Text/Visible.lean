import Banknote.Text.Category

/-!
# Text between quotes

`quote` writes a text between double quotes so that a reader can see every character of it: quotes,
backslashes, line breaks and tabs get a backslash, and whatever has no shape of its own is written
as a code point in braces.
-/

namespace Banknote.Text

/-- Characters outside the marks that extend the character before them. -/
def extendingRanges : List (Nat × Nat) := [
    (0x9BE, 0x9BE), (0x9D7, 0x9D7), (0xB3E, 0xB3E), (0xB57, 0xB57), (0xBBE, 0xBBE), (0xBD7, 0xBD7),
    (0xCC2, 0xCC2), (0xCD5, 0xCD6), (0xD3E, 0xD3E), (0xD57, 0xD57), (0xDCF, 0xDCF), (0xDDF, 0xDDF),
    (0x1B35, 0x1B35), (0x200C, 0x200C), (0x302E, 0x302F), (0xFF9E, 0xFF9F), (0x1133E, 0x1133E),
    (0x11357, 0x11357), (0x114B0, 0x114B0), (0x114BD, 0x114BD), (0x115AF, 0x115AF),
    (0x11930, 0x11930), (0x1D165, 0x1D165), (0x1D16E, 0x1D172), (0xE0020, 0xE007F)]

/-- Whether a character is seen on its own: it is assigned, is no control or format character, no
separator but the space, and no mark that extends the character before it. -/
def isVisible (c : Char) : Bool :=
  if c.toNat < 128 then 0x20 ≤ c.toNat && c.toNat < 0x7F
  else match Category.of c with
    | .cc | .cf | .cs | .co | .cn | .zl | .zp | .zs | .mn | .me => false
    | _ => !inRanges extendingRanges c

/-- One character of a quoted text. -/
def quoteChar (c : Char) : List Char :=
  if c = '"' then ['\\', '"']
  else if c = '\\' then ['\\', '\\']
  else if c = '\n' then ['\\', 'n']
  else if c = '\r' then ['\\', 'r']
  else if c = '\t' then ['\\', 't']
  else if c = '\x00' then ['\\', '0']
  else if isVisible c then [c]
  else ['\\', 'u', '{'] ++ Nat.toDigits 16 c.toNat ++ ['}']

/-- A text between double quotes. -/
def quote (s : String) : String := String.ofList ('"' :: s.toList.flatMap quoteChar ++ ['"'])

end Banknote.Text
