import Cascade.Text.Numeral
import Cascade.Unicode.GraphemeExtend
import Cascade.Unicode.Printable

/-!
# Texts in quotes

A text is shown between double quotes with every character escaped that is not printable, that would
be drawn together with the quote or that has a meaning of its own inside the quotes.
-/

namespace Cascade.Text

/-- A number in hexadecimal, in lower case. -/
def hexadecimal (n : Nat) : Text :=
  Nat.toDigits 16 n

/-- A character as it stands inside quotes. -/
def escape (c : Char) : Text :=
  if c = '\x00' then ['\\', '0']
  else if c = '\t' then ['\\', 't']
  else if c = '\r' then ['\\', 'r']
  else if c = '\n' then ['\\', 'n']
  else if c = '\x22' then ['\\', '\x22']
  else if c = '\\' then ['\\', '\\']
  else if Unicode.isGraphemeExtend c || !Unicode.isPrintable c then
    ['\\', 'u', '\x7b'] ++ hexadecimal c.toNat ++ ['\x7d']
  else [c]

/-- A text between double quotes. -/
def quoted (text : Text) : Text :=
  '\x22' :: text.flatMap escape ++ ['\x22']

end Cascade.Text
