import Cascade.Unicode.Unassigned

/-!
# Printable characters

A character is printable unless it is a control or format character, for private use, a separator
other than the space, a filler without a shape, or unassigned.
-/

namespace Cascade.Unicode

/-- The characters of the general category Cf. -/
def formatRanges : Array (Nat × Nat) :=
  #[(0xAD, 0xAD), (0x600, 0x605), (0x61C, 0x61C), (0x6DD, 0x6DD), (0x70F, 0x70F), (0x890, 0x891),
    (0x8E2, 0x8E2), (0x180E, 0x180E), (0x200B, 0x200F), (0x202A, 0x202E), (0x2060, 0x2064),
    (0x2066, 0x206F), (0xFEFF, 0xFEFF), (0xFFF9, 0xFFFB), (0x110BD, 0x110BD), (0x110CD, 0x110CD),
    (0x13430, 0x1343F), (0x1BCA0, 0x1BCA3), (0x1D173, 0x1D17A), (0xE0001, 0xE0001),
    (0xE0020, 0xE007F)]

/-- The characters of the general categories Zs, Zl and Zp. -/
def separatorRanges : Array (Nat × Nat) :=
  #[(0x20, 0x20), (0xA0, 0xA0), (0x1680, 0x1680), (0x2000, 0x200A), (0x2028, 0x2029),
    (0x202F, 0x202F), (0x205F, 0x205F), (0x3000, 0x3000)]

/-- The characters for private use, the general category Co. -/
def privateRanges : Array (Nat × Nat) :=
  #[(0xE000, 0xF8FF), (0xF0000, 0xFFFFD), (0x100000, 0x10FFFD)]

/-- The letters that fill the place of another one and have no shape of their own. -/
def fillerRanges : Array (Nat × Nat) :=
  #[(0x115F, 0x1160), (0x3164, 0x3164), (0xFFA0, 0xFFA0)]

/-- Whether a character is a control character, the general category Cc. -/
def isControl (c : Char) : Bool :=
  c.toNat < 0x20 || (0x7F ≤ c.toNat && c.toNat < 0xA0)

/-- Whether a character is a space of some width, the general category Zs. -/
def isSpaceSeparator (c : Char) : Bool :=
  inRanges separatorRanges c && c.toNat ≠ 0x2028 && c.toNat ≠ 0x2029

/-- Whether a character can be shown as it is. -/
def isPrintable (c : Char) : Bool :=
  c = ' ' ||
    !(isControl c || inRanges formatRanges c || inRanges separatorRanges c ||
      inRanges privateRanges c || inRanges fillerRanges c || isStillUnassigned c)

end Cascade.Unicode
