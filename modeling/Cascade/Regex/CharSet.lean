import Cascade.Text.Blank
import Cascade.Unicode.Alphabetic
import Cascade.Unicode.CaseFolding
import Cascade.Unicode.Digit
import Cascade.Unicode.Lowercase
import Cascade.Unicode.Printable
import Cascade.Unicode.Punctuation
import Cascade.Unicode.Uppercase
import Cascade.Unicode.Word

/-!
# Sets of characters in patterns

A `CharSet` is what one place of a pattern accepts: a character, a range, a class with a name, or a
combination of these. `CharSet.contains` is its meaning. Ranges are held as numbers, since a pattern
may name ends of a range that are no characters.

* `contains_union`, `contains_inter`, `contains_compl`: the combinations mean what they say.
-/

namespace Cascade.Regex

/-- The classes of characters that have a name. -/
inductive CharClass where
  | alphanumeric
  | alphabetic
  | ascii
  | blank
  | control
  | digit
  | graphic
  | lowercase
  | printing
  | punctuation
  | space
  | uppercase
  | hexDigit
  | word
  | wordPart
  deriving DecidableEq, Repr

/-- Whether a character is an ASCII hexadecimal digit. -/
def isHexDigit (c : Char) : Bool :=
  c.isDigit || ('a' ≤ c && c ≤ 'f') || ('A' ≤ c && c ≤ 'F')

/-- Whether a character is assigned and neither blank nor a control character. -/
def isGraphic (c : Char) : Bool :=
  !(Text.isBlank c || Unicode.isControl c || Unicode.isUnassigned c)

/-- Whether a class contains a character. -/
def CharClass.contains : CharClass → Char → Bool
  | .alphanumeric, c => Unicode.isAlphabetic c || Unicode.isDigit c
  | .alphabetic, c => Unicode.isAlphabetic c
  | .ascii, c => c.toNat < 0x80
  | .blank, c => c = '\t' || Unicode.isSpaceSeparator c
  | .control, c => Unicode.isControl c
  | .digit, c => Unicode.isDigit c
  | .graphic, c => isGraphic c
  | .lowercase, c => Unicode.isLowercase c
  | .printing, c => isGraphic c || Unicode.isSpaceSeparator c
  | .punctuation, c => Unicode.isPunctuation c
  | .space, c => Text.isBlank c
  | .uppercase, c => Unicode.isUppercase c
  | .hexDigit, c => isHexDigit c
  | .word, c => Unicode.isWord c
  | .wordPart, c => Unicode.isWordPart c

/-- Whether a class has characters outside of ASCII. -/
def CharClass.isWide (cls : CharClass) : Bool :=
  cls ≠ .ascii && cls ≠ .hexDigit

/-- The first of the bytes that spell a character. -/
def leadByte (c : Char) : Nat :=
  let n := c.toNat
  if n < 0x80 then n
  else if n < 0x800 then 0xC0 + n / 0x40
  else if n < 0x10000 then 0xE0 + n / 0x1000
  else 0xF0 + n / 0x40000

/-- A set of characters. -/
inductive CharSet where
  /-- The empty set. -/
  | none
  /-- One character. -/
  | char (c : Char)
  /-- All characters whose numbers lie between two ends, the ends included. -/
  | range (first last : Nat)
  /-- All characters whose first bytes lie between two ends, the ends included. -/
  | lead (first last : Nat)
  /-- A class with a name. -/
  | named (cls : CharClass)
  /-- What is in one of two sets. -/
  | union (a b : CharSet)
  /-- What is in both of two sets. -/
  | inter (a b : CharSet)
  /-- What is not in a set. -/
  | compl (a : CharSet)
  /-- What differs from a character of a set at most in case. -/
  | folded (a : CharSet)
  deriving DecidableEq, Inhabited, Repr

/-- The set of a class, or of what is not in it. -/
def CharClass.set (cls : CharClass) (negated : Bool) : CharSet :=
  if negated then .compl (.named cls) else .named cls

/-- The set of a class that stands outside of brackets, where words have more parts. -/
def CharClass.outside (cls : CharClass) (negated : Bool) : CharSet :=
  CharClass.set (if cls = .word then .wordPart else cls) negated

/-- Whether a set contains a character. -/
def CharSet.contains : CharSet → Char → Bool
  | .none, _ => false
  | .char c, x => x = c
  | .range first last, x => first ≤ x.toNat && x.toNat ≤ last
  | .lead first last, x => first ≤ leadByte x && leadByte x ≤ last
  | .named cls, x => cls.contains x
  | .union a b, x => a.contains x || b.contains x
  | .inter a b, x => a.contains x && b.contains x
  | .compl a, x => !a.contains x
  | .folded a, x => (Unicode.variants x).any a.contains

namespace CharSet

/-- A union contains what one of its parts contains. -/
theorem contains_union (a b : CharSet) (x : Char) :
    (union a b).contains x = (a.contains x || b.contains x) := rfl

/-- An intersection contains what both of its parts contain. -/
theorem contains_inter (a b : CharSet) (x : Char) :
    (inter a b).contains x = (a.contains x && b.contains x) := rfl

/-- A complement contains what the set does not. -/
theorem contains_compl (a : CharSet) (x : Char) : (compl a).contains x = !a.contains x := rfl

/-- Case folding only adds characters to a set. -/
theorem contains_folded_of_contains {a : CharSet} {x : Char} (h : a.contains x = true) :
    (folded a).contains x = true :=
  List.any_eq_true.2 ⟨x, Unicode.mem_variants_self x, h⟩

end CharSet

end Cascade.Regex
