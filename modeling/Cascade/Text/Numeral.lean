import Cascade.Text.Basic

/-!
# Decimal numerals

Numbers are written in plain decimal. A numeral that is read may have a plus sign and leading
zeros, and must stay below `wordBound`.

* `decimal`: how a number is written.
* `readNumeral`: the number that a numeral denotes, or the first thing wrong with it.
-/

namespace Cascade.Text

/-- A number in plain decimal. -/
def decimal (n : Nat) : Text :=
  Nat.toDigits 10 n

/-- An integer in plain decimal. -/
def signedDecimal : Int → Text
  | .ofNat n => decimal n
  | .negSucc n => '-' :: decimal (n + 1)

/-- Numerals denote numbers below this bound, those of 64 bits. -/
def wordBound : Nat := 0x10000000000000000

/-- What can be wrong with a numeral. -/
inductive NumeralError where
  /-- There is no text. -/
  | empty
  /-- A character is no digit, or a sign stands alone. -/
  | invalidDigit
  /-- The digits read so far denote a number that is out of range. -/
  | tooLarge
  deriving DecidableEq, Repr

/-- The text shown for a wrong numeral. -/
def NumeralError.message : NumeralError → Text
  | .empty => "cannot parse integer from empty string".toList
  | .invalidDigit => "invalid digit found in string".toList
  | .tooLarge => "number too large to fit in target type".toList

/-- The value of a decimal digit. -/
def digitValue? (c : Char) : Option Nat :=
  if '0' ≤ c ∧ c ≤ '9' then some (c.toNat - '0'.toNat) else none

/-- Reads the digits that are left, `value` being what those before them denote. -/
def readDigits (value : Nat) : Text → Except NumeralError Nat
  | [] => .ok value
  | c :: rest =>
    match digitValue? c with
    | none => .error .invalidDigit
    | some d =>
      if value * 10 + d < wordBound then readDigits (value * 10 + d) rest else .error .tooLarge

/-- The number that a numeral denotes: an optional plus sign and at least one digit. The first
fault from the left is the one that is reported. -/
def readNumeral : Text → Except NumeralError Nat
  | [] => .error .empty
  | '+' :: [] => .error .invalidDigit
  | '+' :: rest => readDigits 0 rest
  | text => readDigits 0 text

/-- The number that a numeral denotes, if it is one. -/
def numeral? (text : Text) : Option Nat :=
  (readNumeral text).toOption

end Cascade.Text
