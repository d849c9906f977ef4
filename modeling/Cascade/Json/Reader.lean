import Cascade.Json.Basic
import Cascade.Text.Utf8
import Cascade.Text.Numeral

/-!
# Reading JSON from bytes

A `Reader` consumes bytes from the front and stops at the first fault. The pieces below (blanks,
strings, numbers, the commas of arrays and objects) serve `Json.parse`, which reads any value, and
the readers of records with known fields, which may skip the fields that they do not know.

* `Json.parse`: the value that bytes spell, or the kind of the first fault from the left.
-/

namespace Cascade.Json

/-- The kinds of faults in JSON bytes. -/
inductive Fault where
  /-- The bytes end inside a value. -/
  | ended
  /-- The bytes are not JSON. -/
  | malformed
  /-- The value is JSON, but not the one that is wanted here. -/
  | mismatch
  deriving DecidableEq, Repr

/-- Consumes bytes from the front. -/
abbrev Reader := StateT (List UInt8) (Except Fault)

namespace Reader

/-- The byte of an ASCII character. -/
def byte (c : Char) : UInt8 :=
  UInt8.ofNat c.toNat

/-- Whether a byte may stand between the parts of a value. -/
def isBlank (b : UInt8) : Bool :=
  b = byte ' ' || b = byte '\n' || b = byte '\t' || b = byte '\r'

/-- Whether a byte is a decimal digit. -/
def isDigit (b : UInt8) : Bool :=
  byte '0' ≤ b && b ≤ byte '9'

/-- Passes over blanks and shows the byte behind them. -/
def peek : Reader (Option UInt8) := fun bytes =>
  let rest := bytes.dropWhile isBlank
  .ok (rest.head?, rest)

/-- Passes over one byte. -/
def advance : Reader Unit := fun bytes =>
  .ok ((), bytes.drop 1)

/-- Passes over the given characters. -/
def expect : List Char → Reader Unit
  | [] => pure ()
  | c :: more => fun
    | [] => .error .ended
    | b :: rest => if b = byte c then expect more rest else .error .malformed

/-- The value of a hexadecimal digit. -/
def hexValue? (b : UInt8) : Option Nat :=
  if isDigit b then some (b.toNat - 48)
  else if byte 'a' ≤ b ∧ b ≤ byte 'f' then some (b.toNat - 87)
  else if byte 'A' ≤ b ∧ b ≤ byte 'F' then some (b.toNat - 55)
  else none

/-- The value of four hexadecimal digits. -/
def hexQuad? (a b c d : UInt8) : Option Nat := do
  return (((← hexValue? a) * 16 + (← hexValue? b)) * 16 + (← hexValue? c)) * 16 + (← hexValue? d)

/-- The byte that a one-letter escape stands for. -/
def simpleEscape? (b : UInt8) : Option UInt8 :=
  if b = byte '\x22' || b = byte '\\' || b = byte '/' then some b
  else if b = byte 'b' then some 8
  else if b = byte 'f' then some 12
  else if b = byte 'n' then some 10
  else if b = byte 'r' then some 13
  else if b = byte 't' then some 9
  else none

/-- The bytes of a code point, put in front of bytes in reverse order. -/
def pushCode (code : Nat) (passed : List UInt8) : List UInt8 :=
  (String.utf8EncodeChar (Char.ofNat code)).reverse ++ passed

/-- The rest of a string behind its opening quote. `passed` are the bytes of the string so far, the
last one first; `pending` is a leading surrogate that waits for its partner. -/
def stringFrom (pending : Option Nat) (passed : List UInt8) :
    List UInt8 → Except Fault (List UInt8 × List UInt8)
  | [] => .error .ended
  | b :: rest =>
    if b = byte '\\' then
      match rest with
      | [] => .error .ended
      | e :: rest =>
        if e = byte 'u' then
          match rest with
          | h₁ :: h₂ :: h₃ :: h₄ :: rest =>
            match hexQuad? h₁ h₂ h₃ h₄, pending with
            | none, _ => .error .malformed
            -- two surrogates stand for one character, and each alone for none
            | some unit, some lead =>
              if 0xDC00 ≤ unit ∧ unit ≤ 0xDFFF then
                let code := 0x10000 + (lead - 0xD800) * 0x400 + (unit - 0xDC00)
                stringFrom none (pushCode code passed) rest
              else .error .malformed
            | some unit, none =>
              if 0xDC00 ≤ unit ∧ unit ≤ 0xDFFF then .error .malformed
              else if 0xD800 ≤ unit ∧ unit ≤ 0xDBFF then stringFrom (some unit) passed rest
              else stringFrom none (pushCode unit passed) rest
          | _ => .error .ended
        else
          match simpleEscape? e, pending with
          | some plain, none => stringFrom none (plain :: passed) rest
          | _, _ => .error .malformed
    else if pending.isSome then .error .malformed
    else if b = byte '\x22' then .ok (passed.reverse, rest)
    else if b < 0x20 then .error .malformed
    else stringFrom none (b :: passed) rest

/-- A string behind its opening quote. Its bytes must be well formed UTF-8. -/
def string : Reader Text := fun bytes => do
  let (content, rest) ← stringFrom none [] bytes
  match Text.ofBytes? content with
  | some text => return (text, rest)
  | none => throw .malformed

/-- Passes over a string behind its opening quote, whatever its characters are. -/
def skipString : Reader Unit
  | [] => .error .ended
  | b :: rest =>
    if b = byte '\\' then
      match rest with
      | [] => .error .ended
      | e :: rest =>
        if e = byte 'u' then
          match rest with
          | h₁ :: h₂ :: h₃ :: h₄ :: rest =>
            if (hexQuad? h₁ h₂ h₃ h₄).isSome then skipString rest else .error .malformed
          | _ => .error .ended
        else if (simpleEscape? e).isSome then skipString rest
        else .error .malformed
    else if b = byte '\x22' then .ok ((), rest)
    else if b < 0x20 then .error .malformed
    else skipString rest

/-- The digits at the front. -/
def digits : Reader (List Nat) := fun bytes =>
  .ok ((bytes.takeWhile isDigit).map fun b => b.toNat - 48, bytes.dropWhile isDigit)

/-- The digits at the front, of which there must be one. -/
def someDigits : Reader (List Nat) := do
  match ← digits with
  -- the end of the input is another fault than a character that is no digit
  | [] => fun bytes => if bytes.isEmpty then .error .ended else .error .malformed
  | ds => return ds

/-- Passes over the byte at the front if it satisfies `test`, and says whether it does. -/
def accept (test : UInt8 → Bool) : Reader Bool
  | [] => .ok (false, [])
  | b :: rest => if test b then .ok (true, rest) else .ok (false, b :: rest)

/-- The parts of a number without its sign. -/
structure NumberParts where
  whole : List Nat
  /-- The digits behind the decimal point, if there is one. -/
  fraction : Option (List Nat)
  /-- The exponent, if there is one: whether it is positive, and its digits. -/
  exponent : Option (Bool × List Nat)

/-- The parts of a number behind its sign. A leading zero stands alone. -/
def numberParts : Reader NumberParts := do
  let whole ← someDigits
  if whole.head? = some 0 ∧ whole.length > 1 then throw .malformed
  let fraction ← if ← accept (· = byte '.') then some <$> someDigits else pure none
  let exponent ←
    if ← accept fun b => b = byte 'e' || b = byte 'E' then do
      let negative ← accept (· = byte '-')
      if !negative then let _ ← accept (· = byte '+')
      some <$> (Prod.mk (!negative) <$> someDigits)
    else pure none
  return { whole, fraction, exponent }

/-- Takes digits into a significand as long as it stays a word; the digits left over follow. -/
def fill (significand : Nat) : List Nat → Nat × List Nat
  | [] => (significand, [])
  | d :: rest =>
    if significand * 10 + d < Text.wordBound then fill (significand * 10 + d) rest
    else (significand, d :: rest)

/-- A significand times a power of ten as a double, multiplied or divided by exact powers of ten
step by step; none if it is too large. -/
def scale (value : Float) (exponent : Int) : Nat → Option Float
  | 0 => some value
  | fuel + 1 =>
    -- powers of ten up to this one are doubles
    if exponent.natAbs ≤ 308 then
      let power := Float.ofScientific 1 false exponent.natAbs
      if exponent ≥ 0 then
        let product := value * power
        if product.isInf then none else some product
      else some (value / power)
    else if value == 0 then some value
    else if exponent ≥ 0 then none
    else scale (value / Float.ofScientific 1 false 308) (exponent + 308) fuel

/-- The largest exponent that is still computed with. -/
def exponentMax : Nat := 0x7FFFFFFF

/-- The double with the given sign, significand and power of ten. -/
def float (negative : Bool) (significand : Nat) (exponent : Int) : Except Fault Number :=
  match scale (UInt64.ofNat significand).toFloat exponent (exponent.natAbs / 308 + 2) with
  | some value => .ok (.float (if negative then -value else value).toBits)
  | none => .error .malformed

/-- The number that parts denote. An integer that does not fit is a double, and so is anything with
a fraction or an exponent. -/
def NumberParts.value (negative : Bool) (parts : NumberParts) : Except Fault Number :=
  let (whole, excess) := fill 0 parts.whole
  match parts.fraction, parts.exponent, excess with
  | none, none, [] =>
    if !negative then .ok (.integer whole)
    -- minus zero is no integer, and neither is what lies below the signed words
    else if whole = 0 ∨ whole > 0x8000000000000000 then float true whole 0
    else .ok (.integer (-whole))
  | fraction, exponent, excess =>
    -- digits that do not fit count for the power of ten alone if they stand before the point, and
    -- for nothing behind it
    let (significand, left) := fill whole (fraction.getD [])
    let used := (fraction.getD []).length - left.length
    let start : Int := excess.length - used
    match exponent with
    | none => float negative significand start
    | some (positive, ds) =>
      let size := ds.foldl (fun n d => if n > exponentMax then n else n * 10 + d) 0
      -- an exponent this large leaves nothing to compute
      if size > exponentMax then
        if positive && significand ≠ 0 then .error .malformed else float negative 0 0
      else float negative significand (if positive then start + size else start - size)

/-- A number behind its sign. -/
def number (negative : Bool) : Reader Number := do
  let parts ← numberParts
  liftM (parts.value negative)

/-- Passes over digits, of which there must be one. -/
def skipDigits : Reader Unit := do
  if (← digits).isEmpty then throw .malformed

/-- Passes over a number behind its sign. -/
def skipNumber : Reader Unit := do
  let whole ← digits
  if whole.isEmpty || (whole.head? = some 0 && whole.length > 1) then throw .malformed
  if ← accept (· = byte '.') then skipDigits
  if ← accept fun b => b = byte 'e' || b = byte 'E' then
    let _ ← accept fun b => b = byte '+' || b = byte '-'
    skipDigits

/-- Whether another item follows inside brackets. The closing bracket is not passed over. -/
def moreItems (first : Bool) : Reader Bool := do
  match ← peek with
  | none => throw .ended
  | some b =>
    if b = byte ']' then return false
    else if first then return true
    else if b = byte ',' then
      advance
      -- no comma stands behind the last item
      match ← peek with
      | none => throw .ended
      | some b => if b = byte ']' then throw .malformed else return true
    else throw .malformed

/-- Whether another key follows inside braces. Neither its quote nor the closing brace is passed
over. -/
def moreKeys (first : Bool) : Reader Bool := do
  match ← peek with
  | none => throw .ended
  | some b =>
    if b = byte '\x7d' then return false
    else if first then if b = byte '\x22' then return true else throw .malformed
    else if b = byte ',' then
      advance
      match ← peek with
      | none => throw .ended
      | some b => if b = byte '\x22' then return true else throw .malformed
    else throw .malformed

/-- Passes over the colon behind a key. -/
def colon : Reader Unit := do
  match ← peek with
  | none => throw .ended
  | some b => if b = byte ':' then advance else throw .malformed

/-- Passes over the bracket that closes a list of items. -/
def closeItems : Reader Unit := do
  match ← peek with
  | none => throw .ended
  | some b => if b = byte ']' then advance else throw .malformed

/-- Passes over the brace that closes a list of members. -/
def closeMembers : Reader Unit := do
  match ← peek with
  | none => throw .ended
  | some b => if b = byte '\x7d' then advance else throw .malformed

/-- Nothing but blanks is left. -/
def finish : Reader Unit := do
  if (← peek).isSome then throw .malformed

/-- Reads items with `item` up to the closing bracket, at most `fuel` of them. -/
def items {α : Type} (item : Reader α) : (fuel : Nat) → (first : Bool) → Reader (List α)
  | 0, _ => throw .malformed
  | fuel + 1, first => do
    if ← moreItems first then
      let head ← item
      let rest ← items item fuel false
      return head :: rest
    else
      closeItems
      return []

/-- Reads members with `member`, which gets the key, up to the closing brace, at most `fuel` of
them. -/
def members {α : Type} (member : Text → Reader α) : (fuel : Nat) → (first : Bool) → Reader (List α)
  | 0, _ => throw .malformed
  | fuel + 1, first => do
    if ← moreKeys first then
      advance
      let key ← string
      let head ← member key
      let rest ← members member fuel false
      return head :: rest
    else
      closeMembers
      return []

/-- The number of bytes that are left, which bounds the number of items. -/
def remaining : Reader Nat := fun bytes =>
  .ok (bytes.length + 1, bytes)

/-- The faults of a value that is not of the wanted kind: if it does not start like a value, or is
a scalar that is not well formed, that comes first. -/
def mismatch {α : Type} (b : UInt8) : Reader α := do
  if b = byte 'n' then advance; expect ['u', 'l', 'l']; throw .mismatch
  else if b = byte 't' then advance; expect ['r', 'u', 'e']; throw .mismatch
  else if b = byte 'f' then advance; expect ['a', 'l', 's', 'e']; throw .mismatch
  else if b = byte '-' then
    advance
    let _ ← number true
    throw .mismatch
  else if isDigit b then
    let _ ← number false
    throw .mismatch
  else if b = byte '\x22' then
    advance
    let _ ← string
    throw .mismatch
  else if b = byte '[' || b = byte '\x7b' then throw .mismatch
  else throw .malformed

/-- Passes over one value, which may be nested up to `fuel` levels deep. -/
def skipValue : (fuel : Nat) → Reader Unit
  | 0 => throw .malformed
  | fuel + 1 => do
    match ← peek with
    | none => throw .ended
    | some b =>
      if b = byte 'n' then advance; expect ['u', 'l', 'l']
      else if b = byte 't' then advance; expect ['r', 'u', 'e']
      else if b = byte 'f' then advance; expect ['a', 'l', 's', 'e']
      else if b = byte '-' then advance; skipNumber
      else if isDigit b then skipNumber
      else if b = byte '\x22' then advance; skipString
      else if b = byte '[' then
        advance
        let _ ← items (skipValue fuel) (← remaining) true
      else if b = byte '\x7b' then
        advance
        let _ ← skipMembers (skipValue fuel) (← remaining) true
      else throw .malformed
where
  /-- Passes over members up to the closing brace. -/
  skipMembers (value : Reader Unit) : (fuel : Nat) → (first : Bool) → Reader Unit
    | 0, _ => throw .malformed
    | fuel + 1, first => do
      if ← moreKeys first then
        advance
        skipString
        colon
        value
        skipMembers value fuel false
      else closeMembers

/-- One value, where `array` and `object` read on from an opening bracket or brace. -/
def valueWith (array object : Reader Json) : Reader Json := do
  match ← peek with
  | none => throw .ended
  | some b =>
    if b = byte 'n' then
      advance
      expect ['u', 'l', 'l']
      return .null
    else if b = byte 't' then
      advance
      expect ['r', 'u', 'e']
      return .bool true
    else if b = byte 'f' then
      advance
      expect ['a', 'l', 's', 'e']
      return .bool false
    else if b = byte '-' then
      advance
      return .number (← number true)
    else if isDigit b then
      return .number (← number false)
    else if b = byte '\x22' then
      advance
      return .string (← string)
    else if b = byte '[' then array
    else if b = byte '\x7b' then object
    else throw .malformed

/-- One value, in which arrays and objects may be nested up to `depth` levels deep. -/
def value : (depth : Nat) → Reader Json
  | 0 => valueWith (throw .malformed) (throw .malformed)
  | depth + 1 =>
    valueWith
      (do
        advance
        return .array (← items (value depth) (← remaining) true))
      (do
        advance
        let entry key := do
          colon
          return (key, ← value depth)
        let entries ← members entry (← remaining) true
        -- of members with one key the last counts
        return sortedObject entries)

end Reader

/-- How deep arrays and objects may be nested. -/
def maxDepth : Nat := 127

/-- The value that bytes spell. -/
def parse (bytes : List UInt8) : Except Fault Json := do
  let (value, rest) ← Reader.value maxDepth bytes
  let _ ← Reader.finish rest
  return value

end Cascade.Json
