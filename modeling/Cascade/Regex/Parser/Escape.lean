import Cascade.Regex.Parser.Basic

/-!
# Reading characters behind a backslash

A character may be spelled by its number or by the bytes that encode it. Bytes have to make up
characters: `assemble?` reads the number that they encode.
-/

namespace Cascade.Regex.Parser

/-- What is spelled behind a backslash. -/
inductive Spelled where
  /-- The number of a character. -/
  | code (n : Nat)
  /-- One byte of a character, and the base of its digits. -/
  | byte (b base : Nat)
  deriving DecidableEq

/-- The class that a letter behind a backslash stands for, and whether it is negated. -/
def classEscape? : Char → Option (CharClass × Bool)
  | 'w' => some (.word, false)
  | 'W' => some (.word, true)
  | 'd' => some (.digit, false)
  | 'D' => some (.digit, true)
  | 's' => some (.space, false)
  | 'S' => some (.space, true)
  | 'h' => some (.hexDigit, false)
  | 'H' => some (.hexDigit, true)
  | _ => none

/-- The control character that a letter behind a backslash stands for. -/
def controlEscape? : Char → Option Char
  | 't' => some '\t'
  | 'n' => some '\n'
  | 'r' => some '\r'
  | 'f' => some '\x0c'
  | 'a' => some '\x07'
  | 'b' => some '\x08'
  | 'e' => some '\x1b'
  | 'v' => some '\x0b'
  | _ => none

/-- Whether a character is an octal digit. -/
def isOctal (c : Char) : Bool :=
  '0' ≤ c && c ≤ '7'

/-- The byte that octal digits denote. -/
def octalByte (digits : Text) : Parser Spelled := do
  let b := valueOf 8 digits
  if b < 256 then return .byte b 8 else throw .numberTooLarge

/-- What is spelled by `c`, the character behind the backslash, and what follows it: a hexadecimal
or octal number, a control character, or `c` itself. -/
def spelled (c : Char) : Parser Spelled := do
  let text ← rest
  match c, text with
  | 'x', '\x7b' :: more =>
    let run := (more.take 8).takeWhile isHexDigit
    match run, more.drop run.length with
    | _ :: _, '\x7d' :: behind =>
      setRest behind
      return .code (valueOf 16 run)
    | _, _ => return .code 'x'.toNat
  | 'x', _ :: _ => return .byte (valueOf 16 (← takeRun 2 isHexDigit)) 16
  | 'u', _ :: _ =>
    let run ← takeRun 4 isHexDigit
    if run.length = 4 then return .code (valueOf 16 run) else throw .badCharacter
  | c, _ =>
    if isOctal c then octalByte (c :: (← takeRun 2 isOctal))
    else return .code ((controlEscape? c).getD c).toNat

/-- The number of bytes that encode a character whose first byte is `b`. -/
def encodedLength (b : Nat) : Nat :=
  if b < 0xC0 then 1
  else if b < 0xE0 then 2
  else if b < 0xF0 then 3
  else if b < 0xF8 then 4
  else 1

/-- Whether a byte goes on with a character that another byte has begun. -/
def continues (b : Nat) : Bool :=
  0x80 ≤ b && b < 0xC0

/-- The number that bytes encode, if they have the form of one character. It need not be the number
of a character, nor need the bytes be the shortest that encode it. -/
def assemble? : List Nat → Option Nat
  | [] => none
  | first :: others =>
    if others.length + 1 ≠ encodedLength first ∨ continues first ∨ !others.all continues then none
    else if others.isEmpty then some first
    else
      let bits := first % Nat.pow 2 (6 - others.length)
      some (others.foldl (fun n b => n * 0x40 + b % 0x40) bits)

/-- The character with a number, if there is one. -/
def charOf? (n : Nat) : Option Char :=
  if n.isValidChar then some (Char.ofNat n) else none

/-- The character that bytes encode, if they are the ones that encode it. -/
def charOfBytes? (bytes : List Nat) : Option Char := do
  let c ← charOf? (← assemble? bytes)
  if c.utf8Size = bytes.length then some c else none

end Cascade.Regex.Parser
