import Cascade.Regex.Parser.Escape
import Cascade.Regex.Parser.Loop
import Cascade.Regex.Parser.Name

/-!
# The signs of a pattern

Outside of classes a pattern is a sequence of signs: characters, sets, places, references, loops and
the punctuation of classes, groups and alternatives. Comments are passed over between them.
-/

namespace Cascade.Regex.Parser

/-- What comes next in a pattern. -/
inductive Sign where
  /-- A character, by its number. -/
  | code (n : Nat)
  /-- One byte of a character. -/
  | byte (b : Nat)
  /-- A set of characters, a place or a reference. -/
  | whole (e : Expr)
  /-- How often what stands before is repeated. -/
  | rounds (r : Rounds)
  /-- The opening of a class. -/
  | openClass
  /-- The opening of a group. -/
  | openGroup
  /-- The closing of a group. -/
  | closeGroup
  /-- The bar between alternatives. -/
  | bar
  /-- The end of the pattern. -/
  | stop

/-- Passes over a comment group behind its opening, in which a backslash hides a parenthesis. -/
def skipComment : Text → Option Text
  | [] => none
  | ')' :: rest => some rest
  | ['\\'] => none
  | '\\' :: _ :: rest => skipComment rest
  | _ :: rest => skipComment rest

/-- Passes over comments and, if the pattern is extended, over blanks and the rest of a line behind
a number sign. -/
def skipTrivia (o : Options) : (fuel : Nat) → Parser Unit
  | 0 => pure ()
  | fuel + 1 => do
    match ← rest with
    | '(' :: '?' :: '#' :: more =>
      match skipComment more with
      | some behind =>
        setRest behind
        skipTrivia o fuel
      | none => throw .unfinishedGroup
    | c :: more =>
      if o.extended ∧ (c = ' ' ∨ c = '\t' ∨ c = '\n' ∨ c = '\r' ∨ c = '\x0c') then
        setRest more
        skipTrivia o fuel
      else if o.extended ∧ c = '#' then
        setRest ((more.dropWhile (· ≠ '\n')).drop 1)
        skipTrivia o fuel
    | [] => pure ()

/-- The place that a letter behind a backslash asks for. -/
def anchorEscape? : Char → Option Anchor
  | 'b' => some .wordBoundary
  | 'B' => some .noWordBoundary
  | 'A' => some .textStart
  | 'z' => some .textEnd
  | 'Z' => some .lastLineEnd
  | _ => none

/-- The highest group that a backslash and a number can refer to. -/
def maxReference : Nat := 1000

/-- Reads an escape behind its backslash. -/
def escape (o : Options) : Parser Sign := do
  let behind ← rest
  match ← next? with
  | none => throw .trailingBackslash
  | some c =>
    if let some (cls, negated) := classEscape? c then
      return .whole (.set (cls.outside negated))
    if let some a := anchorEscape? c then return .whole (.anchor a)
    if c = 'k' then
      if ← accept ['<'] then return .whole (← backreference o '>')
      if ← accept ['\x27'] then return .whole (← backreference o '\x27')
    if '1' ≤ c ∧ c ≤ '9' then
      setRest behind
      let number := (← number?).getD 0
      if number ≤ maxReference ∧ (number ≤ (← get).openings.length ∨ number ≤ 9) then
        return .whole (.backref [number] o.ignoreCase)
      setRest behind
      let _ ← next?
    match ← spelled c with
    | .code n => return .code n
    | .byte b _ => return .byte b

/-- The next sign of a pattern. -/
def sign (o : Options) : Parser Sign := do
  skipTrivia o ((← rest).length + 1)
  match ← next? with
  | none => return .stop
  | some '\\' => escape o
  | some '.' => return .whole (.set (if o.dotAll then .compl .none else .compl (.char '\n')))
  | some '^' => return .whole (.anchor .lineStart)
  | some '$' => return .whole (.anchor .lineEnd)
  | some '[' => return .openClass
  | some '(' => return .openGroup
  | some ')' => return .closeGroup
  | some '|' => return .bar
  | some '*' => return .rounds ⟨0, none, ← mode true true⟩
  | some '+' => return .rounds ⟨1, none, ← mode true true⟩
  | some '?' => return .rounds ⟨0, some 1, ← mode true true⟩
  | some '\x7b' =>
    match ← bounds? with
    | some r => return .rounds r
    | none => return .code 0x7B
  | some c => return .code c.toNat

end Cascade.Regex.Parser
