import Cascade.Regex.Error
import Cascade.Regex.Expr
import Cascade.Text.Numeral

/-!
# Reading patterns: progress, characters and numbers

A pattern is read from the front. `Progress` is what is left of it together with the groups opened
so far, since a reference is resolved against the groups before it. Groups are numbered from one in
the order in which they are opened.
-/

namespace Cascade.Regex

/-- The options that hold for a part of a pattern. -/
structure Options where
  /-- Letters match whatever their case is. -/
  ignoreCase : Bool
  /-- The full stop matches line feeds too. -/
  dotAll : Bool
  /-- Blanks and comments in the pattern are passed over. -/
  extended : Bool
  deriving DecidableEq, Repr

/-- The options at the start of a pattern. -/
def Options.none : Options :=
  ⟨false, false, false⟩

/-- A group that captures, as it is opened in a pattern. -/
structure Opening where
  /-- How many characters stand behind its opening parenthesis. -/
  behind : Nat
  /-- Its name, if it has one. -/
  name? : Option Text
  deriving DecidableEq, Repr

/-- How far a pattern has been read. -/
structure Progress where
  /-- What is left to read. -/
  rest : Text
  /-- The groups that have been opened, in order. -/
  openings : List Opening

/-- Reads a pattern from the front. -/
abbrev Parser := StateT Progress (Except Error)

namespace Parser

/-- What is left to read. -/
def rest : Parser Text := do
  return (← get).rest

/-- Goes on with another text. -/
def setRest (text : Text) : Parser Unit :=
  modify fun p => { p with rest := text }

/-- The next character, which is passed over. -/
def next? : Parser (Option Char) := do
  match ← rest with
  | [] => return none
  | c :: more =>
    setRest more
    return some c

/-- Passes over a text if it comes next, and says whether it does. -/
def accept (text : Text) : Parser Bool := do
  match text.isPrefixOf? (← rest) with
  | some more =>
    setRest more
    return true
  | none => return false

/-- The longest run of at most `limit` characters that satisfy `test`, which is passed over. -/
def takeRun (limit : Nat) (test : Char → Bool) : Parser Text := do
  let text ← rest
  let run := (text.take limit).takeWhile test
  setRest (text.drop run.length)
  return run

/-- The value of digits in a base. -/
def valueOf (base : Nat) (run : Text) : Nat :=
  run.foldl (fun n c =>
    n * base + (if c.isDigit then c.toNat - 48 else c.toLower.toNat - 87)) 0

/-- The number that ASCII digits next in line denote, if there are any. -/
def number? : Parser (Option Nat) := do
  let run ← takeRun (← rest).length Char.isDigit
  return if run.isEmpty then none else some (valueOf 10 run)

/-- The largest number that a pattern may name. -/
def maxNumber : Nat := 2147483647

/-- How deeply groups, classes and loops may be nested. -/
def maxDepth : Nat := 4096

end Parser

end Cascade.Regex
