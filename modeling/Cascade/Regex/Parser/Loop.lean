import Cascade.Regex.Parser.Basic

/-!
# Reading how often something is repeated
-/

namespace Cascade.Regex.Parser

/-- How far a loop gives back what it has matched. -/
inductive Mode where
  /-- It prefers more rounds. -/
  | greedy
  /-- It prefers fewer rounds. -/
  | lazy
  /-- It takes as many rounds as it can and gives none back. -/
  | possessive
  deriving DecidableEq

/-- How often something is repeated. -/
structure Rounds where
  least : Nat
  most : Option Nat
  mode : Mode

/-- The most rounds that a loop can be asked for. -/
def maxRounds : Nat := 100000

/-- Reads a bound of a loop. -/
def bound? : Parser (Option Nat) := do
  match ← number? with
  | some n => if n > maxRounds then throw .boundTooLarge else return some n
  | none => return none

/-- The mode sign behind a loop: a plus sign only where `possessive` allows it. -/
def mode (lazyAllowed possessive : Bool) : Parser Mode := do
  if lazyAllowed then
    if ← accept ['?'] then return .lazy
  if possessive then
    if ← accept ['+'] then return .possessive
  return .greedy

/-- Reads bounds in braces behind the opening brace. None, with nothing passed over, if they are no
bounds, because then the brace stands for itself. Bounds in the wrong order make a possessive
loop. -/
def bounds? : Parser (Option Rounds) := do
  let saved ← rest
  let least ← bound?
  let fixed ← pure !(← accept [','])
  let most ← if fixed then pure least else bound?
  let closed ← accept ['\x7d']
  if !closed ∨ (least.isNone ∧ (fixed ∨ most.isNone)) then
    setRest saved
    return none
  let low := least.getD 0
  -- a question mark behind a fixed number of rounds is a loop of its own
  match most with
  | some high =>
    if low > high then return some ⟨high, some low, .possessive⟩
    else return some ⟨low, some high, ← mode (!fixed) false⟩
  | none => return some ⟨low, none, ← mode true false⟩

/-- An expression repeated. -/
def Rounds.apply (r : Rounds) (body : Expr) : Except Error Expr :=
  match body.repeated? ⟨r.least, r.most, r.mode ≠ .lazy⟩ with
  | some loop => .ok (if r.mode = .possessive then .atomic loop else loop)
  | none => .error .boundTooLarge

end Cascade.Regex.Parser
