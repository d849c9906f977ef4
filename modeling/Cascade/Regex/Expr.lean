import Cascade.Regex.CharSet

/-!
# Regular expressions

The structure of a pattern after it has been read. A loop around a loop is simplified as soon as it
is built (`Expr.repeated?`). How an expression is matched is fixed by the `Plan` for it.
-/

namespace Cascade.Regex

/-- The places between characters that a pattern can ask for. -/
inductive Anchor where
  /-- The start of the text, or behind a line feed that does not end it. -/
  | lineStart
  /-- The end of the text, or before a line feed. -/
  | lineEnd
  /-- The start of the text. -/
  | textStart
  /-- The end of the text. -/
  | textEnd
  /-- The end of the text, or before a line feed that ends it. -/
  | lastLineEnd
  /-- Between a part of a word and something that is none. -/
  | wordBoundary
  /-- Not between a part of a word and something that is none. -/
  | noWordBoundary
  deriving DecidableEq, Repr

/-- How often something is repeated. A greedy loop prefers more rounds, another one fewer. -/
structure Bounds where
  /-- The fewest rounds. -/
  least : Nat
  /-- The most rounds, if there is a limit. -/
  most : Option Nat
  /-- Whether more rounds are preferred. -/
  greedy : Bool
  deriving DecidableEq, Repr

/-- A regular expression. -/
inductive Expr where
  /-- Matches a text, or one that differs from it in case. -/
  | text (ignoreCase : Bool) (t : Text)
  /-- Matches one character of a set. -/
  | set (s : CharSet)
  /-- Matches one thing after the other. -/
  | concat (a b : Expr)
  /-- Matches the first alternative that leads to a match. -/
  | either (a b : Expr)
  /-- Matches its body and captures it under a number. -/
  | group (number : Nat) (body : Expr)
  /-- Matches its body, which has options of its own. -/
  | scope (body : Expr)
  /-- Matches its body again and again. -/
  | loop (body : Expr) (bounds : Bounds)
  /-- Matches its body in the first way in which it can match, and in no other. -/
  | atomic (body : Expr)
  /-- Matches the empty text at certain places. -/
  | anchor (a : Anchor)
  /-- Matches the empty text where the body matches behind (`ahead`) or before it, or does not. -/
  | look (ahead negated : Bool) (body : Expr)
  /-- Matches what the last of some groups has captured, or one before it if that does not match. -/
  | backref (groups : List Nat) (ignoreCase : Bool)
  deriving Inhabited, Repr

namespace Bounds

/-- At most once, greedy. -/
def option : Bounds := ⟨0, some 1, true⟩
/-- Any number of times, greedy. -/
def star : Bounds := ⟨0, none, true⟩
/-- At least once, greedy. -/
def plus : Bounds := ⟨1, none, true⟩
/-- At most once, lazy. -/
def lazyOption : Bounds := ⟨0, some 1, false⟩
/-- Any number of times, lazy. -/
def lazyStar : Bounds := ⟨0, none, false⟩
/-- At least once, lazy. -/
def lazyPlus : Bounds := ⟨1, none, false⟩

end Bounds

/-- The loops that have a sign of their own. -/
inductive SimpleLoop where
  | option
  | star
  | plus
  | lazyOption
  | lazyStar
  | lazyPlus
  deriving DecidableEq, Repr

namespace SimpleLoop

/-- The simple form of a loop, if it has one. -/
def of? (b : Bounds) : Option SimpleLoop :=
  if b = .option then some option
  else if b = .star then some star
  else if b = .plus then some plus
  else if b = .lazyOption then some lazyOption
  else if b = .lazyStar then some lazyStar
  else if b = .lazyPlus then some lazyPlus
  else none

/-- The loop that a simple form stands for. -/
def apply (body : Expr) : SimpleLoop → Expr
  | option => .loop body .option
  | star => .loop body .star
  | plus => .loop body .plus
  | lazyOption => .loop body .lazyOption
  | lazyStar => .loop body .lazyStar
  | lazyPlus => .loop body .lazyPlus

/-- A simple loop around a simple loop, as one loop or two that match the same texts. -/
def nest (body : Expr) : (inner outer : SimpleLoop) → Expr
  | option, option => option.apply body
  | option, star | option, plus => star.apply body
  | option, lazyOption => lazyOption.apply body
  | option, lazyStar => lazyStar.apply body
  | option, lazyPlus => lazyPlus.apply (option.apply body)
  | star, option | star, star | star, plus | star, lazyPlus => star.apply body
  | star, lazyOption | star, lazyStar => lazyOption.apply (plus.apply body)
  | plus, option | plus, star => star.apply body
  | plus, plus | plus, lazyPlus => plus.apply body
  | plus, lazyOption => lazyOption.apply (plus.apply body)
  | plus, lazyStar => lazyOption.apply (plus.apply body)
  | lazyOption, option | lazyOption, lazyOption => lazyOption.apply body
  | lazyOption, star | lazyOption, plus | lazyOption, lazyStar | lazyOption, lazyPlus =>
    lazyStar.apply body
  | lazyStar, _ => lazyStar.apply body
  | lazyPlus, option => option.apply (lazyPlus.apply body)
  | lazyPlus, star => star.apply body
  | lazyPlus, plus => plus.apply body
  | lazyPlus, lazyPlus => lazyPlus.apply body
  | lazyPlus, lazyOption | lazyPlus, lazyStar => lazyStar.apply body

end SimpleLoop

namespace Expr

/-- The expression that matches the empty text alone. -/
def empty : Expr := .text false []

/-- The largest number of rounds that two nested loops can make together. -/
def maxProduct : Nat := 2147483647

/-- A loop around a loop. Simple loops are joined, and so are two loops with a fixed number of
rounds each, unless that makes too many rounds for one loop. -/
def nest? (body : Expr) (inner outer : Bounds) : Option Expr :=
  let outer :=
    if (inner = .star ∨ inner = .plus) ∧ (SimpleLoop.of? outer).isNone ∧ outer.greedy ∧
        outer.most.any (· > 1) then
      -- each round can match all that the others would
      { outer with most := some (max 1 outer.least) }
    else outer
  match SimpleLoop.of? inner, SimpleLoop.of? outer with
  | some a, some b => some (SimpleLoop.nest body a b)
  | _, _ =>
    if outer.most = some outer.least ∧ inner.most = some inner.least then
      if outer.least = 0 ∨ inner.least = 0 then some (.loop body ⟨0, some 0, outer.greedy⟩)
      else if outer.least < maxProduct / inner.least then
        let rounds := outer.least * inner.least
        some (.loop body ⟨rounds, some rounds, outer.greedy⟩)
      else none
    else some (.loop (.loop body inner) outer)

/-- An expression repeated. None if that asks for too many rounds. -/
def repeated? (body : Expr) (bounds : Bounds) : Option Expr :=
  match body with
  | .loop inner innerBounds => nest? inner innerBounds bounds
  | _ => some (.loop body bounds)

/-- Whether an expression is a place between characters or has one among its alternatives, so that a
loop around it has nothing to repeat. A place inside a sequence or a group is none of these. -/
def isPlace : Expr → Bool
  | .anchor _ | .look _ _ _ => true
  | .either a b => a.isPlace || b.isPlace
  | _ => false

/-- The groups that an expression refers to, one entry for each reference. -/
def references : Expr → List Nat
  | .text _ _ | .set _ | .anchor _ => []
  | .concat a b | .either a b => a.references ++ b.references
  | .group _ body | .scope body | .loop body _ | .atomic body | .look _ _ body => body.references
  | .backref groups _ => groups

/-- The groups in an expression with their bodies. -/
def bodies : Expr → List (Nat × Expr)
  | .text _ _ | .set _ | .anchor _ | .backref _ _ => []
  | .concat a b | .either a b => a.bodies ++ b.bodies
  | .group number body => (number, body) :: body.bodies
  | .scope body | .loop body _ | .atomic body | .look _ _ body => body.bodies

/-- Whether an expression can be matched backwards, from the place where it should end. It cannot
if it asks for the end of the text or looks ahead, nor, where it must not match, if it captures. -/
def canLookBehind (negated : Bool) : Expr → Bool
  | .text _ _ | .set _ | .backref _ _ => true
  | .concat a b | .either a b => a.canLookBehind negated && b.canLookBehind negated
  | .group _ body => !negated && body.canLookBehind negated
  | .scope body | .loop body _ | .atomic body => body.canLookBehind negated
  | .anchor a => a ≠ .textEnd && a ≠ .lastLineEnd
  | .look ahead _ body => !ahead && body.canLookBehind negated

/-- Puts an expression that is no sequence in front of another. Texts that meet become one. -/
def cons : Expr → Expr → Expr
  | .text i t, .text j u =>
    if i = j then .concat (.text i (t ++ u)) .empty else .concat (.text i t) (.text j u)
  | .text i t, .concat (.text j u) rest =>
    if i = j then .concat (.text i (t ++ u)) rest
    else .concat (.text i t) (.concat (.text j u) rest)
  | a, b => .concat a b

/-- Puts one expression in front of another, one sequence behind the other. -/
def append : Expr → Expr → Expr
  | .concat a rest, b => a.cons (rest.append b)
  | .text _ [], b => b
  | a, b => a.cons b

/-- The expression in which sequences are not nested and no text meets another. -/
def joined : Expr → Expr
  | .concat a b => a.joined.append b.joined
  | .either a b => .either a.joined b.joined
  | .group number body => .group number body.joined
  | .scope body => .scope body.joined
  | .loop body bounds => .loop body.joined bounds
  | .atomic body => .atomic body.joined
  | .look ahead negated body => .look ahead negated body.joined
  | e => e

end Expr

end Cascade.Regex
