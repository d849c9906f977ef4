import Cascade.Regex.Error
import Cascade.Regex.Length

/-!
# Plans for matching

A `Plan` is an expression in the form in which it is matched. References and what is to be matched
backwards have been checked, and each loop knows how its rounds are laid out: whether the rounds are
written out one after the other or counted while they run, which of them must make progress, and
which groups count as progress. A short body is written out as long as that takes no more than
`maxUnrolled` steps. Looking behind knows how many characters to step back.

* `Expr.plan`: the plan for an expression.
-/

namespace Cascade.Regex

/-- How the rounds of a loop are laid out. -/
inductive Layout where
  /-- All rounds are written out one after the other, and none has to make progress. -/
  | unrolled
  /-- The rounds that are due are written out. Those behind them have to make progress. -/
  | headed
  /-- The rounds are counted, and each of them has to make progress. -/
  | counted
  deriving DecidableEq, Repr

/-- An expression in the form in which it is matched. -/
inductive Plan where
  /-- Matches a text, or one that differs from it in case. -/
  | text (ignoreCase : Bool) (t : Text)
  /-- Matches one character of a set. -/
  | set (s : CharSet)
  /-- Matches one thing after the other. -/
  | concat (a b : Plan)
  /-- Matches the first alternative that leads to a match. -/
  | either (a b : Plan)
  /-- Matches its body and captures it under a number. -/
  | group (number : Nat) (body : Plan)
  /-- Matches its body again and again. If the body is `nullable`, a round of it may be empty: it
  makes progress if it changes what one of the groups in `watched` has captured. -/
  | loop (body : Plan) (bounds : Bounds) (layout : Layout) (nullable : Bool) (watched : List Nat)
  /-- Matches its body in the first way in which it can match, and in no other. -/
  | atomic (body : Plan)
  /-- Matches the empty text at certain places. -/
  | anchor (a : Anchor)
  /-- Matches the empty text where the body matches, or does not. -/
  | ahead (negated : Bool) (body : Plan)
  /-- Matches the empty text where the body, which has a length, matches before it, or does not. -/
  | behind (negated : Bool) (length : Length) (body : Plan)
  /-- Matches what the last of some groups has captured, or one before it if that does not match. -/
  | backref (groups : List Nat) (ignoreCase : Bool)
  deriving Inhabited, Repr

/-- Whether a character differs from another one in case alone. -/
def hasVariants (c : Char) : Bool :=
  (Unicode.variants c).any (· ≠ c)

namespace Plan

/-- The plan that matches the empty text alone. -/
def empty : Plan := .text false []

/-- The plan that matches nothing. -/
def fail : Plan := .set .none

/-- The most steps that the rounds of a loop may take together to be written out. -/
def maxUnrolled : Nat := 10

/-- The most bytes of a text that is written out together with its rounds. -/
def maxRepeatedText : Nat := 100

/-- Whether a text is matched as it stands, since none of its characters has variants that count. -/
def isLiteral (ignoreCase : Bool) (t : Text) : Bool :=
  !(ignoreCase && t.any hasVariants)

/-- The number of steps that a text takes: one for each run of characters that are spelled by the
same number of bytes, and one for each character with variants if case is ignored. -/
def textSize (ignoreCase : Bool) : Text → Nat
  | [] => 0
  | [_] => 1
  | c :: d :: rest =>
    if c.utf8Size = d.utf8Size && isLiteral ignoreCase [c, d] then textSize ignoreCase (d :: rest)
    else textSize ignoreCase (d :: rest) + 1

/-- The number of steps of a loop whose body takes `size` steps. -/
def loopSize (size : Nat) (bounds : Bounds) (nullable : Bool) : Layout → Nat
  | .unrolled =>
    let most := bounds.most.getD bounds.least
    -- a lazy round that may be left out takes a step more than a greedy one
    size * bounds.least + (size + if bounds.greedy then 1 else 2) * (most - bounds.least)
  | .headed => size * bounds.least + size + 2 + if nullable then 2 else 0
  | .counted => size + 2 + if nullable then 2 else 0

/-- Whether a loop takes as many rounds as it can get, at most one of them being due. -/
def isPlain (bounds : Bounds) : Bool :=
  bounds = .star || bounds = .plus

/-- The number of steps that a plan takes when it is written out. -/
def size : Plan → Nat
  | .text ignoreCase t => textSize ignoreCase t
  | .set _ | .anchor _ | .backref _ _ => 1
  | .concat a b => a.size + b.size
  | .either a b => a.size + b.size + 2
  | .group _ body => body.size + 2
  | .loop (.set s) bounds layout _ _ =>
    -- any characters up to the end of a line are passed over in one step
    if layout = .headed && bounds.greedy && (s = .compl .none || s = .compl (.char '\n')) then
      bounds.least + 1
    else loopSize 1 bounds false layout
  | .loop (.text ignoreCase t) bounds layout nullable _ =>
    -- a text with a fixed number of rounds is one longer text
    if bounds.most = some bounds.least && isLiteral ignoreCase t &&
        t.byteLength * bounds.least ≤ maxRepeatedText then
      textSize ignoreCase (List.replicate bounds.least t).flatten
    else loopSize (textSize ignoreCase t) bounds nullable layout
  | .loop body bounds layout nullable _ => loopSize body.size bounds nullable layout
  | .atomic (.loop (.set s) bounds layout nullable watched) =>
    if isPlain bounds then bounds.least + 4
    else (Plan.loop (.set s) bounds layout nullable watched).size + 2
  | .atomic (.loop (.text ignoreCase t) bounds layout nullable watched) =>
    let size := (Plan.loop (.text ignoreCase t) bounds layout nullable watched).size
    if isPlain bounds && (t.length = 1 || isLiteral ignoreCase t) then size + 1 else size + 2
  | .atomic body => body.size + 2
  | .ahead false body => body.size + 2
  | .ahead true body => body.size + 5
  | .behind negated length body =>
    body.size + if length.isExact then if negated then 6 else 3 else 12

/-- How the rounds of a loop around a body of some size are laid out. -/
def layout (size : Nat) (bounds : Bounds) : Layout :=
  match bounds.most with
  | none =>
    if bounds.least = 0 then .headed
    -- the first round is written out as well, so that the body stands there twice
    else if bounds.least = 1 then if size > maxUnrolled then .counted else .headed
    else if size * bounds.least ≤ maxUnrolled then .headed else .counted
  | some most =>
    if bounds.greedy then
      if most = 1 ∨ (size + 1) * most ≤ maxUnrolled then .unrolled else .counted
    else if bounds.least = 0 ∧ most = 1 then .unrolled else .counted

/-- The groups that are captured in each round of a loop around a plan: neither those that only an
inner loop around the empty text captures, nor those that are found by looking around. -/
def roundGroups : Plan → List Nat
  | .text _ _ | .set _ | .anchor _ | .backref _ _ | .ahead _ _ | .behind _ _ _ => []
  | .concat a b | .either a b => a.roundGroups ++ b.roundGroups
  | .group number body => number :: body.roundGroups
  | .loop body _ _ nullable _ => if nullable then [] else body.roundGroups
  | .atomic body => body.roundGroups

/-- A loop around a plan, in which `outside` says which groups are referred to outside of it. A loop
around nothing is nothing. -/
def repeated (body : Plan) (bounds : Bounds) (nullable : Bool) (outside : Nat → Bool) : Plan :=
  if bounds.most = some 0 ∨ body.size = 0 then .empty
  else .loop body bounds (layout body.size bounds) nullable (body.roundGroups.filter outside)

end Plan

/-- What is known about the groups that an expression refers to. -/
structure Groups where
  /-- All groups that the pattern refers to, one entry for each reference. -/
  referred : List Nat
  /-- The bounds on what a group captures. -/
  length : Nat → Length

/-- What is known inside of a group: it has captured nothing yet. -/
def Groups.within (g : Groups) (number : Nat) : Groups :=
  { g with length := fun other => if other = number then .place else g.length other }

/-- The most characters that looking behind may step back. -/
def maxStepBack : Nat := 65535

/-- Whether looking behind for an expression finds it everywhere. The empty text stands before every
place, and unless a group in the expression is referred to, nothing else need be looked for. -/
def Expr.isEverywhere (g : Groups) (e : Expr) : Bool :=
  let length := e.length g.length
  length.least = 0 && length.sure && !e.bodies.any fun (number, _) => g.referred.contains number

/-- Whether each alternative has a fixed length. -/
def Expr.hasExactLengths (g : Groups) : Expr → Bool
  | .either a b => (a.length g.length).isExact && b.hasExactLengths g
  | e => (e.length g.length).isExact

/-- Looks behind for an expression by its plan. -/
def behindOne (g : Groups) (negated : Bool) (e : Expr) (plan : Plan) : Plan :=
  if e.isEverywhere g then if negated then .fail else .empty
  else .behind negated (e.length g.length) plan

/-- Looks behind for alternatives by their plans, one after the other. -/
def behindEach (g : Groups) (negated : Bool) : Expr → Plan → Plan
  | .either a b, .either first others =>
    -- none of the alternatives may match if the whole may not
    let first := behindOne g negated a first
    let others := behindEach g negated b others
    if negated then .concat first others else .either first others
  | e, plan => behindOne g negated e plan

/-- Looks behind for an expression by its plan. Alternatives of different lengths are looked for one
after the other if only the first of them may have more than one length. -/
def lookBehind (g : Groups) (negated : Bool) (e : Expr) (plan : Plan) : Plan :=
  match e with
  | .either _ others =>
    if (e.length g.length).isExact || e.isEverywhere g || !others.hasExactLengths g then
      behindOne g negated e plan
    else behindEach g negated e plan
  | _ => behindOne g negated e plan

/-- The plan for an expression. -/
def Expr.plan (g : Groups) : Expr → Except Error Plan
  | .text ignoreCase t => .ok (.text ignoreCase t)
  | .set s => .ok (.set s)
  | .concat a b => do return .concat (← a.plan g) (← b.plan g)
  | .either a b => do return .either (← a.plan g) (← b.plan g)
  | .group number body => do return .group number (← body.plan (g.within number))
  | .scope body => body.plan g
  | .loop body bounds => do
    -- a group counts as progress only if a reference outside of the loop can see what it captures
    let inside := body.references
    return (← body.plan g).repeated bounds ((body.length g.length).least = 0) fun number =>
      inside.count number < g.referred.count number
  | .atomic body => do return .atomic (← body.plan g)
  | .anchor a => .ok (.anchor a)
  | .look true negated body => do return .ahead negated (← body.plan g)
  | .look false negated body => do
    let length := body.length g.length
    if !body.canLookBehind negated || max length.least (length.most.getD 0) > maxStepBack then
      throw .badLookBehind
    return lookBehind g negated body (← body.plan g)
  | .backref groups ignoreCase => .ok (.backref groups ignoreCase)

end Cascade.Regex
