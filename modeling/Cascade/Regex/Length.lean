import Cascade.Regex.Expr

/-!
# How many characters an expression matches

`Expr.length` bounds the number of characters that an expression matches. Looking behind starts from
these bounds, and a loop needs them to know whether one of its rounds may be empty.

A lower bound is *sure* if the expression needs nothing of its surroundings to reach it: an
expression with the sure bound zero matches the empty text at every place. What a reference matches
depends on the group it refers to, and `Expr.groupLengths` has the bounds of all groups.
-/

namespace Cascade.Regex

/-- Bounds on the number of characters that an expression matches. -/
structure Length where
  /-- The fewest characters. -/
  least : Nat
  /-- The most characters, if there is a limit. -/
  most : Option Nat
  /-- Whether the fewest characters can be matched wherever they stand. -/
  sure : Bool
  deriving DecidableEq, Repr

namespace Length

/-- A fixed number of characters. -/
def exact (n : Nat) : Length := ⟨n, some n, true⟩

/-- The empty text, but at certain places alone. -/
def place : Length := ⟨0, some 0, false⟩

/-- Whether the number of characters is fixed. -/
def isExact (a : Length) : Bool :=
  a.most = some a.least

/-- The bounds on two things one after the other. -/
def add (a b : Length) : Length :=
  ⟨a.least + b.least, do return (← a.most) + (← b.most), a.sure && b.sure⟩

/-- The bounds on one of two things. -/
def either (a b : Length) : Length :=
  { least := min a.least b.least
    most := do return max (← a.most) (← b.most)
    sure :=
      if a.least < b.least then a.sure
      else if b.least < a.least then b.sure
      else a.sure || b.sure }

/-- The bounds on something repeated. -/
def times (a : Length) (bounds : Bounds) : Length :=
  if bounds.most = some 0 then exact 0
  else ⟨a.least * bounds.least, do return (← a.most) * (← bounds.most), a.sure⟩

end Length

namespace Expr

/-- The bounds on an expression, given those on the groups that it refers to. -/
def length (ofGroup : Nat → Length) : Expr → Length
  | .text _ t => .exact t.length
  | .set _ => .exact 1
  | .concat a b => (a.length ofGroup).add (b.length ofGroup)
  | .either a b => (a.length ofGroup).either (b.length ofGroup)
  | .group number body =>
    -- a group that is still open has captured nothing
    body.length fun other => if other = number then .place else ofGroup other
  | .scope body | .atomic body => body.length ofGroup
  | .loop body bounds => (body.length ofGroup).times bounds
  | .anchor _ | .look _ _ _ => .place
  | .backref groups _ =>
    match groups.map ofGroup with
    | [] => .exact 0
    | first :: others =>
      others.foldl .either (if first.isExact then first else { first with sure := false })

/-- The bounds on the groups of an expression. A group may refer to others, so they are refined once
for each reference. -/
def groupLengths (e : Expr) : List (Nat × Length) :=
  let groups := e.bodies
  let refine (known : List (Nat × Length)) : List (Nat × Length) :=
    groups.map fun (number, body) =>
      (number, body.length fun other => (known.lookup other).getD .place)
  let unknown := groups.map fun (number, _) => (number, ⟨0, none, false⟩)
  (0 :: e.references).foldl (fun known _ => refine known) unknown

/-- The bounds on a text are its length. -/
theorem length_text (ofGroup : Nat → Length) (ignoreCase : Bool) (t : Text) :
    (Expr.text ignoreCase t).length ofGroup = .exact t.length := rfl

/-- The bounds on one thing after the other add up. -/
theorem length_concat (ofGroup : Nat → Length) (a b : Expr) :
    (Expr.concat a b).length ofGroup = (a.length ofGroup).add (b.length ofGroup) := rfl

end Expr

end Cascade.Regex
