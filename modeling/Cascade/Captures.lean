import Cascade.Json.Basic

/-!
# Captured groups

What the groups of a pattern captured in one match. A group that captured the empty text counts as
absent when it is asked for, just like one that took no part in the match.
-/

namespace Cascade

/-- What one group captured. -/
structure Group where
  /-- The captured text. -/
  text : Text
  /-- Where it stands in the text that was searched. -/
  span : Span
  deriving DecidableEq, Inhabited, Repr

/-- The groups of one match. -/
structure Captures where
  /-- The groups by number, from the whole match on; none for a group that took no part. -/
  groups : List (Option Group)
  /-- The names of groups, sorted, each with the numbers of its groups in order of definition. -/
  names : List (Text × List Nat)
  deriving DecidableEq, Inhabited, Repr

namespace Captures

/-- The text of a group, unless it is blank. -/
def get? (c : Captures) (number : Nat) : Option Text := do
  let group ← (c.groups[number]?).join
  if group.text.isEmpty then none else some group.text

/-- The text of the whole match. -/
def whole (c : Captures) : Text :=
  (c.get? 0).getD []

/-- The text of the first group with a name that is not blank. -/
def named? (c : Captures) (name : Text) : Option Text := do
  (← c.names.lookup name).findSome? c.get?

/-- Where a group stands in the text that was searched. -/
def span? (c : Captures) (number : Nat) : Option Span :=
  (c.groups[number]?).join.map Group.span

/-- The number of groups, the whole match included. -/
def size (c : Captures) : Nat :=
  c.groups.length

/-- The serialised form: the texts of all groups. -/
def toJson (c : Captures) : Json :=
  .object [("groups".toList, .array (c.groups.map (Json.ofOption fun group => .string group.text)))]

end Captures

/-- One match of a pattern in a text. -/
structure Match where
  /-- Where the match stands in the text that was searched. -/
  span : Span
  /-- What its groups captured, the whole match being group 0. -/
  captures : Captures
  deriving DecidableEq, Inhabited, Repr

end Cascade
