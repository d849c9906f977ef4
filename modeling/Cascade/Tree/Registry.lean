import Cascade.Grammar.RuleId
import Cascade.Token.Basic

/-!
# Registries of tokens

A registry knows all tokens of a parse and the nodes that they belong to. Tokens are numbered twice:
among those of their rule, and among all.

* `mint`: makes a token for a node.
* `owner?_mint`, `occurrencesOf_mint`: what that does.
-/

namespace Cascade

/-- The number of a node in its tree, in order of creation. -/
abbrev NodeId := Nat

/-- All tokens of a parse. -/
structure Registry where
  /-- The tokens with the nodes they belong to, the latest first. -/
  tokens : List (Text × NodeId)
  /-- How many tokens the rules have, for each rule that has any. -/
  occurrences : List (RuleId × Nat)
  /-- How many tokens there are. -/
  sequence : Nat
  deriving DecidableEq, Inhabited, Repr

namespace Registry

/-- The registry without tokens. -/
def empty : Registry :=
  ⟨[], [], 0⟩

/-- How many tokens a rule has. -/
def occurrencesOf (r : Registry) (rule : RuleId) : Nat :=
  (r.occurrences.lookup rule).getD 0

/-- Counters with that of one rule higher by one. -/
def countUp (rule : RuleId) : List (RuleId × Nat) → List (RuleId × Nat)
  | [] => [(rule, 1)]
  | (other, count) :: rest =>
    if other = rule then (other, count + 1) :: rest else (other, count) :: countUp rule rest

/-- Makes the next token of a rule, and registers it for a node. -/
def mint (r : Registry) (rule : RuleRef) (owner : NodeId) : Text × Registry :=
  let occurrences := countUp rule.id r.occurrences
  let sequence := r.sequence + 1
  let token := Token.mint rule.name ((occurrences.lookup rule.id).getD 0) sequence
  (token, { tokens := (token, owner) :: r.tokens, occurrences, sequence })

/-- The node that a token belongs to. -/
def owner? (r : Registry) (token : Text) : Option NodeId :=
  r.tokens.lookup token

/-- Only the counter of the rule is changed. -/
theorem lookup_countUp (rule other : RuleId) (counters : List (RuleId × Nat)) :
    (countUp rule counters).lookup other =
      if other = rule then some ((counters.lookup rule).getD 0 + 1) else counters.lookup other := by
  induction counters with
  | nil => by_cases h : other = rule <;> simp [countUp, List.lookup_cons, h, beq_false_of_ne]
  | cons counter rest ih =>
    obtain ⟨id, count⟩ := counter
    by_cases hid : id = rule
    · subst hid
      by_cases h : other = id <;> simp [countUp, List.lookup_cons, h, beq_false_of_ne]
    · by_cases h : other = rule
      · subst h
        simp [countUp, List.lookup_cons, hid, ih, beq_false_of_ne (Ne.symm hid)]
      · simp [countUp, List.lookup_cons, hid, ih, h]

/-- The token that is made. -/
theorem mint_fst (r : Registry) (rule : RuleRef) (owner : NodeId) :
    (r.mint rule owner).1 =
      Token.mint rule.name (r.occurrencesOf rule.id + 1) (r.sequence + 1) := by
  simp [mint, lookup_countUp, occurrencesOf]

theorem sequence_mint (r : Registry) (rule : RuleRef) (owner : NodeId) :
    (r.mint rule owner).2.sequence = r.sequence + 1 := rfl

/-- The rule has one token more. -/
theorem occurrencesOf_mint (r : Registry) (rule : RuleRef) (owner : NodeId) (id : RuleId) :
    (r.mint rule owner).2.occurrencesOf id =
      if id = rule.id then r.occurrencesOf id + 1 else r.occurrencesOf id := by
  simp only [mint, occurrencesOf, lookup_countUp]
  by_cases h : id = rule.id <;> simp [h]

/-- The new token belongs to the node, and the others belong where they did. -/
theorem owner?_mint (r : Registry) (rule : RuleRef) (owner : NodeId) (token : Text) :
    (r.mint rule owner).2.owner? token =
      if token = (r.mint rule owner).1 then some owner else r.owner? token := by
  rw [owner?,
    show (r.mint rule owner).2.tokens = ((r.mint rule owner).1, owner) :: r.tokens from rfl,
    List.lookup_cons]
  by_cases h : token = (r.mint rule owner).1
  · simp [h]
  · simp [beq_false_of_ne h, h, owner?]

end Registry

end Cascade
