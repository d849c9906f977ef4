import Cascade.Text.Basic

/-!
# Rule numbers

The rules of a grammar are numbered in the order in which they are defined. A number is a word of 16
bits, so a grammar has at most `RuleId.limit` rules.

* `index_ofIndex`: below the limit, no number is lost.
-/

namespace Cascade

/-- The number of a rule. -/
structure RuleId where
  value : UInt16
  deriving DecidableEq, Inhabited, Repr

namespace RuleId

/-- How many rules can be numbered. -/
def limit : Nat := 65536

/-- The number of the rule at a place in the order of definition. -/
def ofIndex (index : Nat) : RuleId :=
  ⟨UInt16.ofNat index⟩

/-- The place of a rule in the order of definition. -/
def index (id : RuleId) : Nat :=
  id.value.toNat

/-- Below the limit, no number is lost. -/
theorem index_ofIndex {i : Nat} (h : i < limit) : (ofIndex i).index = i := by
  simp only [ofIndex, index, UInt16.toNat_ofNat']
  exact Nat.mod_eq_of_lt h

end RuleId

/-- A rule as the nodes of a tree refer to it. -/
structure RuleRef where
  /-- The number of the rule. -/
  id : RuleId
  /-- The name of the rule. -/
  name : Text
  deriving DecidableEq, Inhabited, Repr

end Cascade
