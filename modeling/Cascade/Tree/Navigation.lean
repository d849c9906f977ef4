import Cascade.Tree.Basic

/-!
# Finding nodes by the rules they belong to
-/

namespace Cascade.Tree

/-- The children of a node that belong to a rule. -/
def childrenNamed (t : Tree) (id : NodeId) (rule : Text) : List NodeId :=
  (t.node id).children.filter fun child => (t.node child).rule.name = rule

/-- Visits the nodes that wait on a stack, the last one first, and collects those that belong to a
rule. The children of a node that is visited are put on the stack in its place, so that the first of
them is visited next. At most `steps` nodes are visited. -/
def collect (t : Tree) (rule : Text) : (steps : Nat) → (stack : List NodeId) → List NodeId
  | 0, _ => []
  | steps + 1, stack =>
    match stack.getLast? with
    | none => []
    | some id =>
      let stack := stack.dropLast ++ (t.node id).children.reverse
      if (t.node id).rule.name = rule then id :: collect t rule steps stack
      else collect t rule steps stack

/-- The nodes below a node that belong to a rule, a node before those below it. -/
def descendantsNamed (t : Tree) (id : NodeId) (rule : Text) : List NodeId :=
  t.collect rule t.size (t.node id).children.reverse

/-- Follows a link from node to node, to the first one that belongs to a rule. At most `steps` links
are followed. -/
def follow (t : Tree) (link : Node → Option NodeId) (rule : Text) :
    (steps : Nat) → NodeId → Option NodeId
  | 0, _ => none
  | steps + 1, id => do
    let other ← link (t.node id)
    if (t.node other).rule.name = rule then some other else follow t link rule steps other

/-- The nearest child before a node, of the same parent, that belongs to a rule. -/
def previousNamed? (t : Tree) (id : NodeId) (rule : Text) : Option NodeId :=
  t.follow Node.previous? rule t.size id

/-- The nearest child behind a node, of the same parent, that belongs to a rule. -/
def nextNamed? (t : Tree) (id : NodeId) (rule : Text) : Option NodeId :=
  t.follow Node.next? rule t.size id

end Cascade.Tree
