import Cascade.Engine
import Mathlib.Data.List.Sort

/-!
# What the steps of a parse do to the nodes of a tree

A step of a parse changes the states or the texts of one node, puts the children of a node in order,
or adds the node of a match. Each lemma says what becomes of the nodes and of the registry.

* `unlinked_node_linkChildren`: ordering the children of a node changes nothing but links.
* `node_addMatch`: what adding the node of a match does.
-/

namespace Cascade

/-- A node without its links to its neighbours. -/
def Node.unlinked (n : Node) : Node :=
  { n with previous? := none, next? := none }

/-- A node with nothing but what never changes once the node has been created. -/
def Node.fixed (n : Node) : Node where
  rule := n.rule
  parent? := n.parent?
  span := n.span
  matched := n.matched
  modified := []
  working := []
  token? := n.token?
  captures? := n.captures?
  localState := .empty
  children := []
  previous? := none
  next? := none

/-- What is fixed when a node is created: its rule, its parent, its span, its matched text, its
token and its captures. -/
theorem Node.fixed_eq_iff {n n' : Node} :
    n.fixed = n'.fixed ↔ n.rule = n'.rule ∧ n.parent? = n'.parent? ∧ n.span = n'.span ∧
      n.matched = n'.matched ∧ n.token? = n'.token? ∧ n.captures? = n'.captures? := by
  simp [fixed]

/-- Links between siblings are not among what is fixed. -/
theorem Node.fixed_eq_of_unlinked_eq {n n' : Node} (h : n.unlinked = n'.unlinked) :
    n.fixed = n'.fixed := by
  have hfixed := congrArg Node.fixed h
  exact hfixed

/-- A node without what may still change when it has been resolved, its own state and its links. -/
def Node.settled (n : Node) : Node :=
  { n with localState := .empty, previous? := none, next? := none }

/-- What is settled when the match of a node is replaced: all but its state and its links. -/
theorem Node.settled_eq_iff {n n' : Node} :
    n.settled = n'.settled ↔ n.fixed = n'.fixed ∧ n.modified = n'.modified ∧
      n.working = n'.working ∧ n.children = n'.children := by
  rw [fixed_eq_iff]
  simp only [settled, Node.mk.injEq, and_true, true_and]
  tauto

/-- Links between siblings are not among what is settled. -/
theorem Node.settled_eq_of_unlinked_eq {n n' : Node} (h : n.unlinked = n'.unlinked) :
    n.settled = n'.settled := by
  have hsettled := congrArg Node.settled h
  exact hsettled

namespace View

variable {v : View} {states : States} {i : NodeId}

@[simp]
theorem size_withStates : (v.withStates states).size = v.tree.size :=
  Tree.size_update ..

@[simp]
theorem registry_withStates : (v.withStates states).registry = v.tree.registry := rfl

/-- The state that is set at a node becomes its own. -/
theorem node_withStates_self (h : v.id < v.tree.size) :
    (v.withStates states).node v.id = { v.tree.node v.id with localState := states.own } :=
  Tree.node_update_self _ h

/-- The state that is set at a node leaves all other nodes as they are. -/
theorem node_withStates_of_ne (h : i ≠ v.id) :
    (v.withStates states).node i = v.tree.node i :=
  Tree.node_update_of_ne _ h

end View

namespace Tree

variable {t : Tree} {id i : NodeId} {text : Text}

@[simp]
theorem size_setModified : (t.setModified id text).size = t.size :=
  size_update ..

@[simp]
theorem registry_setModified : (t.setModified id text).registry = t.registry := rfl

/-- The modified text of a node is also its first working text. -/
theorem node_setModified_self (h : id < t.size) :
    (t.setModified id text).node id = { t.node id with modified := text, working := text } :=
  node_update_self _ h

/-- The modified text that is set at a node leaves all other nodes as they are. -/
theorem node_setModified_of_ne (h : i ≠ id) : (t.setModified id text).node i = t.node i :=
  node_update_of_ne _ h

@[simp]
theorem size_setWorking : (t.setWorking id text).size = t.size :=
  size_update ..

@[simp]
theorem registry_setWorking : (t.setWorking id text).registry = t.registry := rfl

/-- The working text that is set at a node becomes its own. -/
theorem node_setWorking_self (h : id < t.size) :
    (t.setWorking id text).node id = { t.node id with working := text } :=
  node_update_self _ h

/-- The working text that is set at a node leaves all other nodes as they are. -/
theorem node_setWorking_of_ne (h : i ≠ id) : (t.setWorking id text).node i = t.node i :=
  node_update_of_ne _ h

/-! ### Ordering children -/

theorem size_linkFrom (previous? : Option NodeId) (ids : List NodeId) :
    (linkFrom previous? ids t).size = t.size := by
  induction ids generalizing previous? t with
  | nil => rfl
  | cons id ids ih => rw [linkFrom, ih, size_update]

theorem registry_linkFrom (previous? : Option NodeId) (ids : List NodeId) :
    (linkFrom previous? ids t).registry = t.registry := by
  induction ids generalizing previous? t with
  | nil => rfl
  | cons id ids ih => rw [linkFrom, ih]; rfl

/-- Nodes that are not in the list are left alone. -/
theorem node_linkFrom_of_not_mem (previous? : Option NodeId) {ids : List NodeId} (h : i ∉ ids) :
    (linkFrom previous? ids t).node i = t.node i := by
  induction ids generalizing previous? t with
  | nil => rfl
  | cons id ids ih =>
    rw [List.mem_cons, not_or] at h
    rw [linkFrom, ih _ h.2, node_update_of_ne _ h.1]

/-- Linking siblings changes nothing but their links. -/
theorem unlinked_node_linkFrom (previous? : Option NodeId) (ids : List NodeId) :
    ((linkFrom previous? ids t).node i).unlinked = (t.node i).unlinked := by
  induction ids generalizing previous? t with
  | nil => rfl
  | cons id ids ih =>
    rw [linkFrom, ih, node_update]
    split <;> rfl

/-- A node is put among others, and none of them is lost. -/
theorem insertByStart_perm (ids : List NodeId) : (t.insertByStart id ids).Perm (id :: ids) := by
  induction ids with
  | nil => exact .refl _
  | cons other rest ih =>
    rw [insertByStart]
    split
    · exact .refl _
    · exact (ih.cons other).trans (.swap id other rest)

/-- Ordering nodes loses none and repeats none. -/
theorem sortByStart_perm (ids : List NodeId) : (t.sortByStart ids).Perm ids := by
  induction ids with
  | nil => exact .refl _
  | cons id ids ih => exact (insertByStart_perm _).trans (ih.cons id)

/-- Linking children creates no node. -/
@[simp]
theorem size_linkChildren : (t.linkChildren id).size = t.size := by
  rw [linkChildren, size_update, size_linkFrom]

/-- Linking children mints no token. -/
@[simp]
theorem registry_linkChildren : (t.linkChildren id).registry = t.registry :=
  registry_linkFrom ..

/-- Nodes other than the parent keep everything but their links. -/
theorem unlinked_node_linkChildren_of_ne (h : i ≠ id) :
    ((t.linkChildren id).node i).unlinked = (t.node i).unlinked := by
  rw [linkChildren, node_update_of_ne _ h, unlinked_node_linkFrom]

/-- Nodes that are neither the parent nor among the children are left alone. -/
theorem node_linkChildren_of_not_mem (h : i ≠ id) (hc : i ∉ (t.node id).children) :
    (t.linkChildren id).node i = t.node i := by
  rw [linkChildren, node_update_of_ne _ h]
  exact node_linkFrom_of_not_mem _ fun hi => hc ((sortByStart_perm _).mem_iff.1 hi)

/-- The parent keeps everything but the order of its children. -/
theorem node_linkChildren_self (h : id < t.size) (hc : id ∉ (t.node id).children) :
    (t.linkChildren id).node id =
      { t.node id with children := t.sortByStart (t.node id).children } := by
  rw [linkChildren, node_update_self _ (by rwa [size_linkFrom]),
    node_linkFrom_of_not_mem _ fun hi => hc ((sortByStart_perm _).mem_iff.1 hi)]

/-! ### Adding the node of a match -/

/-- The node of a match when it has just been added. -/
def matchNode (t : Tree) (parent : NodeId) (rule : Rule) (m : Match) : Node :=
  { Node.fresh rule.ref (some parent) m.span m.captures.whole with
    token? := some (t.registry.mint rule.ref t.size).1
    captures? := some m.captures }

variable {p : NodeId} {rule : Rule} {m : Match}

/-- The node of a match is one more. -/
@[simp]
theorem size_addMatch : (Engine.addMatch t p rule m).size = t.size + 1 := by
  simp only [Engine.addMatch, size_update]
  exact size_push ..

/-- With the node of a match, a token is minted for its rule. -/
@[simp]
theorem registry_addMatch :
    (Engine.addMatch t p rule m).registry = (t.registry.mint rule.ref t.size).2 := rfl

/-- The new node gets the next number, and becomes the last child of its parent. -/
theorem node_addMatch (hp : p < t.size) (i : NodeId) :
    (Engine.addMatch t p rule m).node i =
      if i = t.size then matchNode t p rule m
      else if i = p then { t.node p with children := (t.node p).children ++ [t.size] }
      else t.node i := by
  have hnodes : (Engine.addMatch t p rule m).node i =
      (((t.push (.fresh rule.ref (some p) m.span m.captures.whole)).update t.size fun n =>
          { n with
            token? := some (t.registry.mint rule.ref t.size).1
            captures? := some m.captures }).update p fun n =>
          { n with children := n.children ++ [t.size] }).node i := rfl
  simp only [hnodes, node_update, size_update, node_push, size_push]
  rcases lt_trichotomy i t.size with hi | hi | hi
  · by_cases hip : i = p
    · subst hip
      simp [hi.ne, Nat.lt_succ_of_lt hi]
    · simp [hi.ne, hip]
  · subst hi
    simp [hp.ne', matchNode]
  · simp [hi.ne', (hp.trans hi).ne']

end Tree

end Cascade
