import Cascade.Captures
import Cascade.State
import Cascade.Token.Scan
import Cascade.Tree.Registry

/-!
# Match trees

A tree holds one node for each match and one for the whole input, the root. Nodes are numbered in
the order in which they are created, and refer to each other by these numbers. Each node but the
root has a token, by which it is known in the texts of other nodes.

* `node_push`, `size_push`: what adding a node does.
* `node_update`, `size_update`: what changing a node does.
-/

namespace Cascade

/-- One match, or the whole input. -/
structure Node where
  /-- The rule that matched. -/
  rule : RuleRef
  /-- The node in whose text the match was found; none for the root. -/
  parent? : Option NodeId
  /-- Where the match stood in the text of the parent when that was searched. -/
  span : Span
  /-- The text that was matched. -/
  matched : Text
  /-- The text that the rule made of it at first. -/
  modified : Text
  /-- The text as the children of the node have left it so far. -/
  working : Text
  /-- The token of the node; none for the root. -/
  token? : Option Text
  /-- What the groups of the pattern captured; none for the root. -/
  captures? : Option Captures
  /-- The state of the node's own. -/
  localState : State
  /-- The nodes whose parent this is. -/
  children : List NodeId
  /-- The child of the same parent before this one. -/
  previous? : Option NodeId
  /-- The child of the same parent behind this one. -/
  next? : Option NodeId
  deriving DecidableEq, Inhabited, Repr

/-- A node that has just been created. -/
def Node.fresh (rule : RuleRef) (parent? : Option NodeId) (span : Span) (matched : Text) :
    Node where
  rule := rule
  parent? := parent?
  span := span
  matched := matched
  modified := matched
  working := matched
  token? := none
  captures? := none
  localState := .empty
  children := []
  previous? := none
  next? := none

/-- The text that a capture group of a node's match has captured. -/
def Node.group? (n : Node) (name : Text) : Option Text :=
  n.captures?.bind (·.named? name)

/-- All nodes of a parse, the state that they share and their tokens. -/
structure Tree where
  /-- The nodes in order of creation, the root first. -/
  nodes : Array Node
  /-- The state of the whole parse. -/
  globalState : State
  /-- The tokens of the nodes. -/
  registry : Registry
  deriving DecidableEq, Inhabited, Repr

namespace Tree

/-- A tree without nodes. -/
def new (globalState : State) : Tree :=
  { nodes := #[], globalState, registry := .empty }

/-- The number of the root. -/
def root : NodeId := 0

/-- The number of nodes. -/
def size (t : Tree) : Nat :=
  t.nodes.size

/-- The node with a number. -/
def node? (t : Tree) (id : NodeId) : Option Node :=
  t.nodes[id]?

/-- The node with a number, or a blank one. -/
def node (t : Tree) (id : NodeId) : Node :=
  (t.node? id).getD default

/-- A tree with one more node, which gets the next number. -/
def push (t : Tree) (n : Node) : Tree :=
  { t with nodes := t.nodes.push n }

/-- A tree with one node changed. -/
def update (t : Tree) (id : NodeId) (f : Node → Node) : Tree :=
  { t with nodes := t.nodes.modify id f }

/-- A tree in which a rule has made the modified text of a node, and no rule has searched it yet. -/
def setModified (t : Tree) (id : NodeId) (text : Text) : Tree :=
  t.update id fun n => { n with modified := text, working := text }

/-- A tree with another working text of a node. -/
def setWorking (t : Tree) (id : NodeId) (text : Text) : Tree :=
  t.update id fun n => { n with working := text }

/-- The node that a token belongs to. -/
def owner? (t : Tree) (token : Text) : Option NodeId :=
  t.registry.owner? token

/-- Puts a node into a list that is sorted by where the nodes start, before those that start where
it does. -/
def insertByStart (t : Tree) (id : NodeId) : List NodeId → List NodeId
  | [] => [id]
  | other :: rest =>
    if (t.node id).span.start ≤ (t.node other).span.start then id :: other :: rest
    else other :: insertByStart t id rest

/-- Nodes in the order of where they start. Those that start at one place keep their order. -/
def sortByStart (t : Tree) (ids : List NodeId) : List NodeId :=
  ids.foldr t.insertByStart []

/-- Makes nodes known to their neighbours in a list, `previous?` being the node before them. -/
def linkFrom (previous? : Option NodeId) : List NodeId → Tree → Tree
  | [], t => t
  | id :: rest, t =>
    linkFrom (some id) rest (t.update id fun n => { n with previous?, next? := rest.head? })

/-- Sorts the children of a node by where they start, and makes them known to their neighbours. -/
def linkChildren (t : Tree) (id : NodeId) : Tree :=
  -- links are set in the children alone, so the node itself is changed last
  let children := t.sortByStart (t.node id).children
  (linkFrom none children t).update id fun n => { n with children }

/-- Adding a node makes a tree larger by one. -/
@[simp]
theorem size_push (t : Tree) (n : Node) : (t.push n).size = t.size + 1 := by
  simp [push, size]

/-- A node that is added gets the next number. -/
theorem node_push (t : Tree) (n : Node) (i : NodeId) :
    (t.push n).node i = if i = t.size then n else t.node i := by
  by_cases h : i = t.size <;> simp_all [push, node, node?, size, Array.getElem?_push]

/-- Changing a node adds none. -/
@[simp]
theorem size_update (t : Tree) (id : NodeId) (f : Node → Node) : (t.update id f).size = t.size := by
  simp [update, size]

/-- Only the node with the number is changed. -/
theorem node_update (t : Tree) (id : NodeId) (f : Node → Node) (i : NodeId) :
    (t.update id f).node i = if i = id ∧ i < t.size then f (t.node i) else t.node i := by
  simp only [update, node, node?, size, Array.getElem?_modify]
  by_cases hid : id = i
  · subst hid
    by_cases h : id < t.nodes.size <;> simp [h]
  · simp [hid, Ne.symm hid]

theorem node_update_self {t : Tree} {id : NodeId} (f : Node → Node) (h : id < t.size) :
    (t.update id f).node id = f (t.node id) := by
  rw [node_update, if_pos ⟨rfl, h⟩]

theorem node_update_of_ne {t : Tree} {id i : NodeId} (f : Node → Node) (h : i ≠ id) :
    (t.update id f).node i = t.node i := by
  rw [node_update, if_neg fun hi => h hi.1]

/-- Behind the last number there are no nodes. -/
theorem node_of_size_le {t : Tree} {i : NodeId} (h : t.size ≤ i) : t.node i = default := by
  simp [node, node?, Array.getElem?_eq_none (show t.nodes.size ≤ i from h)]

end Tree

end Cascade
