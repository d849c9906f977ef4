import Cascade.Tree.Expand

/-!
# Hooks

What a rule does with its matches is told by three hooks. A hook runs for one node. It sees the
whole tree as it is at that moment, and may change two things: the state of its node's own, and the
state of the whole parse. It gives a result or fails with a text.
-/

namespace Cascade

/-- A node in its tree. -/
structure View where
  tree : Tree
  id : NodeId

/-- The node that is viewed. -/
def View.node (v : View) : Node :=
  v.tree.node v.id

/-- The states that a hook may change. -/
structure States where
  /-- The state of the node's own. -/
  own : State
  /-- The state of the whole parse. -/
  global : State

/-- The states that a hook for a node may change. -/
def View.states (v : View) : States :=
  ⟨v.node.localState, v.tree.globalState⟩

/-- The tree of a view with the states as a hook has changed them. -/
def View.withStates (v : View) (states : States) : Tree :=
  { v.tree.update v.id fun n => { n with localState := states.own } with
    globalState := states.global }

/-- What a hook does: it reads its node and the tree around it, and changes states or fails. -/
abbrev HookM := ReaderT View (StateT States (Except Text))

namespace HookM

/-- The node of the hook. -/
def node : HookM Node := do
  return (← read).node

/-- The tree as it is at this moment, with the states as the hook has changed them. -/
def tree : HookM Tree := do
  return (← read).withStates (← get)

/-- Appends a value to the state of the node's own. -/
def putLocal (key : Text) (value : Json) : HookM Unit :=
  modify fun s => { s with own := s.own.put key value }

/-- Appends a value to the state of the whole parse. -/
def putGlobal (key : Text) (value : Json) : HookM Unit :=
  modify fun s => { s with global := s.global.put key value }

/-- Adds to a number in the state of the node's own. -/
def incrementLocal (key : Text) (delta : Int) : HookM Int := do
  let s ← get
  let (sum, own) := s.own.increment key delta
  set { s with own }
  return sum

/-- Adds to a number in the state of the whole parse. -/
def incrementGlobal (key : Text) (delta : Int) : HookM Int := do
  let s ← get
  let (sum, global) := s.global.increment key delta
  set { s with global }
  return sum

/-- Keeps a rule from matching below the node. -/
def skipRule (rule : Text) : HookM Unit :=
  putLocal (State.skipKey rule) (.bool true)

/-- Keeps all rules from matching below the node. -/
def skipAll : HookM Unit :=
  putLocal State.skipAllKey (.bool true)

/-- Fails with a text. -/
def fail {α : Type} (message : Text) : HookM α :=
  throw message

end HookM

/-- The three hooks of a rule. -/
inductive Stage where
  | capture
  | substitute
  | resolve
  deriving DecidableEq, Repr

/-- The name of a hook. -/
def Stage.name : Stage → Text
  | .capture => "on_capture".toList
  | .substitute => "on_substitute".toList
  | .resolve => "on_resolve".toList

/-- The hooks of a rule. -/
structure Hooks where
  /-- Runs when a node has been created, and gives its modified text. -/
  onCapture : HookM Text
  /-- Runs when all matches below a node are dealt with, and gives what replaces the match in the
  text of the parent. -/
  onSubstitute : HookM Text
  /-- Runs when the children of a node are in order. -/
  onResolve : HookM Unit

namespace Hooks

/-- The hook that keeps the matched text. -/
def keepText : HookM Text := do
  return (← HookM.node).matched

/-- The hook that puts the token of a node into the text of its parent. -/
def maskText : HookM Text := do
  return (← HookM.node).token?.getD []

/-- The hooks that keep the matched text and mask it. -/
def identity : Hooks where
  onCapture := keepText
  onSubstitute := maskText
  onResolve := pure ()

end Hooks

end Cascade
