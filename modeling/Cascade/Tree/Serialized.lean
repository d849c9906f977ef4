import Cascade.Text.Quoted
import Cascade.Tree.Basic

/-!
# The serialised form of a tree

Nodes are nested as in the tree, and tokens are shown in readable form.
-/

namespace Cascade

/-- A text with its tokens in readable form, as a value. -/
def Json.ofMasked (text : Text) : Json :=
  .string (Token.display text)

/-- The serialised form of a node, given those of its children. -/
def Node.toJson (n : Node) (children : List Json) : Json :=
  .object
    [("rule".toList, .string n.rule.name),
      ("span".toList, .array [.ofNat n.span.start, .ofNat n.span.stop]),
      ("token".toList, .ofOption .ofMasked n.token?),
      ("original_text".toList, .ofMasked n.matched),
      ("modified_text".toList, .ofMasked n.modified),
      ("working_text".toList, .ofMasked n.working),
      ("captures".toList, .ofOption Captures.toJson n.captures?),
      ("local_state".toList, n.localState.toJson),
      ("children".toList, .array children)]

namespace Tree

/-- The serialised form of a node with everything below it, down to `depth` levels. -/
def nodeJsonTo (t : Tree) : (depth : Nat) → NodeId → Json
  | 0, id => (t.node id).toJson []
  | depth + 1, id => (t.node id).toJson ((t.node id).children.map (nodeJsonTo t depth))

/-- The serialised form of a node with everything below it. -/
def nodeJson (t : Tree) (id : NodeId) : Json :=
  t.nodeJsonTo t.size id

/-- The serialised form of a tree. -/
def toJson (t : Tree) : Json :=
  .object [("root".toList, t.nodeJson root), ("global_state".toList, t.globalState.toJson)]

/-- A node as it is shown to people who debug a grammar. -/
def nodeDebug (t : Tree) (id : NodeId) : Text :=
  let n := t.node id
  "NodeRef \x7b id: NodeId(".toList ++ Text.decimal id ++ "), rule: ".toList ++
    Text.quoted n.rule.name ++ ", span: ".toList ++ Text.decimal n.span.start ++ "..".toList ++
    Text.decimal n.span.stop ++ ", working_text: ".toList ++
    Text.quoted (Token.display n.working) ++ " \x7d".toList

end Tree

end Cascade
