import Cascade.Tree.Basic

/-!
# Putting texts back in place of tokens

A text that contains tokens is expanded by replacing each token by a text of the node it belongs to,
again and again until nothing changes. A node may quote its own token, so the number of rounds is
bounded by the number of nodes.

* `unmask`: with the texts that the rules made of their matches at first.
* `render`: with the texts as the rules have left them; of the root, this is the result of a parse.
-/

namespace Cascade.Tree

/-- Replaces each token of a text by a text of its node, once. -/
def expandOnce (t : Tree) (field : Node → Text) (text : Text) : Text :=
  Token.replaceTokens (fun token => (t.owner? token).map fun id => field (t.node id)) text

/-- Replaces tokens until nothing changes, in at most `rounds` rounds. -/
def expandRounds (t : Tree) (field : Node → Text) : (rounds : Nat) → Text → Text
  | 0, text => text
  | rounds + 1, text =>
    let next := t.expandOnce field text
    if next = text then text else expandRounds t field rounds next

/-- Replaces tokens until nothing changes, in at most one round more than there are nodes. -/
def expand (t : Tree) (field : Node → Text) (text : Text) : Text :=
  t.expandRounds field (t.size + 1) text

/-- A text with its tokens replaced by what the rules made of their matches at first. -/
def unmask (t : Tree) (text : Text) : Text :=
  t.expand Node.modified text

/-- The working text of a node with its tokens replaced by the texts that the rules made of their
matches at first. -/
def unmasked (t : Tree) (id : NodeId) : Text :=
  t.unmask (t.node id).working

/-- The working text of a node with its tokens replaced by the working texts of their nodes. -/
def rendered (t : Tree) (id : NodeId) : Text :=
  t.expand Node.working (t.node id).working

/-- The input as all rules have left it. -/
def render (t : Tree) : Text :=
  t.rendered root

/-- The expansion of a text depends on the number of nodes, their tokens and the field. -/
theorem expand_congr {t t' : Tree} {field : Node → Text} (hsize : t.size = t'.size)
    (howner : ∀ token, t.owner? token = t'.owner? token)
    (hfield : ∀ i, field (t.node i) = field (t'.node i)) (text : Text) :
    t.expand field text = t'.expand field text := by
  have honce (text : Text) : t.expandOnce field text = t'.expandOnce field text := by
    simp only [expandOnce, howner, hfield]
  unfold expand
  rw [hsize]
  generalize t'.size + 1 = rounds
  induction rounds generalizing text with
  | zero => rfl
  | succ rounds ih => simp only [expandRounds, honce, ih]

end Cascade.Tree
