import Cascade.Proofs.Engine.Arena
import Cascade.Proofs.Engine.Buffer
import Cascade.Proofs.Grammar.Compile
import Cascade.Proofs.Token.Scan

/-!
# What is known of a parse that succeeds

The facts about the shape of the tree, the texts of its nodes and the names of rules are brought
together for whole parses.

* `Parsed`, `parsed_of_history`: the facts.
* `Parsed.exists_token`: nodes have tokens that are found and known.
-/

namespace Cascade.Engine

open Cascade.Tree

/-- The tree `t` and the events are those of a parse of an input by a rule of the grammar. -/
structure Parsed (g : Grammar) (input : Text) (t : Tree) (events : List Event) : Prop where
  arena : Arena t
  /-- The root stands for the whole input. -/
  matched_root : (t.node root).matched = input
  /-- The working texts have come about pass by pass. -/
  buffers : ∀ p < t.size, ∃ r ∈ g.rules, r.ref = (t.node p).rule ∧
    Buffers g t events r p (t.node p)

variable {g : Grammar} {rule : Rule} {input : Text} {seed : State} {t : Tree}
  {events : List Event} {p i : NodeId}

theorem Runs.parsed {levels : Nat} {edits : List (Span × Text)}
    (h : Runs g levels (.node root rule) (startTree rule input seed) events edits t)
    (hfaithful : g.Faithful) (hordered : g.Ordered) (hrule : rule ∈ g.rules) :
    Parsed g input t events where
  arena := (h.arena hfaithful (ready_startTree ..) trivial (arena_startTree ..)
    (isOpen_startTree ..)).1
  matched_root := by
    have hcore : (t.node root).core = ((startTree rule input seed).node root).core :=
      (h.frame (ready_startTree ..)).mask_eq
    exact (Node.fixed_eq_iff.1 (Node.fixed_eq_of_core_eq hcore)).2.2.2.1
  buffers p hp := by
    -- the rule that the parse starts from is one of the grammar as well
    obtain ⟨r, hr, href, hbuffers⟩ := h.buffers hfaithful hordered p hp
    rcases hr with ⟨-, rfl⟩ | hr
    · exact ⟨r, hrule, href, hbuffers⟩
    · exact ⟨r, hr, href, hbuffers⟩

namespace Parsed

theorem name_ne_nil (h : Parsed g input t events) (hnamed : g.Named) (hp : p < t.size) :
    (t.node p).rule.name ≠ [] := by
  obtain ⟨r, hr, href, -⟩ := h.buffers p hp
  rw [← href]
  exact Token.ne_nil_of_isRuleName (hnamed r hr)

/-- The token of a node is found wherever it stands, and known to be that of the node. The numbers
in tokens are words, so this takes that there are no more nodes than words. -/
theorem exists_token (h : Parsed g input t events) (hnamed : g.Named)
    (hsize : t.size ≤ Text.wordBound) (hroot : i ≠ root) (hi : i < t.size) :
    ∃ token, (t.node i).token? = some token ∧ Token.isToken token ∧ t.owner? token = some i := by
  have htoken := h.arena.token i hroot hi
  exact ⟨t.tokenOf i, htoken, isToken_tokenOf (h.name_ne_nil hnamed hi) (hi.trans_le hsize),
    (h.arena.owner _ i).2 ⟨hi, htoken⟩⟩

end Parsed

end Cascade.Engine
