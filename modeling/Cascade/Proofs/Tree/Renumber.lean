import Cascade.Proofs.Engine.Simulation
import Cascade.Proofs.Tree.Steps
import Mathlib.Logic.Function.Basic

/-!
# Trees with other rule numbers

The numbers of rules stand in the nodes of a tree and in the counters of its registry. Where each of
them is replaced by another one, no two by the same, all else stays as it is, and the steps of a
parse lead to trees in which the numbers are replaced in the same way.

* `Tree.renumber`: a tree with other rule numbers.
* `Node.unnumbered`: what does not depend on rule numbers.
* `renumber_addMatch`, `renumber_linkChildren`, `renumber_withStates`: the steps of a parse.
-/

namespace Cascade

variable {f : RuleId → RuleId}

/-- A rule as nodes refer to it, with another number. -/
def RuleRef.renumber (f : RuleId → RuleId) (r : RuleRef) : RuleRef :=
  { r with id := f r.id }

/-- A rule with another number, and with other numbers for its children. -/
def Rule.renumber (f : RuleId → RuleId) (r : Rule) : Rule :=
  { r with id := f r.id, children := r.children.map f }

/-- A node with another number for its rule. -/
def Node.renumber (f : RuleId → RuleId) (n : Node) : Node :=
  { n with rule := n.rule.renumber f }

/-- A node with a blank number for its rule. -/
def Node.unnumbered (n : Node) : Node :=
  { n with rule := ⟨default, n.rule.name⟩ }

namespace Registry

variable {r : Registry}

/-- A registry with other numbers for the rules that have counters. -/
def renumber (f : RuleId → RuleId) (r : Registry) : Registry :=
  { r with occurrences := r.occurrences.map fun counter => (f counter.1, counter.2) }

/-- A rule is found under its new number. -/
theorem lookup_renumber (hf : f.Injective) (id : RuleId) (counters : List (RuleId × Nat)) :
    (counters.map fun counter => (f counter.1, counter.2)).lookup (f id) = counters.lookup id := by
  induction counters with
  | nil => rfl
  | cons counter rest ih =>
    obtain ⟨other, count⟩ := counter
    by_cases h : id = other
    · simp [h]
    · simp [List.lookup_cons, beq_false_of_ne h, beq_false_of_ne (hf.ne h), ih]

/-- A rule is counted under its new number. -/
theorem countUp_renumber (hf : f.Injective) (id : RuleId) (counters : List (RuleId × Nat)) :
    countUp (f id) (counters.map fun counter => (f counter.1, counter.2)) =
      (countUp id counters).map fun counter => (f counter.1, counter.2) := by
  induction counters with
  | nil => rfl
  | cons counter rest ih =>
    by_cases h : counter.1 = id
    · simp [countUp, h]
    · simp [countUp, h, hf.ne h, ih]

/-- The same token is made, as it has the name of the rule and not its number. -/
theorem mint_renumber (hf : f.Injective) (rule : RuleRef) (owner : NodeId) :
    (r.renumber f).mint (rule.renumber f) owner =
      ((r.mint rule owner).1, (r.mint rule owner).2.renumber f) := by
  simp [mint, renumber, RuleRef.renumber, countUp_renumber hf, lookup_renumber hf]

end Registry

namespace Tree

variable {t : Tree}

/-- A tree with other rule numbers. -/
def renumber (f : RuleId → RuleId) (t : Tree) : Tree :=
  { t with nodes := t.nodes.map (Node.renumber f), registry := t.registry.renumber f }

@[simp]
theorem size_renumber : (t.renumber f).size = t.size :=
  Array.size_map

/-- Tokens belong to the same nodes, whatever the numbers of rules. -/
theorem owner?_renumber (token : Text) : (t.renumber f).owner? token = t.owner? token := rfl

/-- Each node has its rule under the new number. -/
theorem node_renumber {i : NodeId} (h : i < t.size) :
    (t.renumber f).node i = (t.node i).renumber f := by
  have hlt : i < t.nodes.size := h
  simp [node, node?, renumber, hlt]

/-- Apart from the numbers of rules, nodes stay the same. -/
theorem unnumbered_node_renumber (t : Tree) (i : NodeId) :
    ((t.renumber f).node i).unnumbered = (t.node i).unnumbered := by
  by_cases h : i < t.size
  · rw [node_renumber h]
    rfl
  · rw [node_of_size_le (Nat.le_of_not_lt h), node_of_size_le (by simpa using h)]

/-- Whatever does not depend on the numbers of rules is the same. -/
theorem field_node_renumber {β : Type} (field : Node → β)
    (hfield : ∀ n, field n.unnumbered = field n) (i : NodeId) :
    field ((t.renumber f).node i) = field (t.node i) := by
  rw [← hfield, unnumbered_node_renumber, hfield]

/-- A node may be added before or after rules are renumbered. -/
theorem renumber_push (n : Node) : (t.push n).renumber f = (t.renumber f).push (n.renumber f) := by
  simp [renumber, push]

/-- A change of a node that does not touch the number of its rule. -/
theorem renumber_update {change : Node → Node} (id : NodeId)
    (h : ∀ n, (change n).renumber f = change (n.renumber f)) :
    (t.update id change).renumber f = (t.renumber f).update id change := by
  have hnodes : (t.nodes.modify id change).map (Node.renumber f) =
      (t.nodes.map (Node.renumber f)).modify id change := by
    refine Array.ext (by simp) fun i hi hi' => ?_
    simp only [Array.getElem_map, Array.getElem_modify]
    split
    · exact h _
    · rfl
  simp only [update, renumber, hnodes]

/-- A modified text may be set before or after rules are renumbered. -/
theorem renumber_setModified (id : NodeId) (text : Text) :
    (t.setModified id text).renumber f = (t.renumber f).setModified id text :=
  renumber_update id fun _ => rfl

/-- A working text may be set before or after rules are renumbered. -/
theorem renumber_setWorking (id : NodeId) (text : Text) :
    (t.setWorking id text).renumber f = (t.renumber f).setWorking id text :=
  renumber_update id fun _ => rfl

/-- Children may be linked before or after rules are renumbered. -/
theorem renumber_linkChildren (t : Tree) (id : NodeId) :
    (t.linkChildren id).renumber f = (t.renumber f).linkChildren id :=
  linkChildren_comm (φ := renumber f)
    (fun _ i => ⟨field_node_renumber _ (fun _ => rfl) i, field_node_renumber _ (fun _ => rfl) i⟩)
    (fun _ i _ _ => renumber_update i fun _ => rfl) (fun _ i _ => renumber_update i fun _ => rfl)
    t id

/-- The node of a match may be added before or after rules are renumbered. -/
theorem renumber_addMatch (hf : f.Injective) (p : NodeId) (child : Rule) (m : Match) :
    (Engine.addMatch t p child m).renumber f =
      Engine.addMatch (t.renumber f) p (child.renumber f) m := by
  have hmint : (t.renumber f).registry.mint (child.renumber f).ref t.size =
      ((t.registry.mint child.ref t.size).1, (t.registry.mint child.ref t.size).2.renumber f) :=
    Registry.mint_renumber hf child.ref t.size
  have hpush : (t.push (.fresh child.ref (some p) m.span m.captures.whole)).renumber f =
      (t.renumber f).push (.fresh (child.renumber f).ref (some p) m.span m.captures.whole) :=
    renumber_push _
  have hregistered (registry : Registry) :
      ({ t.push (.fresh child.ref (some p) m.span m.captures.whole) with registry } : Tree).renumber
          f =
        { (t.renumber f).push (.fresh (child.renumber f).ref (some p) m.span m.captures.whole) with
          registry := registry.renumber f } :=
    congrArg (fun t : Tree => { t with registry := registry.renumber f }) hpush
  have hregistry (n : Node) : ((t.renumber f).push n).registry = (t.renumber f).registry := rfl
  simp only [Engine.addMatch]
  rw [renumber_update p, renumber_update t.size, hregistered, size_renumber, hregistry, hmint]
  · rfl
  · exact fun _ => rfl
  · exact fun _ => rfl

/-- A parse starts from the same root, its rule under the new number. -/
theorem renumber_startTree (rule : Rule) (input : Text) (seed : State) :
    (Engine.startTree rule input seed).renumber f =
      Engine.startTree (rule.renumber f) input seed := by
  have hnew : (Tree.new seed).renumber f = Tree.new seed := by
    simp [Tree.new, renumber, Registry.renumber, Registry.empty]
  rw [Engine.startTree, renumber_push, hnew]
  rfl

/-- Texts are expanded in the same way, whatever the numbers of rules. -/
theorem expand_renumber {field : Node → Text} (hfield : ∀ n, field n.unnumbered = field n)
    (text : Text) : (t.renumber f).expand field text = t.expand field text :=
  expand_congr size_renumber (fun _ => rfl)
    (field_node_renumber field hfield) text

theorem unmask_renumber (t : Tree) (text : Text) : (t.renumber f).unmask text = t.unmask text :=
  expand_renumber (fun _ => rfl) text

theorem unmasked_renumber (t : Tree) (id : NodeId) :
    (t.renumber f).unmasked id = t.unmasked id := by
  have hworking : ((t.renumber f).node id).working = (t.node id).working :=
    field_node_renumber _ (fun _ => rfl) id
  rw [unmasked, unmasked, unmask_renumber, hworking]

theorem rendered_renumber (t : Tree) (id : NodeId) :
    (t.renumber f).rendered id = t.rendered id := by
  have hworking : ((t.renumber f).node id).working = (t.node id).working :=
    field_node_renumber _ (fun _ => rfl) id
  rw [rendered, rendered, expand_renumber fun _ => rfl, hworking]

end Tree

namespace View

variable {v : View}

/-- A node in its tree with other rule numbers. -/
def renumber (f : RuleId → RuleId) (v : View) : View :=
  ⟨v.tree.renumber f, v.id⟩

/-- What does not depend on the number of the rule is the same for the node that a hook sees. -/
theorem field_renumber {β : Type} (field : Node → β) (hfield : ∀ n, field n.unnumbered = field n) :
    field (v.renumber f).node = field v.node :=
  Tree.field_node_renumber field hfield v.id

/-- A hook sees the same states, whatever the numbers of rules. -/
theorem states_renumber : (v.renumber f).states = v.states := by
  have hown : (v.renumber f).node.localState = v.node.localState :=
    field_renumber Node.localState fun _ => rfl
  simp only [states, hown]
  rfl

/-- States may be set before or after rules are renumbered. -/
theorem renumber_withStates (states : States) :
    (v.withStates states).renumber f = (v.renumber f).withStates states := by
  have hupdate : (v.tree.update v.id fun n => { n with localState := states.own }).renumber f =
      (v.tree.renumber f).update v.id fun n => { n with localState := states.own } :=
    Tree.renumber_update v.id fun _ => rfl
  exact congrArg (fun t : Tree => { t with globalState := states.global }) hupdate

end View

end Cascade
