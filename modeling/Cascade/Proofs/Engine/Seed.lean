import Cascade.Proofs.Engine.Simulation
import Cascade.Proofs.Grammar.Compile
import Cascade.Proofs.Tree.Steps
import Cascade.Regex.Compiler

/-!
# Seeds make no difference to templates

The hooks of a rule that is given by a template read the node they are called for and nothing else,
and leave all states alone. So whatever state a parse starts from, that of the parse stays as it is,
those of the nodes have no entries, no rule is skipped, and all else is the same.

* `HookM.ReadsNode`: hooks that read their node and change nothing, closed under putting parts
  together.
* `Simulation.ofSeeds`: a grammar side by side with itself, with two seeds.
* `sameButSeed_of_compile`: parses with a grammar that is given as data.
-/

namespace Cascade

/-! ## Hooks that read their node only -/

namespace HookM

variable {α β : Type}

/-- A hook reads nothing but its node, and leaves the states as they are. -/
def ReadsNode (hook : HookM α) : Prop :=
  ∃ result : Node → Except Text α, ∀ v s, (hook.run v).run s = (result v.node).map fun a => (a, s)

/-- A hook that does nothing reads nothing but its node. -/
theorem readsNode_pure (a : α) : ReadsNode (pure a : HookM α) :=
  ⟨fun _ => .ok a, fun _ _ => rfl⟩

/-- A hook may read its node. -/
theorem readsNode_node : node.ReadsNode :=
  ⟨.ok, fun _ _ => rfl⟩

/-- A hook that fails reads nothing but its node. -/
theorem readsNode_fail (message : Text) : ReadsNode (fail message : HookM α) :=
  ⟨fun _ => .error message, fun _ _ => rfl⟩

/-- One hook behind another reads nothing but its node if neither does. -/
theorem ReadsNode.bind {hook : HookM α} {f : α → HookM β} (h : hook.ReadsNode)
    (hf : ∀ a, (f a).ReadsNode) : (hook >>= f).ReadsNode := by
  obtain ⟨result, hresult⟩ := h
  choose result' hresult' using hf
  refine ⟨fun n => result n >>= fun a => result' a n, fun v s => ?_⟩
  have hsplit : ((hook >>= f).run v).run s =
      (hook.run v).run s >>= fun r => ((f r.1).run v).run r.2 := rfl
  rw [hsplit, hresult]
  show _ = (result v.node >>= fun a => result' a v.node).map fun b => (b, s)
  cases result v.node with
  | error message => rfl
  | ok a => exact hresult' a v s

end HookM

/-- Hooks all three of which read their node only. -/
structure Hooks.ReadNode (h : Hooks) : Prop where
  capture : h.onCapture.ReadsNode
  substitute : h.onSubstitute.ReadsNode
  resolve : h.onResolve.ReadsNode

open HookM in
/-- The hooks of a template read nothing but their node. -/
theorem Replacement.readNode_hooks (template? : Option Text) (inline : Bool) :
    (hooks template? inline).ReadNode := by
  refine ⟨?_, ?_, readsNode_pure _⟩
  · cases template? with
    | none => exact readsNode_node.bind fun _ => readsNode_pure _
    | some template =>
      refine readsNode_node.bind fun n => ?_
      cases n.captures? with
      | none => exact readsNode_pure _
      | some captures =>
        dsimp only
        split
        · exact readsNode_pure _
        · exact readsNode_fail _
  · cases inline
    · exact readsNode_node.bind fun _ => readsNode_pure _
    · exact readsNode_node.bind fun _ => readsNode_pure _

/-! ## Trees that differ in the state of the parse -/

namespace Tree

variable {t t' : Tree} {seed : State} {id : NodeId}

/-- A tree with another state of the parse. -/
def withSeed (t : Tree) (seed : State) : Tree :=
  { t with globalState := seed }

/-- Children are linked alike, whatever the global state. -/
theorem linkChildren_withSeed (t : Tree) (seed : State) (id : NodeId) :
    (t.withSeed seed).linkChildren id = (t.linkChildren id).withSeed seed :=
  (linkChildren_comm (φ := (withSeed · seed)) (fun _ _ => ⟨rfl, rfl⟩) (fun _ _ _ _ => rfl)
    (fun _ _ _ => rfl) t id).symm

/-- Linking children keeps the global state. -/
theorem globalState_linkChildren : (t.linkChildren id).globalState = t.globalState := by
  have hglobal := congrArg globalState (linkChildren_withSeed t t.globalState id)
  exact hglobal

/-- Texts are expanded alike, whatever the global state. -/
theorem expand_withSeed (field : Node → Text) (text : Text) :
    (t.withSeed seed).expand field text = t.expand field text := by
  have hsize : (t.withSeed seed).size = t.size := rfl
  have howner (token : Text) : (t.withSeed seed).owner? token = t.owner? token := rfl
  have hfield (i : NodeId) : field ((t.withSeed seed).node i) = field (t.node i) := rfl
  exact expand_congr hsize howner hfield text

/-- The states of all nodes have no entries. -/
def Stateless (t : Tree) : Prop :=
  ∀ i, (t.node i).localState = .empty

/-- A change to a node that leaves its state empty leaves all states empty. -/
theorem Stateless.update {f : Node → Node} (h : t.Stateless) (id : NodeId)
    (hf : ∀ n, n.localState = .empty → (f n).localState = .empty) : (t.update id f).Stateless := by
  intro i
  rw [node_update]
  split
  · exact hf _ (h i)
  · exact h i

/-- A node with an empty state may be added. -/
theorem Stateless.push {n : Node} (h : t.Stateless) (hn : n.localState = .empty) :
    (t.push n).Stateless := by
  intro i
  rw [node_push]
  split
  · exact hn
  · exact h i

/-- The node of a match has an empty state. -/
theorem Stateless.addMatch {p : NodeId} {child : Rule} {m : Match} (h : t.Stateless) :
    (Engine.addMatch t p child m).Stateless := by
  have hpushed : (t.push (.fresh child.ref (some p) m.span m.captures.whole)).Stateless :=
    h.push rfl
  have hnew (token : Text) := hpushed.update t.size
    (f := fun n => { n with token? := some token, captures? := some m.captures }) fun _ hn => hn
  exact (hnew (t.registry.mint child.ref t.size).1).update p
    (f := fun n => { n with children := n.children ++ [t.size] }) fun _ hn => hn

/-- Linking children leaves all states empty. -/
theorem Stateless.linkChildren (h : t.Stateless) : (t.linkChildren id).Stateless := by
  have hlink (previous? : Option NodeId) (ids : List NodeId) :
      (linkFrom previous? ids t).Stateless := by
    induction ids generalizing previous? t with
    | nil => exact h
    | cons id ids ih =>
      exact ih (h.update id (f := fun n => { n with previous?, next? := ids.head? })
        fun _ hn => hn) (some id)
  exact (hlink none _).update _ fun _ hn => hn

/-- A parse starts without states of nodes. -/
theorem stateless_startTree (rule : Rule) (input : Text) :
    (Engine.startTree rule input seed).Stateless := by
  have hempty : (Tree.new seed).Stateless := fun _ => rfl
  exact hempty.push rfl

end Tree

namespace Engine

open Cascade.Tree

variable {g : Grammar} {seed seed' : State} {t t' : Tree}

/-- Two trees differ in the state of the parse at most, each having its own seed there, and the
states of their nodes have no entries. -/
structure SeedsApart (seed seed' : State) (t t' : Tree) : Prop where
  eq_withSeed : t' = t.withSeed seed'
  global_eq : t.globalState = seed
  stateless : t.Stateless

/-- A hook that reads its node only leaves the seeds where they are. -/
theorem hooksAlike_of_readsNode {α : Type} {hook : HookM α} (hhook : hook.ReadsNode)
    (h : SeedsApart seed seed' t t') (id : NodeId) :
    HooksAlike (SeedsApart seed seed') t t' id hook hook := by
  obtain ⟨rfl, rfl, hstateless⟩ := h
  obtain ⟨result, hresult⟩ := hhook
  have hnode : View.node ⟨t.withSeed seed', id⟩ = View.node ⟨t, id⟩ := rfl
  rw [HooksAlike, hresult, hresult, hnode]
  cases result (View.node ⟨t, id⟩) with
  | error message => exact .error message
  | ok a => exact .ok ⟨rfl, rfl, rfl, hstateless.update _ fun _ _ => hstateless id⟩

/-- A grammar whose hooks read their nodes only, side by side with itself, with two seeds. -/
def Simulation.ofSeeds (hg : ∀ r ∈ g.rules, r.hooks.ReadNode) (seed seed' : State) :
    Simulation g g where
  rules r r' := r = r' ∧ r ∈ g.rules
  trees := SeedsApart seed seed'
  name_eq h := congrArg Rule.name h.1
  pattern_eq h := congrArg Rule.pattern? h.1
  children := by
    rintro r _ ⟨rfl, -⟩
    refine List.forall₂_same.2 fun id _ => ?_
    cases hrule : g.ruleAt? id with
    | none => exact .none
    | some child => exact .some ⟨rfl, Array.mem_of_getElem? hrule⟩
  onCapture := by
    rintro r _ t t' id ⟨rfl, hr⟩ ht
    exact hooksAlike_of_readsNode (hg r hr).capture ht id
  onSubstitute := by
    rintro r _ t t' id ⟨rfl, hr⟩ ht
    exact hooksAlike_of_readsNode (hg r hr).substitute ht id
  onResolve := by
    rintro r _ t t' id ⟨rfl, hr⟩ ht
    exact hooksAlike_of_readsNode (hg r hr).resolve ht id
  size_eq h := by rw [h.eq_withSeed]; rfl
  working_eq id h := by rw [h.eq_withSeed]; rfl
  own_eq id h := by rw [h.eq_withSeed]; rfl
  trees_addMatch := by
    rintro r _ t _ p m ⟨rfl, -⟩ ⟨rfl, rfl, hstateless⟩
    exact ⟨rfl, rfl, hstateless.addMatch⟩
  trees_setModified := by
    rintro t _ id text ⟨rfl, rfl, hstateless⟩
    exact ⟨rfl, rfl, hstateless.update _ fun _ hn => hn⟩
  trees_setWorking := by
    rintro t _ id text ⟨rfl, rfl, hstateless⟩
    exact ⟨rfl, rfl, hstateless.update _ fun _ hn => hn⟩
  trees_linkChildren := by
    rintro t _ id ⟨rfl, rfl, hstateless⟩
    exact ⟨linkChildren_withSeed t seed' id, globalState_linkChildren, hstateless.linkChildren⟩

/-- What is the same in two trees that come from one input and two seeds. -/
structure SameButSeed (seed seed' : State) (t t' : Tree) : Prop where
  nodes_eq : t.nodes = t'.nodes
  registry_eq : t.registry = t'.registry
  render_eq : t.render = t'.render
  unmask_eq : ∀ text, t.unmask text = t'.unmask text
  global_eq : t.globalState = seed ∧ t'.globalState = seed'
  own_eq : ∀ i, (t.node i).localState = .empty ∧ (t'.node i).localState = .empty

/-- Trees that differ in their seeds alone are the same but for these. -/
theorem SeedsApart.sameButSeed (h : SeedsApart seed seed' t t') : SameButSeed seed seed' t t' := by
  obtain ⟨rfl, rfl, hstateless⟩ := h
  refine ⟨rfl, rfl, ?_, fun text => ?_, ⟨rfl, rfl⟩, fun i => ⟨hstateless i, hstateless i⟩⟩
  · exact (expand_withSeed _ _).symm
  · exact (expand_withSeed _ text).symm

/-- Parses whose hooks read nothing but their nodes go alike from any seed. -/
theorem alike_run_of_readNode (hg : ∀ r ∈ g.rules, r.hooks.ReadNode) {rule : Rule}
    (hrule : rule ∈ g.rules) (input : Text) (seed seed' : State) :
    Alike (SameButSeed seed seed') (run g rule input seed) (run g rule input seed') := by
  have hstart : SeedsApart seed seed' (startTree rule input seed) (startTree rule input seed') :=
    ⟨rfl, rfl, stateless_startTree rule input⟩
  exact ((Simulation.ofSeeds hg seed seed').alike_run ⟨rfl, hrule⟩ hstart).mono
    fun _ _ _ _ h => h.sameButSeed

/-- With a grammar that is given as data, parses of an input from two seeds fail with the same
error, or the trees are the same, each with its own seed as the state of the parse, and the states
of all nodes have no entries. -/
theorem sameButSeed_of_compile {compiler : PatternCompiler} {dg : DataGrammar}
    (h : dg.compile compiler = .ok g) (input : Text) (seed seed' : State) :
    Alike (SameButSeed seed seed') (g.parse input seed) (g.parse input seed') ∧
    ∀ name, Alike (SameButSeed seed seed') (g.parseFrom name input seed)
      (g.parseFrom name input seed') := by
  have hg : ∀ r ∈ g.rules, r.hooks.ReadNode := by
    intro r hr
    obtain ⟨d, -, hhooks⟩ := DataGrammar.exists_template_of_compile h r hr
    rw [hhooks]
    exact Replacement.readNode_hooks d.replacement? d.inline
  have hroot : g.root ∈ g.rules := (Grammar.exists_definition_of_compile h).2.2
  refine ⟨alike_run_of_readNode hg hroot input seed seed', fun name => ?_⟩
  unfold Grammar.parseFrom
  cases hrule : g.rule? name with
  | none => exact .error _
  | some rule =>
    exact alike_run_of_readNode hg (Array.mem_of_find?_eq_some hrule) input seed seed'

/-- A grammar of one rule, which puts what it has found into angle brackets. -/
def quoting : DataGrammar where
  name := []
  root := "Root".toList
  rules := [⟨"Root".toList, none, none, false⟩,
    ⟨"a".toList, some ['x'], some ['<', '$', '0', '>'], false⟩]
  wiring := "Root:\n  - a".toList

/-- A state with the flag that keeps the rule from matching. -/
def skippingSeed : State :=
  State.empty.put (State.skipKey ['a']) (.bool true)

/-- A seed in which a rule is to be skipped keeps the rule from nothing. -/
theorem sameButSeed_of_compile_quoting : ∃ g t t', quoting.compile Regex.compiler = .ok g ∧
    g.parse ['x'] .empty = .ok t ∧ g.parse ['x'] skippingSeed = .ok t' ∧ t.size = 2 ∧
    t.render = ['<', 'x', '>'] ∧ SameButSeed .empty skippingSeed t t' := by
  have hcompiled : (quoting.compile Regex.compiler).map (fun g =>
      (g.parse ['x'] .empty).map fun t => (t.size, t.render)) =
        .ok (.ok (2, ['<', 'x', '>'])) := by decide +kernel
  obtain ⟨g, hcompile, hparsed⟩ := map_eq_ok.1 hcompiled
  obtain ⟨t, ht, hresult⟩ := map_eq_ok.1 hparsed
  obtain ⟨hsize, hrender⟩ := Prod.mk.inj hresult
  obtain ⟨halike, -⟩ := sameButSeed_of_compile hcompile ['x'] .empty skippingSeed
  rw [ht] at halike
  obtain ⟨t', ht', hsame⟩ := halike.exists_ok
  exact ⟨g, t, t', hcompile, ht, ht', hsize, hrender, hsame⟩

end Engine

end Cascade
