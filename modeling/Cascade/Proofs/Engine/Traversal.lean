import Cascade.Proofs.Engine.Order
import Cascade.Proofs.Engine.Step
import Cascade.Proofs.Grammar.Compile
import Cascade.Proofs.Tree.Serialized

/-!
# What is met in the tree of a parse

All nodes of the tree of a parse lie below its root, and each of them has one parent. So whoever
goes through the tree, from a stack or in its serialised form, meets all nodes that there are to be
met, none of them twice.

* `below_root_of_run`: all nodes lie below the root.
* `nodeJson_inj_of_run`, `nodup_nodeJson_of_run`: nodes are told apart by their serialised forms.
* `traversals_of_run`: what is found below a node, and what a serialised tree shows.
-/

namespace Cascade.Engine

open Cascade.Tree
open Relation (ReflTransGen)

variable {g : Grammar} {rule : Rule} {input : Text} {seed : State} {t : Tree}

theorem below_root_of_run (h : run g rule input seed = .ok t) :
    root < t.size ∧ ∀ i < t.size, ReflTransGen t.IsParent root i := by
  obtain ⟨events, hruns⟩ := runs_of_run h
  obtain ⟨hend, -⟩ := hruns.follows (Awaits.startTree rule input seed) rfl
  exact ⟨hend.root_lt, hend.below_root⟩

/-- Nodes are told apart by their serialised forms, if rules are by their names. The numbers in
tokens are words, so this takes that there are no more nodes than words. -/
theorem nodeJson_inj_of_run (h : run g rule input seed = .ok t) (hnamed : g.Named)
    (hapart : g.NamesApart) (hsize : t.size ≤ Text.wordBound) {i j : NodeId} (hi : i < t.size)
    (hj : j < t.size) (heq : t.nodeJson i = t.nodeJson j) : i = j := by
  have hsound : Sound g t := sound_of_run h
  refine hsound.minted.nodeJson_inj hsound.linked hsize (fun i hroot hi => ?_)
    (fun i j hi0 hi hj0 hj hname => ?_) hi hj heq
  · obtain ⟨r, hr, href⟩ := hsound.rule i hroot hi
    rw [href]
    exact Token.ne_nil_of_isRuleName (hnamed r hr)
  · obtain ⟨r, hr, href⟩ := hsound.rule i hi0 hi
    obtain ⟨r', hr', href'⟩ := hsound.rule j hj0 hj
    rw [href, href'] at hname ⊢
    exact hapart r hr r' hr' hname

/-- In preorder, all nodes of the tree of a parse are met. -/
theorem preorder_perm_of_run (h : run g rule input seed = .ok t) :
    (t.preorder root).Perm (List.range t.size) := by
  obtain ⟨hroot, hbelow⟩ := below_root_of_run h
  exact (sound_of_run h).linked.preorder_root_perm hbelow hroot

/-- No node is shown twice in the serialised tree, if rules are told apart by their names. -/
theorem nodup_nodeJson_of_run (h : run g rule input seed = .ok t) (hnamed : g.Named)
    (hapart : g.NamesApart) (hsize : t.size ≤ Text.wordBound) :
    (t.nodeJson root).preorder.Nodup := by
  have hlinked : t.Linked := (sound_of_run h).linked
  have hlt : ∀ i ∈ t.preorder root, i < t.size := fun i hi =>
    List.mem_range.1 ((preorder_perm_of_run h).mem_iff.1 hi)
  -- each node is met once, and no other one is shown in the same way
  rw [hlinked.preorder_nodeJson]
  exact (hlinked.nodup_preorder root).map_on fun i hi j hj =>
    nodeJson_inj_of_run h hnamed hapart hsize (hlt i hi) (hlt j hj)

/-- In the tree that a parse returns, the nodes below a node that belong to a rule are found in
preorder, from a stack of waiting nodes that runs empty. Each of them is found once, and nothing
else is. The serialised form of the tree, read in preorder, shows all nodes of the tree, each of
them once, with the serialised forms of those whose parent it is, in the order in which these are
listed. What is shown of a node is all that it is: its rule, its span, its token, its texts, its
groups and its own state. If rules have proper names that tell them apart, no two nodes are shown
alike. -/
theorem traversals_of_run (g : Grammar) (rule : Rule) (input : Text) (seed : State) (t : Tree)
    (hok : run g rule input seed = .ok t) :
    (∀ n, t.preorder n = n :: (t.node n).children.flatMap t.preorder) ∧
    (∀ n r, t.Collects r (t.node n).children.reverse (t.descendantsNamed n r) ∧
      t.descendantsNamed n r = t.named r (t.preorder n).tail ∧
      (t.descendantsNamed n r).Nodup ∧
      ∀ i, i ∈ t.descendantsNamed n r ↔ t.IsAbove n i ∧ (t.node i).rule.name = r) ∧
    (∀ p i, i ∈ (t.node p).children ↔ t.IsParent p i) ∧
    (t.preorder root).Perm (List.range t.size) ∧
    t.toJson.member? "root".toList = some (t.nodeJson root) ∧
    (t.nodeJson root).preorder = (t.preorder root).map t.nodeJson ∧
    (∀ n, (t.nodeJson n).Shows (t.node n) ∧
      t.nodeJson n = (t.node n).toJson ((t.node n).children.map t.nodeJson) ∧
      (t.nodeJson n).nested = (t.node n).children.map t.nodeJson) ∧
    (g.Named → g.NamesApart → t.size ≤ Text.wordBound → (t.nodeJson root).preorder.Nodup) := by
  have hlinked : t.Linked := (sound_of_run hok).linked
  refine ⟨hlinked.preorder_eq, fun n r => ⟨?_, hlinked.descendantsNamed_eq n r, ?_, fun i => ?_⟩,
    fun p i => hlinked.mem_children, preorder_perm_of_run hok, rfl,
    hlinked.preorder_nodeJson root,
    fun n => ⟨hlinked.shows_nodeJson n, hlinked.nodeJson_eq n, hlinked.nested_nodeJson n⟩,
    fun hnamed hapart hsize => ?_⟩
  · rw [hlinked.descendantsNamed_eq, hlinked.preorder_eq]
    exact hlinked.collects_reverse r _
  · rw [hlinked.descendantsNamed_eq]
    exact (hlinked.nodup_preorder n).tail.filter _
  · rw [hlinked.descendantsNamed_eq, hlinked.preorder_eq, List.tail_cons, named, List.mem_filter,
      hlinked.mem_flatMap_preorder, decide_eq_true_iff]
  · exact nodup_nodeJson_of_run hok hnamed hapart hsize

/-- A match in a match is found below the root, and shown in the serialised tree. -/
theorem traversals_of_run_ofNested :
    ∃ t, run (.ofNested ['a', 'b'] ['b'] .identity .identity .identity)
        (Grammar.ofNested ['a', 'b'] ['b'] .identity .identity .identity).root
        ['x', 'a', 'b'] .empty = .ok t ∧
      t.descendantsNamed root ['v'] = [2] ∧ t.IsAbove root 2 ∧
      (t.preorder root).Perm [0, 1, 2] ∧
      (t.nodeJson root).preorder = (t.preorder root).map t.nodeJson ∧
      (t.nodeJson 2).Shows (t.node 2) ∧ (t.nodeJson root).preorder.Nodup := by
  have hshape : (run (.ofNested ['a', 'b'] ['b'] .identity .identity .identity)
      (Grammar.ofNested ['a', 'b'] ['b'] .identity .identity .identity).root
      ['x', 'a', 'b'] .empty).map (fun t => (t.size, t.descendantsNamed root ['v'])) =
        .ok (3, [2]) := by decide +kernel
  have hnamed : (Grammar.ofNested ['a', 'b'] ['b'] .identity .identity .identity).Named := by
    unfold Grammar.Named
    decide
  have hapart : (Grammar.ofNested ['a', 'b'] ['b'] .identity .identity .identity).NamesApart := by
    unfold Grammar.NamesApart
    decide
  have htraversals := traversals_of_run (.ofNested ['a', 'b'] ['b'] .identity .identity .identity)
    (Grammar.ofNested ['a', 'b'] ['b'] .identity .identity .identity).root ['x', 'a', 'b'] .empty
  revert hshape htraversals
  generalize run _ _ _ _ = result
  cases result with
  | error e =>
    intro hshape
    contradiction
  | ok t =>
    intro hshape htraversals
    obtain ⟨hsize, hfound⟩ : t.size = 3 ∧ t.descendantsNamed root ['v'] = [2] := by
      simpa using Except.ok.inj hshape
    obtain ⟨-, hdescendants, -, hperm, -, hshown, hshows, hnodup⟩ := htraversals t rfl
    obtain ⟨-, -, -, hmem⟩ := hdescendants root ['v']
    have hbound : t.size ≤ Text.wordBound := by
      rw [hsize]
      decide
    rw [hsize] at hperm
    exact ⟨t, rfl, hfound, ((hmem 2).1 (hfound ▸ List.mem_singleton_self 2)).1, hperm, hshown,
      (hshows 2).1, hnodup hnamed hapart hbound⟩

end Cascade.Engine
