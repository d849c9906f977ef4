import Cascade.Proofs.Engine.Buffer
import Cascade.Proofs.Engine.Freeze
import Cascade.Proofs.Engine.Order
import Cascade.Proofs.Tree.Sibling

/-!
# Children are in order in every tree of a parse

The children of a node are created search by search, and put in order when the node is resolved.
From then on they stay as they are, so that in the end the children of all nodes are in order. The
matches of one search stand one behind the other, and so do their nodes among the children.

* `Runs.arranged`: when a node is resolved, its children are in order.
* `arranged_of_history`: at the end of a parse, those of all nodes are.
* `Grouped`, `Arises.grouped`: the children of a node by the searches that have found them.
* `siblings_of_history`: the children of the nodes of a parse.
-/

namespace Cascade

/-- The nodes are those of the matches that a rule has found in one search of the text of the node
`p`, in the order in which they were found. -/
def IsPass (t : Tree) (events : List Event) (p : NodeId) (searcher : Rule × Pattern)
    (group : List NodeId) : Prop :=
  ∃ text, .search p searcher.1 searcher.2 text ∈ events ∧
    List.Forall₂ (t.IsMatch searcher.1) group (searcher.2.scan text)

/-- The children of a node that belongs to a rule, by the searches that have found them: each rule
below the rule of the node, unless it has no pattern or is skipped, has searched the text once. -/
structure Grouped (g : Grammar) (t : Tree) (events : List Event) (rule : Rule) (p : NodeId)
    (groups : List (List NodeId)) : Prop where
  passes : ∃ own, Captured t events rule p (t.node p).modified own ∧
    List.Forall₂ (IsPass t events p) (rule.children.filterMap (g.searcher? own)) groups
  perm : groups.flatten.Perm (t.node p).children
  /-- Nodes were created in the order in which their matches were found. -/
  created : groups.flatten.Pairwise (· < ·)

section

variable {g : Grammar} {t : Tree} {events : List Event} {p : NodeId} {rule : Rule}
  {searchers : List (Rule × Pattern)} {searcher : Rule × Pattern} {group ids : List NodeId}
  {groups : List (List NodeId)} {before after : Text}

theorem Searches.exists_groups (h : Searches t events p searchers before ids after) :
    ∃ groups : List (List NodeId),
      groups.flatten = ids ∧ List.Forall₂ (IsPass t events p) searchers groups := by
  induction h with
  | nil => exact ⟨[], rfl, .nil⟩
  | @cons rule pattern searchers before after group ids changes hsearch hmatches _ _ ih =>
    obtain ⟨groups, hflatten, hgroups⟩ := ih
    exact ⟨group :: groups, by rw [List.flatten_cons, hflatten],
      .cons ⟨before, hsearch, hmatches⟩ hgroups⟩

theorem Arises.grouped (h : Arises g t events rule p (t.node p)) :
    ∃ groups, Grouped g t events rule p groups := by
  obtain ⟨own, ids, hcaptured, hperm, hcreated, hsearches⟩ := h
  obtain ⟨groups, rfl, hgroups⟩ := hsearches.exists_groups
  exact ⟨groups, ⟨own, hcaptured, hgroups⟩, hperm, hcreated⟩

/-- The nodes of the matches of one search start and stop where the matches do. -/
theorem IsPass.spans (h : IsPass t events p searcher group) :
    ∃ text, group.map (fun i => (t.node i).span) = (searcher.2.scan text).map Match.span := by
  obtain ⟨text, -, hmatches⟩ := h
  refine ⟨text, ?_⟩
  rw [← List.forall₂_eq_eq_eq, List.forall₂_map_left_iff, List.forall₂_map_right_iff]
  exact hmatches.imp fun _ _ hm => hm.span_eq

/-- The nodes that one search has found stand one behind the other, and in this order among the
children of their parent. -/
theorem IsPass.inOrder (h : IsPass t events p searcher group) (hadvances : searcher.2.Advances)
    (hgroup : group ⊆ (t.node p).children) (hsorted : (t.node p).children.Pairwise t.Before) :
    group.Sublist (t.node p).children ∧ Text.InOrder (group.map fun i => (t.node i).span) := by
  obtain ⟨text, hspans⟩ := h.spans
  have hpairwise := hadvances text
  rw [← hspans] at hpairwise
  have hbefore : group.Pairwise t.Before :=
    (List.pairwise_map.1 hpairwise).imp fun hij => .inl hij.1
  have hnodup : group.Nodup := hbefore.imp fun hij => hij.ne
  exact ⟨List.sublist_of_subperm_of_pairwise (hnodup.subperm hgroup) hbefore hsorted,
    hpairwise.imp And.right⟩

theorem Grouped.inOrder (h : Grouped g t events rule p groups) (hadvances : g.Advances)
    (hsorted : (t.node p).children.Pairwise t.Before) : ∀ group ∈ groups,
      group.Sublist (t.node p).children ∧ Text.InOrder (group.map fun i => (t.node i).span) := by
  intro group hgroup
  obtain ⟨own, -, hpasses⟩ := h.passes
  obtain ⟨searcher, hsearcher, hpass⟩ := exists_of_mem_right hpasses hgroup
  obtain ⟨id, -, hid⟩ := List.mem_filterMap.1 hsearcher
  obtain ⟨hchild, hpattern⟩ := Grammar.mem_rules_of_searcher? hid
  refine hpass.inOrder (hadvances _ hchild _ hpattern) (fun i hi => ?_) hsorted
  exact h.perm.mem_iff.1 (List.mem_flatten_of_mem hgroup hi)

end

namespace Engine

open List (forall_mem_append forall_mem_cons forall_mem_nil forall_mem_singleton)
open Cascade.Tree

variable {g : Grammar} {levels : Nat} {task : Task} {t t' : Tree} {events : List Event}
  {edits : List (Span × Text)} {p : NodeId}

/-- The hook that is called when a node is resolved, if the event is such a call, sees the children
of the node in order. -/
def SeesArranged : Event → Prop
  | .call _ .resolve v => v.tree.Arranged v.id
  | _ => True

/-- The children that a search adds are listed in the order in which they are created. -/
theorem Runs.created {rules : List RuleId} (h : Runs g levels (.search p rules) t events edits t')
    (hp : p < t.size) :
    ∃ ids, (t'.node p).children = (t.node p).children ++ ids ∧ Created t t' ids := by
  have hready : (Task.search p rules).Ready t := ⟨hp, trivial⟩
  obtain ⟨⟨ids, hchildren, hcreated, -⟩, -⟩ := h.outcome hready (T := t') trivial
    (fun _ _ _ => rfl) (List.Subset.refl _)
  exact ⟨ids, hchildren, hcreated⟩

/-- When a node has been searched that had no children at first, its children can be put in
order. -/
theorem arranged_of_search {rules : List RuleId}
    (h : Runs g levels (.search p rules) t events edits t') (hp : p < t.size)
    (hchildren : (t.node p).children = []) : (t'.linkChildren p).Arranged p := by
  have hready : (Task.search p rules).Ready t := ⟨hp, trivial⟩
  obtain ⟨ids, hids, hcreated, hnew⟩ := h.created hp
  rw [hchildren, List.nil_append] at hids
  refine arranged_linkChildren (hp.trans_le (h.frame hready).size_le) (fun i hi => ?_)
    (hids ▸ hcreated)
  obtain ⟨hle, hlt⟩ := hnew i (hids ▸ hi)
  exact ⟨hp.trans_le hle, hlt⟩

/-- Whenever a node is resolved in a part of a parse, its children are in order. -/
theorem Runs.arranged (h : Runs g levels task t events edits t') (hready : task.Ready t) :
    ∀ e ∈ events, SeesArranged e := by
  induction h with
  | @node levels id rule t t₁ t₂ t₃ text events hcapture hsearch _ ih =>
    obtain ⟨s₁, -, rfl⟩ := hcapture
    obtain ⟨hid, hchildren⟩ : id < t.size ∧ (t.node id).children = [] := hready
    have hid₁ : id < ((View.withStates ⟨t, id⟩ s₁).setModified id text).size := by simpa using hid
    -- the hook that is called first leaves the node without children
    have hself : ((View.withStates ⟨t, id⟩ s₁).setModified id text).node id = _ :=
      node_setModified_self (by simpa using hid)
    have hchildren₁ : (((View.withStates ⟨t, id⟩ s₁).setModified id text).node id).children =
        [] := by
      rw [hself, View.node_withStates_self (v := ⟨t, id⟩) hid]
      exact hchildren
    exact forall_mem_cons.2 ⟨trivial, forall_mem_append.2
      ⟨ih ⟨hid₁, trivial⟩, forall_mem_singleton.2 (arranged_of_search hsearch hid₁ hchildren₁)⟩⟩
  | searchNil => exact forall_mem_nil _
  | searchSkip _ _ ih => exact ih hready
  | @searchPass levels p id ids child pattern t t₁ t₂ events later edits _ hresolve _ ih ih' =>
    obtain ⟨hp, -⟩ : p < t.size ∧ True := hready
    have hp₁ : p < t₁.size := hp.trans_le (hresolve.frame ⟨hp, trivial⟩).size_le
    exact forall_mem_cons.2 ⟨trivial, forall_mem_append.2
      ⟨ih ⟨hp, trivial⟩, ih' (Task.ready_setWorking hp₁)⟩⟩
  | resolveNil => exact forall_mem_nil _
  | @resolveCons levels p child m found t t₁ t₂ t₃ replacement events later edits hnode hsubstitute
      _ ih ih' =>
    obtain ⟨hp, -⟩ : p < t.size ∧ True := hready
    have hp₂ : p < t₂.size := lt_size_of_match hnode hp hsubstitute
    exact forall_mem_append.2 ⟨ih (Task.ready_addMatch hp),
      forall_mem_cons.2 ⟨trivial, ih' ⟨hp₂, trivial⟩⟩⟩

/-! ## Whole parses -/

variable {rule : Rule} {input : Text} {seed : State}

/-- Each node of a tree has been resolved in the parse that returns the tree. -/
theorem exists_resolve_of_history (h : history g rule input seed = (.ok t, events))
    (hp : p < t.size) : ∃ r v, .call r .resolve v ∈ events ∧ v.id = p := by
  obtain ⟨hend, -⟩ := (runs_of_history h).follows (Awaits.startTree rule input seed) rfl
  have hcount : (hookCalls events).count (t.call p .resolve) = _ :=
    hend.calledInOrder.count_eq p hp .resolve
  rw [if_neg (by simp)] at hcount
  have hmem : t.call p .resolve ∈ hookCalls events := by
    rw [← List.count_pos_iff, hcount]
    exact Nat.one_pos
  obtain ⟨e, he, hcall⟩ := List.mem_filterMap.1 hmem
  cases e with
  | search => contradiction
  | call r stage v =>
    obtain ⟨-, rfl, hv⟩ : r.ref = (t.node p).rule ∧ stage = .resolve ∧ v.id = p := by
      simpa [Event.hookCall?, Tree.call] using hcall
    exact ⟨r, v, he, hv⟩

/-- In the tree that a parse returns, the children of each node are in order. -/
theorem arranged_of_history (h : history g rule input seed = (.ok t, events)) (hp : p < t.size) :
    t.Arranged p := by
  obtain ⟨r, v, hmem, rfl⟩ := exists_resolve_of_history h hp
  have hsound := sound_of_history g rule input seed
  have hleaves := (leaves_of_history g rule input seed).2 t
  rw [h] at hsound hleaves
  have hv : v.tree.Arranged v.id :=
    (runs_of_history h).arranged (ready_startTree rule input seed) _ hmem
  obtain ⟨hlinked, hlt⟩ : Sound g v.tree ∧ v.id < v.tree.size := hsound _ hmem
  -- neither the list of the children nor the children have changed since the node was resolved
  have hfrozen : v.tree.Frozen Node.settled v.id t :=
    frozen_of_later (hleaves rfl _ hmem) hlinked hlt (fun _ _ => Node.settled_eq_of_unlinked_eq)
      fun _ _ => Node.children_eq_of_settled_eq
  exact hv.congr (Node.children_eq_of_settled_eq hfrozen.mask_eq) fun i hi =>
    hfrozen.node_eq i (.single (hlinked.linked.mem_children.1 hi))

/-- The root of a tree stands alone. -/
theorem stands_root_of_history (h : history g rule input seed = (.ok t, events)) :
    t.Stands [] root [] := by
  have hframe : Frame root Node.core (startTree rule input seed) t :=
    (runs_of_history h).frame (ready_startTree rule input seed)
  have hprevious := congrArg Node.previous? hframe.mask_eq
  have hnext := congrArg Node.next? hframe.mask_eq
  exact stands_alone (Nat.zero_lt_one.trans_le hframe.size_le) hprevious hnext

/-- In the tree that a parse returns, the list of the children of a node has exactly the nodes whose
parent the node is, each of them once, sorted by where they start and, where they start at one
place, by when they were created. Each child is linked to its neighbours in the list, and following
these links comes to the nearest child on either side that belongs to a rule, or to an end if there
is none. The root has no links. The children that one search has found stand in the list in the
order of their matches, and do not overlap, if all patterns advance. -/
theorem siblings_of_history (g : Grammar) (rule : Rule) (input : Text) (seed : State) (t : Tree)
    (hok : (history g rule input seed).1 = .ok t) :
    t.Stands [] root [] ∧ ∀ p < t.size,
      (t.node p).children.Nodup ∧ (∀ i, i ∈ (t.node p).children ↔ t.IsParent p i) ∧
      (t.node p).children.Pairwise t.Before ∧
      (∀ before i after, (t.node p).children = before ++ i :: after → t.Stands before i after) ∧
      ∃ r groups, (p = root ∧ r = rule ∨ r ∈ g.rules) ∧ r.ref = (t.node p).rule ∧
        Grouped g t (history g rule input seed).2 r p groups ∧
        (g.Advances → ∀ group ∈ groups, group.Sublist (t.node p).children ∧
          Text.InOrder (group.map fun i => (t.node i).span)) := by
  have hhistory : history g rule input seed = (.ok t, (history g rule input seed).2) :=
    Prod.ext hok rfl
  have hruns := runs_of_history hhistory
  have hlinked : t.Linked :=
    ((hruns.steps Nat.zero_lt_one trivial).1.sound (sound_startTree ..)).1.linked
  refine ⟨stands_root_of_history hhistory, fun p hp => ?_⟩
  have harranged : t.Arranged p := arranged_of_history hhistory hp
  obtain ⟨r, hr, href, harises⟩ := hruns.arises p hp
  obtain ⟨groups, hgroups⟩ := harises.grouped
  exact ⟨hlinked.nodup_children p, fun _ => hlinked.mem_children, harranged.sorted,
    fun _ _ _ => harranged.stands hlinked, r, groups, hr, href, hgroups,
    fun hadvances => hgroups.inOrder hadvances harranged.sorted⟩

/-- The first rule finds two matches, and the second one finds a match before both of them. -/
theorem siblings_of_history_ofPair :
    (Grammar.ofPair 'a' ['b'] .identity).Advances ∧
      ∃ t, (history (.ofPair 'a' ['b'] .identity) (Grammar.ofPair 'a' ['b'] .identity).root
        ['b', 'a', 'a'] .empty).1 = .ok t ∧ t.size = 4 ∧
        (t.node root).children = [3, 1, 2] ∧ t.Stands [3] 1 [2] ∧
        ∃ r groups, Grouped (.ofPair 'a' ['b'] .identity) t
          (history (.ofPair 'a' ['b'] .identity) (Grammar.ofPair 'a' ['b'] .identity).root
            ['b', 'a', 'a'] .empty).2 r root groups ∧
          ∀ group ∈ groups, group.Sublist [3, 1, 2] ∧
            Text.InOrder (group.map fun i => (t.node i).span) := by
  have hadvances := Grammar.ofPair_advances 'a' ['b'] .identity
  have hshape : (history (.ofPair 'a' ['b'] .identity)
      (Grammar.ofPair 'a' ['b'] .identity).root ['b', 'a', 'a'] .empty).1.map
        (fun t => (t.size, (t.node root).children)) = .ok (4, [3, 1, 2]) := by decide +kernel
  have hsiblings := siblings_of_history (.ofPair 'a' ['b'] .identity)
    (Grammar.ofPair 'a' ['b'] .identity).root ['b', 'a', 'a'] .empty
  refine ⟨hadvances, ?_⟩
  revert hshape hsiblings
  generalize history _ _ _ _ = result
  obtain ⟨e | t, events⟩ := result
  · intro hshape
    contradiction
  · intro hshape hsiblings
    obtain ⟨hsize, hchildren⟩ : t.size = 4 ∧ (t.node root).children = [3, 1, 2] := by
      simpa using Except.ok.inj hshape
    obtain ⟨-, hall⟩ := hsiblings t rfl
    obtain ⟨-, -, -, hstands, r, groups, -, -, hgroups, horder⟩ :=
      hall root (hsize ▸ Nat.zero_lt_succ 3)
    exact ⟨t, rfl, hsize, hchildren, hstands [3] 1 [2] hchildren, r, groups, hgroups,
      hchildren ▸ horder hadvances⟩

end Engine

end Cascade
