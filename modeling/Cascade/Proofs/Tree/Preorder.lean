import Cascade.Proofs.Tree.Sibling
import Cascade.Proofs.Tree.Trace

/-!
# The nodes of a tree in preorder

A node comes before all that is below it, and its children have their turn one behind the other, in
the order in which they are listed. A stack of waiting nodes leads through a tree in this order, as
long as the children of a node are put on it the last one first.

* `preorder`: the nodes from a node on, by recursion over the children.
* `Linked.mem_preorder`, `Linked.nodup_preorder`: what is met in preorder, each node once.
* `Collects`: what is collected from a stack, without a bound on the steps.
* `Linked.collects_reverse`, `Linked.collect_reverse`: from a stack, nodes are met in preorder.
* `Linked.descendantsNamed_eq`: how the nodes below a node that belong to a rule are found.
-/

namespace Cascade.Tree

open Relation

variable {t : Tree} {n i : NodeId} {ids : List NodeId} {rule : Text}

/-- The children of a node that are younger than the node. In the tree of a parse all of them are,
and without that a tree need not come to an end. -/
def younger (t : Tree) (n : NodeId) : List NodeId :=
  (t.node n).children.filter fun i => n < i ∧ i < t.size

theorem sub_lt_of_mem_younger (h : i ∈ t.younger n) : t.size - i < t.size - n := by
  obtain ⟨hni, hi⟩ := of_decide_eq_true (List.mem_filter.1 h).2
  exact Nat.sub_lt_sub_left (hni.trans hi) hni

/-- A node and all that is below it, a node before what is below it, and children in the order in
which they are listed. -/
def preorder (t : Tree) (n : NodeId) : List NodeId :=
  n :: ((t.younger n).attach.flatMap fun ⟨i, _⟩ => t.preorder i)
termination_by t.size - n
decreasing_by exact sub_lt_of_mem_younger ‹_›

/-- What comes of a stack of waiting nodes if the last one is visited and gives its place to its
children, as long as there is one: the nodes that belong to a rule, in the order in which they are
visited. -/
inductive Collects (t : Tree) (rule : Text) : List NodeId → List NodeId → Prop where
  | done : Collects t rule [] []
  | take {stack found : List NodeId} {i : NodeId} (hrule : (t.node i).rule.name = rule)
      (hrest : Collects t rule (stack ++ (t.node i).children.reverse) found) :
      Collects t rule (stack ++ [i]) (i :: found)
  | pass {stack found : List NodeId} {i : NodeId} (hrule : (t.node i).rule.name ≠ rule)
      (hrest : Collects t rule (stack ++ (t.node i).children.reverse) found) :
      Collects t rule (stack ++ [i]) found

/-- Of a list of nodes, those that belong to a rule. -/
def named (t : Tree) (rule : Text) (ids : List NodeId) : List NodeId :=
  ids.filter fun i => (t.node i).rule.name = rule

theorem collect_nil (steps : Nat) : t.collect rule steps [] = [] := by
  cases steps <;> rfl

theorem collect_concat (steps : Nat) (stack : List NodeId) (i : NodeId) :
    t.collect rule (steps + 1) (stack ++ [i]) =
      if (t.node i).rule.name = rule
      then i :: t.collect rule steps (stack ++ (t.node i).children.reverse)
      else t.collect rule steps (stack ++ (t.node i).children.reverse) := by
  simp [collect]

namespace Linked

variable (h : t.Linked)

include h

theorem younger_eq (n : NodeId) : t.younger n = (t.node n).children := by
  refine List.filter_eq_self.2 fun i hi => decide_eq_true ?_
  have hparent : t.IsParent n i := h.mem_children.1 hi
  exact ⟨h.parent_lt hparent, lt_size_of_isParent hparent⟩

/-- A node comes before all that lies below it, child by child. -/
theorem preorder_eq (n : NodeId) :
    t.preorder n = n :: (t.node n).children.flatMap t.preorder := by
  rw [preorder, ← h.younger_eq]
  simp

/-- In preorder, a node and all that is below it are met. -/
theorem mem_preorder : i ∈ t.preorder n ↔ ReflTransGen t.IsParent n i := by
  induction n using preorder.induct t with
  | case1 n ih =>
    simp only [h.younger_eq] at ih
    rw [h.preorder_eq, List.mem_cons, List.mem_flatMap]
    constructor
    · rintro (rfl | ⟨j, hj, hi⟩)
      · exact .refl
      · exact .head (h.mem_children.1 hj) ((ih j hj).1 hi)
    · intro hpath
      rcases hpath.cases_head with rfl | ⟨j, hj, hpath⟩
      · exact .inl rfl
      · have hmem : j ∈ (t.node n).children := h.mem_children.2 hj
        exact .inr ⟨j, hmem, (ih j hmem).2 hpath⟩

/-- What is met below a node is what the node lies above. -/
theorem mem_flatMap_preorder :
    i ∈ (t.node n).children.flatMap t.preorder ↔ t.IsAbove n i := by
  rw [List.mem_flatMap, IsAbove, TransGen.head'_iff]
  simp only [h.mem_preorder, h.mem_children]

/-- In preorder, no node is met twice. -/
theorem nodup_preorder (n : NodeId) : (t.preorder n).Nodup := by
  induction n using preorder.induct t with
  | case1 n ih =>
    simp only [h.younger_eq] at ih
    rw [h.preorder_eq, List.nodup_cons, h.mem_flatMap_preorder]
    refine ⟨fun ha => (h.lt_of_isAbove ha).ne rfl, List.nodup_flatMap.2 ⟨ih, ?_⟩⟩
    refine (h.nodup_children n).imp_of_mem fun hi hj hij k hki hkj => hij ?_
    exact h.eq_of_isParent (h.mem_children.1 hi) (h.mem_children.1 hj)
      (h.mem_preorder.1 hki) (h.mem_preorder.1 hkj)

/-- If all nodes lie below the root, all of them are met from there, each of them once. -/
theorem preorder_root_perm (hbelow : ∀ i < t.size, ReflTransGen t.IsParent root i)
    (hroot : root < t.size) : (t.preorder root).Perm (List.range t.size) := by
  refine (List.perm_ext_iff_of_nodup (h.nodup_preorder root) List.nodup_range).2 fun i => ?_
  rw [h.mem_preorder, List.mem_range]
  refine ⟨fun hpath => ?_, hbelow i⟩
  rcases hpath.cases_tail with rfl | ⟨p, -, hp⟩
  · exact hroot
  · exact lt_size_of_isParent hp

/-! ### From a stack -/

/-- What is met from the first of some nodes on: the node, then what is met from its children and
from the others. -/
theorem flatMap_preorder_cons (i : NodeId) (ids : List NodeId) :
    (i :: ids).flatMap t.preorder = i :: ((t.node i).children ++ ids).flatMap t.preorder := by
  rw [List.flatMap_cons, h.preorder_eq, List.flatMap_append, List.cons_append]

theorem collects_reverse (rule : Text) (ids : List NodeId) :
    t.Collects rule ids.reverse (t.named rule (ids.flatMap t.preorder)) := by
  -- every visit takes one node from those that are still to be met
  induction hlength : (ids.flatMap t.preorder).length generalizing ids with
  | zero =>
    rcases ids with _ | ⟨i, ids⟩
    · exact .done
    · rw [h.flatMap_preorder_cons] at hlength
      contradiction
  | succ length ih =>
    rcases ids with _ | ⟨i, ids⟩
    · contradiction
    rw [h.flatMap_preorder_cons] at hlength ⊢
    have hrest := ih ((t.node i).children ++ ids) (Nat.succ.inj hlength)
    rw [List.reverse_append] at hrest
    rw [List.reverse_cons, named, List.filter_cons]
    split
    · next hrule => exact .take (of_decide_eq_true hrule) hrest
    · next hrule => exact .pass (by simpa using hrule) hrest

/-- With enough steps, the nodes on the stack and those below them are collected in preorder. -/
theorem collect_reverse {steps : Nat} (hsteps : (ids.flatMap t.preorder).length ≤ steps) :
    t.collect rule steps ids.reverse = t.named rule (ids.flatMap t.preorder) := by
  induction steps generalizing ids with
  | zero =>
    rw [named, List.length_eq_zero_iff.1 (Nat.le_zero.1 hsteps)]
    rfl
  | succ steps ih =>
    rcases ids with _ | ⟨i, ids⟩
    · exact collect_nil _
    rw [h.flatMap_preorder_cons] at hsteps ⊢
    rw [List.reverse_cons, collect_concat, ← List.reverse_append,
      ih (Nat.le_of_succ_le_succ hsteps), named, named, List.filter_cons]
    simp

/-- There are no more nodes below a node than there are nodes. -/
theorem length_flatMap_preorder_le (n : NodeId) :
    ((t.node n).children.flatMap t.preorder).length ≤ t.size := by
  have hnodup := h.nodup_preorder n
  rw [h.preorder_eq, List.nodup_cons] at hnodup
  have hsubset : (t.node n).children.flatMap t.preorder ⊆ List.range t.size := fun i hi => by
    obtain ⟨p, -, hp⟩ := TransGen.tail'_iff.1 (h.mem_flatMap_preorder.1 hi)
    exact List.mem_range.2 (lt_size_of_isParent hp)
  simpa using (hnodup.2.subperm hsubset).length_le

/-- The nodes below a node that belong to a rule are found in preorder. -/
theorem descendantsNamed_eq (n : NodeId) (rule : Text) :
    t.descendantsNamed n rule = t.named rule (t.preorder n).tail := by
  rw [descendantsNamed, h.collect_reverse (h.length_flatMap_preorder_le n), h.preorder_eq,
    List.tail_cons]

end Linked

end Cascade.Tree
