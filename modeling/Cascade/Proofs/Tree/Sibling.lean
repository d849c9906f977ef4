import Cascade.Proofs.Tree.Shape
import Cascade.Tree.Navigation
import Mathlib.Data.List.Induction
import Mathlib.Data.List.Nodup
import Mathlib.Data.List.Perm.Subperm

/-!
# Children in order, and the links between them

When the children of a node are put in order, they are sorted by where they start, those that start
at one place by when they were created, and each of them is linked to its neighbours. Whoever
follows these links comes through the children on one side, one after the other, and to an end.

* `Tree.Before`: which of two nodes comes first.
* `Tree.LinksFrom`: the nodes of a list are linked to their neighbours.
* `Tree.Arranged`, `arranged_linkChildren`: the children of a node are in order.
* `Tree.Leads`, `Tree.Finds`: where links lead to, and what is found on the way.
* `Tree.Stands`, `Arranged.stands`: what is known of a node among the children of its parent.
-/

namespace Cascade.Tree

variable {t t' : Tree} {p i j : NodeId} {ids before after path : List NodeId}
  {previous? : Option NodeId} {link : Node → Option NodeId} {rule : Text}

/-- Of two nodes that start at different places, the one that starts first comes first; of those
that start at one place, the one that was created first. -/
def Before (t : Tree) (i j : NodeId) : Prop :=
  (t.node i).span.start < (t.node j).span.start ∨
    (t.node i).span.start = (t.node j).span.start ∧ i < j

theorem Before.trans {k : NodeId} (h : t.Before i j) (h' : t.Before j k) : t.Before i k := by
  rcases h with h | ⟨h, hij⟩
  · rcases h' with h' | ⟨h', -⟩
    · exact .inl (h.trans h')
    · exact .inl (h.trans_eq h')
  · rcases h' with h' | ⟨h', hjk⟩
    · exact .inl (h.trans_lt h')
    · exact .inr ⟨h.trans h', hij.trans hjk⟩

/-- Of two nodes, at most one comes before the other. -/
theorem Before.asymm (h : t.Before i j) : ¬ t.Before j i := by
  rintro (h' | ⟨h', hji⟩)
  · rcases h with h | ⟨h, -⟩
    · exact h.asymm h'
    · exact h'.ne' h
  · rcases h with h | ⟨-, hij⟩
    · exact h.ne' h'
    · exact hij.asymm hji

theorem Before.ne (h : t.Before i j) : i ≠ j := by
  rintro rfl
  exact h.asymm h

instance : Std.Antisymm t.Before :=
  ⟨fun _ _ h h' => absurd h' h.asymm⟩

/-- A node that was created before all others comes before those that do not start before it. -/
theorem before_of_start_le (hlt : i < j)
    (hstart : (t.node i).span.start ≤ (t.node j).span.start) : t.Before i j :=
  hstart.lt_or_eq.imp_right fun heq => ⟨heq, hlt⟩

/-! ## Sorting -/

/-- A node that was created before all nodes of a list in order goes where the list stays in order.
-/
theorem pairwise_insertByStart (h : ids.Pairwise t.Before) (hi : ∀ j ∈ ids, i < j) :
    (t.insertByStart i ids).Pairwise t.Before := by
  induction ids with
  | nil => exact List.pairwise_singleton ..
  | cons j ids ih =>
    obtain ⟨hj, hids⟩ := List.pairwise_cons.1 h
    obtain ⟨hij, hrest⟩ := List.forall_mem_cons.1 hi
    rw [insertByStart]
    split
    · next hstart =>
      have hfirst : t.Before i j := before_of_start_le hij hstart
      refine List.pairwise_cons.2 ⟨List.forall_mem_cons.2 ⟨hfirst, fun k hk => ?_⟩, h⟩
      exact hfirst.trans (hj k hk)
    · next hstart =>
      refine List.pairwise_cons.2 ⟨fun k hk => ?_, ih hids hrest⟩
      rcases List.mem_cons.1 ((insertByStart_perm ids).mem_iff.1 hk) with rfl | hk
      · exact .inl (Nat.lt_of_not_le hstart)
      · exact hj k hk

/-- Nodes that are given in the order in which they were created are put in order. -/
theorem pairwise_sortByStart (h : ids.Pairwise (· < ·)) :
    (t.sortByStart ids).Pairwise t.Before := by
  induction ids with
  | nil => exact .nil
  | cons i ids ih =>
    obtain ⟨hi, hids⟩ := List.pairwise_cons.1 h
    exact pairwise_insertByStart (ih hids) fun j hj => hi j ((sortByStart_perm ids).mem_iff.1 hj)

/-! ## Linking -/

/-- The nodes of a list are linked to their neighbours in it, and the first one to a node before
it. -/
def LinksFrom (t : Tree) : Option NodeId → List NodeId → Prop
  | _, [] => True
  | previous?, i :: rest =>
    (t.node i).previous? = previous? ∧ (t.node i).next? = rest.head? ∧ LinksFrom t (some i) rest

/-- What links the nodes of a list, each of them once, to their neighbours does so. -/
theorem linksFrom_linkFrom (hnodup : ids.Nodup) (hlt : ∀ i ∈ ids, i < t.size) :
    (linkFrom previous? ids t).LinksFrom previous? ids := by
  induction ids generalizing previous? t with
  | nil => trivial
  | cons i ids ih =>
    obtain ⟨hi, hids⟩ := List.nodup_cons.1 hnodup
    obtain ⟨hisize, hlt⟩ := List.forall_mem_cons.1 hlt
    -- the links of a node are not touched any more when the nodes behind it are linked
    have hself : (linkFrom previous? (i :: ids) t).node i =
        { t.node i with previous?, next? := ids.head? } := by
      rw [linkFrom, node_linkFrom_of_not_mem _ hi, node_update_self _ hisize]
    refine ⟨by rw [hself], by rw [hself], ih hids fun j hj => ?_⟩
    rw [size_update]
    exact hlt j hj

/-- Links do not depend on nodes that are not in the list. -/
theorem LinksFrom.congr (h : t.LinksFrom previous? ids) (hnode : ∀ i ∈ ids, t'.node i = t.node i) :
    t'.LinksFrom previous? ids := by
  induction ids generalizing previous? with
  | nil => trivial
  | cons i ids ih =>
    obtain ⟨hi, hids⟩ := List.forall_mem_cons.1 hnode
    rw [LinksFrom, hi]
    exact ⟨h.1, h.2.1, ih h.2.2 hids⟩

/-! ## Children in order -/

/-- The children of a node are sorted, and linked to their neighbours. -/
structure Arranged (t : Tree) (p : NodeId) : Prop where
  sorted : (t.node p).children.Pairwise t.Before
  links : t.LinksFrom none (t.node p).children

/-- Putting children in order moves no span. -/
theorem span_linkChildren (hp : p < t.size) (hself : p ∉ (t.node p).children) (i : NodeId) :
    ((t.linkChildren p).node i).span = (t.node i).span := by
  by_cases hi : i = p
  · rw [hi, node_linkChildren_self hp hself]
  · exact (Node.fixed_eq_iff.1 (Node.fixed_eq_of_unlinked_eq
      (unlinked_node_linkChildren_of_ne hi))).2.2.1

/-- The children of a node that are listed in the order in which they were created can be put in
order. -/
theorem arranged_linkChildren (hp : p < t.size)
    (hchildren : ∀ i ∈ (t.node p).children, p < i ∧ i < t.size)
    (hcreated : (t.node p).children.Pairwise (· < ·)) : (t.linkChildren p).Arranged p := by
  have hself : p ∉ (t.node p).children := fun hmem => (hchildren p hmem).1.ne rfl
  have hperm := sortByStart_perm (t := t) (t.node p).children
  have hnodup : (t.sortByStart (t.node p).children).Nodup :=
    hperm.nodup_iff.2 (hcreated.imp fun h => Nat.ne_of_lt h)
  have hsorted : ((t.linkChildren p).node p).children = t.sortByStart (t.node p).children := by
    rw [node_linkChildren_self hp hself]
  constructor
  · rw [hsorted]
    refine (pairwise_sortByStart hcreated).imp fun hij => ?_
    unfold Before at *
    rwa [span_linkChildren hp hself, span_linkChildren hp hself]
  · rw [hsorted]
    refine (linksFrom_linkFrom hnodup fun i hi => (hchildren i (hperm.mem_iff.1 hi)).2).congr
      fun i hi => node_update_of_ne _ ?_
    rintro rfl
    exact hself (hperm.mem_iff.1 hi)

/-- Children stay in order as long as they stay as they are. -/
theorem Arranged.congr (h : t.Arranged p)
    (hchildren : (t'.node p).children = (t.node p).children)
    (hnode : ∀ i ∈ (t.node p).children, t'.node i = t.node i) : t'.Arranged p := by
  constructor
  · rw [hchildren]
    refine h.sorted.imp_of_mem fun {i j} hi hj hij => ?_
    rwa [Before, hnode i hi, hnode j hj]
  · rw [hchildren]
    exact h.links.congr hnode

/-! ## Following links -/

/-- Links lead from a node through the nodes of a list, and end there. -/
def Leads (t : Tree) (link : Node → Option NodeId) : NodeId → List NodeId → Prop
  | i, [] => link (t.node i) = none
  | i, j :: path => link (t.node i) = some j ∧ Leads t link j path

/-- Following links from a node comes to an end, with the first node that belongs to a rule, or with
none. -/
inductive Finds (t : Tree) (link : Node → Option NodeId) (rule : Text) :
    NodeId → Option NodeId → Prop where
  | nothing {i : NodeId} (hlink : link (t.node i) = none) : Finds t link rule i none
  | here {i j : NodeId} (hlink : link (t.node i) = some j) (hrule : (t.node j).rule.name = rule) :
      Finds t link rule i (some j)
  | there {i j : NodeId} {found? : Option NodeId} (hlink : link (t.node i) = some j)
      (hrule : (t.node j).rule.name ≠ rule) (hrest : Finds t link rule j found?) :
      Finds t link rule i found?

/-- The first node of a list that belongs to a rule. -/
def firstNamed? (t : Tree) (rule : Text) (ids : List NodeId) : Option NodeId :=
  ids.find? fun i => (t.node i).rule.name = rule

variable (rule) in
/-- What is found on the way along links is the first node there that belongs to the rule. -/
theorem Leads.finds (h : t.Leads link i path) : t.Finds link rule i (t.firstNamed? rule path) := by
  induction path generalizing i with
  | nil => exact .nothing h
  | cons j path ih =>
    obtain ⟨hlink, hrest⟩ := h
    rw [firstNamed?, List.find?_cons]
    split
    · next hrule => exact .here hlink (of_decide_eq_true hrule)
    · next hrule => exact .there hlink (of_decide_eq_false hrule) (ih hrest)

variable (rule) in
/-- Following as many links as there are, and one more, comes to the end. -/
theorem Leads.follow_eq (h : t.Leads link i path) {steps : Nat} (hsteps : path.length < steps) :
    t.follow link rule steps i = t.firstNamed? rule path := by
  induction path generalizing i steps with
  | nil =>
    obtain ⟨steps, rfl⟩ := Nat.exists_eq_add_one_of_ne_zero hsteps.ne'
    have hlink : link (t.node i) = none := h
    simp [follow, hlink, firstNamed?]
  | cons j path ih =>
    obtain ⟨steps, rfl⟩ := Nat.exists_eq_add_one_of_ne_zero (Nat.zero_lt_of_lt hsteps).ne'
    obtain ⟨hlink, hrest⟩ := h
    rw [firstNamed?, List.find?_cons, ← firstNamed?, ← ih hrest (Nat.lt_of_succ_lt_succ hsteps)]
    simp only [follow, hlink, Option.bind_eq_bind, Option.bind_some]
    by_cases hrule : (t.node j).rule.name = rule <;> simp [hrule]

/-! ## The neighbours of a node -/

/-- A node stands between others: it is linked to the last one before it and to the first one behind
it, and following links finds the nearest one on either side that belongs to a rule. -/
structure Stands (t : Tree) (before : List NodeId) (i : NodeId) (after : List NodeId) : Prop where
  previous_eq : (t.node i).previous? = before.getLast?
  next_eq : (t.node i).next? = after.head?
  previousNamed : ∀ rule,
    t.Finds Node.previous? rule i (t.firstNamed? rule before.reverse) ∧
      t.previousNamed? i rule = t.firstNamed? rule before.reverse
  nextNamed : ∀ rule,
    t.Finds Node.next? rule i (t.firstNamed? rule after) ∧
      t.nextNamed? i rule = t.firstNamed? rule after

/-- A node is linked to the last one before it in the list. -/
theorem LinksFrom.previous_eq (h : t.LinksFrom previous? (before ++ i :: after)) :
    (t.node i).previous? = before.getLast?.or previous? := by
  induction before generalizing previous? with
  | nil => exact h.1
  | cons j before ih =>
    rw [ih h.2.2, List.getLast?_cons]
    cases before.getLast? <;> rfl

/-- The nodes from one on are linked from what that one is linked to. -/
theorem LinksFrom.drop (h : t.LinksFrom previous? (before ++ i :: after)) :
    t.LinksFrom (t.node i).previous? (i :: after) := by
  induction before generalizing previous? with
  | nil => exact ⟨rfl, h.2⟩
  | cons j before ih => exact ih h.2.2

/-- The links to next nodes lead through those behind a node. -/
theorem LinksFrom.leads_next (h : t.LinksFrom previous? (i :: after)) :
    t.Leads Node.next? i after := by
  induction after generalizing i previous? with
  | nil => exact h.2.1
  | cons j after ih => exact ⟨h.2.1, ih h.2.2⟩

/-- The links to previous nodes lead through those before a node, the nearest one first. -/
theorem LinksFrom.leads_previous (h : t.LinksFrom none (before ++ i :: after)) :
    t.Leads Node.previous? i before.reverse := by
  -- the links are followed from the last of the nodes before
  induction before using List.reverseRecOn generalizing i after with
  | nil => exact h.previous_eq
  | append_singleton before j ih =>
    have hlink : (t.node i).previous? = some j := by
      rw [h.previous_eq, List.getLast?_concat]
      rfl
    rw [List.append_assoc] at h
    rw [List.reverse_concat]
    exact ⟨hlink, ih h⟩

/-- In a list of nodes that are linked to their neighbours, each stands between those before it and
those behind it. -/
theorem LinksFrom.stands (h : t.LinksFrom none (before ++ i :: after))
    (hlength : (before ++ i :: after).length ≤ t.size) : t.Stands before i after := by
  have hprevious := h.leads_previous
  have hnext := h.drop.leads_next
  have hbound : before.reverse.length < t.size ∧ after.length < t.size := by
    simp only [List.length_append, List.length_cons, List.length_reverse] at hlength ⊢
    omega
  refine ⟨by rw [h.previous_eq, Option.or_none], h.drop.2.1, fun rule => ?_, fun rule => ?_⟩
  · exact ⟨hprevious.finds rule, hprevious.follow_eq rule hbound.1⟩
  · exact ⟨hnext.finds rule, hnext.follow_eq rule hbound.2⟩

/-- Nodes that have no links stand alone. -/
theorem stands_alone (hi : i < t.size) (hprevious : (t.node i).previous? = none)
    (hnext : (t.node i).next? = none) : t.Stands [] i [] := by
  have hlinks : t.LinksFrom none ([] ++ [i]) := ⟨hprevious, hnext, trivial⟩
  exact hlinks.stands (Nat.succ_le_of_lt (Nat.zero_lt_of_lt hi))

/-- No child of a node is listed twice. -/
theorem Linked.nodup_children (h : Linked t) (p : NodeId) : (t.node p).children.Nodup := by
  refine List.nodup_iff_count_le_one.2 fun i => ?_
  rw [h.listed]
  split <;> simp

/-- A node has no more children than there are nodes. -/
theorem Linked.length_children_le (h : Linked t) (p : NodeId) :
    (t.node p).children.length ≤ t.size := by
  have hsubset : (t.node p).children ⊆ List.range t.size := fun i hi =>
    List.mem_range.2 (lt_size_of_isParent (h.mem_children.1 hi))
  simpa using ((h.nodup_children p).subperm hsubset).length_le

/-- Each child of a node stands between the others, if all are in order. -/
theorem Arranged.stands (h : t.Arranged p) (hlinked : t.Linked)
    (hchildren : (t.node p).children = before ++ i :: after) : t.Stands before i after := by
  refine LinksFrom.stands (hchildren ▸ h.links) ?_
  rw [← hchildren]
  exact hlinked.length_children_le p

end Cascade.Tree
