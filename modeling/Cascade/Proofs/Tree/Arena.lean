import Cascade.Proofs.Tree.Shape
import Mathlib.Data.Nat.Find

/-!
# The shape of a tree and its tokens

The nodes of a tree are numbered so that a node comes right behind all that is below its elder
siblings. The invariant that carries this is that the parent of each node is the node before it, or
lies above that. The numbers of a token follow from the numbers of the nodes.

* `WellFormed`: what holds of a tree, its links and its tokens.
* `Arena`: the same in a form that every step of a parse keeps, with what the registry must hold for
  it; `Arena.wellFormed` derives the one from the other.
* `Arena.of_sameShape`, `Arena.addMatch`: steps that keep the shape, and the step that adds a node.
-/

namespace Cascade

open Relation

namespace Tree

variable {t t' : Tree} {p i j k : NodeId}

/-- A number is given to each node, so that the numbers of nodes of the same parent and these nodes
themselves add up to no more than the number of the parent. -/
def CountsBelow (t : Tree) (below : NodeId → Nat) : Prop :=
  ∀ p < t.size, ∀ ids : List NodeId, ids.Pairwise (· < ·) → (∀ i ∈ ids, t.IsParent p i) →
    (ids.map fun i => below i + 1).sum ≤ below p

/-- What holds of the links and the tokens of a tree. -/
structure WellFormed (t : Tree) : Prop where
  /-- There is a root, without parent, token and captures. -/
  root_bare : root < t.size ∧ (t.node root).parent? = none ∧ (t.node root).token? = none ∧
    (t.node root).captures? = none
  /-- All other nodes have a parent, which is older, a token and captures. -/
  inner : ∀ i, i ≠ root → i < t.size →
    (∃ p < i, t.IsParent p i) ∧ (t.node i).token?.isSome ∧ (t.node i).captures?.isSome
  /-- A node is listed once among the children of its parent, and in no other list. -/
  listed : ∀ p i, (t.node p).children.count i = if (t.node i).parent? = some p then 1 else 0
  /-- The nodes below a node are those that directly follow it, up to some number. -/
  block : ∀ i < t.size, ∃ m, i + m < t.size ∧ ∀ j, t.IsAbove i j ↔ i < j ∧ j ≤ i + m
  /-- Tokens are minted from the name of the rule, the occurrence and the number of the node. -/
  token : ∀ i, i ≠ root → i < t.size → (t.node i).token? = some (t.tokenOf i)
  /-- No two nodes have the same token. -/
  token_inj : ∀ i j, i ≠ root → i < t.size → (t.node i).token? = (t.node j).token? → i = j
  /-- A token belongs to the node that has it, and to no other. -/
  owner : ∀ token i, t.owner? token = some i ↔ i < t.size ∧ (t.node i).token? = some token
  /-- A span is as long as the text that was matched. -/
  span : ∀ i < t.size, (t.node i).span.stop =
    (t.node i).span.start + (t.node i).matched.byteLength

/-- What every step of a parse keeps. -/
structure Arena (t : Tree) : Prop where
  root_bare : root < t.size ∧ (t.node root).parent? = none ∧ (t.node root).token? = none ∧
    (t.node root).captures? = none
  /-- The parent of a node is older, and it is the node before it or lies above that one. -/
  parent : ∀ i, i ≠ root → i < t.size →
    ∃ p < i, t.IsParent p i ∧ ReflTransGen t.IsParent p (i - 1)
  captured : ∀ i, i ≠ root → i < t.size → (t.node i).captures?.isSome
  listed : ∀ p i, (t.node p).children.count i = if (t.node i).parent? = some p then 1 else 0
  token : ∀ i, i ≠ root → i < t.size → (t.node i).token? = some (t.tokenOf i)
  /-- The registry has counted all nodes but the root. -/
  sequence : t.registry.sequence + 1 = t.size
  /-- The registry has counted the nodes of each rule. -/
  occurrences : ∀ id, t.registry.occurrencesOf id = t.countRule id (t.size - 1)
  owner : ∀ token i, t.owner? token = some i ↔ i < t.size ∧ (t.node i).token? = some token
  span : ∀ i < t.size, (t.node i).span.stop =
    (t.node i).span.start + (t.node i).matched.byteLength

namespace Arena

/-- Parents are older than their children. -/
theorem parent_lt (h : Arena t) (hp : t.IsParent p i) : p < i := by
  have hi : i < t.size := lt_size_of_isParent hp
  have hroot : i ≠ root := by
    rintro rfl
    rw [IsParent, h.root_bare.2.1] at hp
    contradiction
  obtain ⟨q, hq, hparent, -⟩ := h.parent i hroot hi
  have hqp : some q = some p := hparent.symm.trans hp
  rwa [← Option.some.inj hqp]

theorem linked (h : Arena t) : Linked t :=
  ⟨h.parent_lt, h.listed⟩

theorem minted (h : Arena t) : Minted t :=
  ⟨h.root_bare.2.2.1, h.token, h.sequence, h.occurrences, h.owner⟩

theorem lt_of_isAbove (h : Arena t) (ha : t.IsAbove i j) : i < j :=
  h.linked.lt_of_isAbove ha

/-- What lies below a node and is not the node right behind it has the node before it below as
well. -/
theorem reflTransGen_pred (h : Arena t) (ha : t.IsAbove i j) :
    ReflTransGen t.IsParent i (j - 1) := by
  obtain ⟨p, hip, hp⟩ := TransGen.tail'_iff.1 ha
  have hj : j ≠ root := (Nat.zero_le p |>.trans_lt (h.parent_lt hp)).ne'
  obtain ⟨q, -, hq, hpath⟩ := h.parent j hj (lt_size_of_isParent hp)
  have hqp : some q = some p := hq.symm.trans hp
  obtain rfl := Option.some.inj hqp
  exact hip.trans hpath

/-- All nodes between a node and one below it are below it. -/
theorem isAbove_of_between (h : Arena t) (ha : t.IsAbove i j) (hik : i < k) (hkj : k ≤ j) :
    t.IsAbove i k := by
  -- from the node below, one goes back node by node
  obtain ⟨d, rfl⟩ := Nat.exists_eq_add_of_le hkj
  induction d with
  | zero => exact ha
  | succ d ih =>
    have hpred := h.reflTransGen_pred ha
    rw [Nat.add_succ_sub_one] at hpred
    rcases reflTransGen_iff_eq_or_transGen.1 hpred with heq | hd
    · exact absurd heq (hik.trans_le (Nat.le_add_right k d)).ne'
    · exact ih hd (Nat.le_add_right k d)

/-- The nodes below a node are those that directly follow it, up to the last one. -/
theorem block (h : Arena t) (hi : i < t.size) :
    ∃ m, i + m < t.size ∧ ∀ j, t.IsAbove i j ↔ i < j ∧ j ≤ i + m := by
  classical
  -- nodes without anything below them are taken as their own last ones
  let last := Nat.findGreatest (fun j => j = i ∨ t.IsAbove i j) (t.size - 1)
  have hle : i ≤ t.size - 1 := Nat.le_sub_one_of_lt hi
  have hlast : last = i ∨ t.IsAbove i last :=
    Nat.findGreatest_spec (P := fun j => j = i ∨ t.IsAbove i j) hle (.inl rfl)
  have hil : i ≤ last := Nat.le_findGreatest hle (.inl rfl)
  have hsize : last < t.size :=
    (Nat.findGreatest_le (t.size - 1)).trans_lt (Nat.sub_one_lt_of_lt hi)
  refine ⟨last - i, by rwa [Nat.add_sub_cancel' hil], fun j => ?_⟩
  rw [Nat.add_sub_cancel' hil]
  constructor
  · intro ha
    obtain ⟨p, -, hp⟩ := TransGen.tail'_iff.1 ha
    exact ⟨h.lt_of_isAbove ha,
      Nat.le_findGreatest (Nat.le_sub_one_of_lt (lt_size_of_isParent hp)) (.inr ha)⟩
  · rintro ⟨hij, hj⟩
    rcases hlast with heq | ha
    · exact absurd (heq ▸ hj) hij.not_ge
    · exact h.isAbove_of_between ha hij hj

theorem isParent_of_mem_children (h : Arena t) (hi : i ∈ (t.node p).children) : t.IsParent p i :=
  h.linked.mem_children.1 hi

/-- What holds of a node whenever it holds of its children holds of all nodes. -/
theorem induction_children (h : Arena t) {P : NodeId → Prop}
    (hnode : ∀ p < t.size, (∀ i, t.IsParent p i → P i) → P p) : ∀ p < t.size, P p := by
  intro p hp
  -- children have higher numbers, so the induction is on how many nodes come behind
  obtain ⟨d, hd⟩ := Nat.exists_eq_add_of_le hp.le
  induction d using Nat.strongRecOn generalizing p with
  | _ d ih =>
    refine hnode p hp fun i hi => ?_
    have hpi : p < i := h.parent_lt hi
    have hisize : i < t.size := lt_size_of_isParent hi
    obtain ⟨e, he⟩ := Nat.exists_eq_add_of_le hisize.le
    refine ih e ?_ i hisize he
    by_contra hde
    have hle : p + d < i + e := Nat.add_lt_add_of_lt_of_le hpi (Nat.le_of_not_lt hde)
    rw [← hd, ← he] at hle
    exact lt_irrefl _ hle

/-- Nodes of the same parent do not lie below one another. -/
theorem not_isAbove_of_isParent (h : Arena t) (hi : t.IsParent p i) (hj : t.IsParent p j) :
    ¬ t.IsAbove i j := by
  intro ha
  obtain ⟨q, hq, hqj⟩ := TransGen.tail'_iff.1 ha
  -- the parent of the second node would be the first one or lie below it
  have hqp : some q = some p := hqj.symm.trans hj
  obtain rfl := Option.some.inj hqp
  exact absurd (h.parent_lt hi) (h.linked.le_of_reflTransGen hq).not_gt

section

variable {below : NodeId → Nat}

/-- The block of a node lies in that of its parent. -/
theorem add_below_le
    (hbelow : ∀ i < t.size, ∀ j, t.IsAbove i j ↔ i < j ∧ j ≤ i + below i) (hp : p < t.size)
    (hi : t.IsParent p i) : i + below i ≤ p + below p := by
  have hbound (j : NodeId) (hj : t.IsAbove p j) : j ≤ p + below p := ((hbelow p hp j).1 hj).2
  rcases Nat.eq_zero_or_pos (below i) with hzero | hpos
  · rw [hzero]
    exact hbound i (.single hi)
  · have hlast : t.IsAbove i (i + below i) :=
      (hbelow i (lt_size_of_isParent hi) _).2 ⟨Nat.lt_add_of_pos_right hpos, le_rfl⟩
    exact hbound _ (.head hi hlast)

/-- The blocks of nodes of the same parent lie behind one another in its block, so that together
with these nodes they take up no more than what is left of it from `low` on. -/
theorem add_sum_le (h : Arena t)
    (hbelow : ∀ i < t.size, ∀ j, t.IsAbove i j ↔ i < j ∧ j ≤ i + below i) (hp : p < t.size)
    {ids : List NodeId} {low : Nat} (hsorted : ids.Pairwise (· < ·))
    (hparent : ∀ i ∈ ids, t.IsParent p i) (hlow : ∀ i ∈ ids, low ≤ i)
    (hle : low ≤ p + below p + 1) :
    low + (ids.map fun i => below i + 1).sum ≤ p + below p + 1 := by
  induction ids generalizing low with
  | nil => simpa using hle
  | cons c rest ih =>
    have hc : t.IsParent p c := hparent c List.mem_cons_self
    have hend : c + below c ≤ p + below p := add_below_le hbelow hp hc
    -- a later node is not below this one, so it stands behind the block
    have hrest (i : NodeId) (hi : i ∈ rest) : c + below c + 1 ≤ i := by
      have hci : c < i := (List.pairwise_cons.1 hsorted).1 i hi
      by_contra hlt
      exact h.not_isAbove_of_isParent hc (hparent i (List.mem_cons_of_mem _ hi))
        ((hbelow c (lt_size_of_isParent hc) i).2
          ⟨hci, Nat.le_of_lt_succ (Nat.lt_of_not_le hlt)⟩)
    have hlater : c + below c + 1 + (rest.map fun i => below i + 1).sum ≤ p + below p + 1 :=
      ih (List.pairwise_cons.1 hsorted).2 (fun i hi => hparent i (List.mem_cons_of_mem _ hi)) hrest
        (Nat.succ_le_succ hend)
    have hlowc : low ≤ c := hlow c List.mem_cons_self
    rw [List.map_cons, List.sum_cons]
    calc low + (below c + 1 + (rest.map fun i => below i + 1).sum)
        ≤ c + (below c + 1 + (rest.map fun i => below i + 1).sum) :=
          Nat.add_le_add_right hlowc _
      _ = c + below c + 1 + (rest.map fun i => below i + 1).sum := by
          simp only [Nat.add_assoc]
      _ ≤ p + below p + 1 := hlater

end

/-- The nodes below nodes can be counted. -/
theorem exists_countsBelow (h : Arena t) :
    ∃ below : NodeId → Nat, below root < t.size ∧ t.CountsBelow below := by
  choose! below hbelow using fun i (hi : i < t.size) => h.block hi
  refine ⟨below, ?_, fun p hp ids hsorted hparent => ?_⟩
  · have hroot := (hbelow root h.root_bare.1).1
    exact (Nat.le_add_left _ _).trans_lt hroot
  · have htotal : p + 1 + (ids.map fun i => below i + 1).sum ≤ p + below p + 1 :=
      h.add_sum_le (fun i hi => (hbelow i hi).2) hp hsorted hparent
        (fun i hi => h.parent_lt (hparent i hi)) (Nat.succ_le_succ (Nat.le_add_right _ _))
    rw [Nat.add_right_comm] at htotal
    exact Nat.le_of_add_le_add_left (Nat.le_of_succ_le_succ htotal)

/-- What holds of the tree at all times makes it well-formed when it is returned. -/
theorem wellFormed (h : Arena t) : t.WellFormed where
  root_bare := h.root_bare
  inner i hroot hi := by
    obtain ⟨p, hlt, hp, -⟩ := h.parent i hroot hi
    refine ⟨⟨p, hlt, hp⟩, ?_, h.captured i hroot hi⟩
    rw [h.token i hroot hi]
    rfl
  listed := h.listed
  block i hi := h.block hi
  token := h.token
  token_inj i j hroot hi heq := by
    rw [h.token i hroot hi] at heq
    have hj : j < t.size := by
      by_contra hj
      rw [node_of_size_le (Nat.le_of_not_lt hj)] at heq
      contradiction
    -- the root has no token, and the number of any other node is part of its token
    by_cases hjroot : j = root
    · rw [hjroot, h.root_bare.2.2.1] at heq
      contradiction
    · rw [h.token j hjroot hj] at heq
      exact tokenOf_inj (Option.some.inj heq)
  owner := h.owner
  span := h.span

end Arena

/-- The tree of an input has only its root before anything is searched. -/
theorem arena_startTree (rule : Rule) (input : Text) (seed : State) :
    Arena (Engine.startTree rule input seed) := by
  have hlinked := linked_startTree rule input seed
  have hminted := minted_startTree rule input seed
  have hroot (i : NodeId) (hi : i < (Engine.startTree rule input seed).size) : i = root :=
    Nat.lt_one_iff.1 hi
  refine ⟨⟨Nat.zero_lt_one, rfl, rfl, rfl⟩, ?_, ?_, hlinked.listed, hminted.token,
    hminted.sequence, hminted.occurrences, hminted.owner, ?_⟩
  · exact fun i hne hi => absurd (hroot i hi) hne
  · exact fun i hne hi => absurd (hroot i hi) hne
  · intro i hi
    rw [hroot i hi]
    exact (Nat.zero_add _).symm

/-! ## Steps that keep the shape -/

/-- The invariant is about the shape only. -/
theorem Arena.of_sameShape (h : Arena t) (hs : SameShape t t') : Arena t' := by
  have hlinked : Linked t' := h.linked.of_sameShape hs
  have hminted : Minted t' := h.minted.of_sameShape hs
  have hfixed (i : NodeId) := Node.fixed_eq_iff.1 (hs.fixed_eq i)
  have hcaptures (i : NodeId) : (t'.node i).captures? = (t.node i).captures? :=
    (hfixed i).2.2.2.2.2
  refine ⟨?_, ?_, ?_, hlinked.listed, hminted.token, hminted.sequence, hminted.occurrences,
    hminted.owner, ?_⟩
  · rw [hs.size_eq, (hfixed root).2.1, (hfixed root).2.2.2.2.1, hcaptures]
    exact h.root_bare
  · rw [hs.size_eq, hs.isParent_eq]
    exact h.parent
  · intro i
    rw [hs.size_eq, hcaptures]
    exact h.captured i
  · intro i
    rw [hs.size_eq, (hfixed i).2.2.1, (hfixed i).2.2.2.1]
    exact h.span i

/-! ## The step that adds a node -/

/-- A node is the last one that was added, or lies above it. New nodes may be added below it. -/
def IsOpen (t : Tree) (p : NodeId) : Prop :=
  p < t.size ∧ ReflTransGen t.IsParent p (t.size - 1)

variable {rule : Rule} {m : Match}

theorem isOpen_of_sameShape (h : t.IsOpen p) (hs : SameShape t t') : t'.IsOpen p := by
  rwa [IsOpen, hs.size_eq, hs.isParent_eq]

/-- A node that has just been added is open. -/
theorem isOpen_addMatch : (Engine.addMatch t p rule m).IsOpen t.size := by
  refine ⟨by simp, ?_⟩
  rw [size_addMatch, Nat.add_sub_cancel]

/-- Adding the node of a match below an open node keeps the invariant. -/
theorem Arena.addMatch (h : Arena t) (hp : t.IsOpen p)
    (hspan : m.span.stop = m.span.start + m.captures.whole.byteLength) :
    Arena (Engine.addMatch t p rule m) := by
  obtain ⟨hp, hpath⟩ := hp
  have hlinked : Linked (Engine.addMatch t p rule m) := h.linked.addMatch hp
  have hminted : Minted (Engine.addMatch t p rule m) := h.minted.addMatch hp
  have hpos : 0 < t.size := Nat.zero_lt_of_lt hp
  have hnew : (Engine.addMatch t p rule m).node t.size = matchNode t p rule m := by
    rw [node_addMatch hp, if_pos rfl]
  have hfixed (i : NodeId) (hi : i < t.size) :=
    Node.fixed_eq_iff.1 (fixed_node_addMatch rule m hp hi.ne)
  have hmono : t.IsParent ≤ (Engine.addMatch t p rule m).IsParent :=
    fun _ _ hq => (isParent_addMatch hp).2 (.inl hq)
  have hcases (i : NodeId) (hi : i < (Engine.addMatch t p rule m).size) :
      i < t.size ∨ i = t.size := Nat.lt_succ_iff_lt_or_eq.1 (by rwa [size_addMatch] at hi)
  -- links and tokens are known; for the rest, old nodes keep what they have, and the new one is new
  refine ⟨?_, ?_, ?_, hlinked.listed, hminted.token, hminted.sequence, hminted.occurrences,
    hminted.owner, ?_⟩
  · obtain ⟨-, hparent, -, -, htoken, hcaptures⟩ := hfixed root hpos
    rw [hparent, htoken, hcaptures]
    exact ⟨hpos.trans_le (by simp), h.root_bare.2⟩
  · intro i hroot hi
    rcases hcases i hi with hi | rfl
    · obtain ⟨q, hq, hqi, hqpath⟩ := h.parent i hroot hi
      exact ⟨q, hq, hmono _ _ hqi, ReflTransGen.mono hmono _ _ hqpath⟩
    · exact ⟨p, hp, (isParent_addMatch hp).2 (.inr ⟨rfl, rfl⟩), ReflTransGen.mono hmono _ _ hpath⟩
  · intro i hroot hi
    rcases hcases i hi with hi | rfl
    · rw [(hfixed i hi).2.2.2.2.2]
      exact h.captured i hroot hi
    · rw [hnew]
      rfl
  · intro i hi
    rcases hcases i hi with hi | rfl
    · rw [(hfixed i hi).2.2.1, (hfixed i hi).2.2.2.1]
      exact h.span i hi
    · rw [hnew]
      exact hspan

end Tree

end Cascade
