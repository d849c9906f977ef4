import Cascade.Proofs.Token.Scan
import Cascade.Proofs.Tree.Steps
import Mathlib.Algebra.GroupWithZero.Nat
import Mathlib.Logic.Relation

/-!
# Links and tokens

A tree has links between parents and children, and a registry that knows the tokens of its nodes.
What is said of them here holds whatever the matches of a parse are, and every step of it keeps it.

* `Linked`: parents are older than their children, and list each of them once.
* `Minted`: the registry has minted the tokens of all nodes but the root, and knows whose they are.
* `SameShape`: steps that change neither links nor tokens.
* `Linked.addMatch`, `Minted.addMatch`: the step that adds a node.
-/

namespace Cascade.Tree

open Relation

variable {t t' : Tree} {p i j : NodeId}

/-- One node is the parent of another. -/
def IsParent (t : Tree) (p i : NodeId) : Prop :=
  (t.node i).parent? = some p

/-- One node is the parent of another, or the parent of its parent, and so on. -/
def IsAbove (t : Tree) : NodeId → NodeId → Prop :=
  TransGen t.IsParent

/-- How many of the nodes from 1 to `last` belong to a rule. -/
def countRule (t : Tree) (id : RuleId) (last : NodeId) : Nat :=
  (List.range' 1 last).countP fun j => (t.node j).rule.id = id

/-- The token that a node has by its rule, its number, and how many of the nodes up to it belong to
its rule. -/
def tokenOf (t : Tree) (i : NodeId) : Text :=
  Token.mint (t.node i).rule.name (t.countRule (t.node i).rule.id i) i

/-- Only nodes that are there have a parent. -/
theorem lt_size_of_isParent (hp : t.IsParent p i) : i < t.size := by
  by_contra hi
  rw [IsParent, node_of_size_le (Nat.le_of_not_lt hi)] at hp
  contradiction

/-- Up to a node, no more nodes are counted than there are. -/
theorem countRule_le (id : RuleId) (last : NodeId) : t.countRule id last ≤ last := by
  have hle := List.countP_le_length (l := List.range' 1 last)
    (p := fun j => decide ((t.node j).rule.id = id))
  rwa [List.length_range'] at hle

/-- A node is one of those that are counted for its token. -/
theorem countRule_pos (hi : i ≠ root) : 0 < t.countRule (t.node i).rule.id i := by
  refine List.countP_pos_iff.2 ⟨i, ?_, by simp⟩
  rw [List.mem_range'_1, Nat.lt_one_add_iff]
  exact ⟨Nat.pos_of_ne_zero hi, le_rfl⟩

/-- Of two nodes of one rule, the later one is counted higher. -/
theorem countRule_lt (hij : i < j) (hrule : (t.node i).rule.id = (t.node j).rule.id) :
    t.countRule (t.node i).rule.id i < t.countRule (t.node j).rule.id j := by
  obtain ⟨gap, rfl⟩ := Nat.exists_eq_add_of_lt hij
  -- the nodes up to the later one are those up to the other one, some more, and itself
  have hsplit : List.range' 1 (i + gap + 1) =
      List.range' 1 i ++ (List.range' (1 + i) gap ++ [i + gap + 1]) := by
    rw [Nat.add_assoc, ← List.range'_append_1, List.range'_1_concat]
    congr 3
    omega
  rw [← hrule, countRule, countRule, hsplit, List.countP_append, List.countP_append]
  have hself : [i + gap + 1].countP (fun k => (t.node k).rule.id = (t.node i).rule.id) = 1 := by
    simp [hrule]
  omega

/-- The token of a node is found where it stands, if the numbers of nodes are words. -/
theorem isToken_tokenOf (hname : (t.node i).rule.name ≠ []) (hi : i < Text.wordBound) :
    Token.isToken (t.tokenOf i) :=
  Token.isToken_mint hname ((countRule_le _ i).trans_lt hi) hi

/-- Tokens tell nodes apart, since the number of the node is part of the token. -/
theorem tokenOf_inj (h : t.tokenOf i = t.tokenOf j) : i = j :=
  (Token.mint_inj h).2.2

/-- Parents are older than their children, and list each of them once. -/
structure Linked (t : Tree) : Prop where
  parent_lt : ∀ {p i}, t.IsParent p i → p < i
  listed : ∀ p i, (t.node p).children.count i = if (t.node i).parent? = some p then 1 else 0

/-- The registry has minted the tokens of all nodes but the root, and knows whose they are. -/
structure Minted (t : Tree) : Prop where
  root_bare : (t.node root).token? = none
  token : ∀ i, i ≠ root → i < t.size → (t.node i).token? = some (t.tokenOf i)
  /-- The registry has counted all nodes but the root. -/
  sequence : t.registry.sequence + 1 = t.size
  /-- The registry has counted the nodes of each rule. -/
  occurrences : ∀ id, t.registry.occurrencesOf id = t.countRule id (t.size - 1)
  owner : ∀ token i, t.owner? token = some i ↔ i < t.size ∧ (t.node i).token? = some token

namespace Linked

/-- The children of a node are the nodes whose parent it is. -/
theorem mem_children (h : Linked t) : i ∈ (t.node p).children ↔ t.IsParent p i := by
  rw [← List.count_pos_iff, h.listed, IsParent]
  split <;> simp [*]

/-- A node is older than all nodes below it. -/
theorem lt_of_isAbove (h : Linked t) (ha : t.IsAbove i j) : i < j := by
  induction ha with
  | single hp => exact h.parent_lt hp
  | tail _ hp ih => exact ih.trans (h.parent_lt hp)

/-- A node is no younger than the nodes below it and itself. -/
theorem le_of_reflTransGen (h : Linked t) (hij : Relation.ReflTransGen t.IsParent i j) : i ≤ j := by
  rcases Relation.reflTransGen_iff_eq_or_transGen.1 hij with rfl | ha
  · exact le_rfl
  · exact (h.lt_of_isAbove ha).le

end Linked

/-- Before anything is searched, a tree has no links. -/
theorem linked_startTree (rule : Rule) (input : Text) (seed : State) :
    Linked (Engine.startTree rule input seed) := by
  have hnone (i : NodeId) : ((Engine.startTree rule input seed).node i).parent? = none := by
    rw [Engine.startTree, node_push]
    split <;> rfl
  refine ⟨fun {p i} hp => ?_, fun p i => ?_⟩
  · rw [IsParent, hnone] at hp
    contradiction
  · have hchildren : ((Engine.startTree rule input seed).node p).children = [] := by
      rw [Engine.startTree, node_push]
      split <;> rfl
    simp [hchildren, hnone]

/-- Before anything is searched, a tree has no tokens. -/
theorem minted_startTree (rule : Rule) (input : Text) (seed : State) :
    Minted (Engine.startTree rule input seed) := by
  have hnone (i : NodeId) : ((Engine.startTree rule input seed).node i).token? = none := by
    rw [Engine.startTree, node_push]
    split <;> rfl
  refine ⟨hnone root, fun i hroot hi => ?_, rfl, fun _ => rfl, fun token i => ?_⟩
  · exact absurd (Nat.lt_one_iff.1 hi) hroot
  · rw [hnone]
    simp [Engine.startTree, owner?, Tree.new, Registry.empty, Registry.owner?, push]

/-! ## Steps that keep the shape -/

/-- Trees with the same registry whose nodes differ in nothing that was fixed when they were
created, and whose children differ at most in their order. -/
structure SameShape (t t' : Tree) : Prop where
  size_eq : t'.size = t.size
  registry_eq : t'.registry = t.registry
  fixed_eq : ∀ i, (t'.node i).fixed = (t.node i).fixed
  children_perm : ∀ i, (t'.node i).children.Perm (t.node i).children

theorem SameShape.refl (t : Tree) : SameShape t t :=
  ⟨rfl, rfl, fun _ => rfl, fun _ => .refl _⟩

theorem SameShape.trans {t'' : Tree} (h : SameShape t t') (h' : SameShape t' t'') :
    SameShape t t'' where
  size_eq := h'.size_eq.trans h.size_eq
  registry_eq := h'.registry_eq.trans h.registry_eq
  fixed_eq i := (h'.fixed_eq i).trans (h.fixed_eq i)
  children_perm i := (h'.children_perm i).trans (h.children_perm i)

/-- A change of one node that is neither to what was fixed nor to its children. -/
theorem sameShape_update {f : Node → Node} (hfixed : ∀ n, (f n).fixed = n.fixed)
    (hchildren : ∀ n, (f n).children = n.children) : SameShape t (t.update i f) where
  size_eq := size_update ..
  registry_eq := rfl
  fixed_eq j := by
    rw [node_update]
    split
    · exact hfixed _
    · rfl
  children_perm j := by
    rw [node_update]
    split
    · rw [hchildren]
    · rfl

/-- Setting states keeps the shape. -/
theorem sameShape_withStates (v : View) (states : States) :
    SameShape v.tree (v.withStates states) := by
  have hupdate : SameShape v.tree
      (v.tree.update v.id fun n => { n with localState := states.own }) :=
    sameShape_update (fun _ => rfl) fun _ => rfl
  exact ⟨hupdate.size_eq, hupdate.registry_eq, hupdate.fixed_eq, hupdate.children_perm⟩

/-- Setting a modified text keeps the shape. -/
theorem sameShape_setModified (t : Tree) (i : NodeId) (text : Text) :
    SameShape t (t.setModified i text) :=
  sameShape_update (fun _ => rfl) fun _ => rfl

/-- Setting a working text keeps the shape. -/
theorem sameShape_setWorking (t : Tree) (i : NodeId) (text : Text) :
    SameShape t (t.setWorking i text) :=
  sameShape_update (fun _ => rfl) fun _ => rfl

/-- Trees of the same shape have the same parents. -/
theorem SameShape.isParent_eq (h : SameShape t t') : t'.IsParent = t.IsParent := by
  funext p i
  obtain ⟨-, hparent, -⟩ := Node.fixed_eq_iff.1 (h.fixed_eq i)
  rw [IsParent, IsParent, hparent]

/-- In trees of the same shape, as many nodes belong to a rule. -/
theorem SameShape.countRule_eq (h : SameShape t t') : t'.countRule = t.countRule := by
  funext id last
  have hrule (j : NodeId) : (t'.node j).rule = (t.node j).rule :=
    (Node.fixed_eq_iff.1 (h.fixed_eq j)).1
  simp only [countRule, hrule]

/-- In trees of the same shape, nodes have the same tokens. -/
theorem SameShape.tokenOf_eq (h : SameShape t t') : t'.tokenOf = t.tokenOf := by
  funext i
  obtain ⟨hrule, -⟩ := Node.fixed_eq_iff.1 (h.fixed_eq i)
  rw [tokenOf, tokenOf, h.countRule_eq, hrule]

/-- Links hold in trees of the same shape. -/
theorem Linked.of_sameShape (h : Linked t) (hs : SameShape t t') : Linked t' where
  parent_lt hp := by
    rw [hs.isParent_eq] at hp
    exact h.parent_lt hp
  listed p i := by
    obtain ⟨-, hparent, -⟩ := Node.fixed_eq_iff.1 (hs.fixed_eq i)
    rw [(hs.children_perm p).count_eq, hparent]
    exact h.listed p i

/-- The registry stays right in trees of the same shape. -/
theorem Minted.of_sameShape (h : Minted t) (hs : SameShape t t') : Minted t' := by
  have htoken (i : NodeId) : (t'.node i).token? = (t.node i).token? :=
    (Node.fixed_eq_iff.1 (hs.fixed_eq i)).2.2.2.2.1
  refine ⟨?_, fun i => ?_, ?_, ?_, fun token i => ?_⟩
  · rw [htoken]
    exact h.root_bare
  · rw [hs.size_eq, htoken, hs.tokenOf_eq]
    exact h.token i
  · rw [hs.size_eq, hs.registry_eq]
    exact h.sequence
  · rw [hs.size_eq, hs.registry_eq, hs.countRule_eq]
    exact h.occurrences
  · rw [owner?, hs.size_eq, hs.registry_eq, htoken]
    exact h.owner token i

/-- Ordering the children of a node keeps the shape, for no node is its own child. -/
theorem Linked.sameShape_linkChildren (h : Linked t) (hi : i < t.size) :
    SameShape t (t.linkChildren i) := by
  have hself : i ∉ (t.node i).children := fun hmem => (h.parent_lt (h.mem_children.1 hmem)).ne rfl
  have hlink := node_linkChildren_self hi hself
  refine ⟨size_linkChildren, registry_linkChildren, fun j => ?_, fun j => ?_⟩
  · by_cases hj : j = i
    · subst hj
      rw [hlink]
      rfl
    · exact Node.fixed_eq_of_unlinked_eq (unlinked_node_linkChildren_of_ne hj)
  · by_cases hj : j = i
    · subst hj
      rw [hlink]
      exact sortByStart_perm _
    · obtain ⟨-, -, -, hchildren⟩ := Node.settled_eq_iff.1
        (Node.settled_eq_of_unlinked_eq (unlinked_node_linkChildren_of_ne (t := t) hj))
      rw [hchildren]

/-! ## The step that adds a node -/

variable {rule : Rule} {m : Match}

variable (rule m) in
/-- The node of a match changes nothing that is fixed of older nodes. -/
theorem fixed_node_addMatch (hp : p < t.size) (hi : i ≠ t.size) :
    ((Engine.addMatch t p rule m).node i).fixed = (t.node i).fixed := by
  rw [node_addMatch hp, if_neg hi]
  split
  · next hip => rw [hip]; rfl
  · rfl

/-- The only new link is that between the new node and its parent. -/
theorem isParent_addMatch (hp : p < t.size) :
    (Engine.addMatch t p rule m).IsParent j i ↔ t.IsParent j i ∨ i = t.size ∧ j = p := by
  by_cases hi : i = t.size
  · subst hi
    rw [IsParent, IsParent, node_addMatch hp, if_pos rfl, node_of_size_le le_rfl]
    have hdefault : (default : Node).parent? = none := rfl
    simp [hdefault, matchNode, Node.fresh, eq_comm]
  · obtain ⟨-, hparent, -⟩ := Node.fixed_eq_iff.1 (fixed_node_addMatch rule m hp hi)
    rw [IsParent, IsParent, hparent]
    simp [hi]

/-- The node of a match does not count for the nodes before it. -/
theorem countRule_addMatch (hp : p < t.size) (id : RuleId) {last : NodeId} (hlast : last < t.size) :
    (Engine.addMatch t p rule m).countRule id last = t.countRule id last := by
  refine List.countP_congr fun j hj => ?_
  have hle : j ≤ last := Nat.lt_one_add_iff.1 (List.mem_range'_1.1 hj).2
  have hne : j ≠ t.size := (hle.trans_lt hlast).ne
  rw [(Node.fixed_eq_iff.1 (fixed_node_addMatch rule m hp hne)).1]

/-- The new node is one more of its rule. -/
theorem countRule_addMatch_size (hp : p < t.size) (id : RuleId) :
    (Engine.addMatch t p rule m).countRule id t.size =
      t.countRule id (t.size - 1) + if rule.id = id then 1 else 0 := by
  have hpos : 0 < t.size := Nat.zero_lt_of_lt hp
  have hnew : (Engine.addMatch t p rule m).node t.size = matchNode t p rule m := by
    rw [node_addMatch hp, if_pos rfl]
  have hsize : t.size = t.size - 1 + 1 := (Nat.sub_add_cancel hpos).symm
  have hsplit : (Engine.addMatch t p rule m).countRule id t.size =
      (Engine.addMatch t p rule m).countRule id (t.size - 1) + if rule.id = id then 1 else 0 := by
    -- the new node is the last one that is counted
    unfold countRule
    conv_lhs => rw [hsize]
    rw [List.range'_1_concat, List.countP_append, Nat.add_comm 1, ← hsize, List.countP_singleton,
      hnew]
    by_cases hid : rule.id = id <;> simp [matchNode, Node.fresh, Rule.ref, hid]
  rw [hsplit, countRule_addMatch hp id (Nat.sub_one_lt_of_lt hpos)]

variable (rule m) in
/-- The node of a match does not change the tokens of the nodes before it. -/
theorem tokenOf_addMatch (hp : p < t.size) (hi : i < t.size) :
    (Engine.addMatch t p rule m).tokenOf i = t.tokenOf i := by
  obtain ⟨hrule, -⟩ := Node.fixed_eq_iff.1 (fixed_node_addMatch rule m hp hi.ne)
  rw [tokenOf, tokenOf, hrule, countRule_addMatch hp _ hi]

/-- The registry mints the token that the new node must have. -/
theorem Minted.mint_fst (h : Minted t) (hp : p < t.size) :
    (t.registry.mint rule.ref t.size).1 = (Engine.addMatch t p rule m).tokenOf t.size := by
  have hrule : ((Engine.addMatch t p rule m).node t.size).rule = rule.ref := by
    rw [node_addMatch hp, if_pos rfl]
    rfl
  rw [Registry.mint_fst, tokenOf, hrule, countRule_addMatch_size hp, h.sequence, h.occurrences]
  simp [Rule.ref]

/-- The node of a match is listed once, and by its parent. -/
theorem Linked.listed_addMatch (h : Linked t) (hp : p < t.size) (q i : NodeId) :
    ((Engine.addMatch t p rule m).node q).children.count i =
      if ((Engine.addMatch t p rule m).node i).parent? = some q then 1 else 0 := by
  have hparent : ((Engine.addMatch t p rule m).node i).parent? = some q ↔
      (t.node i).parent? = some q ∨ i = t.size ∧ q = p := isParent_addMatch hp
  have hnone : (t.node t.size).parent? = none := by
    rw [node_of_size_le le_rfl]
    rfl
  simp only [hparent]
  rw [node_addMatch hp]
  split
  · next hq =>
    -- nothing is below the new node
    have hold : (t.node i).parent? ≠ some q := by
      intro hiq
      have hsize : (t.node q).children.count i = 1 := by rw [h.listed, if_pos hiq]
      rw [hq, node_of_size_le le_rfl] at hsize
      contradiction
    have hqp : q ≠ p := hq ▸ hp.ne'
    simp [hold, hqp, matchNode, Node.fresh]
  · split
    · next hqp =>
      subst hqp
      -- the new node is put into this list, and only into this one
      by_cases hi : i = t.size
      · subst hi
        rw [List.count_append, h.listed, if_neg (by simp [hnone])]
        simp
      · rw [List.count_append, h.listed]
        simp [hi, Ne.symm hi]
    · next hqp => simp [h.listed, hqp]

variable (rule m) in
/-- The node of a match has the token that is minted for it. -/
theorem Minted.token?_addMatch (h : Minted t) (hp : p < t.size) :
    ((Engine.addMatch t p rule m).node t.size).token? =
      some ((Engine.addMatch t p rule m).tokenOf t.size) := by
  rw [← h.mint_fst hp, node_addMatch hp, if_pos rfl]
  rfl

/-- The new token is registered for the new node. No other node has it, as its number differs. -/
theorem Minted.owner_addMatch (h : Minted t) (hp : p < t.size) (token : Text) (i : NodeId) :
    (Engine.addMatch t p rule m).owner? token = some i ↔
      i < (Engine.addMatch t p rule m).size ∧
        ((Engine.addMatch t p rule m).node i).token? = some token := by
  have hold (hi : i < t.size) :
      ((Engine.addMatch t p rule m).node i).token? = (t.node i).token? :=
    (Node.fixed_eq_iff.1 (fixed_node_addMatch rule m hp hi.ne)).2.2.2.2.1
  have hnew := h.token?_addMatch rule m hp
  rw [owner?, registry_addMatch, Registry.owner?_mint, h.mint_fst hp (m := m), size_addMatch,
    Nat.lt_succ_iff_lt_or_eq]
  split
  · next htoken =>
    subst htoken
    constructor
    · intro hi
      obtain rfl := Option.some.inj hi
      exact ⟨.inr rfl, hnew⟩
    · rintro ⟨hi | rfl, htoken⟩
      · rw [hold hi] at htoken
        have hroot : i ≠ root := by
          rintro rfl
          rw [h.root_bare] at htoken
          contradiction
        -- an old node with the new token would be the new node
        rw [h.token i hroot hi, ← tokenOf_addMatch rule m hp hi] at htoken
        exact absurd (tokenOf_inj (Option.some.inj htoken)) hi.ne
      · rfl
  · next htoken =>
    constructor
    · intro howner
      obtain ⟨hi, hitoken⟩ := (h.owner token i).1 howner
      exact ⟨.inl hi, (hold hi).trans hitoken⟩
    · rintro ⟨hi | rfl, hitoken⟩
      · exact (h.owner token i).2 ⟨hi, (hold hi).symm.trans hitoken⟩
      · exact absurd (Option.some.inj (hitoken.symm.trans hnew)) htoken

/-- Adding the node of a match adds the link to its parent. -/
theorem Linked.addMatch (h : Linked t) (hp : p < t.size) :
    Linked (Engine.addMatch t p rule m) where
  parent_lt hq := by
    rcases (isParent_addMatch hp).1 hq with hq | ⟨rfl, rfl⟩
    · exact h.parent_lt hq
    · exact hp
  listed := h.listed_addMatch hp

/-- Adding the node of a match registers its token. -/
theorem Minted.addMatch (h : Minted t) (hp : p < t.size) :
    Minted (Engine.addMatch t p rule m) := by
  have hpos : 0 < t.size := Nat.zero_lt_of_lt hp
  have hold (i : NodeId) (hi : i < t.size) :
      ((Engine.addMatch t p rule m).node i).token? = (t.node i).token? :=
    (Node.fixed_eq_iff.1 (fixed_node_addMatch rule m hp hi.ne)).2.2.2.2.1
  refine ⟨?_, fun i hroot hi => ?_, ?_, fun id => ?_, h.owner_addMatch hp⟩
  · rw [hold root hpos]
    exact h.root_bare
  · rw [size_addMatch, Nat.lt_succ_iff_lt_or_eq] at hi
    rcases hi with hi | rfl
    · rw [hold i hi, tokenOf_addMatch rule m hp hi]
      exact h.token i hroot hi
    · exact h.token?_addMatch rule m hp
  · rw [registry_addMatch, Registry.sequence_mint, h.sequence, size_addMatch]
  · rw [registry_addMatch, Registry.occurrencesOf_mint, size_addMatch, Nat.add_sub_cancel,
      countRule_addMatch_size hp, h.occurrences]
    by_cases hid : id = rule.id <;> simp [Rule.ref, hid, eq_comm]

/-- Tokens that have been registered stay with their nodes. -/
theorem Minted.owner?_addMatch (h : Minted t) (hp : p < t.size) {token : Text}
    (howner : t.owner? token = some i) :
    (Engine.addMatch t p rule m).owner? token = some i := by
  obtain ⟨hi, htoken⟩ := (h.owner token i).1 howner
  obtain ⟨-, -, -, -, hold, -⟩ := Node.fixed_eq_iff.1 (fixed_node_addMatch rule m hp hi.ne)
  exact (h.owner_addMatch hp token i).2 ⟨hi.trans (by simp), hold.trans htoken⟩

end Cascade.Tree
