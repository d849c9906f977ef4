import Cascade.Proofs.Tree.Shape

/-!
# The order in which hooks are called

A tree tells in which order the hooks of its rules are called: a node is captured, then its children
have their turn in the order in which they were created, then the node is resolved, and what
replaces its match is asked for last.

* `trace`: the hooks that are called for a node and for all below it.
* `Linked.mem_trace_iff`, `Linked.nodup_trace`: what a trace is made of, each call of it once.
* `Linked.trace_isInfix`, `Linked.filter_trace`: the traces of nodes are parts of a trace, one
  behind the other, and the calls for one node are in a fixed order.
* `Linked.trace_addMatch`: a node that is added has its turn right before its parent is resolved.
-/

namespace Cascade

open Relation

/-- A hook that is called for a node: the rule that the hook belongs to, and which hook it is. -/
structure HookCall where
  rule : RuleRef
  stage : Stage
  node : NodeId
  deriving DecidableEq, Repr

namespace Tree

variable {t t' : Tree} {n p q i j k : NodeId} {c : HookCall}

/-- The nodes whose parent a node is, in the order in which they were created. -/
def offspring (t : Tree) (n : NodeId) : List NodeId :=
  (List.range t.size).filter fun i => n < i ∧ (t.node i).parent? = some n

/-- The offspring of a node are the younger nodes whose parent it is. -/
theorem mem_offspring : i ∈ t.offspring n ↔ n < i ∧ t.IsParent n i := by
  simp only [offspring, List.mem_filter, List.mem_range, decide_eq_true_eq, IsParent]
  constructor
  · rintro ⟨-, h⟩
    exact h
  · rintro ⟨hni, hparent⟩
    exact ⟨lt_size_of_isParent hparent, hni, hparent⟩

/-- Offspring are listed in the order in which they were created. -/
theorem offspring_sorted : (t.offspring n).Pairwise (· < ·) :=
  List.pairwise_lt_range.filter _

/-- There are fewer nodes behind an offspring than behind its parent. -/
theorem sub_lt_of_mem_offspring (h : i ∈ t.offspring n) : t.size - i < t.size - n := by
  obtain ⟨hni, hparent⟩ := mem_offspring.1 h
  exact Nat.sub_lt_sub_left (hni.trans (lt_size_of_isParent hparent)) hni

/-- The call of a hook for a node, the hook being one of the rule of the node. -/
def call (t : Tree) (n : NodeId) (stage : Stage) : HookCall :=
  ⟨(t.node n).rule, stage, n⟩

/-- The hooks that are called for a node and for all below it. The root replaces no match, so that
it is not asked for what does. -/
def trace (t : Tree) (n : NodeId) : List HookCall :=
  t.call n .capture :: ((t.offspring n).attach.flatMap fun ⟨i, _⟩ => t.trace i) ++
    t.call n .resolve :: if n = root then [] else [t.call n .substitute]
termination_by t.size - n
decreasing_by exact sub_lt_of_mem_offspring ‹_›

/-- A node is captured, those below it have their turn, it is resolved, and, but for the root, it is
replaced. -/
theorem trace_eq (t : Tree) (n : NodeId) :
    t.trace n = t.call n .capture :: (t.offspring n).flatMap t.trace ++
      t.call n .resolve :: if n = root then [] else [t.call n .substitute] := by
  rw [trace]
  simp

/-- The hooks that are called for a node itself. -/
def ownCalls (t : Tree) (n : NodeId) : List HookCall :=
  t.call n .capture :: t.call n .resolve :: if n = root then [] else [t.call n .substitute]

/-- The calls for a node itself are those of all stages, but that nothing replaces the root. -/
theorem mem_ownCalls :
    c ∈ t.ownCalls n ↔ ∃ stage, c = t.call n stage ∧ (n = root → stage ≠ .substitute) := by
  have hlast : c ∈ (if n = root then [] else [t.call n .substitute]) ↔
      n ≠ root ∧ c = t.call n .substitute := by
    split <;> simp [*]
  rw [ownCalls, List.mem_cons, List.mem_cons, hlast]
  constructor
  · rintro (rfl | rfl | ⟨hn, rfl⟩)
    · exact ⟨_, rfl, by simp⟩
    · exact ⟨_, rfl, by simp⟩
    · exact ⟨_, rfl, fun hroot => absurd hroot hn⟩
  · rintro ⟨stage, rfl, hstage⟩
    cases stage with
    | capture => exact .inl rfl
    | substitute => exact .inr (.inr ⟨fun hroot => hstage hroot rfl, rfl⟩)
    | resolve => exact .inr (.inl rfl)

/-- The calls of a trace are those for the node itself and those of the traces of its children. -/
theorem mem_trace : c ∈ t.trace n ↔ c ∈ t.ownCalls n ∨ ∃ i ∈ t.offspring n, c ∈ t.trace i := by
  rw [trace_eq, ownCalls]
  simp only [List.cons_append, List.mem_cons, List.mem_append, List.mem_flatMap, or_assoc,
    or_comm (a := ∃ i ∈ t.offspring n, c ∈ t.trace i)]

/-- The calls for a node itself are in its trace, in this order. -/
theorem ownCalls_sublist : (t.ownCalls n).Sublist (t.trace n) := by
  rw [trace_eq, ownCalls, List.cons_append]
  exact (List.sublist_append_right _ _).cons_cons _

/-- All calls of a trace are for nodes of the tree. -/
theorem node_lt_size_of_mem_trace (hn : n < t.size) (hc : c ∈ t.trace n) : c.node < t.size := by
  induction n using trace.induct t with
  | case1 n ih =>
    rcases mem_trace.1 hc with hc | ⟨i, hi, hc⟩
    · obtain ⟨stage, rfl, -⟩ := mem_ownCalls.1 hc
      exact hn
    · exact ih i hi (lt_size_of_isParent (mem_offspring.1 hi).2) hc

/-- A node has one parent. -/
theorem isParent_unique (hp : t.IsParent p i) (hq : t.IsParent q i) : p = q :=
  Option.some.inj (hp.symm.trans hq)

/-! ### Traces of linked trees -/

namespace Linked

variable (h : t.Linked)

include h

/-- The children of a node are listed in the order in which they start, which is another one. -/
theorem offspring_perm (n : NodeId) : (t.offspring n).Perm (t.node n).children := by
  have hnodup : (t.offspring n).Nodup := offspring_sorted.imp Nat.ne_of_lt
  refine List.perm_iff_count.2 fun i => ?_
  rw [h.listed, hnodup.count]
  refine if_congr ?_ rfl rfl
  rw [mem_offspring]
  exact ⟨fun hi => hi.2, fun hi => ⟨h.parent_lt hi, hi⟩⟩

/-- Hooks are called for the node and for what is below it. -/
theorem mem_trace_iff : c ∈ t.trace n ↔
    c = t.call c.node c.stage ∧ ReflTransGen t.IsParent n c.node ∧
      (c.node = root → c.stage ≠ .substitute) := by
  induction n using trace.induct t with
  | case1 n ih =>
    rw [mem_trace, mem_ownCalls]
    constructor
    · rintro (⟨stage, rfl, hstage⟩ | ⟨i, hi, hc⟩)
      · exact ⟨rfl, .refl, hstage⟩
      · obtain ⟨hcall, hpath, hstage⟩ := (ih i hi).1 hc
        exact ⟨hcall, .head (mem_offspring.1 hi).2 hpath, hstage⟩
    · rintro ⟨hcall, hpath, hstage⟩
      rcases hpath.cases_head with rfl | ⟨i, hi, hpath⟩
      · exact .inl ⟨c.stage, hcall, hstage⟩
      · have hmem : i ∈ t.offspring n := mem_offspring.2 ⟨h.parent_lt hi, hi⟩
        exact .inr ⟨i, hmem, (ih i hmem).2 ⟨hcall, hpath, hstage⟩⟩

/-- Of two nodes with the same parent, nothing lies below both. -/
theorem eq_of_isParent (hi : t.IsParent p i) (hj : t.IsParent p j)
    (hik : ReflTransGen t.IsParent i k) (hjk : ReflTransGen t.IsParent j k) : i = j := by
  -- a child of the parent that lies above another one would lie above the parent
  have hline {a b : NodeId} (ha : t.IsParent p a) (hb : t.IsParent p b)
      (hab : ReflTransGen t.IsParent a b) : a = b := by
    rcases hab.cases_tail with hab | ⟨q, hq, hqb⟩
    · exact hab.symm
    · obtain rfl := isParent_unique hqb hb
      exact absurd (h.parent_lt ha) (h.le_of_reflTransGen hq).not_gt
  induction hik with
  | refl => exact (hline hj hi hjk).symm
  | tail hk hkl ih =>
    rcases hjk.cases_tail with rfl | ⟨q, hq, hql⟩
    · exact hline hi hj (hk.tail hkl)
    · obtain rfl := isParent_unique hql hkl
      exact ih hq

/-- No hook is called twice for a node. -/
theorem nodup_trace (n : NodeId) : (t.trace n).Nodup := by
  induction n using trace.induct t with
  | case1 n ih =>
    have hbelow : ((t.offspring n).flatMap t.trace).Nodup := by
      refine List.nodup_flatMap.2 ⟨ih, offspring_sorted.imp_of_mem fun hi hj hij c hci hcj => ?_⟩
      exact hij.ne (h.eq_of_isParent (mem_offspring.1 hi).2 (mem_offspring.1 hj).2
        (h.mem_trace_iff.1 hci).2.1 (h.mem_trace_iff.1 hcj).2.1)
    have hown (stage : Stage) : t.call n stage ∉ (t.offspring n).flatMap t.trace := by
      intro hc
      obtain ⟨i, hi, hc⟩ := List.mem_flatMap.1 hc
      exact absurd (mem_offspring.1 hi).1 (h.le_of_reflTransGen (h.mem_trace_iff.1 hc).2.1).not_gt
    rw [trace_eq]
    generalize (t.offspring n).flatMap t.trace = below at hbelow hown
    have hne {stage stage' : Stage} (hs : stage ≠ stage') : t.call n stage ≠ t.call n stage' :=
      fun heq => hs (congrArg HookCall.stage heq)
    split <;> grind

/-- What is called for a node and for all below it is called in one piece. -/
theorem trace_isInfix (hni : ReflTransGen t.IsParent n i) : t.trace i <:+: t.trace n := by
  induction hni using ReflTransGen.head_induction_on with
  | refl => exact List.infix_rfl
  | @head n j hnj _ ih =>
    have hj : j ∈ t.offspring n := mem_offspring.2 ⟨h.parent_lt hnj, hnj⟩
    have hbelow : t.trace j <:+: (t.offspring n).flatMap t.trace :=
      List.infix_of_mem_flatten (List.mem_map_of_mem hj)
    rw [t.trace_eq n, List.cons_append]
    exact ih.trans (hbelow.trans (List.infix_cons (List.prefix_append _ _).isInfix))

/-- Of the calls of a trace, those for one node are in the order in which hooks are called for
it. -/
theorem filter_trace (hni : ReflTransGen t.IsParent n i) :
    (t.trace n).filter (·.node = i) = t.ownCalls i := by
  have hown : (t.ownCalls i).filter (·.node = i) = t.ownCalls i := by
    refine List.filter_eq_self.2 fun c hc => ?_
    obtain ⟨stage, rfl, -⟩ := mem_ownCalls.1 hc
    simp [call]
  have hsublist : (t.ownCalls i).Sublist (t.trace n) :=
    ownCalls_sublist.trans (h.trace_isInfix hni).sublist
  have hfilter := hsublist.filter (·.node = i)
  rw [hown] at hfilter
  -- nothing else is called for the node
  have hperm : (t.ownCalls i).Perm ((t.trace n).filter (·.node = i)) := by
    have hnodup := h.nodup_trace n
    refine (List.perm_ext_iff_of_nodup (hnodup.sublist hsublist) (hnodup.filter _)).2 fun c => ?_
    rw [mem_ownCalls, List.mem_filter, h.mem_trace_iff, decide_eq_true_iff]
    constructor
    · rintro ⟨stage, rfl, hstage⟩
      exact ⟨⟨rfl, hni, hstage⟩, rfl⟩
    · rintro ⟨⟨hcall, -, hstage⟩, rfl⟩
      exact ⟨c.stage, hcall, hstage⟩
  exact (hfilter.eq_of_length hperm.length_eq).symm

/-- What lies below a node is replaced before the node is. -/
theorem substitute_sublist (hn : n ≠ root) (hni : t.IsAbove n i) :
    [t.call i .substitute, t.call n .substitute].Sublist (t.trace n) := by
  obtain ⟨j, hnj, hji⟩ := TransGen.head'_iff.1 hni
  have hj : j ∈ t.offspring n := mem_offspring.2 ⟨h.parent_lt hnj, hnj⟩
  have hi : i ≠ root := (Nat.zero_lt_of_lt (h.lt_of_isAbove hni)).ne'
  have hmem : t.call i .substitute ∈ (t.offspring n).flatMap t.trace :=
    List.mem_flatMap.2 ⟨j, hj, h.mem_trace_iff.2 ⟨rfl, hji, fun hroot => absurd hroot hi⟩⟩
  have hlast : [t.call n .substitute].Sublist
      (t.call n .resolve :: if n = root then [] else [t.call n .substitute]) := by
    rw [if_neg hn]
    exact List.sublist_cons_self _ _
  rw [trace_eq, List.cons_append]
  exact ((List.singleton_sublist.2 hmem).append hlast).cons _

end Linked

/-! ### Steps -/

/-- Which hook is called at a stage depends on the shape of the tree only. -/
theorem call_of_sameShape (h : SameShape t t') (n : NodeId) (stage : Stage) :
    t'.call n stage = t.call n stage := by
  rw [call, call, (Node.fixed_eq_iff.1 (h.fixed_eq n)).1]

/-- Which nodes lie below a node depends on the shape of the tree only. -/
theorem offspring_of_sameShape (h : SameShape t t') (n : NodeId) :
    t'.offspring n = t.offspring n := by
  have hparent (i : NodeId) : (t'.node i).parent? = (t.node i).parent? :=
    (Node.fixed_eq_iff.1 (h.fixed_eq i)).2.1
  simp only [offspring, hparent, h.size_eq]

/-- The order of calls does not depend on what changes while a node is resolved. -/
theorem trace_of_sameShape (h : SameShape t t') (n : NodeId) : t'.trace n = t.trace n := by
  induction n using trace.induct t with
  | case1 n ih =>
    rw [trace_eq, trace_eq, offspring_of_sameShape h, List.flatMap_congr ih]
    simp only [call_of_sameShape h]

variable {rule : Rule} {m : Match}

/-- The new node is the last child of its parent. -/
theorem offspring_addMatch (hp : p < t.size) (n : NodeId) :
    (Engine.addMatch t p rule m).offspring n =
      t.offspring n ++ if n = p then [t.size] else [] := by
  have hold (i : NodeId) (hi : i < t.size) :
      ((Engine.addMatch t p rule m).node i).parent? = (t.node i).parent? :=
    (Node.fixed_eq_iff.1 (fixed_node_addMatch rule m hp hi.ne)).2.1
  have hnew : ((Engine.addMatch t p rule m).node t.size).parent? = some p := by
    rw [node_addMatch hp, if_pos rfl]
    rfl
  rw [offspring, size_addMatch, List.range_succ, List.filter_append]
  congr 1
  · refine List.filter_congr fun i hi => ?_
    rw [hold i (List.mem_range.1 hi)]
  · by_cases hnp : n = p
    · simp [hnp, hnew, hp]
    · simp [hnp, hnew, Ne.symm hnp]

/-- The calls for a node that has nothing below it and is not the root. -/
def newCalls (rule : Rule) (n : NodeId) : List HookCall :=
  [⟨rule.ref, .capture, n⟩, ⟨rule.ref, .resolve, n⟩, ⟨rule.ref, .substitute, n⟩]

/-- Calls with others put in right before a node is resolved. -/
def beforeResolve (p : NodeId) (new calls : List HookCall) : List HookCall :=
  calls.flatMap fun c => if c.stage = .resolve ∧ c.node = p then new ++ [c] else [c]

/-- Nothing is put in where the node is not resolved. -/
theorem beforeResolve_eq_self {new calls : List HookCall}
    (h : ∀ c ∈ calls, ¬ (c.stage = .resolve ∧ c.node = p)) : beforeResolve p new calls = calls := by
  rw [beforeResolve, List.flatMap_congr fun c hc => if_neg (h c hc), List.flatMap_singleton']

/-- The trace of the new node is that of a node with nothing below it. -/
theorem trace_addMatch_size (hp : p < t.size) :
    (Engine.addMatch t p rule m).trace t.size = newCalls rule t.size := by
  have hrule : ((Engine.addMatch t p rule m).node t.size).rule = rule.ref := by
    rw [node_addMatch hp, if_pos rfl]
    rfl
  have hnone : t.offspring t.size = [] := by
    refine List.eq_nil_iff_forall_not_mem.2 fun i hi => ?_
    obtain ⟨hlt, hparent⟩ := mem_offspring.1 hi
    exact absurd (lt_size_of_isParent hparent) hlt.not_gt
  have hroot : t.size ≠ root := (Nat.zero_lt_of_lt hp).ne'
  rw [trace_eq, offspring_addMatch hp, hnone, if_neg hp.ne', if_neg hroot]
  simp [call, hrule, newCalls]

/-- The calls for the new node are put in where its parent is resolved, and nowhere else. -/
theorem trace_addMatch_of_lt (hp : p < t.size) (hn : n < t.size) :
    (Engine.addMatch t p rule m).trace n = beforeResolve p (newCalls rule t.size) (t.trace n) := by
  induction n using trace.induct t with
  | case1 n ih =>
    have hcall (stage : Stage) : (Engine.addMatch t p rule m).call n stage = t.call n stage := by
      rw [call, call, (Node.fixed_eq_iff.1 (fixed_node_addMatch rule m hp hn.ne)).1]
    have hbelow : (t.offspring n).flatMap (Engine.addMatch t p rule m).trace =
        beforeResolve p (newCalls rule t.size) ((t.offspring n).flatMap t.trace) := by
      rw [beforeResolve, List.flatMap_assoc]
      exact List.flatMap_congr fun i hi => ih i hi (lt_size_of_isParent (mem_offspring.1 hi).2)
    have hlast : beforeResolve p (newCalls rule t.size)
        (if n = root then [] else [t.call n .substitute]) =
          if n = root then [] else [t.call n .substitute] := by
      split <;> simp [beforeResolve, call]
    rw [trace_eq, trace_eq, offspring_addMatch hp, List.flatMap_append, hbelow]
    unfold beforeResolve at hlast ⊢
    simp only [hcall, List.flatMap_append, List.flatMap_cons, hlast]
    by_cases hnp : n = p
    · simp [hnp, call, trace_addMatch_size hp]
    · simp [hnp, call]

/-- A node that is added has its turn right before its parent is resolved. -/
theorem Linked.trace_addMatch (h : t.Linked) (hp : p < t.size) {r : RuleRef}
    {before after : List HookCall} (htrace : t.trace root = before ++ ⟨r, .resolve, p⟩ :: after) :
    (Engine.addMatch t p rule m).trace root =
      before ++ (newCalls rule t.size ++ ⟨r, .resolve, p⟩ :: after) := by
  have hnodup := h.nodup_trace root
  rw [htrace, List.nodup_middle, List.nodup_cons, List.mem_append, not_or] at hnodup
  -- the parent is resolved once, so the calls are put in at one place
  have honce (c : HookCall) (hc : c ∈ t.trace root) (hcp : c.stage = .resolve ∧ c.node = p) :
      c = ⟨r, .resolve, p⟩ := by
    have hresolve : ⟨r, .resolve, p⟩ ∈ t.trace root := by simp [htrace]
    rw [(h.mem_trace_iff.1 hc).1, (h.mem_trace_iff.1 hresolve).1, hcp.1, hcp.2]
  have hbefore : beforeResolve p (newCalls rule t.size) before = before :=
    beforeResolve_eq_self fun c hc hcp =>
      hnodup.1.1 (honce c (htrace ▸ List.mem_append_left _ hc) hcp ▸ hc)
  have hafter : beforeResolve p (newCalls rule t.size) after = after :=
    beforeResolve_eq_self fun c hc hcp => hnodup.1.2
      (honce c (htrace ▸ List.mem_append_right _ (List.mem_cons_of_mem _ hc)) hcp ▸ hc)
  rw [trace_addMatch_of_lt (n := root) hp (Nat.zero_lt_of_lt hp), htrace]
  unfold beforeResolve at hbefore hafter ⊢
  rw [List.flatMap_append, List.flatMap_cons, hbefore, hafter, if_pos ⟨rfl, rfl⟩]
  simp

end Tree

end Cascade
