import Cascade.Proofs.Engine.Calls
import Cascade.Proofs.Engine.Step

/-!
# Nodes that have been resolved stay as they are

When a node has been resolved, a parse goes on at older nodes and at nodes that are not there yet. A
change there leaves the node and all that is below it alone, but for the links of the node to its
neighbours, which are set when the children of its parent are put in order.

* `GrownBelow`: what is left of a tree when rules have searched the text of a node.
* `Frozen`: a node and all that is below it are as they were.
* `Later`, `Kept.later`: a change that comes later leaves a node alone.
* `Runs.leaves`, `Stops.leaves`: all changes behind the resolution of a node come later.
* `frozen_of_history`: what a parse does not change.
-/

namespace Cascade

/-- All nodes of a tree but one are as they were, and more have been added. Of this one, the working
text is another, and nodes that have been added are its last children. -/
structure Tree.GrownBelow (t : Tree) (p : NodeId) (t' : Tree) : Prop where
  size_le : t.size ≤ t'.size
  node_eq : ∀ i < t.size, i ≠ p → t'.node i = t.node i
  self_eq : ∃ working added, (∀ i ∈ added, t.size ≤ i ∧ i < t'.size) ∧
    t'.node p = { t.node p with working, children := (t.node p).children ++ added }
  /-- Tokens belong to the nodes that they belonged to. -/
  owner : ∀ token i, t.owner? token = some i → t'.owner? token = some i

/-- What lies below a node is as it was, and so is the node, as far as the mask does not hide it. -/
structure Tree.Frozen (t : Tree) (mask : Node → Node) (n : NodeId) (t' : Tree) : Prop where
  mask_eq : mask (t'.node n) = mask (t.node n)
  isAbove_iff : ∀ i, t'.IsAbove n i ↔ t.IsAbove n i
  node_eq : ∀ i, t.IsAbove n i → t'.node i = t.node i

/-- A node is known from another one that differs in its work only, but for its work. -/
theorem Node.eq_of_withoutWork_eq {n n' : Node} (h : n.withoutWork = n'.withoutWork) :
    n = { n' with working := n.working, children := n.children } := by
  cases n
  cases n'
  simp_all [withoutWork]

/-- Settled nodes that agree have the same children. -/
theorem Node.children_eq_of_settled_eq {n n' : Node} (h : n.settled = n'.settled) :
    n.children = n'.children :=
  (Node.settled_eq_iff.1 h).2.2.2

namespace Engine

open List (forall_mem_append forall_mem_cons forall_mem_nil forall_mem_singleton)
open Relation (ReflTransGen TransGen)
open Cascade.Tree

variable {g : Grammar} {levels : Nat} {task : Task} {t t₁ t₂ t' : Tree} {events : List Event}
  {edits : List (Span × Text)} {e : ParseError} {n p q i : NodeId} {mask : Node → Node}

/-! ## The frame of a search -/

/-- A task that searches or resolves matches adds new nodes behind the children of its node. -/
def Task.Appends (t t' : Tree) : Task → Prop
  | node _ _ => True
  | search p _ | resolve p _ _ => ∃ added, (∀ i ∈ added, t.size ≤ i ∧ i < t'.size) ∧
      (t'.node p).children = (t.node p).children ++ added

/-- What is added below a node while it is worked at comes behind its children, and is new. -/
theorem Runs.appends (h : Runs g levels task t events edits t') (hready : task.Ready t) :
    task.Appends t t' := by
  induction h with
  | node => trivial
  | searchNil => exact ⟨[], forall_mem_nil _, by simp⟩
  | searchSkip _ _ ih => exact ih hready
  | @searchPass levels p id ids child pattern t t₁ t₂ events later edits _ hresolve hrest ih ih' =>
    obtain ⟨hp, -⟩ : p < t.size ∧ True := hready
    have hp₁ : p < t₁.size := hp.trans_le (hresolve.frame ⟨hp, trivial⟩).size_le
    have hready₁ : (Task.search p ids).Ready (t₁.setWorking p ((t.node p).working.splice edits)) :=
      Task.ready_setWorking hp₁
    have hle : t₁.size ≤ t₂.size := by simpa using (hrest.frame hready₁).size_le
    -- the children that one rule adds stand before those that the rules behind it add
    obtain ⟨added, hadded, hchildren⟩ := ih ⟨hp, trivial⟩
    obtain ⟨more, hmore, hchildren'⟩ := ih' hready₁
    rw [node_setWorking_self hp₁] at hchildren'
    simp only [size_setWorking] at hmore
    refine ⟨added ++ more, forall_mem_append.2 ⟨fun i hi => ?_, fun i hi => ?_⟩, ?_⟩
    · exact ⟨(hadded i hi).1, (hadded i hi).2.trans_le hle⟩
    · exact ⟨(hresolve.frame ⟨hp, trivial⟩).size_le.trans (hmore i hi).1, (hmore i hi).2⟩
    · rw [hchildren', hchildren, List.append_assoc]
  | resolveNil => exact ⟨[], forall_mem_nil _, by simp⟩
  | @resolveCons levels p child m found t t₁ t₂ t₃ replacement events later edits hnode hsubstitute
      hrest _ ih' =>
    obtain ⟨s, -, rfl⟩ := hsubstitute
    obtain ⟨hp, -⟩ : p < t.size ∧ True := hready
    have hframe : Frame t.size Node.core (addMatch t p child m) t₁ :=
      hnode.frame (Task.ready_addMatch hp)
    have hlt : t.size < t₁.size := hframe.lt_size_of_addMatch
    have hready₂ : (Task.resolve p child found).Ready (View.withStates ⟨t₁, t.size⟩ s) :=
      Task.ready_withStates (hp.trans hlt)
    have hle : t₁.size ≤ t₃.size := by simpa using (hrest.frame hready₂).size_le
    obtain ⟨added, hadded, hchildren⟩ := ih' hready₂
    simp only [View.size_withStates] at hadded
    refine ⟨t.size :: added, forall_mem_cons.2 ⟨⟨le_rfl, hlt.trans_le hle⟩, fun i hi => ?_⟩, ?_⟩
    · exact ⟨hlt.le.trans (hadded i hi).1, (hadded i hi).2⟩
    · -- what happens below the new node does not change the parent
      rw [hchildren, View.node_withStates_of_ne hp.ne,
        hframe.node_eq p (by simpa using Nat.lt_succ_of_lt hp) hp.ne, node_addMatch hp,
        if_neg hp.ne, if_pos rfl, List.append_assoc]
      rfl

/-- Rules that search the text of a node leave all other nodes alone. -/
theorem Runs.grownBelow {rules : List RuleId}
    (h : Runs g levels (.search p rules) t events edits t') (hp : p < t.size) (ht : Sound g t) :
    t.GrownBelow p t' := by
  have hready : (Task.search p rules).Ready t := ⟨hp, trivial⟩
  have hframe : Frame p Node.withoutWork t t' := h.frame hready
  obtain ⟨added, hadded, hchildren⟩ := h.appends hready
  refine ⟨hframe.size_le, hframe.node_eq, ⟨(t'.node p).working, added, hadded, ?_⟩,
    ((h.steps hp trivial).1.sound ht).2⟩
  have hself := Node.eq_of_withoutWork_eq hframe.mask_eq
  rwa [hchildren] at hself

/-! ## Changes that come later -/

/-- A change at a node leaves the others alone, but for the links between its children. -/
theorem Step.node_eq (h : Step g q t t') (ht : t.Linked) (hi : i < t.size) (hiq : i ≠ q) :
    (t'.node i).unlinked = (t.node i).unlinked ∧
      (¬ t.IsParent q i → t'.node i = t.node i) := by
  have heq (h : t'.node i = t.node i) : (t'.node i).unlinked = (t.node i).unlinked ∧
      (¬ t.IsParent q i → t'.node i = t.node i) := ⟨by rw [h], fun _ => h⟩
  cases h with
  | states v states => exact heq (View.node_withStates_of_ne hiq)
  | modified => exact heq (node_setModified_of_ne hiq)
  | working => exact heq (node_setWorking_of_ne hiq)
  | link hid =>
    exact ⟨unlinked_node_linkChildren_of_ne hiq, fun hparent =>
      node_linkChildren_of_not_mem hiq fun hmem => hparent (ht.mem_children.1 hmem)⟩
  | add hp hchild => exact heq (by rw [node_addMatch hp, if_neg hi.ne, if_neg hiq])

/-- A change that comes when the node `n` of the tree `t` has been resolved: it is at an older node
or at one that is not in `t`. Hooks may also set states at `n` itself, if the mask hides its own. -/
inductive Later (g : Grammar) (mask : Node → Node) (n : NodeId) (t : Tree) :
    Tree → Tree → Prop where
  | elsewhere {q : NodeId} {t₁ t₂ : Tree} (hq : q < n ∨ t.size ≤ q) (h : Step g q t₁ t₂) :
      Later g mask n t t₁ t₂
  | states {t₁ : Tree}
      (hmask : ∀ (node : Node) own, mask { node with localState := own } = mask node)
      (states : States) : Later g mask n t t₁ (View.withStates ⟨t₁, n⟩ states)

/-- What lies below a node is as it was, and so is the node, as far as the mask does not hide it. -/
structure Kept (mask : Node → Node) (n : NodeId) (t t' : Tree) : Prop where
  size_le : t.size ≤ t'.size
  mask_eq : mask (t'.node n) = mask (t.node n)
  node_eq : ∀ i, t.IsAbove n i → t'.node i = t.node i

/-- What lies below a node has a parent there. -/
theorem exists_isParent_of_isAbove (ht : t.Linked) (h : t.IsAbove n i) :
    n < i ∧ i < t.size ∧ ∃ p, n ≤ p ∧ p < t.size ∧ t.IsParent p i := by
  obtain ⟨p, hpath, hp⟩ := TransGen.tail'_iff.1 h
  have hi : i < t.size := lt_size_of_isParent hp
  have hpi : p < i := ht.parent_lt hp
  exact ⟨ht.lt_of_isAbove h, hi, p, ht.le_of_reflTransGen hpath, hpi.trans hi, hp⟩

/-- A change that comes later leaves a node and all that is below it alone. -/
theorem Kept.later (h : Kept mask n t t₁) (ht : t.Linked) (hn : n < t.size) (ht₁ : t₁.Linked)
    (hlinks : ∀ a b : Node, a.unlinked = b.unlinked → mask a = mask b)
    (hlater : Later g mask n t t₁ t₂) : Kept mask n t t₂ := by
  have hn₁ : n < t₁.size := hn.trans_le h.size_le
  cases hlater with
  | @elsewhere q _ _ hq hstep =>
    -- neither the node nor one below it, nor the parent of such a node, is where the change is
    have hne {i : NodeId} (hni : n ≤ i) (hi : i < t.size) : i ≠ q := by
      rintro rfl
      rcases hq with hq | hq
      · exact absurd hq hni.not_gt
      · exact absurd hq hi.not_ge
    refine ⟨h.size_le.trans hstep.size_le, ?_, fun i hi => ?_⟩
    · rw [hlinks _ _ (hstep.node_eq ht₁ hn₁ (hne le_rfl hn)).1, h.mask_eq]
    · obtain ⟨hni, hisize, p, hnp, hpsize, hp⟩ := exists_isParent_of_isAbove ht hi
      have hparent : ¬ t₁.IsParent q i := by
        intro hparent
        rw [IsParent, h.node_eq i hi] at hparent
        have hqp : some q = some p := hparent.symm.trans hp
        exact hne hnp hpsize (Option.some.inj hqp).symm
      rw [(hstep.node_eq ht₁ (hisize.trans_le h.size_le) (hne hni.le hisize)).2 hparent,
        h.node_eq i hi]
  | states hmask states =>
    refine ⟨by simpa using h.size_le, ?_, fun i hi => ?_⟩
    · rw [View.node_withStates_self (v := ⟨t₁, n⟩) hn₁, hmask, h.mask_eq]
    · rw [View.node_withStates_of_ne (ht.lt_of_isAbove hi).ne', h.node_eq i hi]

/-- What happens later is a change of the tree. -/
theorem Later.step (h : Later g mask n t t₁ t₂) : ∃ q, Step g q t₁ t₂ := by
  cases h with
  | elsewhere _ hstep => exact ⟨_, hstep⟩
  | states _ states => exact ⟨n, .states ⟨t₁, n⟩ states⟩

/-- Nothing that happens later takes a node away. -/
theorem size_le_of_later (h : ReflTransGen (Later g mask n t) t₁ t₂) : t₁.size ≤ t₂.size := by
  induction h with
  | refl => exact le_rfl
  | tail _ hlater ih =>
    obtain ⟨q, hstep⟩ := hlater.step
    exact ih.trans hstep.size_le

/-- Changes that come later leave a node and all that is below it alone. -/
theorem kept_of_later (h : ReflTransGen (Later g mask n t) t t') (ht : Sound g t) (hn : n < t.size)
    (hlinks : ∀ a b : Node, a.unlinked = b.unlinked → mask a = mask b) :
    Kept mask n t t' ∧ Sound g t' := by
  induction h with
  | refl => exact ⟨⟨le_rfl, rfl, fun _ _ => rfl⟩, ht⟩
  | tail _ hlater ih =>
    obtain ⟨q, hstep⟩ := hlater.step
    exact ⟨ih.1.later ht.linked hn ih.2.linked hlinks hlater, hstep.sound ih.2⟩

/-- Nodes get no other descendants if their children stay the same. -/
theorem Kept.isAbove_iff (h : Kept mask n t t') (ht : t.Linked) (ht' : t'.Linked)
    (hchildren : (t'.node n).children = (t.node n).children) :
    t'.IsAbove n i ↔ t.IsAbove n i := by
  constructor
  · intro ha
    induction ha with
    | single hp =>
      rw [← ht'.mem_children, hchildren, ht.mem_children] at hp
      exact .single hp
    | tail _ hp ih =>
      rw [← ht'.mem_children, h.node_eq _ ih, ht.mem_children] at hp
      exact .tail ih hp
  · intro ha
    induction ha with
    | single hp =>
      rw [← ht.mem_children, ← hchildren, ht'.mem_children] at hp
      exact .single hp
    | tail ha hp ih =>
      rw [← ht.mem_children, ← h.node_eq _ ha, ht'.mem_children] at hp
      exact .tail ih hp

/-- A node is frozen from some time on if all that happens then is a later change. -/
theorem frozen_of_later (h : ReflTransGen (Later g mask n t) t t') (ht : Sound g t)
    (hn : n < t.size) (hlinks : ∀ a b : Node, a.unlinked = b.unlinked → mask a = mask b)
    (hchildren : ∀ a b : Node, mask a = mask b → a.children = b.children) :
    t.Frozen mask n t' := by
  obtain ⟨hkept, ht'⟩ := kept_of_later h ht hn hlinks
  exact ⟨hkept.mask_eq,
    fun _ => hkept.isAbove_iff ht.linked ht'.linked (hchildren _ _ hkept.mask_eq), hkept.node_eq⟩

/-! ## What comes behind an event -/

/-- The tree `T` comes of later changes, if the event is one that resolves a node. -/
def Leaves (g : Grammar) (T : Tree) : Event → Prop
  | .call rule .substitute v => ∀ text t, rule.hooks.onSubstitute.Succeeds v text t →
      ReflTransGen (Later g Node.unlinked v.id t) t T
  | .call _ .resolve v => ReflTransGen (Later g Node.settled v.id v.tree) v.tree T
  | _ => True

/-- The node is older than the one that the event is a call for. -/
def Precedes (p : NodeId) (e : Event) : Prop :=
  ∀ stage id, e.call? = some (stage, id) → p < id

/-- Work at an older node and at new ones is a sequence of later changes. -/
theorem later_of_steps (h : Steps g (AtOrNew p t₁) t₁ t₂) (hp : p < n) (hle : t.size ≤ t₁.size) :
    ReflTransGen (Later g mask n t) t₁ t₂ := by
  refine ReflTransGen.mono (fun _ _ hstep => ?_) _ _ h
  obtain ⟨q, rfl | hq, hstep⟩ := hstep
  · exact .elsewhere (.inl hp) hstep
  · exact .elsewhere (.inr (hle.trans hq)) hstep

/-- Work at an older node and at new ones comes later. -/
theorem leaves_of_steps {e : Event} (h : Leaves g t₁ e) (hp : Precedes p e)
    (hsteps : Steps g (AtOrNew p t₁) t₁ t₂) : Leaves g t₂ e := by
  cases e with
  | search => trivial
  | call rule stage v =>
    have hv : p < v.id := hp stage v.id rfl
    cases stage with
    | capture => trivial
    | substitute =>
      intro text t hcall
      exact (h text t hcall).trans (later_of_steps hsteps hv (size_le_of_later (h text t hcall)))
    | resolve => exact ReflTransGen.trans h (later_of_steps hsteps hv (size_le_of_later h))

/-- What a hook sees is left by the events before, if only work at an older node lies between. -/
theorem sees_leaves {later : List Event} (h : ∀ e ∈ events, Leaves g t₁ e ∧ Precedes p e)
    (hlater : ∀ e ∈ later, e.Sees (Reaches g (AtOrNew p t₁) t₁)) :
    ∀ e ∈ events, ∀ e' ∈ later, e'.Sees fun v => Leaves g v.tree e :=
  fun e he e' he' => (hlater e' he').mono fun _ hv => leaves_of_steps (h e he).1 (h e he).2 hv.1

/-- A part of a parse that works below a node calls hooks for younger nodes only. -/
theorem Runs.precedes (h : Runs g levels task t events edits t') (hready : task.Ready t)
    (hp : p < t.size) (hnode : ∀ id rule, task = .node id rule → p < id) :
    ∀ e ∈ events, Precedes p e := by
  intro e he stage id hcall
  have hmem : (stage, id) ∈ Engine.calls events := List.mem_filterMap.2 ⟨e, he, hcall⟩
  rcases (h.calls hready).2 _ hmem with ⟨hlt, -⟩ | ⟨⟨rule, htask⟩, -⟩
  · exact hp.trans_le hlt
  · exact hnode id rule htask

/-- A hook has one result. -/
theorem eq_of_succeeds {α : Type} {hook : HookM α} {v : View} {a b : α} (h : hook.Succeeds v a t)
    (h' : hook.Succeeds v b t') : t = t' := by
  obtain ⟨states, hrun, rfl⟩ := h
  obtain ⟨states', hrun', rfl⟩ := h'
  obtain ⟨-, rfl⟩ : a = b ∧ states = states' := by simpa using hrun.symm.trans hrun'
  rfl

/-- A node is still there when a match in its text has been resolved. -/
theorem lt_size_of_match {child : Rule} {m : Match} {replacement : Text}
    (hnode : Runs g levels (.node t.size child) (addMatch t p child m) events [] t₁)
    (hp : p < t.size)
    (hsubstitute : child.hooks.onSubstitute.Succeeds ⟨t₁, t.size⟩ replacement t₂) :
    p < t₂.size := by
  obtain ⟨s, -, rfl⟩ := hsubstitute
  have hlt : t.size < t₁.size := (hnode.frame (Task.ready_addMatch hp)).lt_size_of_addMatch
  simpa using hp.trans hlt

/-- When a match has been resolved, what comes behind the events on the way comes later, the call
that gives what replaces the match included. -/
theorem leaves_of_match {child : Rule} {m : Match} {replacement : Text}
    (hnode : Runs g levels (.node t.size child) (addMatch t p child m) events [] t₁)
    (hp : p < t.size) (hleaves : ∀ e ∈ events, Leaves g t₁ e)
    (hsubstitute : child.hooks.onSubstitute.Succeeds ⟨t₁, t.size⟩ replacement t₂) :
    ∀ e ∈ events ++ [.call child .substitute ⟨t₁, t.size⟩], Leaves g t₂ e ∧ Precedes p e := by
  have hready : (Task.node t.size child).Ready (addMatch t p child m) := Task.ready_addMatch hp
  refine forall_mem_append.2 ⟨fun e he => ⟨?_, ?_⟩, forall_mem_singleton.2 ⟨?_, ?_⟩⟩
  · -- the hook sets states at the node, which has been resolved, or is older than those that have
    obtain ⟨states, -, rfl⟩ := hsubstitute
    cases e with
    | search => trivial
    | call rule stage v =>
      have hmem : (stage, v.id) ∈ calls events := List.mem_filterMap.2 ⟨_, he, rfl⟩
      rcases (hnode.calls hready).2 _ hmem with ⟨hlt, -⟩ | ⟨⟨rule', hself⟩, hstage⟩
      · have hprecedes : Precedes t.size (.call rule stage v) := by
          rintro _ _ ⟨rfl, rfl⟩
          rwa [size_addMatch] at hlt
        exact leaves_of_steps (hleaves _ he) hprecedes
          (.single (.inl rfl) (.states ⟨t₁, t.size⟩ states))
      · obtain ⟨hid, -⟩ : t.size = v.id ∧ child = rule' := by simpa using hself
        cases stage with
        | capture => trivial
        | substitute => contradiction
        | resolve =>
          have hresolve : ReflTransGen (Later g Node.settled v.id v.tree) v.tree t₁ := hleaves _ he
          rw [hid]
          exact hresolve.tail (.states (fun _ _ => rfl) states)
  · refine hnode.precedes hready (hp.trans (by simp)) ?_ e he
    rintro id rule ⟨rfl, -⟩
    exact hp
  · intro text t' hcall
    obtain rfl := eq_of_succeeds hcall hsubstitute
    exact .refl
  · rintro stage id ⟨rfl, rfl⟩
    exact hp

/-- When the text that a pass has left is set, the same holds of the events on the way. -/
theorem leaves_of_pass {child : Rule} {found : List Match} (text : Text)
    (hresolve : Runs g levels (.resolve p child found) t events edits t₁) (hp : p < t.size)
    (hleaves : ∀ e ∈ events, Leaves g t₁ e) :
    ∀ e ∈ events, Leaves g (t₁.setWorking p text) e ∧ Precedes p e := by
  have hprecedes := hresolve.precedes ⟨hp, trivial⟩ hp (by simp)
  exact fun e he => ⟨leaves_of_steps (hleaves e he) (hprecedes e he)
    (.single (.inl rfl) (.working ..)), hprecedes e he⟩

/-- A hook that is called when all else has happened sees what has been left. -/
theorem pairwise_leaves_concat {rule : Rule} {stage : Stage} {id : NodeId}
    (h : events.Pairwise fun e e' => e'.Sees fun v => Leaves g v.tree e)
    (hleaves : ∀ e ∈ events, Leaves g t e) :
    (events ++ [Event.call rule stage ⟨t, id⟩]).Pairwise fun e e' =>
      e'.Sees fun v => Leaves g v.tree e := by
  rw [List.pairwise_append]
  exact ⟨h, List.pairwise_singleton _ _, fun e he => forall_mem_singleton.2 (hleaves e he)⟩

/-- When all rules have searched the text of a node, its children are put in order. -/
theorem leaves_linkChildren {rules : List RuleId}
    (hsearch : Runs g levels (.search p rules) t events [] t₁) (hp : p < t.size)
    (hleaves : ∀ e ∈ events, Leaves g t₁ e) :
    ∀ e ∈ events, Leaves g (t₁.linkChildren p) e ∧ Precedes p e := by
  have hready : (Task.search p rules).Ready t := ⟨hp, trivial⟩
  have hp₁ : p < t₁.size := hp.trans_le (hsearch.frame hready).size_le
  have hprecedes := hsearch.precedes hready hp (by simp)
  exact fun e he => ⟨leaves_of_steps (hleaves e he) (hprecedes e he)
    (.single (.inl rfl) (.link hp₁)), hprecedes e he⟩

/-- What comes behind the events of a part of a parse comes later, in the tree that the part leads
to and in those that hooks see on the way. -/
theorem Runs.leaves (h : Runs g levels task t events edits t') (hready : task.Ready t)
    (htask : task.OfGrammar g) :
    (∀ e ∈ events, Leaves g t' e) ∧
      events.Pairwise fun e e' => e'.Sees fun v => Leaves g v.tree e := by
  induction h with
  | @node levels id rule t t₁ t₂ t₃ text events hcapture hsearch hresolve ih =>
    obtain ⟨s₁, -, rfl⟩ := hcapture
    obtain ⟨s₃, -, rfl⟩ := hresolve
    obtain ⟨hid, -⟩ : id < t.size ∧ (t.node id).children = [] := hready
    have hid₁ : id < ((View.withStates ⟨t, id⟩ s₁).setModified id text).size := by simpa using hid
    obtain ⟨hinner, hpairwise⟩ := ih ⟨hid₁, trivial⟩ trivial
    have hlinked := leaves_linkChildren hsearch hid₁ hinner
    constructor
    · refine forall_mem_cons.2 ⟨trivial, forall_mem_append.2 ⟨fun e he => ?_, ?_⟩⟩
      · exact leaves_of_steps (hlinked e he).1 (hlinked e he).2
          (.single (.inl rfl) (.states ⟨_, id⟩ s₃))
      · -- when the children have been put in order, only states are set
        exact forall_mem_singleton.2 (.single (.states (fun _ _ => rfl) s₃))
    · exact List.pairwise_cons.2 ⟨fun e _ => .of_forall fun _ => trivial,
        pairwise_leaves_concat hpairwise fun e he => (hlinked e he).1⟩
  | searchNil => exact ⟨forall_mem_nil _, .nil⟩
  | searchSkip _ _ ih => exact ih hready trivial
  | @searchPass levels p id ids child pattern t t₁ t₂ events later edits hchild hresolve hrest ih
      ih' =>
    obtain ⟨hp, -⟩ : p < t.size ∧ True := hready
    have hp₁ : p < (t₁.setWorking p ((t.node p).working.splice edits)).size := by
      simpa using hp.trans_le (hresolve.frame ⟨hp, trivial⟩).size_le
    obtain ⟨hinner, hpairwise⟩ := ih ⟨hp, trivial⟩ (Grammar.mem_rules_of_searcher? hchild).1
    obtain ⟨hlater, hpairwise'⟩ := ih' ⟨hp₁, trivial⟩ trivial
    obtain ⟨hsteps, hseen⟩ := hrest.steps hp₁ trivial
    -- the events are about younger nodes, and the rules behind work at this node or at new ones
    have hpassed := leaves_of_pass ((t.node p).working.splice edits) hresolve hp hinner
    constructor
    · refine forall_mem_cons.2 ⟨trivial, forall_mem_append.2 ⟨fun e he => ?_, hlater⟩⟩
      exact leaves_of_steps (hpassed e he).1 (hpassed e he).2 hsteps
    · exact List.pairwise_cons.2 ⟨fun e _ => .of_forall fun _ => trivial,
        List.pairwise_append.2 ⟨hpairwise, hpairwise', sees_leaves hpassed hseen⟩⟩
  | resolveNil => exact ⟨forall_mem_nil _, .nil⟩
  | @resolveCons levels p child m found t t₁ t₂ t₃ replacement events later edits hnode hsubstitute
      hrest ih ih' =>
    obtain ⟨hp, -⟩ : p < t.size ∧ True := hready
    obtain ⟨hinner, hpairwise⟩ := ih (Task.ready_addMatch hp) trivial
    have hp₂ : p < t₂.size := lt_size_of_match hnode hp hsubstitute
    obtain ⟨hlater, hpairwise'⟩ := ih' ⟨hp₂, trivial⟩ htask
    obtain ⟨hsteps, hseen⟩ := hrest.steps hp₂ htask
    -- what comes behind the match happens at its parent, which is older, or at new nodes
    have hmatch := leaves_of_match hnode hp hinner hsubstitute
    rw [List.append_cons]
    constructor
    · refine forall_mem_append.2 ⟨fun e he => ?_, hlater⟩
      exact leaves_of_steps (hmatch e he).1 (hmatch e he).2 hsteps
    · exact List.pairwise_append.2
        ⟨pairwise_leaves_concat hpairwise hinner, hpairwise', sees_leaves hmatch hseen⟩

/-- The same holds up to where a part of a parse fails. -/
theorem Stops.leaves (h : Stops g levels task t events e) (hready : task.Ready t)
    (htask : task.OfGrammar g) :
    events.Pairwise fun e e' => e'.Sees fun v => Leaves g v.tree e := by
  induction h with
  | nodeCapture => exact List.pairwise_singleton _ _
  | @nodeSearch levels id rule t t₁ text events e hcapture _ ih =>
    obtain ⟨s₁, -, rfl⟩ := hcapture
    exact List.pairwise_cons.2 ⟨fun e _ => .of_forall fun _ => trivial,
      ih (Task.ready_setModified hready.1) trivial⟩
  | @nodeResolve levels id rule t t₁ t₂ text events message hcapture hsearch =>
    obtain ⟨s₁, -, rfl⟩ := hcapture
    have hid₁ : id < ((View.withStates ⟨t, id⟩ s₁).setModified id text).size := by
      simpa [Task.id] using hready.1
    obtain ⟨hinner, hpairwise⟩ := hsearch.leaves ⟨hid₁, trivial⟩ trivial
    have hlinked := leaves_linkChildren hsearch hid₁ hinner
    exact List.pairwise_cons.2 ⟨fun e _ => .of_forall fun _ => trivial,
      pairwise_leaves_concat hpairwise fun e he => (hlinked e he).1⟩
  | searchSkip _ _ ih => exact ih hready trivial
  | searchPass hchild _ ih =>
    exact List.pairwise_cons.2 ⟨fun e _ => .of_forall fun _ => trivial,
      ih ⟨hready.1, trivial⟩ (Grammar.mem_rules_of_searcher? hchild).1⟩
  | @searchLater levels p id ids child pattern t t₁ events later edits e hchild hresolve hrest ih =>
    obtain ⟨hp, -⟩ : p < t.size ∧ True := hready
    have hp₁ : p < (t₁.setWorking p ((t.node p).working.splice edits)).size := by
      simpa using hp.trans_le (hresolve.frame ⟨hp, trivial⟩).size_le
    obtain ⟨hinner, hpairwise⟩ :=
      hresolve.leaves ⟨hp, trivial⟩ (Grammar.mem_rules_of_searcher? hchild).1
    -- the rule that fails leaves the events of the rules before it as they are
    have hpassed := leaves_of_pass ((t.node p).working.splice edits) hresolve hp hinner
    exact List.pairwise_cons.2 ⟨fun e _ => .of_forall fun _ => trivial, List.pairwise_append.2
      ⟨hpairwise, ih ⟨hp₁, trivial⟩ trivial, sees_leaves hpassed (hrest.steps hp₁ trivial)⟩⟩
  | resolveLimit => exact .nil
  | resolveNode _ ih => exact ih (Task.ready_addMatch hready.1) trivial
  | resolveSubstitute hnode =>
    obtain ⟨hinner, hpairwise⟩ := hnode.leaves (Task.ready_addMatch hready.1) trivial
    exact pairwise_leaves_concat hpairwise hinner
  | @resolveLater levels p child m found t t₁ t₂ replacement events later e hnode hsubstitute hrest
      ih =>
    obtain ⟨hp, -⟩ : p < t.size ∧ True := hready
    obtain ⟨hinner, hpairwise⟩ := hnode.leaves (Task.ready_addMatch hp) trivial
    have hp₂ : p < t₂.size := lt_size_of_match hnode hp hsubstitute
    have hmatch := leaves_of_match hnode hp hinner hsubstitute
    rw [List.append_cons]
    exact List.pairwise_append.2 ⟨pairwise_leaves_concat hpairwise hinner, ih ⟨hp₂, trivial⟩ htask,
      sees_leaves hmatch (hrest.steps hp₂ htask)⟩

/-! ## Whole parses -/

/-- In a parse, whatever a hook sees comes of changes that are later than the events before it, and
so does the tree that is returned. -/
theorem leaves_of_history (g : Grammar) (rule : Rule) (input : Text) (seed : State) :
    ((history g rule input seed).2.Pairwise fun e e' => e'.Sees fun v => Leaves g v.tree e) ∧
      ∀ t, (history g rule input seed).1 = .ok t →
        ∀ e ∈ (history g rule input seed).2, Leaves g t e := by
  have hready : (Task.node root rule).Ready (startTree rule input seed) :=
    ⟨Nat.zero_lt_one, rfl⟩
  rcases h : history g rule input seed with ⟨e | t, events⟩
  · exact ⟨(stops_of_history h).leaves hready trivial, fun t ht => (nomatch ht)⟩
  · obtain ⟨hleaves, hpairwise⟩ := (runs_of_history h).leaves hready trivial
    refine ⟨hpairwise, fun t' ht => ?_⟩
    obtain rfl : t = t' := by simpa using ht
    exact hleaves

/-- A node is frozen from the time at which its replacement has been made. -/
theorem frozen_of_leaves {rule : Rule} {v : View} {text : Text}
    (hv : Sound g v.tree ∧ v.id < v.tree.size) (h : Leaves g t' (.call rule .substitute v))
    (hcall : rule.hooks.onSubstitute.Succeeds v text t) : t.Frozen Node.unlinked v.id t' := by
  have hlater : ReflTransGen (Later g Node.unlinked v.id t) t t' := h text t hcall
  obtain ⟨states, -, rfl⟩ := hcall
  exact frozen_of_later hlater ((Step.states v states).sound hv.1) (by simpa using hv.2)
    (fun _ _ h => h) fun _ _ h =>
      Node.children_eq_of_settled_eq (Node.settled_eq_of_unlinked_eq h)

/-- When rules search the text of a node, no node that was there before is changed but this one, and
of it the working text only, but for new nodes behind its children. Tokens keep their nodes. In a
parse this starts from trees for which it holds. So from the moment where the text is given that
replaces the match of a node, whatever hooks there are, this node and all below it stay as they are,
but for the links of the node to its neighbours. What the hook at the end of its resolution sees of
its texts and of its children is what is returned. -/
theorem frozen_of_history (g : Grammar) :
    (∀ (ω : Type) (watch : Watcher ω) (levels : Nat) (p : NodeId) (r : Rule) (t t' : Tree)
      (record record' : ω), p < t.size → Sound g t →
      (runChildren watch g (resolveMatch watch g levels) p r).outcome t record =
        (.ok ((), t'), record') → t.GrownBelow p t') ∧
    ∀ (rule : Rule) (input : Text) (seed : State),
      (∀ r stage v, .call r stage v ∈ (history g rule input seed).2 →
        v.id < v.tree.size ∧ Sound g v.tree ∧
          ∀ states text, Sound g ((v.withStates states).setModified v.id text)) ∧
      (∀ before r v after text t₁,
        (history g rule input seed).2 = before ++ .call r .substitute v :: after →
        r.hooks.onSubstitute.Succeeds v text t₁ →
        (∀ e ∈ after, e.Sees fun v' => t₁.Frozen Node.unlinked v.id v'.tree) ∧
          ∀ t, (history g rule input seed).1 = .ok t → t₁.Frozen Node.unlinked v.id t) ∧
      ∀ r v t, .call r .resolve v ∈ (history g rule input seed).2 →
        (history g rule input seed).1 = .ok t →
        v.tree.Frozen Node.settled v.id t ∧
          (t.node v.id).children = v.node.children ∧ (t.node v.id).working = v.node.working ∧
          (t.node v.id).modified = v.node.modified ∧
          ∀ c ∈ v.node.children, t.node c = v.tree.node c := by
  constructor
  · intro ω watch levels p r t t' record record' hp ht hrun
    obtain ⟨events, -, hres⟩ := behaves_runChildren (resolvesOn_resolveMatch levels) p r.children t
      record
    rw [runChildren] at hrun
    rw [hrun] at hres
    exact hres.grownBelow hp ht
  · intro rule input seed
    have hsound := sound_of_history g rule input seed
    obtain ⟨hpairwise, hleaves⟩ := leaves_of_history g rule input seed
    refine ⟨fun r stage v hmem => ?_, fun before r v after text t₁ hevents hcall => ?_,
      fun r v t hmem hok => ?_⟩
    · obtain ⟨hv, hlt⟩ := hsound _ hmem
      exact ⟨hlt, hv, fun states text =>
        (Step.modified _ _ _).sound ((Step.states v states).sound hv)⟩
    · rw [hevents] at hsound hleaves hpairwise
      have hmem : Event.call r .substitute v ∈ before ++ .call r .substitute v :: after :=
        List.mem_append_right _ List.mem_cons_self
      -- of two events, the hook of the later one sees what the earlier one has left
      obtain ⟨-, hpairwise, -⟩ := List.pairwise_append.1 hpairwise
      refine ⟨fun e he => ?_, fun t hok => frozen_of_leaves (hsound _ hmem) (hleaves t hok _ hmem)
        hcall⟩
      exact ((List.pairwise_cons.1 hpairwise).1 e he).mono fun v' hv' =>
        frozen_of_leaves (hsound _ hmem) hv' hcall
    · obtain ⟨hv, hlt⟩ := hsound _ hmem
      have hfrozen : v.tree.Frozen Node.settled v.id t :=
        frozen_of_later (hleaves t hok _ hmem) hv hlt
          (fun _ _ => Node.settled_eq_of_unlinked_eq) fun _ _ => Node.children_eq_of_settled_eq
      obtain ⟨-, hmodified, hworking, hchildren⟩ := Node.settled_eq_iff.1 hfrozen.mask_eq
      exact ⟨hfrozen, hchildren, hworking, hmodified, fun c hc =>
        hfrozen.node_eq c (.single (hv.linked.mem_children.1 hc))⟩

/-- A parse in which a match is found below the root: the search adds its node, and from the moment
where its token is given to the end the node stays as it is. -/
theorem frozen_of_history_ofWord :
    ∃ start grown before v after resolved t₁ t,
      start = startTree (Grammar.ofWord ['a', 'b'] .identity).root ['x', 'a', 'b', 'y'] .empty ∧
      Sound (.ofWord ['a', 'b'] .identity) start ∧
      (runChildren (fun _ record => record) (.ofWord ['a', 'b'] .identity)
        (resolveMatch (fun _ record => record) (.ofWord ['a', 'b'] .identity) maxDepth) root
        (Grammar.ofWord ['a', 'b'] .identity).root).outcome start () = (.ok ((), grown), ()) ∧
      (grown.node root).children = [1] ∧ start.GrownBelow root grown ∧
      history (.ofWord ['a', 'b'] .identity) (Grammar.ofWord ['a', 'b'] .identity).root
          ['x', 'a', 'b', 'y'] .empty =
        (.ok t, before ++ .call (Grammar.wordRule ['a', 'b'] .identity) .substitute v :: after) ∧
      v.id = 1 ∧ Hooks.identity.onSubstitute.Succeeds v (Token.mint ['w'] 1 1) t₁ ∧
      (∀ e ∈ after, e.Sees fun v' => t₁.Frozen Node.unlinked v.id v'.tree) ∧
      t₁.Frozen Node.unlinked v.id t ∧
      .call (Grammar.ofWord ['a', 'b'] .identity).root .resolve resolved ∈ after ∧
      (t.node root).children = resolved.node.children ∧ t.node 1 = resolved.tree.node 1 := by
  obtain ⟨hgrown, hfrozen⟩ := frozen_of_history (.ofWord ['a', 'b'] .identity)
  obtain ⟨-, hsubstitute, hresolve⟩ := hfrozen (Grammar.ofWord ['a', 'b'] .identity).root
    ['x', 'a', 'b', 'y'] .empty
  have hsound := sound_startTree (.ofWord ['a', 'b'] .identity)
    (Grammar.ofWord ['a', 'b'] .identity).root ['x', 'a', 'b', 'y'] .empty
  have hroot : root < (startTree (Grammar.ofWord ['a', 'b'] .identity).root
    ['x', 'a', 'b', 'y'] .empty).size := Nat.zero_lt_one
  have hsearch := hgrown Unit (fun _ record => record) maxDepth root
    (Grammar.ofWord ['a', 'b'] .identity).root _ _ () () hroot hsound rfl
  have hlater := hsubstitute [_, _, _, _] _ _ [_] _ _ rfl ⟨_, rfl, rfl⟩
  have hresolved := hresolve (Grammar.ofWord ['a', 'b'] .identity).root _ _
    (.tail _ (.tail _ (.tail _ (.tail _ (.tail _ (.head _)))))) rfl
  exact ⟨_, _, [_, _, _, _], _, [_], _, _, _, rfl, hsound, rfl, rfl, hsearch, rfl, rfl,
    ⟨_, rfl, rfl⟩, hlater.1, hlater.2 _ rfl, .head _, hresolved.2.1,
    hresolved.2.2.2.2 1 (.head _)⟩

end Engine

end Cascade
