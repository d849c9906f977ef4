import Cascade.Proofs.Engine.Adequacy
import Cascade.Proofs.Engine.Frame

/-!
# Hooks are called once for a node

The calls of a parse are told apart by the hook and the node. A part of a parse calls hooks for the
nodes that it adds, and only to resolve its own node for that one.

* `Runs.calls`: for which nodes a part of a parse calls hooks.
* `nodup_calls`, `eq_of_call?`: no hook is called twice for a node.
* `Runs.exists_rule`: all hooks that are called for a node are of one rule.
-/

namespace Cascade

/-- The hook that is called and the node it is called for, if the event is a call. -/
def Event.call? : Event → Option (Stage × NodeId)
  | call _ stage view => some (stage, view.id)
  | search _ _ _ _ => none

/-- The hook that is called, if the event is a call, is one of the rule that `f` gives for its
node. -/
def Event.IsOf (f : NodeId → Rule) : Event → Prop
  | call rule _ view => f view.id = rule
  | search _ _ _ _ => True

namespace Engine

open Cascade.Tree

variable {g : Grammar} {levels : Nat} {task : Task} {t t' : Tree} {events : List Event}
  {edits : List (Span × Text)}

/-- The calls among events, in order. -/
def calls (events : List Event) : List (Stage × NodeId) :=
  events.filterMap Event.call?

/-- Calls that a task may make on the way from `t` to `t'`. -/
def Task.MayCall (task : Task) (t t' : Tree) (call : Stage × NodeId) : Prop :=
  t.size ≤ call.2 ∧ call.2 < t'.size ∨
    (∃ rule, task = .node call.2 rule) ∧ call.1 ≠ .substitute

theorem mayCall_search {p : NodeId} {rules : List RuleId} {call : Stage × NodeId} :
    (Task.search p rules).MayCall t t' call ↔ t.size ≤ call.2 ∧ call.2 < t'.size := by
  simp [Task.MayCall]

theorem mayCall_resolve {p : NodeId} {child : Rule} {found : List Match}
    {call : Stage × NodeId} :
    (Task.resolve p child found).MayCall t t' call ↔ t.size ≤ call.2 ∧ call.2 < t'.size := by
  simp [Task.MayCall]

/-- A part of a parse calls no hook twice for a node, and only such as it may. -/
theorem Runs.calls (h : Runs g levels task t events edits t') (hready : task.Ready t) :
    (calls events).Nodup ∧ ∀ call ∈ calls events, task.MayCall t t' call := by
  induction h with
  | @node levels id rule t t₁ t₂ t₃ text events hcapture hsearch hresolve ih =>
    obtain ⟨s₁, -, rfl⟩ := hcapture
    obtain ⟨s₃, -, rfl⟩ := hresolve
    obtain ⟨hid, -⟩ : id < t.size ∧ (t.node id).children = [] := hready
    obtain ⟨hnodup, hmay⟩ := ih (Task.ready_setModified hid)
    -- all calls but the first and the last one are for nodes that are added in between
    have hnew (call) (hcall : call ∈ Engine.calls events) : t.size ≤ call.2 ∧ call.2 < t₂.size := by
      simpa using mayCall_search.1 (hmay call hcall)
    have hother (stage : Stage) : (stage, id) ∉ Engine.calls events :=
      fun hcall => absurd (hnew _ hcall).1 hid.not_ge
    have hcalls : Engine.calls (.call rule .capture ⟨t, id⟩ ::
        (events ++ [.call rule .resolve ⟨t₂.linkChildren id, id⟩])) =
          (.capture, id) :: (Engine.calls events ++ [(.resolve, id)]) := by
      simp [Engine.calls, Event.call?]
    rw [hcalls]
    constructor
    · rw [List.nodup_cons, List.mem_append, List.nodup_append]
      refine ⟨?_, hnodup, List.nodup_singleton _, ?_⟩
      · rintro (hcall | hcall)
        · exact hother _ hcall
        · simp at hcall
      · rintro call hcall _ hmem rfl
        rw [List.mem_singleton.1 hmem] at hcall
        exact hother _ hcall
    · intro call hcall
      simp only [List.mem_cons, List.mem_append, List.not_mem_nil, or_false] at hcall
      rcases hcall with rfl | hcall | rfl
      · exact .inr ⟨⟨rule, rfl⟩, by simp⟩
      · exact .inl (by simpa using hnew call hcall)
      · exact .inr ⟨⟨rule, rfl⟩, by simp⟩
  | searchNil => exact ⟨List.nodup_nil, by simp [Engine.calls]⟩
  | searchSkip _ _ ih =>
    obtain ⟨hnodup, hmay⟩ := ih hready
    exact ⟨hnodup, fun call hcall => mayCall_search.2 (mayCall_search.1 (hmay call hcall))⟩
  | @searchPass levels p id ids child pattern t t₁ t₂ events later edits _ hresolve hrest ih ih' =>
    obtain ⟨hp, -⟩ : p < t.size ∧ True := hready
    have hframe : Frame p Node.childless t t₁ := hresolve.frame ⟨hp, trivial⟩
    have hready' : (Task.search p ids).Ready (t₁.setWorking p ((t.node p).working.splice edits)) :=
      Task.ready_setWorking (hp.trans_le hframe.size_le)
    have hle : t₁.size ≤ t₂.size := by simpa using (hrest.frame hready').size_le
    obtain ⟨hnodup, hmay⟩ := ih ⟨hp, trivial⟩
    obtain ⟨hnodup', hmay'⟩ := ih' hready'
    simp only [mayCall_resolve, mayCall_search, size_setWorking] at hmay hmay' ⊢
    have hcalls : Engine.calls (.search p child pattern (t.node p).working :: (events ++ later)) =
        Engine.calls events ++ Engine.calls later := by
      simp [Engine.calls, List.filterMap_cons, Event.call?]
    rw [hcalls, List.nodup_append]
    refine ⟨⟨hnodup, hnodup', ?_⟩, fun call hcall => ?_⟩
    · -- later passes call hooks for nodes that are not there yet after this one
      rintro call hcall _ hcall' rfl
      exact absurd (hmay call hcall).2 (hmay' call hcall').1.not_gt
    · rcases List.mem_append.1 hcall with hcall | hcall
      · exact ⟨(hmay call hcall).1, (hmay call hcall).2.trans_le hle⟩
      · exact ⟨hframe.size_le.trans (hmay' call hcall).1, (hmay' call hcall).2⟩
  | resolveNil => exact ⟨List.nodup_nil, by simp [Engine.calls]⟩
  | @resolveCons levels p child m found t t₁ t₂ t₃ replacement events later edits hnode hsubstitute
      hrest ih ih' =>
    obtain ⟨s, -, rfl⟩ := hsubstitute
    obtain ⟨hp, -⟩ : p < t.size ∧ True := hready
    have hframe : Frame t.size Node.core (addMatch t p child m) t₁ :=
      hnode.frame (Task.ready_addMatch hp)
    have hsize : t.size < t₁.size := hframe.lt_size_of_addMatch
    have hready' : (Task.resolve p child found).Ready (View.withStates ⟨t₁, t.size⟩ s) :=
      Task.ready_withStates (hp.trans hsize)
    have hle : t₁.size ≤ t₃.size := by simpa using (hrest.frame hready').size_le
    obtain ⟨hnodup, hmay⟩ := ih (Task.ready_addMatch hp)
    obtain ⟨hnodup', hmay'⟩ := ih' hready'
    simp only [mayCall_resolve, View.size_withStates] at hmay' ⊢
    -- the node itself has been resolved without a call to substitute it
    have hold (call) (hcall : call ∈ Engine.calls events) :
        (t.size ≤ call.2 ∧ call.2 < t₁.size) ∧ call ≠ (.substitute, t.size) := by
      rcases hmay call hcall with ⟨hlt, hlt'⟩ | ⟨⟨rule, htask⟩, hstage⟩
      · rw [size_addMatch] at hlt
        exact ⟨⟨Nat.le_of_succ_le hlt, hlt'⟩, fun heq => Nat.not_succ_le_self _ (heq ▸ hlt)⟩
      · obtain ⟨hid, -⟩ : t.size = call.2 ∧ child = rule := by simpa using htask
        exact ⟨⟨hid.le, hid ▸ hsize⟩, fun heq => hstage (by rw [heq])⟩
    have hcalls : Engine.calls (events ++ .call child .substitute ⟨t₁, t.size⟩ :: later) =
        Engine.calls events ++ (.substitute, t.size) :: Engine.calls later := by
      simp [Engine.calls, Event.call?]
    rw [hcalls, List.nodup_append, List.nodup_cons]
    refine ⟨⟨hnodup, ⟨fun hcall => ?_, hnodup'⟩, ?_⟩, fun call hcall => ?_⟩
    · exact absurd hsize (hmay' _ hcall).1.not_gt
    · rintro call hcall _ hcall' rfl
      rcases List.mem_cons.1 hcall' with heq | hcall'
      · exact (hold call hcall).2 heq
      · exact absurd (hold call hcall).1.2 (hmay' call hcall').1.not_gt
    · simp only [List.mem_append, List.mem_cons] at hcall
      rcases hcall with hcall | rfl | hcall
      · exact ⟨(hold call hcall).1.1, (hold call hcall).1.2.trans_le hle⟩
      · exact ⟨le_rfl, hsize.trans_le hle⟩
      · exact ⟨hsize.le.trans (hmay' call hcall).1, (hmay' call hcall).2⟩

/-- No hook is called twice for a node in a parse that succeeds. -/
theorem nodup_calls {rule : Rule} {input : Text} {seed : State} {t : Tree} {events : List Event}
    (h : history g rule input seed = (.ok t, events)) : (Engine.calls events).Nodup :=
  ((runs_of_history h).calls ⟨Nat.zero_lt_one, rfl⟩).1

/-- A call is known by the hook and the node. -/
theorem eq_of_call? {e e' : Event} {call : Stage × NodeId} (hnodup : (Engine.calls events).Nodup)
    (he : e ∈ events) (he' : e' ∈ events) (hcall : e.call? = some call)
    (hcall' : e'.call? = some call) : e = e' := by
  have hpairwise := List.pairwise_filterMap.1 hnodup
  clear hnodup
  induction hpairwise with
  | nil => contradiction
  | cons hfirst _ ih =>
    rcases List.mem_cons.1 he with rfl | hrest
    · rcases List.mem_cons.1 he' with rfl | hrest'
      · rfl
      · exact absurd rfl (hfirst e' hrest' call hcall call hcall')
    · rcases List.mem_cons.1 he' with rfl | hrest'
      · exact absurd rfl (hfirst e hrest call hcall' call hcall)
      · exact ih hrest hrest'

/-! ## One rule for each node -/

theorem isOf_congr {f f' : NodeId → Rule} (h : ∀ e ∈ events, e.IsOf f)
    (heq : ∀ call ∈ Engine.calls events, f' call.2 = f call.2) : ∀ e ∈ events, e.IsOf f' := by
  intro e he
  cases e with
  | search => trivial
  | call rule stage v =>
    have hmem : (stage, v.id) ∈ Engine.calls events := List.mem_filterMap.2 ⟨_, he, rfl⟩
    exact (heq _ hmem).trans (h _ he)

/-- What comes behind may have other rules if it calls hooks for other nodes. -/
theorem exists_rule_append {f f' : NodeId → Rule} {later : List Event} {bound : NodeId}
    (h : ∀ e ∈ events, e.IsOf f) (h' : ∀ e ∈ later, e.IsOf f')
    (hlt : ∀ call ∈ Engine.calls events, call.2 < bound)
    (hle : ∀ call ∈ Engine.calls later, bound ≤ call.2) :
    ∃ f : NodeId → Rule, ∀ e ∈ events ++ later, e.IsOf f :=
  ⟨fun i => if i < bound then f i else f' i, List.forall_mem_append.2
    ⟨isOf_congr h fun call hcall => if_pos (hlt call hcall),
      isOf_congr h' fun call hcall => if_neg (hle call hcall).not_gt⟩⟩

theorem Runs.lt_size_of_mem_calls (h : Runs g levels task t events edits t')
    (hready : task.Ready t) : ∀ call ∈ Engine.calls events, call.2 < t'.size := by
  intro call hcall
  rcases (h.calls hready).2 call hcall with ⟨-, hlt⟩ | ⟨⟨rule, rfl⟩, -⟩
  · exact hlt
  · exact hready.1.trans_le (h.frame hready).size_le

/-- All hooks that a part of a parse calls for a node are of one rule. -/
theorem Runs.exists_rule (h : Runs g levels task t events edits t') (hready : task.Ready t) :
    ∃ f : NodeId → Rule, (∀ id rule, task = .node id rule → f id = rule) ∧
      ∀ e ∈ events, e.IsOf f := by
  induction h with
  | @node levels id rule t t₁ t₂ t₃ text events hcapture hsearch hresolve ih =>
    obtain ⟨s₁, -, rfl⟩ := hcapture
    obtain ⟨hid, -⟩ : id < t.size ∧ (t.node id).children = [] := hready
    have hready₁ : (Task.search id rule.children).Ready
        ((View.withStates ⟨t, id⟩ s₁).setModified id text) :=
      Task.ready_setModified hid
    obtain ⟨f, -, hf⟩ := ih hready₁
    have hself : Function.update f id rule id = rule := Function.update_self ..
    refine ⟨Function.update f id rule, by rintro _ _ ⟨rfl, rfl⟩; exact hself,
      List.forall_mem_cons.2 ⟨hself, List.forall_mem_append.2
        ⟨isOf_congr hf fun call hcall => ?_, List.forall_mem_singleton.2 hself⟩⟩⟩
    -- the hooks in between are called for new nodes
    have hnew := (mayCall_search.1 ((hsearch.calls hready₁).2 call hcall)).1
    exact Function.update_of_ne (hid.trans_le (by simpa using hnew)).ne' ..
  | searchNil => exact ⟨fun _ => g.root, by simp, List.forall_mem_nil _⟩
  | searchSkip _ _ ih =>
    obtain ⟨f, -, hf⟩ := ih hready
    exact ⟨f, by simp, hf⟩
  | @searchPass levels p id ids child pattern t t₁ t₂ events later edits _ hresolve hrest ih ih' =>
    obtain ⟨hp, -⟩ : p < t.size ∧ True := hready
    have hp₁ : p < t₁.size := hp.trans_le (hresolve.frame ⟨hp, trivial⟩).size_le
    have hready₁ : (Task.search p ids).Ready (t₁.setWorking p ((t.node p).working.splice edits)) :=
      Task.ready_setWorking hp₁
    obtain ⟨f, -, hf⟩ := ih ⟨hp, trivial⟩
    obtain ⟨f', -, hf'⟩ := ih' hready₁
    obtain ⟨f'', hf''⟩ := exists_rule_append hf hf' (hresolve.lt_size_of_mem_calls ⟨hp, trivial⟩)
      fun call hcall => by simpa using (mayCall_search.1 ((hrest.calls hready₁).2 call hcall)).1
    exact ⟨f'', by simp, List.forall_mem_cons.2 ⟨trivial, hf''⟩⟩
  | resolveNil => exact ⟨fun _ => g.root, by simp, List.forall_mem_nil _⟩
  | @resolveCons levels p child m found t t₁ t₂ t₃ replacement events later edits hnode hsubstitute
      hrest ih ih' =>
    obtain ⟨s, -, rfl⟩ := hsubstitute
    obtain ⟨hp, -⟩ : p < t.size ∧ True := hready
    have hready₀ : (Task.node t.size child).Ready (addMatch t p child m) := Task.ready_addMatch hp
    have hlt : t.size < t₁.size := (hnode.frame hready₀).lt_size_of_addMatch
    have hready₂ : (Task.resolve p child found).Ready (View.withStates ⟨t₁, t.size⟩ s) :=
      Task.ready_withStates (hp.trans hlt)
    obtain ⟨f, hself, hf⟩ := ih hready₀
    obtain ⟨f', -, hf'⟩ := ih' hready₂
    -- the rule of the node is the one whose hook replaces the match
    have hsubstituted : ∀ e ∈ events ++ [.call child .substitute ⟨t₁, t.size⟩], e.IsOf f :=
      List.forall_mem_append.2 ⟨hf, List.forall_mem_singleton.2 (hself _ _ rfl)⟩
    have hold : ∀ call ∈ Engine.calls (events ++ [.call child .substitute ⟨t₁, t.size⟩]),
        call.2 < t₁.size := by
      rw [Engine.calls, List.filterMap_append]
      exact List.forall_mem_append.2 ⟨hnode.lt_size_of_mem_calls hready₀,
        List.forall_mem_singleton.2 hlt⟩
    obtain ⟨f'', hf''⟩ := exists_rule_append hsubstituted hf' hold fun call hcall => by
      simpa using (mayCall_resolve.1 ((hrest.calls hready₂).2 call hcall)).1
    rw [List.append_cons]
    exact ⟨f'', by simp, hf''⟩

end Engine

end Cascade
