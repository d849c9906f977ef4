import Cascade.Proofs.Engine.Adequacy
import Cascade.Proofs.Engine.Frame
import Cascade.Proofs.Grammar.Scan
import Cascade.Proofs.Tree.Arena

/-!
# Every tree of a parse is well formed

The invariant of trees is kept by each part of a parse, and by the parts of a parse that fails up to
the failure. Nodes are added below open nodes only, which are the nodes that tasks work on.

* `Runs.arena`, `Stops.arena`: what one part of a parse keeps.
* `wellFormed_of_history`: the trees that a parse returns, and all trees that hooks see, are well
  formed.
-/

namespace Cascade.Engine

open List (forall_mem_append forall_mem_cons forall_mem_nil forall_mem_singleton mem_cons_of_mem
  mem_cons_self)
open Cascade.Tree

variable {g : Grammar} {levels : Nat} {task : Task} {t t' : Tree} {events : List Event}
  {edits : List (Span × Text)} {e : ParseError} {p : NodeId} {child : Rule} {m : Match}

/-- The matches that a task is to resolve have spans as long as their texts. -/
def Task.Fits : Task → Prop
  | resolve _ _ found => ∀ m ∈ found, m.span.stop = m.span.start + m.captures.whole.byteLength
  | _ => True

/-- The tree that a hook sees, if the event is a call, satisfies the invariant. -/
def SeesArena : Event → Prop
  | .call _ _ view => Arena view.tree
  | .search _ _ _ _ => True

/-- A hook changes states only. -/
theorem sameShape_of_succeeds {α : Type} {hook : HookM α} {v : View} {result : α}
    (h : hook.Succeeds v result t') : SameShape v.tree t' := by
  obtain ⟨states, -, rfl⟩ := h
  exact sameShape_withStates v states

theorem sameShape_of_captured {hook : HookM Text} {id : NodeId} {text : Text}
    (h : hook.Succeeds ⟨t, id⟩ text t') : SameShape t (t'.setModified id text) :=
  (sameShape_of_succeeds h).trans (sameShape_setModified t' id text)

/-- The matches of a pattern of a faithful grammar fit. -/
theorem fits_scan (hg : g.Faithful) {own : State} {id : RuleId} {pattern : Pattern} {text : Text}
    (h : g.searcher? own id = some (child, pattern)) :
    (Task.resolve p child (pattern.scan text)).Fits := by
  obtain ⟨hchild, hpattern⟩ := Grammar.mem_rules_of_searcher? h
  exact fun m hm => (hg child hchild pattern hpattern text m hm).stop_eq

/-- When the node of a match has been resolved, its parent is open again. -/
theorem isOpen_of_runs
    (h : Runs g levels (.node t.size child) (addMatch t p child m) events edits t')
    (hp : p < t.size) (hopen : t'.IsOpen t.size) : t'.IsOpen p := by
  have hframe : Frame t.size Node.core (addMatch t p child m) t' := h.frame (Task.ready_addMatch hp)
  -- the link to the parent was made when the node was added, and nothing has changed it since
  have hparent : t'.IsParent p t.size := by
    have hcore := congrArg Node.parent? hframe.mask_eq
    have hadded : (addMatch t p child m).IsParent p t.size :=
      (isParent_addMatch hp).2 (.inr ⟨rfl, rfl⟩)
    exact hcore.trans hadded
  exact ⟨hp.trans hopen.1, .head hparent hopen.2⟩

/-- A part of a parse that succeeds keeps the invariant, and its node open. -/
theorem Runs.arena (h : Runs g levels task t events edits t') (hg : g.Faithful)
    (hready : task.Ready t) (hfits : task.Fits) (ha : Arena t) (hopen : t.IsOpen task.id) :
    Arena t' ∧ t'.IsOpen task.id ∧ ∀ e ∈ events, SeesArena e := by
  -- the node of the task stays open all the time, which is what adding a node below it asks for
  induction h with
  | @node levels id rule t t₁ t₂ t₃ text events hcapture hsearch hresolve ih =>
    have hstart : SameShape t (t₁.setModified id text) := sameShape_of_captured hcapture
    obtain ⟨ha₂, hopen₂, hevents⟩ := ih
      ⟨hstart.size_eq.symm ▸ hopen.1, trivial⟩ trivial (ha.of_sameShape hstart)
      (isOpen_of_sameShape hopen hstart)
    -- ordering the children is the only step behind the search that does more than change states
    have hlink : SameShape t₂ (t₂.linkChildren id) := ha₂.linked.sameShape_linkChildren hopen₂.1
    have hend : SameShape t₂ t₃ := hlink.trans (sameShape_of_succeeds hresolve)
    refine ⟨ha₂.of_sameShape hend, isOpen_of_sameShape hopen₂ hend, ?_⟩
    exact forall_mem_cons.2 ⟨ha, forall_mem_append.2 ⟨hevents,
      forall_mem_singleton.2 (ha₂.of_sameShape hlink)⟩⟩
  | searchNil => exact ⟨ha, hopen, forall_mem_nil _⟩
  | searchSkip _ _ ih => exact ih hready trivial ha hopen
  | @searchPass levels p id ids child pattern t t₁ t₂ events later edits hchild _ _ ih ih' =>
    obtain ⟨ha₁, hopen₁, hevents⟩ := ih ⟨hopen.1, trivial⟩ (fits_scan hg hchild) ha hopen
    have hset := sameShape_setWorking t₁ p ((t.node p).working.splice edits)
    obtain ⟨ha₂, hopen₂, hlater⟩ := ih' ⟨hset.size_eq.symm ▸ hopen₁.1, trivial⟩ trivial
      (ha₁.of_sameShape hset) (isOpen_of_sameShape hopen₁ hset)
    exact ⟨ha₂, hopen₂, forall_mem_cons.2 ⟨trivial, forall_mem_append.2 ⟨hevents, hlater⟩⟩⟩
  | resolveNil => exact ⟨ha, hopen, forall_mem_nil _⟩
  | @resolveCons levels p child m found t t₁ t₂ t₃ replacement events later edits hnode hsubstitute
      _ ih ih' =>
    have hadded : Arena (addMatch t p child m) := ha.addMatch hopen (hfits m mem_cons_self)
    obtain ⟨ha₁, hopen₁, hevents⟩ :=
      ih (Task.ready_addMatch hopen.1) trivial hadded isOpen_addMatch
    have hshape : SameShape t₁ t₂ := sameShape_of_succeeds hsubstitute
    -- the next match is added below the parent, so the parent must be open again
    have hopen₂ : t₂.IsOpen p :=
      isOpen_of_sameShape (isOpen_of_runs hnode hopen.1 hopen₁) hshape
    obtain ⟨ha₃, hopen₃, hlater⟩ := ih' ⟨hopen₂.1, trivial⟩
      (fun m hm => hfits m (mem_cons_of_mem _ hm)) (ha₁.of_sameShape hshape) hopen₂
    exact ⟨ha₃, hopen₃, forall_mem_append.2 ⟨hevents, forall_mem_cons.2 ⟨ha₁, hlater⟩⟩⟩

/-- Up to where a part of a parse fails, hooks see trees that satisfy the invariant. -/
theorem Stops.arena (h : Stops g levels task t events e) (hg : g.Faithful)
    (hready : task.Ready t) (hfits : task.Fits) (ha : Arena t) (hopen : t.IsOpen task.id) :
    ∀ e ∈ events, SeesArena e := by
  -- what comes before the failure is a derivation of `Runs`, so that only the last part is new
  induction h with
  | nodeCapture => exact forall_mem_singleton.2 ha
  | nodeSearch hcapture _ ih =>
    have hstart := sameShape_of_captured hcapture
    have hopen₁ := isOpen_of_sameShape hopen hstart
    exact forall_mem_cons.2
      ⟨ha, ih ⟨hopen₁.1, trivial⟩ trivial (ha.of_sameShape hstart) hopen₁⟩
  | nodeResolve hcapture hsearch =>
    have hstart := sameShape_of_captured hcapture
    have hopen₁ := isOpen_of_sameShape hopen hstart
    obtain ⟨ha₂, hopen₂, hevents⟩ :=
      hsearch.arena hg ⟨hopen₁.1, trivial⟩ trivial (ha.of_sameShape hstart) hopen₁
    have hlink := ha₂.linked.sameShape_linkChildren hopen₂.1
    exact forall_mem_cons.2 ⟨ha, forall_mem_append.2 ⟨hevents,
      forall_mem_singleton.2 (ha₂.of_sameShape hlink)⟩⟩
  | searchSkip _ _ ih => exact ih hready trivial ha hopen
  | searchPass hchild _ ih =>
    exact forall_mem_cons.2
      ⟨trivial, ih ⟨hopen.1, trivial⟩ (fits_scan hg hchild) ha hopen⟩
  | @searchLater levels p id ids child pattern t t₁ events later edits e hchild hresolve _ ih =>
    obtain ⟨ha₁, hopen₁, hevents⟩ :=
      hresolve.arena hg ⟨hopen.1, trivial⟩ (fits_scan hg hchild) ha hopen
    have hset := sameShape_setWorking t₁ p ((t.node p).working.splice edits)
    have hopen₂ := isOpen_of_sameShape hopen₁ hset
    have hlater := ih ⟨hopen₂.1, trivial⟩ trivial (ha₁.of_sameShape hset) hopen₂
    exact forall_mem_cons.2 ⟨trivial, forall_mem_append.2 ⟨hevents, hlater⟩⟩
  | resolveLimit => exact forall_mem_nil _
  | resolveNode _ ih =>
    exact ih (Task.ready_addMatch hopen.1) trivial (ha.addMatch hopen (hfits _ mem_cons_self))
      isOpen_addMatch
  | resolveSubstitute hnode =>
    obtain ⟨ha₁, -, hevents⟩ := hnode.arena hg (Task.ready_addMatch hopen.1) trivial
      (ha.addMatch hopen (hfits _ mem_cons_self)) isOpen_addMatch
    exact forall_mem_append.2 ⟨hevents, forall_mem_singleton.2 ha₁⟩
  | resolveLater hnode hsubstitute _ ih =>
    obtain ⟨ha₁, hopen₁, hevents⟩ := hnode.arena hg (Task.ready_addMatch hopen.1) trivial
      (ha.addMatch hopen (hfits _ mem_cons_self)) isOpen_addMatch
    have hshape := sameShape_of_succeeds hsubstitute
    have hopen₂ := isOpen_of_sameShape (isOpen_of_runs hnode hopen.1 hopen₁) hshape
    have hlater := ih ⟨hopen₂.1, trivial⟩ (fun m hm => hfits m (mem_cons_of_mem _ hm))
      (ha₁.of_sameShape hshape) hopen₂
    exact forall_mem_append.2 ⟨hevents, forall_mem_cons.2 ⟨ha₁, hlater⟩⟩

theorem ready_startTree (rule : Rule) (input : Text) (seed : State) :
    (Task.node root rule).Ready (startTree rule input seed) :=
  ⟨Nat.zero_lt_one, rfl⟩

theorem isOpen_startTree (rule : Rule) (input : Text) (seed : State) :
    (startTree rule input seed).IsOpen root :=
  ⟨Nat.zero_lt_one, .refl⟩

/-- The tree that a parse returns is well formed, and so are all trees that hooks see in it, whether
it succeeds or fails, and whatever states a hook has set so far. -/
theorem wellFormed_of_history (hg : g.Faithful) (rule : Rule) (input : Text) (seed : State) :
    (∀ t, (history g rule input seed).1 = .ok t → t.WellFormed) ∧
      ∀ r stage v, .call r stage v ∈ (history g rule input seed).2 →
        v.tree.WellFormed ∧ ∀ states, (v.withStates states).WellFormed := by
  have hready := ready_startTree rule input seed
  have ha := arena_startTree rule input seed
  have hopen := isOpen_startTree rule input seed
  -- the invariant says all that is needed of a returned tree and of a tree that is seen
  have hsee : (∀ t, (history g rule input seed).1 = .ok t → Arena t) ∧
      ∀ e ∈ (history g rule input seed).2, SeesArena e := by
    rcases h : history g rule input seed with ⟨e | t, events⟩
    · exact ⟨fun t ht => (nomatch ht), (stops_of_history h).arena hg hready trivial ha hopen⟩
    · obtain ⟨hat, -, hevents⟩ := (runs_of_history h).arena hg hready trivial ha hopen
      refine ⟨fun t' ht => ?_, hevents⟩
      obtain rfl : t = t' := by simpa using ht
      exact hat
  refine ⟨fun t ht => (hsee.1 t ht).wellFormed, fun r stage v hv => ?_⟩
  have hview : Arena v.tree := hsee.2 _ hv
  exact ⟨hview.wellFormed,
    fun states => (hview.of_sameShape (sameShape_withStates v states)).wellFormed⟩

/-- The tree of a parse that finds one match is well formed. -/
theorem wellFormed_of_history_ofWord :
    (Grammar.ofWord ['a', 'b'] .identity).Faithful ∧
      ∃ t, (history (.ofWord ['a', 'b'] .identity) (Grammar.ofWord ['a', 'b'] .identity).root
        ['x', 'a', 'b', 'y'] .empty).1 = .ok t ∧ t.size = 2 ∧ t.WellFormed := by
  have hfaithful := Grammar.ofWord_faithful ['a', 'b'] .identity
  have hsize : (history (.ofWord ['a', 'b'] .identity)
      (Grammar.ofWord ['a', 'b'] .identity).root ['x', 'a', 'b', 'y'] .empty).1.map Tree.size =
        .ok 2 := by rfl
  refine ⟨hfaithful, ?_⟩
  have hwell := (wellFormed_of_history hfaithful (Grammar.ofWord ['a', 'b'] .identity).root
    ['x', 'a', 'b', 'y'] .empty).1
  revert hsize hwell
  generalize (history _ _ _ _).1 = result
  intro hsize hwell
  cases result with
  | error e => contradiction
  | ok t => exact ⟨t, rfl, Except.ok.inj hsize, hwell t rfl⟩

end Cascade.Engine
