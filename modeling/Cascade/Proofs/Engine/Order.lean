import Cascade.Proofs.Engine.Arena
import Cascade.Proofs.Tree.Trace

/-!
# A parse calls hooks in the order of its tree

At any time of a parse the trace of its tree tells which hooks are called for the nodes that are
there: some of them have been called, in this order, and the others are pending. A node that is
added has its turn before all that is pending, so that what has been called is always a prefix of
the trace, and in the end all of it.

* `Awaits`: what has been called and what is pending.
* `Runs.follows`, `Stops.follows`: each call is the next one in the trace of the tree at that time.
* `Runs.returns`, `Stops.ends`: the first hook that fails ends the parse.
* `trace_of_history`: the calls of a parse.
-/

namespace Cascade

/-- The call that an event is, if it is one. -/
def Event.hookCall? : Event → Option HookCall
  | call rule stage view => some ⟨rule.ref, stage, view.id⟩
  | search _ _ _ _ => none

/-- The hook that is called, if the event is a call, fails with a message. -/
def Event.Fails (message : Text) : Event → Prop
  | call rule .capture view => rule.hooks.onCapture.Fails view message
  | call rule .substitute view => rule.hooks.onSubstitute.Fails view message
  | call rule .resolve view => rule.hooks.onResolve.Fails view message
  | search _ _ _ _ => False

/-- The hook that is called, if the event is a call, does not fail. -/
def Event.Returns (e : Event) : Prop :=
  ∀ message, ¬ e.Fails message

/-- A hook that succeeds does not fail. -/
theorem HookM.Succeeds.not_fails {α : Type} {hook : HookM α} {v : View} {result : α} {t : Tree}
    (h : hook.Succeeds v result t) (message : Text) : ¬ hook.Fails v message := by
  intro hfails
  obtain ⟨states, hrun, -⟩ := h
  exact nomatch hrun.symm.trans hfails

namespace Engine

open List (forall_mem_append forall_mem_cons forall_mem_nil forall_mem_singleton)
open Relation (ReflTransGen TransGen)
open Cascade.Tree

variable {g : Grammar} {levels : Nat} {task : Task} {t t' : Tree} {events later : List Event}
  {edits : List (Span × Text)} {e : ParseError} {p n i : NodeId} {child : Rule} {m : Match}
  {done pending rest : List HookCall} {c : HookCall}

/-- The hooks that are called, in order. -/
def hookCalls (events : List Event) : List HookCall :=
  events.filterMap Event.hookCall?

@[simp]
theorem hookCalls_nil : hookCalls [] = [] := rfl

@[simp]
theorem hookCalls_call (rule : Rule) (stage : Stage) (v : View) (events : List Event) :
    hookCalls (.call rule stage v :: events) = ⟨rule.ref, stage, v.id⟩ :: hookCalls events := rfl

@[simp]
theorem hookCalls_search (p : NodeId) (child : Rule) (pattern : Pattern) (text : Text)
    (events : List Event) : hookCalls (.search p child pattern text :: events) = hookCalls events :=
  rfl

@[simp]
theorem hookCalls_append (events later : List Event) :
    hookCalls (events ++ later) = hookCalls events ++ hookCalls later :=
  List.filterMap_append

/-! ## What is pending -/

/-- Of the hooks that are called for the nodes of a tree, some have been called, and the others are
pending. -/
structure Awaits (t : Tree) (done pending : List HookCall) : Prop where
  linked : t.Linked
  root_lt : root < t.size
  /-- All nodes lie below the root. -/
  below_root : ∀ i < t.size, ReflTransGen t.IsParent root i
  trace_eq : t.trace root = done ++ pending

namespace Awaits

/-- At the start, the root is still to be captured and to be resolved. -/
theorem startTree (rule : Rule) (input : Text) (seed : State) :
    Awaits (startTree rule input seed) []
      [⟨rule.ref, .capture, root⟩, ⟨rule.ref, .resolve, root⟩] := by
  refine ⟨linked_startTree .., Nat.zero_lt_one, fun i hi => ?_, ?_⟩
  · obtain rfl : i = root := Nat.lt_one_iff.1 hi
    exact .refl
  · have hnone : (Engine.startTree rule input seed).offspring root = [] := rfl
    rw [Tree.trace_eq, hnone]
    rfl

/-- What is pending does not depend on what keeps the shape of the tree. -/
theorem of_sameShape (h : Awaits t done pending) (hs : SameShape t t') :
    Awaits t' done pending where
  linked := h.linked.of_sameShape hs
  root_lt := hs.size_eq ▸ h.root_lt
  below_root i hi := hs.isParent_eq ▸ h.below_root i (hs.size_eq ▸ hi)
  trace_eq := (trace_of_sameShape hs root).trans h.trace_eq

/-- What is pending is pending for nodes that are there. -/
theorem lt_size (h : Awaits t done (c :: pending)) : c.node < t.size :=
  node_lt_size_of_mem_trace h.root_lt (by simp [h.trace_eq])

/-- What is called is no longer pending. -/
theorem call (h : Awaits t done (c :: pending)) : Awaits t (done ++ [c]) pending :=
  { h with trace_eq := by simp [h.trace_eq] }

/-- What is called comes next in the trace. -/
theorem isPrefix (h : Awaits t done (c :: pending)) : done ++ [c] <+: t.trace root :=
  ⟨pending, by simp [h.trace_eq]⟩

/-- A node that is added has its turn before its parent is resolved, which is what comes next. -/
theorem addMatch {r : RuleRef} (h : Awaits t done (⟨r, .resolve, p⟩ :: pending)) :
    Awaits (Engine.addMatch t p child m) done
      (newCalls child t.size ++ ⟨r, .resolve, p⟩ :: pending) where
  linked := h.linked.addMatch h.lt_size
  root_lt := h.root_lt.trans (by simp)
  below_root i hi := by
    have hmono {i : NodeId} (hi : ReflTransGen t.IsParent root i) :
        ReflTransGen (Engine.addMatch t p child m).IsParent root i :=
      ReflTransGen.mono (fun _ _ hq => (isParent_addMatch h.lt_size).2 (.inl hq)) _ _ hi
    rw [size_addMatch, Nat.lt_succ_iff_lt_or_eq] at hi
    rcases hi with hi | rfl
    · exact hmono (h.below_root i hi)
    · exact (hmono (h.below_root p h.lt_size)).tail
        ((isParent_addMatch h.lt_size).2 (.inr ⟨rfl, rfl⟩))
  trace_eq := h.linked.trace_addMatch h.lt_size h.trace_eq

end Awaits

/-- What is pending when a task starts, `rest` being what is pending when it has been done. A node
is to be captured and to be resolved. All else happens before the node of the task is resolved. -/
def Task.Owes (rest pending : List HookCall) : Task → Prop
  | node id rule => pending = ⟨rule.ref, .capture, id⟩ :: ⟨rule.ref, .resolve, id⟩ :: rest
  | search p _ | resolve p _ _ => pending = rest ∧ ∃ r later, rest = ⟨r, .resolve, p⟩ :: later

/-- Each call is the next one in the trace of the tree that its hook sees, `done` being the calls
that were made before. -/
def Follows : List HookCall → List Event → Prop
  | _, [] => True
  | done, .search _ _ _ _ :: events => Follows done events
  | done, .call rule stage v :: events =>
    done ++ [⟨rule.ref, stage, v.id⟩] <+: v.tree.trace root ∧
      Follows (done ++ [⟨rule.ref, stage, v.id⟩]) events

/-- Calls come in order if the first of them do, and the others after these. -/
theorem follows_append :
    Follows done (events ++ later) ↔
      Follows done events ∧ Follows (done ++ hookCalls events) later := by
  induction events generalizing done with
  | nil => simp [Follows]
  | cons e events ih => cases e <;> simp [Follows, ih, and_assoc]

/-- A call comes in order behind others if it is the next one in the trace that its hook sees. -/
theorem follows_concat {rule : Rule} {stage : Stage} {v : View} :
    Follows done (events ++ [.call rule stage v]) ↔
      Follows done events ∧
        done ++ hookCalls events ++ [⟨rule.ref, stage, v.id⟩] <+: v.tree.trace root := by
  simp [follows_append, Follows]

/-- The calls of a part of a parse come next in the trace, and when it has been done what it owes is
no longer pending. -/
theorem Runs.follows (h : Runs g levels task t events edits t') (ha : Awaits t done pending)
    (howes : task.Owes rest pending) :
    Awaits t' (done ++ hookCalls events) rest ∧ Follows done events := by
  induction h generalizing done pending rest with
  | @node levels id rule t t₁ t₂ t₃ text events hcapture _ hresolve ih =>
    obtain rfl : pending = _ := howes
    have hstart := ha.call.of_sameShape (sameShape_of_captured hcapture)
    obtain ⟨ha₂, hfollows⟩ := ih hstart ⟨rfl, _, _, rfl⟩
    have hlinked := ha₂.of_sameShape (ha₂.linked.sameShape_linkChildren ha₂.lt_size)
    refine ⟨?_, ha.isPrefix, follows_concat.2 ⟨hfollows, hlinked.isPrefix⟩⟩
    simpa using hlinked.call.of_sameShape (sameShape_of_succeeds hresolve)
  | searchNil =>
    obtain ⟨rfl, -⟩ := howes
    exact ⟨by simpa using ha, trivial⟩
  | searchSkip _ _ ih => exact ih ha howes
  | searchPass _ _ _ ih ih' =>
    obtain ⟨rfl, hnext⟩ := howes
    obtain ⟨ha₁, hfollows⟩ := ih ha ⟨rfl, hnext⟩
    obtain ⟨ha₂, hlater⟩ := ih' (ha₁.of_sameShape (sameShape_setWorking ..)) ⟨rfl, hnext⟩
    exact ⟨by simpa using ha₂, follows_append.2 ⟨hfollows, hlater⟩⟩
  | resolveNil =>
    obtain ⟨rfl, -⟩ := howes
    exact ⟨by simpa using ha, trivial⟩
  | @resolveCons levels p child m found t t₁ t₂ t₃ replacement events later edits _ hsubstitute _ ih
      ih' =>
    obtain ⟨rfl, r, rest, rfl⟩ := howes
    -- the new node is resolved and replaced before anything that was pending
    obtain ⟨ha₁, hfollows⟩ := ih ha.addMatch rfl
    have hcalled := ha₁.call.of_sameShape (sameShape_of_succeeds hsubstitute)
    obtain ⟨ha₃, hlater⟩ := ih' hcalled ⟨rfl, r, rest, rfl⟩
    refine ⟨by simpa using ha₃, ?_⟩
    rw [List.append_cons]
    exact follows_append.2 ⟨follows_concat.2 ⟨hfollows, ha₁.isPrefix⟩, by simpa using hlater⟩

/-- Up to where a part of a parse fails, the calls come next in the trace. -/
theorem Stops.follows (h : Stops g levels task t events e) (ha : Awaits t done pending)
    (howes : task.Owes rest pending) : Follows done events := by
  induction h generalizing done pending rest with
  | nodeCapture =>
    obtain rfl : pending = _ := howes
    exact ⟨ha.isPrefix, trivial⟩
  | nodeSearch hcapture _ ih =>
    obtain rfl : pending = _ := howes
    have hstart := ha.call.of_sameShape (sameShape_of_captured hcapture)
    exact ⟨ha.isPrefix, ih hstart ⟨rfl, _, _, rfl⟩⟩
  | nodeResolve hcapture hsearch =>
    obtain rfl : pending = _ := howes
    have hstart := ha.call.of_sameShape (sameShape_of_captured hcapture)
    obtain ⟨ha₂, hfollows⟩ := hsearch.follows hstart ⟨rfl, _, _, rfl⟩
    have hlinked := ha₂.of_sameShape (ha₂.linked.sameShape_linkChildren ha₂.lt_size)
    exact ⟨ha.isPrefix, follows_concat.2 ⟨hfollows, hlinked.isPrefix⟩⟩
  | searchSkip _ _ ih => exact ih ha howes
  | searchPass _ _ ih => exact ih ha howes
  | searchLater _ hresolve _ ih =>
    obtain ⟨rfl, hnext⟩ := howes
    obtain ⟨ha₁, hfollows⟩ := hresolve.follows ha ⟨rfl, hnext⟩
    exact follows_append.2
      ⟨hfollows, ih (ha₁.of_sameShape (sameShape_setWorking ..)) ⟨rfl, hnext⟩⟩
  | resolveLimit => trivial
  | resolveNode _ ih =>
    obtain ⟨rfl, r, rest, rfl⟩ := howes
    exact ih ha.addMatch rfl
  | resolveSubstitute hnode =>
    obtain ⟨rfl, r, rest, rfl⟩ := howes
    obtain ⟨ha₁, hfollows⟩ := hnode.follows ha.addMatch rfl
    exact follows_concat.2 ⟨hfollows, ha₁.isPrefix⟩
  | resolveLater hnode hsubstitute _ ih =>
    obtain ⟨rfl, r, rest, rfl⟩ := howes
    obtain ⟨ha₁, hfollows⟩ := hnode.follows ha.addMatch rfl
    have hcalled := ha₁.call.of_sameShape (sameShape_of_succeeds hsubstitute)
    rw [List.append_cons]
    exact follows_append.2 ⟨follows_concat.2 ⟨hfollows, ha₁.isPrefix⟩,
      by simpa using ih hcalled ⟨rfl, r, rest, rfl⟩⟩

/-! ## The first hook that fails -/

/-- In a part of a parse that succeeds, no hook fails. -/
theorem Runs.returns (h : Runs g levels task t events edits t') : ∀ e ∈ events, e.Returns := by
  induction h with
  | node hcapture _ hresolve ih =>
    exact forall_mem_cons.2 ⟨hcapture.not_fails, forall_mem_append.2
      ⟨ih, forall_mem_singleton.2 hresolve.not_fails⟩⟩
  | searchNil => exact forall_mem_nil _
  | searchSkip _ _ ih => exact ih
  | searchPass _ _ _ ih ih' =>
    exact forall_mem_cons.2 ⟨fun _ => id, forall_mem_append.2 ⟨ih, ih'⟩⟩
  | resolveNil => exact forall_mem_nil _
  | resolveCons _ hsubstitute _ ih ih' =>
    exact forall_mem_append.2 ⟨ih, forall_mem_cons.2 ⟨hsubstitute.not_fails, ih'⟩⟩

/-- How the events of a parse lead to its failure: the hook that is called last fails and no other
does, or no hook fails and a match is nested too deep. -/
inductive Ends : List Event → ParseError → Prop where
  | hook {before : List Event} {r : Rule} {stage : Stage} {v : View} {message : Text}
      (hbefore : ∀ e ∈ before, e.Returns) (hfails : (Event.call r stage v).Fails message) :
      Ends (before ++ [.call r stage v]) (.hook r.name stage message)
  | limit {events : List Event} {name : Text} (hevents : ∀ e ∈ events, e.Returns) :
      Ends events (.recursionLimit name maxDepth)

/-- Events without a failure may come before. -/
theorem Ends.append (h : Ends later e) (hevents : ∀ e ∈ events, e.Returns) :
    Ends (events ++ later) e := by
  cases h with
  | hook hbefore hfails =>
    rw [← List.append_assoc]
    exact .hook (forall_mem_append.2 ⟨hevents, hbefore⟩) hfails
  | limit hlater => exact .limit (forall_mem_append.2 ⟨hevents, hlater⟩)

theorem Ends.cons {event : Event} (h : Ends events e) (hevent : event.Returns) :
    Ends (event :: events) e :=
  h.append (forall_mem_singleton.2 hevent)

/-- A part of a parse fails where the first hook fails, or where a match is nested too deep. -/
theorem Stops.ends (h : Stops g levels task t events e) : Ends events e := by
  induction h with
  | @nodeCapture levels id rule t message hcapture =>
    have hends : Ends ([] ++ [.call rule .capture ⟨t, id⟩]) (.hook rule.name .capture message) :=
      .hook (forall_mem_nil _) hcapture
    exact hends
  | nodeSearch hcapture _ ih => exact ih.cons hcapture.not_fails
  | @nodeResolve levels id rule t t₁ t₂ text events message hcapture hsearch hresolve =>
    have hfails : (Event.call rule .resolve ⟨t₂.linkChildren id, id⟩).Fails message := hresolve
    exact (Ends.hook hsearch.returns hfails).cons hcapture.not_fails
  | searchSkip _ _ ih => exact ih
  | searchPass _ _ ih => exact ih.cons fun _ => id
  | searchLater _ hresolve _ ih => exact (ih.append hresolve.returns).cons fun _ => id
  | resolveLimit => exact .limit (forall_mem_nil _)
  | resolveNode _ ih => exact ih
  | @resolveSubstitute levels p child m found t t₁ events message hnode hsubstitute =>
    have hfails : (Event.call child .substitute ⟨t₁, t.size⟩).Fails message := hsubstitute
    exact .hook hnode.returns hfails
  | @resolveLater levels p child m found t t₁ t₂ replacement events later e hnode hsubstitute _
      ih =>
    have hreturns : (Event.call child .substitute ⟨t₁, t.size⟩).Returns := hsubstitute.not_fails
    exact (ih.cons hreturns).append hnode.returns

/-- A hook fails with one message. -/
theorem eq_of_fails {event : Event} {message message' : Text} (h : event.Fails message)
    (h' : event.Fails message') : message = message' := by
  cases event with
  | search => contradiction
  | call r stage v => cases stage <;> exact Except.error.inj (h.symm.trans h')

/-- A hook that fails is called last, and its failure is that of the parse. -/
theorem Ends.of_fails {before after : List Event} {r : Rule} {stage : Stage} {v : View}
    {message : Text} (h : Ends (before ++ .call r stage v :: after) e)
    (hfails : (Event.call r stage v).Fails message) :
    after = [] ∧ (∀ e ∈ before, e.Returns) ∧ e = .hook r.name stage message := by
  generalize hevents : before ++ .call r stage v :: after = events at h
  cases h with
  | limit hreturns => exact absurd hfails (hreturns _ (by simp [← hevents]) message)
  | @hook before' r' stage' v' message' hbefore hfails' =>
    rcases List.eq_nil_or_concat after with rfl | ⟨after, last, rfl⟩
    · obtain ⟨rfl, hcall⟩ := List.append_inj' hevents rfl
      obtain ⟨rfl, rfl, rfl⟩ : r = r' ∧ stage = stage' ∧ v = v' := by simpa using hcall
      exact ⟨rfl, hbefore, by rw [eq_of_fails hfails hfails']⟩
    · -- the hook would be one of those in front of the last one
      have hlast : (before ++ .call r stage v :: after) ++ [last] =
          before' ++ [.call r' stage' v'] := by
        simpa using hevents
      obtain ⟨rfl, -⟩ := List.append_inj' hlast rfl
      exact absurd hfails (hbefore _ (by simp) message)

/-! ## Whole parses -/

/-- What holds of the calls of a parse that returns a tree. -/
structure CalledInOrder (t : Tree) (calls : List HookCall) : Prop where
  eq_trace : calls = t.trace root
  /-- Hooks are called for nodes of the tree, and are those of their rules. -/
  eq_call : ∀ c ∈ calls, c.node < t.size ∧ c = t.call c.node c.stage
  /-- Each hook is called once for each node, but that nothing replaces the root. -/
  count_eq : ∀ n < t.size, ∀ stage,
    calls.count (t.call n stage) = if n = root ∧ stage = .substitute then 0 else 1
  /-- What is called for a node and for all below it is called in one piece. -/
  trace_isInfix : ∀ n < t.size, t.trace n <:+: calls
  /-- What lies below a node is replaced before the node is. -/
  substitute_sublist : ∀ n i, n ≠ root → t.IsAbove n i →
    [t.call i .substitute, t.call n .substitute].Sublist calls

/-- If nothing is pending, all hooks have been called. -/
theorem Awaits.eq_trace (h : Awaits t done []) : done = t.trace root := by
  simpa using h.trace_eq.symm

/-- If nothing is pending, the calls are all those of the tree, in their order. -/
theorem Awaits.calledInOrder (h : Awaits t done []) : CalledInOrder t done := by
  have htrace : done = t.trace root := h.eq_trace
  have hmem (c : HookCall) : c ∈ done ↔
      c = t.call c.node c.stage ∧ ReflTransGen t.IsParent root c.node ∧
        (c.node = root → c.stage ≠ .substitute) := htrace ▸ h.linked.mem_trace_iff
  have hnodup : done.Nodup := htrace ▸ h.linked.nodup_trace root
  have hpart (n : NodeId) (hn : n < t.size) : t.trace n <:+: done :=
    htrace ▸ h.linked.trace_isInfix (h.below_root n hn)
  refine ⟨htrace, fun c hc => ⟨?_, ((hmem c).1 hc).1⟩, fun n hn stage => ?_, hpart,
    fun n i hroot hni => ?_⟩
  · exact node_lt_size_of_mem_trace h.root_lt (htrace ▸ hc)
  · have hcalled : t.call n stage ∈ done ↔ ¬ (n = root ∧ stage = .substitute) := by
      rw [hmem, not_and]
      exact ⟨fun hc => hc.2.2, fun hstage => ⟨rfl, h.below_root n hn, hstage⟩⟩
    simp only [hnodup.count, hcalled, ite_not]
  · obtain ⟨q, -, hq⟩ := TransGen.tail'_iff.1 hni
    have hn : n < t.size := (h.linked.lt_of_isAbove hni).trans (lt_size_of_isParent hq)
    exact (h.linked.substitute_sublist hroot hni).trans (hpart n hn).sublist

/-- At any call, the calls up to it are a prefix of the trace of the tree that its hook sees. -/
theorem Follows.isPrefix {before after : List Event} {r : Rule} {stage : Stage} {v : View}
    (h : Follows [] (before ++ .call r stage v :: after)) :
    hookCalls before ++ [⟨r.ref, stage, v.id⟩] <+: v.tree.trace root := by
  simpa using (follows_append.1 h).2.1

/-- In a parse that returns a tree, hooks are called in the order of the trace of the tree, whose
children are those of the tree in the order in which they were created, and none of them fails.
Whatever comes of a parse, the calls up to any time are a prefix of the trace of the tree at that
time, a hook that fails is the first one that does, is called last, and ends the parse with its rule
and its message, and a parse that ends otherwise without a tree has no hook that fails and a match
that is nested too deep. -/
theorem trace_of_history (g : Grammar) (rule : Rule) (input : Text) (seed : State) :
    (∀ t events, history g rule input seed = (.ok t, events) →
      CalledInOrder t (hookCalls events) ∧ (∀ e ∈ events, e.Returns) ∧
        ∀ n, (t.offspring n).Perm (t.node n).children ∧ (t.offspring n).Pairwise (· < ·)) ∧
    (∀ before r stage v after,
      (history g rule input seed).2 = before ++ .call r stage v :: after →
      hookCalls before ++ [⟨r.ref, stage, v.id⟩] <+: v.tree.trace root ∧
        ∀ message, (Event.call r stage v).Fails message →
          after = [] ∧ (∀ e ∈ before, e.Returns) ∧
            (history g rule input seed).1 = .error (.hook r.name stage message)) ∧
    ∀ e, (history g rule input seed).1 = .error e → Ends (history g rule input seed).2 e := by
  have hstart := Awaits.startTree rule input seed
  rcases h : history g rule input seed with ⟨e | t, events⟩
  · have hstops := stops_of_history h
    refine ⟨fun _ _ hok => (nomatch hok), fun before r stage v after hevents => ?_, fun e' he => ?_⟩
    · obtain rfl : events = _ := hevents
      refine ⟨(hstops.follows hstart rfl).isPrefix, fun message hfails => ?_⟩
      obtain ⟨hafter, hbefore, rfl⟩ := hstops.ends.of_fails hfails
      exact ⟨hafter, hbefore, rfl⟩
    · obtain rfl : e = e' := by simpa using he
      exact hstops.ends
  · have hruns := runs_of_history h
    obtain ⟨hend, hfollows⟩ := hruns.follows hstart rfl
    refine ⟨fun t' events' hok => ?_, fun before r stage v after hevents => ?_,
      fun _ he => (nomatch he)⟩
    · obtain ⟨rfl, rfl⟩ : t = t' ∧ events = events' := by simpa using hok
      exact ⟨hend.calledInOrder, hruns.returns,
        fun n => ⟨hend.linked.offspring_perm n, offspring_sorted⟩⟩
    · obtain rfl : events = _ := hevents
      exact ⟨hfollows.isPrefix, fun message hfails =>
        absurd hfails (hruns.returns _ (by simp) message)⟩

/-- The hooks that keep the matched text and fail when it is to be replaced. -/
def failing : Hooks :=
  { Hooks.identity with onSubstitute := HookM.fail ['e'] }

/-- In a parse with a match in a match, the inner one has its turn while the outer one is resolved.
If the inner one cannot be replaced, the parse ends there. -/
theorem trace_of_history_ofNested :
    (∃ t events, history (.ofNested ['a', 'b'] ['b'] .identity .identity .identity)
        (Grammar.ofNested ['a', 'b'] ['b'] .identity .identity .identity).root
        ['x', 'a', 'b'] .empty = (.ok t, events) ∧
      CalledInOrder t (hookCalls events) ∧
      (hookCalls events).map (fun c => (c.stage, c.node)) =
        [(.capture, 0), (.capture, 1), (.capture, 2), (.resolve, 2), (.substitute, 2),
          (.resolve, 1), (.substitute, 1), (.resolve, 0)]) ∧
    ∃ before v, (history (.ofNested ['a', 'b'] ['b'] .identity .identity failing)
        (Grammar.ofNested ['a', 'b'] ['b'] .identity .identity failing).root
        ['x', 'a', 'b'] .empty).2 =
          before ++ [.call (Grammar.innerRule ['b'] failing) .substitute v] ∧
      (Event.call (Grammar.innerRule ['b'] failing) .substitute v).Fails ['e'] ∧
      (∀ e ∈ before, e.Returns) ∧ (hookCalls before).length = 4 ∧
      (history (.ofNested ['a', 'b'] ['b'] .identity .identity failing)
        (Grammar.ofNested ['a', 'b'] ['b'] .identity .identity failing).root
        ['x', 'a', 'b'] .empty).1 = .error (.hook ['v'] .substitute ['e']) := by
  obtain ⟨hok, -⟩ := trace_of_history (.ofNested ['a', 'b'] ['b'] .identity .identity .identity)
    (Grammar.ofNested ['a', 'b'] ['b'] .identity .identity .identity).root ['x', 'a', 'b'] .empty
  obtain ⟨-, hcall, -⟩ := trace_of_history (.ofNested ['a', 'b'] ['b'] .identity .identity failing)
    (Grammar.ofNested ['a', 'b'] ['b'] .identity .identity failing).root ['x', 'a', 'b'] .empty
  obtain ⟨-, hfails⟩ := hcall [_, _, _, _, _, _] _ _ _ [] rfl
  obtain ⟨-, hbefore, herror⟩ := hfails ['e'] rfl
  exact ⟨⟨_, _, rfl, (hok _ _ rfl).1, rfl⟩, [_, _, _, _, _, _], _, rfl, rfl, hbefore, rfl, herror⟩

end Engine

end Cascade
