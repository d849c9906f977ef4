import Cascade.Proofs.Engine.Order
import Cascade.Proofs.Hook.Append

/-!
# Who writes to which state

The states of a tree change in a parse only when a hook is called, which may change the state of its
own node and that of the parse. If all hooks only append, the state of a node has the entries that
the hooks of the node have written, and the state of the parse those that all hooks have written, in
the order of the calls.

* `Moves`: a part of a parse as the calls of hooks that change states, one after the other.
* `Runs.moves`, `Stops.moves`: what a part of a parse does is such a sequence.
* `Moves.global_eq`, `Moves.own_eq`: what the states are behind it.
* `states_of_history`: the states that hooks see, and those of the tree that a parse returns.
-/

namespace Cascade

/-- The states as a hook leaves them that is called in a view, if it succeeds. -/
def HookM.states? {α : Type} (hook : HookM α) (v : View) : Option States :=
  match (hook.run v).run v.states with
  | .ok (_, states) => some states
  | .error _ => none

/-- The states as the hook leaves them, if the event is the call of one that succeeds. -/
def Event.states? : Event → Option States
  | call rule .capture view => rule.hooks.onCapture.states? view
  | call rule .substitute view => rule.hooks.onSubstitute.states? view
  | call rule .resolve view => rule.hooks.onResolve.states? view
  | search _ _ _ _ => none

/-- The entries that the hook puts behind those that it finds in one of the two states. -/
def Event.writes (part : States → State) : Event → List (Text × Json)
  | call rule stage view =>
    match (Event.call rule stage view).states? with
    | some states => (part states).toList.drop (part view.states).size
    | none => []
  | search _ _ _ _ => []

/-- The event is a call for a node. -/
def Event.isFor (i : NodeId) : Event → Bool
  | call _ _ view => view.id = i
  | search _ _ _ _ => false

/-- A hook that succeeds leaves its states in the tree. -/
theorem HookM.Succeeds.states? {α : Type} {hook : HookM α} {v : View} {result : α} {t : Tree}
    (h : hook.Succeeds v result t) :
    ∃ states, hook.states? v = some states ∧ t = v.withStates states := by
  obtain ⟨states, hrun, rfl⟩ := h
  exact ⟨states, by simp [HookM.states?, hrun], rfl⟩

/-- A hook that fails leaves no states. -/
theorem HookM.Fails.states? {α : Type} {hook : HookM α} {v : View} {message : Text}
    (h : hook.Fails v message) : hook.states? v = none := by
  have hrun : (hook.run v).run v.states = .error message := h
  simp [HookM.states?, hrun]

/-- A hook that only appends leaves the entries that it writes behind those that it finds. -/
theorem HookM.Appends.states_eq {α : Type} {hook : HookM α} {v : View} {states : States}
    (h : hook.Appends) (hstates : hook.states? v = some states) :
    states.own = v.states.own.putAll (states.own.toList.drop v.states.own.size) ∧
      states.global = v.states.global.putAll (states.global.toList.drop v.states.global.size) := by
  have hdrop (s : State) (entries : List (Text × Json)) :
      (s.putAll entries).toList.drop s.size = entries := by
    rw [State.toList_putAll]
    exact List.drop_left
  unfold HookM.states? at hstates
  split at hstates
  · next a s hrun =>
    obtain rfl := Option.some.inj hstates
    obtain ⟨own, global, rfl⟩ := h v v.states a s hrun
    exact ⟨by rw [hdrop], by rw [hdrop]⟩
  · contradiction

/-- A call leaves its writes behind what was there, in either state. -/
theorem Hooks.Append.states_eq {rule : Rule} {stage : Stage} {v : View} {states : States}
    (h : rule.hooks.Append) (hstates : (Event.call rule stage v).states? = some states) :
    states.own = v.states.own.putAll (Event.writes States.own (.call rule stage v)) ∧
      states.global = v.states.global.putAll (Event.writes States.global (.call rule stage v)) := by
  simp only [Event.writes, hstates]
  cases stage with
  | capture => exact h.capture.states_eq hstates
  | substitute => exact h.substitute.states_eq hstates
  | resolve => exact h.resolve.states_eq hstates

namespace Engine

open Cascade.Tree

variable {g : Grammar} {levels : Nat} {task : Task} {t t₁ t₂ t' : Tree} {events later : List Event}
  {edits : List (Span × Text)} {e : ParseError} {p i : NodeId} {P : Rule → Prop}

/-! ## Steps that leave states alone -/

/-- No node is lost, and the states are the same. -/
structure SameStates (t t' : Tree) : Prop where
  size_le : t.size ≤ t'.size
  global_eq : t'.globalState = t.globalState
  local_eq : ∀ i, (t'.node i).localState = (t.node i).localState

/-- A change to a node that keeps its state keeps all states. -/
theorem sameStates_update {f : Node → Node} (hf : ∀ n, (f n).localState = n.localState) :
    SameStates t (t.update i f) := by
  refine ⟨(size_update ..).ge, rfl, fun j => ?_⟩
  rw [node_update]
  split
  · exact hf _
  · rfl

/-- Setting a modified text keeps all states. -/
theorem sameStates_setModified (t : Tree) (i : NodeId) (text : Text) :
    SameStates t (t.setModified i text) :=
  sameStates_update fun _ => rfl

/-- Setting a working text keeps all states. -/
theorem sameStates_setWorking (t : Tree) (i : NodeId) (text : Text) :
    SameStates t (t.setWorking i text) :=
  sameStates_update fun _ => rfl

theorem SameStates.refl (t : Tree) : SameStates t t :=
  ⟨le_rfl, rfl, fun _ => rfl⟩

theorem SameStates.trans (h : SameStates t t₁) (h' : SameStates t₁ t') : SameStates t t' where
  size_le := h.size_le.trans h'.size_le
  global_eq := h'.global_eq.trans h.global_eq
  local_eq i := (h'.local_eq i).trans (h.local_eq i)

/-- Linking siblings keeps all states. -/
theorem sameStates_linkFrom (previous? : Option NodeId) (ids : List NodeId) :
    SameStates t (linkFrom previous? ids t) := by
  induction ids generalizing previous? t with
  | nil => exact .refl t
  | cons id ids ih =>
    have hlink : SameStates t (t.update id fun n => { n with previous?, next? := ids.head? }) :=
      sameStates_update fun _ => rfl
    exact hlink.trans (ih _)

/-- Linking children keeps all states. -/
theorem sameStates_linkChildren (t : Tree) (i : NodeId) : SameStates t (t.linkChildren i) :=
  (sameStates_linkFrom _ _).trans (sameStates_update fun _ => rfl)

/-- The node of a match has an empty state, and all others keep theirs. -/
theorem sameStates_addMatch {child : Rule} {m : Match} (hp : p < t.size) :
    SameStates t (addMatch t p child m) := by
  refine ⟨by simp, rfl, fun j => ?_⟩
  rw [node_addMatch hp]
  split
  · next hj =>
    rw [hj, node_of_size_le le_rfl]
    rfl
  · split
    · next hj => rw [hj]
    · rfl

/-! ## Calls in order -/

/-- `Moves P t events t'`: from `t` to `t'`, states change only as hooks of rules with a property
leave them, and the events are their calls and the searches. -/
inductive Moves (P : Rule → Prop) : Tree → List Event → Tree → Prop where
  | refl (t : Tree) : Moves P t [] t
  | silent {t t₁ t' : Tree} {events : List Event} (hsame : SameStates t t₁)
      (h : Moves P t₁ events t') : Moves P t events t'
  | search {t t' : Tree} {events : List Event} {p : NodeId} {child : Rule} {pattern : Pattern}
      {text : Text} (h : Moves P t events t') :
      Moves P t (.search p child pattern text :: events) t'
  | call {t t' : Tree} {events : List Event} {rule : Rule} {stage : Stage} {id : NodeId}
      {states : States} (hrule : P rule) (hid : id < t.size)
      (hstates : (Event.call rule stage ⟨t, id⟩).states? = some states)
      (h : Moves P (View.withStates ⟨t, id⟩ states) events t') :
      Moves P t (.call rule stage ⟨t, id⟩ :: events) t'
  | fail {t t' : Tree} {events : List Event} {rule : Rule} {stage : Stage} {id : NodeId}
      (hstates : (Event.call rule stage ⟨t, id⟩).states? = none) (h : Moves P t events t') :
      Moves P t (.call rule stage ⟨t, id⟩ :: events) t'

namespace Moves

/-- The writes of one part of a parse come before those of the next. -/
theorem trans (h : Moves P t events t₁) (h' : Moves P t₁ later t') :
    Moves P t (events ++ later) t' := by
  induction h with
  | refl => exact h'
  | silent hsame _ ih => exact .silent hsame (ih h')
  | search _ ih => exact .search (ih h')
  | call hrule hid hstates _ ih => exact .call hrule hid hstates (ih h')
  | fail hstates _ ih => exact .fail hstates (ih h')

/-- Nodes are never taken away. -/
theorem size_le (h : Moves P t events t') : t.size ≤ t'.size := by
  induction h with
  | refl => exact le_rfl
  | silent hsame _ ih => exact hsame.size_le.trans ih
  | search _ ih | fail _ _ ih => exact ih
  | call _ _ _ _ ih => simpa using ih

/-- The node of a match stays. -/
theorem lt_size_of_addMatch {child : Rule} {m : Match}
    (h : Moves P (addMatch t p child m) events t') : t.size < t'.size := by
  have hle := h.size_le
  rwa [size_addMatch] at hle

/-- The tree that a hook sees is what the events before its call lead to. -/
theorem before {before after : List Event} {rule : Rule} {stage : Stage} {v : View}
    (h : Moves P t (before ++ .call rule stage v :: after) t') : Moves P t before v.tree := by
  generalize hevents : before ++ .call rule stage v :: after = events at h
  -- the call is the first event, or it is one of those behind
  induction h generalizing before with
  | refl => simp at hevents
  | silent hsame _ ih => exact .silent hsame (ih hevents)
  | search _ ih =>
    cases before with
    | nil => simp at hevents
    | cons e before =>
      obtain ⟨rfl, htail⟩ := List.cons_eq_cons.1 hevents
      exact .search (ih htail)
  | call hrule hid hstates _ ih =>
    cases before with
    | nil =>
      obtain ⟨hcall, -⟩ := List.cons_eq_cons.1 hevents
      cases hcall
      exact .refl _
    | cons e before =>
      obtain ⟨rfl, htail⟩ := List.cons_eq_cons.1 hevents
      exact .call hrule hid hstates (ih htail)
  | fail hstates _ ih =>
    cases before with
    | nil =>
      obtain ⟨hcall, -⟩ := List.cons_eq_cons.1 hevents
      cases hcall
      exact .refl _
    | cons e before =>
      obtain ⟨rfl, htail⟩ := List.cons_eq_cons.1 hevents
      exact .fail hstates (ih htail)

variable (hP : ∀ r, P r → r.hooks.Append)

include hP

/-- The state of the parse has the entries that all hooks have written. -/
theorem global_eq (h : Moves P t events t') :
    t'.globalState = t.globalState.putAll (events.flatMap (Event.writes States.global)) := by
  induction h with
  | refl => rfl
  | silent hsame _ ih => rw [ih, hsame.global_eq]
  | search _ ih =>
    rw [ih, List.flatMap_cons]
    rfl
  | @call t t' events rule stage id states hrule hid hstates _ ih =>
    have hglobal : (View.withStates ⟨t, id⟩ states).globalState = states.global := rfl
    rw [ih, hglobal, ((hP rule hrule).states_eq hstates).2, List.flatMap_cons, State.putAll_append]
    rfl
  | fail hstates _ ih =>
    rw [ih, List.flatMap_cons]
    simp [Event.writes, hstates]

/-- The state of a node has the entries that the hooks of the node have written. -/
theorem own_eq (h : Moves P t events t') (i : NodeId) :
    (t'.node i).localState = (t.node i).localState.putAll
      ((events.filter (Event.isFor i)).flatMap (Event.writes States.own)) := by
  induction h with
  | refl => rfl
  | silent hsame _ ih => rw [ih, hsame.local_eq]
  | search _ ih =>
    rw [ih]
    rfl
  | @call t t' events rule stage id states hrule hid hstates _ ih =>
    -- a hook writes to the state of its own node, and to no other
    by_cases hi : id = i
    · subst hi
      have hown : ((View.withStates ⟨t, id⟩ states).node id).localState = states.own := by
        rw [View.node_withStates_self (v := ⟨t, id⟩) hid]
      rw [ih, hown, ((hP rule hrule).states_eq hstates).1,
        List.filter_cons_of_pos (by simp [Event.isFor]), List.flatMap_cons, State.putAll_append]
      rfl
    · rw [ih, View.node_withStates_of_ne (v := ⟨t, id⟩) (Ne.symm hi),
        List.filter_cons_of_neg (by simp [Event.isFor, hi])]
  | @fail t t' events rule stage id hstates _ ih =>
    -- a hook that fails has written nothing
    have hwrites : Event.writes States.own (.call rule stage ⟨t, id⟩) = [] := by
      simp [Event.writes, hstates]
    rw [ih, List.filter_cons]
    split
    · rw [List.flatMap_cons, hwrites, List.nil_append]
    · rfl

end Moves

/-! ## Parts of a parse -/

/-- The rule of a task has a property, if the task is about one rule. -/
def Task.Has (P : Rule → Prop) : Task → Prop
  | node _ rule => P rule
  | search _ _ => True
  | resolve _ child _ => P child

/-- A part of a parse that succeeds is a sequence of calls. -/
theorem Runs.moves (h : Runs g levels task t events edits t') (hrules : ∀ r ∈ g.rules, P r)
    (htask : task.Has P) (hid : task.id < t.size) : Moves P t events t' := by
  induction h with
  | @node levels id rule t t₁ t₂ t₃ text events hcapture _ hresolve ih =>
    obtain ⟨s₁, hstates₁, rfl⟩ := hcapture.states?
    obtain ⟨s₃, hstates₃, rfl⟩ := hresolve.states?
    have hsearch := ih trivial (by simpa [Task.id] using hid)
    have hle : t.size ≤ t₂.size := by simpa using hsearch.size_le
    have hid₂ : id < (t₂.linkChildren id).size := by simpa [Task.id] using hid.trans_le hle
    exact .call htask hid hstates₁ (.silent (sameStates_setModified ..) (hsearch.trans
      (.silent (sameStates_linkChildren ..) (.call htask hid₂ hstates₃ (.refl _)))))
  | searchNil => exact .refl _
  | searchSkip _ _ ih => exact ih trivial hid
  | searchPass hchild _ _ ih ih' =>
    have hfound := ih (hrules _ (Grammar.mem_rules_of_searcher? hchild).1) hid
    exact .search (hfound.trans (.silent (sameStates_setWorking ..)
      (ih' trivial (by simpa [Task.id] using hid.trans_le hfound.size_le))))
  | resolveNil => exact .refl _
  | @resolveCons levels p child m found t t₁ t₂ t₃ replacement events later edits _ hsubstitute _ ih
      ih' =>
    obtain ⟨s, hstates, rfl⟩ := hsubstitute.states?
    have hnode := ih htask (by simp [Task.id])
    have hlt : t.size < t₁.size := hnode.lt_size_of_addMatch
    have hp : p < (View.withStates ⟨t₁, t.size⟩ s).size := by simpa [Task.id] using hid.trans hlt
    exact .silent (sameStates_addMatch hid) (hnode.trans (.call htask hlt hstates (ih' htask hp)))

/-- A part of a parse that fails is a sequence of calls up to where it fails. -/
theorem Stops.moves (h : Stops g levels task t events e) (hrules : ∀ r ∈ g.rules, P r)
    (htask : task.Has P) (hid : task.id < t.size) : ∃ t', Moves P t events t' := by
  induction h with
  | nodeCapture hcapture => exact ⟨_, .fail hcapture.states? (.refl _)⟩
  | nodeSearch hcapture _ ih =>
    obtain ⟨s, hstates, rfl⟩ := hcapture.states?
    obtain ⟨t', hsearch⟩ := ih trivial (by simpa [Task.id] using hid)
    exact ⟨t', .call htask hid hstates (.silent (sameStates_setModified ..) hsearch)⟩
  | nodeResolve hcapture hsearch hresolve =>
    obtain ⟨s, hstates, rfl⟩ := hcapture.states?
    have hsearch := hsearch.moves hrules trivial (by simpa [Task.id] using hid)
    exact ⟨_, .call htask hid hstates (.silent (sameStates_setModified ..) (hsearch.trans
      (.silent (sameStates_linkChildren ..) (.fail hresolve.states? (.refl _)))))⟩
  | searchSkip _ _ ih => exact ih trivial hid
  | searchPass hchild _ ih =>
    obtain ⟨t', hfound⟩ := ih (hrules _ (Grammar.mem_rules_of_searcher? hchild).1) hid
    exact ⟨t', .search hfound⟩
  | searchLater hchild hresolve _ ih =>
    have hfound := hresolve.moves hrules (hrules _ (Grammar.mem_rules_of_searcher? hchild).1) hid
    obtain ⟨t', hrest⟩ := ih trivial (by simpa [Task.id] using hid.trans_le hfound.size_le)
    exact ⟨t', .search (hfound.trans (.silent (sameStates_setWorking ..) hrest))⟩
  | resolveLimit => exact ⟨_, .refl _⟩
  | resolveNode _ ih =>
    obtain ⟨t', hnode⟩ := ih htask (by simp [Task.id])
    exact ⟨t', .silent (sameStates_addMatch hid) hnode⟩
  | resolveSubstitute hnode hsubstitute =>
    have hnode := hnode.moves hrules htask (by simp [Task.id])
    exact ⟨_, .silent (sameStates_addMatch hid)
      (hnode.trans (.fail hsubstitute.states? (.refl _)))⟩
  | @resolveLater levels p child m found t t₁ t₂ replacement events later e hnode hsubstitute _
      ih =>
    obtain ⟨s, hstates, rfl⟩ := hsubstitute.states?
    have hnode := hnode.moves hrules htask (by simp [Task.id])
    have hlt : t.size < t₁.size := hnode.lt_size_of_addMatch
    have hp : p < (View.withStates ⟨t₁, t.size⟩ s).size := by simpa [Task.id] using hid.trans hlt
    obtain ⟨t', hrest⟩ := ih htask hp
    exact ⟨t', .silent (sameStates_addMatch hid)
      (hnode.trans (.call htask hlt hstates hrest))⟩

/-! ## Whole parses -/

/-- Calls for a node are those of its events. -/
theorem hookCalls_filter (events : List Event) (i : NodeId) :
    hookCalls (events.filter (Event.isFor i)) = (hookCalls events).filter (·.node = i) := by
  induction events with
  | nil => rfl
  | cons e events ih =>
    cases e with
    | search => exact ih
    | call rule stage v =>
      by_cases hv : v.id = i
      · rw [List.filter_cons_of_pos (by simp [Event.isFor, hv]), hookCalls_call, hookCalls_call,
          List.filter_cons_of_pos (by simp [hv]), ih]
      · rw [List.filter_cons_of_neg (by simp [Event.isFor, hv]), hookCalls_call,
          List.filter_cons_of_neg (by simp [hv]), ih]

/-- If all hooks only append, each hook finds the state of the parse as it was at first with all
that has been written in the calls before, and the states of all nodes with what the hooks of each
node have written. The tree that a parse returns has the states that all calls have left, and for
each node hooks were called once each, in the order of their stages. -/
theorem states_of_history (hrules : ∀ r ∈ g.rules, r.hooks.Append) (rule : Rule)
    (hrule : rule.hooks.Append) (input : Text) (seed : State) :
    (∀ before r stage v after,
      (history g rule input seed).2 = before ++ .call r stage v :: after →
      v.tree.globalState = seed.putAll (before.flatMap (Event.writes States.global)) ∧
        ∀ i, (v.tree.node i).localState = State.empty.putAll
          ((before.filter (Event.isFor i)).flatMap (Event.writes States.own))) ∧
    ∀ t events, history g rule input seed = (.ok t, events) →
      t.globalState = seed.putAll (events.flatMap (Event.writes States.global)) ∧
        ∀ i < t.size,
          (t.node i).localState = State.empty.putAll
            ((events.filter (Event.isFor i)).flatMap (Event.writes States.own)) ∧
          hookCalls (events.filter (Event.isFor i)) = t.ownCalls i := by
  have hstart : root < (startTree rule input seed).size := Nat.zero_lt_one
  have hlocal (i : NodeId) : ((startTree rule input seed).node i).localState = .empty := by
    rw [startTree, node_push]
    split <;> rfl
  have hmoves : ∃ t', Moves (fun r => r.hooks.Append) (startTree rule input seed)
      (history g rule input seed).2 t' := by
    rcases h : history g rule input seed with ⟨e | t, events⟩
    · exact (stops_of_history h).moves hrules hrule hstart
    · exact ⟨t, (runs_of_history h).moves hrules hrule hstart⟩
  refine ⟨fun before r stage v after hevents => ?_, fun t events h => ?_⟩
  · obtain ⟨t', hmoves⟩ := hmoves
    rw [hevents] at hmoves
    have hbefore := hmoves.before
    refine ⟨hbefore.global_eq fun _ => id, fun i => ?_⟩
    rw [hbefore.own_eq (fun _ => id) i, hlocal]
  · have hend := (runs_of_history h).moves hrules hrule hstart
    refine ⟨hend.global_eq fun _ => id, fun i hi => ⟨?_, ?_⟩⟩
    · rw [hend.own_eq (fun _ => id) i, hlocal]
    -- nothing is pending any more, so each node has had all its calls
    · have hcalled : Awaits t (hookCalls events) [] := by
        simpa using ((runs_of_history h).follows (Awaits.startTree rule input seed) rfl).1
      rw [hookCalls_filter, hcalled.eq_trace, hcalled.linked.filter_trace (hcalled.below_root i hi)]

/-- The hooks that keep and mask the text, count all nodes, and take note of their calls. -/
def counting : Hooks where
  onCapture := do
    let count ← HookM.incrementGlobal ['n'] 1
    HookM.putLocal ['c'] (.number (.integer count))
    Hooks.keepText
  onSubstitute := do
    HookM.putLocal ['s'] .null
    Hooks.maskText
  onResolve := HookM.putLocal ['r'] .null

/-- The hooks that count only append. -/
theorem append_counting : counting.Append where
  capture := (HookM.appends_incrementGlobal _ _).bind fun _ => (HookM.appends_putLocal _ _).bind
    fun _ => Hooks.append_identity.capture
  substitute := (HookM.appends_putLocal _ _).bind fun _ => Hooks.append_identity.substitute
  resolve := HookM.appends_putLocal _ _

/-- A parse with a match in a match, where each hook takes note of its call. -/
theorem states_of_history_ofNested :
    (∀ r ∈ (Grammar.ofNested ['a', 'b'] ['b'] counting counting counting).rules,
      r.hooks.Append) ∧
    ∃ t events, history (.ofNested ['a', 'b'] ['b'] counting counting counting)
        (Grammar.ofNested ['a', 'b'] ['b'] counting counting counting).root
        ['x', 'a', 'b'] .empty = (.ok t, events) ∧
      t.globalState = State.empty.putAll (events.flatMap (Event.writes States.global)) ∧
      t.globalState.toList = [(['n'], .number (.integer 1)), (['n'], .number (.integer 2)),
        (['n'], .number (.integer 3))] ∧
      (t.node 1).localState = State.empty.putAll
        ((events.filter (Event.isFor 1)).flatMap (Event.writes States.own)) ∧
      (t.node 1).localState.toList =
        [(['c'], .number (.integer 2)), (['r'], .null), (['s'], .null)] := by
  have hrules : ∀ r ∈ (Grammar.ofNested ['a', 'b'] ['b'] counting counting counting).rules,
      r.hooks.Append := by
    intro r hr
    simp only [Grammar.ofNested, Array.mem_def, List.mem_cons, List.not_mem_nil, or_false] at hr
    rcases hr with rfl | rfl | rfl <;> exact append_counting
  obtain ⟨-, hstates⟩ := states_of_history hrules
    (Grammar.ofNested ['a', 'b'] ['b'] counting counting counting).root append_counting
    ['x', 'a', 'b'] .empty
  obtain ⟨hglobal, hlocal⟩ := hstates _ _ rfl
  exact ⟨hrules, _, _, rfl, hglobal, rfl, (hlocal 1 (by decide)).1, rfl⟩

end Engine

end Cascade
