import Cascade.Proofs.Engine.Semantics

/-!
# The engine follows its rules

Every part of a parse has a derivation by the rules of `Runs` and `Stops`, with the events that are
recorded.

* `runs_of_history`, `stops_of_history`: the derivation of a whole parse.
-/

namespace Cascade

variable {ω α β : Type}

namespace ParseM

/-- What comes of a part of a parse: its result and the tree, or an error, and the record. -/
def outcome (x : ParseM ω α) (t : Tree) (record : ω) : Except ParseError (α × Tree) × ω :=
  (x.run t).run.run record

/-- A result that is there changes neither the tree nor the record. -/
@[simp]
theorem outcome_pure (a : α) (t : Tree) (record : ω) :
    outcome (pure a : ParseM ω α) t record = (.ok (a, t), record) := rfl

/-- A failure keeps the record. -/
@[simp]
theorem outcome_throw (e : ParseError) (t : Tree) (record : ω) :
    outcome (throw e : ParseM ω α) t record = (.error e, record) := rfl

@[simp]
theorem outcome_get (t : Tree) (record : ω) :
    outcome (get : ParseM ω Tree) t record = (.ok (t, t), record) := rfl

@[simp]
theorem outcome_set (t t' : Tree) (record : ω) :
    outcome (set t' : ParseM ω PUnit) t record = (.ok (⟨⟩, t'), record) := rfl

/-- A change is made to the tree, and nothing is recorded. -/
@[simp]
theorem outcome_modify (f : Tree → Tree) (t : Tree) (record : ω) :
    outcome (modify f : ParseM ω PUnit) t record = (.ok (⟨⟩, f t), record) := rfl

/-- An event goes into the record. -/
@[simp]
theorem outcome_tell (watch : Watcher ω) (e : Event) (t : Tree) (record : ω) :
    outcome (Engine.tell watch e) t record = (.ok ((), t), watch e record) := rfl

/-- The second part starts from where the first one has ended. -/
theorem outcome_bind (x : ParseM ω α) (f : α → ParseM ω β) (t : Tree) (record : ω) :
    outcome (x >>= f) t record =
      match outcome x t record with
      | (.ok (a, t'), record') => outcome (f a) t' record'
      | (.error e, record') => (.error e, record') := by
  -- the layers are taken off from outside: the tree, the error, the record
  change (((x >>= f).run t).run.run record) = _
  simp only [StateT.run_bind, ExceptT.run_bind, StateT.run_bind]
  rcases h : (x.run t).run.run record with ⟨_ | ⟨a, t'⟩, record'⟩ <;> simp [outcome, h] <;> rfl

/-- Whatever comes of a part of a parse, its events are recorded, and satisfy `ok` with the result
and the tree, or `stop` with the error. -/
def Behaves (watch : Watcher ω) (x : ParseM ω α) (t : Tree) (ok : List Event → α → Tree → Prop)
    (stop : List Event → ParseError → Prop) : Prop :=
  ∀ record, ∃ events, (x.outcome t record).2 = events.foldl (fun r e => watch e r) record ∧
    match (x.outcome t record).1 with
    | .ok (a, t') => ok events a t'
    | .error e => stop events e

variable {watch : Watcher ω} {t : Tree} {ok : List Event → α → Tree → Prop}
  {stop : List Event → ParseError → Prop}

/-- A part without events that leads to a result. -/
theorem Behaves.of_silent {x : ParseM ω α} {a : α} {t' : Tree}
    (hx : ∀ record, x.outcome t record = (.ok (a, t'), record)) (h : ok [] a t') :
    Behaves watch x t ok stop := by
  intro record
  refine ⟨[], ?_⟩
  simpa [hx record] using h

/-- A result that is there has no events. -/
theorem Behaves.pure {a : α} (h : ok [] a t) : Behaves watch (pure a : ParseM ω α) t ok stop :=
  .of_silent (fun _ => rfl) h

/-- The events of the second part follow those of the first. -/
theorem Behaves.bind {x : ParseM ω β} {f : β → ParseM ω α} {okx : List Event → β → Tree → Prop}
    {stopx : List Event → ParseError → Prop} (hx : Behaves watch x t okx stopx)
    (hf : ∀ events b t', okx events b t' →
      Behaves watch (f b) t' (fun later => ok (events ++ later))
        fun later => stop (events ++ later))
    (hstop : ∀ events e, stopx events e → stop events e) :
    Behaves watch (x >>= f) t ok stop := by
  intro record
  obtain ⟨events, hevents, hres⟩ := hx record
  rw [outcome_bind]
  rcases hout : x.outcome t record with ⟨_ | ⟨b, t'⟩, record'⟩
  · rw [hout] at hevents hres
    exact ⟨events, hevents, hstop _ _ hres⟩
  · rw [hout] at hevents hres
    -- the second part adds to the record that the first one has left
    obtain ⟨later, hlater, hres'⟩ := hf events b t' hres record'
    refine ⟨events ++ later, ?_, hres'⟩
    rw [List.foldl_append, ← show record' = _ from hevents]
    exact hlater

/-- A failure has no events. -/
theorem Behaves.throw {e : ParseError} (h : stop [] e) :
    Behaves watch (throw e : ParseM ω α) t ok stop :=
  fun _ => ⟨[], rfl, h⟩

/-- What looks at the tree goes on with it. -/
theorem Behaves.get_bind {f : Tree → ParseM ω α} (h : Behaves watch (f t) t ok stop) :
    Behaves watch (get >>= f) t ok stop := h

/-- An event that is told comes before those of what goes on. -/
theorem Behaves.tell_bind {e : Event} {f : Unit → ParseM ω α}
    (h : Behaves watch (f ()) t (fun events => ok (e :: events)) fun events => stop (e :: events)) :
    Behaves watch (Engine.tell watch e >>= f) t ok stop := by
  intro record
  obtain ⟨events, hevents, hres⟩ := h (watch e record)
  exact ⟨e :: events, hevents, hres⟩

/-- What is known of a part of a parse may be weakened. -/
theorem Behaves.mono {x : ParseM ω α} {ok' : List Event → α → Tree → Prop}
    {stop' : List Event → ParseError → Prop} (hx : Behaves watch x t ok' stop')
    (hok : ∀ events a t', ok' events a t' → ok events a t')
    (hstop : ∀ events e, stop' events e → stop events e) : Behaves watch x t ok stop := by
  intro record
  obtain ⟨events, hevents, hres⟩ := hx record
  refine ⟨events, hevents, ?_⟩
  split at hres
  · exact hok _ _ _ hres
  · exact hstop _ _ hres

/-- What a part does depends on its outcomes only. -/
theorem Behaves.congr {x y : ParseM ω α} (h : ∀ record, x.outcome t record = y.outcome t record)
    (hy : Behaves watch y t ok stop) : Behaves watch x t ok stop := by
  intro record
  rw [h record]
  exact hy record

end ParseM

namespace Engine

open ParseM

variable {watch : Watcher ω} {g : Grammar}

/-- A hook is called once, and succeeds or ends the parse. -/
theorem behaves_runHook (rule : Rule) (stage : Stage) (id : NodeId) (hook : HookM α) (t : Tree) :
    Behaves watch (runHook watch rule stage id hook) t
      (fun events a t' => events = [.call rule stage ⟨t, id⟩] ∧ hook.Succeeds ⟨t, id⟩ a t')
      (fun events e => events = [.call rule stage ⟨t, id⟩] ∧
        ∃ message, hook.Fails ⟨t, id⟩ message ∧ e = .hook rule.name stage message) := by
  unfold runHook
  refine .get_bind (.tell_bind ?_)
  -- the call is told of before it is known whether the hook succeeds
  cases h : (hook.run ⟨t, id⟩).run (View.states ⟨t, id⟩) with
  | error message => exact .throw ⟨rfl, message, h, rfl⟩
  | ok result => exact .of_silent (fun _ => rfl) ⟨rfl, result.2, h, rfl⟩

/-- How a resolver behaves that resolves matches nested on `levels` levels. -/
def ResolvesOn (watch : Watcher ω) (g : Grammar) (levels : Nat) (resolve : Resolver ω) : Prop :=
  ∀ p child m t, Behaves watch (resolve p child m) t
    (fun events text t' => Runs g levels (.resolve p child [m]) t events [(m.span, text)] t')
    (fun events e => Stops g levels (.resolve p child [m]) t events e)

/-- A match and those behind it make up one task. -/
theorem Runs.cons {levels : Nat} {p : NodeId} {child : Rule} {m : Match} {found : List Match}
    {t t₁ t₂ : Tree} {text : Text} {events later : List Event} {edits : List (Span × Text)}
    (hm : Runs g levels (.resolve p child [m]) t events [(m.span, text)] t₁)
    (hrest : Runs g levels (.resolve p child found) t₁ later edits t₂) :
    Runs g levels (.resolve p child (m :: found)) t (events ++ later) ((m.span, text) :: edits)
      t₂ := by
  cases hm with
  | resolveCons hnode hsubstitute hnil =>
    cases hnil
    simpa using Runs.resolveCons hnode hsubstitute hrest

/-- A match that fails makes those behind it fail. -/
theorem Stops.cons {levels : Nat} {p : NodeId} {child : Rule} {m : Match} {found : List Match}
    {t : Tree} {events : List Event} {e : ParseError}
    (hm : Stops g levels (.resolve p child [m]) t events e) :
    Stops g levels (.resolve p child (m :: found)) t events e := by
  cases hm with
  | resolveLimit => exact .resolveLimit
  | resolveNode hnode => exact .resolveNode hnode
  | resolveSubstitute hnode hsubstitute => exact .resolveSubstitute hnode hsubstitute
  | resolveLater _ _ hrest => cases hrest

/-- A later match fails behind the events of the one before it. -/
theorem Stops.cons_later {levels : Nat} {p : NodeId} {child : Rule} {m : Match}
    {found : List Match} {t t₁ : Tree} {text : Text} {events later : List Event} {e : ParseError}
    (hm : Runs g levels (.resolve p child [m]) t events [(m.span, text)] t₁)
    (hrest : Stops g levels (.resolve p child found) t₁ later e) :
    Stops g levels (.resolve p child (m :: found)) t (events ++ later) e := by
  cases hm with
  | resolveCons hnode hsubstitute hnil =>
    cases hnil
    simpa using Stops.resolveLater hnode hsubstitute hrest

/-- The matches of a search are resolved one after the other, as the rules for them say. -/
theorem behaves_resolveAll {levels : Nat} {resolve : Resolver ω}
    (hresolve : ResolvesOn watch g levels resolve) (p : NodeId) (child : Rule)
    (found : List Match) (t : Tree) :
    Behaves watch (resolveAll resolve p child found) t
      (fun events edits t' => Runs g levels (.resolve p child found) t events edits t')
      (fun events e => Stops g levels (.resolve p child found) t events e) := by
  -- all matches are known in advance, but each is resolved in the tree that is left by those before
  induction found generalizing t with
  | nil => exact .pure .resolveNil
  | cons m rest ih =>
    refine (hresolve p child m t).bind (fun events text t₁ hm => ?_) fun _ _ h => h.cons
    refine (ih t₁).bind (fun later edits t₂ hrest => ?_) fun _ _ h => .cons_later hm h
    exact .pure (by simpa using hm.cons hrest)

/-- A rule that does not search is passed over. -/
theorem runChild_of_searcher?_eq_none {resolve : Resolver ω} {p : NodeId} {id : RuleId} {t : Tree}
    (h : g.searcher? (t.node p).localState id = none) (record : ω) :
    (runChild watch g resolve p id).outcome t record = (.ok ((), t), record) := by
  unfold runChild
  unfold Grammar.searcher? at h
  cases hchild : g.ruleAt? id with
  | none => rfl
  | some child =>
    cases hpattern : child.pattern? with
    | none => simp [hpattern]
    | some pattern =>
      have hskips : (t.node p).localState.skips child.name = true := by
        simpa [hchild, hpattern] using h
      simp [hpattern, outcome_bind, hskips]

/-- A rule that searches is given its pass. -/
theorem runChild_of_searcher?_eq_some {resolve : Resolver ω} {p : NodeId} {id : RuleId} {t : Tree}
    {child : Rule} {pattern : Pattern}
    (h : g.searcher? (t.node p).localState id = some (child, pattern)) (record : ω) :
    (runChild watch g resolve p id).outcome t record =
      (pass watch resolve p child pattern).outcome t record := by
  unfold runChild
  unfold Grammar.searcher? at h
  cases hchild : g.ruleAt? id with
  | none => simp [hchild] at h
  | some child' =>
    cases hpattern : child'.pattern? with
    | none => simp [hchild, hpattern] at h
    | some pattern' =>
      simp only [hchild, hpattern, Option.bind_eq_bind, Option.bind_some] at h
      split at h
      · contradiction
      · next hskips =>
        obtain ⟨rfl, rfl⟩ : child' = child ∧ pattern' = pattern := by simpa using h
        simp [hpattern, outcome_bind, hskips]

/-- A pass is a search followed by the resolution of what it has found. -/
theorem behaves_pass {levels : Nat} {resolve : Resolver ω}
    (hresolve : ResolvesOn watch g levels resolve) (p : NodeId) (child : Rule) (pattern : Pattern)
    (t : Tree) :
    Behaves watch (pass watch resolve p child pattern) t
      (fun events _ t' => ∃ inner edits t₁,
        events = .search p child pattern (t.node p).working :: inner ∧
        Runs g levels (.resolve p child (pattern.scan (t.node p).working)) t inner edits t₁ ∧
        t' = t₁.setWorking p ((t.node p).working.splice edits))
      (fun events e => ∃ inner, events = .search p child pattern (t.node p).working :: inner ∧
        Stops g levels (.resolve p child (pattern.scan (t.node p).working)) t inner e) := by
  unfold pass
  refine .get_bind (.tell_bind ?_)
  refine (behaves_resolveAll hresolve p child _ t).bind (fun inner edits t₁ h => ?_)
    fun inner e h => ⟨inner, rfl, h⟩
  exact .of_silent (fun _ => rfl) ⟨inner, edits, t₁, by simp, h, rfl⟩

/-- The rules below a node search one after the other. -/
theorem behaves_runChildren {levels : Nat} {resolve : Resolver ω}
    (hresolve : ResolvesOn watch g levels resolve) (p : NodeId) (ids : List RuleId) (t : Tree) :
    Behaves watch (ids.forM (runChild watch g resolve p)) t
      (fun events _ t' => Runs g levels (.search p ids) t events [] t')
      (fun events e => Stops g levels (.search p ids) t events e) := by
  induction ids generalizing t with
  | nil => exact .pure .searchNil
  | cons id ids ih =>
    -- whether a rule searches is told by the state when its turn comes
    cases h : g.searcher? (t.node p).localState id with
    | none =>
      have hskip : Behaves watch (runChild watch g resolve p id) t
          (fun events _ t' => events = [] ∧ t' = t) (fun _ _ => False) :=
        .of_silent (runChild_of_searcher?_eq_none h) ⟨rfl, rfl⟩
      refine hskip.bind ?_ fun _ _ => False.elim
      rintro _ _ _ ⟨rfl, rfl⟩
      exact (ih _).mono (fun _ _ _ => .searchSkip h) fun _ _ => .searchSkip h
    | some searcher =>
      have hpass := (behaves_pass hresolve p searcher.1 searcher.2 t).congr
        (runChild_of_searcher?_eq_some h)
      refine hpass.bind ?_ ?_
      · rintro _ _ _ ⟨inner, edits, t₁, rfl, hinner, rfl⟩
        exact (ih _).mono (fun _ _ _ hrest => .searchPass h hinner hrest)
          fun _ _ hrest => .searchLater h hinner hrest
      · rintro _ _ ⟨inner, rfl, hinner⟩
        exact .searchPass h hinner

/-- A node calls its hooks before and behind the searches below it. -/
theorem behaves_resolveNode {levels : Nat} {resolve : Resolver ω}
    (hresolve : ResolvesOn watch g levels resolve) (id : NodeId) (rule : Rule) (t : Tree) :
    Behaves watch (resolveNode watch g resolve id rule) t
      (fun events _ t' => Runs g levels (.node id rule) t events [] t')
      (fun events e => Stops g levels (.node id rule) t events e) := by
  have hcapture : Behaves watch (capture watch rule id) t
      (fun events _ t' => ∃ text t₁, events = [.call rule .capture ⟨t, id⟩] ∧
        rule.hooks.onCapture.Succeeds ⟨t, id⟩ text t₁ ∧ t' = t₁.setModified id text)
      (fun events e => Stops g levels (.node id rule) t events e) := by
    unfold capture
    refine (behaves_runHook rule .capture id _ t).bind ?_ ?_
    · rintro _ text t₁ ⟨rfl, h⟩
      exact .of_silent (fun _ => rfl) ⟨text, t₁, rfl, h, rfl⟩
    · rintro _ _ ⟨rfl, message, h, rfl⟩
      exact .nodeCapture h
  unfold resolveNode
  refine hcapture.bind ?_ fun _ _ h => h
  rintro _ _ _ ⟨text, t₁, rfl, hcapture, rfl⟩
  refine (behaves_runChildren hresolve id rule.children _).bind (fun events _ t₂ hsearch => ?_)
    fun _ _ h => .nodeSearch hcapture h
  -- the children are put in order before the last hook is called
  have hfinish : Behaves watch (finish watch rule id) t₂
      (fun later _ t₃ => later = [.call rule .resolve ⟨t₂.linkChildren id, id⟩] ∧
        rule.hooks.onResolve.Succeeds ⟨t₂.linkChildren id, id⟩ () t₃)
      (fun later e => later = [.call rule .resolve ⟨t₂.linkChildren id, id⟩] ∧
        ∃ message, rule.hooks.onResolve.Fails ⟨t₂.linkChildren id, id⟩ message ∧
          e = .hook rule.name .resolve message) :=
    behaves_runHook rule .resolve id _ (t₂.linkChildren id)
  refine hfinish.mono ?_ ?_
  · rintro _ _ t₃ ⟨rfl, hresolve⟩
    exact .node hcapture hsearch hresolve
  · rintro _ _ ⟨rfl, message, hresolve, rfl⟩
    exact .nodeResolve hcapture hsearch hresolve

/-- A match is resolved on a level as long as there is one left. -/
theorem resolvesOn_resolveMatch (levels : Nat) :
    ResolvesOn watch g levels (resolveMatch watch g levels) := by
  induction levels with
  | zero => exact fun p child m t => .throw .resolveLimit
  | succ levels ih =>
    intro p child m t
    unfold resolveMatch
    -- a node is created without an event, and without a way to fail
    have hopen : Behaves watch (openNode p child m) t
        (fun events id t' => events = [] ∧ id = t.size ∧ t' = addMatch t p child m)
        (fun _ _ => False) :=
      .of_silent (fun _ => rfl) ⟨rfl, rfl, rfl⟩
    refine hopen.bind ?_ fun _ _ => False.elim
    rintro _ _ _ ⟨rfl, rfl, rfl⟩
    refine (behaves_resolveNode ih t.size child _).bind (fun events _ t₁ hnode => ?_)
      fun _ _ h => .resolveNode h
    refine (behaves_runHook child .substitute t.size _ t₁).mono ?_ ?_
    · rintro _ text t₂ ⟨rfl, hsubstitute⟩
      exact .resolveCons hnode hsubstitute .resolveNil
    · rintro _ _ ⟨rfl, message, hsubstitute, rfl⟩
      exact .resolveSubstitute hnode hsubstitute

/-- A parse is what resolving the root makes of the tree that it starts from. -/
theorem watchedRun_eq (watch : Watcher ω) (g : Grammar) (rule : Rule) (input : Text)
    (seed : State) (record : ω) :
    watchedRun watch g rule input seed record =
      ((outcome (resolveNode watch g (resolveMatch watch g maxDepth) Tree.root rule)
          (startTree rule input seed) record).1.map Prod.snd,
        (outcome (resolveNode watch g (resolveMatch watch g maxDepth) Tree.root rule)
          (startTree rule input seed) record).2) := rfl

/-- A parse has a derivation, whoever watches it. -/
theorem watchedRun_behaves (watch : Watcher ω) (g : Grammar) (rule : Rule) (input : Text)
    (seed : State) (record : ω) :
    ∃ events, (watchedRun watch g rule input seed record).2 =
        events.foldl (fun r e => watch e r) record ∧
      match (watchedRun watch g rule input seed record).1 with
      | .ok t => Runs g maxDepth (.node Tree.root rule) (startTree rule input seed) events [] t
      | .error e =>
        Stops g maxDepth (.node Tree.root rule) (startTree rule input seed) events e := by
  have hresolve : ResolvesOn watch g maxDepth (resolveMatch watch g maxDepth) :=
    resolvesOn_resolveMatch maxDepth
  obtain ⟨events, hevents, hres⟩ :=
    behaves_resolveNode hresolve Tree.root rule (startTree rule input seed) record
  rw [watchedRun_eq]
  refine ⟨events, hevents, ?_⟩
  -- a parse drops the result of its outermost part and keeps the tree
  revert hres
  generalize (outcome _ _ record).1 = result
  intro hres
  cases result with
  | error e => exact hres
  | ok result => exact hres

/-- A parse that succeeds has a derivation. -/
theorem runs_of_run {rule : Rule} {input : Text} {seed : State} {t : Tree}
    (h : run g rule input seed = .ok t) :
    ∃ events, Runs g maxDepth (.node Tree.root rule) (startTree rule input seed) events [] t := by
  obtain ⟨events, -, hres⟩ := watchedRun_behaves (fun _ record => record) g rule input seed ()
  unfold run at h
  rw [h] at hres
  exact ⟨events, hres⟩

/-- The record that keeps all events has them in order. -/
private theorem foldl_record (events earlier : List Event) :
    events.foldl (fun r e => r ++ [e]) earlier = earlier ++ events := by
  induction events generalizing earlier with
  | nil => simp
  | cons e events ih => simp [ih]

/-- A parse that succeeds has a derivation with the events of its history. -/
theorem runs_of_history {rule : Rule} {input : Text} {seed : State} {t : Tree}
    {events : List Event} (h : history g rule input seed = (.ok t, events)) :
    Runs g maxDepth (.node Tree.root rule) (startTree rule input seed) events [] t := by
  obtain ⟨events', hevents, hres⟩ :=
    watchedRun_behaves (fun e events => events ++ [e]) g rule input seed []
  unfold history at h
  rw [h] at hevents hres
  rw [foldl_record, List.nil_append] at hevents
  simp only at hevents hres
  exact hevents ▸ hres

/-- A parse that fails has a derivation with the events of its history. -/
theorem stops_of_history {rule : Rule} {input : Text} {seed : State} {e : ParseError}
    {events : List Event} (h : history g rule input seed = (.error e, events)) :
    Stops g maxDepth (.node Tree.root rule) (startTree rule input seed) events e := by
  obtain ⟨events', hevents, hres⟩ :=
    watchedRun_behaves (fun e events => events ++ [e]) g rule input seed []
  unfold history at h
  rw [h] at hevents hres
  rw [foldl_record, List.nil_append] at hevents
  simp only at hevents hres
  exact hevents ▸ hres

end Engine

end Cascade
