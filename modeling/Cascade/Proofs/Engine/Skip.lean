import Cascade.Proofs.Engine.Buffer
import Cascade.Proofs.Engine.Freeze

/-!
# When rules are skipped

A node keeps a rule from matching below it by its state. The engine reads the state once when the
turn of the rule comes, and not before each match of the rule. This makes no difference: while the
matches below a node are resolved, no hook is called for the node, and no other can change its
state. For the same reason the state that counts is the one that the hook which captured the node
has left, and the states of other nodes have no influence.

* `runPerMatch`: the engine that asks before each match whether it is to be skipped.
* `AgreeAt`: parts of a parse that come to the same result in a tree.
* `runPerMatch_eq`: both engines come to the same result.
* `SkippedBy`: what decides which rules are skipped below a node.
* `skips_of_history`: both engines come to the same result, and in it the state that a node is
  captured with decides.
-/

namespace Cascade

namespace Tree

/-- Setting the working text to what it is changes nothing. -/
theorem setWorking_working (t : Tree) (id : NodeId) : t.setWorking id (t.node id).working = t := by
  have hnodes :
      t.nodes.modify id (fun n => { n with working := (t.node id).working }) = t.nodes := by
    refine Array.ext (by simp) fun i hi hi' => ?_
    rw [Array.getElem_modify]
    split
    · next hid =>
      subst hid
      simp [node, node?, hi']
    · rfl
  exact congrArg (fun nodes => { t with nodes }) hnodes

end Tree

namespace Engine

open List (forall_mem_append forall_mem_cons forall_mem_nil forall_mem_singleton)
open Cascade.Tree ParseM

variable {ω α β : Type}

/-! ## The engine that asks before each match -/

section

variable (watch : Watcher ω)

/-- Resolves matches one after the other, and leaves those as they stand before which the state of
the parent skips the rule. -/
def resolveUnskipped (resolve : Resolver ω) (parent : NodeId) (rule : Rule) :
    List Match → ParseM ω (List (Span × Text))
  | [] => return []
  | m :: rest => do
    if ((← get).node parent).localState.skips rule.name then
      resolveUnskipped resolve parent rule rest
    else
      let replacement ← resolve parent rule m
      return (m.span, replacement) :: (← resolveUnskipped resolve parent rule rest)

/-- Lets a child rule search the working text of a node, and replaces each match that is not
skipped. -/
def passPerMatch (resolve : Resolver ω) (parent : NodeId) (child : Rule) (pattern : Pattern) :
    ParseM ω Unit := do
  let text := ((← get).node parent).working
  tell watch (.search parent child pattern text)
  let edits ← resolveUnskipped resolve parent child (pattern.scan text)
  modify fun t => t.setWorking parent (text.splice edits)

/-- Lets the rule with a number search the working text of a node, unless it has no pattern. If
`early`, the state of the node is asked before the search too. -/
def runChildPerMatch (early : Bool) (g : Grammar) (resolve : Resolver ω) (parent : NodeId)
    (id : RuleId) : ParseM ω Unit := do
  match g.ruleAt? id with
  | none => return
  | some child =>
    match child.pattern? with
    | none => return
    | some pattern =>
      if early && ((← get).node parent).localState.skips child.name then return
      passPerMatch watch resolve parent child pattern

/-- Resolves all matches below a node that has just been created. -/
def resolveNodePerMatch (early : Bool) (g : Grammar) (resolve : Resolver ω) (id : NodeId)
    (rule : Rule) : ParseM ω Unit := do
  capture watch rule id
  rule.children.forM (runChildPerMatch watch early g resolve id)
  finish watch rule id

/-- Resolves a match and all matches below it. -/
def resolveMatchPerMatch (early : Bool) (g : Grammar) : (levels : Nat) → Resolver ω
  | 0, _, rule, _ => throw (.recursionLimit rule.name maxDepth)
  | levels + 1, parent, rule, m => do
    let id ← openNode parent rule m
    resolveNodePerMatch watch early g (resolveMatchPerMatch early g levels) id rule
    runHook watch rule .substitute id rule.hooks.onSubstitute

end

/-- The tree of an input as `run` gives it, but with the state of a node asked before each match
below it. -/
def runPerMatch (early : Bool) (g : Grammar) (rule : Rule) (input : Text) (seed : State) :
    Except ParseError Tree :=
  let watch : Watcher Unit := fun _ record => record
  (outcome (resolveNodePerMatch watch early g (resolveMatchPerMatch watch early g maxDepth)
    root rule) (startTree rule input seed) ()).1.map Prod.snd

/-! ## Parts that come to the same result -/

/-- Two parts of a parse come to the same result in a tree, whatever has been recorded. -/
def AgreeAt (t : Tree) (x y : ParseM ω α) : Prop :=
  ∀ record record', (x.outcome t record).1 = (y.outcome t record').1

variable {watch : Watcher ω} {g : Grammar} {levels : Nat} {resolve resolve' : Resolver ω}
  {early : Bool} {p : NodeId} {t : Tree} {child : Rule} {pattern : Pattern}

/-- The second parts have to agree in the trees only to which the first ones lead. -/
theorem AgreeAt.bind {x y : ParseM ω α} {f f' : α → ParseM ω β} (h : AgreeAt t x y)
    (hf : ∀ a t' record record', x.outcome t record = (.ok (a, t'), record') →
      AgreeAt t' (f a) (f' a)) : AgreeAt t (x >>= f) (y >>= f') := by
  intro record record'
  have hxy := h record record'
  rw [outcome_bind, outcome_bind]
  rcases hx : x.outcome t record with ⟨_ | ⟨a, t'⟩, r⟩ <;>
    rcases hy : y.outcome t record' with ⟨_ | ⟨a', t''⟩, r'⟩ <;> rw [hx, hy] at hxy <;> cases hxy
  · rfl
  · exact hf a t' _ _ hx r r'

/-- What a hook does has nothing to do with what has been recorded. -/
theorem agreeAt_runHook (t : Tree) (rule : Rule) (stage : Stage) (id : NodeId) (hook : HookM α) :
    AgreeAt t (runHook watch rule stage id hook) (runHook watch rule stage id hook) := by
  unfold runHook
  refine .bind (fun _ _ => rfl) fun t _ _ _ _ => .bind (fun _ _ => rfl) fun _ _ _ _ _ => ?_
  split
  · exact fun _ _ => rfl
  · exact fun _ _ => rfl

/-- Resolvers that agree in all trees that have the parent. -/
def AgreeingResolvers (resolve resolve' : Resolver ω) : Prop :=
  ∀ p child m t, p < t.size → AgreeAt t (resolve p child m) (resolve' p child m)

/-- A match that has been resolved leaves the parent there, with the state of its own. -/
theorem localState_of_resolve (hresolve : ResolvesOn watch g levels resolve) (hp : p < t.size)
    {m : Match} {text : Text} {t' : Tree} {record record' : ω}
    (h : (resolve p child m).outcome t record = (.ok (text, t'), record')) :
    p < t'.size ∧ (t'.node p).localState = (t.node p).localState := by
  obtain ⟨events, -, hres⟩ := hresolve p child m t record
  rw [h] at hres
  have hruns : Runs g levels (.resolve p child [m]) t events [(m.span, text)] t' := hres
  have hframe : Frame p Node.childless t t' := hruns.frame ⟨hp, trivial⟩
  have hown := congrArg Node.localState hframe.mask_eq
  exact ⟨hp.trans_le hframe.size_le, hown⟩

/-- Where the rule is skipped, nothing is resolved. -/
theorem resolveUnskipped_of_skips (hskips : (t.node p).localState.skips child.name = true)
    (found : List Match) (record : ω) :
    (resolveUnskipped resolve' p child found).outcome t record = (.ok ([], t), record) := by
  induction found with
  | nil => rfl
  | cons m found ih => simp [resolveUnskipped, outcome_bind, hskips, ih]

/-- Where the rule is not skipped before the first match, it is not skipped before any. -/
theorem agreeAt_resolveUnskipped (hresolve : ResolvesOn watch g levels resolve)
    (hagree : AgreeingResolvers resolve resolve') (hp : p < t.size)
    (hskips : (t.node p).localState.skips child.name = false) (found : List Match) :
    AgreeAt t (resolveAll resolve p child found) (resolveUnskipped resolve' p child found) := by
  induction found generalizing t with
  | nil => exact fun _ _ => rfl
  | cons m found ih =>
    have hask (record : ω) : (resolveUnskipped resolve' p child (m :: found)).outcome t record =
        ((resolve' p child m) >>= fun replacement =>
          (resolveUnskipped resolve' p child found) >>= fun edits =>
            pure ((m.span, replacement) :: edits)).outcome t record := by
      simp [resolveUnskipped, outcome_bind, hskips]
    have hnext : AgreeAt t (resolveAll resolve p child (m :: found))
        ((resolve' p child m) >>= fun replacement =>
          (resolveUnskipped resolve' p child found) >>= fun edits =>
            pure ((m.span, replacement) :: edits)) := by
      refine .bind (hagree p child m t hp) fun text t' record record' hm => ?_
      obtain ⟨hp', hown⟩ := localState_of_resolve hresolve hp hm
      exact .bind (ih hp' (hown ▸ hskips)) fun _ _ _ _ _ _ _ => rfl
    intro record record'
    rw [hnext record record', hask]

/-- A pass in which all matches are skipped leaves the tree as it is. -/
theorem passPerMatch_of_skips (hskips : (t.node p).localState.skips child.name = true)
    (record : ω) : (passPerMatch watch resolve' p child pattern).outcome t record =
      (.ok ((), t), watch (.search p child pattern (t.node p).working) record) := by
  simp only [passPerMatch, outcome_bind, outcome_get, outcome_tell, outcome_modify,
    resolveUnskipped_of_skips hskips, Text.splice_nil, setWorking_working]

/-- Where the rule is not skipped at the start of a pass, asking before each match changes nothing.
-/
theorem agreeAt_passPerMatch (hresolve : ResolvesOn watch g levels resolve)
    (hagree : AgreeingResolvers resolve resolve') (hp : p < t.size)
    (hskips : (t.node p).localState.skips child.name = false) :
    AgreeAt t (pass watch resolve p child pattern)
      (passPerMatch watch resolve' p child pattern) := by
  unfold pass passPerMatch
  refine .bind (fun _ _ => rfl) fun text t' _ _ htext => ?_
  obtain ⟨⟨rfl, rfl⟩, -⟩ : (t = text ∧ t = t') ∧ _ := by simpa using htext
  refine .bind (fun _ _ => rfl) fun _ t' _ _ htell => ?_
  obtain ⟨rfl, -⟩ : t = t' ∧ _ := by simpa using htell
  exact .bind (agreeAt_resolveUnskipped hresolve hagree hp hskips _) fun _ _ _ _ _ _ _ => rfl

/-- It makes no difference for a rule when the state of the parent is asked. -/
theorem agreeAt_runChildPerMatch (hresolve : ResolvesOn watch g levels resolve)
    (hagree : AgreeingResolvers resolve resolve') (hp : p < t.size) (id : RuleId) :
    AgreeAt t (runChild watch g resolve p id) (runChildPerMatch watch early g resolve' p id) := by
  unfold runChild runChildPerMatch
  intro record record'
  cases g.ruleAt? id with
  | none => rfl
  | some child =>
    cases hpattern : child.pattern? with
    | none => simp [hpattern]
    | some pattern =>
      cases hskips : (t.node p).localState.skips child.name with
      | false =>
        have hpass : AgreeAt t (pass watch resolve p child pattern)
            (passPerMatch watch resolve' p child pattern) :=
          agreeAt_passPerMatch hresolve hagree hp hskips
        simpa [hpattern, outcome_bind, hskips] using hpass record record'
      | true => cases early <;> simp [hpattern, outcome_bind, hskips, passPerMatch_of_skips]

/-- When the turn of a rule is over, the node is still there. -/
theorem lt_size_of_runChild (hresolve : ResolvesOn watch g levels resolve) (hp : p < t.size)
    {id : RuleId} {t' : Tree} {record record' : ω}
    (h : (runChild watch g resolve p id).outcome t record = (.ok ((), t'), record')) :
    p < t'.size := by
  have hone : ([id].forM (runChild watch g resolve p)).outcome t record =
      (.ok ((), t'), record') := by
    simp [h]
  obtain ⟨events, -, hres⟩ := behaves_runChildren hresolve p [id] t record
  rw [hone] at hres
  have hruns : Runs g levels (.search p [id]) t events [] t' := hres
  exact hp.trans_le (hruns.frame ⟨hp, trivial⟩).size_le

/-- The rules below a node do the same, whether they ask once or before each match. -/
theorem agreeAt_runChildrenPerMatch (hresolve : ResolvesOn watch g levels resolve)
    (hagree : AgreeingResolvers resolve resolve') (hp : p < t.size) (ids : List RuleId) :
    AgreeAt t (ids.forM (runChild watch g resolve p))
      (ids.forM (runChildPerMatch watch early g resolve' p)) := by
  induction ids generalizing t with
  | nil => exact fun _ _ => rfl
  | cons id ids ih =>
    refine .bind (agreeAt_runChildPerMatch hresolve hagree hp id) fun _ t' _ _ h => ?_
    exact ih (lt_size_of_runChild hresolve hp h)

theorem size_of_capture {rule : Rule} {id : NodeId} {t' : Tree} {record record' : ω}
    (h : (capture watch rule id).outcome t record = (.ok ((), t'), record')) :
    t'.size = t.size := by
  have hcapture : Behaves watch (capture watch rule id) t (fun _ _ t' => t'.size = t.size)
      fun _ _ => True := by
    unfold capture
    refine (behaves_runHook rule .capture id _ t).bind ?_ fun _ _ _ => trivial
    rintro _ text t₁ ⟨rfl, states, -, rfl⟩
    exact .of_silent (fun _ => rfl) (by simp)
  obtain ⟨events, -, hres⟩ := hcapture record
  rw [h] at hres
  exact hres

/-- A node is resolved the same, whether its rules ask once or before each match. -/
theorem agreeAt_resolveNodePerMatch (hresolve : ResolvesOn watch g levels resolve)
    (hagree : AgreeingResolvers resolve resolve') {id : NodeId} (hid : id < t.size) (rule : Rule) :
    AgreeAt t (resolveNode watch g resolve id rule)
      (resolveNodePerMatch watch early g resolve' id rule) := by
  have hcapture : AgreeAt t (capture watch rule id) (capture watch rule id) :=
    .bind (agreeAt_runHook _ _ _ _ _) fun _ _ _ _ _ _ _ => rfl
  have hfinish (t : Tree) : AgreeAt t (finish watch rule id) (finish watch rule id) :=
    .bind (fun _ _ => rfl) fun _ _ _ _ _ => agreeAt_runHook _ _ _ _ _
  refine .bind hcapture fun _ t' _ _ h => ?_
  have hid' : id < t'.size := by rwa [size_of_capture h]
  exact .bind (agreeAt_runChildrenPerMatch hresolve hagree hid' rule.children)
    fun _ t'' _ _ _ => hfinish t''

/-- On each level, matches are resolved the same, whether rules ask once or before each match. -/
theorem agreeingResolvers_resolveMatchPerMatch (levels : Nat) :
    AgreeingResolvers (resolveMatch watch g levels)
      (resolveMatchPerMatch watch early g levels) := by
  induction levels with
  | zero => exact fun _ _ _ _ _ _ _ => rfl
  | succ levels ih =>
    intro p child m t hp
    unfold resolveMatch resolveMatchPerMatch
    refine .bind (fun _ _ => rfl) fun id t' record record' hopen => ?_
    have hadded : (openNode p child m).outcome t record =
        (.ok (t.size, addMatch t p child m), record) := rfl
    obtain ⟨⟨rfl, rfl⟩, -⟩ : (t.size = id ∧ addMatch t p child m = t') ∧ _ := by
      simpa [hadded] using hopen
    have hid : t.size < (addMatch t p child m).size := by simp
    exact .bind (agreeAt_resolveNodePerMatch (resolvesOn_resolveMatch levels) ih hid child)
      fun _ t' _ _ _ => agreeAt_runHook t' child .substitute t.size _

/-- The engine that asks the state of a node before each match below it comes to the same result. -/
theorem runPerMatch_eq (early : Bool) (g : Grammar) (rule : Rule) (input : Text) (seed : State) :
    runPerMatch early g rule input seed = run g rule input seed := by
  have hroot : root < (startTree rule input seed).size := Nat.zero_lt_one
  rw [run, watchedRun_eq, runPerMatch]
  exact congrArg (Except.map Prod.snd) (agreeAt_resolveNodePerMatch
    (resolvesOn_resolveMatch maxDepth) (agreeingResolvers_resolveMatchPerMatch maxDepth) hroot rule
    () ()).symm

/-! ## What is found below a node -/

/-- The state of a node has no entries when the node is captured. -/
def CapturesFresh : Event → Prop
  | .call _ .capture v => v.node.localState = .empty
  | _ => True

variable {task : Task} {events : List Event} {edits : List (Span × Text)} {t' : Tree}

/-- A node that is to be resolved has no entries in its state yet. -/
def Task.Fresh (t : Tree) : Task → Prop
  | node id _ => (t.node id).localState = .empty
  | _ => True

/-- Hooks that capture see nodes whose state has no entries yet. -/
theorem Runs.capturesFresh (h : Runs g levels task t events edits t') (hready : task.Ready t)
    (hfresh : task.Fresh t) : ∀ e ∈ events, CapturesFresh e := by
  induction h with
  | @node levels id rule t t₁ t₂ t₃ text events hcapture hsearch hresolve ih =>
    obtain ⟨s, -, rfl⟩ := hcapture
    exact forall_mem_cons.2 ⟨hfresh, forall_mem_append.2
      ⟨ih (Task.ready_setModified hready.1) trivial, forall_mem_singleton.2 trivial⟩⟩
  | searchNil => exact forall_mem_nil _
  | searchSkip _ _ ih => exact ih hready trivial
  | searchPass _ hresolve _ ih ih' =>
    have hp := hready.1.trans_le (hresolve.frame ⟨hready.1, trivial⟩).size_le
    exact forall_mem_cons.2 ⟨trivial, forall_mem_append.2
      ⟨ih ⟨hready.1, trivial⟩ trivial, ih' (Task.ready_setWorking hp) trivial⟩⟩
  | resolveNil => exact forall_mem_nil _
  | @resolveCons levels p child m found t t₁ t₂ t₃ replacement events later edits hnode hsubstitute
      _ ih ih' =>
    obtain ⟨hp, -⟩ : p < t.size ∧ True := hready
    have hadded : (Task.node t.size child).Fresh (addMatch t p child m) := by
      rw [Task.Fresh, node_addMatch hp, if_pos rfl]
      rfl
    have hp₂ : p < t₂.size := lt_size_of_match hnode hp hsubstitute
    exact forall_mem_append.2 ⟨ih (Task.ready_addMatch hp) hadded,
      forall_mem_cons.2 ⟨trivial, ih' ⟨hp₂, trivial⟩ trivial⟩⟩

/-- What decides which rules are skipped below the node `p` of a tree that a parse returns: the
state `own`, and nothing else. -/
structure SkippedBy (g : Grammar) (t : Tree) (events : List Event) (p : NodeId) (r : Rule)
    (own : State) : Prop where
  /-- The hook that captures the node is called once, finds a state without entries, and leaves
  `own`. -/
  captured : ∃ v text t₁, v.id = p ∧ .call r .capture v ∈ events ∧ v.node.localState = .empty ∧
    r.hooks.onCapture.Succeeds v text t₁ ∧ own = (t₁.node p).localState ∧
    ∀ e ∈ events, e.call? = some (.capture, p) → e = .call r .capture v
  /-- No child is of a rule that is skipped. -/
  skips_eq : ∀ i ∈ (t.node p).children, own.skips (t.node i).rule.name = false
  /-- All rules search that are not skipped, and all that they find are children. -/
  searches : ∃ ids text, ids.Perm (t.node p).children ∧ ids.Pairwise (· < ·) ∧
    Searches t events p (r.children.filterMap (g.searcher? own)) text ids (t.node p).working

theorem exists_isMatch_of_searches {searchers : List (Rule × Pattern)} {before after : Text}
    {ids : List NodeId} (h : Searches t events p searchers before ids after) {i : NodeId}
    (hi : i ∈ ids) : ∃ searcher ∈ searchers, ∃ m, t.IsMatch searcher.1 i m := by
  induction h with
  | nil => contradiction
  | cons _ hmatches _ _ ih =>
    rcases List.mem_append.1 hi with hi | hi
    · obtain ⟨m, -, hm⟩ := exists_of_mem_left hmatches hi
      exact ⟨_, List.mem_cons_self, m, hm⟩
    · obtain ⟨searcher, hsearcher, hm⟩ := ih hi
      exact ⟨searcher, List.mem_cons_of_mem _ hsearcher, hm⟩

/-- What is found below a node is found by rules that are not skipped. -/
theorem skippedBy_of_arises {r : Rule} (harises : Arises g t events r p (t.node p))
    (hnodup : (Engine.calls events).Nodup) (hfresh : ∀ e ∈ events, CapturesFresh e) :
    ∃ own, SkippedBy g t events p r own := by
  obtain ⟨own, ids, ⟨tree, t₁, hcall, -, hcapture, rfl⟩, hperm, hsorted, hsearches⟩ := harises
  refine ⟨(t₁.node p).localState, ⟨⟨tree, p⟩, _, t₁, rfl, hcall, hfresh _ hcall, hcapture, rfl,
    fun e he hecall => eq_of_call? hnodup he hcall hecall rfl⟩, fun i hi => ?_,
    ids, _, hperm, hsorted, hsearches⟩
  obtain ⟨searcher, hsearcher, m, hm⟩ := exists_isMatch_of_searches hsearches (hperm.mem_iff.2 hi)
  obtain ⟨id, -, hid⟩ := List.mem_filterMap.1 hsearcher
  rw [hm.rule_eq]
  exact Grammar.skips_of_searcher? hid

/-- It makes no difference whether the state of a node is asked before each match below it or once
when the turn of a rule comes. In a tree that a parse returns, no child of a node is of a rule that
is skipped by the state with which the hook has left the node that captured it, and all matches of
all other rules are children, whatever the states of other nodes are. -/
theorem skips_of_history (g : Grammar) (rule : Rule) (input : Text) (seed : State) :
    (∀ early, runPerMatch early g rule input seed = run g rule input seed) ∧
    ∀ t events, history g rule input seed = (.ok t, events) → ∀ p < t.size,
      ∃ r own, (p = root ∧ r = rule ∨ r ∈ g.rules) ∧ r.ref = (t.node p).rule ∧
        SkippedBy g t events p r own := by
  refine ⟨fun early => runPerMatch_eq early g rule input seed, fun t events h p hp => ?_⟩
  have hruns := runs_of_history h
  have hfresh := hruns.capturesFresh ⟨Nat.zero_lt_one, rfl⟩ rfl
  obtain ⟨r, hr, href, harises⟩ := hruns.arises p hp
  obtain ⟨own, hskipped⟩ := skippedBy_of_arises harises (nodup_calls h) hfresh
  exact ⟨r, own, hr, href, hskipped⟩

/-- The hooks that keep the matched text, and keep the inner rule from matching below the node. -/
def skippingInner : Hooks :=
  { Hooks.identity with
    onCapture := do
      HookM.skipRule ['v']
      Hooks.keepText }

/-- The root skips the inner rule, which has a match below the other node nevertheless. If that one
skips it too, it has none. -/
theorem skips_of_history_ofNested :
    (∃ t events, history (.ofNested ['a', 'b'] ['b'] skippingInner .identity .identity)
        (Grammar.ofNested ['a', 'b'] ['b'] skippingInner .identity .identity).root
        ['x', 'a', 'b'] .empty = (.ok t, events) ∧ t.size = 3 ∧
      (t.node root).localState.skips ['v'] = true ∧ (t.node 2).rule.name = ['v'] ∧
      ∃ r own, r.ref = (t.node 1).rule ∧
        SkippedBy (.ofNested ['a', 'b'] ['b'] skippingInner .identity .identity) t events 1 r own) ∧
    ∃ t events, history (.ofNested ['a', 'b'] ['b'] .identity skippingInner .identity)
        (Grammar.ofNested ['a', 'b'] ['b'] .identity skippingInner .identity).root
        ['x', 'a', 'b'] .empty = (.ok t, events) ∧ t.size = 2 ∧
      runPerMatch true (.ofNested ['a', 'b'] ['b'] .identity skippingInner .identity)
        (Grammar.ofNested ['a', 'b'] ['b'] .identity skippingInner .identity).root
        ['x', 'a', 'b'] .empty = .ok t := by
  obtain ⟨-, hnodes⟩ := skips_of_history
    (.ofNested ['a', 'b'] ['b'] skippingInner .identity .identity)
    (Grammar.ofNested ['a', 'b'] ['b'] skippingInner .identity .identity).root
    ['x', 'a', 'b'] .empty
  obtain ⟨heq, -⟩ := skips_of_history
    (.ofNested ['a', 'b'] ['b'] .identity skippingInner .identity)
    (Grammar.ofNested ['a', 'b'] ['b'] .identity skippingInner .identity).root
    ['x', 'a', 'b'] .empty
  obtain ⟨r, own, -, href, hskipped⟩ := hnodes _ _ rfl 1 (by decide)
  exact ⟨⟨_, _, rfl, rfl, rfl, rfl, r, own, href, hskipped⟩, _, _, rfl, rfl, heq true⟩

end Engine

end Cascade
