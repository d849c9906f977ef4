import Cascade.Proofs.Engine.Adequacy
import Mathlib.Data.List.Forall2

/-!
# Two parses side by side

Two parses may start from different rules of different grammars, and with different states. They end
alike if there are relations between their rules and between their trees such that the engine reads
the same of related trees, each of its steps keeps trees related, and so do the hooks of related
rules.

* `Alike`: two computations with the same error or with related results.
* `linkChildren_comm`: changes of trees that do not interfere with putting children in order.
* `Simulation`: what is asked of the relations.
* `Simulation.alike_watchedRun`: parses that start from related rules and related trees end alike.
* `history_fst`: a parse gives the same result whether it is watched or not.
-/

namespace Cascade

/-- Both fail with the same error, or both succeed, and the results are related. -/
inductive Alike {ε α β : Type} (R : α → β → Prop) : Except ε α → Except ε β → Prop
  | error (e : ε) : Alike R (.error e) (.error e)
  | ok {a : α} {b : β} : R a b → Alike R (.ok a) (.ok b)

namespace Alike

variable {ε α β : Type} {R R' : α → β → Prop} {x : Except ε α} {y : Except ε β}

/-- A result is like itself. -/
theorem refl {R : α → α → Prop} (h : ∀ a, R a a) (x : Except ε α) : Alike R x x := by
  cases x with
  | error e => exact .error e
  | ok a => exact .ok (h a)

/-- Results that are alike by equality are equal. -/
theorem eq {x y : Except ε α} (h : Alike (· = ·) x y) : x = y := by
  cases h with
  | error e => rfl
  | ok hab => exact congrArg Except.ok hab

/-- Results that are alike stay so in a weaker relation. -/
theorem mono (h : Alike R x y) (hle : ∀ a b, x = .ok a → y = .ok b → R a b → R' a b) :
    Alike R' x y := by
  cases h with
  | error e => exact .error e
  | ok hab => exact .ok (hle _ _ rfl rfl hab)

/-- A result is like another one that is there. -/
theorem exists_ok {a : α} (h : Alike R (.ok a) y) : ∃ b, y = .ok b ∧ R a b := by
  cases h with
  | ok hab => exact ⟨_, rfl, hab⟩

/-- Results that are alike by a function are images by it. -/
theorem eq_map {f : α → β} (h : Alike (fun a b => b = f a) x y) : y = x.map f := by
  cases h with
  | error e => rfl
  | ok hab => exact congrArg Except.ok hab

end Alike

namespace Tree

variable {t t' : Tree}

/-- The order of children depends on where they start. -/
theorem sortByStart_congr (h : ∀ i, (t.node i).span = (t'.node i).span) (ids : List NodeId) :
    t.sortByStart ids = t'.sortByStart ids := by
  have hinsert (id : NodeId) (ids : List NodeId) :
      t.insertByStart id ids = t'.insertByStart id ids := by
    induction ids with
    | nil => rfl
    | cons other rest ih => rw [insertByStart, insertByStart, ih, h, h]
  simp only [sortByStart, funext₂ hinsert]

/-- A change of trees that keeps where nodes start and which children they have may as well be made
before the children of a node are put in order, if it does not interfere with links. -/
theorem linkChildren_comm {φ : Tree → Tree}
    (hnode : ∀ t i, ((φ t).node i).span = (t.node i).span ∧
      ((φ t).node i).children = (t.node i).children)
    (hlink : ∀ t i previous? next?,
      φ (t.update i fun n => { n with previous?, next? }) =
        (φ t).update i fun n => { n with previous?, next? })
    (hset : ∀ t i children,
      φ (t.update i fun n => { n with children }) = (φ t).update i fun n => { n with children })
    (t : Tree) (id : NodeId) : φ (t.linkChildren id) = (φ t).linkChildren id := by
  have hfrom (ids : List NodeId) (t : Tree) (previous? : Option NodeId) :
      φ (linkFrom previous? ids t) = linkFrom previous? ids (φ t) := by
    induction ids generalizing t previous? with
    | nil => rfl
    | cons id ids ih => rw [linkFrom, linkFrom, ih, hlink]
  simp only [linkChildren]
  rw [hset, hfrom, (hnode t id).2, sortByStart_congr fun i => (hnode t i).1]

end Tree

namespace Engine

open ParseM

variable {ω ω' α β : Type}

/-- What comes of a hook that is called for a node in two trees: the same text for a failure, or the
same result, and then related trees with the states as they have been left. -/
def HooksAlike (R : Tree → Tree → Prop) (t t' : Tree) (id : NodeId) (hook hook' : HookM α) : Prop :=
  Alike (fun r r' => r.1 = r'.1 ∧ R (View.withStates ⟨t, id⟩ r.2) (View.withStates ⟨t', id⟩ r'.2))
    ((hook.run ⟨t, id⟩).run (View.states ⟨t, id⟩)) ((hook'.run ⟨t', id⟩).run (View.states ⟨t', id⟩))

/-- Relations between the rules and between the trees of two parses, which both keep. -/
structure Simulation (g g' : Grammar) where
  /-- Which rules take the place of each other. -/
  rules : Rule → Rule → Prop
  /-- Which trees take the place of each other. -/
  trees : Tree → Tree → Prop
  name_eq {r r' : Rule} : rules r r' → r.name = r'.name
  pattern_eq {r r' : Rule} : rules r r' → r.pattern? = r'.pattern?
  children {r r' : Rule} : rules r r' →
    List.Forall₂ (fun id id' => Option.Rel rules (g.ruleAt? id) (g'.ruleAt? id')) r.children
      r'.children
  onCapture {r r' : Rule} {t t' : Tree} (id : NodeId) : rules r r' → trees t t' →
    HooksAlike trees t t' id r.hooks.onCapture r'.hooks.onCapture
  onSubstitute {r r' : Rule} {t t' : Tree} (id : NodeId) : rules r r' → trees t t' →
    HooksAlike trees t t' id r.hooks.onSubstitute r'.hooks.onSubstitute
  onResolve {r r' : Rule} {t t' : Tree} (id : NodeId) : rules r r' → trees t t' →
    HooksAlike trees t t' id r.hooks.onResolve r'.hooks.onResolve
  -- what the engine itself reads
  size_eq {t t' : Tree} : trees t t' → t.size = t'.size
  working_eq {t t' : Tree} (id : NodeId) : trees t t' → (t.node id).working = (t'.node id).working
  own_eq {t t' : Tree} (id : NodeId) : trees t t' →
    (t.node id).localState = (t'.node id).localState
  -- what the engine itself does
  trees_addMatch {r r' : Rule} {t t' : Tree} (p : NodeId) (m : Match) : rules r r' → trees t t' →
    trees (addMatch t p r m) (addMatch t' p r' m)
  trees_setModified {t t' : Tree} (id : NodeId) (text : Text) : trees t t' →
    trees (t.setModified id text) (t'.setModified id text)
  trees_setWorking {t t' : Tree} (id : NodeId) (text : Text) : trees t t' →
    trees (t.setWorking id text) (t'.setWorking id text)
  trees_linkChildren {t t' : Tree} (id : NodeId) : trees t t' →
    trees (t.linkChildren id) (t'.linkChildren id)

/-- Two parts of parses, each in its own tree, fail with the same error, or give the same result and
leave related trees. -/
def GoAlike (R : Tree → Tree → Prop) (t t' : Tree) (x : ParseM ω α) (x' : ParseM ω' α) : Prop :=
  ∀ record record', Alike (fun r r' => r.1 = r'.1 ∧ R r.2 r'.2) (x.outcome t record).1
    (x'.outcome t' record').1

section

variable {R : Tree → Tree → Prop} {t t' : Tree} {watch : Watcher ω} {watch' : Watcher ω'}

/-- A result that is there keeps the relation of the trees. -/
theorem GoAlike.pure (a : α) (h : R t t') :
    GoAlike R t t' (pure a : ParseM ω α) (pure a : ParseM ω' α) :=
  fun _ _ => .ok ⟨rfl, h⟩

theorem GoAlike.throw (e : ParseError) :
    GoAlike R t t' (throw e : ParseM ω α) (throw e : ParseM ω' α) :=
  fun _ _ => .error e

/-- Changes go alike if they keep the relation of the trees. -/
theorem GoAlike.modify {f f' : Tree → Tree} (h : R (f t) (f' t')) :
    GoAlike R t t' (modify f : ParseM ω PUnit) (modify f' : ParseM ω' PUnit) :=
  fun _ _ => .ok ⟨rfl, h⟩

/-- The second parts start from what the first ones have left. -/
theorem GoAlike.bind {x : ParseM ω α} {x' : ParseM ω' α} {f : α → ParseM ω β}
    {f' : α → ParseM ω' β} (h : GoAlike R t t' x x')
    (hf : ∀ a u u', R u u' → GoAlike R u u' (f a) (f' a)) :
    GoAlike R t t' (x >>= f) (x' >>= f') := by
  intro record record'
  have hx := h record record'
  rw [outcome_bind, outcome_bind]
  revert hx
  generalize x.outcome t record = out
  generalize x'.outcome t' record' = out'
  intro hx
  obtain ⟨result, r⟩ := out
  obtain ⟨result', r'⟩ := out'
  cases hx with
  | error e => exact .error e
  | @ok a b hab =>
    obtain ⟨a, u⟩ := a
    obtain ⟨b, u'⟩ := b
    obtain ⟨rfl, hu⟩ : a = b ∧ R u u' := hab
    exact hf a u u' hu r r'

/-- What looks at either tree goes alike if what goes on does. -/
theorem GoAlike.get_bind {f : Tree → ParseM ω α} {f' : Tree → ParseM ω' α}
    (h : GoAlike R t t' (f t) (f' t')) : GoAlike R t t' (get >>= f) (get >>= f') := h

/-- Events are told on either side, and what goes on goes alike. -/
theorem GoAlike.tell_bind {e e' : Event} {f : Unit → ParseM ω α} {f' : Unit → ParseM ω' α}
    (h : GoAlike R t t' (f ()) (f' ())) :
    GoAlike R t t' (tell watch e >>= f) (tell watch' e' >>= f') :=
  fun record record' => h (watch e record) (watch' e' record')

/-- Hooks that do alike are called alike, if they are those of rules with one name. -/
theorem goAlike_runHook {r r' : Rule} (stage : Stage) (id : NodeId) {hook hook' : HookM α}
    (hname : r.name = r'.name) (h : HooksAlike R t t' id hook hook') :
    GoAlike R t t' (runHook watch r stage id hook) (runHook watch' r' stage id hook') := by
  unfold runHook
  refine .get_bind (.tell_bind ?_)
  rw [HooksAlike] at h
  revert h
  generalize (hook.run ⟨t, id⟩).run (View.states ⟨t, id⟩) = result
  generalize (hook'.run ⟨t', id⟩).run (View.states ⟨t', id⟩) = result'
  intro h
  cases h with
  | error message =>
    rw [hname]
    exact .throw _
  | ok h => exact fun _ _ => .ok h

end

/-- Resolvers that go on alike for related rules in related trees. -/
def ResolversAlike {g g' : Grammar} (sim : Simulation g g') (resolve : Resolver ω)
    (resolve' : Resolver ω') : Prop :=
  ∀ p m r r' t t', sim.rules r r' → sim.trees t t' →
    GoAlike sim.trees t t' (resolve p r m) (resolve' p r' m)

namespace Simulation

variable {g g' : Grammar} (sim : Simulation g g') {r r' : Rule} {t t' : Tree} {watch : Watcher ω}
  {watch' : Watcher ω'} {resolve : Resolver ω} {resolve' : Resolver ω'}

include sim

/-- The matches of a search are resolved alike. -/
theorem goAlike_resolveAll (hresolve : ResolversAlike sim resolve resolve') (p : NodeId)
    (hr : sim.rules r r') (found : List Match) (ht : sim.trees t t') :
    GoAlike sim.trees t t' (resolveAll resolve p r found) (resolveAll resolve' p r' found) := by
  induction found generalizing t t' with
  | nil => exact .pure _ ht
  | cons m found ih =>
    refine .bind (hresolve p m r r' t t' hr ht) fun text u u' hu => ?_
    exact .bind (ih hu) fun edits u u' hu => .pure _ hu

/-- Rules that are related search alike, with one pattern. -/
theorem goAlike_pass (hresolve : ResolversAlike sim resolve resolve') (p : NodeId)
    (hr : sim.rules r r') (pattern : Pattern) (ht : sim.trees t t') :
    GoAlike sim.trees t t' (pass watch resolve p r pattern)
      (pass watch' resolve' p r' pattern) := by
  unfold pass
  refine .get_bind (.tell_bind ?_)
  rw [sim.working_eq p ht]
  refine .bind (sim.goAlike_resolveAll hresolve p hr _ ht) fun edits u u' hu => ?_
  exact .modify (sim.trees_setWorking p _ hu)

/-- Rules with corresponding numbers search or do not search, and if they do, by one pattern. -/
theorem rel_searcher? {id id' : RuleId} (own : State)
    (h : Option.Rel sim.rules (g.ruleAt? id) (g'.ruleAt? id')) :
    Option.Rel (fun s s' => sim.rules s.1 s'.1 ∧ s.2 = s'.2) (g.searcher? own id)
      (g'.searcher? own id') := by
  unfold Grammar.searcher?
  revert h
  generalize g.ruleAt? id = child
  generalize g'.ruleAt? id' = child'
  rintro (@⟨r, r', hr⟩ | _)
  · simp only [Option.bind_eq_bind, Option.bind_some, ← sim.pattern_eq hr, ← sim.name_eq hr]
    cases r.pattern? with
    | none => exact .none
    | some pattern =>
      simp only [Option.bind_some]
      split
      · exact .none
      · exact .some ⟨hr, rfl⟩
  · exact .none

/-- A rule below a node searches alike, unless it is missing on both sides. -/
theorem goAlike_runChild (hresolve : ResolversAlike sim resolve resolve') (p : NodeId)
    {id id' : RuleId} (h : Option.Rel sim.rules (g.ruleAt? id) (g'.ruleAt? id'))
    (ht : sim.trees t t') :
    GoAlike sim.trees t t' (runChild watch g resolve p id) (runChild watch' g' resolve' p id') := by
  intro record record'
  have hsearcher := sim.rel_searcher? (t.node p).localState h
  generalize hleft : g.searcher? (t.node p).localState id = s at hsearcher
  generalize hright : g'.searcher? (t.node p).localState id' = s' at hsearcher
  rw [sim.own_eq p ht] at hright
  cases hsearcher with
  | none =>
    rw [runChild_of_searcher?_eq_none hleft, runChild_of_searcher?_eq_none hright]
    exact .ok ⟨rfl, ht⟩
  | @some s s' hs =>
    obtain ⟨r, pattern⟩ := s
    obtain ⟨r', pattern'⟩ := s'
    obtain ⟨hr, rfl⟩ : sim.rules r r' ∧ pattern = pattern' := hs
    rw [runChild_of_searcher?_eq_some hleft, runChild_of_searcher?_eq_some hright]
    exact sim.goAlike_pass hresolve p hr pattern ht record record'

/-- The rules below a node search alike, one after the other. -/
theorem goAlike_runChildren (hresolve : ResolversAlike sim resolve resolve') (p : NodeId)
    {ids ids' : List RuleId}
    (h : List.Forall₂ (fun id id' => Option.Rel sim.rules (g.ruleAt? id) (g'.ruleAt? id')) ids ids')
    (ht : sim.trees t t') :
    GoAlike sim.trees t t' (ids.forM (runChild watch g resolve p))
      (ids'.forM (runChild watch' g' resolve' p)) := by
  induction h generalizing t t' with
  | nil => exact .pure _ ht
  | cons hid _ ih => exact .bind (sim.goAlike_runChild hresolve p hid ht) fun _ u u' hu => ih hu

/-- A node is resolved alike by rules that are related. -/
theorem goAlike_resolveNode (hresolve : ResolversAlike sim resolve resolve') (id : NodeId)
    (hr : sim.rules r r') (ht : sim.trees t t') :
    GoAlike sim.trees t t' (resolveNode watch g resolve id r)
      (resolveNode watch' g' resolve' id r') := by
  have hname := sim.name_eq hr
  have hcapture : GoAlike sim.trees t t' (capture watch r id) (capture watch' r' id) := by
    refine .bind (goAlike_runHook .capture id hname (sim.onCapture id hr ht)) fun text u u' hu => ?_
    exact .modify (sim.trees_setModified id text hu)
  refine .bind hcapture fun _ u u' hu => ?_
  refine .bind (sim.goAlike_runChildren hresolve id (sim.children hr) hu) fun _ u u' hu => ?_
  refine .bind (.modify (sim.trees_linkChildren id hu)) fun _ u u' hu => ?_
  exact goAlike_runHook .resolve id hname (sim.onResolve id hr hu)

/-- Matches are resolved alike on each level. -/
theorem resolversAlike_resolveMatch (levels : Nat) :
    ResolversAlike sim (resolveMatch watch g levels) (resolveMatch watch' g' levels) := by
  induction levels with
  | zero =>
    intro p m r r' t t' hr ht
    rw [resolveMatch, resolveMatch, sim.name_eq hr]
    exact .throw _
  | succ levels ih =>
    intro p m r r' t t' hr ht
    have hopen : GoAlike sim.trees t t' (openNode (ω := ω) p r m) (openNode (ω := ω') p r' m) :=
      fun _ _ => .ok ⟨sim.size_eq ht, sim.trees_addMatch p m hr ht⟩
    refine .bind hopen fun id u u' hu => ?_
    refine .bind (sim.goAlike_resolveNode ih id hr hu) fun _ u u' hu => ?_
    exact goAlike_runHook .substitute id (sim.name_eq hr) (sim.onSubstitute id hr hu)

/-- Parses that start from related rules with related trees fail with the same error, or they return
related trees, whatever has been recorded. -/
theorem alike_watchedRun {input : Text} {seed seed' : State} (record : ω) (record' : ω')
    (hr : sim.rules r r')
    (ht : sim.trees (startTree r input seed) (startTree r' input seed')) :
    Alike sim.trees (watchedRun watch g r input seed record).1
      (watchedRun watch' g' r' input seed' record').1 := by
  have hresolve : ResolversAlike sim (resolveMatch watch g maxDepth)
      (resolveMatch watch' g' maxDepth) := sim.resolversAlike_resolveMatch maxDepth
  have halike : GoAlike sim.trees (startTree r input seed) (startTree r' input seed')
      (resolveNode watch g (resolveMatch watch g maxDepth) Tree.root r)
      (resolveNode watch' g' (resolveMatch watch' g' maxDepth) Tree.root r') :=
    sim.goAlike_resolveNode hresolve Tree.root hr ht
  have hends := halike record record'
  rw [watchedRun_eq, watchedRun_eq]
  revert hends
  generalize (outcome _ (startTree r input seed) record).1 = result
  generalize (outcome _ (startTree r' input seed') record').1 = result'
  intro hends
  cases hends with
  | error e => exact .error e
  | ok h => exact .ok h.2

/-- Parses by rules that are related go alike. -/
theorem alike_run {input : Text} {seed seed' : State} (hr : sim.rules r r')
    (ht : sim.trees (startTree r input seed) (startTree r' input seed')) :
    Alike sim.trees (run g r input seed) (run g' r' input seed') :=
  sim.alike_watchedRun () () hr ht

end Simulation

/-- A grammar side by side with itself. -/
def Simulation.same (g : Grammar) : Simulation g g where
  rules := Eq
  trees := Eq
  name_eq h := congrArg Rule.name h
  pattern_eq h := congrArg Rule.pattern? h
  children := by
    rintro r _ rfl
    refine List.forall₂_same.2 fun id _ => ?_
    cases g.ruleAt? id with
    | none => exact .none
    | some child => exact .some rfl
  onCapture := by
    rintro r _ t _ id rfl rfl
    exact .refl (fun _ => ⟨rfl, rfl⟩) _
  onSubstitute := by
    rintro r _ t _ id rfl rfl
    exact .refl (fun _ => ⟨rfl, rfl⟩) _
  onResolve := by
    rintro r _ t _ id rfl rfl
    exact .refl (fun _ => ⟨rfl, rfl⟩) _
  size_eq h := congrArg Tree.size h
  working_eq id h := congrArg (fun t => (t.node id).working) h
  own_eq id h := congrArg (fun t => (t.node id).localState) h
  trees_addMatch p m hr ht := by rw [hr, ht]
  trees_setModified id text h := by rw [h]
  trees_setWorking id text h := by rw [h]
  trees_linkChildren id h := by rw [h]

/-- Watching a parse does not change its result. -/
theorem history_fst (g : Grammar) (rule : Rule) (input : Text) (seed : State) :
    (history g rule input seed).1 = run g rule input seed :=
  ((Simulation.same g).alike_watchedRun [] () rfl rfl).eq

end Engine

end Cascade
