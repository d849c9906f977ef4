import Cascade.Engine

/-!
# Rules for what a parse does

What the engine does is restated by inference rules, one for each thing that can happen next. A
derivation of `Runs` is a part of a parse that succeeds, a derivation of `Stops` is one that ends
the parse, and both list the events. Facts about all parses are proved by induction on derivations.

* `Runs`, `Stops`: the rules.
* `runs_of_history`, `stops_of_history`: whatever a parse does has a derivation.
-/

namespace Cascade

/-- The rule with a number and its pattern, unless it has no pattern or is skipped by a state. -/
def Grammar.searcher? (g : Grammar) (own : State) (id : RuleId) : Option (Rule × Pattern) := do
  let child ← g.ruleAt? id
  let pattern ← child.pattern?
  if own.skips child.name then none else some (child, pattern)

/-- A hook that is called in a view succeeds with a result, and `t` is the tree behind it. -/
def HookM.Succeeds {α : Type} (hook : HookM α) (v : View) (result : α) (t : Tree) : Prop :=
  ∃ states, (hook.run v).run v.states = .ok (result, states) ∧ t = v.withStates states

/-- A hook that is called in a view fails with a message. -/
def HookM.Fails {α : Type} (hook : HookM α) (v : View) (message : Text) : Prop :=
  (hook.run v).run v.states = .error message

namespace Engine

/-- A part of a parse. -/
inductive Task where
  /-- A node that has just been created is resolved. -/
  | node (id : NodeId) (rule : Rule)
  /-- Child rules search the text of a node, one after the other. -/
  | search (parent : NodeId) (rules : List RuleId)
  /-- Matches of a child rule under a node are resolved, one after the other. -/
  | resolve (parent : NodeId) (child : Rule) (found : List Match)

/-- `Runs g levels task t events edits t'`: the task leads from `t` to `t'`. Matches below its node
may be nested on `levels` levels, and `edits` replaces the matches that the task resolves. -/
inductive Runs (g : Grammar) :
    Nat → Task → Tree → List Event → List (Span × Text) → Tree → Prop where
  | node {levels id rule t t₁ t₂ t₃ text events}
      (hcapture : rule.hooks.onCapture.Succeeds ⟨t, id⟩ text t₁)
      (hsearch : Runs g levels (.search id rule.children) (t₁.setModified id text) events [] t₂)
      (hresolve : rule.hooks.onResolve.Succeeds ⟨t₂.linkChildren id, id⟩ () t₃) :
      Runs g levels (.node id rule) t
        (.call rule .capture ⟨t, id⟩ ::
          (events ++ [.call rule .resolve ⟨t₂.linkChildren id, id⟩])) [] t₃
  | searchNil {levels p t} : Runs g levels (.search p []) t [] [] t
  | searchSkip {levels p id ids t t' events}
      (hskip : g.searcher? (t.node p).localState id = none)
      (hrest : Runs g levels (.search p ids) t events [] t') :
      Runs g levels (.search p (id :: ids)) t events [] t'
  | searchPass {levels p id ids child pattern t t₁ t₂ events later edits}
      (hchild : g.searcher? (t.node p).localState id = some (child, pattern))
      (hresolve : Runs g levels (.resolve p child (pattern.scan (t.node p).working)) t events
        edits t₁)
      -- the edits are made in the text that was searched
      (hrest : Runs g levels (.search p ids) (t₁.setWorking p ((t.node p).working.splice edits))
        later [] t₂) :
      Runs g levels (.search p (id :: ids)) t
        (.search p child pattern (t.node p).working :: (events ++ later)) [] t₂
  | resolveNil {levels p child t} : Runs g levels (.resolve p child []) t [] [] t
  | resolveCons {levels p child m found t t₁ t₂ t₃ replacement events later edits}
      (hnode : Runs g levels (.node t.size child) (addMatch t p child m) events [] t₁)
      (hsubstitute : child.hooks.onSubstitute.Succeeds ⟨t₁, t.size⟩ replacement t₂)
      -- the matches behind this one are no deeper
      (hrest : Runs g (levels + 1) (.resolve p child found) t₂ later edits t₃) :
      Runs g (levels + 1) (.resolve p child (m :: found)) t
        (events ++ .call child .substitute ⟨t₁, t.size⟩ :: later)
        ((m.span, replacement) :: edits) t₃

/-- `Stops g levels task t events e`: the task, started in `t`, ends the parse with the error
`e`. -/
inductive Stops (g : Grammar) : Nat → Task → Tree → List Event → ParseError → Prop where
  | nodeCapture {levels id rule t message}
      (hcapture : rule.hooks.onCapture.Fails ⟨t, id⟩ message) :
      Stops g levels (.node id rule) t [.call rule .capture ⟨t, id⟩]
        (.hook rule.name .capture message)
  | nodeSearch {levels id rule t t₁ text events e}
      (hcapture : rule.hooks.onCapture.Succeeds ⟨t, id⟩ text t₁)
      (hsearch : Stops g levels (.search id rule.children) (t₁.setModified id text) events e) :
      Stops g levels (.node id rule) t (.call rule .capture ⟨t, id⟩ :: events) e
  | nodeResolve {levels id rule t t₁ t₂ text events message}
      (hcapture : rule.hooks.onCapture.Succeeds ⟨t, id⟩ text t₁)
      (hsearch : Runs g levels (.search id rule.children) (t₁.setModified id text) events [] t₂)
      (hresolve : rule.hooks.onResolve.Fails ⟨t₂.linkChildren id, id⟩ message) :
      Stops g levels (.node id rule) t
        (.call rule .capture ⟨t, id⟩ ::
          (events ++ [.call rule .resolve ⟨t₂.linkChildren id, id⟩]))
        (.hook rule.name .resolve message)
  | searchSkip {levels p id ids t events e}
      (hskip : g.searcher? (t.node p).localState id = none)
      (hrest : Stops g levels (.search p ids) t events e) :
      Stops g levels (.search p (id :: ids)) t events e
  | searchPass {levels p id ids child pattern t events e}
      (hchild : g.searcher? (t.node p).localState id = some (child, pattern))
      (hresolve : Stops g levels (.resolve p child (pattern.scan (t.node p).working)) t events e) :
      Stops g levels (.search p (id :: ids)) t
        (.search p child pattern (t.node p).working :: events) e
  | searchLater {levels p id ids child pattern t t₁ events later edits e}
      (hchild : g.searcher? (t.node p).localState id = some (child, pattern))
      (hresolve : Runs g levels (.resolve p child (pattern.scan (t.node p).working)) t events
        edits t₁)
      (hrest : Stops g levels (.search p ids) (t₁.setWorking p ((t.node p).working.splice edits))
        later e) :
      Stops g levels (.search p (id :: ids)) t
        (.search p child pattern (t.node p).working :: (events ++ later)) e
  -- where no level is left, the first match already ends the parse, and no node is created for it
  | resolveLimit {p child m found t} :
      Stops g 0 (.resolve p child (m :: found)) t [] (.recursionLimit child.name maxDepth)
  | resolveNode {levels p child m found t events e}
      (hnode : Stops g levels (.node t.size child) (addMatch t p child m) events e) :
      Stops g (levels + 1) (.resolve p child (m :: found)) t events e
  | resolveSubstitute {levels p child m found t t₁ events message}
      (hnode : Runs g levels (.node t.size child) (addMatch t p child m) events [] t₁)
      (hsubstitute : child.hooks.onSubstitute.Fails ⟨t₁, t.size⟩ message) :
      Stops g (levels + 1) (.resolve p child (m :: found)) t
        (events ++ [.call child .substitute ⟨t₁, t.size⟩]) (.hook child.name .substitute message)
  | resolveLater {levels p child m found t t₁ t₂ replacement events later e}
      (hnode : Runs g levels (.node t.size child) (addMatch t p child m) events [] t₁)
      (hsubstitute : child.hooks.onSubstitute.Succeeds ⟨t₁, t.size⟩ replacement t₂)
      (hrest : Stops g (levels + 1) (.resolve p child found) t₂ later e) :
      Stops g (levels + 1) (.resolve p child (m :: found)) t
        (events ++ .call child .substitute ⟨t₁, t.size⟩ :: later) e

end Engine

end Cascade
