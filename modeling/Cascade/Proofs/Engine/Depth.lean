import Cascade.Proofs.Engine.Arena
import Cascade.Proofs.Engine.Simulation
import Cascade.Proofs.Engine.Skip

/-!
# How deep matches are nested

A match of a rule is found below a match of the rule that it is wired under, at most `maxDepth`
levels below the root. A parse that goes deeper is ended, and there is a chain of rules then, each
wired under the one before it, that is longer than the limit.

* `Grammar.CanSearch`, `Grammar.Descends`: one rule wired under another, and chains of them.
* `Fits`: what a part of a parse starts from, and what each of its steps keeps of it.
* `Runs.shallow`, `Stops.shallow`: no part of a parse nests nodes too deep.
* `Stops.cause`: the chain that a parse has followed when it is ended for its depth.
* `FollowsWiring`: the rules of nodes are wired as the nodes are nested.
* `depth_of_history`: where the nodes of a tree stand, and what ends a parse.
* `run_ofSelf`: a rule that is wired under itself.
-/

namespace Cascade

/-- A rule can search the texts of another one: it is wired under it and has a pattern. -/
def Grammar.CanSearch (g : Grammar) (r child : Rule) : Prop :=
  (∃ id ∈ r.children, g.ruleAt? id = some child) ∧ child.pattern?.isSome

/-- There is a chain of rules from the first one to the last one, in which each can search the texts
of the one before it. -/
def Grammar.Descends (g : Grammar) (steps : Nat) (first last : Rule) : Prop :=
  ∃ below : List Rule, below.length = steps ∧ (first :: below).IsChain g.CanSearch ∧
    (first :: below).getLast? = some last

/-- The rules stand on levels up to a highest one, each above the levels of the rules whose texts
it can search, so that no rule can be wired under itself even through others. -/
def Grammar.HasLevels (g : Grammar) (highest : Nat) : Prop :=
  ∃ level : Rule → Nat, (∀ r child, g.CanSearch r child → level r < level child) ∧
    ∀ r ∈ g.rules, level r ≤ highest

namespace Grammar

variable {g : Grammar} {steps highest : Nat} {r first last child : Rule} {own : State} {id : RuleId}
  {pattern : Pattern}

/-- A rule that searches is known by its number and has a pattern. -/
theorem ruleAt?_of_searcher? (h : g.searcher? own id = some (child, pattern)) :
    g.ruleAt? id = some child ∧ child.pattern?.isSome := by
  unfold searcher? at h
  simp only [Option.bind_eq_bind, Option.bind_eq_some_iff] at h
  obtain ⟨child', hchild, pattern', hpattern, h⟩ := h
  split at h
  · contradiction
  · obtain ⟨rfl, rfl⟩ : child' = child ∧ pattern' = pattern := by simpa using h
    exact ⟨hchild, by simp [hpattern]⟩

/-- A rule that can search is one of the grammar. -/
theorem CanSearch.mem_rules (h : g.CanSearch r child) : child ∈ g.rules := by
  obtain ⟨⟨id, -, hid⟩, -⟩ := h
  exact Array.mem_of_getElem? hid

theorem descends_zero : g.Descends 0 r r :=
  ⟨[], rfl, .singleton r, rfl⟩

/-- A step in front of a chain makes it longer by one. -/
theorem Descends.cons (hfirst : g.CanSearch r first) (h : g.Descends steps first last) :
    g.Descends (steps + 1) r last := by
  obtain ⟨below, rfl, hchain, hlast⟩ := h
  exact ⟨first :: below, rfl, hchain.cons_cons hfirst, by simpa using hlast⟩

/-- A chain that is not empty begins with a step. -/
theorem Descends.exists_cons (h : g.Descends (steps + 1) r last) :
    ∃ first, g.CanSearch r first ∧ g.Descends steps first last := by
  obtain ⟨below, hlength, hchain, hlast⟩ := h
  cases below with
  | nil => contradiction
  | cons first below =>
    obtain ⟨hfirst, hchain⟩ := List.isChain_cons_cons.1 hchain
    exact ⟨first, hfirst, below, Nat.succ.inj hlength, hchain, by simpa using hlast⟩

/-- A chain climbs at least one level with each rule. -/
theorem Descends.add_le {level : Rule → Nat}
    (hlevel : ∀ r child, g.CanSearch r child → level r < level child)
    (h : g.Descends steps first last) : level first + steps ≤ level last := by
  induction steps generalizing first with
  | zero =>
    obtain ⟨below, hlength, -, hlast⟩ := h
    obtain rfl := List.length_eq_zero_iff.1 hlength
    obtain rfl : first = last := by simpa using hlast
    exact le_rfl
  | succ steps ih =>
    obtain ⟨next, hnext, hrest⟩ := h.exists_cons
    have hlt := hlevel first next hnext
    have hle := ih hrest
    omega

/-- Where a step leads to is a rule of the grammar. -/
theorem Descends.mem_rules (h : g.Descends (steps + 1) first last) : last ∈ g.rules := by
  induction steps generalizing first with
  | zero =>
    obtain ⟨next, hnext, below, hlength, -, hlast⟩ := h.exists_cons
    obtain rfl := List.length_eq_zero_iff.1 hlength
    obtain rfl : next = last := by simpa using hlast
    exact hnext.mem_rules
  | succ steps ih =>
    obtain ⟨next, -, hrest⟩ := h.exists_cons
    exact ih hrest

/-- Where rules stand on levels, no chain is longer than the highest level. -/
theorem HasLevels.not_descends (h : g.HasLevels highest) :
    ¬ g.Descends (highest + 1) first last := by
  intro hdescends
  obtain ⟨level, hlevel, hle⟩ := h
  have hclimb := hdescends.add_le hlevel
  have htop := hle last hdescends.mem_rules
  omega

end Grammar

/-! ## Levels of nodes -/

namespace Tree

variable {t t' : Tree} {n k : Nat} {i p : NodeId} {child : Rule} {m : Match}

/-- A node is nested on a level: so many steps from child to parent lead from it to the root. -/
def IsNested (t : Tree) : (level : Nat) → NodeId → Prop
  | 0, i => i = root
  | level + 1, i => ∃ p, t.IsParent p i ∧ t.IsNested level p

/-- All nodes of a tree are nested, none of them too deep. -/
structure Shallow (t : Tree) : Prop where
  linked : t.Linked
  root_lt : root < t.size
  root_orphan : (t.node root).parent? = none
  nested : ∀ i < t.size, ∃ n ≤ Engine.maxDepth, t.IsNested n i

/-- A node stays on its level as long as no parent is taken away. -/
theorem IsNested.mono (h : t.IsNested n i) (hle : ∀ p i, t.IsParent p i → t'.IsParent p i) :
    t'.IsNested n i := by
  induction n generalizing i with
  | zero => exact h
  | succ n ih =>
    obtain ⟨p, hp, hnested⟩ := h
    exact ⟨p, hle p i hp, ih hnested⟩

/-- A node is nested on one level only. -/
theorem IsNested.unique (horphan : (t.node root).parent? = none) (h : t.IsNested n i)
    (h' : t.IsNested k i) : n = k := by
  induction n generalizing i k with
  | zero =>
    obtain rfl : i = root := h
    cases k with
    | zero => rfl
    | succ k =>
      obtain ⟨p, hp, -⟩ := h'
      rw [IsParent, horphan] at hp
      contradiction
  | succ n ih =>
    obtain ⟨p, hp, hnested⟩ := h
    cases k with
    | zero =>
      obtain rfl : i = root := h'
      rw [IsParent, horphan] at hp
      contradiction
    | succ k =>
      obtain ⟨p', hp', hnested'⟩ := h'
      obtain rfl : p = p' := Option.some.inj (hp.symm.trans hp')
      rw [ih hnested hnested']

namespace Shallow

/-- No level of a node is too deep, since a node has no more than one. -/
theorem le_maxDepth (h : Shallow t) (hi : t.IsNested n i) : n ≤ Engine.maxDepth := by
  have hlt : i < t.size := by
    cases n with
    | zero =>
      obtain rfl : i = root := hi
      exact h.root_lt
    | succ n =>
      obtain ⟨p, hp, -⟩ := hi
      exact lt_size_of_isParent hp
  obtain ⟨k, hk, hnested⟩ := h.nested i hlt
  rwa [hi.unique h.root_orphan hnested]

/-- All nodes but the root have a parent. -/
theorem exists_isParent (h : Shallow t) (hi : i < t.size) (hroot : i ≠ root) :
    ∃ p, t.IsParent p i := by
  obtain ⟨n, -, hnested⟩ := h.nested i hi
  cases n with
  | zero => exact absurd hnested hroot
  | succ n =>
    obtain ⟨p, hp, -⟩ := hnested
    exact ⟨p, hp⟩

/-- Trees of the same shape have the same levels. -/
theorem of_sameShape (h : Shallow t) (hs : SameShape t t') : Shallow t' where
  linked := h.linked.of_sameShape hs
  root_lt := hs.size_eq.symm ▸ h.root_lt
  root_orphan := by
    rw [(Node.fixed_eq_iff.1 (hs.fixed_eq root)).2.1]
    exact h.root_orphan
  nested i hi := by
    obtain ⟨n, hn, hnested⟩ := h.nested i (hs.size_eq ▸ hi)
    exact ⟨n, hn, hnested.mono fun p i hp => by rwa [hs.isParent_eq]⟩

/-- The node of a match is nested one level deeper than its parent. -/
theorem isNested_addMatch (hp : p < t.size) (hn : t.IsNested n p) :
    (Engine.addMatch t p child m).IsNested (n + 1) t.size :=
  ⟨p, (isParent_addMatch hp).2 (.inr ⟨rfl, rfl⟩),
    hn.mono fun _ _ hparent => (isParent_addMatch hp).2 (.inl hparent)⟩

/-- The node of a match may be added below any level but the deepest. -/
theorem addMatch (h : Shallow t) (hp : p < t.size) (hn : t.IsNested n p)
    (hlevel : n < Engine.maxDepth) : Shallow (Engine.addMatch t p child m) where
  linked := h.linked.addMatch hp
  root_lt := by
    rw [size_addMatch]
    exact Nat.succ_pos _
  root_orphan := by
    have hne : root ≠ t.size := h.root_lt.ne
    rw [(Node.fixed_eq_iff.1 (fixed_node_addMatch child m hp hne)).2.1]
    exact h.root_orphan
  nested i hi := by
    rw [size_addMatch, Nat.lt_succ_iff_lt_or_eq] at hi
    rcases hi with hi | rfl
    · obtain ⟨k, hk, hnested⟩ := h.nested i hi
      exact ⟨k, hk, hnested.mono fun _ _ hparent => (isParent_addMatch hp).2 (.inl hparent)⟩
    · exact ⟨n + 1, hlevel, isNested_addMatch hp hn⟩

end Shallow

/-- A parse starts from a root alone. -/
theorem shallow_startTree (rule : Rule) (input : Text) (seed : State) :
    Shallow (Engine.startTree rule input seed) where
  linked := linked_startTree ..
  root_lt := Nat.zero_lt_one
  root_orphan := rfl
  nested i hi := by
    obtain rfl : i = root := Nat.lt_one_iff.1 hi
    exact ⟨0, Nat.zero_le _, rfl⟩

end Tree

namespace Engine

open List (forall_mem_append forall_mem_cons forall_mem_nil forall_mem_singleton)
open Cascade.Tree

variable {g : Grammar} {levels n : Nat} {task : Task} {t t₁ t' : Tree} {events : List Event}
  {edits : List (Span × Text)} {e : ParseError} {p : NodeId} {child rule : Rule} {m : Match}

/-! ## No node is nested too deep -/

/-- On the way from `t` to `t'` no node changes its level, and no node is nested too deep. -/
structure KeepsShallow (t t' : Tree) : Prop where
  shallow : Shallow t'
  nested : ∀ n i, t.IsNested n i → t'.IsNested n i

theorem KeepsShallow.trans {t'' : Tree} (h : KeepsShallow t t') (h' : KeepsShallow t' t'') :
    KeepsShallow t t'' :=
  ⟨h'.shallow, fun n i hi => h'.nested n i (h.nested n i hi)⟩

/-- A change that keeps the shape keeps all levels. -/
theorem keepsShallow_of_sameShape (h : Shallow t) (hs : SameShape t t') : KeepsShallow t t' :=
  ⟨h.of_sameShape hs, fun _ _ hi => hi.mono fun p i hp => by rwa [hs.isParent_eq]⟩

/-- The node of a match is added on a level of its own, and all others stay. -/
theorem keepsShallow_addMatch (h : Shallow t) (hp : p < t.size) (hn : t.IsNested n p)
    (hlevel : n < maxDepth) : KeepsShallow t (addMatch t p child m) :=
  ⟨h.addMatch hp hn hlevel, fun _ _ hi => hi.mono fun _ _ hparent =>
    (isParent_addMatch hp).2 (.inl hparent)⟩

/-- What is seen of a tree by a hook, if the event is a call: no node is nested too deep. -/
abbrev SeesShallow (e : Event) : Prop :=
  e.Sees fun v => Shallow v.tree

/-- What a part of a parse starts from: its task is ready, no node is nested too deep, and the level
of the task's own node and the levels below that make up the limit. -/
structure Fits (levels : Nat) (task : Task) (t : Tree) : Prop where
  ready : task.Ready t
  shallow : Shallow t
  level : ∃ n, t.IsNested n task.id ∧ n + levels = maxDepth

namespace Fits

variable {i : NodeId} {ids : List RuleId} {text replacement : Text} {found : List Match}
  {t₂ : Tree}

/-- The parse can go on with a task of the same node. -/
theorem of_keepsShallow {task' : Task} (h : Fits levels task t) (hkeeps : KeepsShallow t t')
    (hid : task'.id = task.id) (hready : task'.Ready t') : Fits levels task' t' where
  ready := hready
  shallow := hkeeps.shallow
  level := by
    obtain ⟨n, hn, hlevels⟩ := h.level
    exact ⟨n, hid ▸ hkeeps.nested _ _ hn, hlevels⟩

/-- When the text of a node has been captured, the rules below it may search. -/
theorem captured (h : Fits levels (.node i rule) t)
    (hcapture : rule.hooks.onCapture.Succeeds ⟨t, i⟩ text t₁) :
    KeepsShallow t (t₁.setModified i text) ∧
      Fits levels (.search i rule.children) (t₁.setModified i text) := by
  have hkeeps := keepsShallow_of_sameShape h.shallow (sameShape_of_captured hcapture)
  obtain ⟨s, -, rfl⟩ := hcapture
  exact ⟨hkeeps, h.of_keepsShallow hkeeps rfl (Task.ready_setModified h.ready.1)⟩

/-- Linking the children of a node keeps all levels. -/
theorem linked (h : Fits levels (.search i ids) t)
    (hsearch : Runs g levels (.search i ids) t events edits t') (hkeeps : KeepsShallow t t') :
    KeepsShallow t (t'.linkChildren i) := by
  have hi : i < t'.size := h.ready.1.trans_le (hsearch.frame h.ready).size_le
  exact hkeeps.trans (keepsShallow_of_sameShape hkeeps.shallow
    (hkeeps.shallow.linked.sameShape_linkChildren hi))

/-- What a rule has found is resolved on the level of the node that was searched. -/
theorem resolve (h : Fits levels (.search p ids) t) : Fits levels (.resolve p child found) t :=
  ⟨⟨h.ready.1, trivial⟩, h.shallow, h.level⟩

/-- When the matches of one rule have been resolved, the next rule may search. -/
theorem setWorking {later : List RuleId} (h : Fits levels (.search p ids) t)
    (hresolve : Runs g levels (.resolve p child found) t events edits t')
    (hkeeps : KeepsShallow t t') (text : Text) :
    KeepsShallow t (t'.setWorking p text) ∧
      Fits levels (.search p later) (t'.setWorking p text) := by
  have hp : p < t'.size := h.ready.1.trans_le (hresolve.frame h.resolve.ready).size_le
  have hset := hkeeps.trans
    (keepsShallow_of_sameShape hkeeps.shallow (sameShape_setWorking t' p text))
  exact ⟨hset, h.of_keepsShallow hset rfl (Task.ready_setWorking hp)⟩

/-- A match takes one of the levels that are left. -/
theorem addMatch (h : Fits (levels + 1) (.resolve p child (m :: found)) t) :
    KeepsShallow t (addMatch t p child m) ∧
      Fits levels (.node t.size child) (addMatch t p child m) := by
  obtain ⟨n, hn, hlevels⟩ := h.level
  have hp : p < t.size := h.ready.1
  have hadded : KeepsShallow t (Engine.addMatch t p child m) :=
    keepsShallow_addMatch h.shallow hp hn (by omega)
  exact ⟨hadded, Task.ready_addMatch hp, hadded.shallow, n + 1, Shallow.isNested_addMatch hp hn,
    by omega⟩

/-- When a match has been replaced, the next one may be resolved. -/
theorem substituted (h : Fits (levels + 1) (.resolve p child (m :: found)) t)
    (hnode : Runs g levels (.node t.size child) (Engine.addMatch t p child m) events [] t₁)
    (hkeeps : KeepsShallow (Engine.addMatch t p child m) t₁)
    (hsubstitute : child.hooks.onSubstitute.Succeeds ⟨t₁, t.size⟩ replacement t₂) :
    KeepsShallow t t₂ ∧ Fits (levels + 1) (.resolve p child found) t₂ := by
  have hcalled := h.addMatch.1.trans (hkeeps.trans
    (keepsShallow_of_sameShape hkeeps.shallow (sameShape_of_succeeds hsubstitute)))
  have hp : p < t₂.size := lt_size_of_match hnode h.ready.1 hsubstitute
  exact ⟨hcalled, h.of_keepsShallow hcalled rfl ⟨hp, trivial⟩⟩

end Fits

/-- At the start of a parse, all levels are left. -/
theorem fits_startTree (rule : Rule) (input : Text) (seed : State) :
    Fits maxDepth (.node root rule) (startTree rule input seed) :=
  ⟨⟨Nat.zero_lt_one, rfl⟩, shallow_startTree .., 0, rfl, Nat.zero_add _⟩

/-- No part of a parse nests a node too deep. -/
theorem Runs.shallow (h : Runs g levels task t events edits t') (hfits : Fits levels task t) :
    KeepsShallow t t' ∧ ∀ e ∈ events, SeesShallow e := by
  induction h with
  | node hcapture hsearch hresolve ih =>
    obtain ⟨hcaptured, hfits₁⟩ := hfits.captured hcapture
    obtain ⟨hsearched, hevents⟩ := ih hfits₁
    have hlinked := hfits₁.linked hsearch hsearched
    have hend := keepsShallow_of_sameShape hlinked.shallow (sameShape_of_succeeds hresolve)
    exact ⟨hcaptured.trans (hlinked.trans hend), forall_mem_cons.2 ⟨hfits.shallow,
      forall_mem_append.2 ⟨hevents, forall_mem_singleton.2 hlinked.shallow⟩⟩⟩
  | searchNil => exact ⟨⟨hfits.shallow, fun _ _ => id⟩, forall_mem_nil _⟩
  | searchSkip _ _ ih => exact ih ⟨hfits.ready, hfits.shallow, hfits.level⟩
  | searchPass _ hresolve _ ih ih' =>
    obtain ⟨hresolved, hevents⟩ := ih hfits.resolve
    obtain ⟨hset, hfits₁⟩ := hfits.setWorking hresolve hresolved _
    obtain ⟨hrest, hlater⟩ := ih' hfits₁
    exact ⟨hset.trans hrest,
      forall_mem_cons.2 ⟨trivial, forall_mem_append.2 ⟨hevents, hlater⟩⟩⟩
  | resolveNil => exact ⟨⟨hfits.shallow, fun _ _ => id⟩, forall_mem_nil _⟩
  | resolveCons hnode hsubstitute _ ih ih' =>
    obtain ⟨hnode', hevents⟩ := ih hfits.addMatch.2
    -- there was a level left for the node of the match, and the next one is on the same level
    obtain ⟨hcalled, hfits₂⟩ := hfits.substituted hnode hnode' hsubstitute
    obtain ⟨hrest, hlater⟩ := ih' hfits₂
    exact ⟨hcalled.trans hrest,
      forall_mem_append.2 ⟨hevents, forall_mem_cons.2 ⟨hnode'.shallow, hlater⟩⟩⟩

/-- Up to where a part of a parse fails, no node is nested too deep. -/
theorem Stops.shallow (h : Stops g levels task t events e) (hfits : Fits levels task t) :
    ∀ e ∈ events, SeesShallow e := by
  induction h with
  | nodeCapture => exact forall_mem_singleton.2 hfits.shallow
  | nodeSearch hcapture _ ih =>
    exact forall_mem_cons.2 ⟨hfits.shallow, ih (hfits.captured hcapture).2⟩
  | nodeResolve hcapture hsearch =>
    obtain ⟨-, hfits₁⟩ := hfits.captured hcapture
    obtain ⟨hsearched, hevents⟩ := hsearch.shallow hfits₁
    have hlinked := hfits₁.linked hsearch hsearched
    exact forall_mem_cons.2 ⟨hfits.shallow,
      forall_mem_append.2 ⟨hevents, forall_mem_singleton.2 hlinked.shallow⟩⟩
  | searchSkip _ _ ih => exact ih ⟨hfits.ready, hfits.shallow, hfits.level⟩
  | searchPass _ _ ih => exact forall_mem_cons.2 ⟨trivial, ih hfits.resolve⟩
  | searchLater _ hresolve _ ih =>
    obtain ⟨hresolved, hevents⟩ := hresolve.shallow hfits.resolve
    have hlater := ih (hfits.setWorking hresolve hresolved _).2
    exact forall_mem_cons.2 ⟨trivial, forall_mem_append.2 ⟨hevents, hlater⟩⟩
  | resolveLimit => exact forall_mem_nil _
  | resolveNode _ ih => exact ih hfits.addMatch.2
  | resolveSubstitute hnode =>
    obtain ⟨hnode', hevents⟩ := hnode.shallow hfits.addMatch.2
    exact forall_mem_append.2 ⟨hevents, forall_mem_singleton.2 hnode'.shallow⟩
  | resolveLater hnode hsubstitute _ ih =>
    obtain ⟨hnode', hevents⟩ := hnode.shallow hfits.addMatch.2
    have hlater := ih (hfits.substituted hnode hnode' hsubstitute).2
    exact forall_mem_append.2 ⟨hevents, forall_mem_cons.2 ⟨hnode'.shallow, hlater⟩⟩

/-! ## What a parse is ended for -/

/-- A task can find matches of a rule, of all that it finds the first ones on their way down. -/
def Task.Finds (g : Grammar) : Task → Rule → Prop
  | node _ rule, r => g.CanSearch rule r
  | search _ ids, r => (∃ id ∈ ids, g.ruleAt? id = some r) ∧ r.pattern?.isSome
  | resolve _ child _, r => child = r

/-- What ends a part of a parse is the failure of a hook or the limit, and if it is the limit, then
a chain of rules leads through all levels that were left. -/
theorem Stops.cause (h : Stops g levels task t events e) :
    (∃ name stage message, e = .hook name stage message) ∨
      ∃ first last, e = .recursionLimit last.name maxDepth ∧ task.Finds g first ∧
        g.Descends levels first last := by
  induction h with
  | nodeCapture => exact .inl ⟨_, _, _, rfl⟩
  | nodeSearch _ _ ih => exact ih
  | nodeResolve => exact .inl ⟨_, _, _, rfl⟩
  | searchSkip _ _ ih =>
    refine ih.imp_right ?_
    rintro ⟨first, last, he, ⟨⟨id, hid, hrule⟩, hpattern⟩, hdescends⟩
    exact ⟨first, last, he, ⟨⟨id, List.mem_cons_of_mem _ hid, hrule⟩, hpattern⟩, hdescends⟩
  | searchPass hchild _ ih =>
    refine ih.imp_right ?_
    rintro ⟨first, last, he, rfl, hdescends⟩
    obtain ⟨hrule, hpattern⟩ := Grammar.ruleAt?_of_searcher? hchild
    exact ⟨_, last, he, ⟨⟨_, List.mem_cons_self, hrule⟩, hpattern⟩, hdescends⟩
  | searchLater _ _ _ ih =>
    refine ih.imp_right ?_
    rintro ⟨first, last, he, ⟨⟨id, hid, hrule⟩, hpattern⟩, hdescends⟩
    exact ⟨first, last, he, ⟨⟨id, List.mem_cons_of_mem _ hid, hrule⟩, hpattern⟩, hdescends⟩
  | @resolveLimit p child m found t =>
    exact .inr ⟨child, child, rfl, rfl, Grammar.descends_zero⟩
  | resolveNode _ ih =>
    refine ih.imp_right ?_
    rintro ⟨first, last, he, hfirst, hdescends⟩
    -- one level down, the chain has one more step
    exact ⟨_, last, he, rfl, hdescends.cons hfirst⟩
  | resolveSubstitute => exact .inl ⟨_, _, _, rfl⟩
  | resolveLater _ _ _ ih => exact ih

/-! ## Rules of nodes -/

/-- Each node that searches have created has been replaced by the rule that has found it. -/
theorem exists_change_of_searches {searchers : List (Rule × Pattern)} {before after : Text}
    {ids : List NodeId} {i : NodeId} (h : Searches t events p searchers before ids after)
    (hi : i ∈ ids) : ∃ searcher ∈ searchers, ∃ tree,
      .call searcher.1 .substitute ⟨tree, i⟩ ∈ events ∧ searcher.1.ref = (t.node i).rule := by
  induction h with
  | nil => contradiction
  | cons _ hmatches hchanges _ ih =>
    rcases List.mem_append.1 hi with hi | hi
    · obtain ⟨m, -, hm⟩ := exists_of_mem_left hmatches hi
      obtain ⟨c, -, hc⟩ := exists_of_mem_left hchanges hi
      obtain ⟨tree, -, hcall, -, -⟩ := hc.substituted
      exact ⟨_, List.mem_cons_self, tree, hcall, hm.rule_eq.symm⟩
    · obtain ⟨searcher, hsearcher, hchange⟩ := ih hi
      exact ⟨searcher, List.mem_cons_of_mem _ hsearcher, hchange⟩

/-- The rules of the nodes of a tree are wired as the nodes are nested: the root is of the rule that
the parse has started from, and each other node of a rule that can search the texts of the rule of
its parent. -/
def FollowsWiring (g : Grammar) (rule : Rule) (t : Tree) : Prop :=
  ∃ f : NodeId → Rule, f root = rule ∧ ∀ i < t.size, (f i).ref = (t.node i).rule ∧
    (i ≠ root → ∃ p, t.IsParent p i ∧ g.CanSearch (f p) (f i))

/-- A child has been created by one of the rules that search the text of its parent. -/
theorem canSearch_of_arises {f : NodeId → Rule} {r : Rule} {p i : NodeId}
    (harises : Arises g t events r p (t.node p)) (hf : ∀ e ∈ events, e.IsOf f)
    (hi : i ∈ (t.node p).children) : g.CanSearch r (f i) := by
  obtain ⟨own, ids, -, hperm, -, hsearches⟩ := harises
  obtain ⟨searcher, hsearcher, tree, hcall, -⟩ :=
    exists_change_of_searches hsearches (hperm.mem_iff.2 hi)
  obtain ⟨id, hid, hsearcher⟩ := List.mem_filterMap.1 hsearcher
  have hrule : f i = searcher.1 := hf _ hcall
  obtain ⟨hchild, hpattern⟩ := Grammar.ruleAt?_of_searcher? hsearcher
  rw [hrule]
  exact ⟨⟨id, hid, hchild⟩, hpattern⟩

/-- The nodes of a whole parse follow the wiring. -/
theorem Runs.followsWiring {input : Text} {seed : State}
    (h : Runs g levels (.node root rule) (startTree rule input seed) events edits t)
    (ht : Shallow t) : FollowsWiring g rule t := by
  have hready : (Task.node root rule).Ready (startTree rule input seed) :=
    ⟨Nat.zero_lt_one, rfl⟩
  obtain ⟨f, hroot, hf⟩ := h.exists_rule hready
  -- the rule that a node has arisen by is the one whose hooks have been called for it
  have harises (i) (hi : i < t.size) :
      (f i).ref = (t.node i).rule ∧ Arises g t events (f i) i (t.node i) := by
    obtain ⟨r, -, href, harises⟩ := h.arises i hi
    obtain ⟨-, -, ⟨tree, -, hcall, -⟩, -⟩ := id harises
    have hrule : f i = r := hf _ hcall
    exact ⟨hrule ▸ href, hrule ▸ harises⟩
  refine ⟨f, hroot _ _ rfl, fun i hi => ⟨(harises i hi).1, fun hne => ?_⟩⟩
  obtain ⟨p, hp⟩ := ht.exists_isParent hi hne
  have hlt : p < t.size := (ht.linked.parent_lt hp).trans hi
  exact ⟨p, hp, canSearch_of_arises (harises p hlt).2 hf (ht.linked.mem_children.2 hp)⟩

/-! ## Whole parses -/

variable {input : Text} {seed : State}

/-- Every parse has a history. -/
theorem exists_history {result : Except ParseError Tree} (h : run g rule input seed = result) :
    ∃ events, history g rule input seed = (result, events) :=
  ⟨_, Prod.ext ((history_fst g rule input seed).trans h) rfl⟩

/-- No node is nested too deep in the tree that a parse returns, nor in one that a hook sees. -/
theorem shallow_of_history {result : Except ParseError Tree}
    (h : history g rule input seed = (result, events)) :
    (∀ t, result = .ok t → Shallow t) ∧ ∀ e ∈ events, SeesShallow e := by
  have hfits := fits_startTree rule input seed
  cases result with
  | ok t =>
    obtain ⟨hkeeps, hevents⟩ := (runs_of_history h).shallow hfits
    refine ⟨?_, hevents⟩
    rintro _ ⟨⟩
    exact hkeeps.shallow
  | error e =>
    refine ⟨?_, (stops_of_history h).shallow hfits⟩
    rintro _ ⟨⟩

/-- What ends a whole parse. -/
theorem cause_of_history {e : ParseError}
    (h : history g rule input seed = (.error e, events)) :
    (∃ name stage message, e = .hook name stage message) ∨
      ∃ last, e = .recursionLimit last.name maxDepth ∧ g.Descends (maxDepth + 1) rule last := by
  refine (stops_of_history h).cause.imp_right ?_
  rintro ⟨first, last, he, hfirst, hdescends⟩
  exact ⟨last, he, hdescends.cons hfirst⟩

/-- In a tree that a parse returns, each node but the root is of a rule with a pattern that is wired
under the rule of its parent, and is nested at most 128 levels below the root, by any count of the
levels, and so is every node that a hook sees, also in a parse that fails. A parse fails only
because a hook does or for the depth, and then a chain of 129 steps leads from the rule that it has
started from to the one that it reports. So where there is no such chain, or where the rules stand
on levels up to 128, only a hook can make it fail. -/
theorem depth_of_history {result : Except ParseError Tree}
    (h : history g rule input seed = (result, events)) :
    (∀ t, result = .ok t → FollowsWiring g rule t ∧
      (∀ i < t.size, ∃ n ≤ 128, t.IsNested n i) ∧ ∀ i n, t.IsNested n i → n ≤ 128) ∧
    (∀ e ∈ events, e.Sees fun v => (∀ i < v.tree.size, ∃ n ≤ 128, v.tree.IsNested n i) ∧
      ∀ i n, v.tree.IsNested n i → n ≤ 128) ∧
    (∀ e, result = .error e → (∃ name stage message, e = .hook name stage message) ∨
      ∃ last, e = .recursionLimit last.name 128 ∧ g.Descends 129 rule last) ∧
    ((∀ last, ¬ g.Descends 129 rule last) ∨ g.HasLevels 128 →
      ∀ e, result = .error e → ∃ name stage message, e = .hook name stage message) := by
  obtain ⟨hshallow, hevents⟩ := shallow_of_history h
  have hcause (e) (he : result = .error e) := cause_of_history (he ▸ h)
  refine ⟨fun t ht => ?_, fun e he => ?_, hcause, fun hchain e he => ?_⟩
  · have hruns := runs_of_history (ht ▸ h)
    exact ⟨hruns.followsWiring (hshallow t ht), (hshallow t ht).nested,
      fun i n => (hshallow t ht).le_maxDepth⟩
  · cases e with
    | call rule stage v =>
      have hview : Shallow v.tree := hevents _ he
      exact ⟨hview.nested, fun i n => hview.le_maxDepth⟩
    | search => trivial
  · rcases hcause e he with hhook | ⟨last, -, hlast⟩
    · exact hhook
    · rcases hchain with hnone | hlevels
      · exact absurd hlast (hnone last)
      · exact absurd hlast hlevels.not_descends

/-! ## A rule that is wired under itself -/

/-- The rule that matches a word, and searches the texts of its own matches. -/
def selfRule (word : Text) : Rule :=
  { Grammar.wordRule word .identity with children := [.ofIndex 1] }

/-- The grammar of two rules where the one below the root is wired under itself. -/
def ofSelf (word : Text) : Grammar :=
  { rules := #[(Grammar.ofWord word .identity).root, selfRule word]
    root := (Grammar.ofWord word .identity).root }

section

open ParseM

variable {ω α β : Type} {watch : Watcher ω} {word text : Text} {x : ParseM ω α}
  {f : α → ParseM ω β} {resolve : Resolver ω} {i : NodeId}

/-- A part of a parse fails in a tree. -/
def FailsIn (t : Tree) (x : ParseM ω α) (e : ParseError) : Prop :=
  ∀ record, (x.outcome t record).1 = .error e

/-- What fails in a tree fails whatever comes behind it. -/
theorem FailsIn.bind (h : FailsIn t x e) : FailsIn t (x >>= f) e := by
  intro record
  have hx := h record
  rw [outcome_bind]
  rcases hout : x.outcome t record with ⟨_ | _, _⟩ <;> rw [hout] at hx <;> cases hx
  rfl

/-- The first part leads to the second one, which fails. -/
theorem FailsIn.of_bind {a : α} (later : ω → ω)
    (h : ∀ record, x.outcome t record = (.ok (a, t'), later record)) (hf : FailsIn t' (f a) e) :
    FailsIn t (x >>= f) e := by
  intro record
  rw [outcome_bind, h record]
  exact hf (later record)

/-- The pattern of a word has one match in a text with the word. -/
theorem exists_scan_first (h : Text.includes word text) :
    ∃ m, (Pattern.first word).scan text = [m] ∧ m.captures.whole = word := by
  obtain ⟨⟨before, behind⟩, hcut⟩ := Option.isSome_iff_exists.1 h
  refine ⟨_, by simp only [Pattern.first, hcut]; rfl, ?_⟩
  cases word <;> rfl

/-- A word has itself as a part. -/
theorem includes_self (word : Text) : Text.includes word word := by
  have hbeginning : word.isPrefixOf? word = some [] :=
    Text.isPrefixOf?_eq_some_iff.2 (List.append_nil word)
  cases word with
  | nil => rfl
  | cons c rest => simp [Text.includes, Text.cutAt?, hbeginning]

/-- Below a node with the word in its text, a match of the word is resolved. -/
theorem failsIn_resolveNode {r : Rule} (hid : i < t.size) (hown : (t.node i).localState = .empty)
    (hword : Text.includes word (t.node i).matched) (hchildren : r.children = [.ofIndex 1])
    (hcapture : r.hooks.onCapture = Hooks.keepText)
    (hresolve : ∀ t m, i < t.size → m.captures.whole = word →
      FailsIn t (resolve i (selfRule word) m) e) :
    FailsIn t (resolveNode watch (ofSelf word) resolve i r) e := by
  -- the hook leaves the node with its matched text as the one to be searched
  let t₁ := (View.withStates ⟨t, i⟩ (View.states ⟨t, i⟩)).setModified i (t.node i).matched
  have hid₁ : i < (View.withStates ⟨t, i⟩ (View.states ⟨t, i⟩)).size := by simpa using hid
  have hnode : t₁.node i =
      { t.node i with modified := (t.node i).matched, working := (t.node i).matched } := by
    rw [node_setModified_self hid₁, View.node_withStates_self (v := ⟨t, i⟩) hid]
    rfl
  have hsearcher : (ofSelf word).searcher? (t₁.node i).localState (.ofIndex 1) =
      some (selfRule word, .first word) := by
    rw [hnode, hown]
    rfl
  obtain ⟨m, hscan, hm⟩ : ∃ m, (Pattern.first word).scan (t₁.node i).working = [m] ∧
      m.captures.whole = word := by
    rw [hnode]
    exact exists_scan_first hword
  have hpass : FailsIn t₁ (pass watch resolve i (selfRule word) (.first word)) e := by
    refine .of_bind id (fun _ => rfl) (.of_bind _ (fun _ => rfl) (.bind ?_))
    rw [hscan]
    exact (hresolve t₁ m (by simpa [t₁] using hid) hm).bind
  have hsearch : FailsIn t₁ (runChild watch (ofSelf word) resolve i (.ofIndex 1)) e := by
    intro record
    rw [runChild_of_searcher?_eq_some hsearcher]
    exact hpass record
  have hchild : FailsIn t₁ (runChildren watch (ofSelf word) resolve i r) e := by
    rw [runChildren, hchildren]
    exact hsearch.bind
  refine .of_bind (a := ()) (watch (.call r .capture ⟨t, i⟩)) (fun record => ?_) hchild.bind
  rw [capture, hcapture]
  rfl

/-- However many levels are left for a match of the word, they are used up. -/
theorem failsIn_resolveMatch (levels : Nat) (hp : p < t.size) (hm : m.captures.whole = word) :
    FailsIn t (resolveMatch watch (ofSelf word) levels p (selfRule word) m)
      (.recursionLimit ['w'] maxDepth) := by
  induction levels generalizing p t m with
  | zero => exact fun _ => rfl
  | succ levels ih =>
    have hnode : (addMatch t p (selfRule word) m).node t.size =
        matchNode t p (selfRule word) m := by
      rw [node_addMatch hp, if_pos rfl]
    refine .of_bind id (fun _ => rfl) (.bind (failsIn_resolveNode (by simp) ?_ ?_ rfl rfl
      fun _ _ => ih))
    · rw [hnode]
      rfl
    · rw [hnode]
      exact hm ▸ includes_self word

end

/-- An input with the word is too deep for a rule that is wired under itself. -/
theorem run_ofSelf {word : Text} (h : Text.includes word input) :
    run (ofSelf word) (ofSelf word).root input seed = .error (.recursionLimit ['w'] maxDepth) := by
  have hfails : FailsIn (startTree (ofSelf word).root input seed)
      (resolveNode (fun _ record => record) (ofSelf word)
        (resolveMatch (fun _ (record : Unit) => record) (ofSelf word) maxDepth) root
        (ofSelf word).root) (.recursionLimit ['w'] maxDepth) :=
    failsIn_resolveNode Nat.zero_lt_one rfl h rfl rfl fun _ _ => failsIn_resolveMatch maxDepth
  rw [run, watchedRun_eq, hfails ()]
  rfl

/-- The nodes of a word are one level deep, and a rule that is wired under itself is reported at the
end of a chain of 129 steps. -/
theorem depth_of_history_ofSelf :
    (∃ t events, history (.ofWord ['a'] .identity) (Grammar.ofWord ['a'] .identity).root
        ['b', 'a'] .empty = (.ok t, events) ∧ t.size = 2 ∧
      FollowsWiring (.ofWord ['a'] .identity) (Grammar.ofWord ['a'] .identity).root t ∧
      (∀ i < t.size, ∃ n ≤ 128, t.IsNested n i) ∧ ∀ i n, t.IsNested n i → n ≤ 128) ∧
    ∃ events, history (ofSelf ['a']) (ofSelf ['a']).root ['b', 'a'] .empty =
        (.error (.recursionLimit ['w'] 128), events) ∧
      ∃ last, last.name = ['w'] ∧ (ofSelf ['a']).Descends 129 (ofSelf ['a']).root last := by
  let g := Grammar.ofWord ['a'] .identity
  obtain ⟨hword, -⟩ := depth_of_history (rfl : history g g.root ['b', 'a'] .empty = (_, _))
  have hdeep : run (ofSelf ['a']) (ofSelf ['a']).root ['b', 'a'] .empty =
      .error (.recursionLimit ['w'] 128) := run_ofSelf rfl
  obtain ⟨events, hself⟩ := exists_history hdeep
  obtain ⟨-, -, hcause, -⟩ := depth_of_history hself
  refine ⟨⟨_, _, rfl, rfl, hword _ rfl⟩, events, hself, ?_⟩
  obtain ⟨name, stage, message, hhook⟩ | ⟨last, hlast, hdescends⟩ := hcause _ rfl
  · simp at hhook
  · exact ⟨last, (ParseError.recursionLimit.inj hlast).1.symm, hdescends⟩

end Engine

end Cascade
