import Cascade.Proofs.Engine.Calls
import Cascade.Proofs.Grammar.Scan
import Mathlib.Data.List.Forall2

/-!
# The working text of a node, pass by pass

The working text of a node starts as its modified text. Each rule that searches it replaces the
matches of its pattern, each by what the hook of the rule has substituted, and leaves all else as it
is. The children of the node tell the passes in the order in which they were created.

* `Searches`, `Passes`: what the passes over a text have in common with the nodes that they have
  created, for all patterns, and for those that are faithful and ordered.
* `Runs.outcome`: what a part of a parse does to the text of its node.
* `Runs.arises`: how the working texts of all nodes have come about, whatever the patterns are.
* `buffers_of_history`: how the working text of each node of a tree has come about.
-/

namespace Cascade

open Text

/-- Among the events of a parse with the tree `t`, the hook of a rule is called for a node that has
been resolved, and gives the text that is substituted for it. -/
def Substituted (t : Tree) (events : List Event) (rule : Rule) (i : NodeId) (text : Text) : Prop :=
  ∃ tree t', .call rule .substitute ⟨tree, i⟩ ∈ events ∧
    (tree.node i).settled = (t.node i).settled ∧
    rule.hooks.onSubstitute.Succeeds ⟨tree, i⟩ text t'

/-- Among the events of a parse with the tree `t`, the hook of a rule is called for a node, gives
its modified text, and leaves it with a state of its own. -/
def Captured (t : Tree) (events : List Event) (rule : Rule) (i : NodeId) (text : Text)
    (own : State) : Prop :=
  ∃ tree t', .call rule .capture ⟨tree, i⟩ ∈ events ∧
    (tree.node i).fixed = (t.node i).fixed ∧
    rule.hooks.onCapture.Succeeds ⟨tree, i⟩ text t' ∧ own = (t'.node i).localState

/-- A node is that of a match of a rule. -/
structure Tree.IsMatch (t : Tree) (rule : Rule) (i : NodeId) (m : Match) : Prop where
  rule_eq : (t.node i).rule = rule.ref
  span_eq : (t.node i).span = m.span
  matched_eq : (t.node i).matched = m.captures.whole
  captures_eq : (t.node i).captures? = some m.captures

/-- A change replaces the match of a node by the text that its rule substitutes for it. -/
structure Tree.IsChange (t : Tree) (events : List Event) (rule : Rule) (i : NodeId) (c : Change) :
    Prop where
  span_eq : c.span = (t.node i).span
  old_eq : c.old = (t.node i).matched
  substituted : Substituted t events rule i c.new

/-- `Searches t events p searchers before ids after`: the rules search `before`, a text of the node
`p`, one after the other, and leave `after`. The nodes `ids` are those of the matches, in order. -/
inductive Searches (t : Tree) (events : List Event) (p : NodeId) :
    List (Rule × Pattern) → Text → List NodeId → Text → Prop where
  | nil {text} : Searches t events p [] text [] text
  | cons {rule pattern searchers before after group ids changes}
      (hsearch : .search p rule pattern before ∈ events)
      (hmatches : List.Forall₂ (t.IsMatch rule) group (pattern.scan before))
      (hchanges : List.Forall₂ (t.IsChange events rule) group changes)
      (hrest : Searches t events p searchers (before.splice (changes.map Change.edit)) ids after) :
      Searches t events p ((rule, pattern) :: searchers) before (group ++ ids) after

/-- Searches by rules whose patterns are faithful and ordered: each change stands where its match
has been found, and all else in the text is as it was. -/
inductive Passes (t : Tree) (events : List Event) (p : NodeId) :
    List (Rule × Pattern) → Text → List NodeId → Text → Prop where
  | nil {text} : Passes t events p [] text [] text
  | cons {rule pattern searchers before text after group ids changes}
      (hsearch : .search p rule pattern before ∈ events)
      (hmatches : List.Forall₂ (t.IsMatch rule) group (pattern.scan before))
      (hmatched : ∀ i ∈ group, before.At (t.node i).span (t.node i).matched)
      (hchanges : List.Forall₂ (t.IsChange events rule) group changes)
      (hreplaced : Replaced 0 changes before text)
      (hrebuild : rebuild? before 0 (changes.map Change.edit) = some text)
      (hrest : Passes t events p searchers text ids after) :
      Passes t events p ((rule, pattern) :: searchers) before (group ++ ids) after

/-- How the working text of a node `n` with number `p` has come about: its children, in the order in
which they were created, tell the searches by those rules wired under its rule that have a pattern
and are not skipped by the state that its rule has left it with. -/
def Arises (g : Grammar) (t : Tree) (events : List Event) (rule : Rule) (p : NodeId) (n : Node) :
    Prop :=
  ∃ own ids, Captured t events rule p n.modified own ∧ ids.Perm n.children ∧
    ids.Pairwise (· < ·) ∧
    Searches t events p (rule.children.filterMap (g.searcher? own)) n.modified ids n.working

/-- How the working text of a node has come about if all patterns are faithful and ordered. -/
def Buffers (g : Grammar) (t : Tree) (events : List Event) (rule : Rule) (p : NodeId) (n : Node) :
    Prop :=
  ∃ own ids, Captured t events rule p n.modified own ∧ ids.Perm n.children ∧
    ids.Pairwise (· < ·) ∧
    Passes t events p (rule.children.filterMap (g.searcher? own)) n.modified ids n.working

section

/-- What is in the first of two lists that go together has its partner in the second. -/
theorem exists_of_mem_left {α β : Type} {R : α → β → Prop} {as : List α} {bs : List β}
    (h : List.Forall₂ R as bs) {a : α} (ha : a ∈ as) : ∃ b ∈ bs, R a b := by
  induction h with
  | nil => contradiction
  | @cons a' b as bs hab _ ih =>
    rcases List.mem_cons.1 ha with rfl | ha
    · exact ⟨b, List.mem_cons_self, hab⟩
    · obtain ⟨b', hb', hab'⟩ := ih ha
      exact ⟨b', List.mem_cons_of_mem _ hb', hab'⟩

/-- What is in the second of two lists that go together has its partner in the first. -/
theorem exists_of_mem_right {α β : Type} {R : α → β → Prop} {as : List α} {bs : List β}
    (h : List.Forall₂ R as bs) {b : β} (hb : b ∈ bs) : ∃ a ∈ as, R a b :=
  exists_of_mem_left (R := flip R) h.flip hb

variable {t : Tree} {rule : Rule} {events : List Event} {group : List NodeId}
  {found : List Match} {changes : List Change}

/-- The changes and the matches of nodes correspond to each other. -/
theorem forall₂_of_changes {R : Change → Match → Prop}
    (hmatches : List.Forall₂ (t.IsMatch rule) group found)
    (hchanges : List.Forall₂ (t.IsChange events rule) group changes)
    (h : ∀ i ∈ group, ∀ m ∈ found, ∀ c, t.IsMatch rule i m → t.IsChange events rule i c → R c m) :
    List.Forall₂ R changes found := by
  induction hmatches generalizing changes with
  | nil =>
    cases hchanges
    exact .nil
  | cons hm _ ih =>
    cases hchanges with
    | cons hc hrest =>
      exact .cons (h _ List.mem_cons_self _ List.mem_cons_self _ hm hc)
        (ih hrest fun i hi m hm => h i (List.mem_cons_of_mem _ hi) m (List.mem_cons_of_mem _ hm))

/-- The changes of nodes are those of their matches. -/
theorem span_eq_of_changes (hmatches : List.Forall₂ (t.IsMatch rule) group found)
    (hchanges : List.Forall₂ (t.IsChange events rule) group changes) :
    changes.map Change.span = found.map Match.span := by
  rw [← List.forall₂_eq_eq_eq, List.forall₂_map_left_iff, List.forall₂_map_right_iff]
  exact forall₂_of_changes hmatches hchanges fun _ _ _ _ _ hm hc => hc.span_eq.trans hm.span_eq

/-- The nodes of matches that stand in a text stand there. -/
theorem at_of_matches {text : Text} (hmatches : List.Forall₂ (t.IsMatch rule) group found)
    (hat : ∀ m ∈ found, text.At m.span m.captures.whole) :
    ∀ i ∈ group, text.At (t.node i).span (t.node i).matched := by
  intro i hi
  obtain ⟨m, hm, hmatch⟩ := exists_of_mem_left hmatches hi
  rw [hmatch.span_eq, hmatch.matched_eq]
  exact hat m hm

/-- Changes at nodes that stand in a text are changes of what stands there. -/
theorem at_of_changes {text : Text}
    (hchanges : List.Forall₂ (t.IsChange events rule) group changes)
    (hat : ∀ i ∈ group, text.At (t.node i).span (t.node i).matched) :
    ∀ c ∈ changes, text.At c.span c.old := by
  intro c hc
  obtain ⟨i, hi, hchange⟩ := exists_of_mem_right hchanges hc
  rw [hchange.span_eq, hchange.old_eq]
  exact hat i hi

/-- One pass of a rule whose pattern is faithful and ordered. -/
theorem Passes.of_scan {p : NodeId} {pattern : Pattern} {searchers : List (Rule × Pattern)}
    {before after : Text} {ids : List NodeId} (hfaithful : pattern.Faithful)
    (hordered : pattern.Ordered) (hsearch : .search p rule pattern before ∈ events)
    (hmatches : List.Forall₂ (t.IsMatch rule) group (pattern.scan before))
    (hchanges : List.Forall₂ (t.IsChange events rule) group changes)
    (hrest : Passes t events p searchers (before.splice (changes.map Change.edit)) ids after) :
    Passes t events p ((rule, pattern) :: searchers) before (group ++ ids) after := by
  have hmatched := at_of_matches hmatches (hfaithful before)
  have hat := at_of_changes hchanges hmatched
  -- the changes stand where the matches do, so they are as much in order
  have horder : InOrder (changes.map Change.span) := by
    rw [span_eq_of_changes hmatches hchanges]
    exact hordered before
  exact .cons hsearch hmatches hmatched hchanges (replaced_splice hat horder)
    (rebuild?_eq_some_splice hat horder) hrest

/-- Searches with faithful patterns that find matches in order pass from one text to the next by
replacing what they found. -/
theorem Searches.passes {p : NodeId} {searchers : List (Rule × Pattern)} {before after : Text}
    {ids : List NodeId} (h : Searches t events p searchers before ids after)
    (hall : ∀ searcher ∈ searchers, searcher.2.Faithful ∧ searcher.2.Ordered) :
    Passes t events p searchers before ids after := by
  induction h with
  | nil => exact .nil
  | cons hsearch hmatches hchanges _ ih =>
    obtain ⟨⟨hfaithful, hordered⟩, hall⟩ := List.forall_mem_cons.1 hall
    exact .of_scan hfaithful hordered hsearch hmatches hchanges (ih hall)

/-- In a grammar whose patterns are faithful and ordered, all searches are by such patterns. -/
theorem Arises.buffers {g : Grammar} {p : NodeId} {n : Node} (h : Arises g t events rule p n)
    (hfaithful : g.Faithful) (hordered : g.Ordered) : Buffers g t events rule p n := by
  obtain ⟨own, ids, hcaptured, hperm, hsorted, hsearches⟩ := h
  refine ⟨own, ids, hcaptured, hperm, hsorted, hsearches.passes fun searcher hsearcher => ?_⟩
  obtain ⟨id, -, hid⟩ := List.mem_filterMap.1 hsearcher
  have hid : g.searcher? own id = some (searcher.1, searcher.2) := hid
  obtain ⟨hchild, hpattern⟩ := Grammar.mem_rules_of_searcher? hid
  exact ⟨hfaithful _ hchild _ hpattern, hordered _ hchild _ hpattern⟩

end

namespace Engine

open List (forall_mem_append forall_mem_cons forall_mem_nil forall_mem_singleton)
open Cascade.Tree

/-- The finished tree `T` has the nodes of `t` from number `first` on, links apart. -/
def Agrees (T t : Tree) (first : NodeId) : Prop :=
  ∀ i, first ≤ i → i < t.size → (T.node i).unlinked = (t.node i).unlinked

/-- Nodes that are created between `t` and `t'`, in this order. -/
def Created (t t' : Tree) (ids : List NodeId) : Prop :=
  ids.Pairwise (· < ·) ∧ ∀ i ∈ ids, t.size ≤ i ∧ i < t'.size

/-- What a task does to its node on the way from `t` to `t'`, in a parse with the given events that
ends with the tree `T`. -/
def Task.Outcome (g : Grammar) (T : Tree) (history : List Event) (t t' : Tree)
    (edits : List (Span × Text)) : Task → Prop
  | node id rule => Arises g T history rule id (t'.node id)
  | search p rules => ∃ ids, (t'.node p).children = (t.node p).children ++ ids ∧ Created t t' ids ∧
      Searches T history p (rules.filterMap (g.searcher? (t.node p).localState)) (t.node p).working
        ids (t'.node p).working
  | resolve p child found => ∃ ids changes, (t'.node p).children = (t.node p).children ++ ids ∧
      Created t t' ids ∧ List.Forall₂ (T.IsMatch child) ids found ∧
      List.Forall₂ (T.IsChange history child) ids changes ∧ edits = changes.map Change.edit

variable {g : Grammar} {levels : Nat} {task : Task} {t t' : Tree} {events : List Event}
  {edits : List (Span × Text)}

/-- The rule of a task that resolves matches is one of the grammar, and a node that is to be
resolved is that of the finished tree `T`. -/
def Task.Known (g : Grammar) (T t : Tree) : Task → Prop
  | node id _ => (t.node id).fixed = (T.node id).fixed
  | resolve _ child _ => child ∈ g.rules
  | search _ _ => True

/-- How the text of a node arises does not depend on the rest of the node, nor on the order of its
children. -/
theorem arises_congr {T : Tree} {history : List Event} {rule : Rule} {i : NodeId} {n n' : Node}
    (h : Arises g T history rule i n) (hmodified : n'.modified = n.modified)
    (hworking : n'.working = n.working) (hchildren : n.children.Perm n'.children) :
    Arises g T history rule i n' := by
  obtain ⟨own, ids, hcaptured, hperm, hsorted, hsearches⟩ := h
  refine ⟨own, ids, hmodified ▸ hcaptured, hperm.trans hchildren, hsorted, ?_⟩
  rw [hmodified, hworking]
  exact hsearches

/-- What is older than the end of a task stays as it is behind the task. -/
theorem agrees_of_frame {T t₁ t₂ : Tree} {p : NodeId} {mask : Node → Node} {first : NodeId}
    (h : Agrees T t₂ first) (hframe : Frame p mask t₁ t₂) (hp : p < first) :
    Agrees T t₁ first := by
  intro i hi hlt
  rw [h i hi (hlt.trans_le hframe.size_le), hframe.node_eq i hlt (hp.trans_le hi).ne']

/-- The end of the resolution of a node changes no other node but its links. -/
theorem agrees_linkChildren {T : Tree} {id first : NodeId} {states : States}
    (h : Agrees T (View.withStates ⟨t.linkChildren id, id⟩ states) first) (hid : id < first) :
    Agrees T t first := by
  intro i hi hlt
  have hne : i ≠ id := (hid.trans_le hi).ne'
  rw [h i hi (by simpa using hlt), View.node_withStates_of_ne hne,
    unlinked_node_linkChildren_of_ne hne]

/-- Resolving a node, once it is known what has become of its text. -/
theorem arises_of_search {T t₁ t₂ t₃ : Tree} {history : List Event} {id : NodeId} {rule : Rule}
    {text : Text} (hid : id < t.size) (hchildless : (t.node id).children = [])
    (hcall : .call rule .capture ⟨t, id⟩ ∈ history)
    (hfixed : (t.node id).fixed = (T.node id).fixed)
    (hcapture : rule.hooks.onCapture.Succeeds ⟨t, id⟩ text t₁)
    (hframe : Frame id Node.withoutWork (t₁.setModified id text) t₂)
    (hsearch : (Task.search id rule.children).Outcome g T history (t₁.setModified id text) t₂ [])
    (hresolve : rule.hooks.onResolve.Succeeds ⟨t₂.linkChildren id, id⟩ () t₃) :
    Arises g T history rule id (t₃.node id) := by
  obtain ⟨ids, hids, hcreated, hsearches⟩ := hsearch
  -- the state that skips rules is the one that the hook has left, as searching keeps it
  have hcaptured : Captured T history rule id text (t₁.node id).localState :=
    ⟨t, t₁, hcall, hfixed, hcapture, rfl⟩
  obtain ⟨s₁, -, rfl⟩ := hcapture
  obtain ⟨s₃, -, rfl⟩ := hresolve
  have hid₁ : id < (View.withStates ⟨t, id⟩ s₁).size := by simpa using hid
  have hid₂ : id < t₂.size := hid.trans_le (by simpa using hframe.size_le)
  have hnode₁ : (View.withStates ⟨t, id⟩ s₁).node id = { t.node id with localState := s₁.own } :=
    View.node_withStates_self (v := ⟨t, id⟩) hid
  rw [node_setModified_self hid₁] at hids hsearches
  have hmodified : (t₂.node id).modified = text := by
    have hmask := congrArg Node.modified hframe.mask_eq
    rw [node_setModified_self hid₁] at hmask
    exact hmask
  have hids₂ : (t₂.node id).children = ids := by
    rw [hids, hnode₁]
    simp [hchildless]
  -- the node is older than its children, so ordering these keeps the node
  have hself : id ∉ (t₂.node id).children := by
    intro hmem
    have hlt := (hcreated.2 id (hids₂ ▸ hmem)).1
    simp only [size_setModified] at hlt
    exact absurd hid₁ hlt.not_gt
  have hnode₃ : (View.withStates ⟨t₂.linkChildren id, id⟩ s₃).node id =
      { t₂.node id with
        children := t₂.sortByStart (t₂.node id).children
        localState := s₃.own } := by
    rw [View.node_withStates_self (v := ⟨t₂.linkChildren id, id⟩) (by simpa using hid₂),
      node_linkChildren_self hid₂ hself]
  rw [hnode₃]
  -- the children have been ordered by where they start, and not by when they were created
  refine ⟨_, ids, hmodified.symm ▸ hcaptured, ?_, hcreated.1, hmodified.symm ▸ hsearches⟩
  rw [hids₂]
  exact (sortByStart_perm ids).symm

/-- The node of a match is still that of the match when it has been resolved. -/
theorem isMatch_of_frame {T t₁ : Tree} {p : NodeId} {child : Rule} {m : Match} (hp : p < t.size)
    (hframe : Frame t.size Node.core (addMatch t p child m) t₁)
    (hT : (T.node t.size).fixed = (t₁.node t.size).fixed) : T.IsMatch child t.size m := by
  have hnew : (addMatch t p child m).node t.size = matchNode t p child m := by
    rw [node_addMatch hp, if_pos rfl]
  have hfixed : (T.node t.size).fixed = (matchNode t p child m).fixed := by
    rw [hT, Node.fixed_eq_of_core_eq hframe.mask_eq, hnew]
  obtain ⟨hrule, -, hspan, hmatched, -, hcaptures⟩ := Node.fixed_eq_iff.1 hfixed
  exact ⟨hrule, hspan, hmatched, hcaptures⟩

/-- Nodes that are created later come behind. -/
theorem Created.append {t₁ t₂ : Tree} {ids ids' : List NodeId} (h : Created t t₁ ids)
    (h' : Created t₁ t₂ ids') (hle : t.size ≤ t₁.size) (hle' : t₁.size ≤ t₂.size) :
    Created t t₂ (ids ++ ids') := by
  constructor
  · rw [List.pairwise_append]
    exact ⟨h.1, h'.1, fun i hi j hj => (h.2 i hi).2.trans_le (h'.2 j hj).1⟩
  · intro i hi
    rcases List.mem_append.1 hi with hi | hi
    · exact ⟨(h.2 i hi).1, (h.2 i hi).2.trans_le hle'⟩
    · exact ⟨hle.trans (h'.2 i hi).1, (h'.2 i hi).2⟩

/-- The passes behind the first one go on with the text that it leaves. -/
theorem outcome_pass {T t₁ t₂ : Tree} {history : List Event} {p : NodeId} {id : RuleId}
    {ids : List RuleId} {child : Rule} {pattern : Pattern} (hp : p < t.size)
    (hchild : g.searcher? (t.node p).localState id = some (child, pattern))
    (hsearch : .search p child pattern (t.node p).working ∈ history)
    (hframe : Frame p Node.childless t t₁) (hle : t₁.size ≤ t₂.size)
    (hresolve : (Task.resolve p child (pattern.scan (t.node p).working)).Outcome g T history t t₁
      edits)
    (hrest : (Task.search p ids).Outcome g T history
      (t₁.setWorking p ((t.node p).working.splice edits)) t₂ []) :
    (Task.search p (id :: ids)).Outcome g T history t t₂ [] := by
  obtain ⟨group, changes, hgroup, hcreated, hmatches, hchanges, rfl⟩ := hresolve
  obtain ⟨rest, hrest, hcreated', hsearches⟩ := hrest
  rw [node_setWorking_self (hp.trans_le hframe.size_le)] at hrest hsearches
  -- resolving the matches keeps the state of the node, so the same rules are skipped as before
  have hown : (t₁.node p).localState = (t.node p).localState := by
    have hmask := congrArg Node.localState hframe.mask_eq
    exact hmask
  simp only [hown] at hsearches
  simp only [Created, size_setWorking] at hcreated'
  refine ⟨group ++ rest, ?_, hcreated.append hcreated' hframe.size_le hle, ?_⟩
  · rw [hrest, hgroup, List.append_assoc]
  · rw [List.filterMap_cons_some hchild]
    exact .cons hsearch hmatches hchanges hsearches

/-- The match that comes first makes the first of the nodes and the first of the changes. -/
theorem outcome_cons {T t₁ t₂ : Tree} {history : List Event} {p : NodeId} {child : Rule}
    {m : Match} {found : List Match} {replacement : Text} {s : States} (hp : p < t.size)
    (hframe : Frame t.size Node.core (addMatch t p child m) t₁) (hle : t₁.size ≤ t₂.size)
    (hmatch : T.IsMatch child t.size m)
    (hchange : T.IsChange history child t.size ⟨m.span, m.captures.whole, replacement⟩)
    (hrest : (Task.resolve p child found).Outcome g T history
      (View.withStates ⟨t₁, t.size⟩ s) t₂ edits) :
    (Task.resolve p child (m :: found)).Outcome g T history t t₂
      ((m.span, replacement) :: edits) := by
  obtain ⟨ids, changes, hids, hcreated, hmatches, hchanges, rfl⟩ := hrest
  simp only [Created, View.size_withStates] at hcreated
  have hsize : t.size < t₁.size := hframe.lt_size_of_addMatch
  have hfirst : Created t t₁ [t.size] :=
    ⟨List.pairwise_singleton .., by simpa using hsize⟩
  have hlisted : (t₁.node p).children = (t.node p).children ++ [t.size] := by
    rw [hframe.node_eq p (by simpa using Nat.lt_succ_of_lt hp) hp.ne, node_addMatch hp,
      if_neg hp.ne, if_pos rfl]
  refine ⟨t.size :: ids, ⟨m.span, m.captures.whole, replacement⟩ :: changes, ?_,
    hfirst.append hcreated hsize.le hle, .cons hmatch hmatches, .cons hchange hchanges, rfl⟩
  rw [hids, View.node_withStates_of_ne hp.ne, hlisted, List.append_assoc]
  rfl

/-- What a part of a parse does to the text of its node, and how the texts of the nodes that it has
added have come about. -/
theorem Runs.outcome (h : Runs g levels task t events edits t') (hready : task.Ready t) {T : Tree}
    (hknown : task.Known g T t) {history : List Event} (hT : Agrees T t' t.size)
    (hevents : events ⊆ history) :
    task.Outcome g T history t t' edits ∧ ∀ i, t.size ≤ i → i < t'.size →
      ∃ r ∈ g.rules, r.ref = (T.node i).rule ∧ Arises g T history r i (T.node i) := by
  -- The finished tree is fixed from outside: what a task leaves behind is not touched any more, so
  -- that its nodes can be read off the finished tree already.
  induction h with
  | @node levels id rule t t₁ t₂ t₃ text events hcapture hsearch hresolve ih =>
    obtain ⟨hid, hchildless⟩ : id < t.size ∧ (t.node id).children = [] := hready
    obtain ⟨hcall, hevents⟩ := List.cons_subset.1 hevents
    have hsize₁ : (t₁.setModified id text).size = t.size := by
      obtain ⟨s₁, -, rfl⟩ := hcapture
      simp
    have hsize₃ : t₃.size = t₂.size := by
      obtain ⟨s₃, -, rfl⟩ := hresolve
      simp
    have hready₁ : (Task.search id rule.children).Ready (t₁.setModified id text) :=
      ⟨hsize₁.symm ▸ hid, trivial⟩
    have hT₂ : Agrees T t₂ (t₁.setModified id text).size := by
      obtain ⟨s₃, -, rfl⟩ := hresolve
      rw [hsize₁]
      exact agrees_linkChildren hT hid
    obtain ⟨hsearched, hnew⟩ := ih hready₁ trivial hT₂ (List.append_subset.1 hevents).1
    refine ⟨arises_of_search hid hchildless hcall hknown hcapture (hsearch.frame hready₁) hsearched
      hresolve, fun i hi hlt => ?_⟩
    exact hnew i (hsize₁ ▸ hi) (hsize₃ ▸ hlt)
  | searchNil =>
    refine ⟨⟨[], by simp, ⟨.nil, by simp⟩, .nil⟩, fun i hi hlt => ?_⟩
    exact absurd hlt hi.not_gt
  | searchSkip hskip _ ih =>
    obtain ⟨⟨ids, hids, hcreated, hsearches⟩, hnew⟩ := ih hready trivial hT hevents
    refine ⟨⟨ids, hids, hcreated, ?_⟩, hnew⟩
    rw [List.filterMap_cons_none hskip]
    exact hsearches
  | @searchPass levels p id ids child pattern t t₁ t₂ events later edits hchild hresolve hrest ih
      ih' =>
    obtain ⟨hp, -⟩ : p < t.size ∧ True := hready
    obtain ⟨hsearch, hevents⟩ := List.cons_subset.1 hevents
    obtain ⟨hevents, hlater⟩ := List.append_subset.1 hevents
    have hframe : Frame p Node.childless t t₁ := hresolve.frame ⟨hp, trivial⟩
    have hp₁ : p < t₁.size := hp.trans_le hframe.size_le
    have hready₁ : (Task.search p ids).Ready (t₁.setWorking p ((t.node p).working.splice edits)) :=
      Task.ready_setWorking hp₁
    have hframe₂ : Frame p Node.withoutWork
        (t₁.setWorking p ((t.node p).working.splice edits)) t₂ := hrest.frame hready₁
    have hle : t₁.size ≤ t₂.size := by simpa using hframe₂.size_le
    have hT₁ : Agrees T t₁ t.size :=
      agrees_of_frame hT ((frame_setWorking hp₁).trans hframe₂) hp
    have hT₂ : Agrees T t₂ (t₁.setWorking p ((t.node p).working.splice edits)).size :=
      fun i hi hlt => hT i (hframe.size_le.trans (by simpa using hi)) hlt
    obtain ⟨hresolved, hnew⟩ :=
      ih ⟨hp, trivial⟩ (Grammar.mem_rules_of_searcher? hchild).1 hT₁ hevents
    obtain ⟨hsearched, hnew'⟩ := ih' hready₁ trivial hT₂ hlater
    refine ⟨outcome_pass hp hchild hsearch hframe hle hresolved hsearched,
      fun i hi hlt => ?_⟩
    rcases Nat.lt_or_ge i t₁.size with hlt₁ | hge
    · exact hnew i hi hlt₁
    · exact hnew' i (by simpa using hge) hlt
  | resolveNil =>
    refine ⟨⟨[], [], by simp, ⟨.nil, by simp⟩, .nil, .nil, rfl⟩, fun i hi hlt => ?_⟩
    exact absurd hlt hi.not_gt
  | @resolveCons levels p child m found t t₁ t₂ t₃ replacement events later edits hnode hsubstitute
      hrest ih ih' =>
    obtain ⟨hp, -⟩ : p < t.size ∧ True := hready
    obtain ⟨hevents, hlater⟩ := List.append_subset.1 hevents
    obtain ⟨hcall, hlater⟩ := List.cons_subset.1 hlater
    have hframe₁ : Frame t.size Node.core (addMatch t p child m) t₁ :=
      hnode.frame (Task.ready_addMatch hp)
    have hsize₁ : t.size < t₁.size := hframe₁.lt_size_of_addMatch
    have hcalled := hsubstitute
    obtain ⟨s, -, rfl⟩ := hsubstitute
    have hready₂ : (Task.resolve p child found).Ready (View.withStates ⟨t₁, t.size⟩ s) :=
      Task.ready_withStates (hp.trans hsize₁)
    have hframe₃ : Frame p Node.childless (View.withStates ⟨t₁, t.size⟩ s) t₃ :=
      hrest.frame hready₂
    have hle : t₁.size ≤ t₃.size := by simpa using hframe₃.size_le
    have hT₂ : Agrees T (View.withStates ⟨t₁, t.size⟩ s) t.size := agrees_of_frame hT hframe₃ hp
    -- the node has been resolved before the hook is called, which changes its state only
    have hself : (t₁.node t.size).settled = (T.node t.size).settled := by
      rw [Node.settled_eq_of_unlinked_eq (hT₂ t.size le_rfl (by simpa using hsize₁)),
        View.node_withStates_self (v := ⟨t₁, t.size⟩) hsize₁]
      rfl
    obtain ⟨hfixed, hmodified, hworking, hchildren⟩ := Node.settled_eq_iff.1 hself
    have hknown₁ : (Task.node t.size child).Known g T (addMatch t p child m) :=
      (Node.fixed_eq_of_core_eq hframe₁.mask_eq).symm.trans hfixed
    have hT₁ : Agrees T t₁ (addMatch t p child m).size := by
      intro i hi hlt
      rw [size_addMatch] at hi
      rw [hT₂ i (Nat.le_of_succ_le hi) (by simpa using hlt), View.node_withStates_of_ne
        (Nat.lt_of_succ_le hi).ne']
    obtain ⟨harises, hnew⟩ := ih (Task.ready_addMatch hp) hknown₁ hT₁ hevents
    obtain ⟨hresolved, hnew'⟩ :=
      ih' hready₂ hknown (fun i hi hlt => hT i (hsize₁.le.trans (by simpa using hi)) hlt) hlater
    -- what replaces the match is known as soon as its node has been resolved
    have hmatch : T.IsMatch child t.size m := isMatch_of_frame hp hframe₁ hfixed.symm
    have hchange : T.IsChange history child t.size ⟨m.span, m.captures.whole, replacement⟩ :=
      ⟨hmatch.span_eq.symm, hmatch.matched_eq.symm, t₁, _, hcall, hself, hcalled⟩
    refine ⟨outcome_cons hp hframe₁ hle hmatch hchange hresolved, fun i hi hlt => ?_⟩
    rcases Nat.lt_or_ge i t₁.size with hlt₁ | hge
    · rcases Nat.eq_or_lt_of_le hi with rfl | hi
      · exact ⟨child, hknown, hmatch.rule_eq.symm,
          arises_congr harises hmodified.symm hworking.symm (.of_eq hchildren)⟩
      · exact hnew i (by simpa using Nat.succ_le_of_lt hi) hlt₁
    · exact hnew' i (by simpa using hge) hlt

/-- How the working text of each node has come about in a whole parse, whatever the patterns are. -/
theorem Runs.arises {rule : Rule} {input : Text} {seed : State}
    (h : Runs g levels (.node root rule) (startTree rule input seed) events edits t) :
    ∀ p < t.size, ∃ r, (p = root ∧ r = rule ∨ r ∈ g.rules) ∧ r.ref = (t.node p).rule ∧
      Arises g t events r p (t.node p) := by
  have hready : (Task.node root rule).Ready (startTree rule input seed) :=
    ⟨Nat.zero_lt_one, rfl⟩
  have hfixed : ((startTree rule input seed).node root).fixed = (t.node root).fixed :=
    (Node.fixed_eq_of_core_eq (h.frame hready).mask_eq).symm
  obtain ⟨hroot, hnew⟩ := h.outcome hready hfixed (fun _ _ _ => rfl) (List.Subset.refl _)
  intro p hp
  rcases Nat.eq_zero_or_pos p with rfl | hpos
  · exact ⟨rule, .inl ⟨rfl, rfl⟩, (Node.fixed_eq_iff.1 hfixed).1, hroot⟩
  · -- all nodes but the root are added on the way
    obtain ⟨r, hr, href, harises⟩ := hnew p hpos hp
    exact ⟨r, .inr hr, href, harises⟩

/-- How the working text of each node has come about in a whole parse with patterns that are
faithful and ordered. -/
theorem Runs.buffers {rule : Rule} {input : Text} {seed : State}
    (h : Runs g levels (.node root rule) (startTree rule input seed) events edits t)
    (hfaithful : g.Faithful) (hordered : g.Ordered) :
    ∀ p < t.size, ∃ r, (p = root ∧ r = rule ∨ r ∈ g.rules) ∧ r.ref = (t.node p).rule ∧
      Buffers g t events r p (t.node p) := by
  intro p hp
  obtain ⟨r, hr, href, harises⟩ := h.arises p hp
  exact ⟨r, hr, href, harises.buffers hfaithful hordered⟩

/-- The search, if the event is one, is by the pattern of a rule of the grammar. -/
def SearchesBy (g : Grammar) : Event → Prop
  | .call _ _ _ => True
  | .search _ child pattern _ => child ∈ g.rules ∧ child.pattern? = some pattern

/-- In a part of a parse, each search is for the pattern of a rule of the grammar. -/
theorem Runs.searchesBy (h : Runs g levels task t events edits t') :
    ∀ e ∈ events, SearchesBy g e := by
  induction h with
  | node _ _ _ ih =>
    exact forall_mem_cons.2 ⟨trivial, forall_mem_append.2 ⟨ih, forall_mem_singleton.2 trivial⟩⟩
  | searchNil => exact forall_mem_nil _
  | searchSkip _ _ ih => exact ih
  | searchPass hchild _ _ ih ih' =>
    exact forall_mem_cons.2
      ⟨Grammar.mem_rules_of_searcher? hchild, forall_mem_append.2 ⟨ih, ih'⟩⟩
  | resolveNil => exact forall_mem_nil _
  | resolveCons _ _ _ ih ih' =>
    exact forall_mem_append.2 ⟨ih, forall_mem_cons.2 ⟨trivial, ih'⟩⟩

/-- In a part of a parse that fails, each search is for the pattern of a rule of the grammar. -/
theorem Stops.searchesBy {e : ParseError} (h : Stops g levels task t events e) :
    ∀ e ∈ events, SearchesBy g e := by
  induction h with
  | nodeCapture => exact forall_mem_singleton.2 trivial
  | nodeSearch _ _ ih => exact forall_mem_cons.2 ⟨trivial, ih⟩
  | nodeResolve _ hsearch =>
    exact forall_mem_cons.2
      ⟨trivial, forall_mem_append.2 ⟨hsearch.searchesBy, forall_mem_singleton.2 trivial⟩⟩
  | searchSkip _ _ ih => exact ih
  | searchPass hchild _ ih =>
    exact forall_mem_cons.2 ⟨Grammar.mem_rules_of_searcher? hchild, ih⟩
  | searchLater hchild hresolve _ ih =>
    exact forall_mem_cons.2
      ⟨Grammar.mem_rules_of_searcher? hchild, forall_mem_append.2 ⟨hresolve.searchesBy, ih⟩⟩
  | resolveLimit => exact forall_mem_nil _
  | resolveNode _ ih => exact ih
  | resolveSubstitute hnode =>
    exact forall_mem_append.2 ⟨hnode.searchesBy, forall_mem_singleton.2 trivial⟩
  | resolveLater hnode _ _ ih =>
    exact forall_mem_append.2 ⟨hnode.searchesBy, forall_mem_cons.2 ⟨trivial, ih⟩⟩

/-- In a parse, each search is for the pattern of a rule of the grammar. -/
theorem searchesBy_history (g : Grammar) (rule : Rule) (input : Text) (seed : State) :
    ∀ e ∈ (history g rule input seed).2, SearchesBy g e := by
  rcases h : history g rule input seed with ⟨e | t, events⟩
  · exact (stops_of_history h).searchesBy
  · exact (runs_of_history h).searchesBy

/-- Whatever replaces the matches of a pattern that is faithful and ordered, no cut goes wrong. -/
theorem isSome_rebuild?_scan {pattern : Pattern} (hfaithful : pattern.Faithful)
    (hordered : pattern.Ordered) (text : Text) (replacement : Match → Text) :
    (text.rebuild? 0 ((pattern.scan text).map fun m => (m.span, replacement m))).isSome := by
  let changes : List Change :=
    (pattern.scan text).map fun m => ⟨m.span, m.captures.whole, replacement m⟩
  have hat : ∀ c ∈ changes, text.At c.span c.old := by
    intro c hc
    obtain ⟨m, hm, rfl⟩ := List.mem_map.1 hc
    exact hfaithful text m hm
  have horder : InOrder (changes.map Change.span) := by
    have hspans : changes.map Change.span = (pattern.scan text).map Match.span := by
      simp [changes]
    rw [hspans]
    exact hordered text
  have hedits : changes.map Change.edit =
      (pattern.scan text).map fun m => (m.span, replacement m) := by
    simp [changes, Change.edit]
  rw [← hedits, rebuild?_eq_some_splice hat horder]
  rfl

/-- How the working text of each node has come about in a parse that succeeds, where no hook is
called twice for a node. In a parse that fails as well, no cut goes wrong when a text is rebuilt. -/
theorem buffers_of_history (hfaithful : g.Faithful) (hordered : g.Ordered) (rule : Rule)
    (input : Text) (seed : State) :
    (∀ p child pattern text, .search p child pattern text ∈ (history g rule input seed).2 →
      ∀ replacement : Match → Text,
        (text.rebuild? 0 ((pattern.scan text).map fun m => (m.span, replacement m))).isSome) ∧
    ∀ t, (history g rule input seed).1 = .ok t →
      (Engine.calls (history g rule input seed).2).Nodup ∧
      ∀ p < t.size, ∃ r, (p = root ∧ r = rule ∨ r ∈ g.rules) ∧ r.ref = (t.node p).rule ∧
        Buffers g t (history g rule input seed).2 r p (t.node p) := by
  constructor
  · intro p child pattern text hsearch replacement
    obtain ⟨hchild, hpattern⟩ := searchesBy_history g rule input seed _ hsearch
    exact isSome_rebuild?_scan (hfaithful child hchild pattern hpattern)
      (hordered child hchild pattern hpattern) text replacement
  · intro t ht
    have hhistory : history g rule input seed = (.ok t, (history g rule input seed).2) :=
      Prod.ext ht rfl
    exact ⟨nodup_calls hhistory, (runs_of_history hhistory).buffers hfaithful hordered⟩

/-- How the texts of a parse that finds one match have come about. -/
theorem buffers_of_history_ofWord :
    (Grammar.ofWord ['a', 'b'] .identity).Faithful ∧ (Grammar.ofWord ['a', 'b'] .identity).Ordered ∧
      ∃ t, (history (.ofWord ['a', 'b'] .identity) (Grammar.ofWord ['a', 'b'] .identity).root
        ['x', 'a', 'b', 'y'] .empty).1 = .ok t ∧ t.size = 2 ∧
        ∀ p < t.size, ∃ r, r.ref = (t.node p).rule ∧
          Buffers (.ofWord ['a', 'b'] .identity) t
            (history (.ofWord ['a', 'b'] .identity) (Grammar.ofWord ['a', 'b'] .identity).root
              ['x', 'a', 'b', 'y'] .empty).2 r p (t.node p) := by
  have hfaithful := Grammar.ofWord_faithful ['a', 'b'] .identity
  have hordered := Grammar.ofWord_ordered ['a', 'b'] .identity
  have hsize : (history (.ofWord ['a', 'b'] .identity)
      (Grammar.ofWord ['a', 'b'] .identity).root ['x', 'a', 'b', 'y'] .empty).1.map Tree.size =
        .ok 2 := by rfl
  have hbuffers := (buffers_of_history hfaithful hordered
    (Grammar.ofWord ['a', 'b'] .identity).root ['x', 'a', 'b', 'y'] .empty).2
  refine ⟨hfaithful, hordered, ?_⟩
  revert hsize hbuffers
  generalize history _ _ _ _ = result
  obtain ⟨e | t, events⟩ := result
  · intro hsize
    contradiction
  · intro hsize hbuffers
    refine ⟨t, rfl, Except.ok.inj hsize, fun p hp => ?_⟩
    obtain ⟨-, hall⟩ := hbuffers t rfl
    obtain ⟨r, -, href, hr⟩ := hall p hp
    exact ⟨r, href, hr⟩

end Engine

end Cascade
