import Cascade.Proofs.Engine.Adequacy
import Cascade.Proofs.Engine.Frame
import Cascade.Proofs.Grammar.Scan
import Cascade.Proofs.Tree.Shape

/-!
# Parses as sequences of changes

Whatever a parse does, it changes its tree in five ways only: a hook sets states, the modified text
or the working text of a node is set, the children of a node are put in order, or the node of a
match is added. What each change keeps is kept by a whole parse, whether it succeeds or fails.

* `Step`, `Steps`: the changes, and sequences of them at some of the nodes.
* `Sound`: an invariant of all changes.
* `Runs.steps`, `Stops.steps`: a part of a parse changes its own node and new ones.
* `sound_of_run`, `sound_of_history`: the trees of a parse satisfy the invariant.
-/

namespace Cascade

/-- What a hook sees, if the event is a call, has a property. -/
def Event.Sees (P : View → Prop) : Event → Prop
  | call _ _ view => P view
  | search _ _ _ _ => True

/-- What all views have is had by what a hook sees. -/
theorem Event.Sees.of_forall {P : View → Prop} {e : Event} (h : ∀ v, P v) : e.Sees P := by
  cases e with
  | call => exact h _
  | search => trivial

/-- What is known of what a hook sees may be weakened. -/
theorem Event.Sees.mono {P Q : View → Prop} {e : Event} (h : e.Sees P) (hPQ : ∀ v, P v → Q v) :
    e.Sees Q := by
  cases e with
  | call => exact hPQ _ h
  | search => trivial

namespace Engine

open List (forall_mem_append forall_mem_cons forall_mem_nil forall_mem_singleton)
open Relation (ReflTransGen)
open Cascade.Tree

variable {g : Grammar} {levels : Nat} {task : Task} {t t₁ t' : Tree} {events : List Event}
  {edits : List (Span × Text)} {e : ParseError} {p q i : NodeId} {token : Text} {child : Rule}
  {m : Match} {P Q : NodeId → Prop}

/-- One change that a parse makes to its tree, at a node. -/
inductive Step (g : Grammar) : NodeId → Tree → Tree → Prop where
  | states (v : View) (states : States) : Step g v.id v.tree (v.withStates states)
  | modified (t : Tree) (id : NodeId) (text : Text) : Step g id t (t.setModified id text)
  | working (t : Tree) (id : NodeId) (text : Text) : Step g id t (t.setWorking id text)
  | link {t : Tree} {id : NodeId} (hid : id < t.size) : Step g id t (t.linkChildren id)
  | add {t : Tree} {p : NodeId} {child : Rule} {m : Match} (hp : p < t.size)
      (hchild : child ∈ g.rules) : Step g p t (addMatch t p child m)

/-- A sequence of changes at nodes with a property. -/
def Steps (g : Grammar) (P : NodeId → Prop) : Tree → Tree → Prop :=
  ReflTransGen fun t t' => ∃ q, P q ∧ Step g q t t'

/-- What holds of the links, the tokens and the rules of a tree at any time of a parse. -/
structure Sound (g : Grammar) (t : Tree) : Prop where
  linked : t.Linked
  minted : t.Minted
  /-- All nodes but the root belong to rules of the grammar. -/
  rule : ∀ i, i ≠ root → i < t.size → ∃ r ∈ g.rules, (t.node i).rule = r.ref

/-- A parse starts from a tree for which the invariant holds. -/
theorem sound_startTree (g : Grammar) (rule : Rule) (input : Text) (seed : State) :
    Sound g (startTree rule input seed) :=
  ⟨linked_startTree .., minted_startTree ..,
    fun _ hroot hi => absurd (Nat.lt_one_iff.1 hi) hroot⟩

namespace Step

/-- A change takes no node away. -/
theorem size_le (h : Step g q t t') : t.size ≤ t'.size := by
  cases h <;> simp

/-- A change keeps the shape of the tree, or it adds the node of a match. -/
theorem sameShape_or_add (h : Step g q t t') (ht : t.Linked) :
    SameShape t t' ∨ ∃ child m, q < t.size ∧ child ∈ g.rules ∧ t' = addMatch t q child m := by
  cases h with
  | states v states => exact .inl (sameShape_withStates v states)
  | modified => exact .inl (sameShape_setModified ..)
  | working => exact .inl (sameShape_setWorking ..)
  | link hid => exact .inl (ht.sameShape_linkChildren hid)
  | add hp hchild => exact .inr ⟨_, _, hp, hchild, rfl⟩

/-- A change keeps the invariant. -/
theorem sound (h : Step g q t t') (ht : Sound g t) : Sound g t' := by
  rcases h.sameShape_or_add ht.linked with hs | ⟨child, m, hq, hchild, rfl⟩
  · refine ⟨ht.linked.of_sameShape hs, ht.minted.of_sameShape hs, fun i hroot hi => ?_⟩
    rw [(Node.fixed_eq_iff.1 (hs.fixed_eq i)).1]
    exact ht.rule i hroot (hs.size_eq ▸ hi)
  · refine ⟨ht.linked.addMatch hq, ht.minted.addMatch hq, fun i hroot hi => ?_⟩
    rw [size_addMatch, Nat.lt_succ_iff_lt_or_eq] at hi
    rcases hi with hi | rfl
    · rw [(Node.fixed_eq_iff.1 (fixed_node_addMatch child m hq hi.ne)).1]
      exact ht.rule i hroot hi
    · rw [node_addMatch hq, if_pos rfl]
      exact ⟨child, hchild, rfl⟩

/-- A token that has been registered stays with its node. -/
theorem owner? (h : Step g q t t') (ht : Sound g t) (howner : t.owner? token = some i) :
    t'.owner? token = some i := by
  rcases h.sameShape_or_add ht.linked with hs | ⟨child, m, hq, -, rfl⟩
  · rwa [Tree.owner?, hs.registry_eq]
  · exact ht.minted.owner?_addMatch hq howner

end Step

namespace Steps

/-- One change is a sequence of changes. -/
theorem single (hq : P q) (h : Step g q t t') : Steps g P t t' :=
  ReflTransGen.single ⟨q, hq, h⟩

/-- Changes may come after others. -/
theorem trans (h : Steps g P t t₁) (h' : Steps g P t₁ t') : Steps g P t t' :=
  ReflTransGen.trans h h'

/-- What is known of where changes are made may be weakened. -/
theorem mono (h : Steps g Q t t') (hQP : ∀ q, Q q → P q) : Steps g P t t' :=
  ReflTransGen.mono (fun _ _ => fun ⟨q, hq, hstep⟩ => ⟨q, hQP q hq, hstep⟩) _ _ h

/-- No sequence of changes takes a node away. -/
theorem size_le (h : Steps g P t t') : t.size ≤ t'.size := by
  induction h with
  | refl => exact le_rfl
  | tail _ hstep ih =>
    obtain ⟨q, -, hstep⟩ := hstep
    exact ih.trans hstep.size_le

/-- The invariant is kept by a whole sequence of changes, and so are the owners of tokens. -/
theorem sound (h : Steps g P t t') (ht : Sound g t) :
    Sound g t' ∧ ∀ token i, t.owner? token = some i → t'.owner? token = some i := by
  induction h with
  | refl => exact ⟨ht, fun _ _ howner => howner⟩
  | tail _ hstep ih =>
    obtain ⟨q, -, hstep⟩ := hstep
    exact ⟨hstep.sound ih.1, fun token i howner => hstep.owner? ih.1 (ih.2 token i howner)⟩

end Steps

/-! ## Parts of a parse -/

/-- The rule whose matches a task resolves is one of the grammar. -/
def Task.OfGrammar (g : Grammar) : Task → Prop
  | resolve _ child _ => child ∈ g.rules
  | _ => True

/-- A node is the one that a task works at, or it is not there yet. -/
def AtOrNew (id : NodeId) (t : Tree) (q : NodeId) : Prop :=
  q = id ∨ t.size ≤ q

/-- A view is that of a node of a tree to which a sequence of changes leads. -/
def Reaches (g : Grammar) (P : NodeId → Prop) (t : Tree) (v : View) : Prop :=
  Steps g P t v.tree ∧ v.id < v.tree.size

/-- What is reached later is reached from the start. -/
theorem sees_reaches (hsteps : Steps g P t t₁) (hQP : ∀ q, Q q → P q)
    (h : ∀ e ∈ events, e.Sees (Reaches g Q t₁)) : ∀ e ∈ events, e.Sees (Reaches g P t) :=
  fun e he => (h e he).mono fun _ hv => ⟨hsteps.trans (hv.1.mono hQP), hv.2⟩

/-- Later, fewer nodes are new. -/
theorem AtOrNew.mono {id : NodeId} (h : AtOrNew p t id) (hsize : t.size ≤ t₁.size) :
    ∀ q, AtOrNew id t₁ q → AtOrNew p t q := by
  rintro q (rfl | hq)
  · exact h
  · exact .inr (hsize.trans hq)

/-- A node is captured by changes at that node. -/
theorem steps_of_captured {hook : HookM Text} {text : Text} (hp : P p)
    (h : hook.Succeeds ⟨t, p⟩ text t') : Steps g P t (t'.setModified p text) := by
  obtain ⟨states, -, rfl⟩ := h
  exact (Steps.single hp (.states ⟨t, p⟩ states)).trans (.single hp (.modified _ p text))

/-- A hook that succeeds makes changes at its own node. -/
theorem steps_of_succeeds {α : Type} {hook : HookM α} {v : View} {result : α} (hv : P v.id)
    (h : hook.Succeeds v result t') : Steps g P v.tree t' := by
  obtain ⟨states, -, rfl⟩ := h
  exact .single hv (.states v states)

/-- A node is reached when its children have been put in order. -/
theorem reaches_linkChildren (hp : P p) (hlt : p < t.size) (hsteps : Steps g P t t') :
    Reaches g P t ⟨t'.linkChildren p, p⟩ := by
  have hlt' : p < t'.size := hlt.trans_le hsteps.size_le
  exact ⟨hsteps.trans (.single hp (.link hlt')), by simpa using hlt'⟩

/-- A node that has been added is reached when it has been resolved. -/
theorem reaches_addMatch (hadded : Steps g P t (addMatch t p child m))
    (hsteps : Steps g (AtOrNew t.size (addMatch t p child m)) (addMatch t p child m) t')
    (hP : ∀ q, t.size ≤ q → P q) : Reaches g P t ⟨t', t.size⟩ := by
  have hlt : t.size < (addMatch t p child m).size := by simp
  refine ⟨hadded.trans (hsteps.mono ?_), hlt.trans_le hsteps.size_le⟩
  rintro q (rfl | hq)
  · exact hP _ le_rfl
  · exact hP q (hlt.le.trans hq)

/-- A part of a parse that succeeds is a sequence of changes at its node and at new nodes, and hooks
see the trees on the way. -/
theorem Runs.steps (h : Runs g levels task t events edits t') (hid : task.id < t.size)
    (htask : task.OfGrammar g) :
    Steps g (AtOrNew task.id t) t t' ∧
      ∀ e ∈ events, e.Sees (Reaches g (AtOrNew task.id t) t) := by
  induction h with
  | @node levels id rule t t₁ t₂ t₃ text events hcapture _ hresolve ih =>
    have hself : AtOrNew id t id := .inl rfl
    have hstart : Steps g (AtOrNew id t) t (t₁.setModified id text) :=
      steps_of_captured hself hcapture
    -- what is new to the search below is new here too, so its changes count as changes here
    have hmono := hself.mono hstart.size_le
    obtain ⟨hsearch, hevents⟩ := ih (hid.trans_le hstart.size_le) trivial
    have hresolved : Reaches g (AtOrNew id t) t ⟨t₂.linkChildren id, id⟩ :=
      reaches_linkChildren hself hid (hstart.trans (hsearch.mono hmono))
    refine ⟨hresolved.1.trans (steps_of_succeeds hself hresolve),
      forall_mem_cons.2 ⟨⟨.refl, hid⟩, ?_⟩⟩
    exact forall_mem_append.2 ⟨sees_reaches hstart hmono hevents, forall_mem_singleton.2 hresolved⟩
  | searchNil => exact ⟨.refl, forall_mem_nil _⟩
  | searchSkip _ _ ih => exact ih hid trivial
  | @searchPass levels p id ids child pattern t t₁ t₂ events later edits hchild _ _ ih ih' =>
    have hself : AtOrNew p t p := .inl rfl
    obtain ⟨hresolved, hevents⟩ := ih hid (Grammar.mem_rules_of_searcher? hchild).1
    have hset : Steps g (AtOrNew p t) t (t₁.setWorking p ((t.node p).working.splice edits)) :=
      hresolved.trans (.single hself (.working ..))
    have hmono := hself.mono hset.size_le
    obtain ⟨hrest, hlater⟩ := ih' (hid.trans_le hset.size_le) trivial
    exact ⟨hset.trans (hrest.mono hmono), forall_mem_cons.2
      ⟨trivial, forall_mem_append.2 ⟨hevents, sees_reaches hset hmono hlater⟩⟩⟩
  | resolveNil => exact ⟨.refl, forall_mem_nil _⟩
  | @resolveCons levels p child m found t t₁ t₂ t₃ replacement events later edits _ hsubstitute _ ih
      ih' =>
    have hself : AtOrNew p t p := .inl rfl
    have hadded : Steps g (AtOrNew p t) t (addMatch t p child m) :=
      .single hself (.add hid htask)
    -- the node of the match is new, and so is all that is added below it
    obtain ⟨hnode, hevents⟩ := ih (by simp [Task.id]) trivial
    have hseen : Reaches g (AtOrNew p t) t ⟨t₁, t.size⟩ :=
      reaches_addMatch hadded hnode fun _ => .inr
    have hcalled : Steps g (AtOrNew p t) t t₂ :=
      hseen.1.trans (steps_of_succeeds (.inr le_rfl) hsubstitute)
    have hmono := hself.mono hcalled.size_le
    obtain ⟨hrest, hlater⟩ := ih' (hid.trans_le hcalled.size_le) htask
    refine ⟨hcalled.trans (hrest.mono hmono), forall_mem_append.2
      ⟨sees_reaches hadded ?_ hevents, forall_mem_cons.2
        ⟨hseen, sees_reaches hcalled hmono hlater⟩⟩⟩
    exact AtOrNew.mono (.inr le_rfl) hadded.size_le

/-- Up to where a part of a parse fails, hooks see trees that a sequence of changes leads to. -/
theorem Stops.steps (h : Stops g levels task t events e) (hid : task.id < t.size)
    (htask : task.OfGrammar g) : ∀ e ∈ events, e.Sees (Reaches g (AtOrNew task.id t) t) := by
  induction h with
  | nodeCapture => exact forall_mem_singleton.2 ⟨.refl, hid⟩
  | @nodeSearch levels id rule t t₁ text events e hcapture _ ih =>
    have hself : AtOrNew id t id := .inl rfl
    have hstart : Steps g (AtOrNew id t) t (t₁.setModified id text) :=
      steps_of_captured hself hcapture
    exact forall_mem_cons.2 ⟨⟨.refl, hid⟩, sees_reaches hstart (hself.mono hstart.size_le)
      (ih (hid.trans_le hstart.size_le) trivial)⟩
  | @nodeResolve levels id rule t t₁ t₂ text events message hcapture hsearch =>
    have hself : AtOrNew id t id := .inl rfl
    have hstart : Steps g (AtOrNew id t) t (t₁.setModified id text) :=
      steps_of_captured hself hcapture
    have hmono := hself.mono hstart.size_le
    -- the search has succeeded, so that its changes are known, and the hook behind it sees the
    -- result
    obtain ⟨hsearched, hevents⟩ := hsearch.steps (hid.trans_le hstart.size_le) trivial
    have hresolved : Reaches g (AtOrNew id t) t ⟨t₂.linkChildren id, id⟩ :=
      reaches_linkChildren hself hid (hstart.trans (hsearched.mono hmono))
    exact forall_mem_cons.2 ⟨⟨.refl, hid⟩, forall_mem_append.2
      ⟨sees_reaches hstart hmono hevents, forall_mem_singleton.2 hresolved⟩⟩
  | searchSkip _ _ ih => exact ih hid trivial
  | searchPass hchild _ ih =>
    exact forall_mem_cons.2 ⟨trivial, ih hid (Grammar.mem_rules_of_searcher? hchild).1⟩
  | @searchLater levels p id ids child pattern t t₁ events later edits e hchild hresolve _ ih =>
    have hself : AtOrNew p t p := .inl rfl
    obtain ⟨hresolved, hevents⟩ := hresolve.steps hid (Grammar.mem_rules_of_searcher? hchild).1
    have hset : Steps g (AtOrNew p t) t (t₁.setWorking p ((t.node p).working.splice edits)) :=
      hresolved.trans (.single hself (.working ..))
    have hlater := ih (hid.trans_le hset.size_le) trivial
    exact forall_mem_cons.2 ⟨trivial, forall_mem_append.2
      ⟨hevents, sees_reaches hset (hself.mono hset.size_le) hlater⟩⟩
  | resolveLimit => exact forall_mem_nil _
  | @resolveNode levels p child m found t events e _ ih =>
    have hadded : Steps g (AtOrNew p t) t (addMatch t p child m) :=
      .single (.inl rfl) (.add hid htask)
    exact sees_reaches hadded (AtOrNew.mono (.inr le_rfl) hadded.size_le)
      (ih (by simp [Task.id]) trivial)
  | @resolveSubstitute levels p child m found t t₁ events message hnode =>
    have hadded : Steps g (AtOrNew p t) t (addMatch t p child m) :=
      .single (.inl rfl) (.add hid htask)
    obtain ⟨hnode, hevents⟩ := hnode.steps (by simp [Task.id]) trivial
    have hseen : Reaches g (AtOrNew p t) t ⟨t₁, t.size⟩ :=
      reaches_addMatch hadded hnode fun _ => .inr
    exact forall_mem_append.2
      ⟨sees_reaches hadded (AtOrNew.mono (.inr le_rfl) hadded.size_le) hevents,
        forall_mem_singleton.2 hseen⟩
  | @resolveLater levels p child m found t t₁ t₂ replacement events later e hnode hsubstitute _
      ih =>
    have hself : AtOrNew p t p := .inl rfl
    have hadded : Steps g (AtOrNew p t) t (addMatch t p child m) :=
      .single hself (.add hid htask)
    obtain ⟨hnode, hevents⟩ := hnode.steps (by simp [Task.id]) trivial
    have hseen : Reaches g (AtOrNew p t) t ⟨t₁, t.size⟩ :=
      reaches_addMatch hadded hnode fun _ => .inr
    have hcalled : Steps g (AtOrNew p t) t t₂ :=
      hseen.1.trans (steps_of_succeeds (.inr le_rfl) hsubstitute)
    have hlater := ih (hid.trans_le hcalled.size_le) htask
    exact forall_mem_append.2
      ⟨sees_reaches hadded (AtOrNew.mono (.inr le_rfl) hadded.size_le) hevents,
        forall_mem_cons.2 ⟨hseen, sees_reaches hcalled (hself.mono hcalled.size_le) hlater⟩⟩

/-! ## Whole parses -/

/-- The tree that a parse returns satisfies the invariant. -/
theorem sound_of_run {rule : Rule} {input : Text} {seed : State}
    (h : run g rule input seed = .ok t) : Sound g t := by
  obtain ⟨events, hruns⟩ := runs_of_run h
  exact ((hruns.steps Nat.zero_lt_one trivial).1.sound (sound_startTree ..)).1

/-- Hooks see nodes of trees that satisfy the invariant, whether the parse succeeds or fails. -/
theorem sound_of_history (g : Grammar) (rule : Rule) (input : Text) (seed : State) :
    ∀ e ∈ (history g rule input seed).2, e.Sees fun v => Sound g v.tree ∧ v.id < v.tree.size := by
  have hreaches : ∀ e ∈ (history g rule input seed).2, e.Sees
      (Reaches g (AtOrNew root (startTree rule input seed)) (startTree rule input seed)) := by
    rcases h : history g rule input seed with ⟨e | t, events⟩
    · exact (stops_of_history h).steps Nat.zero_lt_one trivial
    · exact ((runs_of_history h).steps Nat.zero_lt_one trivial).2
  exact fun e he => (hreaches e he).mono fun v hv =>
    ⟨(hv.1.sound (sound_startTree ..)).1, hv.2⟩

end Engine

end Cascade
