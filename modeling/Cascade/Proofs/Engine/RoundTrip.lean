import Cascade.Proofs.Engine.Parse
import Cascade.Proofs.Grammar.Template
import Cascade.Proofs.Tree.Unfold

/-!
# Rules that keep the text give the input back

If no rule of a grammar changes what it matches, expanding the working text of the root gives the
input, whatever the patterns match. Each pass over a text is undone by expanding the tokens that it
has put there, and those are no more than the nodes that it has created. A later pass may cut an
earlier token. That does not matter, as it is undone first.

* `unfoldsIn_of_passes`: how the passes over a text are undone.
* `expand_eq_input_of_identity`: both ways of expanding the working text of the root give the input.
-/

namespace Cascade

open Cascade.Tree

variable {t : Tree} {field : Node → Text} {g : Grammar} {events : List Event}
  {weight : NodeId → Nat}

/-- Changes are undone one by one. -/
theorem unfoldsIn_of_replaced {offset : Nat} {changes : List Text.Change} {before after : Text}
    {group : List NodeId} (h : Text.Replaced offset changes before after)
    (hundone : List.Forall₂
      (fun i c => ∃ n ≤ weight i, UnfoldsIn t field n c.new c.old) group changes) :
    ∃ n ≤ (group.map weight).sum, UnfoldsIn t field n after before := by
  induction h generalizing group with
  | nil => exact ⟨0, Nat.zero_le _, .refl⟩
  | @cons offset gap old new changes rest rest' _ ih =>
    cases hundone with
    | @cons i c group changes hc hrest =>
      obtain ⟨m, hm, hnew⟩ := hc
      obtain ⟨n, hn, hlater⟩ := ih hrest
      have hfirst : UnfoldsIn t field m (gap ++ new ++ rest') (gap ++ old ++ rest') := by
        simpa only [List.append_assoc] using hnew.context gap rest'
      have hsecond : UnfoldsIn t field n (gap ++ old ++ rest') (gap ++ old ++ rest) := by
        simpa using hlater.context (gap ++ old) []
      refine ⟨m + n, ?_, hfirst.trans hsecond⟩
      rw [List.map_cons, List.sum_cons]
      exact Nat.add_le_add hm hn

/-- The passes over a text are undone from the last one to the first. -/
theorem unfoldsIn_of_passes {p : NodeId} {searchers : List (Rule × Pattern)} {before after : Text}
    {ids : List NodeId} (h : Passes t events p searchers before ids after)
    (hrules : ∀ searcher ∈ searchers, searcher.1 ∈ g.rules)
    (hundone : ∀ i ∈ ids, ∀ r ∈ g.rules, ∀ c, t.IsChange events r i c →
      ∃ n ≤ weight i, UnfoldsIn t field n c.new c.old) :
    ∃ n ≤ (ids.map weight).sum, UnfoldsIn t field n after before := by
  induction h with
  | nil => exact ⟨0, Nat.zero_le _, .refl⟩
  | @cons rule pattern searchers before text after group ids changes _ _ _ hchanges hreplaced _ _
      ih =>
    have hrule : rule ∈ g.rules := hrules _ List.mem_cons_self
    have hgroup : List.Forall₂
        (fun i c => ∃ n ≤ weight i, UnfoldsIn t field n c.new c.old) group changes := by
      have hmem : List.Forall₂ (fun i c => i ∈ group ∧ t.IsChange events rule i c) group changes :=
        (List.forall₂_and_left _ _).2 ⟨fun _ hi => hi, hchanges⟩
      exact hmem.imp fun i c hc => hundone i (List.mem_append_left _ hc.1) rule hrule c hc.2
    -- the tokens of later passes may cut those of this one, so they are undone first
    obtain ⟨m, hm, hlater⟩ := ih (fun s hs => hrules s (List.mem_cons_of_mem _ hs))
      fun i hi => hundone i (List.mem_append_right _ hi)
    obtain ⟨n, hn, hfirst⟩ := unfoldsIn_of_replaced hreplaced hgroup
    refine ⟨m + n, ?_, hlater.trans hfirst⟩
    rw [List.map_append, List.sum_append]
    omega

theorem mem_rules_of_mem_searchers {own : State} {ids : List RuleId} :
    ∀ searcher ∈ ids.filterMap (g.searcher? own), searcher.1 ∈ g.rules := by
  intro searcher hsearcher
  obtain ⟨id, -, hid⟩ := List.mem_filterMap.1 hsearcher
  exact (Grammar.mem_rules_of_searcher? hid).1

namespace Engine

variable {input : Text}

namespace Parsed

/-- Rules that keep the text make a modified text of it that is the matched one. -/
theorem modified_eq (h : Parsed g input t events) (hidentity : ∀ r ∈ g.rules, r.hooks.IsIdentity)
    {p : NodeId} (hp : p < t.size) : (t.node p).modified = (t.node p).matched := by
  obtain ⟨r, hr, -, own, ids, ⟨tree, t', -, hfixed, hcapture, -⟩, -⟩ := h.buffers p hp
  rw [(hidentity r hr).eq_matched hcapture]
  exact (Node.fixed_eq_iff.1 hfixed).2.2.2.1

variable {below : NodeId → Nat} {p : NodeId}

section

variable (h : Parsed g input t events) (hnamed : g.Named)
  (hidentity : ∀ r ∈ g.rules, r.hooks.IsIdentity) (hsize : t.size ≤ Text.wordBound)
  (hfield : field = Node.modified ∨ field = Node.working)

include h hnamed hidentity hsize hfield

/-- Expanding what stands for a match gives the match, if expanding its working text does. -/
theorem unfoldsIn_change {i : NodeId} (hi : t.IsParent p i)
    (hundone : ∃ n ≤ below i,
      UnfoldsIn t field n (t.node i).working (t.node i).modified)
    {r : Rule} (hr : r ∈ g.rules) {c : Text.Change} (hc : t.IsChange events r i c) :
    ∃ n ≤ below i + 1, UnfoldsIn t field n c.new c.old := by
  have hisize : i < t.size := lt_size_of_isParent hi
  have hroot : i ≠ root := (Nat.zero_lt_of_lt (h.arena.parent_lt hi)).ne'
  have hold : c.old = (t.node i).modified := by
    rw [hc.old_eq, h.modified_eq hidentity hisize]
  obtain ⟨tree, t', -, hsettled, hsubstitute⟩ := hc.substituted
  obtain ⟨hfixed, -, hworking, -⟩ := Node.settled_eq_iff.1 hsettled
  obtain ⟨n, hn, hwork⟩ := hundone
  rw [hold]
  -- an inline rule puts in the working text, any other one its token, which takes one more step
  rcases (hidentity r hr).eq_working_or_token hsubstitute with hnew | hnew
  · have hnew' : c.new = (t.node i).working := hnew.trans hworking
    rw [hnew']
    exact ⟨n, Nat.le_succ_of_le hn, hwork⟩
  · obtain ⟨token, htoken, histoken, howner⟩ := h.exists_token hnamed hsize hroot hisize
    have hnew' : c.new = token := by
      have hnode : (tree.node i).token? = some token :=
        (Node.fixed_eq_iff.1 hfixed).2.2.2.2.1.trans htoken
      rw [hnew, View.node, hnode]
      rfl
    have hstep : Unfolds t field token (field (t.node i)) := .token histoken howner
    rw [hnew']
    rcases hfield with rfl | rfl
    · -- the token stands for the modified text, which is the match already
      exact ⟨1, Nat.le_add_left _ _, .head hstep .refl⟩
    · exact ⟨n + 1, Nat.succ_le_succ hn, .head hstep hwork⟩

/-- Expanding the working text of a node gives its modified text, token by token, with no more
tokens than there are nodes below it. -/
theorem unfoldsIn_working (hbelow : t.CountsBelow below) :
    ∀ p < t.size, ∃ n ≤ below p,
      UnfoldsIn t field n (t.node p).working (t.node p).modified := by
  refine h.arena.induction_children fun p hp ih => ?_
  obtain ⟨r, hr, -, own, ids, -, hperm, hsorted, hpasses⟩ := h.buffers p hp
  have hparent : ∀ i ∈ ids, t.IsParent p i :=
    fun i hi => h.arena.isParent_of_mem_children (hperm.mem_iff.1 hi)
  obtain ⟨n, hn, hundone⟩ := unfoldsIn_of_passes hpasses mem_rules_of_mem_searchers
    fun i hi r hr c hc => h.unfoldsIn_change hnamed hidentity hsize hfield (hparent i hi)
      (ih i (hparent i hi)) hr hc
  exact ⟨n, hn.trans (hbelow p hp ids hsorted hparent), hundone⟩

end

/-- If rules keep the text, both ways of expanding the working text of the root give the input,
unless a token of the tree occurs in it. -/
theorem expand_eq_input (h : Parsed g input t events) (hnamed : g.Named)
    (hidentity : ∀ r ∈ g.rules, r.hooks.IsIdentity) (hsize : t.size ≤ Text.wordBound)
    (hfree : ∀ token i, t.owner? token = some i → ¬ token <:+: input) :
    t.unmask (t.node root).working = input ∧ t.render = input := by
  have hroot : root < t.size := h.arena.root_bare.1
  have hmodified : (t.node root).modified = input :=
    (h.modified_eq hidentity hroot).trans h.matched_root
  -- the input is an end, and all ways to an end are equally long
  have hfinished : t.Finished input := by
    intro a token b i _ howner heq
    exact hfree token i howner ⟨a, b, by rw [heq, List.append_assoc]⟩
  obtain ⟨below, hbelow, hsum⟩ := h.arena.exists_countsBelow
  have hexpand (field : Node → Text) (hfield : field = Node.modified ∨ field = Node.working) :
      t.expand field (t.node root).working = input := by
    obtain ⟨n, hn, hundone⟩ :=
      h.unfoldsIn_working hnamed hidentity hsize hfield hsum root hroot
    rw [hmodified] at hundone
    exact expand_eq_of_unfoldsIn hundone hfinished (by omega)
  exact ⟨hexpand Node.modified (.inl rfl), hexpand Node.working (.inr rfl)⟩

end Parsed

/-- If no rule of a grammar changes what it matches, expanding the working text of the root gives
the input, with the modified texts of nodes as well as with their working texts, unless a token of
the tree occurs in the input. The numbers in tokens are words, so this takes that there are no more
nodes than words. -/
theorem expand_eq_input_of_identity {rule : Rule} {seed : State} (hfaithful : g.Faithful)
    (hordered : g.Ordered) (hnamed : g.Named) (hidentity : ∀ r ∈ g.rules, r.hooks.IsIdentity)
    (hrule : rule ∈ g.rules) (h : run g rule input seed = .ok t) (hsize : t.size ≤ Text.wordBound)
    (hfree : ∀ token i, t.owner? token = some i → ¬ token <:+: input) :
    t.unmask (t.node root).working = input ∧ t.render = input := by
  obtain ⟨events, hruns⟩ := runs_of_run h
  exact (hruns.parsed hfaithful hordered hrule).expand_eq_input hnamed hidentity hsize hfree

/-- A parse that finds one match gives the input back. -/
theorem expand_eq_input_of_identity_ofWord :
    (Grammar.ofWord ['a', 'b'] .identity).Faithful ∧ (Grammar.ofWord ['a', 'b'] .identity).Ordered ∧
      (Grammar.ofWord ['a', 'b'] .identity).Named ∧
      (∀ r ∈ (Grammar.ofWord ['a', 'b'] .identity).rules, r.hooks.IsIdentity) ∧
      ∃ t, run (.ofWord ['a', 'b'] .identity) (Grammar.ofWord ['a', 'b'] .identity).root
          ['x', 'a', 'b', 'y'] .empty = .ok t ∧
        t.size ≤ Text.wordBound ∧
        (∀ token i, t.owner? token = some i → ¬ token <:+: ['x', 'a', 'b', 'y']) ∧
        (t.node root).working = ['x'] ++ Token.mint ['w'] 1 1 ++ ['y'] ∧
        t.unmask (t.node root).working = ['x', 'a', 'b', 'y'] ∧
        t.render = ['x', 'a', 'b', 'y'] := by
  have hfaithful := Grammar.ofWord_faithful ['a', 'b'] .identity
  have hordered := Grammar.ofWord_ordered ['a', 'b'] .identity
  have hnamed : (Grammar.ofWord ['a', 'b'] .identity).Named :=
    Grammar.forall_mem_ofWord (by decide) (by decide)
  have hidentity : ∀ r ∈ (Grammar.ofWord ['a', 'b'] .identity).rules, r.hooks.IsIdentity :=
    Grammar.forall_mem_ofWord .default .default
  have htree : (run (.ofWord ['a', 'b'] .identity) (Grammar.ofWord ['a', 'b'] .identity).root
      ['x', 'a', 'b', 'y'] .empty).map
        (fun t => (t.size, t.registry.tokens, (t.node root).working)) =
      .ok (2, [(Token.mint ['w'] 1 1, 1)], ['x'] ++ Token.mint ['w'] 1 1 ++ ['y']) := by rfl
  refine ⟨hfaithful, hordered, hnamed, hidentity, ?_⟩
  cases hrun : run (.ofWord ['a', 'b'] .identity) (Grammar.ofWord ['a', 'b'] .identity).root
      ['x', 'a', 'b', 'y'] .empty with
  | error e =>
    rw [hrun] at htree
    contradiction
  | ok t =>
    rw [hrun] at htree
    obtain ⟨hsize, htokens, hworking⟩ : t.size = 2 ∧
        t.registry.tokens = [(Token.mint ['w'] 1 1, 1)] ∧
        (t.node root).working = ['x'] ++ Token.mint ['w'] 1 1 ++ ['y'] := by
      simpa [Except.map] using htree
    have hbound : t.size ≤ Text.wordBound := by
      rw [hsize]
      decide
    -- there is one token, and a token contains an opening mark
    have hfree : ∀ token i, t.owner? token = some i → ¬ token <:+: ['x', 'a', 'b', 'y'] := by
      intro token i howner hinfix
      have hlookup : [(Token.mint ['w'] 1 1, 1)].lookup token = some i := htokens ▸ howner
      have htoken : token = Token.mint ['w'] 1 1 := by
        by_contra hne
        simp [List.lookup_cons, beq_false_of_ne hne] at hlookup
      have hmem : Token.openMark ∈ ['x', 'a', 'b', 'y'] :=
        hinfix.subset (by rw [htoken, Token.mint_eq]; simp)
      exact absurd hmem (by decide)
    exact ⟨t, rfl, hbound, hfree, hworking, expand_eq_input_of_identity hfaithful hordered hnamed
      hidentity Grammar.root_mem_ofWord hrun hbound hfree⟩

end Engine

end Cascade
