import Cascade.Proofs.Engine.Parse
import Cascade.Proofs.Grammar.Template
import Cascade.Proofs.Tree.Settle
import Mathlib.Algebra.Order.BigOperators.Group.List
import Mathlib.Algebra.Order.Group.Nat

/-!
# Nothing of a token is left when texts are expanded

If the rules of a grammar are given by templates, no search cuts a token, and neither the templates
nor the input contain a character of a token, then all tokens go away when the working text of the
root is expanded. A text that is nested to some depth stays so when it is cut between tokens and put
into a template. Each pass adds at most as much to the depth as there are nodes that it has created.

* `Grammar.Templated`, `Event.SparesTokens`: what is asked of the rules and of the searches.
* `Grammar.TemplatedIn`: templates may also have other characters that open no token.
* `settles_of_passes`: what the passes over a text do to its depth.
* `tokenFree_of_history`: both ways of expanding the working text of the root leave nothing of a
  token.
-/

namespace Cascade

open Cascade.Token Cascade.Tree

variable {plain : Char → Prop} {g : Grammar} {t : Tree} {field : Node → Text}
  {events : List Event} {p i : NodeId} {k : Nat}

/-- All rules are given by templates without characters of tokens. -/
def Grammar.Templated (g : Grammar) : Prop :=
  ∀ r ∈ g.rules, ∃ template? inline, r.hooks = Replacement.hooks template? inline ∧
    ∀ template, template? = some template → template.TokenFree

/-- All rules are given by templates of plain characters. -/
def Grammar.TemplatedIn (plain : Char → Prop) (g : Grammar) : Prop :=
  ∀ r ∈ g.rules, ∃ template? inline, r.hooks = Replacement.hooks template? inline ∧
    ∀ template, template? = some template → ∀ c ∈ template, plain c

theorem Grammar.templated_iff : g.Templated ↔ g.TemplatedIn fun c => isTokenChar c = false :=
  Iff.rfl

/-- The rules of a grammar that is given as data are given by its templates. -/
theorem DataGrammar.templatedIn_of_compile {compiler : PatternCompiler} {dg : DataGrammar}
    (h : dg.compile compiler = .ok g)
    (hplain : ∀ r ∈ dg.rules, ∀ template, r.replacement? = some template →
      ∀ c ∈ template, plain c) : g.TemplatedIn plain := by
  intro r hr
  obtain ⟨d, hd, hhooks⟩ := exists_template_of_compile h r hr
  exact ⟨d.replacement?, d.inline, hhooks, hplain d hd⟩

/-- No match that a search finds, and no group of one, begins or ends inside a token of the text. -/
def Event.SparesTokens : Event → Prop
  | call _ _ _ => True
  | search _ _ pattern text => ∀ m ∈ pattern.scan text, Spares 0 text m.span ∧
      ∀ group? ∈ m.captures.groups, ∀ group ∈ group?, Spares 0 text group.span

instance (e : Event) : Decidable e.SparesTokens :=
  match e with
  | .call _ _ _ => .isTrue trivial
  | .search _ _ pattern text =>
    inferInstanceAs (Decidable (∀ m ∈ pattern.scan text, Spares 0 text m.span ∧
      ∀ group? ∈ m.captures.groups, ∀ group ∈ group?, Spares 0 text group.span))

/-! ## One node -/

/-- The text that a rule makes of a match is nested no deeper than what the rule has found. -/
theorem settles_of_captured {r : Rule} {text : Text} {own : State} (hplain : PlainChars plain)
    (htemplated : g.TemplatedIn plain) (hr : r ∈ g.rules) (h : Captured t events r i text own)
    (hmatched : Settles plain t field k (t.node i).matched)
    (hgroups : ∀ captures, (t.node i).captures? = some captures →
      ∀ group, some group ∈ captures.groups → Settles plain t field k group.text) :
    Settles plain t field k text := by
  obtain ⟨template?, inline, hhooks, hfree⟩ := htemplated r hr
  obtain ⟨tree, t', -, hfixed, hcapture, -⟩ := h
  obtain ⟨-, -, -, hmatched', -, hcaptures'⟩ := Node.fixed_eq_iff.1 hfixed
  rw [hhooks] at hcapture
  -- without a template the matched text is kept, and at the root the template stands for itself
  rcases succeeds_capture hcapture with
    ⟨-, rfl⟩ | ⟨template, htemplate, ⟨-, rfl⟩ | ⟨captures, hcaptures, hexpand⟩⟩
  · rw [View.node, hmatched']
    exact hmatched
  · exact .of_forall (hfree _ htemplate)
  · have hown : (t.node i).captures? = some captures := hcaptures'.symm.trans hcaptures
    exact Settles.of_expand? hplain (Settles.groupText (hgroups captures hown))
      (hfree template htemplate) hexpand

namespace Engine

variable {input : Text}

namespace Parsed

variable {below : NodeId → Nat}

/-- The text that the rule of a match makes of it is nested no deeper than the text in which the
match has been found, unless the search cuts a token. -/
theorem settles_modified (h : Parsed g input t events) (hplain : PlainChars plain)
    (htemplated : g.TemplatedIn plain)
    {child : Rule} {m : Match} {before : Text} (hi : i < t.size) (hmatch : t.IsMatch child i m)
    (hbefore : Settles plain t field k before) (hspan : Spares 0 before m.span)
    (hat : before.At m.span m.captures.whole)
    (hgroups : ∀ group, some group ∈ m.captures.groups →
      Spares 0 before group.span ∧ before.At group.span group.text) :
    Settles plain t field k (t.node i).modified := by
  obtain ⟨r, hr, -, own, ids, hcaptured, -⟩ := h.buffers i hi
  refine settles_of_captured hplain htemplated hr hcaptured ?_
    fun captures hcaptures group hgroup => ?_
  · rw [hmatch.matched_eq]
    exact hbefore.part hplain hat hspan
  · obtain rfl := Option.some.inj (hcaptures.symm.trans hmatch.captures_eq)
    exact hbefore.part hplain (hgroups group hgroup).2 (hgroups group hgroup).1

/-- The root has no captures, so its rule keeps the input or puts the template in place of it. -/
theorem settles_root (h : Parsed g input t events) (hplain : PlainChars plain)
    (htemplated : g.TemplatedIn plain) (hinput : ∀ c ∈ input, plain c) :
    Settles plain t field 0 (t.node root).modified := by
  obtain ⟨hroot, -, -, hbare⟩ := h.arena.root_bare
  obtain ⟨r, hr, -, own, ids, hcaptured, -⟩ := h.buffers root hroot
  refine settles_of_captured hplain htemplated hr hcaptured ?_ fun captures hcaptures => ?_
  · rw [h.matched_root]
    exact .of_forall hinput
  · rw [hbare] at hcaptures
    contradiction

section

variable (h : Parsed g input t events) (hnamed : g.Named) (htemplated : g.TemplatedIn plain)
  (hsize : t.size ≤ Text.wordBound) (hfield : field = Node.modified ∨ field = Node.working)

include h hnamed htemplated hsize hfield

/-- What stands for a match in the text of the parent is nested at most one deeper than the texts of
its node. -/
theorem settles_change (hi : t.IsParent p i)
    (hmodified : Settles plain t field k (t.node i).modified)
    (hworking : Settles plain t field (k + below i) (t.node i).working)
    {r : Rule} (hr : r ∈ g.rules) {c : Text.Change} (hc : t.IsChange events r i c) :
    Settles plain t field (k + (below i + 1)) c.new := by
  have hisize : i < t.size := lt_size_of_isParent hi
  have hroot : i ≠ root := (Nat.zero_lt_of_lt (h.arena.parent_lt hi)).ne'
  obtain ⟨template?, inline, hhooks, -⟩ := htemplated r hr
  obtain ⟨tree, t', -, hsettled, hsubstitute⟩ := hc.substituted
  obtain ⟨hfixed, -, hworking', -⟩ := Node.settled_eq_iff.1 hsettled
  rw [hhooks] at hsubstitute
  have hnew : c.new = if inline then (tree.node i).working else (tree.node i).token?.getD [] :=
    succeeds_substitute hsubstitute
  rw [hnew]
  cases inline with
  | true =>
    -- no token is put around the working text of an inline rule
    rw [if_pos rfl, hworking']
    exact hworking.mono (Nat.add_le_add_left (Nat.le_succ _) k)
  | false =>
    obtain ⟨token, htoken, histoken, howner⟩ := h.exists_token hnamed hsize hroot hisize
    have hnode : (tree.node i).token? = some token :=
      (Node.fixed_eq_iff.1 hfixed).2.2.2.2.1.trans htoken
    -- the token is one level around the text that it stands for, whichever of the two this is
    have htext : Settles plain t field (k + below i) (field (t.node i)) := by
      rcases hfield with rfl | rfl
      · exact hmodified.mono (Nat.le_add_right k _)
      · exact hworking
    rw [if_neg Bool.false_ne_true, hnode, ← Nat.add_assoc]
    have halone := Settles.token histoken howner htext .nil
    rwa [List.append_nil] at halone

/-! ## All nodes -/

variable (hplain : PlainChars plain) (hfaithful : g.Faithful) (hcaptures : g.CapturesFaithfully)
  (hspares : ∀ e ∈ events, e.SparesTokens)

include hplain hfaithful hcaptures hspares

/-- Each pass adds to the depth of a text at most the number of the nodes that it creates, those
below them included. -/
theorem settles_of_passes {searchers : List (Rule × Pattern)} {before after : Text}
    {ids : List NodeId}
    (hpasses : Passes t events p searchers before ids after)
    (hrules : ∀ s ∈ searchers, s.1 ∈ g.rules ∧ s.1.pattern? = some s.2)
    (hparent : ∀ i ∈ ids, t.IsParent p i)
    (hworking : ∀ i ∈ ids, ∀ n, Settles plain t field n (t.node i).modified →
      Settles plain t field (n + below i) (t.node i).working)
    (hbefore : Settles plain t field k before) :
    Settles plain t field (k + (ids.map fun i => below i + 1).sum) after := by
  induction hpasses generalizing k with
  | nil => exact hbefore
  | @cons rule pattern searchers before text after group ids changes hsearch hmatches _ hchanges
      hreplaced _ _ ih =>
    obtain ⟨hrule, hpattern⟩ := hrules _ List.mem_cons_self
    have hsparing : (Event.search p rule pattern before).SparesTokens := hspares _ hsearch
    -- what is replaced are matches, and the search has spared the tokens of the text
    have hcut : ∀ c ∈ changes, Spares 0 before c.span := by
      intro c hc
      obtain ⟨i, hi, hchange⟩ := exists_of_mem_right hchanges hc
      obtain ⟨m, hm, hmatch⟩ := exists_of_mem_left hmatches hi
      rw [hchange.span_eq, hmatch.span_eq]
      exact (hsparing m hm).1
    have hnew : ∀ c ∈ changes,
        Settles plain t field (k + (group.map fun i => below i + 1).sum) c.new := by
      intro c hc
      obtain ⟨i, hi, hchange⟩ := exists_of_mem_right hchanges hc
      obtain ⟨m, hm, hmatch⟩ := exists_of_mem_left hmatches hi
      have hids : i ∈ group ++ ids := List.mem_append_left _ hi
      have hmodified : Settles plain t field k (t.node i).modified :=
        h.settles_modified hplain htemplated (lt_size_of_isParent (hparent i hids)) hmatch hbefore
          (hsparing m hm).1 (hfaithful rule hrule pattern hpattern before m hm)
          fun c hc => ⟨(hsparing m hm).2 _ hc c rfl,
            hcaptures rule hrule pattern hpattern before m hm c hc⟩
      have hchanged : Settles plain t field (k + (below i + 1)) c.new :=
        h.settles_change hnamed htemplated hsize hfield (hparent i hids) hmodified
          (hworking i hids k hmodified) hrule hchange
      -- all changes of the pass are given the same bound, that of the pass
      have hle : below i + 1 ≤ (group.map fun i => below i + 1).sum :=
        List.le_sum_of_mem (List.mem_map.2 ⟨i, hi, rfl⟩)
      exact hchanged.mono (Nat.add_le_add_left hle k)
    have htext := Settles.replaced hplain hreplaced hbefore hcut hnew (Nat.le_add_right k _)
    rw [List.map_append, List.sum_append, ← Nat.add_assoc]
    exact ih (fun s hs => hrules s (List.mem_cons_of_mem _ hs))
      (fun i hi => hparent i (List.mem_append_right _ hi))
      (fun i hi => hworking i (List.mem_append_right _ hi)) htext

/-- The passes below a node add to the depth of its text at most the number of nodes below it. -/
theorem settles_working (hbelow : t.CountsBelow below) :
    ∀ p < t.size, ∀ n, Settles plain t field n (t.node p).modified →
      Settles plain t field (n + below p) (t.node p).working := by
  refine h.arena.induction_children fun p hp ih n hmodified => ?_
  obtain ⟨r, hr, -, own, ids, -, hperm, hsorted, hpasses⟩ := h.buffers p hp
  have hparent : ∀ i ∈ ids, t.IsParent p i :=
    fun i hi => h.arena.isParent_of_mem_children (hperm.mem_iff.1 hi)
  have hrules : ∀ s ∈ r.children.filterMap (g.searcher? own),
      s.1 ∈ g.rules ∧ s.1.pattern? = some s.2 := by
    intro s hs
    obtain ⟨id, -, hid⟩ := List.mem_filterMap.1 hs
    exact Grammar.mem_rules_of_searcher? hid
  have hdepth := h.settles_of_passes hnamed htemplated hsize hfield hplain hfaithful hcaptures
    hspares hpasses hrules hparent (fun i hi => ih i (hparent i hi)) hmodified
  exact hdepth.mono (Nat.add_le_add_left (hbelow p hp ids hsorted hparent) n)

/-- There are fewer levels below the root than nodes, and a text is expanded in a round more than
there are nodes. -/
theorem settles_working_root (hinput : ∀ c ∈ input, plain c) :
    ∃ depth ≤ t.size + 1, Settles plain t field depth (t.node root).working := by
  have hroot : root < t.size := h.arena.root_bare.1
  obtain ⟨below, hbelow, hsum⟩ := h.arena.exists_countsBelow
  have hmodified : Settles plain t field 0 (t.node root).modified :=
    h.settles_root hplain htemplated hinput
  have hworking : Settles plain t field (0 + below root) (t.node root).working :=
    h.settles_working hnamed htemplated hsize hfield hplain hfaithful hcaptures hspares hsum root
      hroot 0 hmodified
  exact ⟨0 + below root, by omega, hworking⟩

end

/-- If searches cut no token, and neither the templates nor the input contain a character of one,
nothing of a token is left when the working text of the root is expanded in either way. -/
theorem tokenFree_expand (h : Parsed g input t events) (hfaithful : g.Faithful)
    (hcaptures : g.CapturesFaithfully) (hnamed : g.Named) (htemplated : g.Templated)
    (hinput : input.TokenFree) (hspares : ∀ e ∈ events, e.SparesTokens)
    (hsize : t.size ≤ Text.wordBound) :
    t.render.TokenFree ∧ (t.unmask (t.node root).working).TokenFree := by
  have hexpand (field : Node → Text) (hfield : field = Node.modified ∨ field = Node.working) :
      (t.expand field (t.node root).working).TokenFree := by
    obtain ⟨depth, hdepth, hworking⟩ := h.settles_working_root hnamed
      (Grammar.templated_iff.1 htemplated) hsize hfield plainChars_tokenFree hfaithful hcaptures
      hspares hinput
    exact hworking.expand plainChars_tokenFree hdepth
  exact ⟨hexpand Node.working (.inr rfl), hexpand Node.modified (.inl rfl)⟩

end Parsed

/-- If no search of a parse cuts a token, and neither the templates nor the input contain a
character of a token, nothing of a token is left in the result of the parse, nor in the working text
of the root when it is expanded with the modified texts. The numbers in tokens are words, so this
takes that there are no more nodes than words. -/
theorem tokenFree_of_history {rule : Rule} {seed : State} (hfaithful : g.Faithful)
    (hordered : g.Ordered) (hcaptures : g.CapturesFaithfully) (hnamed : g.Named)
    (htemplated : g.Templated) (hrule : rule ∈ g.rules) (hinput : input.TokenFree)
    (h : history g rule input seed = (.ok t, events)) (hspares : ∀ e ∈ events, e.SparesTokens)
    (hsize : t.size ≤ Text.wordBound) :
    t.render.TokenFree ∧ (t.unmask (t.node root).working).TokenFree := by
  have hparsed : Parsed g input t events :=
    (runs_of_history h).parsed hfaithful hordered hrule
  exact hparsed.tokenFree_expand hfaithful hcaptures hnamed htemplated hinput hspares hsize

/-- The hooks that put what has been found into angle brackets and mask it. -/
def bracketed : Hooks :=
  Replacement.hooks (some ['<', '$', '0', '>']) false

/-- A parse that finds one match puts it into brackets, and no token is left. -/
theorem tokenFree_of_history_ofWord :
    (Grammar.ofWord ['a', 'b'] bracketed).Faithful ∧
      (Grammar.ofWord ['a', 'b'] bracketed).Ordered ∧
      (Grammar.ofWord ['a', 'b'] bracketed).CapturesFaithfully ∧
      (Grammar.ofWord ['a', 'b'] bracketed).Named ∧
      (Grammar.ofWord ['a', 'b'] bracketed).Templated ∧
      ∃ t events, history (.ofWord ['a', 'b'] bracketed) (Grammar.ofWord ['a', 'b'] bracketed).root
          ['x', 'a', 'b', 'y'] .empty = (.ok t, events) ∧
        (∀ e ∈ events, e.SparesTokens) ∧ t.size ≤ Text.wordBound ∧
        (t.node root).working = ['x'] ++ Token.mint ['w'] 1 1 ++ ['y'] ∧
        t.render = ['x', '<', 'a', 'b', '>', 'y'] ∧ t.render.TokenFree ∧
        (t.unmask (t.node root).working).TokenFree := by
  have hfaithful := Grammar.ofWord_faithful ['a', 'b'] bracketed
  have hordered := Grammar.ofWord_ordered ['a', 'b'] bracketed
  have hcaptures := Grammar.ofWord_capturesFaithfully ['a', 'b'] bracketed
  have hnamed : (Grammar.ofWord ['a', 'b'] bracketed).Named :=
    Grammar.forall_mem_ofWord (by decide) (by decide)
  have htemplated : (Grammar.ofWord ['a', 'b'] bracketed).Templated := by
    refine Grammar.forall_mem_ofWord ⟨none, false, rfl, by simp⟩
      ⟨some ['<', '$', '0', '>'], false, rfl, ?_⟩
    rintro template ⟨rfl⟩
    decide
  have htree : (history (.ofWord ['a', 'b'] bracketed)
      (Grammar.ofWord ['a', 'b'] bracketed).root ['x', 'a', 'b', 'y'] .empty).1.map
        (fun t => (t.size, (t.node root).working, t.render)) =
      .ok (2, ['x'] ++ Token.mint ['w'] 1 1 ++ ['y'], ['x', '<', 'a', 'b', '>', 'y']) := by rfl
  -- the only search is in the input, which has no tokens
  have hspares : ∀ e ∈ (history (.ofWord ['a', 'b'] bracketed)
      (Grammar.ofWord ['a', 'b'] bracketed).root ['x', 'a', 'b', 'y'] .empty).2,
      e.SparesTokens := by decide
  refine ⟨hfaithful, hordered, hcaptures, hnamed, htemplated, ?_⟩
  rcases h : history (.ofWord ['a', 'b'] bracketed) (Grammar.ofWord ['a', 'b'] bracketed).root
    ['x', 'a', 'b', 'y'] .empty with ⟨e | t, events⟩
  · rw [h] at htree
    contradiction
  · rw [h] at htree hspares
    obtain ⟨hsize, hworking, hrender⟩ : t.size = 2 ∧
        (t.node root).working = ['x'] ++ Token.mint ['w'] 1 1 ++ ['y'] ∧
        t.render = ['x', '<', 'a', 'b', '>', 'y'] := by
      simpa [Except.map] using htree
    have hbound : t.size ≤ Text.wordBound := by
      rw [hsize]
      decide
    exact ⟨t, events, rfl, hspares, hbound, hworking, hrender,
      tokenFree_of_history hfaithful hordered hcaptures hnamed htemplated Grammar.root_mem_ofWord
        (by decide) h hspares hbound⟩

end Engine

end Cascade
