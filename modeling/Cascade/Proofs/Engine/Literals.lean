import Cascade.Proofs.Engine.TokenFree

/-!
# What is masked first comes out unchanged

A rule without rules below it and without hooks of its own hides its matches behind tokens. If it
searches the input before any other rule does, and later searches keep away from tokens, the tokens
stay in the working text of the root, in the order of the matches, whatever else is replaced there.
Expanding this text puts the matches back.

* `Event.AvoidsTokens`: what is asked of the searches.
* `Parsed.expandsTo_of_changes`: what is put in place of matches that are masked expands to them.
* `contains_of_passes`: what later rules leave of the tokens.
* `contains_of_history`: the matches stand in the result in order.
-/

namespace Cascade

open Cascade.Token Cascade.Tree

/-- All matches that a search finds, and all groups of these, stand before or behind each token of
the text. -/
def Event.AvoidsTokens : Event → Prop
  | call _ _ _ => True
  | search _ _ pattern text => ∀ m ∈ pattern.scan text, Avoids 0 text m.span ∧
      ∀ group? ∈ m.captures.groups, ∀ group ∈ group?, Avoids 0 text group.span

instance (e : Event) : Decidable e.AvoidsTokens :=
  match e with
  | .call _ _ _ => .isTrue trivial
  | .search _ _ pattern text =>
    inferInstanceAs (Decidable (∀ m ∈ pattern.scan text, Avoids 0 text m.span ∧
      ∀ group? ∈ m.captures.groups, ∀ group ∈ group?, Avoids 0 text group.span))

/-- A span that stands before or behind each token does not begin or end inside one. -/
theorem spares_of_avoids {text part : Text} {span : Span} (h : Avoids 0 text span)
    (hat : text.At span part) : Spares 0 text span := by
  intro s hs
  have hlength := hat.stop_eq
  have hdisjoint := h s hs
  omega

namespace Engine

variable {g : Grammar} {input : Text} {t : Tree} {events : List Event} {rule q : Rule}
  {pattern : Pattern} {i : NodeId} {f : NodeId → Rule}

/-- What a search finds before or behind tokens does not begin or end inside one. -/
theorem sparesTokens_of_avoidsTokens {e : Event} (hfaithful : g.Faithful)
    (hcaptures : g.CapturesFaithfully) (hby : SearchesBy g e) (h : e.AvoidsTokens) :
    e.SparesTokens := by
  cases e with
  | call => trivial
  | search p child pattern text =>
    obtain ⟨hchild, hpattern⟩ := hby
    intro m hm
    obtain ⟨hmatch, hgroups⟩ := h m hm
    refine ⟨spares_of_avoids hmatch (hfaithful child hchild pattern hpattern text m hm),
      fun group? hmem group hgroup => ?_⟩
    obtain rfl : group? = some group := hgroup
    exact spares_of_avoids (hgroups _ hmem group rfl)
      (hcaptures child hchild pattern hpattern text m hm group hmem)

/-! ## The node of a match that is masked -/

theorem eq_of_passes_nil {p : NodeId} {searchers : List (Rule × Pattern)} {before after : Text}
    {ids : List NodeId} (h : Passes t events p searchers before ids after)
    (hnil : searchers = []) : after = before := by
  cases h with
  | nil => rfl
  | cons => contradiction

namespace Parsed

/-- The node of a match keeps the text of the match if no rules are below it and its rule has no
hooks of its own. -/
theorem working_eq (h : Parsed g input t events) (hrules : ∀ e ∈ events, e.IsOf f)
    (hidentity : q.hooks = .identity) (hleaf : q.children = []) (hi : i < t.size) {m : Match}
    (hmatch : t.IsMatch q i m) {c : Text.Change} (hchange : t.IsChange events q i c) :
    (t.node i).working = m.captures.whole := by
  obtain ⟨r, -, -, own, ids, ⟨tree, t', hcall, hfixed, hcapture, -⟩, -, -, hpasses⟩ :=
    h.buffers i hi
  obtain ⟨tree', t'', hcall', -, -⟩ := hchange.substituted
  -- the rule whose text has been captured is the one whose match has been replaced
  obtain rfl : r = q := (hrules _ hcall).symm.trans (hrules _ hcall')
  rw [hidentity] at hcapture
  have hmatched : (tree.node i).matched = (t.node i).matched :=
    (Node.fixed_eq_iff.1 hfixed).2.2.2.1
  rw [eq_of_passes_nil hpasses (by rw [hleaf]; rfl), succeeds_keepText hcapture, View.node,
    hmatched, hmatch.matched_eq]

/-- What replaces a match that is masked is a token that expands to the match. -/
theorem expandsTo_of_isChange (h : Parsed g input t events) (hnamed : g.Named)
    (hsize : t.size ≤ Text.wordBound) (hrules : ∀ e ∈ events, e.IsOf f)
    (hidentity : q.hooks = .identity) (hleaf : q.children = []) (hroot : i ≠ root)
    (hi : i < t.size) {m : Match} (hmatch : t.IsMatch q i m)
    (hunopened : openMark ∉ m.captures.whole) {c : Text.Change}
    (hchange : t.IsChange events q i c) :
    isToken c.new ∧ ∃ depth, ExpandsTo t Node.working depth c.new m.captures.whole := by
  obtain ⟨token, htoken, histoken, howner⟩ := h.exists_token hnamed hsize hroot hi
  obtain ⟨tree, t', -, hsettled, hsubstitute⟩ := hchange.substituted
  rw [hidentity] at hsubstitute
  have hnode : (tree.node i).token? = some token :=
    (Node.fixed_eq_iff.1 (Node.settled_eq_iff.1 hsettled).1).2.2.2.2.1.trans htoken
  have hnew : c.new = token := by
    rw [succeeds_maskText hsubstitute, View.node, hnode]
    rfl
  have hworking := h.working_eq hrules hidentity hleaf hi hmatch hchange
  have hexpands : ExpandsTo t Node.working 0 (t.node i).working m.captures.whole := by
    rw [hworking]
    exact .of_forall_ne fun c hc heq => hunopened (heq ▸ hc)
  rw [hnew]
  exact ⟨histoken, 1, .of_known histoken howner hexpands⟩

/-- The tokens that replace the matches expand to these. -/
theorem expandsTo_of_changes (h : Parsed g input t events) (hnamed : g.Named)
    (hsize : t.size ≤ Text.wordBound) (hrules : ∀ e ∈ events, e.IsOf f)
    (hidentity : q.hooks = .identity) (hleaf : q.children = []) {group : List NodeId}
    {found : List Match} {changes : List Text.Change}
    (hparent : ∀ i ∈ group, t.IsParent root i)
    (hunopened : ∀ m ∈ found, openMark ∉ m.captures.whole)
    (hmatches : List.Forall₂ (t.IsMatch q) group found)
    (hchanges : List.Forall₂ (t.IsChange events q) group changes) :
    List.Forall₂ (fun token part =>
        isToken token ∧ ∃ depth, ExpandsTo t Node.working depth token part)
      (changes.map Text.Change.new) (found.map fun m => m.captures.whole) := by
  rw [List.forall₂_map_left_iff, List.forall₂_map_right_iff]
  refine forall₂_of_changes hmatches hchanges fun i hi m hm c hmatch hchange => ?_
  have hroot : i ≠ root := (Nat.zero_lt_of_lt (h.arena.parent_lt (hparent i hi))).ne'
  exact h.expandsTo_of_isChange hnamed hsize hrules hidentity hleaf hroot
    (lt_size_of_isParent (hparent i hi)) hmatch (hunopened m hm) hchange

end Parsed

/-! ## Later searches -/

/-- Tokens that stand in a text still stand in it after passes that keep away from tokens. -/
theorem contains_of_passes {p : NodeId} {searchers : List (Rule × Pattern)} {before after : Text}
    {ids : List NodeId} (hpasses : Passes t events p searchers before ids after)
    (havoids : ∀ e ∈ events, e.AvoidsTokens) {tokens : List Text}
    (htokens : ∀ token ∈ tokens, isToken token) (h : before.Contains tokens) :
    after.Contains tokens := by
  induction hpasses with
  | nil => exact h
  | @cons rule pattern searchers before text after group ids changes hsearch hmatches _ hchanges
      hreplaced _ _ ih =>
    have havoiding : (Event.search p rule pattern before).AvoidsTokens := havoids _ hsearch
    refine ih (.replaced hreplaced h htokens fun c hc => ?_)
    obtain ⟨i, hi, hchange⟩ := exists_of_mem_right hchanges hc
    obtain ⟨m, hm, hmatch⟩ := exists_of_mem_left hmatches hi
    rw [hchange.span_eq, hmatch.span_eq]
    exact (havoiding m hm).1

/-! ## Whole parses -/

theorem searcher?_empty {id : RuleId} (hq : g.ruleAt? id = some q)
    (hpattern : q.pattern? = some pattern) : g.searcher? .empty id = some (q, pattern) := by
  simp only [Grammar.searcher?, hq, hpattern, Option.bind_eq_bind, Option.bind_some]
  rfl

/-- If the rule of the root keeps the input, the rules below it search the input, and no state of
the root skips one of them. -/
theorem captured_root {seed : State} {r : Rule} {text : Text} {own : State}
    (h : history g rule input seed = (.ok t, events))
    (hkeep : rule.hooks.onCapture = Hooks.keepText)
    (hcaptured : Captured t events r root text own) :
    r = rule ∧ text = input ∧ own = .empty := by
  obtain ⟨tree, t', hcall, -, hcapture, rfl⟩ := hcaptured
  have hfirst : Event.call rule .capture ⟨startTree rule input seed, root⟩ ∈ events := by
    cases runs_of_history h with
    | node => exact List.mem_cons_self
  -- the hook is called once for the root, and that is when the parse starts
  obtain ⟨rfl, rfl⟩ : r = rule ∧ tree = startTree rule input seed := by
    simpa using eq_of_call? (nodup_calls h) hcall hfirst rfl rfl
  rw [hkeep] at hcapture
  obtain ⟨rfl, rfl⟩ := keepText_succeeds_iff.1 hcapture
  exact ⟨rfl, rfl, rfl⟩

/-- A rule keeps the input, and the first rule below it masks what it finds there: it has a pattern,
but neither hooks of its own nor rules below it. -/
structure MasksFirst (g : Grammar) (rule q : Rule) (pattern : Pattern) : Prop where
  mem_rules : rule ∈ g.rules
  keeps : rule.hooks.onCapture = Hooks.keepText
  children : ∃ id later, rule.children = id :: later ∧ g.ruleAt? id = some q
  pattern_eq : q.pattern? = some pattern
  identity : q.hooks = .identity
  leaf : q.children = []

/-- What the first rule masks stands in the result in order and unchanged, if searches keep away
from tokens, and neither the templates nor the input contain an opening mark. -/
theorem MasksFirst.exists_gaps {seed : State} (hmasks : MasksFirst g rule q pattern)
    (hfaithful : g.Faithful) (hordered : g.Ordered) (hcaptures : g.CapturesFaithfully)
    (hnamed : g.Named) (htemplated : g.TemplatedIn (· ≠ openMark)) (hinput : openMark ∉ input)
    (h : history g rule input seed = (.ok t, events)) (havoids : ∀ e ∈ events, e.AvoidsTokens)
    (hsize : t.size ≤ Text.wordBound) :
    ∃ first gaps, gaps.length = (pattern.scan input).length ∧
      t.render = first ++ (List.zipWith (fun m gap => m.captures.whole ++ gap)
        (pattern.scan input) gaps).flatten := by
  obtain ⟨hrule, hkeep, ⟨id, later, hchildren, hq⟩, hpattern, hidentity, hleaf⟩ := hmasks
  have hruns := runs_of_history h
  have hparsed : Parsed g input t events := hruns.parsed hfaithful hordered hrule
  have hroot : root < t.size := hparsed.arena.root_bare.1
  obtain ⟨f, -, hrules⟩ := hruns.exists_rule (ready_startTree ..)
  have hspares : ∀ e ∈ events, e.SparesTokens := fun e he =>
    sparesTokens_of_avoidsTokens hfaithful hcaptures (hruns.searchesBy e he) (havoids e he)
  obtain ⟨r, -, -, own, ids, hcaptured, hperm, -, hpasses⟩ := hparsed.buffers root hroot
  obtain ⟨rfl, hmodified, rfl⟩ := captured_root h hkeep hcaptured
  have hsearchers : r.children.filterMap (g.searcher? .empty) =
      (q, pattern) :: later.filterMap (g.searcher? .empty) := by
    rw [hchildren, List.filterMap_cons_some (searcher?_empty hq hpattern)]
  rw [hsearchers, hmodified] at hpasses
  cases hpasses with
  | @cons _ _ _ _ text _ group ids changes _ hmatches _ hchanges hreplaced _ hrest =>
    have hparent : ∀ i ∈ group, t.IsParent root i := fun i hi =>
      hparsed.arena.isParent_of_mem_children (hperm.mem_iff.1 (List.mem_append_left _ hi))
    -- what is found stands in the input
    have hunopened : ∀ m ∈ pattern.scan input, openMark ∉ m.captures.whole := fun m hm hmem =>
      hinput ((hfaithful q (Array.mem_of_getElem? hq) pattern hpattern input m hm).subset hmem)
    have hmasked := hparsed.expandsTo_of_changes hnamed hsize hrules hidentity hleaf hparent
      hunopened hmatches hchanges
    have htokens : ∀ token ∈ changes.map Text.Change.new, isToken token := by
      intro token htoken
      obtain ⟨part, -, hpart⟩ := exists_of_mem_left hmasked htoken
      exact hpart.1
    have hcontains : (t.node root).working.Contains (changes.map Text.Change.new) :=
      contains_of_passes hrest havoids htokens (.of_replaced hreplaced)
    obtain ⟨depth, hdepth, hsettles⟩ := hparsed.settles_working_root hnamed htemplated hsize
      (.inr rfl) plainChars_ne_openMark hfaithful hcaptures hspares fun c hc heq =>
        hinput (heq ▸ hc)
    obtain ⟨result, hresult, -⟩ := hsettles.expandsTo plainChars_ne_openMark
    have hrender : t.render = result := hresult.expand_eq hdepth
    obtain ⟨first, gaps, hlength, htext⟩ := (hresult.contains hcontains hmasked).exists_gaps
    rw [List.length_map] at hlength
    rw [List.zipWith_map_left] at htext
    exact ⟨first, gaps, hlength, hrender.trans htext⟩

/-- If a rule that masks its matches searches the input first, searches keep away from tokens, and
neither the templates nor the input contain an opening mark, the matches of this rule stand in the
result in order and unchanged. The first search is in the input, where there is no token to keep
away from. The numbers in tokens are words, so this takes that there are no more nodes than
words. -/
theorem contains_of_history {id : RuleId} {later : List RuleId} {seed : State}
    (hfaithful : g.Faithful) (hordered : g.Ordered) (hcaptures : g.CapturesFaithfully)
    (hnamed : g.Named) (htemplated : g.TemplatedIn (· ≠ openMark)) (hrule : rule ∈ g.rules)
    (hkeep : rule.hooks.onCapture = Hooks.keepText) (hchildren : rule.children = id :: later)
    (hq : g.ruleAt? id = some q) (hpattern : q.pattern? = some pattern)
    (hidentity : q.hooks = .identity) (hleaf : q.children = []) (hinput : openMark ∉ input)
    (h : history g rule input seed = (.ok t, events)) (havoids : ∀ e ∈ events, e.AvoidsTokens)
    (hsize : t.size ≤ Text.wordBound) :
    ∃ first gaps, gaps.length = (pattern.scan input).length ∧
      t.render = first ++ (List.zipWith (fun m gap => m.captures.whole ++ gap)
        (pattern.scan input) gaps).flatten := by
  have hmasks : MasksFirst g rule q pattern :=
    ⟨hrule, hkeep, ⟨id, later, hchildren, hq⟩, hpattern, hidentity, hleaf⟩
  exact hmasks.exists_gaps hfaithful hordered hcaptures hnamed htemplated hinput h havoids hsize

/-- The rule that puts a word into angle brackets and leaves it in the text. -/
def bracketRule : Rule where
  id := .ofIndex 2
  name := ['v']
  pattern? := some (.first ['x'])
  children := []
  hooks := Replacement.hooks (some ['<', '$', '0', '>']) true

/-- The grammar that masks a word and then puts another one into angle brackets. -/
def masking : Grammar :=
  let text : Rule :=
    { id := .ofIndex 0, name := ['t'], pattern? := none, children := [.ofIndex 1, .ofIndex 2],
      hooks := .identity }
  { rules := #[text, Grammar.wordRule ['a', 'b'] .identity, bracketRule], root := text }

theorem forall_mem_masking {P : Rule → Prop} (hroot : P masking.root)
    (hword : P (Grammar.wordRule ['a', 'b'] .identity)) (hbracket : P bracketRule) :
    ∀ r ∈ masking.rules, P r := by
  intro r hr
  simp only [masking, Array.mem_def, List.mem_cons, List.not_mem_nil, or_false] at hr
  rcases hr with rfl | rfl | rfl
  · exact hroot
  · exact hword
  · exact hbracket

theorem ofWords_masking : masking.OfWords := by
  refine forall_mem_masking ?_ ?_ ?_
  · intro p hp
    contradiction
  · exact fun p hp => ⟨['a', 'b'], (Option.some.inj hp).symm⟩
  · exact fun p hp => ⟨['x'], (Option.some.inj hp).symm⟩

theorem templatedIn_masking : masking.TemplatedIn (· ≠ openMark) := by
  refine forall_mem_masking ⟨none, false, rfl, by simp⟩ ⟨none, false, rfl, by simp⟩
    ⟨some ['<', '$', '0', '>'], true, rfl, ?_⟩
  rintro template ⟨rfl⟩
  simp [openMark]

/-- A word that is masked stands in the result behind another one that has been put into
brackets. -/
theorem contains_of_history_masking :
    masking.Named ∧ ∃ t events,
      history masking masking.root ['x', 'a', 'b', 'y'] .empty = (.ok t, events) ∧
        (∀ e ∈ events, e.AvoidsTokens) ∧ t.size ≤ Text.wordBound ∧
        (t.node root).working = ['<', 'x', '>'] ++ Token.mint ['w'] 1 1 ++ ['y'] ∧
        t.render = ['<', 'x', '>', 'a', 'b', 'y'] ∧
        ∃ first gaps,
          gaps.length = ((Pattern.first ['a', 'b']).scan ['x', 'a', 'b', 'y']).length ∧
          t.render = first ++ (List.zipWith (fun m gap => m.captures.whole ++ gap)
            ((Pattern.first ['a', 'b']).scan ['x', 'a', 'b', 'y']) gaps).flatten := by
  have hnamed : masking.Named := forall_mem_masking (by decide) (by decide) (by decide)
  have htree : (history masking masking.root ['x', 'a', 'b', 'y'] .empty).1.map
      (fun t => (t.size, (t.node root).working, t.render)) =
        .ok (3, ['<', 'x', '>'] ++ Token.mint ['w'] 1 1 ++ ['y'],
          ['<', 'x', '>', 'a', 'b', 'y']) := by rfl
  -- the second word is found before the token of the first one
  have havoids : ∀ e ∈ (history masking masking.root ['x', 'a', 'b', 'y'] .empty).2,
      e.AvoidsTokens := by decide
  refine ⟨hnamed, ?_⟩
  rcases h : history masking masking.root ['x', 'a', 'b', 'y'] .empty with ⟨e | t, events⟩
  · rw [h] at htree
    contradiction
  · rw [h] at htree havoids
    obtain ⟨hsize, hworking, hrender⟩ : t.size = 3 ∧
        (t.node root).working = ['<', 'x', '>'] ++ Token.mint ['w'] 1 1 ++ ['y'] ∧
        t.render = ['<', 'x', '>', 'a', 'b', 'y'] := by
      simpa [Except.map] using htree
    have hbound : t.size ≤ Text.wordBound := by
      rw [hsize]
      decide
    exact ⟨t, events, rfl, havoids, hbound, hworking, hrender,
      contains_of_history ofWords_masking.faithful ofWords_masking.ordered
        ofWords_masking.capturesFaithfully hnamed templatedIn_masking (by simp [masking]) rfl rfl
        rfl rfl rfl rfl (by decide) h havoids hbound⟩

end Engine

end Cascade
