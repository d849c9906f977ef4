import Cascade.Proofs.Engine.Literals
import Cascade.Proofs.Engine.RoundTrip
import Cascade.Proofs.Engine.Traversal

/-!
# Grammars that have been compiled

If the engine for patterns can be relied on, so can the patterns of each grammar that it compiles.
What its rules are called and which hooks they have is known from the definitions. So nothing but
the definitions and the input need be looked at to say what comes out of a parse.

* `expand_eq_input_of_compile`: rules that keep the text give the input back.
* `tokenFree_of_compile`: nothing of a token is left if there was none before.
* `exists_gaps_of_compile`: what is masked first comes out unchanged.
* `nodup_nodeJson_of_compile`: no node is shown twice in the serialised tree.
-/

namespace Cascade.Engine

open Cascade.Token Cascade.Tree

variable {compiler : PatternCompiler} {g : Grammar} {rule : Rule} {input : Text} {seed : State}
  {t : Tree} {events : List Event}

/-- If no definition changes what it matches, a parse gives the input back, unless a token of the
tree occurs in it. -/
theorem expand_eq_input_of_compile {ds : List Definition} {root' wiring : Text}
    (hreliable : compiler.Reliable) (hcompile : Grammar.compile compiler ds root' wiring = .ok g)
    (hidentity : ∀ d ∈ ds, d.hooks.IsIdentity) (hrule : rule ∈ g.rules)
    (h : run g rule input seed = .ok t) (hsize : t.size ≤ Text.wordBound)
    (hfree : ∀ token i, t.owner? token = some i → ¬ token <:+: input) :
    t.unmask (t.node root).working = input ∧ t.render = input := by
  obtain ⟨events, hruns⟩ := runs_of_run h
  have hparsed : Parsed g input t events :=
    hruns.parsed (Grammar.faithful_of_compile hreliable hcompile)
      (Grammar.ordered_of_compile hreliable hcompile) hrule
  refine hparsed.expand_eq_input (Grammar.named_of_compile hcompile) (fun r hr => ?_) hsize hfree
  obtain ⟨d, hd, -, hhooks⟩ := (Grammar.exists_definition_of_compile hcompile).1 r hr
  rw [hhooks]
  exact hidentity d hd

/-- If neither the templates of a grammar nor the input contain a character of a token, and no
search cuts a token, nothing of a token is left. -/
theorem tokenFree_of_compile {dg : DataGrammar} (hreliable : compiler.Reliable)
    (hcompile : dg.compile compiler = .ok g)
    (htemplates : ∀ r ∈ dg.rules, ∀ template, r.replacement? = some template → template.TokenFree)
    (hrule : rule ∈ g.rules) (hinput : input.TokenFree)
    (h : history g rule input seed = (.ok t, events)) (hspares : ∀ e ∈ events, e.SparesTokens)
    (hsize : t.size ≤ Text.wordBound) :
    t.render.TokenFree ∧ (t.unmask (t.node root).working).TokenFree := by
  have hfaithful := Grammar.faithful_of_compile hreliable hcompile
  have hparsed : Parsed g input t events :=
    (runs_of_history h).parsed hfaithful (Grammar.ordered_of_compile hreliable hcompile) hrule
  exact hparsed.tokenFree_expand hfaithful
    (Grammar.capturesFaithfully_of_compile hreliable hcompile) (Grammar.named_of_compile hcompile)
    (DataGrammar.templatedIn_of_compile hcompile htemplates) hinput hspares hsize

/-- If neither the templates of a grammar nor the input contain an opening mark, and searches keep
away from tokens, what the first rule masks comes out in order and unchanged. -/
theorem exists_gaps_of_compile {dg : DataGrammar} {q : Rule} {pattern : Pattern}
    (hreliable : compiler.Reliable) (hcompile : dg.compile compiler = .ok g)
    (htemplates : ∀ r ∈ dg.rules, ∀ template, r.replacement? = some template →
      ∀ c ∈ template, c ≠ openMark)
    (hmasks : MasksFirst g rule q pattern) (hinput : openMark ∉ input)
    (h : history g rule input seed = (.ok t, events)) (havoids : ∀ e ∈ events, e.AvoidsTokens)
    (hsize : t.size ≤ Text.wordBound) :
    ∃ first gaps, gaps.length = (pattern.scan input).length ∧
      t.render = first ++ (List.zipWith (fun m gap => m.captures.whole ++ gap)
        (pattern.scan input) gaps).flatten :=
  hmasks.exists_gaps (Grammar.faithful_of_compile hreliable hcompile)
    (Grammar.ordered_of_compile hreliable hcompile)
    (Grammar.capturesFaithfully_of_compile hreliable hcompile)
    (Grammar.named_of_compile hcompile)
    (DataGrammar.templatedIn_of_compile hcompile htemplates) hinput h havoids hsize

/-- The rules of a grammar that has been compiled have names of their own, so in the serialised tree
of a parse no node is shown twice, whatever the engine for patterns. -/
theorem nodup_nodeJson_of_compile {ds : List Definition} {root' wiring : Text}
    (hcompile : Grammar.compile compiler ds root' wiring = .ok g)
    (h : run g rule input seed = .ok t) (hsize : t.size ≤ Text.wordBound) :
    (t.nodeJson root).preorder.Nodup :=
  nodup_nodeJson_of_run h (Grammar.named_of_compile hcompile)
    (Grammar.namesApart_of_compile hcompile) hsize

end Cascade.Engine
