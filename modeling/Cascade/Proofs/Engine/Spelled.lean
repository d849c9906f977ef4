import Cascade.Proofs.Engine.Step
import Cascade.Proofs.Grammar.Compile

/-!
# Inputs that spell tokens

Tokens are minted from the names of rules and from numbers, whatever the input is. So an input may
spell a token before the parse mints it, and what it has spelled is then taken for the token. This
is the only way in which a token of the tree can stand in the input.

* `owner?_slice_of_run`: which nodes the tokens that are found in the input belong to.
* `spelled`: an input that spells the token of its match.
-/

namespace Cascade.Engine

open Cascade.Tree

variable {g : Grammar} {rule : Rule} {input : Text} {seed : State} {t : Tree} {i : NodeId}

theorem Sound.name_ne_nil (h : Sound g t) (hnamed : g.Named) (hroot : i ≠ root)
    (hi : i < t.size) : (t.node i).rule.name ≠ [] := by
  obtain ⟨r, hr, href⟩ := h.rule i hroot hi
  rw [href]
  exact Token.ne_nil_of_isRuleName (hnamed r hr)

/-- A token belongs to a node if and only if it is the one that has been minted for the node. -/
theorem Sound.owner?_eq_some_iff (h : Sound g t) (token : Text) :
    t.owner? token = some i ↔ i ≠ root ∧ i < t.size ∧ token = t.tokenOf i := by
  rw [h.minted.owner]
  constructor
  · rintro ⟨hi, htoken⟩
    have hroot : i ≠ root := by
      rintro rfl
      rw [h.minted.root_bare] at htoken
      contradiction
    rw [h.minted.token i hroot hi] at htoken
    exact ⟨hroot, hi, (Option.some.inj htoken).symm⟩
  · rintro ⟨hroot, hi, rfl⟩
    exact ⟨hi, h.minted.token i hroot hi⟩

/-- A token that is found in the input belongs to a node if and only if it spells the token that is
minted for the node. No other token of the tree stands in the input, so that one which does spells
the name of a rule, an occurrence and the number of the node. The numbers in tokens are words, so
this takes that there are no more nodes than words. -/
theorem owner?_slice_of_run (hnamed : g.Named) (h : run g rule input seed = .ok t)
    (hsize : t.size ≤ Text.wordBound) :
    (∀ s ∈ Token.findTokens input, ∀ i, t.owner? (input.slice s) = some i ↔
      i ≠ root ∧ i < t.size ∧ input.slice s = t.tokenOf i) ∧
    ∀ token i, t.owner? token = some i → token <:+: input →
      (∃ s ∈ Token.findTokens input, input.slice s = token) ∧
      ∃ r ∈ g.rules, ∃ occurrence, 1 ≤ occurrence ∧ occurrence ≤ i ∧ i < t.size ∧
        token = Token.mint r.name occurrence i := by
  have hsound : Sound g t := sound_of_run h
  refine ⟨fun s _ i => hsound.owner?_eq_some_iff _, fun token i howner hstands => ?_⟩
  obtain ⟨hroot, hi, rfl⟩ := (hsound.owner?_eq_some_iff token).1 howner
  constructor
  · -- the token is found where it stands
    obtain ⟨a, b, rfl⟩ := hstands
    have htoken : Token.isToken (t.tokenOf i) :=
      isToken_tokenOf (hsound.name_ne_nil hnamed hroot hi) (hi.trans_le hsize)
    refine ⟨⟨Text.byteLength a, Text.byteLength a + (t.tokenOf i).byteLength⟩, ?_, ?_⟩
    · rw [List.append_assoc, Token.findTokens_append_token htoken]
      simp
    · exact Text.slice_eq_of_at ⟨a, b, rfl, rfl, Text.byteLength_append ..⟩
  · obtain ⟨r, hr, href⟩ := hsound.rule i hroot hi
    refine ⟨r, hr, t.countRule (t.node i).rule.id i, countRule_pos hroot, countRule_le _ i, hi, ?_⟩
    rw [tokenOf, href]
    rfl

/-- A word behind the token that its match is given. -/
def spelled : Text :=
  Token.mint ['w'] 1 1 ++ ['x']

theorem findTokens_spelled : Token.findTokens spelled = [⟨0, 21⟩] := by decide

theorem slice_spelled : spelled.slice ⟨0, 21⟩ = Token.mint ['w'] 1 1 := by decide

theorem spelled_run :
    ∃ t, run (.ofWord ['x'] .identity) (Grammar.ofWord ['x'] .identity).root spelled .empty =
        .ok t ∧
      t.size = 2 ∧ t.render = ['x', 'x'] ∧ t.owner? (Token.mint ['w'] 1 1) = some 1 := by
  have htree : (run (.ofWord ['x'] .identity) (Grammar.ofWord ['x'] .identity).root spelled
      .empty).map (fun t => (t.size, t.render, t.owner? (Token.mint ['w'] 1 1))) =
        .ok (2, ['x', 'x'], some 1) := by rfl
  cases hrun : run (.ofWord ['x'] .identity) (Grammar.ofWord ['x'] .identity).root spelled
    .empty with
  | error e =>
    rw [hrun] at htree
    contradiction
  | ok t =>
    rw [hrun] at htree
    exact ⟨t, rfl, by simpa [Except.map] using htree⟩

/-- A parse whose input spells the token of its match takes what is spelled for the match, and
expands both to the same text. -/
theorem owner?_slice_spelled :
    ∃ t, run (.ofWord ['x'] .identity) (Grammar.ofWord ['x'] .identity).root spelled .empty =
        .ok t ∧
      t.render = ['x', 'x'] ∧
      ∃ s ∈ Token.findTokens spelled, spelled.slice s <:+: spelled ∧
        t.owner? (spelled.slice s) = some 1 := by
  obtain ⟨t, hrun, -, hrender, howner⟩ := spelled_run
  refine ⟨t, hrun, hrender, ⟨0, 21⟩, ?_, ?_, ?_⟩
  · rw [findTokens_spelled]
    exact List.mem_singleton_self _
  · rw [slice_spelled]
    exact (List.prefix_append _ ['x']).isInfix
  · rw [slice_spelled]
    exact howner

/-- In the parse whose input spells a token, this is the name of the rule with the numbers of its
first match. -/
theorem owner?_slice_of_run_spelled :
    (Grammar.ofWord ['x'] .identity).Named ∧
      ∃ t, run (.ofWord ['x'] .identity) (Grammar.ofWord ['x'] .identity).root spelled .empty =
          .ok t ∧
        t.size ≤ Text.wordBound ∧ spelled.slice ⟨0, 21⟩ = t.tokenOf 1 ∧
        ∃ r ∈ (Grammar.ofWord ['x'] .identity).rules, ∃ occurrence, 1 ≤ occurrence ∧
          occurrence ≤ 1 ∧ Token.mint ['w'] 1 1 = Token.mint r.name occurrence 1 := by
  have hnamed : (Grammar.ofWord ['x'] .identity).Named :=
    Grammar.forall_mem_ofWord (by decide) (by decide)
  obtain ⟨t, hrun, hsize, -, howner⟩ := spelled_run
  have hbound : t.size ≤ Text.wordBound := by
    rw [hsize]
    decide
  obtain ⟨hfound, hinput⟩ := owner?_slice_of_run hnamed hrun hbound
  have hmem : (⟨0, 21⟩ : Span) ∈ Token.findTokens spelled := by
    rw [findTokens_spelled]
    exact List.mem_singleton_self _
  have hspelled : t.owner? (spelled.slice ⟨0, 21⟩) = some 1 := by
    rw [slice_spelled]
    exact howner
  obtain ⟨-, r, hr, occurrence, hpos, hle, -, htoken⟩ :=
    hinput _ 1 howner (List.prefix_append _ ['x']).isInfix
  exact ⟨hnamed, t, hrun, hbound, ((hfound _ hmem 1).1 hspelled).2.2,
    r, hr, occurrence, hpos, hle, htoken⟩

end Cascade.Engine
