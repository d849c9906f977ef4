import Cascade.Proofs.Tree.Arena
import Cascade.Proofs.Tree.ExpandsTo
import Mathlib.Data.Finset.Card
import Mathlib.Tactic.IntervalCases

/-!
# Expanding where no node quotes itself

A node quotes another if the token of the other one stands in its text. If no node quotes itself,
not even through others, then tokens are nested less deep than there are nodes, so that the rounds
in which a tree expands a text come to an end. They give what the recursion on the tokens gives.

* `Registered`: what holds of the tokens of a tree.
* `Quotes`, `rank`: which nodes a text refers to, and how many nodes it leads to.
* `exists_expandsTo`: a text expands if it leads to finitely many nodes.
* `expand_eq_of_acyclic`: rounds and recursion come to the same.
-/

namespace Cascade.Tree

open Relation Token

variable {t : Tree} {field : Node → Text} {text token : Text} {i j : NodeId} {k : Nat}

/-- Each token of a tree belongs to one node, which is not the root and has the token. -/
structure Registered (t : Tree) : Prop where
  owner : ∀ token i, t.owner? token = some i ↔
    i ≠ root ∧ i < t.size ∧ (t.node i).token? = some token
  minted : ∀ token i, t.owner? token = some i →
    ∃ rule occurrence sequence, token = mint rule occurrence sequence

/-- The tokens of a well-formed tree belong to one node each. -/
theorem WellFormed.registered (h : t.WellFormed) : t.Registered := by
  have hroot {token : Text} {i : NodeId} (htoken : (t.node i).token? = some token) : i ≠ root := by
    rintro rfl
    rw [h.root_bare.2.2.1] at htoken
    contradiction
  refine ⟨fun token i => ?_, fun token i howner => ?_⟩
  · rw [h.owner]
    exact ⟨fun hi => ⟨hroot hi.2, hi⟩, And.right⟩
  · obtain ⟨hi, htoken⟩ := (h.owner token i).1 howner
    rw [h.token i (hroot htoken) hi] at htoken
    exact ⟨_, _, _, (Option.some.inj htoken).symm⟩

/-- The token of a node stands in the text of another. -/
def Quotes (t : Tree) (field : Node → Text) (i j : NodeId) : Prop :=
  ∃ token, t.owner? token = some j ∧ token <:+: field (t.node i)

/-- No node quotes itself if nodes quote later nodes only. -/
theorem not_transGen_quotes_of_lt (h : ∀ i j, t.Quotes field i j → i < j) (i : NodeId) :
    ¬ TransGen (t.Quotes field) i i := by
  have hlt {i j : NodeId} (hpath : TransGen (t.Quotes field) i j) : i < j := by
    induction hpath with
    | single hq => exact h _ _ hq
    | tail _ hq ih => exact ih.trans (h _ _ hq)
  exact fun hpath => lt_irrefl i (hlt hpath)

open Classical in
/-- The number of nodes that a node quotes, itself or through others. -/
noncomputable def rank (t : Tree) (field : Node → Text) (i : NodeId) : Nat :=
  ((Finset.range t.size).filter (TransGen (t.Quotes field) i)).card

theorem Registered.lt_size_of_quotes (hreg : t.Registered) (h : t.Quotes field i j) :
    j < t.size := by
  obtain ⟨token, howner, -⟩ := h
  exact ((hreg.owner token j).1 howner).2.1

/-- What a node quotes leads to less nodes than the node. -/
theorem Registered.rank_lt (hreg : t.Registered)
    (hacyclic : ∀ i, ¬ TransGen (t.Quotes field) i i) (h : t.Quotes field i j) :
    t.rank field j < t.rank field i := by
  classical
  refine Finset.card_lt_card ((Finset.ssubset_iff_of_subset fun l hl => ?_).2 ⟨j, ?_, ?_⟩)
  · rw [Finset.mem_filter] at hl ⊢
    exact ⟨hl.1, .head h hl.2⟩
  · rw [Finset.mem_filter, Finset.mem_range]
    exact ⟨hreg.lt_size_of_quotes h, .single h⟩
  · rw [Finset.mem_filter]
    exact fun hj => hacyclic j hj.2

/-- A node leads to no more than the other nodes. -/
theorem rank_lt_size (hacyclic : ∀ i, ¬ TransGen (t.Quotes field) i i) (hi : i < t.size) :
    t.rank field i < t.size := by
  classical
  have hsub : (Finset.range t.size).filter (TransGen (t.Quotes field) i) ⊂ Finset.range t.size := by
    refine (Finset.ssubset_iff_of_subset (Finset.filter_subset ..)).2
      ⟨i, Finset.mem_range.2 hi, fun hmem => ?_⟩
    exact hacyclic i (Finset.mem_filter.1 hmem).2
  have hcard := Finset.card_lt_card hsub
  rwa [Finset.card_range] at hcard

/-- A clean text can be expanded by recursion if the nodes whose tokens stand in it lead to less
nodes than there are levels. -/
theorem Registered.exists_expandsTo (hreg : t.Registered)
    (hacyclic : ∀ i, ¬ TransGen (t.Quotes field) i i)
    (hclean : ∀ i < t.size, (field (t.node i)).Clean)
    (htext : text.Clean)
    (hrank : ∀ token i, t.owner? token = some i → token <:+: text → t.rank field i < k) :
    ∃ result, ExpandsTo t field k text result := by
  -- on each level, one goes through the text by its characters and tokens
  induction k using Nat.strongRecOn generalizing text with
  | _ k ih =>
    induction htext using Text.Clean.induction with
    | nil => exact ⟨[], .nil⟩
    | plain c rest hc _ ih' =>
      obtain ⟨result, hrest⟩ := ih' fun token i howner hstands =>
        hrank token i howner (hstands.trans (List.suffix_cons c rest).isInfix)
      exact ⟨c :: result, .plain (ne_openMark_of_not_isTokenChar hc) hrest⟩
    | token τ rest hτ _ ih' =>
      obtain ⟨result, hrest⟩ := ih' fun token i howner hstands =>
        hrank token i howner (hstands.trans (List.suffix_append τ rest).isInfix)
      cases howner : t.owner? τ with
      | none => exact ⟨τ ++ result, .unknown hτ howner hrest⟩
      | some i =>
        have hi : t.rank field i < k := hrank τ i howner (List.prefix_append τ rest).isInfix
        obtain ⟨level, rfl⟩ := Nat.exists_eq_succ_of_ne_zero (Nat.ne_zero_of_lt hi)
        have hsize : i < t.size := ((hreg.owner τ i).1 howner).2.1
        -- what the node quotes leads to less nodes, so that one level less is enough
        obtain ⟨expanded, hfield⟩ := ih level (Nat.lt_succ_self _) (hclean i hsize)
          fun token j howner hstands =>
            (hreg.rank_lt hacyclic ⟨token, howner, hstands⟩).trans_le (Nat.le_of_lt_succ hi)
        exact ⟨expanded ++ result, .known hτ howner hfield hrest⟩

/-- If no node quotes itself and all texts are clean, the rounds in which a tree expands a clean
text give what the recursion on tokens gives, which is the text with each token of a node replaced
by what the text of the node is expanded to. No token of a node is left, so that expanding once more
changes nothing, and texts may be expanded part by part. With the modified texts of nodes this is
what `unmask` does, and with their working texts what `rendered` and `render` do. -/
theorem expand_eq_of_acyclic (hreg : t.Registered)
    (hclean : ∀ i < t.size, (field (t.node i)).Clean)
    (hacyclic : ∀ i, ¬ TransGen (t.Quotes field) i i) (htext : text.Clean) :
    (∀ result, (∃ depth, ExpandsTo t field depth text result) ↔ result = t.expand field text) ∧
      t.expand field text =
        replaceTokens (fun token => (t.owner? token).map fun i => t.expand field (field (t.node i)))
          text ∧
      (∀ token i, t.owner? token = some i → ¬ token <:+: t.expand field text) ∧
      t.expand field (t.expand field text) = t.expand field text ∧
      ∀ other : Text, other.Clean →
        t.expand field (text ++ other) = t.expand field text ++ t.expand field other := by
  -- each token leads to a node of lower rank, and ranks are numbers of nodes
  have hexpands {text : Text} (htext : text.Clean) :
      ExpandsTo t field t.size text (t.expand field text) := by
    obtain ⟨result, hresult⟩ := hreg.exists_expandsTo hacyclic hclean htext
      fun token i howner _ => rank_lt_size hacyclic ((hreg.owner token i).1 howner).2.1
    rwa [hresult.expand_eq (Nat.le_succ _)]
  have h := hexpands htext
  refine ⟨fun result => ⟨?_, ?_⟩, ?_, fun token i howner hstands => ?_, ?_, fun other hother => ?_⟩
  · rintro ⟨depth, hresult⟩
    exact hresult.unique h
  · rintro rfl
    exact ⟨t.size, h⟩
  · exact (h.replaceTokens_eq (Nat.le_succ _)).symm
  · obtain ⟨rule, occurrence, sequence, rfl⟩ := hreg.minted token i howner
    have hresult : (t.expand field text).Clean :=
      h.clean htext fun token i howner => hclean i ((hreg.owner token i).1 howner).2.1
    -- the result is clean, so what stands in it as a token is one that would have been replaced
    obtain ⟨a, b, heq⟩ := hstands
    exact h.finished a _ b i (hresult.isToken_of_infix ⟨a, b, heq⟩) howner
      (by rw [← heq, List.append_assoc])
  · exact h.stable.expand_eq (Nat.zero_le _)
  · exact (h.append (hexpands hother)).expand_eq (Nat.le_succ _)

/-- A tree of three nodes, where the root quotes the node below it, and this one the node below
that. -/
def nested : Tree :=
  let rule : Rule :=
    { id := .ofIndex 0, name := ['w'], pattern? := none, children := [], hooks := .identity }
  let whole (text : Text) : Match :=
    ⟨⟨0, text.byteLength⟩, ⟨[some ⟨text, ⟨0, text.byteLength⟩⟩], []⟩⟩
  let t := Engine.addMatch (Engine.startTree rule ['a', 'b'] .empty) root rule (whole ['a', 'b'])
  let t := Engine.addMatch t 1 rule (whole ['b'])
  (t.setWorking root (mint ['w'] 1 1)).setWorking 1 ('a' :: mint ['w'] 2 2)

theorem arena_nested : Arena nested := by
  unfold nested
  refine .of_sameShape (.of_sameShape ?_ (sameShape_setWorking ..)) (sameShape_setWorking ..)
  refine .addMatch (.addMatch (arena_startTree ..) ⟨Nat.zero_lt_one, .refl⟩ rfl) ?_ rfl
  exact isOpen_addMatch

/-- In the tree of three nodes, a text that quotes the second node is expanded in two steps. -/
theorem expand_eq_of_acyclic_nested :
    nested.Registered ∧ (∀ i < nested.size, (nested.node i).working.Clean) ∧
      (∀ i, ¬ TransGen (nested.Quotes Node.working) i i) ∧
      Text.Clean (mint ['w'] 1 1 ++ ['x']) ∧
      nested.expand Node.working (mint ['w'] 1 1 ++ ['x']) = ['a', 'b', 'x'] ∧
      (∃ depth, ExpandsTo nested Node.working depth (mint ['w'] 1 1 ++ ['x']) ['a', 'b', 'x']) ∧
      (∀ token i, nested.owner? token = some i → ¬ token <:+: ['a', 'b', 'x']) ∧
      nested.expand Node.working ['a', 'b', 'x'] = ['a', 'b', 'x'] := by
  have hreg : nested.Registered := arena_nested.wellFormed.registered
  have hsize : nested.size = 3 := rfl
  have hplain (c : Char) (hc : isTokenChar c = false) : Text.Clean [c] := .plain hc .nil
  have hclean : ∀ i < nested.size, (nested.node i).working.Clean := by
    intro i hi
    rw [hsize] at hi
    interval_cases i
    · exact Text.Clean.token (τ := mint ['w'] 1 1) (by decide) .nil
    · exact .plain (by decide) (Text.Clean.token (τ := mint ['w'] 2 2) (by decide) .nil)
    · exact hplain 'b' (by decide)
  have htext : Text.Clean (mint ['w'] 1 1 ++ ['x']) :=
    .token (by decide) (hplain 'x' (by decide))
  -- nodes quote later nodes only
  have hlt (i j : Nat) (h : nested.Quotes Node.working i j) : i < j := by
    obtain ⟨token, howner, hstands⟩ := h
    obtain ⟨hroot, hj, htoken⟩ := (hreg.owner token j).1 howner
    obtain ⟨rule, occurrence, sequence, rfl⟩ := hreg.minted token j howner
    have hi : i < 3 := by
      by_contra hi
      rw [node_of_size_le (Nat.le_of_not_lt hi)] at hstands
      exact absurd (List.eq_nil_of_infix_nil hstands) (by simp [mint_eq])
    by_contra hij
    have hle : j ≤ i := Nat.le_of_not_lt hij
    have hpos : 0 < j := Nat.pos_of_ne_zero hroot
    have hcases : i = 1 ∧ j = 1 ∨ i = 2 ∧ j = 1 ∨ i = 2 ∧ j = 2 := by omega
    rcases hcases with ⟨rfl, rfl⟩ | ⟨rfl, rfl⟩ | ⟨rfl, rfl⟩ <;>
      · rw [← Option.some.inj htoken] at hstands
        revert hstands
        decide
  have hacyclic := not_transGen_quotes_of_lt hlt
  have hexpand : nested.expand Node.working (mint ['w'] 1 1 ++ ['x']) = ['a', 'b', 'x'] := by rfl
  obtain ⟨hresult, -, hfree, hidem, -⟩ := expand_eq_of_acyclic hreg hclean hacyclic htext
  rw [hexpand] at hresult hfree hidem
  exact ⟨hreg, hclean, hacyclic, htext, hexpand, (hresult _).2 rfl, hfree, hidem⟩

end Cascade.Tree
