import Cascade.Proofs.Token.Clean
import Cascade.Proofs.Token.Contains
import Cascade.Proofs.Tree.Unfold
import Mathlib.Data.List.Forall2

/-!
# Expanding a text by recursion

A text of tokens and of characters that do not open tokens is expanded by recursion on the tokens:
one that belongs to a node stands for what the text of the node is expanded to, one that belongs to
no node for itself. The rounds in which a tree expands a text come to the same.

* `ExpandsTo`: expansion by recursion, with a bound on how deep tokens are nested.
* `ExpandsTo.append`: texts may be expanded part by part.
* `ExpandsTo.expandRounds_eq`, `ExpandsTo.expand_eq`: what as many rounds as levels give.
* `ExpandsTo.finished`: nothing is left to replace in the result.
* `ExpandsTo.contains`: what tokens in a text expand to stands in the result in the same order.
-/

namespace Cascade.Tree

open Token

variable {t : Tree} {field : Node → Text} {k n : Nat} {a b text result other token : Text}
  {i : NodeId}

/-- `ExpandsTo t field depth text result`: the result is the text with each token that belongs to a
node replaced by what the text of the node expands to. Tokens are nested at most `depth` deep. -/
inductive ExpandsTo (t : Tree) (field : Node → Text) : (depth : Nat) → Text → Text → Prop where
  | nil {depth : Nat} : ExpandsTo t field depth [] []
  | plain {depth : Nat} {c : Char} {rest result : Text} (hc : c ≠ openMark)
      (hrest : ExpandsTo t field depth rest result) :
      ExpandsTo t field depth (c :: rest) (c :: result)
  | unknown {depth : Nat} {token rest result : Text} (htoken : isToken token)
      (hnone : t.owner? token = none) (hrest : ExpandsTo t field depth rest result) :
      ExpandsTo t field depth (token ++ rest) (token ++ result)
  | known {depth : Nat} {token rest text result : Text} {i : NodeId} (htoken : isToken token)
      (howner : t.owner? token = some i) (hfield : ExpandsTo t field depth (field (t.node i)) text)
      (hrest : ExpandsTo t field (depth + 1) rest result) :
      ExpandsTo t field (depth + 1) (token ++ rest) (text ++ result)

/-! ## One round -/

theorem expandOnce_cons {c : Char} {rest : Text} (hc : c ≠ openMark) :
    t.expandOnce field (c :: rest) = c :: t.expandOnce field rest :=
  replaceTokens_cons _ hc rest

/-- A token that belongs to a node becomes the text of the node, any other one stays. -/
theorem expandOnce_token (htoken : isToken token) (rest : Text) :
    t.expandOnce field (token ++ rest) =
      ((t.owner? token).map fun i => field (t.node i)).getD token ++ t.expandOnce field rest :=
  replaceTokens_token _ htoken rest

theorem expandOnce_known (htoken : isToken token) (howner : t.owner? token = some i)
    (rest : Text) :
    t.expandOnce field (token ++ rest) = field (t.node i) ++ t.expandOnce field rest := by
  rw [expandOnce_token htoken, howner]
  rfl

theorem expandOnce_unknown (htoken : isToken token) (hnone : t.owner? token = none)
    (rest : Text) : t.expandOnce field (token ++ rest) = token ++ t.expandOnce field rest := by
  rw [expandOnce_token htoken, hnone]
  rfl

namespace ExpandsTo

/-- Texts may be expanded part by part. -/
theorem append (ha : ExpandsTo t field k a result) (hb : ExpandsTo t field k b other) :
    ExpandsTo t field k (a ++ b) (result ++ other) := by
  induction ha with
  | nil => exact hb
  | plain hc _ ih => exact .plain hc (ih hb)
  | unknown htoken hnone _ ih =>
    rw [List.append_assoc, List.append_assoc]
    exact .unknown htoken hnone (ih hb)
  | known htoken howner hfield _ _ ih =>
    rw [List.append_assoc, List.append_assoc]
    exact .known htoken howner hfield (ih hb)

/-- A round takes away one level of nesting, and does not change what comes out in the end. -/
theorem expandOnce (h : ExpandsTo t field k text result) (hk : k = n + 1) :
    ExpandsTo t field n (t.expandOnce field text) result := by
  induction h with
  | nil => exact .nil
  | plain hc _ ih =>
    rw [expandOnce_cons hc]
    exact .plain hc (ih hk)
  | unknown htoken hnone _ ih =>
    rw [expandOnce_unknown htoken hnone]
    exact .unknown htoken hnone (ih hk)
  | known htoken howner hfield _ _ ih =>
    obtain rfl := Nat.succ.inj hk
    rw [expandOnce_known htoken howner]
    exact hfield.append (ih rfl)

/-- Without nesting there is nothing to replace. -/
theorem eq_of_zero (h : ExpandsTo t field 0 text result) :
    result = text ∧ t.expandOnce field text = text := by
  generalize hzero : 0 = depth at h
  induction h with
  | nil => exact ⟨rfl, rfl⟩
  | plain hc _ ih =>
    obtain ⟨rfl, hrest⟩ := ih hzero
    exact ⟨rfl, by rw [expandOnce_cons hc, hrest]⟩
  | unknown htoken hnone _ ih =>
    obtain ⟨rfl, hrest⟩ := ih hzero
    exact ⟨rfl, by rw [expandOnce_unknown htoken hnone, hrest]⟩
  | known => contradiction

/-- A text that a round does not change is what comes out in the end. -/
theorem eq_of_expandOnce_eq_self (h : ExpandsTo t field k text result)
    (heq : t.expandOnce field text = text) : result = text := by
  induction k with
  | zero => exact h.eq_of_zero.1
  | succ k ih =>
    have hnext : ExpandsTo t field k (t.expandOnce field text) result := h.expandOnce rfl
    rw [heq] at hnext
    exact ih hnext

/-! ## All rounds -/

/-- As many rounds as tokens are nested deep give what comes out in the end. -/
theorem expandRounds_eq {rounds : Nat} (h : ExpandsTo t field k text result) (hk : k ≤ rounds) :
    t.expandRounds field rounds text = result := by
  induction rounds generalizing k text with
  | zero =>
    obtain rfl := Nat.le_zero.1 hk
    exact h.eq_of_zero.1.symm
  | succ rounds ih =>
    rw [expandRounds]
    split
    · -- rounds end early when nothing changes
      next heq => exact (h.eq_of_expandOnce_eq_self heq).symm
    · next hne =>
      cases k with
      | zero => exact absurd h.eq_of_zero.2 hne
      | succ k => exact ih (h.expandOnce rfl) (Nat.le_of_succ_le_succ hk)

/-- As many rounds as there are nodes, and one more, expand a text in full. -/
theorem expand_eq (h : ExpandsTo t field k text result) (hk : k ≤ t.size + 1) :
    t.expand field text = result :=
  h.expandRounds_eq hk

/-- The tokens of a text are replaced by what the texts of their nodes are expanded to. -/
theorem replaceTokens_eq (h : ExpandsTo t field k text result) (hk : k ≤ t.size + 1) :
    replaceTokens (fun token => (t.owner? token).map fun i => t.expand field (field (t.node i)))
      text = result := by
  induction h with
  | nil => rfl
  | plain hc _ ih => rw [replaceTokens_cons _ hc, ih hk]
  | unknown htoken hnone _ ih =>
    rw [replaceTokens_token _ htoken, hnone, ih hk]
    rfl
  | known htoken howner hfield _ _ ih =>
    rw [replaceTokens_token _ htoken, howner, ih hk]
    exact congrArg (· ++ _) (hfield.expand_eq (Nat.le_of_succ_le hk))

/-- What comes out in the end does not depend on the bound. -/
theorem unique (h : ExpandsTo t field k text result) (h' : ExpandsTo t field n text other) :
    result = other := by
  rw [← h.expandRounds_eq (Nat.le_max_left k n), h'.expandRounds_eq (Nat.le_max_right k n)]

/-! ## Results -/

/-- What comes out in the end stays as it is. -/
theorem stable (h : ExpandsTo t field k text result) : ExpandsTo t field 0 result result := by
  induction h with
  | nil => exact .nil
  | plain hc _ ih => exact .plain hc ih
  | unknown htoken hnone _ ih => exact .unknown htoken hnone ih
  | known _ _ _ _ ih ih' => exact ih.append ih'

/-- What comes out in the end is clean if all texts are. -/
theorem clean (h : ExpandsTo t field k text result) (htext : text.Clean)
    (hfield : ∀ token i, t.owner? token = some i → (field (t.node i)).Clean) : result.Clean := by
  induction h with
  | nil => exact .nil
  | plain hc _ ih =>
    have hplain := htext.not_isTokenChar_of_ne_openMark hc
    exact .plain hplain (ih (htext.of_plain hplain))
  | unknown htoken _ _ ih => exact .token htoken (ih (htext.of_token htoken))
  | known htoken howner _ _ ih ih' =>
    exact (ih (hfield _ _ howner)).append (ih' (htext.of_token htoken))

/-- What expands to something without a round has no token that belongs to a node. -/
theorem finished_of_zero (h : ExpandsTo t field 0 text result) : t.Finished text := by
  generalize hzero : 0 = depth at h
  induction h with
  | nil => exact finished_of_findTokens_eq_nil rfl
  | plain hc _ ih =>
    intro a token b i htoken howner heq
    obtain ⟨a, rfl, hrest⟩ := exists_of_cons_eq_append hc htoken heq
    exact ih hzero a token b i htoken howner hrest
  | unknown htoken hnone _ ih =>
    exact finished_append (a := []) htoken hnone (finished_of_findTokens_eq_nil rfl) (ih hzero)
  | known => contradiction

/-- Nothing is left to replace in what comes out in the end. -/
theorem finished (h : ExpandsTo t field k text result) : t.Finished result :=
  h.stable.finished_of_zero

/-! ## Tokens in a text -/

theorem of_unknown (htoken : isToken token) (hnone : t.owner? token = none) :
    ExpandsTo t field k token token := by
  have h : ExpandsTo t field k (token ++ []) (token ++ []) := .unknown htoken hnone .nil
  rwa [List.append_nil] at h

/-- A token of a node stands for what the text of the node is expanded to. -/
theorem of_known (htoken : isToken token) (howner : t.owner? token = some i)
    (hfield : ExpandsTo t field k (field (t.node i)) text) :
    ExpandsTo t field (k + 1) token text := by
  have h : ExpandsTo t field (k + 1) (token ++ []) (text ++ []) :=
    .known htoken howner hfield .nil
  rwa [List.append_nil, List.append_nil] at h

/-- What a text with a token in it expands to is put together from what the parts expand to. -/
theorem split (h : ExpandsTo t field k text result) (htoken : isToken token)
    (heq : text = a ++ (token ++ b)) :
    ∃ before middle behind, result = before ++ (middle ++ behind) ∧
      ExpandsTo t field k a before ∧ ExpandsTo t field k token middle ∧
      ExpandsTo t field k b behind := by
  induction h generalizing a with
  | nil =>
    obtain ⟨-, hnil⟩ := List.append_eq_nil_iff.1 heq.symm
    exact absurd (List.append_eq_nil_iff.1 hnil).1 (ne_nil_of_isToken htoken)
  | @plain _ c _ _ hc _ ih =>
    obtain ⟨a, rfl, hrest⟩ := exists_of_cons_eq_append hc htoken heq
    obtain ⟨before, middle, behind, rfl, ha, hmiddle, hb⟩ := ih hrest
    exact ⟨c :: before, middle, behind, rfl, .plain hc ha, hmiddle, hb⟩
  | @unknown _ first _ result hfirst hnone hrest ih =>
    -- the token is the one that the text starts with, or stands behind it
    rcases eq_or_exists_gap hfirst htoken heq with ⟨rfl, rfl, rfl⟩ | ⟨gap, rfl, hgap⟩
    · exact ⟨[], first, result, rfl, .nil, .of_unknown hfirst hnone, hrest⟩
    · obtain ⟨before, middle, behind, rfl, ha, hmiddle, hb⟩ := ih hgap
      exact ⟨first ++ before, middle, behind, by simp, .unknown hfirst hnone ha, hmiddle, hb⟩
  | @known _ first _ text result _ hfirst howner hfield hrest _ ih =>
    rcases eq_or_exists_gap hfirst htoken heq with ⟨rfl, rfl, rfl⟩ | ⟨gap, rfl, hgap⟩
    · exact ⟨[], text, result, rfl, .nil, .of_known hfirst howner hfield, hrest⟩
    · obtain ⟨before, middle, behind, rfl, ha, hmiddle, hb⟩ := ih hgap
      exact ⟨text ++ before, middle, behind, by simp, .known hfirst howner hfield ha, hmiddle, hb⟩

/-- What tokens in a text expand to stands in the result in the order of the tokens. -/
theorem contains {tokens parts : List Text} (h : ExpandsTo t field k text result)
    (hcontains : text.Contains tokens)
    (hparts : List.Forall₂ (fun token part => isToken token ∧ ∃ n, ExpandsTo t field n token part)
      tokens parts) : result.Contains parts := by
  induction hcontains generalizing result parts with
  | nil =>
    cases hparts
    exact .nil result
  | cons _ ih =>
    cases hparts with
    | cons hpart hparts =>
      obtain ⟨htoken, n, hpart⟩ := hpart
      obtain ⟨before, middle, behind, rfl, -, hmiddle, hbehind⟩ := h.split htoken rfl
      obtain rfl := hmiddle.unique hpart
      exact .cons (ih hbehind hparts)

end ExpandsTo

end Cascade.Tree
