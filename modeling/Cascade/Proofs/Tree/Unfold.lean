import Cascade.Proofs.Token.Scan
import Cascade.Tree.Expand

/-!
# Expanding tokens one by one

Expanding a text replaces all its tokens at once, again and again. The same is done token by token,
in any order: as tokens do not overlap, replacing one leaves the others alone. So all ways to the
end are equally long, and rounds that replace several tokens at once only get there sooner.

* `Unfolds`, `UnfoldsIn`: replacing one token, and a number of them one after the other.
* `Unfolds.diamond`: two tokens may be replaced in any order.
* `UnfoldsIn.rest`: all ways to the end are equally long.
* `expand_eq_of_unfoldsIn`: rounds get to the end.
-/

namespace Cascade.Tree

open Token

variable {t : Tree} {field : Node → Text} {s s' s₁ s₂ z : Text} {m n k : Nat}

/-- One token of a text is replaced by a text of the node it belongs to. -/
inductive Unfolds (t : Tree) (field : Node → Text) : Text → Text → Prop where
  | intro {a token b i} (htoken : isToken token) (howner : t.owner? token = some i) :
      Unfolds t field (a ++ (token ++ b)) (a ++ (field (t.node i) ++ b))

/-- A number of tokens are replaced one after the other. -/
inductive UnfoldsIn (t : Tree) (field : Node → Text) : Nat → Text → Text → Prop where
  | refl {text : Text} : UnfoldsIn t field 0 text text
  | head {steps : Nat} {text next last : Text} (h : Unfolds t field text next)
      (hrest : UnfoldsIn t field steps next last) : UnfoldsIn t field (steps + 1) text last

/-- There is nothing to replace in a text. -/
def Finished (t : Tree) (s : Text) : Prop :=
  ∀ a token b i, isToken token → t.owner? token = some i → s ≠ a ++ (token ++ b)

/-- No token of a finished text unfolds. -/
theorem Finished.not_unfolds (h : t.Finished s) : ¬ Unfolds t field s s' := by
  intro hs
  cases hs with
  | intro htoken howner => exact h _ _ _ _ htoken howner rfl

/-- A token that stands alone. -/
theorem Unfolds.token {token : Text} {i : NodeId} (htoken : isToken token)
    (howner : t.owner? token = some i) : Unfolds t field token (field (t.node i)) := by
  have hstep : Unfolds t field ([] ++ (token ++ [])) ([] ++ (field (t.node i) ++ [])) :=
    .intro htoken howner
  simpa using hstep

/-- What stands around does not matter. -/
theorem Unfolds.context (h : Unfolds t field s s') (x y : Text) :
    Unfolds t field (x ++ (s ++ y)) (x ++ (s' ++ y)) := by
  cases h with
  | @intro a token b i htoken howner =>
    have hstep : Unfolds t field ((x ++ a) ++ (token ++ (b ++ y)))
        ((x ++ a) ++ (field (t.node i) ++ (b ++ y))) := .intro htoken howner
    simpa only [List.append_assoc] using hstep

namespace UnfoldsIn

theorem eq_of_finished (h : UnfoldsIn t field n s s') (hs : t.Finished s) : n = 0 ∧ s = s' := by
  cases h with
  | refl => exact ⟨rfl, rfl⟩
  | head hstep _ => exact absurd hstep hs.not_unfolds

/-- Tokens unfold in any text around them. -/
theorem context (h : UnfoldsIn t field n s s') (x y : Text) :
    UnfoldsIn t field n (x ++ (s ++ y)) (x ++ (s' ++ y)) := by
  induction h with
  | refl => exact .refl
  | head hstep _ ih => exact .head (hstep.context x y) ih

theorem trans (h : UnfoldsIn t field m s s₁) (h' : UnfoldsIn t field n s₁ s₂) :
    UnfoldsIn t field (m + n) s s₂ := by
  induction h with
  | refl => rwa [Nat.zero_add]
  | head hstep _ ih =>
    rw [Nat.succ_add]
    exact .head hstep (ih h')

end UnfoldsIn

variable (field) in
/-- Of two tokens, one behind the other, either may be replaced first. -/
theorem Unfolds.commute {token token' : Text} {i i' : NodeId} (htoken : isToken token)
    (howner : t.owner? token = some i) (htoken' : isToken token')
    (howner' : t.owner? token' = some i') (a gap b : Text) :
    ∃ s₃, Unfolds t field (a ++ (field (t.node i) ++ (gap ++ (token' ++ b)))) s₃ ∧
      Unfolds t field (a ++ (token ++ (gap ++ (field (t.node i') ++ b)))) s₃ := by
  refine ⟨a ++ (field (t.node i) ++ (gap ++ (field (t.node i') ++ b))), ?_, ?_⟩
  · have hlater : Unfolds t field ((a ++ (field (t.node i) ++ gap)) ++ (token' ++ b))
        ((a ++ (field (t.node i) ++ gap)) ++ (field (t.node i') ++ b)) :=
      .intro htoken' howner'
    simpa only [List.append_assoc] using hlater
  · have hearlier : Unfolds t field (a ++ (token ++ (gap ++ (field (t.node i') ++ b))))
        (a ++ (field (t.node i) ++ (gap ++ (field (t.node i') ++ b)))) :=
      .intro htoken howner
    simpa only [List.append_assoc] using hearlier

/-- Two tokens of a text may be replaced in any order. -/
theorem Unfolds.diamond (h₁ : Unfolds t field s s₁) (h₂ : Unfolds t field s s₂) :
    s₁ = s₂ ∨ ∃ s₃, Unfolds t field s₁ s₃ ∧ Unfolds t field s₂ s₃ := by
  cases h₁ with
  | @intro a token b i htoken howner =>
    generalize hs : a ++ (token ++ b) = s at h₂
    cases h₂ with
    | @intro a' token' b' i' htoken' howner' =>
      rcases overlap htoken htoken' hs with ⟨rfl, rfl, rfl⟩ | ⟨gap, rfl, rfl⟩ | ⟨gap, rfl, rfl⟩
      · -- the token is the same, and it belongs to one node only
        obtain rfl := Option.some.inj (howner.symm.trans howner')
        exact .inl rfl
      · have hcommute := commute field htoken howner htoken' howner' a gap b'
        right
        simpa only [List.append_assoc] using hcommute
      · obtain ⟨s₃, h₂, h₁⟩ := commute field htoken' howner' htoken howner a' gap b
        right
        refine ⟨s₃, ?_, h₂⟩
        simpa only [List.append_assoc] using h₁

namespace UnfoldsIn

/-- If the end can be reached, it can be reached after any step, which is then one of as many. -/
theorem rest_of_unfolds (h : UnfoldsIn t field n s z) (hz : t.Finished z)
    (hstep : Unfolds t field s s') : ∃ m, n = m + 1 ∧ UnfoldsIn t field m s' z := by
  induction h generalizing s' with
  | refl => exact absurd hstep hz.not_unfolds
  | @head n s s₁ z hfirst hrest ih =>
    -- the step that is taken first is made up for later
    rcases hfirst.diamond hstep with rfl | ⟨s₃, h₁, h'⟩
    · exact ⟨n, rfl, hrest⟩
    · obtain ⟨m, rfl, hm⟩ := ih hz h₁
      exact ⟨m + 1, rfl, .head h' hm⟩

/-- If the end can be reached, it can be reached from any text on the way, in as many steps as are
left. -/
theorem rest (h : UnfoldsIn t field n s z) (hz : t.Finished z) (hsteps : UnfoldsIn t field k s s') :
    ∃ m, n = k + m ∧ UnfoldsIn t field m s' z := by
  induction hsteps generalizing n with
  | refl => exact ⟨n, (Nat.zero_add n).symm, h⟩
  | @head k s s₁ s' hstep _ ih =>
    obtain ⟨m, rfl, hm⟩ := h.rest_of_unfolds hz hstep
    obtain ⟨l, rfl, hl⟩ := ih hm
    exact ⟨l, by omega, hl⟩

end UnfoldsIn

theorem finished_of_findTokens_eq_nil (h : findTokens s = []) : t.Finished s :=
  fun a token b _ htoken _ => findTokens_eq_nil_iff.1 h a token b htoken

/-- A text is finished if it is so before a token and behind it, and the token is not to be
replaced. -/
theorem finished_append {a token b : Text} (htoken : isToken token) (hnone : t.owner? token = none)
    (ha : t.Finished a) (hb : t.Finished b) : t.Finished (a ++ (token ++ b)) := by
  intro a' token' b' i htoken' howner heq
  rcases overlap htoken htoken' heq with ⟨-, rfl, -⟩ | ⟨gap, -, rfl⟩ | ⟨gap, rfl, -⟩
  · rw [hnone] at howner
    contradiction
  · exact hb gap token' b' i htoken' howner rfl
  · exact ha a' token' gap i htoken' howner rfl

/-- A round replaces a number of tokens, unless there are none to replace. -/
theorem unfoldsIn_expandOnce (t : Tree) (field : Node → Text) (s : Text) :
    ∃ k, UnfoldsIn t field k s (t.expandOnce field s) ∧ (k = 0 → t.Finished s) := by
  -- a token in the middle of the text splits the round into that of the text before it, the one
  -- step for the token, and the round of the text behind it
  induction s using token_induction with
  | plain s h =>
    rw [expandOnce, replaceTokens_eq_self_of_findTokens_eq_nil _ h]
    exact ⟨0, .refl, fun _ => finished_of_findTokens_eq_nil h⟩
  | token a token b htoken iha ihb =>
    obtain ⟨m, hm, hma⟩ := iha
    obtain ⟨n, hn, hnb⟩ := ihb
    have ha : UnfoldsIn t field m (a ++ (token ++ b)) (t.expandOnce field a ++ (token ++ b)) :=
      hm.context [] (token ++ b)
    rw [expandOnce, replaceTokens_append _ htoken]
    cases howner : t.owner? token with
    | none =>
      -- a token that belongs to no node stays
      have hb : UnfoldsIn t field n (t.expandOnce field a ++ (token ++ b))
          (t.expandOnce field a ++ (token ++ t.expandOnce field b)) := by
        simpa using hn.context (t.expandOnce field a ++ token) []
      refine ⟨m + n, ha.trans hb, fun hzero => ?_⟩
      obtain ⟨hm₀, hn₀⟩ := Nat.add_eq_zero_iff.1 hzero
      exact finished_append htoken howner (hma hm₀) (hnb hn₀)
    | some i =>
      have hi : UnfoldsIn t field 1 (t.expandOnce field a ++ (token ++ b))
          (t.expandOnce field a ++ (field (t.node i) ++ b)) :=
        .head (.intro htoken howner) .refl
      have hb : UnfoldsIn t field n (t.expandOnce field a ++ (field (t.node i) ++ b))
          (t.expandOnce field a ++ (field (t.node i) ++ t.expandOnce field b)) := by
        simpa using hn.context (t.expandOnce field a ++ field (t.node i)) []
      refine ⟨m + (1 + n), ha.trans (hi.trans hb), fun hzero => ?_⟩
      omega

/-- If the end can be reached token by token, it is reached in no more rounds. -/
theorem expandRounds_eq_of_unfoldsIn {rounds : Nat} (h : UnfoldsIn t field n s z)
    (hz : t.Finished z) (hn : n ≤ rounds) : t.expandRounds field rounds s = z := by
  induction rounds generalizing n s with
  | zero =>
    obtain rfl := Nat.le_zero.1 hn
    cases h
    rfl
  | succ rounds ih =>
    obtain ⟨k, hk, hfinished⟩ := unfoldsIn_expandOnce t field s
    obtain ⟨m, rfl, hm⟩ := h.rest hz hk
    rw [expandRounds]
    split
    · next heq =>
      -- a round that changes nothing has replaced no token, since all ways are equally long
      rw [heq] at hm
      obtain ⟨l, hl, hend⟩ := h.rest hz hm
      have hk₀ : k = 0 := by
        have hl₀ := (hend.eq_of_finished hz).1
        omega
      exact (h.eq_of_finished (hfinished hk₀)).2
    · next hne =>
      -- a round that changes something has replaced a token, so fewer are left than rounds
      have hpos : k ≠ 0 := by
        rintro rfl
        exact hne ((hk.eq_of_finished (hfinished rfl)).2.symm)
      exact ih hm (by omega)

/-- If the end can be reached by replacing no more tokens than the tree has rounds, expanding a text
gives the end. -/
theorem expand_eq_of_unfoldsIn (h : UnfoldsIn t field n s z) (hz : t.Finished z)
    (hn : n ≤ t.size + 1) : t.expand field s = z :=
  expandRounds_eq_of_unfoldsIn h hz hn

end Cascade.Tree
