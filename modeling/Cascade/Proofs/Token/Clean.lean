import Cascade.Proofs.Token.Scan

/-!
# Texts without loose parts of tokens

A text is clean if all that looks like a part of a token is a part of a token. Such a text is a
sequence of characters that are part of no token and of whole tokens, so two of them can be put
together without making a token out of parts of both.

* `Text.Clean`: the property.
* `Clean.plain`, `Clean.token`, `Clean.append`: what clean texts are made of.
* `Clean.induction`: induction on what they are made of.
-/

namespace Cascade

open Token

/-- Each character of a text that can be part of a token stands inside a token of the text. -/
def Text.Clean (text : Text) : Prop :=
  ∀ front c back, text = front ++ c :: back → isTokenChar c →
    ∃ a token b, text = a ++ (token ++ b) ∧ isToken token ∧
      a.length ≤ front.length ∧ front.length < (a ++ token).length

namespace Token

variable {token : Text} {c : Char}

theorem isTokenChar_openMark : isTokenChar openMark := by decide

/-- A token that stands in a text stands behind a character that does not open it. -/
theorem exists_of_cons_eq_append {rest a b : Text} (hc : c ≠ openMark)
    (htoken : isToken token) (heq : c :: rest = a ++ (token ++ b)) :
    ∃ a', a = c :: a' ∧ rest = a' ++ (token ++ b) := by
  cases a with
  | cons d a =>
    obtain ⟨rfl, rfl⟩ := List.cons.inj heq
    exact ⟨a, rfl, rfl⟩
  | nil =>
    -- otherwise the character would be the first one of the token
    obtain ⟨body, rfl, -⟩ := isFramed_of_isToken htoken
    exact absurd (List.cons.inj heq).1 hc

end Token

namespace Text.Clean

variable {text rest τ : Text} {c : Char}

theorem nil : Clean [] := by
  intro front c back h
  simp at h

theorem plain (hc : isTokenChar c = false) (h : Clean rest) : Clean (c :: rest) := by
  intro front d back heq hd
  cases front with
  | nil =>
    obtain ⟨rfl, -⟩ := List.cons.inj heq
    rw [hc] at hd
    contradiction
  | cons e front =>
    obtain ⟨rfl, hrest⟩ := List.cons.inj heq
    obtain ⟨a, token, b, rfl, htoken, hle, hlt⟩ := h front d back hrest hd
    exact ⟨c :: a, token, b, rfl, htoken, Nat.succ_le_succ hle, Nat.succ_lt_succ hlt⟩

theorem token (hτ : isToken τ) (h : Clean rest) : Clean (τ ++ rest) := by
  intro front c back heq hc
  rcases Nat.lt_or_ge front.length τ.length with hlt | hge
  · exact ⟨[], τ, rest, rfl, hτ, Nat.zero_le _, hlt⟩
  · -- the character stands behind the token
    obtain ⟨e, rfl⟩ : ∃ e, front = τ ++ e :=
      (List.prefix_of_prefix_length_le ⟨rest, heq⟩ ⟨c :: back, rfl⟩ hge).imp fun _ => Eq.symm
    rw [List.append_assoc] at heq
    obtain ⟨a, token, b, rfl, htoken, hle, hlt⟩ := h e c back (List.append_cancel_left heq) hc
    refine ⟨τ ++ a, token, b, by simp, htoken, ?_, ?_⟩
    · simpa using hle
    · simpa [Nat.add_assoc] using hlt

theorem of_plain (hc : isTokenChar c = false) (h : Clean (c :: rest)) : Clean rest := by
  intro front d back heq hd
  obtain ⟨a, token, b, htext, htoken, hle, hlt⟩ := h (c :: front) d back (by rw [heq]; rfl) hd
  obtain ⟨a, rfl, hrest⟩ :=
    exists_of_cons_eq_append (ne_openMark_of_not_isTokenChar hc) htoken htext
  exact ⟨a, token, b, hrest, htoken, Nat.le_of_succ_le_succ hle, Nat.lt_of_succ_lt_succ hlt⟩

/-- What stands behind a token of a clean text is clean. -/
theorem of_token (hτ : isToken τ) (h : Clean (τ ++ rest)) : Clean rest := by
  intro front c back heq hc
  obtain ⟨a, token, b, htext, htoken, hle, hlt⟩ := h (τ ++ front) c back (by rw [heq]; simp) hc
  simp only [List.length_append] at hle hlt
  rcases eq_or_exists_gap hτ htoken htext with ⟨rfl, rfl, -⟩ | ⟨gap, rfl, hrest⟩
  · -- the token that the character stands inside is not the one before it
    rw [List.length_nil] at hlt
    omega
  · rw [List.length_append] at hle hlt
    exact ⟨gap, token, b, hrest, htoken, by omega, by rw [List.length_append]; omega⟩

/-- A clean text that does not start with a plain character starts with a token. -/
theorem exists_token (hc : isTokenChar c) (h : Clean (c :: rest)) :
    ∃ τ rest', c :: rest = τ ++ rest' ∧ isToken τ := by
  obtain ⟨a, token, b, htext, htoken, hle, -⟩ := h [] c rest rfl hc
  obtain rfl := List.length_eq_zero_iff.1 (Nat.le_zero.1 hle)
  exact ⟨token, b, htext, htoken⟩

/-- A clean text that does not start with an opening mark starts with a plain character. -/
theorem not_isTokenChar_of_ne_openMark (hc : c ≠ openMark) (h : Clean (c :: rest)) :
    isTokenChar c = false := by
  cases hchar : isTokenChar c with
  | false => rfl
  | true =>
    obtain ⟨τ, rest', heq, hτ⟩ := h.exists_token hchar
    obtain ⟨body, rfl, -⟩ := isFramed_of_isToken hτ
    exact absurd (List.cons.inj heq).1 hc

end Text.Clean

/-- Induction on the characters and tokens of a clean text. -/
theorem Text.Clean.induction {P : (text : Text) → text.Clean → Prop} (nil : P [] .nil)
    (plain : ∀ c rest (hc : isTokenChar c = false) (h : Clean rest), P rest h →
      P (c :: rest) (h.plain hc))
    (token : ∀ τ rest (hτ : isToken τ) (h : Clean rest), P rest h → P (τ ++ rest) (h.token hτ))
    {text : Text} (h : text.Clean) : P text h := by
  induction hn : text.length using Nat.strongRecOn generalizing text with
  | _ n ih =>
    subst hn
    cases text with
    | nil => exact nil
    | cons c rest =>
      cases hc : isTokenChar c with
      | false =>
        have hrest : Clean rest := h.of_plain hc
        exact plain c rest hc hrest (ih _ (Nat.lt_succ_self _) hrest rfl)
      | true =>
        obtain ⟨τ, rest', heq, hτ⟩ := h.exists_token hc
        revert h ih
        rw [heq]
        intro h ih
        have hpos := List.length_pos_iff.2 (ne_nil_of_isToken hτ)
        have hrest : Clean rest' := h.of_token hτ
        exact token τ rest' hτ hrest (ih _ (by rw [List.length_append]; omega) hrest rfl)

/-- A minted token that stands in a clean text is one that is read, although the numbers of a minted
token may be too large for that. -/
theorem Text.Clean.isToken_of_infix {rule text : Text} {occurrence sequence : Nat} (h : text.Clean)
    (hstands : mint rule occurrence sequence <:+: text) :
    isToken (mint rule occurrence sequence) := by
  obtain ⟨front, back, rfl⟩ := hstands
  have hframed : IsFramed (mint rule occurrence sequence) := isFramed_spelled ..
  have hpos : 0 < (mint rule occurrence sequence).length := by simp [mint_eq]
  -- the opening mark stands inside a token of the text, and so this token is the minted one
  obtain ⟨a, token, b, heq, htoken, hle, hlt⟩ :=
    h front openMark _ (by rw [mint_eq, List.append_assoc, List.cons_append]) isTokenChar_openMark
  rw [List.append_assoc] at heq
  rcases hframed.overlap (isFramed_of_isToken htoken) heq with
    ⟨-, hsame, -⟩ | ⟨gap, rfl, -⟩ | ⟨gap, rfl, -⟩
  · rwa [hsame]
  · simp only [List.length_append] at hle
    omega
  · simp only [List.length_append] at hlt
    omega

/-- Clean texts can be put together. -/
theorem Text.Clean.append {a b : Text} (ha : a.Clean) (hb : b.Clean) : (a ++ b).Clean := by
  induction ha using Text.Clean.induction with
  | nil => exact hb
  | plain c rest hc _ ih => exact ih.plain hc
  | token τ rest hτ _ ih =>
    rw [List.append_assoc]
    exact ih.token hτ

end Cascade
