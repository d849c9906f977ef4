import Cascade.Proofs.Grammar.Outline
import Cascade.Proofs.Token.Scan

/-!
# Texts in readable form

In the readable form of a text, each token is replaced by the name of its rule and its occurrence in
braces. No brace is part of a token, so that what stands on either side of it makes up no token
together, and a token is left only where the name of a rule spells one.

* `HasToken`: a token stands somewhere in a text.
* `hasToken_append_cons`: a character that is part of no token keeps what is before it apart from
  what is behind it.
* `hasToken_display_iff`: which texts have a readable form with tokens.
* `tokens_of_display`: what the readable form of a text is.
-/

namespace Cascade.Token

variable {text token a b : Text} {c : Char} {parts : Parts}

/-- A token stands somewhere in a text. -/
def HasToken (text : Text) : Prop :=
  ∃ token, isToken token ∧ token <:+: text

theorem HasToken.of_infix (h : HasToken a) (hab : a <:+: b) : HasToken b := by
  obtain ⟨token, htoken, ha⟩ := h
  exact ⟨token, htoken, ha.trans hab⟩

/-- The tokens that stand in a text are those that are found. -/
theorem infix_iff_mem_findTokens (h : isToken token) :
    token <:+: text ↔ ∃ span ∈ findTokens text, text.slice span = token := by
  constructor
  · rintro ⟨front, back, rfl⟩
    have hat : Text.At (front ++ token ++ back)
        ⟨Text.byteLength front, Text.byteLength (front ++ token)⟩ token :=
      ⟨front, back, rfl, rfl, rfl⟩
    exact ⟨_, mem_findTokens_iff.2 ⟨token, h, hat⟩, Text.slice_eq_of_at hat⟩
  · rintro ⟨span, hspan, rfl⟩
    obtain ⟨found, -, hat⟩ := mem_findTokens_iff.1 hspan
    rw [Text.slice_eq_of_at hat]
    obtain ⟨front, back, htext, -⟩ := hat
    exact ⟨front, back, htext.symm⟩

/-- A text has a token if one is found in it. -/
theorem hasToken_iff : HasToken text ↔ findTokens text ≠ [] := by
  constructor
  · rintro ⟨token, htoken, hstands⟩
    obtain ⟨span, hspan, -⟩ := (infix_iff_mem_findTokens htoken).1 hstands
    exact List.ne_nil_of_mem hspan
  · intro hne
    obtain ⟨span, hspan⟩ := List.exists_mem_of_ne_nil _ hne
    obtain ⟨token, htoken, hat⟩ := mem_findTokens_iff.1 hspan
    exact ⟨token, htoken, (infix_iff_mem_findTokens htoken).2
      ⟨span, hspan, Text.slice_eq_of_at hat⟩⟩

/-! ## Characters that are part of no token -/

theorem isTokenChar_of_mem (h : isToken token) (hc : c ∈ token) : isTokenChar c := by
  obtain ⟨body, rfl, hbody⟩ := isFramed_of_isToken h
  rw [List.mem_cons, List.mem_append, List.mem_singleton] at hc
  rcases hc with rfl | hc | rfl
  · decide
  · rcases hbody c hc with rfl | hglyph
    · decide
    · simp [isTokenChar, hglyph]
  · decide

/-- All characters of tokens have high numbers. -/
theorem isTokenChar_of_lt (h : c.toNat < 0xE000) : isTokenChar c = false := by
  have hne {mark : Char} (hmark : 0xE000 ≤ mark.toNat) : c ≠ mark := by
    rintro rfl
    exact absurd h hmark.not_gt
  have hglyph : unglyph? c = none := by
    have hlow : ¬ glyphBase ≤ c.toNat := (h.trans (by decide)).not_ge
    rw [unglyph?, if_neg fun hrange => hlow hrange.1]
  have hopen : c ≠ openMark := hne (by decide)
  have hseparator : c ≠ separator := hne (by decide)
  have hclose : c ≠ closeMark := hne (by decide)
  simp [isTokenChar, hopen, hseparator, hclose, hglyph]

theorem not_hasToken_of_forall (h : ∀ c ∈ text, isTokenChar c = false) : ¬ HasToken text := by
  rintro ⟨token, htoken, hstands⟩
  obtain ⟨c, hc⟩ := List.exists_mem_of_ne_nil _ (ne_nil_of_isToken htoken)
  have hchar := isTokenChar_of_mem htoken hc
  rw [h c (hstands.subset hc)] at hchar
  contradiction

theorem not_hasToken_decimal (n : Nat) : ¬ HasToken (Text.decimal n) := by
  refine not_hasToken_of_forall fun c hc => isTokenChar_of_lt ?_
  have hdigit := (Text.toNat_of_isDigit (Text.isDigit_of_mem_decimal hc)).2
  omega

/-- No token stands in the name of a rule. -/
theorem not_hasToken_of_isRuleName {name : Text} (h : isRuleName name) : ¬ HasToken name := by
  refine not_hasToken_of_forall fun c hc => isTokenChar_of_lt ?_
  have hname := (Wiring.toNat_of_isNameChar (isNameChar_of_isRuleName h c hc)).2.1
  omega

/-- A token stands before a character that is part of no token, or behind it. -/
theorem hasToken_append_cons (hc : isTokenChar c = false) :
    HasToken (a ++ c :: b) ↔ HasToken a ∨ HasToken b := by
  constructor
  · rintro ⟨token, htoken, hstands⟩
    rcases List.infix_append_iff.1 hstands with ha | hb | ⟨front, back, rfl, hfront, hback⟩
    · exact .inl ⟨token, htoken, ha⟩
    · rcases List.infix_cons_iff.1 hb with hprefix | hb
      · -- the token would start with the character
        obtain ⟨body, rfl, -⟩ := isFramed_of_isToken htoken
        obtain ⟨rfl, -⟩ := List.cons_prefix_cons.1 hprefix
        exact absurd (isTokenChar_of_mem htoken List.mem_cons_self) (by simp [hc])
      · exact .inr ⟨token, htoken, hb⟩
    · cases back with
      | nil => exact .inl ⟨front, by simpa using htoken, hfront.isInfix⟩
      | cons d back =>
        obtain ⟨rfl, -⟩ := List.cons_prefix_cons.1 hback
        exact absurd (isTokenChar_of_mem htoken (List.mem_append_right _ List.mem_cons_self))
          (by simp [hc])
  · rintro (ha | hb)
    · exact ha.of_infix (List.prefix_append _ _).isInfix
    · exact hb.of_infix ⟨a ++ [c], [], by simp⟩

/-- What a token is shown as has a token only if the name of its rule has one. -/
theorem hasToken_append_display :
    HasToken (a ++ (parts.display ++ b)) ↔ HasToken a ∨ HasToken parts.rule ∨ HasToken b := by
  have hshown : a ++ (parts.display ++ b) = a ++ '\x7b' ::
      (parts.rule ++ '#' :: (Text.decimal parts.occurrence ++ '\x7d' :: b)) := by
    simp [Parts.display]
  rw [hshown, hasToken_append_cons (by decide), hasToken_append_cons (by decide),
    hasToken_append_cons (by decide)]
  simp [not_hasToken_decimal]

/-! ## The readable form -/

/-- A token that stands in a text with another one is the other one, or stands before or behind. -/
theorem infix_append_token_iff {token' : Text} (h : isToken token) (h' : isToken token') :
    token' <:+: a ++ (token ++ b) ↔ token' <:+: a ∨ token' = token ∨ token' <:+: b := by
  constructor
  · rintro ⟨front, back, heq⟩
    rw [List.append_assoc] at heq
    rcases overlap h h' heq.symm with ⟨-, rfl, -⟩ | ⟨gap, -, rfl⟩ | ⟨gap, rfl, -⟩
    · exact .inr (.inl rfl)
    · exact .inr (.inr ⟨gap, back, by simp⟩)
    · exact .inl ⟨front, gap, by simp⟩
  · rintro (ha | rfl | hb)
    · exact ha.trans (List.prefix_append _ _).isInfix
    · exact List.infix_append' a token' b
    · exact hb.trans ⟨a ++ token, [], by simp⟩

/-- A text without tokens is shown as it is. -/
theorem display_eq_self (h : ¬ HasToken text) : display text = text := by
  rw [hasToken_iff, not_not] at h
  exact replaceTokens_eq_self_of_findTokens_eq_nil _ h

/-- What stands before a token and what stands behind it are shown as if they stood alone. -/
theorem display_append (h : decode token = some parts) (a b : Text) :
    display (a ++ (token ++ b)) = display a ++ (parts.display ++ display b) := by
  have htoken : isToken token := Option.isSome_of_eq_some h
  rw [display, replaceTokens_append _ htoken, h]
  rfl

/-- The readable form of a text has a token exactly if the name of the rule of one of its tokens
does. -/
theorem hasToken_display_iff (text : Text) : HasToken (display text) ↔
    ∃ token parts, token <:+: text ∧ decode token = some parts ∧ HasToken parts.rule := by
  induction text using token_induction with
  | plain text h =>
    have hnone : ¬ HasToken text := fun hsome => hasToken_iff.1 hsome h
    rw [display_eq_self hnone]
    refine ⟨fun hsome => absurd hsome hnone, ?_⟩
    rintro ⟨token, parts, hstands, hparts, -⟩
    exact absurd ⟨token, Option.isSome_of_eq_some hparts, hstands⟩ hnone
  | token a token b htoken iha ihb =>
    -- the readable form of the token has a token only if the name in it has one
    obtain ⟨parts, hparts⟩ := Option.isSome_iff_exists.1 htoken
    rw [display_append hparts, hasToken_append_display, iha, ihb]
    constructor
    · rintro (⟨other, p, hstands, hp⟩ | hrule | ⟨other, p, hstands, hp⟩)
      · exact ⟨other, p, (infix_append_token_iff htoken (Option.isSome_of_eq_some hp.1)).2
          (.inl hstands), hp⟩
      · exact ⟨token, parts, List.infix_append' .., hparts, hrule⟩
      · exact ⟨other, p, (infix_append_token_iff htoken (Option.isSome_of_eq_some hp.1)).2
          (.inr (.inr hstands)), hp⟩
    · rintro ⟨other, p, hstands, hp, hrule⟩
      rcases (infix_append_token_iff htoken (Option.isSome_of_eq_some hp)).1 hstands with
        ha | rfl | hb
      · exact .inl ⟨other, p, ha, hp, hrule⟩
      · obtain rfl := Option.some.inj (hparts.symm.trans hp)
        exact .inr (.inl hrule)
      · exact .inr (.inr ⟨other, p, hb, hp, hrule⟩)

/-- The changes that the readable form makes are one for each token, which is decoded. -/
theorem decode_of_mem_changes {change : Text.Change}
    (h : change ∈ changes (fun token => (decode token).map Parts.display) text) :
    ∃ parts, decode change.old = some parts ∧ change.new = parts.display := by
  obtain ⟨span, hspan, rfl⟩ := List.mem_map.1 h
  obtain ⟨token, htoken, hat⟩ := mem_findTokens_iff.1 hspan
  obtain ⟨parts, hparts⟩ := Option.isSome_iff_exists.1 htoken
  simp only [Text.slice_eq_of_at hat, hparts]
  exact ⟨parts, rfl, rfl⟩

/-- The readable form of a text has each token that is found replaced by the name of its rule and
its occurrence in braces, and all else as it was. It has a token exactly if the name of the rule of
a token of the text does. Where these names are such as rules may have, no token is left, and the
readable form is its own. -/
theorem tokens_of_display (text : Text) :
    (∃ shown : List Text.Change, shown.map Text.Change.span = findTokens text ∧
      (∀ change ∈ shown, ∃ parts, decode change.old = some parts ∧
        change.new =
          '\x7b' :: parts.rule ++ '#' :: Text.decimal parts.occurrence ++ ['\x7d']) ∧
      Text.Replaced 0 shown text (display text)) ∧
    (¬ HasToken (display text) ↔
      ∀ token parts, token <:+: text → decode token = some parts → ¬ HasToken parts.rule) ∧
    ((∀ token parts, token <:+: text → decode token = some parts → isRuleName parts.rule) →
      ¬ HasToken (display text) ∧ display (display text) = display text) := by
  have hnone : ¬ HasToken (display text) ↔
      ∀ token parts, token <:+: text → decode token = some parts → ¬ HasToken parts.rule := by
    simp only [hasToken_display_iff, not_exists, not_and]
  refine ⟨⟨changes _ text, ?_, fun _ => decode_of_mem_changes, replaced_replaceTokens _ text⟩,
    hnone, fun hnames => ?_⟩
  · rw [changes, List.map_map]
    exact List.map_id _
  · have hplain : ¬ HasToken (display text) := hnone.2 fun token parts hstands hparts =>
      not_hasToken_of_isRuleName (hnames token parts hstands hparts)
    exact ⟨hplain, display_eq_self hplain⟩

/-- Marks that belong to no token are kept beside what a token is shown as. A token whose rule is
named like a token is shown with that token in it. -/
theorem tokens_of_display_stray :
    (∀ token parts, token <:+: [openMark] ++ (mint ['a'] 2 7 ++ [closeMark]) →
      decode token = some parts → isRuleName parts.rule) ∧
    display ([openMark] ++ (mint ['a'] 2 7 ++ [closeMark])) =
      [openMark, '\x7b', 'a', '#', '2', '\x7d', closeMark] ∧
    ¬ HasToken (display ([openMark] ++ (mint ['a'] 2 7 ++ [closeMark]))) ∧
    display (display ([openMark] ++ (mint ['a'] 2 7 ++ [closeMark]))) =
      display ([openMark] ++ (mint ['a'] 2 7 ++ [closeMark])) ∧
    HasToken (display (mint (mint ['a'] 2 7) 1 1)) := by
  have hdecode : decode (mint ['a'] 2 7) = some ⟨['a'], 2, 7⟩ :=
    decode_mint (by decide) (by decide) (by decide)
  have htoken : isToken (mint ['a'] 2 7) := Option.isSome_of_eq_some hdecode
  have houter : decode (mint (mint ['a'] 2 7) 1 1) = some ⟨mint ['a'] 2 7, 1, 1⟩ :=
    decode_mint (ne_nil_of_isToken htoken) (by decide) (by decide)
  -- in a mark alone, no token is found
  have hmark {mark : Char} (h : findTokens [mark] = []) : ¬ HasToken [mark] :=
    fun hsome => hasToken_iff.1 hsome h
  have hnames : ∀ token parts, token <:+: [openMark] ++ (mint ['a'] 2 7 ++ [closeMark]) →
      decode token = some parts → isRuleName parts.rule := by
    intro token parts hstands hparts
    have h : isToken token := Option.isSome_of_eq_some hparts
    rcases (infix_append_token_iff htoken h).1 hstands with hopen | rfl | hclose
    · exact absurd ⟨token, h, hopen⟩ (hmark rfl)
    · obtain rfl := Option.some.inj (hdecode.symm.trans hparts)
      decide
    · exact absurd ⟨token, h, hclose⟩ (hmark rfl)
  obtain ⟨hnone, hself⟩ := (tokens_of_display _).2.2 hnames
  refine ⟨hnames, ?_, hnone, hself, ?_⟩
  · rw [display_append hdecode]
    rfl
  · by_contra hleft
    exact (tokens_of_display _).2.1.1 hleft _ _ List.infix_rfl houter
      ⟨_, htoken, List.infix_rfl⟩

end Cascade.Token
