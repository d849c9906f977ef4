import Cascade.Proofs.Text.Span
import Cascade.Proofs.Token.Codec
import Cascade.Token.Scan

/-!
# Finding and replacing tokens

A token starts with the only opening mark in it and ends with the only closing mark. So tokens do
not overlap, all tokens of a text are found wherever they stand, and replacing the tokens of a text
replaces those before a token, the token itself and those behind it.

* `IsFramed`: a text with marks at its ends and nowhere else, as each token is.
* `overlap`: two tokens in a text are the same, or one stands behind the other.
* `spans_of_findTokens`: which spans are found.
* `findTokens_eq_nil_iff`: a text in which no tokens are found contains none.
* `replaceTokens_append`: replacing the tokens of a text part by part.
* `token_induction`: induction on the tokens of a text.
-/

namespace Cascade

namespace Token

variable {text token a b : Text} {c : Char}

/-- Characters that may stand between the marks of a token. -/
def IsInner (c : Char) : Prop :=
  c = separator ∨ (unglyph? c).isSome

theorem not_isInner_openMark : ¬ IsInner openMark := by
  simp [IsInner, unglyph?_openMark]
  decide

theorem not_isInner_closeMark : ¬ IsInner closeMark := by
  simp [IsInner, unglyph?_closeMark]
  decide

/-- Glyphs may stand inside a token. -/
theorem isInner_of_mem_glyphs {form : List UInt8} (h : c ∈ form.map glyph) : IsInner c :=
  .inr (unglyph?_of_mem_glyphs h)

/-- All characters of the body of a token may stand inside one. -/
theorem isInner_of_mem_tokenBody {form : List UInt8} {occurrence sequence : Text}
    (h : c ∈ tokenBody (form.map glyph) occurrence sequence) : IsInner c := by
  simp only [tokenBody, List.mem_append, List.mem_cons] at h
  rcases h with h | rfl | h | rfl | h
  · exact isInner_of_mem_glyphs h
  · exact .inl rfl
  · exact isInner_of_mem_glyphs h
  · exact .inl rfl
  · exact isInner_of_mem_glyphs h

/-- A text consists of an opening mark, other characters than marks and a closing mark. -/
def IsFramed (text : Text) : Prop :=
  ∃ body, text = openMark :: (body ++ [closeMark]) ∧ ∀ c ∈ body, IsInner c

/-- The body of a token between its marks is framed. -/
theorem isFramed_tokenBody (form : List UInt8) (occurrence sequence : Text) :
    IsFramed (openMark :: (tokenBody (form.map glyph) occurrence sequence ++ [closeMark])) :=
  ⟨_, rfl, fun _ => isInner_of_mem_tokenBody⟩

/-- What spells a token is framed. -/
theorem isFramed_spelled (rule occurrence sequence : Text) :
    IsFramed (spelled rule occurrence sequence) := by
  rw [spelled_eq]
  exact isFramed_tokenBody rule.bytes occurrence sequence

/-- A token consists of an opening mark, other characters than marks and a closing mark. -/
theorem isFramed_of_isToken (h : isToken token) : IsFramed token := by
  obtain ⟨parts, hparts⟩ := Option.isSome_iff_exists.1 h
  obtain ⟨-, occurrence, sequence, -, -, rfl⟩ := decode_eq_some_iff.1 hparts
  exact isFramed_spelled ..

/-- An opening mark does not stand inside a token. -/
theorem openMark_not_mem_of_isInner {body : Text} (h : ∀ c ∈ body, IsInner c) : openMark ∉ body :=
  fun hmem => not_isInner_openMark (h _ hmem)

/-- A token that has been minted is a token, if its numbers are words. -/
theorem isToken_mint {rule : Text} {occurrence sequence : Nat} (hrule : rule ≠ [])
    (hoccurrence : occurrence < Text.wordBound) (hsequence : sequence < Text.wordBound) :
    isToken (mint rule occurrence sequence) := by
  rw [isToken, decode_mint hrule hoccurrence hsequence]
  rfl

/-- No token is empty. -/
theorem ne_nil_of_isToken (h : isToken token) : token ≠ [] := by
  rintro rfl
  contradiction

/-- A token has bytes. -/
theorem byteLength_pos (h : isToken token) : 0 < token.byteLength :=
  Nat.pos_of_ne_zero fun hzero => ne_nil_of_isToken h (Text.byteLength_eq_zero hzero)

/-! ## Tokens do not overlap -/

/-- What stands before the first closing mark is determined by the text. -/
theorem body_eq_of_append_eq_append {body body' a' : Text} (h : ∀ c ∈ body, IsInner c)
    (h' : ∀ c ∈ body', IsInner c) (heq : body ++ closeMark :: a = body' ++ closeMark :: a') :
    body = body' ∧ a = a' := by
  -- if one were longer, the closing mark behind the other would stand inside it
  rcases List.append_eq_append_iff.1 heq with ⟨x, rfl, hx⟩ | ⟨x, rfl, hx⟩
  · cases x with
    | nil => simp_all
    | cons d x =>
      obtain ⟨rfl, -⟩ : closeMark = d ∧ _ := by simpa using hx
      exact absurd (h' closeMark (by simp)) not_isInner_closeMark
  · cases x with
    | nil => simp_all
    | cons d x =>
      obtain ⟨rfl, -⟩ : closeMark = d ∧ _ := by simpa using hx
      exact absurd (h closeMark (by simp)) not_isInner_closeMark

namespace IsFramed

variable {token' a' b' e : Text}

/-- No framed text is a proper beginning of another. -/
theorem eq_of_append_eq_append (h : IsFramed token) (h' : IsFramed token')
    (heq : token ++ a = token' ++ a') : token = token' ∧ a = a' := by
  obtain ⟨body, rfl, hbody⟩ := h
  obtain ⟨body', rfl, hbody'⟩ := h'
  simp only [List.cons_append, List.append_assoc, List.cons.injEq, true_and, List.nil_append] at heq
  obtain ⟨rfl, rfl⟩ := body_eq_of_append_eq_append hbody hbody' heq
  exact ⟨rfl, rfl⟩

/-- A framed text is over before an opening mark behind its first character. -/
theorem exists_gap_of_openMark (h : IsFramed token) (he : e ≠ [])
    (heq : token ++ a = e ++ openMark :: b) :
    ∃ gap, e = token ++ gap ∧ a = gap ++ openMark :: b := by
  rcases List.append_eq_append_iff.1 heq with ⟨gap, hgap, ha⟩ | ⟨x, hx, hx'⟩
  · exact ⟨gap, hgap, ha⟩
  · cases x with
    | nil => exact ⟨[], by simpa using hx.symm, by simpa using hx'.symm⟩
    | cons d x =>
      -- the opening mark would stand inside
      obtain ⟨body, rfl, hbody⟩ := h
      obtain ⟨rfl, -⟩ : openMark = d ∧ _ := by simpa using hx'
      cases e with
      | nil => contradiction
      | cons d e =>
        obtain ⟨-, hinner⟩ : openMark = d ∧ body ++ [closeMark] = e ++ openMark :: x := by
          simpa using hx
        have hmem : openMark ∈ body ++ [closeMark] := by
          rw [hinner]
          simp
        rcases List.mem_append.1 hmem with hmem | hmem
        · exact absurd hmem (openMark_not_mem_of_isInner hbody)
        · exact absurd (List.mem_singleton.1 hmem) (by decide)

/-- A text that starts with a framed text has no other one but behind this one. -/
theorem eq_or_exists_gap (h : IsFramed token) (h' : IsFramed token')
    (heq : token ++ b = e ++ (token' ++ b')) :
    (e = [] ∧ token = token' ∧ b = b') ∨
      ∃ gap, e = token ++ gap ∧ b = gap ++ (token' ++ b') := by
  by_cases he : e = []
  · subst he
    exact .inl ⟨rfl, h.eq_of_append_eq_append h' heq⟩
  · obtain ⟨body', rfl, -⟩ := h'
    exact .inr (h.exists_gap_of_openMark he heq)

/-- Two framed texts in a text are the same, or one stands behind the other. -/
theorem overlap (h : IsFramed token) (h' : IsFramed token')
    (heq : a ++ (token ++ b) = a' ++ (token' ++ b')) :
    (a = a' ∧ token = token' ∧ b = b') ∨
      (∃ gap, a' = a ++ (token ++ gap) ∧ b = gap ++ (token' ++ b')) ∨
      ∃ gap, a = a' ++ (token' ++ gap) ∧ b' = gap ++ (token ++ b) := by
  -- the two parts before them are not told apart but by which of them is longer
  rcases List.append_eq_append_iff.1 heq with ⟨e, ha, he⟩ | ⟨e, ha, he⟩
  · rcases h.eq_or_exists_gap h' he with ⟨rfl, htoken, hb⟩ | ⟨gap, rfl, hb⟩
    · exact .inl ⟨by simpa using ha.symm, htoken, hb⟩
    · exact .inr (.inl ⟨gap, ha, hb⟩)
  · rcases h'.eq_or_exists_gap h he with ⟨rfl, htoken, hb⟩ | ⟨gap, rfl, hb⟩
    · exact .inl ⟨by simpa using ha, htoken.symm, hb.symm⟩
    · exact .inr (.inr ⟨gap, ha, hb⟩)

theorem ne_nil (h : IsFramed token) : token ≠ [] := by
  obtain ⟨body, rfl, -⟩ := h
  simp

/-- A framed text that stands in another one is the whole of it. -/
theorem eq_of_at (h : IsFramed token) (h' : IsFramed token') {span : Span}
    (hat : token'.At span token) : token = token' ∧ span = ⟨0, token'.byteLength⟩ := by
  obtain ⟨front, back, hwhole, hstart, hstop⟩ := hat
  have hnil {x y : Text} : [] ≠ x ++ (token ++ y) := fun heq =>
    h.ne_nil (List.append_eq_nil_iff.1 (List.append_eq_nil_iff.1 heq.symm).2).1
  have heq : front ++ (token ++ back) = [] ++ (token' ++ []) := by simp [hwhole]
  rcases h.overlap h' heq with ⟨rfl, rfl, -⟩ | ⟨gap, hgap, -⟩ | ⟨gap, -, hgap⟩
  · obtain ⟨start, stop⟩ := span
    obtain rfl : 0 = start := hstart
    obtain rfl : token.byteLength = stop := hstop
    exact ⟨rfl, rfl⟩
  · exact absurd hgap hnil
  · exact absurd hgap hnil

end IsFramed

/-- A text that starts with a token has no other token but behind this one. -/
theorem eq_or_exists_gap {token' e b' : Text} (h : isToken token) (h' : isToken token')
    (heq : token ++ b = e ++ (token' ++ b')) :
    (e = [] ∧ token = token' ∧ b = b') ∨
      ∃ gap, e = token ++ gap ∧ b = gap ++ (token' ++ b') :=
  (isFramed_of_isToken h).eq_or_exists_gap (isFramed_of_isToken h') heq

/-- Two tokens in a text are the same, or one stands behind the other. -/
theorem overlap {token' a' b' : Text} (h : isToken token) (h' : isToken token')
    (heq : a ++ (token ++ b) = a' ++ (token' ++ b')) :
    (a = a' ∧ token = token' ∧ b = b') ∨
      (∃ gap, a' = a ++ (token ++ gap) ∧ b = gap ++ (token' ++ b')) ∨
      ∃ gap, a = a' ++ (token' ++ gap) ∧ b' = gap ++ (token ++ b) :=
  (isFramed_of_isToken h).overlap (isFramed_of_isToken h') heq

/-! ## What is found -/

/-- An opening mark is the start of a token whatever stands before it. -/
theorem findFrom_openMark (offset : Nat) (opened : Option (Nat × Text)) (rest : Text) :
    findFrom offset opened (openMark :: rest) =
      findFrom (offset + openMark.utf8Size) (some (offset, [openMark])) rest := by
  simp [findFrom]

/-- Characters between the marks of a token are passed over. -/
theorem findFrom_inner {body : Text} (h : ∀ c ∈ body, IsInner c) (offset start : Nat)
    (passed rest : Text) :
    findFrom offset (some (start, passed)) (body ++ rest) =
      findFrom (offset + Text.byteLength body) (some (start, body.reverse ++ passed)) rest := by
  induction body generalizing offset passed with
  | nil => rfl
  | cons c body ih =>
    have hc : IsInner c := h c List.mem_cons_self
    have hopen : c ≠ openMark := fun heq => not_isInner_openMark (heq ▸ hc)
    have hclose : c ≠ closeMark := fun heq => not_isInner_closeMark (heq ▸ hc)
    rw [List.cons_append, findFrom, if_neg hopen, if_neg hclose,
      if_pos (show c = separator ∨ (unglyph? c).isSome from hc), Option.map_some,
      ih fun d hd => h d (List.mem_cons_of_mem _ hd)]
    simp [Text.byteLength, Nat.add_assoc]

/-- A token is found where it stands, and nothing of it is left for what follows. -/
theorem findFrom_token (h : isToken token) (offset : Nat) (opened : Option (Nat × Text))
    (rest : Text) :
    findFrom offset opened (token ++ rest) =
      ⟨offset, offset + token.byteLength⟩ :: findFrom (offset + token.byteLength) none rest := by
  obtain ⟨body, rfl, hbody⟩ := isFramed_of_isToken h
  have hclose : closeMark ≠ openMark := by decide
  -- what is remembered when the closing mark is read, the last character first
  have hwhole : (closeMark :: (body.reverse ++ [openMark])).reverse =
      openMark :: (body ++ [closeMark]) := by simp
  have hlength : offset + Text.byteLength (openMark :: (body ++ [closeMark])) =
      offset + openMark.utf8Size + Text.byteLength body + closeMark.utf8Size := by
    simp only [Text.byteLength, Text.byteLength_append]
    omega
  rw [hlength, List.cons_append, findFrom_openMark, List.append_assoc, findFrom_inner hbody,
    List.singleton_append, findFrom, if_neg hclose, if_pos rfl]
  simp only [hwhole, h, if_true]

/-- What is found in the second of two parts does not depend on the first one if it does not depend
on an opening mark before it. -/
theorem findFrom_append {tail : Text}
    (htail : ∀ offset opened, findFrom offset opened tail = findFrom offset none tail)
    (offset : Nat) (opened : Option (Nat × Text)) (a : Text) :
    findFrom offset opened (a ++ tail) =
      findFrom offset opened a ++ findFrom (offset + a.byteLength) none tail := by
  induction a generalizing offset opened with
  | nil => exact htail offset opened
  | cons c a ih =>
    have hoffset : offset + Text.byteLength (c :: a) =
        offset + c.utf8Size + Text.byteLength a := by
      rw [Text.byteLength, Nat.add_assoc]
    rw [hoffset, List.cons_append]
    simp only [findFrom, ih]
    split
    · rfl
    · split
      · split
        · split <;> rfl
        · rfl
      · split <;> rfl

/-- The tokens before a token and behind it are found as if they stood alone. -/
theorem findFrom_append_token (h : isToken token) (offset : Nat) (a b : Text) :
    findFrom offset none (a ++ (token ++ b)) =
      findFrom offset none a ++
        ⟨offset + a.byteLength, offset + a.byteLength + token.byteLength⟩ ::
          findFrom (offset + a.byteLength + token.byteLength) none b := by
  -- the opening mark of the token makes any before it worthless
  have htail (offset : Nat) (opened : Option (Nat × Text)) :
      findFrom offset opened (token ++ b) = findFrom offset none (token ++ b) := by
    rw [findFrom_token h, findFrom_token h]
  rw [findFrom_append htail, findFrom_token h]

/-- A text that stands further behind has its tokens further behind. -/
theorem findFrom_add (n offset : Nat) (opened : Option (Nat × Text)) (text : Text) :
    findFrom (n + offset) (opened.map fun (start, passed) => (n + start, passed)) text =
      (findFrom offset opened text).map (Span.shift n) := by
  induction text generalizing offset opened with
  | nil => rfl
  | cons c rest ih =>
    have hsome (start : Nat) (passed : Text) := ih (offset + c.utf8Size) (some (start, passed))
    have hnone := ih (offset + c.utf8Size) none
    rw [← Nat.add_assoc] at hnone
    simp only [Option.map_some, Option.map_none, ← Nat.add_assoc] at hsome hnone
    -- a mark that has been met is moved as well, so each case goes on as it would have
    cases opened with
    | none =>
      simp only [findFrom, Option.map_none]
      split
      · exact hsome offset [c]
      · split
        · exact hnone
        · split <;> exact hnone
    | some opened =>
      obtain ⟨start, passed⟩ := opened
      simp only [findFrom, Option.map_some]
      split
      · exact hsome offset [c]
      · split
        · split
          · rw [List.map_cons, ← hnone, Span.shift, Nat.add_assoc]
          · exact hnone
        · split
          · exact hsome start (c :: passed)
          · exact hnone

/-- What has been read before the rest of a text ends in what is remembered of it. -/
def Remembers (front : Text) (opened : Option (Nat × Text)) : Prop :=
  ∀ start passed, opened = some (start, passed) →
    ∃ before, front = before ++ passed.reverse ∧ before.byteLength = start

/-- Where the next token may start at the earliest. -/
def earliest (front : Text) (opened : Option (Nat × Text)) : Nat :=
  (opened.map Prod.fst).getD front.byteLength

theorem remembers_none (front : Text) : Remembers front none := by
  intro start passed h
  contradiction

/-- At an opening mark, the search begins to remember a token from there on. -/
theorem remembers_openMark (front : Text) (c : Char) :
    Remembers (front ++ [c]) (some (front.byteLength, [c])) := by
  intro start passed h
  obtain ⟨rfl, rfl⟩ : front.byteLength = start ∧ [c] = passed := by simpa using h
  exact ⟨front, rfl, rfl⟩

/-- A character that may stand inside a token is remembered with it. -/
theorem remembers_inner {front : Text} {opened : Option (Nat × Text)}
    (h : Remembers front opened) (c : Char) :
    Remembers (front ++ [c]) (opened.map fun (start, passed) => (start, c :: passed)) := by
  intro start passed heq
  obtain ⟨⟨start', passed'⟩, hopened, heq⟩ := Option.map_eq_some_iff.1 heq
  obtain ⟨rfl, rfl⟩ : start' = start ∧ c :: passed' = passed := by simpa using heq
  obtain ⟨before, rfl, hstart⟩ := h start' passed' hopened
  exact ⟨before, by simp, hstart⟩

/-- What is remembered begins in the text that has been passed. -/
theorem earliest_le {front : Text} {opened : Option (Nat × Text)} (h : Remembers front opened) :
    earliest front opened ≤ front.byteLength := by
  cases opened with
  | none => exact Nat.le_refl _
  | some opened =>
    obtain ⟨start, passed⟩ := opened
    obtain ⟨before, rfl, rfl⟩ := h start passed rfl
    rw [Text.byteLength_append]
    exact Nat.le_add_right _ _

/-- What is found are tokens that stand in the text, one behind the other. -/
theorem findFrom_sound {front : Text} {opened : Option (Nat × Text)} (h : Remembers front opened)
    (text : Text) :
    (∀ s ∈ findFrom front.byteLength opened text, earliest front opened ≤ s.start ∧
      ∃ token, isToken token ∧ (front ++ text).At s token) ∧
      Text.InOrder (findFrom front.byteLength opened text) := by
  induction text generalizing front opened with
  | nil => exact ⟨by simp [findFrom], List.Pairwise.nil⟩
  | cons c rest ih =>
    have hwhole : front ++ c :: rest = (front ++ [c]) ++ rest := by simp
    have hlength : (front ++ [c]).byteLength = front.byteLength + c.utf8Size := by
      rw [Text.byteLength_append]
      rfl
    -- whatever is remembered next, a token starts no earlier than before
    have hnext (opened' : Option (Nat × Text)) (h' : Remembers (front ++ [c]) opened')
        (hle : earliest front opened ≤ earliest (front ++ [c]) opened') :
        (∀ s ∈ findFrom (front.byteLength + c.utf8Size) opened' rest,
          earliest front opened ≤ s.start ∧
            ∃ token, isToken token ∧ (front ++ c :: rest).At s token) ∧
          Text.InOrder (findFrom (front.byteLength + c.utf8Size) opened' rest) := by
      obtain ⟨hfound, horder⟩ := ih h'
      rw [hlength] at hfound horder
      rw [hwhole]
      exact ⟨fun s hs => ⟨Nat.le_trans hle (hfound s hs).1, (hfound s hs).2⟩, horder⟩
    have hnone := hnext none (remembers_none _) (by
      have hle := earliest_le h
      change _ ≤ (front ++ [c]).byteLength
      omega)
    simp only [findFrom]
    split
    · exact hnext _ (remembers_openMark front c) (earliest_le h)
    · split
      · split
        · next start passed =>
          split
          · next htoken =>
            obtain ⟨before, rfl, rfl⟩ := h start passed rfl
            have hat : (before ++ passed.reverse ++ c :: rest).At
                ⟨before.byteLength, (before ++ passed.reverse).byteLength + c.utf8Size⟩
                (c :: passed).reverse :=
              ⟨before, rest, by simp, rfl, by simp [← hlength]⟩
            constructor
            · intro s hs
              rcases List.mem_cons.1 hs with rfl | hs
              · exact ⟨Nat.le_refl _, _, htoken, hat⟩
              · exact hnone.1 s hs
            · refine List.pairwise_cons.2 ⟨fun s hs => ?_, hnone.2⟩
              have hle := ((ih (remembers_none (before ++ passed.reverse ++ [c]))).1 s (by
                rwa [hlength])).1
              exact hlength ▸ hle
          · exact hnone
        · exact hnone
      · split
        · refine hnext _ (remembers_inner h c) ?_
          cases opened with
          | none =>
            change front.byteLength ≤ (front ++ [c]).byteLength
            omega
          | some opened => exact Nat.le_refl _
        · exact hnone

/-- What is found are tokens where they stand, from left to right. -/
theorem findTokens_sound (text : Text) :
    (∀ s ∈ findTokens text, ∃ token, isToken token ∧ text.At s token) ∧
      Text.InOrder (findTokens text) := by
  obtain ⟨hfound, horder⟩ := findFrom_sound (remembers_none []) text
  exact ⟨fun s hs => (hfound s hs).2, horder⟩

/-- Around a token, what is found is found on either side of it and at the token itself. -/
theorem findTokens_append_token (h : isToken token) (a b : Text) :
    findTokens (a ++ (token ++ b)) =
      findTokens a ++ ⟨a.byteLength, a.byteLength + token.byteLength⟩ ::
        (findTokens b).map (Span.shift (a.byteLength + token.byteLength)) := by
  have hshift := findFrom_add (a.byteLength + token.byteLength) 0 none b
  rw [Option.map_none, Nat.add_zero] at hshift
  rw [findTokens, findFrom_append_token h, Nat.zero_add, hshift]
  rfl

/-- A token is found wherever it stands. -/
theorem mem_findFrom_append_token (h : isToken token) (offset : Nat) (a b : Text) :
    ⟨offset + a.byteLength, offset + a.byteLength + token.byteLength⟩ ∈
      findFrom offset none (a ++ (token ++ b)) := by
  rw [findFrom_append_token h]
  exact List.mem_append_right _ List.mem_cons_self

/-- What is found in the second of two parts is found in the whole text. -/
theorem findFrom_subset_append (offset : Nat) (a b : Text) :
    findFrom (offset + a.byteLength) none b ⊆ findFrom offset none (a ++ b) := by
  have hshift := findFrom_add (offset + a.byteLength) 0 none b
  rw [Nat.add_zero, Option.map_none] at hshift
  rw [hshift]
  intro s hs
  obtain ⟨⟨start, stop⟩, hfound, rfl⟩ := List.mem_map.1 hs
  obtain ⟨token, htoken, x, y, rfl, rfl, rfl⟩ := (findTokens_sound b).1 _ hfound
  have hmem := mem_findFrom_append_token htoken offset (a ++ x) y
  simpa [Span.shift, Text.byteLength_append, Nat.add_assoc] using hmem

/-- What is found are the parts of the text that are tokens. -/
theorem mem_findTokens_iff {span : Span} :
    span ∈ findTokens text ↔ ∃ token, isToken token ∧ text.At span token := by
  constructor
  · exact (findTokens_sound text).1 span
  · rintro ⟨token, htoken, a, b, rfl, hstart, hstop⟩
    have hmem := mem_findFrom_append_token htoken 0 a b
    rw [Nat.zero_add, ← List.append_assoc, ← Text.byteLength_append, hstart, hstop] at hmem
    exact hmem

/-- What a name and two numerals spell is found wherever it stands. -/
theorem mem_findTokens_of_spelled {span : Span} {rule n m : Text} {occurrence sequence : Nat}
    (hrule : rule ≠ []) (hn : Text.IsNumeral n occurrence) (hm : Text.IsNumeral m sequence)
    (hat : text.At span (spelled rule n m)) :
    span ∈ findTokens text ∧ decode (text.slice span) = some ⟨rule, occurrence, sequence⟩ := by
  have hdecode : decode (spelled rule n m) = some ⟨rule, occurrence, sequence⟩ :=
    decode_eq_some_iff.2 ⟨hrule, n, m, hn, hm, rfl⟩
  rw [Text.slice_eq_of_at hat]
  refine ⟨mem_findTokens_iff.2 ⟨_, ?_, hat⟩, hdecode⟩
  rw [isToken, hdecode]
  rfl

/-- No token that is found is empty. -/
theorem start_lt_stop_of_mem_findTokens {span : Span} (h : span ∈ findTokens text) :
    span.start < span.stop := by
  obtain ⟨token, htoken, hat⟩ := mem_findTokens_iff.1 h
  rw [hat.stop_eq]
  exact Nat.lt_add_of_pos_right (byteLength_pos htoken)

/-- No token is found twice. -/
theorem nodup_findTokens (text : Text) : (findTokens text).Nodup := by
  refine (findTokens_sound text).2.imp_of_mem fun {s s'} hs _ hle heq => ?_
  have hlt := start_lt_stop_of_mem_findTokens hs
  rw [← heq] at hle
  omega

/-- A text in which no tokens are found contains none. -/
theorem findTokens_eq_nil_iff :
    findTokens text = [] ↔ ∀ a token b, isToken token → text ≠ a ++ (token ++ b) := by
  constructor
  · rintro h a token b htoken rfl
    rw [findTokens_append_token htoken] at h
    simp at h
  · intro h
    by_contra hne
    obtain ⟨s, hs⟩ := List.exists_mem_of_ne_nil _ hne
    obtain ⟨token, htoken, a, b, hat, -⟩ := (findTokens_sound text).1 s hs
    exact h a token b htoken (by rw [hat, List.append_assoc])

/-- Induction on the tokens of a text. -/
theorem token_induction {P : Text → Prop} (text : Text)
    (plain : ∀ text, findTokens text = [] → P text)
    (token : ∀ a token b, isToken token → P a → P b → P (a ++ (token ++ b))) : P text := by
  induction h : text.length using Nat.strongRecOn generalizing text with
  | _ n ih =>
    subst h
    by_cases hnil : findTokens text = []
    · exact plain text hnil
    · rw [findTokens_eq_nil_iff] at hnil
      simp only [not_forall, not_not] at hnil
      obtain ⟨a, τ, b, hτ, rfl⟩ := hnil
      have hpos := List.length_pos_iff.2 (ne_nil_of_isToken hτ)
      have ha : a.length < (a ++ (τ ++ b)).length := by
        simp only [List.length_append]
        omega
      have hb : b.length < (a ++ (τ ++ b)).length := by
        simp only [List.length_append]
        omega
      exact token a τ b hτ (ih _ ha a rfl) (ih _ hb b rfl)

/-- The spans that are found are those that cut a token out of the text. Each is found once, and
they come from left to right without overlapping. A token in a text is found between the tokens
before it and those behind it, whatever else there is of marks and glyphs. -/
theorem spans_of_findTokens :
    (∀ text span, span ∈ findTokens text ↔
      ∃ token, Text.slice? text span = some token ∧ isToken token) ∧
    (∀ text, (findTokens text).Nodup ∧
      (findTokens text).Pairwise fun s s' => s.start < s'.start ∧ s.stop ≤ s'.start) ∧
    ∀ a token b, isToken token →
      findTokens (a ++ token ++ b) =
        findTokens a ++ ⟨a.byteLength, (a ++ token).byteLength⟩ ::
          (findTokens b).map (Span.shift (a ++ token).byteLength) := by
  have horder (text : Text) :
      (findTokens text).Pairwise fun s s' => s.start < s'.start ∧ s.stop ≤ s'.start := by
    refine (findTokens_sound text).2.imp_of_mem fun {s s'} hs _ hle => ⟨?_, hle⟩
    exact Nat.lt_of_lt_of_le (start_lt_stop_of_mem_findTokens hs) hle
  refine ⟨fun text span => ?_, fun text => ⟨?_, horder text⟩, fun a token b htoken => ?_⟩
  · simp only [mem_findTokens_iff, Text.slice?_eq_some_iff, and_comm]
  · refine (horder text).imp fun {s s'} hlt heq => ?_
    rw [heq] at hlt
    exact Nat.lt_irrefl _ hlt.1
  · rw [List.append_assoc, findTokens_append_token htoken, Text.byteLength_append]

/-- A stray opening mark before a token and a stray closing mark behind it change nothing. -/
theorem spans_of_findTokens_stray :
    isToken (mint ['a'] 1 1) ∧
      findTokens ([openMark] ++ mint ['a'] 1 1 ++ [closeMark]) = [⟨3, 24⟩] := by
  have htoken : isToken (mint ['a'] 1 1) :=
    isToken_mint (by decide) (by decide) (by decide)
  refine ⟨htoken, ?_⟩
  rw [spans_of_findTokens.2.2 _ _ _ htoken]
  rfl

/-! ## What is replaced -/

/-- The changes that replace the tokens of a text. -/
def changes (lookup : Text → Option Text) (text : Text) : List Text.Change :=
  (findTokens text).map fun s =>
    ⟨s, text.slice s, (lookup (text.slice s)).getD (text.slice s)⟩

/-- Whatever tokens are replaced by, no cut goes wrong, and nothing but tokens is replaced. -/
theorem replaced_splice_findTokens {changes : List Text.Change}
    (hspans : changes.map Text.Change.span = findTokens text)
    (hold : ∀ c ∈ changes, c.old = text.slice c.span) :
    (∀ c ∈ changes, isToken c.old ∧ text.At c.span c.old) ∧
      Text.Replaced 0 changes text (text.splice (changes.map Text.Change.edit)) ∧
      Text.rebuild? text 0 (changes.map Text.Change.edit) =
        some (text.splice (changes.map Text.Change.edit)) := by
  obtain ⟨hfound, horder⟩ := findTokens_sound text
  have hat : ∀ c ∈ changes, isToken c.old ∧ text.At c.span c.old := by
    intro c hc
    obtain ⟨token, htoken, hat⟩ := hfound c.span (hspans ▸ List.mem_map_of_mem hc)
    rw [hold c hc, Text.slice_eq_of_at hat]
    exact ⟨htoken, hat⟩
  rw [← hspans] at horder
  exact ⟨hat, Text.replaced_splice (fun c hc => (hat c hc).2) horder,
    Text.rebuild?_eq_some_splice (fun c hc => (hat c hc).2) horder⟩

/-- Replacing tokens changes each token that is found, and nothing else. -/
theorem replaced_replaceTokens (lookup : Text → Option Text) (text : Text) :
    Text.Replaced 0 (changes lookup text) text (replaceTokens lookup text) := by
  have hspans : (changes lookup text).map Text.Change.span = findTokens text := by
    rw [changes, List.map_map]
    exact List.map_id _
  have hold : ∀ c ∈ changes lookup text, c.old = text.slice c.span := by
    intro c hc
    obtain ⟨s, -, rfl⟩ := List.mem_map.1 hc
    rfl
  have hedits : text.splice ((changes lookup text).map Text.Change.edit) =
      replaceTokens lookup text := by
    rw [changes, List.map_map]
    rfl
  have hreplaced := (replaced_splice_findTokens hspans hold).2.1
  rwa [hedits] at hreplaced

/-- The changes before a token and behind it are those of the parts alone. -/
theorem changes_append (lookup : Text → Option Text) (h : isToken token) (a b : Text) :
    changes lookup (a ++ (token ++ b)) =
      changes lookup a ++
        ⟨⟨a.byteLength, a.byteLength + token.byteLength⟩, token, (lookup token).getD token⟩ ::
          (changes lookup b).map (Text.Change.shift (a.byteLength + token.byteLength)) := by
  have htoken : (a ++ (token ++ b)).slice ⟨a.byteLength, a.byteLength + token.byteLength⟩ =
      token :=
    Text.slice_eq_of_at ⟨a, b, by simp, rfl, by rw [Text.byteLength_append]⟩
  simp only [changes, findTokens_append_token h, List.map_append, List.map_cons, List.map_map,
    htoken]
  congr 1
  · refine List.map_congr_left fun s hs => ?_
    obtain ⟨token', -, hat⟩ := (findTokens_sound a).1 s hs
    rw [Text.slice_eq_of_at hat, Text.slice_eq_of_at (hat.append_right _)]
  · congr 1
    refine List.map_congr_left fun s hs => ?_
    obtain ⟨token', -, hat⟩ := (findTokens_sound b).1 s hs
    have hat' := hat.append_left (a ++ token)
    rw [Text.byteLength_append, List.append_assoc] at hat'
    simp only [Function.comp_apply, Text.Change.shift]
    rw [Text.slice_eq_of_at hat, Text.slice_eq_of_at hat']

/-- The tokens before a token and behind it are replaced as if they stood alone. -/
theorem replaceTokens_append (lookup : Text → Option Text) (h : isToken token) (a b : Text) :
    replaceTokens lookup (a ++ (token ++ b)) =
      replaceTokens lookup a ++ ((lookup token).getD token ++ replaceTokens lookup b) := by
  -- the changes determine the result, so it is enough that both sides are made by the same ones
  have hwhole := replaced_replaceTokens lookup (a ++ (token ++ b))
  rw [changes_append lookup h] at hwhole
  refine hwhole.unique ((replaced_replaceTokens lookup a).append ?_)
  have hb := (replaced_replaceTokens lookup b).shift (a.byteLength + token.byteLength)
  rw [Nat.add_zero] at hb
  rw [Nat.zero_add]
  exact .cons_of_start hb

/-- A token at the start of a text is replaced before the others. -/
theorem replaceTokens_token (lookup : Text → Option Text) (h : isToken token) (rest : Text) :
    replaceTokens lookup (token ++ rest) =
      (lookup token).getD token ++ replaceTokens lookup rest :=
  replaceTokens_append lookup h [] rest

theorem ne_openMark_of_not_isTokenChar (hc : isTokenChar c = false) : c ≠ openMark := by
  rintro rfl
  contradiction

/-- Where no token has been opened, nothing is found before the next opening mark. -/
theorem findFrom_cons_of_ne_openMark (hc : c ≠ openMark) (offset : Nat) (rest : Text) :
    findFrom offset none (c :: rest) = findFrom (offset + c.utf8Size) none rest := by
  simp only [findFrom]
  rw [if_neg hc]
  split
  · rfl
  · split <;> rfl

/-- A character that does not open a token is kept. -/
theorem replaceTokens_cons (lookup : Text → Option Text) (hc : c ≠ openMark) (rest : Text) :
    replaceTokens lookup (c :: rest) = c :: replaceTokens lookup rest := by
  have hfound : findTokens (c :: rest) =
      (findTokens rest).map (Span.shift (Text.byteLength [c])) := by
    have hshift := findFrom_add (Text.byteLength [c]) 0 none rest
    rw [findTokens, findFrom_cons_of_ne_openMark hc, Nat.zero_add]
    exact hshift
  have hchanges : changes lookup (c :: rest) =
      (changes lookup rest).map (Text.Change.shift (Text.byteLength [c])) := by
    simp only [changes, hfound, List.map_map]
    refine List.map_congr_left fun s hs => ?_
    obtain ⟨token', -, hat⟩ := (findTokens_sound rest).1 s hs
    have hat' : Text.At (c :: rest) (s.shift (Text.byteLength [c])) token' := hat.append_left [c]
    simp only [Function.comp_apply, Text.Change.shift]
    rw [Text.slice_eq_of_at hat, Text.slice_eq_of_at hat']
  have hwhole := replaced_replaceTokens lookup (c :: rest)
  rw [hchanges] at hwhole
  have hrest := (replaced_replaceTokens lookup rest).shift (Text.byteLength [c])
  rw [Nat.add_comm] at hrest
  exact hwhole.unique (hrest.append_gap (a := [c]))

end Token

end Cascade
