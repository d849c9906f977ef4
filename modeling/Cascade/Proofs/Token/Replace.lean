import Cascade.Proofs.Token.Scan
import Mathlib.Data.List.Nodup

/-!
# Replacing tokens by what a lookup answers

A lookup that replaces the tokens of a text may remember what it has been asked. It is asked for
each token once, from left to right, and what comes out is the text with its tokens replaced by the
answers. So a single token is replaced by a lookup that answers at one place only, and two tokens
may be replaced in any order, as long as the second one is looked for where the first replacement
has moved it.

* `Asks`: a lookup is asked for the old parts of changes, one after the other.
* `exists_asks`: the edits that a lookup makes are told by changes that it is asked for.
* `replaceAt`: the token at one place is replaced; `replaceAt_append` says what that does.
* `Span.track`: where a token stands after another one has been replaced.
* `splice_of_replaceTokens`: replacing tokens, all of them or one by one.
-/

namespace Cascade

/-- Where a span stands after another one, which it does not overlap with, has been replaced by a
text. -/
def Span.track (replaced : Span) (answer : Text) (span : Span) : Span :=
  if replaced.stop ≤ span.start then
    ⟨replaced.start + answer.byteLength + (span.start - replaced.stop),
      replaced.start + answer.byteLength + (span.stop - replaced.stop)⟩
  else span

namespace Token

variable {σ : Type} {text token token' a b gap : Text} {span span' : Span}

/-! ## Lookups that remember -/

/-- `Asks lookup s changes s'`: a lookup that starts with the memory `s` is asked once for the old
part of each change, in this order, and ends with the memory `s'`. The new parts are its answers,
and the old ones where it has none. -/
inductive Asks (lookup : Text → StateM σ (Option Text)) : σ → List Text.Change → σ → Prop where
  | nil (s : σ) : Asks lookup s [] s
  | cons {s s' s'' : σ} {c : Text.Change} {answer : Option Text} {changes : List Text.Change}
      (hcall : (lookup c.old).run s = (answer, s')) (hnew : c.new = answer.getD c.old)
      (hrest : Asks lookup s' changes s'') : Asks lookup s (c :: changes) s''

/-- The edit that a lookup makes at a span. -/
def editM (lookup : Text → StateM σ (Option Text)) (text : Text) (span : Span) :
    StateM σ (Span × Text) := do
  let token := text.slice span
  return (span, (← lookup token).getD token)

theorem run_mapM_cons {α β : Type} (f : α → StateM σ β) (x : α) (xs : List α) (s : σ) :
    ((x :: xs).mapM f).run s =
      (((f x).run s).1 :: ((xs.mapM f).run ((f x).run s).2).1,
        ((xs.mapM f).run ((f x).run s).2).2) := by
  rw [List.mapM_cons]
  rfl

/-- Replacing tokens asks for each of them in turn and puts the answers in their places. -/
theorem run_replaceTokensM (lookup : Text → StateM σ (Option Text)) (text : Text) (s : σ) :
    (replaceTokensM lookup text).run s =
      (text.splice (((findTokens text).mapM (editM lookup text)).run s).1,
        (((findTokens text).mapM (editM lookup text)).run s).2) := rfl

/-- The edits that a lookup makes are told by changes that it is asked for. -/
theorem exists_asks (lookup : Text → StateM σ (Option Text)) (text : Text) (spans : List Span)
    (s : σ) :
    ∃ changes s', (spans.mapM (editM lookup text)).run s = (changes.map Text.Change.edit, s') ∧
      Asks lookup s changes s' ∧ changes.map Text.Change.span = spans ∧
      ∀ c ∈ changes, c.old = text.slice c.span := by
  induction spans generalizing s with
  | nil => exact ⟨[], s, rfl, .nil s, rfl, by simp⟩
  | cons span spans ih =>
    -- the other spans are looked up with the memory that the first call leaves
    let call := (lookup (text.slice span)).run s
    obtain ⟨changes, s', hrun, hasks, hspans, hold⟩ := ih call.2
    let change : Text.Change := ⟨span, text.slice span, call.1.getD (text.slice span)⟩
    have hfirst : (editM lookup text span).run s = (change.edit, call.2) := rfl
    refine ⟨change :: changes, s', ?_, .cons rfl rfl hasks, ?_, ?_⟩
    · rw [run_mapM_cons, hfirst, hrun]
      rfl
    · rw [List.map_cons, hspans]
    · intro c hc
      rcases List.mem_cons.1 hc with rfl | hc
      · rfl
      · exact hold c hc

/-- A lookup is asked once for each token that is found, and the text with the answers in place of
the tokens is what comes out. -/
theorem exists_changes (lookup : Text → StateM σ (Option Text)) (text : Text) (s : σ) :
    ∃ changes s', Asks lookup s changes s' ∧ changes.map Text.Change.span = findTokens text ∧
      (∀ c ∈ changes, isToken c.old ∧ text.At c.span c.old) ∧
      ∃ result, (replaceTokensM lookup text).run s = (result, s') ∧
        Text.Replaced 0 changes text result ∧
        Text.rebuild? text 0 (changes.map Text.Change.edit) = some result := by
  obtain ⟨changes, s', hrun, hasks, hspans, hold⟩ := exists_asks lookup text (findTokens text) s
  obtain ⟨hat, hreplaced, hrebuild⟩ := replaced_splice_findTokens hspans hold
  refine ⟨changes, s', hasks, hspans, hat, _, ?_, hreplaced, hrebuild⟩
  rw [run_replaceTokensM, hrun]

/-- A lookup that remembers nothing leaves the memory alone. -/
theorem replaceTokensM_pure (lookup : Text → Option Text) (text : Text) (s : σ) :
    (replaceTokensM (fun token => (pure (lookup token) : StateM σ (Option Text))) text).run s =
      (replaceTokens lookup text, s) := by
  have hedits : ((findTokens text).mapM (editM (σ := σ) (fun token => pure (lookup token)) text)) =
      pure ((findTokens text).map fun span =>
        (span, (lookup (text.slice span)).getD (text.slice span))) :=
    List.mapM_pure
  rw [run_replaceTokensM, hedits]
  rfl

/-! ## One token alone -/

/-- The lookup that answers at one span only. It remembers where the tokens stand that it has not
been asked for yet. -/
def answerAt (span : Span) (answer : Text) (_token : Text) : StateM (List Span) (Option Text) :=
  modifyGet fun
    | [] => (none, [])
    | next :: later => (if next = span then some answer else none, later)

/-- A text with the token at one span replaced. -/
def replaceAt (text : Text) (span : Span) (answer : Text) : Text :=
  ((replaceTokensM (answerAt span answer) text).run (findTokens text)).1

/-- Asked for all tokens, the lookup answers at its span and nowhere else. -/
theorem Asks.new_eq {answer : Text} {spans later : List Span} {changes : List Text.Change}
    (h : Asks (answerAt span answer) spans changes later)
    (hspans : changes.map Text.Change.span = spans) :
    ∀ c ∈ changes, c.new = if c.span = span then answer else c.old := by
  -- what is remembered are the spans of the changes that are left, the next one first
  induction h with
  | nil => simp
  | @cons s s' s'' change answer? changes hcall hnew _ ih =>
    subst hspans
    obtain ⟨rfl, rfl⟩ : (if change.span = span then some answer else none) = answer? ∧
        changes.map Text.Change.span = s' := Prod.mk.inj hcall
    intro c hc
    rcases List.mem_cons.1 hc with rfl | hc
    · rw [hnew]
      split <;> rfl
    · exact ih rfl c hc

/-- Where a part of a text stands behind its beginning. -/
def spanOf (before part : Text) : Span :=
  ⟨before.byteLength, before.byteLength + part.byteLength⟩

theorem at_spanOf (a part b : Text) : Text.At (a ++ (part ++ b)) (spanOf a part) part :=
  ⟨a, b, by simp, rfl, by rw [Text.byteLength_append, spanOf]⟩

/-- A token is found where it stands, whatever is around it. -/
theorem spanOf_mem_findTokens (h : isToken token) (a b : Text) :
    spanOf a token ∈ findTokens (a ++ (token ++ b)) :=
  mem_findTokens_iff.2 ⟨token, h, at_spanOf a token b⟩

/-- Replacing a token alone leaves what stands before it and behind it. -/
theorem replaceAt_append (h : isToken token) (a b answer : Text) :
    replaceAt (a ++ (token ++ b)) (spanOf a token) answer = a ++ (answer ++ b) := by
  have hfound := spanOf_mem_findTokens h a b
  have hstands := at_spanOf a token b
  generalize htext : a ++ (token ++ b) = text at hfound hstands ⊢
  obtain ⟨changes, later, hasks, hspans, hat, result, hrun, hreplaced, -⟩ :=
    exists_changes (answerAt (spanOf a token) answer) text (findTokens text)
  have hnew := hasks.new_eq hspans
  have hnodup : (changes.map Text.Change.span).Nodup := hspans ▸ nodup_findTokens text
  rw [← hspans] at hfound
  obtain ⟨c, hc, hspan⟩ := List.mem_map.1 hfound
  have hold : c.old = token := by
    rw [← Text.slice_eq_of_at (hat c hc).2, hspan, Text.slice_eq_of_at hstands]
  -- no other change is made at this span, so all others keep what they replace
  have hkept : ∀ c' ∈ changes, c' ≠ c → c'.new = c'.old := by
    intro c' hc' hne
    rw [hnew c' hc', if_neg]
    exact fun heq => hne (List.inj_on_of_nodup_map hnodup hc' hc (heq.trans hspan.symm))
  obtain ⟨before, behind, hbefore, rfl, hstart⟩ :=
    hreplaced.exists_of_kept (List.Nodup.of_map _ hnodup) hc hkept
  have hlength : a.byteLength = before.byteLength := by
    rw [← Nat.zero_add before.byteLength, hstart, hspan, spanOf]
  rw [← htext, hold] at hbefore
  obtain ⟨rfl, hrest⟩ := Text.append_inj_of_byteLength_eq hbefore hlength
  obtain rfl := List.append_cancel_left hrest
  rw [replaceAt, hrun, hnew c hc, if_pos hspan]

/-! ## One token after the other -/

/-- A token behind a replaced one moves with what is between. -/
theorem track_spanOf_behind (a token gap token' answer : Text) :
    (spanOf a token).track answer (spanOf (a ++ (token ++ gap)) token') =
      spanOf (a ++ (answer ++ gap)) token' := by
  simp only [Span.track, spanOf, Text.byteLength_append]
  rw [if_pos (by omega), Span.mk.injEq]
  constructor <;> omega

/-- A token before a replaced one stays where it is. -/
theorem track_spanOf_before (h : isToken token) (a gap token' answer : Text) :
    (spanOf (a ++ (token ++ gap)) token').track answer (spanOf a token) = spanOf a token := by
  have hpos := byteLength_pos h
  simp only [Span.track, spanOf, Text.byteLength_append]
  rw [if_neg (by omega)]

/-- One token stands behind another in a text, at these spans. -/
def InTurn (text : Text) (span span' : Span) : Prop :=
  ∃ a token gap token' b, isToken token ∧ isToken token' ∧
    text = a ++ (token ++ (gap ++ (token' ++ b))) ∧
    span = spanOf a token ∧ span' = spanOf (a ++ (token ++ gap)) token'

/-- Of two tokens that are found, one stands behind the other. -/
theorem inTurn_or_inTurn (hs : span ∈ findTokens text) (hs' : span' ∈ findTokens text)
    (hne : span ≠ span') : InTurn text span span' ∨ InTurn text span' span := by
  have hparts {span : Span} (h : span ∈ findTokens text) :
      ∃ a token b, isToken token ∧ text = a ++ (token ++ b) ∧ span = spanOf a token := by
    obtain ⟨token, htoken, a, b, htext, hstart, hstop⟩ := mem_findTokens_iff.1 h
    refine ⟨a, token, b, htoken, by simp [htext], ?_⟩
    rw [spanOf, ← Text.byteLength_append, hstart, hstop]
  obtain ⟨a, token, b, htoken, rfl, rfl⟩ := hparts hs
  obtain ⟨a', token', b', htoken', heq, rfl⟩ := hparts hs'
  rcases overlap htoken htoken' heq with ⟨rfl, rfl, rfl⟩ | ⟨gap, rfl, rfl⟩ | ⟨gap, rfl, rfl⟩
  · -- the same token stands at one span only
    contradiction
  · exact .inl ⟨a, token, gap, token', b', htoken, htoken', rfl, rfl, rfl⟩
  · exact .inr ⟨a', token', gap, token, b, htoken', htoken, heq, rfl, rfl⟩

/-- Each of two tokens is found again when the other one has been replaced, and it does not matter
which of them is replaced first. -/
structure Interchange (text : Text) (span span' : Span) (answer answer' : Text) : Prop where
  found : span.track answer span' ∈ findTokens (replaceAt text span answer)
  slice_eq : (replaceAt text span answer).slice (span.track answer span') = text.slice span'
  found' : span'.track answer' span ∈ findTokens (replaceAt text span' answer')
  slice_eq' : (replaceAt text span' answer').slice (span'.track answer' span) = text.slice span
  comm : replaceAt (replaceAt text span answer) (span.track answer span') answer' =
    replaceAt (replaceAt text span' answer') (span'.track answer' span) answer

theorem Interchange.symm {answer answer' : Text} (h : Interchange text span span' answer answer') :
    Interchange text span' span answer' answer :=
  ⟨h.found', h.slice_eq', h.found, h.slice_eq, h.comm.symm⟩

/-- Tokens one behind the other can be replaced in either order. -/
theorem InTurn.interchange (h : InTurn text span span') (answer answer' : Text) :
    Interchange text span span' answer answer' := by
  obtain ⟨a, token, gap, token', b, htoken, htoken', rfl, rfl, rfl⟩ := h
  -- replacing the first token moves the second one, and replacing the second leaves the first
  have hfirst : replaceAt (a ++ (token ++ (gap ++ (token' ++ b)))) (spanOf a token) answer =
      (a ++ (answer ++ gap)) ++ (token' ++ b) := by
    rw [replaceAt_append htoken]
    simp
  have hwhole : a ++ (token ++ (gap ++ (token' ++ b))) =
      (a ++ (token ++ gap)) ++ (token' ++ b) := by simp
  have hsecond : replaceAt (a ++ (token ++ (gap ++ (token' ++ b))))
      (spanOf (a ++ (token ++ gap)) token') answer' = a ++ (token ++ (gap ++ (answer' ++ b))) := by
    rw [hwhole, replaceAt_append htoken']
    simp
  constructor
  · rw [hfirst, track_spanOf_behind]
    exact spanOf_mem_findTokens htoken' _ _
  · rw [hfirst, track_spanOf_behind, Text.slice_eq_of_at (at_spanOf _ _ _), hwhole,
      Text.slice_eq_of_at (at_spanOf _ _ _)]
  · rw [hsecond, track_spanOf_before htoken]
    exact spanOf_mem_findTokens htoken _ _
  · rw [hsecond, track_spanOf_before htoken, Text.slice_eq_of_at (at_spanOf _ _ _),
      Text.slice_eq_of_at (at_spanOf _ _ _)]
  · calc replaceAt (replaceAt _ (spanOf a token) answer)
          ((spanOf a token).track answer (spanOf (a ++ (token ++ gap)) token')) answer'
        = (a ++ (answer ++ gap)) ++ (answer' ++ b) := by
          rw [hfirst, track_spanOf_behind, replaceAt_append htoken']
      _ = a ++ (answer ++ (gap ++ (answer' ++ b))) := by simp
      _ = _ := by
          rw [hsecond, track_spanOf_before htoken, replaceAt_append htoken]

/-- Replacing tokens asks the lookup once for each token that is found, from left to right, and puts
the answers where the tokens stand; no cut goes wrong, and all else is kept. So the tokens before a
token and behind it are replaced as if they stood alone, and two tokens that are replaced one by one
may be replaced in any order. -/
theorem splice_of_replaceTokens :
    (∀ (σ : Type) (lookup : Text → StateM σ (Option Text)) (text : Text) (s : σ),
      ∃ changes s' result, (replaceTokensM lookup text).run s = (result, s') ∧
        Asks lookup s changes s' ∧ changes.map Text.Change.span = findTokens text ∧
        (∀ c ∈ changes, Text.slice? text c.span = some c.old) ∧
        Text.Replaced 0 changes text result ∧
        Text.rebuild? text 0 (changes.map Text.Change.edit) = some result) ∧
    (∀ (σ : Type) (lookup : Text → Option Text) (text : Text) (s : σ),
      (replaceTokensM (fun token => (pure (lookup token) : StateM σ (Option Text))) text).run s =
        (replaceTokens lookup text, s)) ∧
    (∀ (lookup : Text → Option Text) (a token b : Text), isToken token →
      replaceTokens lookup (a ++ token ++ b) =
        replaceTokens lookup a ++ (lookup token).getD token ++ replaceTokens lookup b) ∧
    (∀ a token b answer : Text, isToken token →
      replaceAt (a ++ token ++ b) ⟨a.byteLength, (a ++ token).byteLength⟩ answer =
        a ++ answer ++ b) ∧
    ∀ text span span', span ∈ findTokens text → span' ∈ findTokens text → span ≠ span' →
      ∀ answer answer', Interchange text span span' answer answer' := by
  refine ⟨fun σ lookup text s => ?_, fun σ => replaceTokensM_pure,
    fun lookup a token b htoken => ?_, fun a token b answer htoken => ?_,
    fun text span span' hs hs' hne answer answer' => ?_⟩
  · obtain ⟨changes, s', hasks, hspans, hat, result, hrun, hreplaced, hrebuild⟩ :=
      exists_changes lookup text s
    exact ⟨changes, s', result, hrun, hasks, hspans,
      fun c hc => Text.slice?_eq_some_iff.2 (hat c hc).2, hreplaced, hrebuild⟩
  · rw [List.append_assoc, replaceTokens_append lookup htoken, List.append_assoc]
  · rw [List.append_assoc, Text.byteLength_append, List.append_assoc]
    exact replaceAt_append htoken a b answer
  · rcases inTurn_or_inTurn hs hs' hne with h | h
    · exact h.interchange answer answer'
    · exact (h.interchange answer' answer).symm

/-- Between stray marks, an answer can make up a token of its own; the token behind it is still
where it is looked for. -/
theorem splice_of_replaceTokens_stray :
    isToken (mint ['a'] 1 1) ∧
      replaceTokens (fun _ => some ['x']) ([openMark] ++ mint ['a'] 1 1 ++ [closeMark]) =
        [openMark, 'x', closeMark] ∧
      findTokens (openMark :: (mint ['a'] 1 1 ++ closeMark :: mint ['b'] 1 2)) =
        [⟨3, 24⟩, ⟨27, 48⟩] ∧
      Interchange (openMark :: (mint ['a'] 1 1 ++ closeMark :: mint ['b'] 1 2)) ⟨3, 24⟩ ⟨27, 48⟩
        (tokenBody (glyphs ['c']) ['1'] ['3']) ['y'] := by
  have htoken : isToken (mint ['a'] 1 1) :=
    isToken_mint (by decide) (by decide) (by decide)
  have hfound : findTokens (openMark :: (mint ['a'] 1 1 ++ closeMark :: mint ['b'] 1 2)) =
      [⟨3, 24⟩, ⟨27, 48⟩] := rfl
  refine ⟨htoken, ?_, hfound, ?_⟩
  · exact splice_of_replaceTokens.2.2.1 _ [openMark] _ [closeMark] htoken
  · exact splice_of_replaceTokens.2.2.2.2 _ ⟨3, 24⟩ ⟨27, 48⟩ (by simp [hfound])
      (by simp [hfound]) (by decide) _ _

end Token

end Cascade
