import Cascade.Proofs.Token.Scan

/-!
# Tokens that stand in a text in order

A text contains parts in order if they stand in it one behind the other. If the parts are tokens,
they still do when other parts of the text are replaced, as long as nothing that is replaced
overlaps with a token or lies inside one.

* `Text.Contains`: the property, and `Contains.exists_gaps`, which says what stands between the
  parts.
* `Avoids`: a span stands before or behind each token of a text.
* `Contains.cut`: where a text is cut between tokens, so are the tokens that it contains.
* `Contains.replaced`: replacing what avoids the tokens of a text.
-/

namespace Cascade

open Token

namespace Token

/-- A span stands before or behind each token of a text that starts at byte position `offset`. -/
def Avoids (offset : Nat) (text : Text) (span : Span) : Prop :=
  ∀ s ∈ findFrom offset none text, span.stop ≤ s.start ∨ s.stop ≤ span.start

instance (offset : Nat) (text : Text) (span : Span) : Decidable (Avoids offset text span) :=
  inferInstanceAs
    (Decidable (∀ s ∈ findFrom offset none text, span.stop ≤ s.start ∨ s.stop ≤ span.start))

end Token

namespace Text

variable {offset : Nat} {parts before behind : List Text} {text a b : Text}

/-- Parts stand in a text in order, one behind the other. -/
inductive Contains : (parts : List Text) → Text → Prop where
  | nil (text : Text) : Contains [] text
  | cons {front part rest : Text} {parts : List Text} (hrest : Contains parts rest) :
      Contains (part :: parts) (front ++ (part ++ rest))

namespace Contains

/-- A text consists of the parts that it contains and of what stands between them. -/
theorem exists_gaps (h : Contains parts text) :
    ∃ first gaps, gaps.length = parts.length ∧
      text = first ++ (List.zipWith (fun part gap => part ++ gap) parts gaps).flatten := by
  induction h with
  | nil text => exact ⟨text, [], rfl, by simp⟩
  | @cons front part rest parts _ ih =>
    obtain ⟨first, gaps, hlength, rfl⟩ := ih
    exact ⟨front, first :: gaps, by simp [hlength], by simp⟩

theorem append_left (h : Contains parts b) (a : Text) : Contains parts (a ++ b) := by
  cases h with
  | nil => exact .nil _
  | cons hrest =>
    rw [← List.append_assoc]
    exact .cons hrest

theorem append (h : Contains before a) (h' : Contains behind b) :
    Contains (before ++ behind) (a ++ b) := by
  induction h with
  | nil text => exact h'.append_left text
  | cons _ ih =>
    rw [List.append_assoc, List.append_assoc]
    exact .cons ih

/-- What has been put into a text stands in it in order. -/
theorem of_replaced {changes : List Change} (h : Replaced offset changes a b) :
    Contains (changes.map Change.new) b := by
  induction h with
  | nil _ rest => exact .nil rest
  | cons _ ih =>
    rw [List.append_assoc]
    exact .cons ih

/-- Where a text is cut, but not inside a token, tokens that it contains stand before or behind. -/
theorem cut (h : Contains parts text) (htokens : ∀ part ∈ parts, isToken part) (offset : Nat)
    (heq : text = a ++ b)
    (hspared : ∀ s ∈ findFrom offset none text,
      ¬ (s.start < offset + a.byteLength ∧ offset + a.byteLength < s.stop)) :
    ∃ before behind, parts = before ++ behind ∧ Contains before a ∧ Contains behind b := by
  induction h generalizing offset a with
  | nil => exact ⟨[], [], rfl, .nil a, .nil b⟩
  | @cons front part rest parts hrest ih =>
    obtain ⟨hpart, htokens⟩ := List.forall_mem_cons.1 htokens
    -- the cut is before the first token, inside of it, or behind it
    rcases Nat.lt_or_ge front.byteLength a.byteLength with hlt | hge
    · obtain ⟨e, rfl, he⟩ := append_eq_append_of_byteLength_le heq (Nat.le_of_lt hlt)
      rw [byteLength_append] at hlt hspared
      rcases Nat.lt_or_ge e.byteLength part.byteLength with hshort | hlong
      · -- the cut would be inside the first of the tokens
        have hcut := hspared _ (mem_findFrom_append_token hpart offset front rest)
        simp only at hcut
        omega
      · obtain ⟨e, rfl, rfl⟩ := append_eq_append_of_byteLength_le he hlong
        rw [byteLength_append] at hspared
        obtain ⟨before, behind, rfl, hbefore, hbehind⟩ :=
          ih htokens (offset + (front ++ part).byteLength) rfl fun s hs => by
            have hmem := findFrom_subset_append offset (front ++ part) (e ++ b) hs
            rw [List.append_assoc] at hmem
            rw [byteLength_append, Nat.add_assoc, Nat.add_assoc]
            exact hspared s hmem
        exact ⟨part :: before, behind, rfl, .cons hbefore, hbehind⟩
    · obtain ⟨e, rfl, rfl⟩ := append_eq_append_of_byteLength_le heq.symm hge
      exact ⟨[], part :: parts, rfl, .nil a, .cons hrest⟩

/-- No tokens stand where a span stands that avoids them. -/
theorem eq_nil_of_avoids {c : Text} (h : Contains parts b) (htokens : ∀ part ∈ parts, isToken part)
    (havoids : Avoids offset (a ++ (b ++ c))
      ⟨offset + a.byteLength, offset + a.byteLength + b.byteLength⟩) : parts = [] := by
  cases h with
  | nil => rfl
  | @cons front part rest parts =>
    have hpart : isToken part := htokens part List.mem_cons_self
    have hpos := byteLength_pos hpart
    have hmem := mem_findFrom_append_token hpart offset (a ++ front) (rest ++ c)
    have hwhole : a ++ front ++ (part ++ (rest ++ c)) = a ++ (front ++ (part ++ rest) ++ c) := by
      simp
    rw [hwhole] at hmem
    have hdisjoint := havoids _ hmem
    simp only [byteLength_append] at hdisjoint
    omega

/-- Tokens that stand in a text still stand in it when parts are replaced that avoid them. -/
theorem replaced {changes : List Change} {after : Text}
    (hreplaced : Replaced offset changes a after) (h : Contains parts a)
    (htokens : ∀ part ∈ parts, isToken part)
    (havoids : ∀ c ∈ changes, Avoids offset a c.span) : Contains parts after := by
  induction hreplaced generalizing parts with
  | nil => exact h
  | @cons offset gap old new changes rest rest' _ ih =>
    obtain ⟨hfirst, hlater⟩ := List.forall_mem_cons.1 havoids
    rw [List.append_assoc] at h hfirst hlater
    -- what stands in the text stands before what is replaced or behind it
    obtain ⟨before, parts, rfl, hgap, h⟩ := h.cut htokens offset rfl fun s hs => by
      have hdisjoint := hfirst s hs
      simp only at hdisjoint
      omega
    obtain ⟨hbefore, htokens⟩ := List.forall_mem_append.1 htokens
    obtain ⟨inner, behind, rfl, hold, hrest⟩ :=
      h.cut htokens (offset + gap.byteLength) rfl fun s hs => by
        have hdisjoint := hfirst s (findFrom_subset_append offset gap (old ++ rest) hs)
        simp only at hdisjoint
        omega
    obtain ⟨hinner, hbehind⟩ := List.forall_mem_append.1 htokens
    obtain rfl := hold.eq_nil_of_avoids hinner hfirst
    rw [List.nil_append, List.append_assoc]
    refine hgap.append (append_left (ih hrest hbehind fun c hc s hs => ?_) new)
    refine hlater c hc s ?_
    have hmem := findFrom_subset_append (offset + gap.byteLength) old rest hs
    exact findFrom_subset_append offset gap (old ++ rest) hmem

end Contains

end Text

end Cascade
