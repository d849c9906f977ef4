import Cascade.Proofs.Grammar.Segment
import Cascade.Proofs.Tree.ExpandsTo

/-!
# Texts that expand to texts without tokens

A text settles if it consists of plain characters and of tokens that belong to nodes, whose texts
settle in turn. No plain character opens a token. A text that is nested in this way to some depth
consists of plain characters after as many rounds. Cutting such a text anywhere but inside a token
gives such texts, and so does putting them together or into a template.

* `Text.TokenFree`: a text without characters of tokens.
* `PlainChars`, `Settles`: which characters are plain, and how deep the tokens of a text are nested.
* `Settles.expand`: a text that settles expands to plain characters.
* `Settles.part`, `Settles.replaced`, `Settles.of_expand?`: what keeps the property.
-/

namespace Cascade

/-- A text without a character that can be part of a token. -/
def Text.TokenFree (text : Text) : Prop :=
  ∀ c ∈ text, Token.isTokenChar c = false

instance (text : Text) : Decidable text.TokenFree :=
  List.decidableBAll (fun c => Token.isTokenChar c = false) text

/-- Characters that texts may have besides tokens: they do not open tokens, and the dollar sign is
one of them, since a template can give one. -/
structure Token.PlainChars (plain : Char → Prop) : Prop where
  not_openMark : ¬ plain openMark
  dollar : plain '$'

theorem Token.PlainChars.ne_openMark {plain : Char → Prop} {c : Char} (h : PlainChars plain)
    (hc : plain c) : c ≠ openMark := by
  rintro rfl
  exact h.not_openMark hc

/-- Characters that are part of no token are plain. -/
theorem Token.plainChars_tokenFree : PlainChars fun c => isTokenChar c = false where
  not_openMark := by decide
  dollar := by decide

/-- All characters are plain but the one that opens tokens. -/
theorem Token.plainChars_ne_openMark : PlainChars (· ≠ openMark) where
  not_openMark h := h rfl
  dollar := by decide

namespace Tree

open Token Text Replacement

variable {plain : Char → Prop} {t : Tree} {field : Node → Text} {k n : Nat} {a b text : Text}

/-- Nothing is expanded in a text without tokens. -/
theorem ExpandsTo.of_forall_ne (h : ∀ c ∈ text, c ≠ openMark) :
    ExpandsTo t field k text text := by
  induction text with
  | nil => exact .nil
  | cons c rest ih =>
    obtain ⟨hc, hrest⟩ := List.forall_mem_cons.1 h
    exact .plain hc (ih hrest)

/-- A text consists of plain characters and of tokens that belong to nodes, and these are nested at
most `depth` deep in the texts of the nodes. -/
inductive Settles (plain : Char → Prop) (t : Tree) (field : Node → Text) :
    (depth : Nat) → Text → Prop where
  | nil {depth : Nat} : Settles plain t field depth []
  | plain {depth : Nat} {c : Char} {rest : Text} (hc : plain c)
      (hrest : Settles plain t field depth rest) : Settles plain t field depth (c :: rest)
  | token {depth : Nat} {token rest : Text} {i : NodeId} (htoken : isToken token)
      (howner : t.owner? token = some i)
      (hfield : Settles plain t field depth (field (t.node i)))
      (hrest : Settles plain t field (depth + 1) rest) :
      Settles plain t field (depth + 1) (token ++ rest)

namespace Settles

theorem mono (h : Settles plain t field k text) (hkn : k ≤ n) : Settles plain t field n text := by
  induction h generalizing n with
  | nil => exact .nil
  | plain hc _ ih => exact .plain hc (ih hkn)
  | token htoken howner _ _ ih ih' =>
    -- both parts of a token get the same room
    obtain ⟨m, rfl⟩ := Nat.exists_eq_add_of_le hkn
    rw [Nat.add_right_comm] at hkn ⊢
    exact .token htoken howner (ih (Nat.le_add_right _ _)) (ih' hkn)

theorem append (ha : Settles plain t field k a) (hb : Settles plain t field k b) :
    Settles plain t field k (a ++ b) := by
  induction ha with
  | nil => exact hb
  | plain hc _ ih => exact .plain hc (ih hb)
  | token htoken howner hfield _ _ ih =>
    rw [List.append_assoc]
    exact .token htoken howner hfield (ih hb)

theorem of_forall (h : ∀ c ∈ text, plain c) : Settles plain t field k text := by
  induction text with
  | nil => exact .nil
  | cons c rest ih =>
    obtain ⟨hc, hrest⟩ := List.forall_mem_cons.1 h
    exact .plain hc (ih hrest)

/-! ## Expanding -/

section

variable (hplain : PlainChars plain)

include hplain

/-- A text that settles is expanded to plain characters. -/
theorem expandsTo (h : Settles plain t field k text) :
    ∃ result, ExpandsTo t field k text result ∧ ∀ c ∈ result, plain c := by
  induction h with
  | nil => exact ⟨[], .nil, List.forall_mem_nil _⟩
  | @plain _ c _ hc _ ih =>
    obtain ⟨result, hrest, hresult⟩ := ih
    exact ⟨c :: result, .plain (hplain.ne_openMark hc) hrest, List.forall_mem_cons.2 ⟨hc, hresult⟩⟩
  | token htoken howner _ _ ih ih' =>
    obtain ⟨text, hfield, htext⟩ := ih
    obtain ⟨result, hrest, hresult⟩ := ih'
    exact ⟨text ++ result, .known htoken howner hfield hrest,
      List.forall_mem_append.2 ⟨htext, hresult⟩⟩

/-- A settled text expands to plain characters. -/
theorem expand (h : Settles plain t field k text) (hk : k ≤ t.size + 1) :
    ∀ c ∈ t.expand field text, plain c := by
  obtain ⟨result, hexpands, hresult⟩ := h.expandsTo hplain
  rwa [hexpands.expand_eq hk]

/-! ## Cutting -/

/-- A text may be cut where no token is cut. The text starts at byte position `offset`. -/
theorem cut (h : Settles plain t field k text) (offset : Nat) {front back : Text}
    (heq : text = front ++ back)
    (hspared : ∀ s ∈ findFrom offset none text,
      ¬ (s.start < offset + front.byteLength ∧ offset + front.byteLength < s.stop)) :
    Settles plain t field k front ∧ Settles plain t field k back := by
  induction h generalizing offset front with
  | nil =>
    obtain ⟨rfl, rfl⟩ := List.append_eq_nil_iff.1 heq.symm
    exact ⟨.nil, .nil⟩
  | @plain depth c rest hc hrest ih =>
    -- a cut before the character, or one further behind
    cases front with
    | nil =>
      obtain rfl : c :: rest = back := by simpa using heq
      exact ⟨.nil, .plain hc hrest⟩
    | cons d front =>
      obtain ⟨rfl, rfl⟩ : c = d ∧ rest = front ++ back := by simpa using heq
      have hoffset : offset + Text.byteLength (c :: front) =
          offset + c.utf8Size + Text.byteLength front := by
        rw [Text.byteLength, Nat.add_assoc]
      rw [findFrom_cons_of_ne_openMark (hplain.ne_openMark hc), hoffset] at hspared
      obtain ⟨hfront, hback⟩ := ih _ rfl hspared
      exact ⟨.plain hc hfront, hback⟩
  | @token depth token rest i htoken howner hfield hrest _ ih =>
    rw [findFrom_token htoken] at hspared
    rcases Nat.lt_or_ge front.byteLength token.byteLength with hlt | hge
    · -- a cut before the end of the token can only be one before its start
      have hzero : front.byteLength = 0 := by
        by_contra hpos
        exact hspared _ List.mem_cons_self
          ⟨Nat.lt_add_of_pos_right (Nat.pos_of_ne_zero hpos), Nat.add_lt_add_left hlt offset⟩
      obtain rfl := byteLength_eq_zero hzero
      obtain rfl : token ++ rest = back := by simpa using heq
      exact ⟨.nil, .token htoken howner hfield hrest⟩
    · obtain ⟨front, rfl, rfl⟩ := append_eq_append_of_byteLength_le heq hge
      rw [byteLength_append, ← Nat.add_assoc] at hspared
      obtain ⟨hfront, hback⟩ := ih _ rfl fun s hs => hspared s (List.mem_cons_of_mem _ hs)
      exact ⟨.token htoken howner hfield hfront, hback⟩

end

end Settles

/-- Neither end of a span lies inside a token of a text that starts at byte position `offset`. -/
def Spares (offset : Nat) (text : Text) (span : Span) : Prop :=
  ∀ s ∈ findFrom offset none text,
    ¬ (s.start < span.start ∧ span.start < s.stop) ∧ ¬ (s.start < span.stop ∧ span.stop < s.stop)

instance (offset : Nat) (text : Text) (span : Span) : Decidable (Spares offset text span) :=
  inferInstanceAs (Decidable (∀ s ∈ findFrom offset none text,
    ¬ (s.start < span.start ∧ span.start < s.stop) ∧
      ¬ (s.start < span.stop ∧ span.stop < s.stop)))

namespace Settles

section

variable (hplain : PlainChars plain)

include hplain

/-- The part of a text where a span stands that cuts no token. -/
theorem part {span : Span} {part : Text} (h : Settles plain t field k text)
    (hat : text.At span part) (hspares : Spares 0 text span) : Settles plain t field k part := by
  obtain ⟨before, behind, rfl, hstart, hstop⟩ := hat
  -- first the part and all behind it is cut off, then the part
  rw [List.append_assoc] at h hspares
  rw [byteLength_append] at hstop
  obtain ⟨-, hrest⟩ := h.cut hplain 0 rfl fun s hs => by
    rw [Nat.zero_add, hstart]
    exact (hspares s hs).1
  obtain ⟨hpart, -⟩ := hrest.cut hplain (0 + before.byteLength) rfl fun s hs => by
    rw [Nat.zero_add, hstop]
    exact (hspares s (findFrom_subset_append 0 before (part ++ behind) hs)).2
  exact hpart

/-- Replacing parts of a text by texts that settle, without cutting a token. -/
theorem replaced {offset : Nat} {changes : List Change} {before after : Text}
    (hreplaced : Replaced offset changes before after) (h : Settles plain t field k before)
    (hspares : ∀ c ∈ changes, Spares offset before c.span)
    (hnew : ∀ c ∈ changes, Settles plain t field n c.new) (hkn : k ≤ n) :
    Settles plain t field n after := by
  induction hreplaced with
  | nil => exact h.mono hkn
  | @cons offset gap old new changes rest rest' _ ih =>
    obtain ⟨hfirst, hlater⟩ := List.forall_mem_cons.1 hspares
    obtain ⟨hnew, hnews⟩ := List.forall_mem_cons.1 hnew
    rw [List.append_assoc] at h hfirst hlater
    obtain ⟨hgap, hbehind⟩ := h.cut hplain offset rfl fun s hs => (hfirst s hs).1
    -- the tokens behind the first change are among those of the whole text
    have hsub := findFrom_subset_append offset gap (old ++ rest)
    have hsub' := findFrom_subset_append (offset + gap.byteLength) old rest
    obtain ⟨-, hrest⟩ := hbehind.cut hplain (offset + gap.byteLength) rfl fun s hs =>
      (hfirst s (hsub hs)).2
    have htail : Settles plain t field n rest' :=
      ih hrest (fun c hc s hs => hlater c hc s (hsub (hsub' hs))) hnews
    exact ((hgap.mono hkn).append hnew).append htail

/-! ## Templates -/

/-- What the segments of a template stand for consists of characters of the template and of the
texts of its keys. -/
theorem values {lookup : Text → Text} (hlookup : ∀ key, Settles plain t field k (lookup key))
    {segments : List Segment} (h : ∀ c ∈ written segments, plain c) :
    Settles plain t field k (Replacement.values lookup segments) := by
  induction segments with
  | nil => exact .nil
  | cons s segments ih =>
    rw [written_cons, List.forall_mem_append] at h
    obtain ⟨hs, hsegments⟩ := h
    refine Settles.append ?_ (ih hsegments)
    -- a key stands for a text that settles, whatever the characters of the key are
    cases s with
    | plain c => exact .plain (hs c List.mem_cons_self) .nil
    | escape | lone => exact .plain hplain.dollar .nil
    | digit d => exact hlookup [d]
    | key name => exact hlookup name

/-- A template of plain characters stands for a text that settles if its keys do. -/
theorem of_expand? {lookup : Text → Text} (hlookup : ∀ key, Settles plain t field k (lookup key))
    {template : Text} (htemplate : ∀ c ∈ template, plain c)
    (h : expand? lookup template = some text) : Settles plain t field k text := by
  obtain ⟨segments, -, rfl, rfl⟩ := expand?_eq_some_iff.1 h
  exact values hplain hlookup htemplate

end

/-- A key stands for what a group has captured, or for nothing. -/
theorem groupText {captures : Captures}
    (h : ∀ group, some group ∈ captures.groups → Settles plain t field k group.text) (key : Text) :
    Settles plain t field k (Replacement.groupText captures key) := by
  -- a group is found by its number in the end, also if the key is a name
  have hget (number : Nat) (text : Text) (hnumber : captures.get? number = some text) :
      Settles plain t field k text := by
    simp only [Captures.get?, Option.bind_eq_bind, Option.bind_eq_some_iff] at hnumber
    obtain ⟨group, hgroup, htext⟩ := hnumber
    split at htext
    · contradiction
    · obtain rfl := Option.some.inj htext
      exact h group (List.mem_of_getElem? (Option.join_eq_some_iff.1 hgroup))
  have hgetD (found : Option Text)
      (hfound : ∀ text, found = some text → Settles plain t field k text) :
      Settles plain t field k (found.getD []) := by
    cases found with
    | none => exact .nil
    | some text => exact hfound text rfl
  unfold Replacement.groupText
  split
  · exact hgetD _ fun text htext => hget _ text htext
  · refine hgetD _ fun text htext => ?_
    simp only [Captures.named?, Option.bind_eq_bind, Option.bind_eq_some_iff] at htext
    obtain ⟨numbers, -, htext⟩ := htext
    obtain ⟨number, -, hnumber⟩ := List.exists_of_findSome?_eq_some htext
    exact hget number text hnumber

end Settles

end Tree

end Cascade
