import Cascade.Proofs.Engine.Semantics
import Cascade.Proofs.Text.Span

/-!
# What is relied on when patterns search texts

Nothing is known of the patterns of a grammar but that what they report stands in the text, and that
their matches stand one behind the other.

* `Grammar.Faithful`, `Grammar.Ordered`: the two assumptions.
* `Grammar.CapturesFaithfully`: a third one, where captured groups matter.
* `Grammar.Advances`: a stronger one than the second, where it matters which of two matches comes
  first.
* `PatternCompiler.Reliable`: an engine all of whose patterns satisfy the first three.
* `Pattern.first`, `Grammar.ofWord`: the simplest pattern and the simplest grammar for which all of
  them hold.
-/

namespace Cascade

/-- The matched text of each match stands in the text where the match says. -/
def Pattern.Faithful (p : Pattern) : Prop :=
  ∀ text, ∀ m ∈ p.scan text, text.At m.span m.captures.whole

/-- Matches do not overlap, and come in the order of where they stand. -/
def Pattern.Ordered (p : Pattern) : Prop :=
  ∀ text, Text.InOrder ((p.scan text).map Match.span)

/-- Each match starts behind where the one before it starts, and not before this one stops. -/
def Pattern.Advances (p : Pattern) : Prop :=
  ∀ text, ((p.scan text).map Match.span).Pairwise fun s s' =>
    s.start < s'.start ∧ s.stop ≤ s'.start

/-- What the groups of each match have captured stands in the text where they say. -/
def Pattern.CapturesFaithfully (p : Pattern) : Prop :=
  ∀ text, ∀ m ∈ p.scan text, ∀ group, some group ∈ m.captures.groups →
    text.At group.span group.text

/-- An engine whose patterns can be relied on: what they report stands in the text, in order. -/
structure PatternCompiler.Reliable (compiler : PatternCompiler) : Prop where
  faithful : ∀ source p, Pattern.compile compiler source = .ok p → p.Faithful
  ordered : ∀ source p, Pattern.compile compiler source = .ok p → p.Ordered
  capturesFaithfully : ∀ source p, Pattern.compile compiler source = .ok p → p.CapturesFaithfully

/-- A match that starts behind where another one starts and not before this one stops stands behind
it. -/
theorem Pattern.Advances.ordered {p : Pattern} (h : p.Advances) : p.Ordered :=
  fun text => (h text).imp And.right

namespace Grammar

/-- The patterns of all rules are faithful. -/
def Faithful (g : Grammar) : Prop :=
  ∀ r ∈ g.rules, ∀ p, r.pattern? = some p → p.Faithful

/-- The patterns of all rules are ordered. -/
def Ordered (g : Grammar) : Prop :=
  ∀ r ∈ g.rules, ∀ p, r.pattern? = some p → p.Ordered

/-- The patterns of all rules advance. -/
def Advances (g : Grammar) : Prop :=
  ∀ r ∈ g.rules, ∀ p, r.pattern? = some p → p.Advances

/-- The groups of all patterns are faithful. -/
def CapturesFaithfully (g : Grammar) : Prop :=
  ∀ r ∈ g.rules, ∀ p, r.pattern? = some p → p.CapturesFaithfully

/-- A rule that searches is a rule of the grammar, with its own pattern. -/
theorem mem_rules_of_searcher? {g : Grammar} {own : State} {id : RuleId} {child : Rule}
    {pattern : Pattern} (h : g.searcher? own id = some (child, pattern)) :
    child ∈ g.rules ∧ child.pattern? = some pattern := by
  unfold searcher? at h
  simp only [Option.bind_eq_bind, Option.bind_eq_some_iff] at h
  obtain ⟨child', hchild, pattern', hpattern, h⟩ := h
  split at h
  · contradiction
  · obtain ⟨rfl, rfl⟩ : child' = child ∧ pattern' = pattern := by simpa using h
    exact ⟨Array.mem_of_getElem? hchild, hpattern⟩

/-- A rule that searches is not skipped. -/
theorem skips_of_searcher? {g : Grammar} {own : State} {id : RuleId} {child : Rule}
    {pattern : Pattern} (h : g.searcher? own id = some (child, pattern)) :
    own.skips child.name = false := by
  unfold searcher? at h
  simp only [Option.bind_eq_bind, Option.bind_eq_some_iff] at h
  obtain ⟨child', -, pattern', -, h⟩ := h
  split at h
  · contradiction
  · next hskips =>
    obtain ⟨rfl, rfl⟩ : child' = child ∧ pattern' = pattern := by simpa using h
    exact Bool.eq_false_iff.2 hskips

end Grammar

namespace Pattern

/-- The pattern that matches a part of a text where it occurs first, and nowhere else. -/
def first (part : Text) : Pattern where
  source := part
  scan text :=
    match Text.cutAt? part text with
    | none => []
    | some (before, _) =>
      let span : Span := ⟨before.byteLength, (before ++ part).byteLength⟩
      [⟨span, ⟨[some ⟨part, span⟩], []⟩⟩]

/-- The first occurrence of a part stands where it is found. -/
theorem first_faithful (part : Text) : (first part).Faithful := by
  intro text m hm
  simp only [first] at hm
  split at hm
  · contradiction
  · next before behind hcut =>
    obtain rfl := List.mem_singleton.1 hm
    -- the first group is the match itself
    have hwhole (span : Span) : Captures.whole ⟨[some ⟨part, span⟩], []⟩ = part := by
      cases part <;> rfl
    rw [hwhole]
    exact ⟨before, behind, Text.eq_append_of_cutAt? hcut, rfl, rfl⟩

/-- The one group of the first occurrence is the occurrence itself. -/
theorem first_capturesFaithfully (part : Text) : (first part).CapturesFaithfully := by
  intro text m hm group hgroup
  simp only [first] at hm
  split at hm
  · contradiction
  · next before behind hcut =>
    obtain rfl := List.mem_singleton.1 hm
    obtain rfl := Option.some.inj (List.mem_singleton.1 hgroup)
    exact ⟨before, behind, Text.eq_append_of_cutAt? hcut, rfl, rfl⟩

/-- One match alone is in order. -/
theorem first_ordered (part : Text) : (first part).Ordered := by
  intro text
  simp only [first]
  split
  · exact List.Pairwise.nil
  · exact List.pairwise_singleton ..

/-- One match alone has none to come behind. -/
theorem first_advances (part : Text) : (first part).Advances := by
  intro text
  simp only [first]
  split
  · exact List.Pairwise.nil
  · exact List.pairwise_singleton ..

/-- The matches of a character in what is left of a text behind `offset` bytes. -/
def eachFrom (c : Char) (offset : Nat) : Text → List Match
  | [] => []
  | d :: rest =>
    let span : Span := ⟨offset, offset + d.utf8Size⟩
    if d = c then ⟨span, ⟨[some ⟨[d], span⟩], []⟩⟩ :: eachFrom c span.stop rest
    else eachFrom c span.stop rest

/-- The pattern that matches a character wherever it occurs. -/
def each (c : Char) : Pattern where
  source := [c]
  scan := eachFrom c 0

/-- A character is found where the search goes on, or later. -/
theorem le_start_of_mem_eachFrom {c : Char} {m : Match} {offset : Nat} {text : Text}
    (hm : m ∈ eachFrom c offset text) : offset ≤ m.span.start := by
  induction text generalizing offset with
  | nil => contradiction
  | cons d rest ih =>
    have hrest (hm : m ∈ eachFrom c (offset + d.utf8Size) rest) : offset ≤ m.span.start :=
      Nat.le_trans (Nat.le_add_right _ _) (ih hm)
    rw [eachFrom] at hm
    split at hm
    · rcases List.mem_cons.1 hm with rfl | hm
      · exact Nat.le_refl _
      · exact hrest hm
    · exact hrest hm

/-- The occurrences of a character stand one behind the other. -/
theorem each_advances (c : Char) : (each c).Advances := by
  suffices h : ∀ text offset, ((eachFrom c offset text).map Match.span).Pairwise fun s s' =>
      s.start < s'.start ∧ s.stop ≤ s'.start from fun text => h text 0
  intro text
  induction text with
  | nil => exact fun _ => .nil
  | cons d rest ih =>
    intro offset
    rw [eachFrom]
    split
    · -- what is found in the rest starts where the first match stops, or behind
      refine List.pairwise_cons.2 ⟨List.forall_mem_map.2 fun m hm => ?_, ih _⟩
      have hle : offset + d.utf8Size ≤ m.span.start := le_start_of_mem_eachFrom hm
      exact ⟨Nat.lt_of_lt_of_le (Nat.lt_add_of_pos_right d.utf8Size_pos) hle, hle⟩
    · exact ih _

end Pattern

namespace Grammar

/-- The rule that matches a word. -/
def wordRule (word : Text) (hooks : Hooks) : Rule :=
  { id := .ofIndex 1, name := ['w'], pattern? := some (.first word), children := [], hooks }

/-- The grammar of two rules where the one below the root matches a word. -/
def ofWord (word : Text) (hooks : Hooks) : Grammar :=
  let text : Rule :=
    { id := .ofIndex 0, name := ['t'], pattern? := none, children := [.ofIndex 1],
      hooks := .identity }
  { rules := #[text, wordRule word hooks], root := text }

/-- The rule that matches a word in what the rule of another word has matched. -/
def innerRule (word : Text) (hooks : Hooks) : Rule :=
  { id := .ofIndex 2, name := ['v'], pattern? := some (.first word), children := [], hooks }

/-- The rule that matches a word, with another one below it. -/
def outerRule (word : Text) (hooks : Hooks) : Rule :=
  { wordRule word hooks with children := [.ofIndex 2] }

/-- The grammar of three rules where the one below the root matches a word, and the one below that
matches another word in it. -/
def ofNested (outer inner : Text) (rootHooks outerHooks innerHooks : Hooks) : Grammar :=
  let text : Rule := { (ofWord outer outerHooks).root with hooks := rootHooks }
  { rules := #[text, outerRule outer outerHooks, innerRule inner innerHooks], root := text }

/-- The grammar of three rules where the first one below the root matches a character wherever it
occurs, and the second one a word. -/
def ofPair (c : Char) (word : Text) (hooks : Hooks) : Grammar :=
  let text : Rule := { (ofWord word hooks).root with children := [.ofIndex 1, .ofIndex 2] }
  { rules := #[text, { wordRule [c] hooks with pattern? := some (.each c) }, innerRule word hooks],
    root := text }

/-- The patterns of the grammar of a character and a word advance. -/
theorem ofPair_advances (c : Char) (word : Text) (hooks : Hooks) :
    (ofPair c word hooks).Advances := by
  intro r hr p hp
  simp only [ofPair, Array.mem_def, List.mem_cons, List.not_mem_nil, or_false] at hr
  rcases hr with rfl | rfl | rfl
  · contradiction
  · obtain rfl := Option.some.inj hp
    exact Pattern.each_advances c
  · obtain rfl := Option.some.inj hp
    exact Pattern.first_advances word

variable {word : Text} {hooks : Hooks}

/-- What holds of the root and of the rule of the word holds of all rules. -/
theorem forall_mem_ofWord {P : Rule → Prop} (hroot : P (ofWord word hooks).root)
    (hword : P (wordRule word hooks)) : ∀ r ∈ (ofWord word hooks).rules, P r := by
  intro r hr
  simp only [ofWord, Array.mem_def, List.mem_cons, List.not_mem_nil, or_false] at hr
  rcases hr with rfl | rfl
  · exact hroot
  · exact hword

theorem root_mem_ofWord : (ofWord word hooks).root ∈ (ofWord word hooks).rules := by
  simp [ofWord]

/-- The patterns of all rules are for words. -/
def OfWords (g : Grammar) : Prop :=
  ∀ r ∈ g.rules, ∀ p, r.pattern? = some p → ∃ word, p = .first word

namespace OfWords

variable {g : Grammar} (h : g.OfWords)

include h

/-- The patterns of words are faithful. -/
theorem faithful : g.Faithful := by
  intro r hr p hp
  obtain ⟨word, rfl⟩ := h r hr p hp
  exact Pattern.first_faithful word

/-- The groups of patterns of words are faithful. -/
theorem capturesFaithfully : g.CapturesFaithfully := by
  intro r hr p hp
  obtain ⟨word, rfl⟩ := h r hr p hp
  exact Pattern.first_capturesFaithfully word

/-- The patterns of words are ordered. -/
theorem ordered : g.Ordered := by
  intro r hr p hp
  obtain ⟨word, rfl⟩ := h r hr p hp
  exact Pattern.first_ordered word

end OfWords

/-- The grammar of a word has the pattern of the word alone. -/
theorem ofWords_ofWord (word : Text) (hooks : Hooks) : (ofWord word hooks).OfWords := by
  refine forall_mem_ofWord ?_ ?_
  · intro p hp
    contradiction
  · intro p hp
    exact ⟨word, (Option.some.inj hp).symm⟩

theorem ofWord_faithful (word : Text) (hooks : Hooks) : (ofWord word hooks).Faithful :=
  (ofWords_ofWord word hooks).faithful

theorem ofWord_capturesFaithfully (word : Text) (hooks : Hooks) :
    (ofWord word hooks).CapturesFaithfully :=
  (ofWords_ofWord word hooks).capturesFaithfully

theorem ofWord_ordered (word : Text) (hooks : Hooks) : (ofWord word hooks).Ordered :=
  (ofWords_ofWord word hooks).ordered

end Grammar

end Cascade
