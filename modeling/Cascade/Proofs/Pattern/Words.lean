import Cascade.Pattern
import Cascade.Proofs.Text.Span
import Mathlib.Computability.Language

/-!
# Patterns of literal characters and ranges

Characters outside of ASCII stand for themselves in a pattern. With ranges of them in classes and
the sign for at least one, they make patterns whose words can be told without an engine. An engine
that gives them their usual meaning compiles such patterns, and finds the words from left to right.

* `Stretch`, `Stretch.spelling`, `Stretch.language`: such patterns and their words.
* `Leftmost`: matches are found from left to right, each behind the one before it.
* `PatternCompiler.HasUsualMeaning`: what is required of an engine.
* `Leftmost.mem_iff`: where no two words overlap, all of them are found.
-/

namespace Cascade

namespace Pattern

open scoped Computability

/-- A text that is not empty and that has no character of ASCII. -/
structure IsPlain (t : Text) : Prop where
  ne_nil : t ≠ []
  wide : ∀ c ∈ t, 0x80 ≤ c.toNat

theorem IsPlain.singleton {c : Char} (hc : 0x80 ≤ c.toNat) : IsPlain [c] :=
  ⟨List.cons_ne_nil c [], by simpa using hc⟩

/-- A plain text, and behind it at least one character of a range. -/
structure Stretch where
  text : Text
  first : Char
  last : Char
  isPlain : IsPlain text
  wide : 0x80 ≤ first.toNat
  le : first.toNat ≤ last.toNat

namespace Stretch

/-- The characters of the range of a stretch. -/
def Has (s : Stretch) (c : Char) : Prop :=
  s.first.toNat ≤ c.toNat ∧ c.toNat ≤ s.last.toNat

/-- The texts that a range stands for if at least one of its characters is wanted. -/
def runs (s : Stretch) : Language Char :=
  {u | u ≠ [] ∧ ∀ c ∈ u, s.Has c}

/-- How stretches are written in a pattern, with a text behind the last of them. -/
def spelling (ending : Text) : List Stretch → Text
  | [] => ending
  | s :: others =>
    s.text ++ '[' :: s.first :: '-' :: s.last :: ']' :: '+' :: spelling ending others

/-- The words of stretches, with a text behind the last of them. -/
def language (ending : Text) : List Stretch → Language Char
  | [] => {ending}
  | s :: others => {s.text} * (s.runs * language ending others)

/-- A word has the text of the first stretch, characters of its range, and a word of the others. -/
theorem mem_language_cons_iff {s : Stretch} {others : List Stretch} {ending u : Text} :
    u ∈ language ending (s :: others) ↔
      ∃ run v, run ≠ [] ∧ (∀ c ∈ run, s.Has c) ∧ v ∈ language ending others ∧
        s.text ++ (run ++ v) = u := by
  constructor
  · intro hu
    obtain ⟨_, rfl, w, hw, rfl⟩ := Language.mem_mul.1 hu
    obtain ⟨run, ⟨hne, hall⟩, v, hv, rfl⟩ := Language.mem_mul.1 hw
    exact ⟨run, v, hne, hall, hv, rfl⟩
  · rintro ⟨run, v, hne, hall, hv, rfl⟩
    exact Language.append_mem_mul rfl (Language.append_mem_mul ⟨hne, hall⟩ hv)

theorem nil_notMem_language {ending : Text} (h : IsPlain ending) (stretches : List Stretch) :
    [] ∉ language ending stretches := by
  cases stretches with
  | nil => exact fun hnil => h.ne_nil hnil.symm
  | cons s others =>
    intro hnil
    obtain ⟨run, v, -, -, -, hword⟩ := mem_language_cons_iff.1 hnil
    exact s.isPlain.ne_nil (List.append_eq_nil_iff.1 hword).1

end Stretch

/-! ## Searching from left to right -/

/-- A search from left to right in what is left of a text from a byte position on. Where the first
word stands, one that starts there is reported, and the search goes on behind it. -/
inductive Leftmost (L : Language Char) : (offset : Nat) → (rest : Text) → List Span → Prop where
  | done {offset : Nat} {rest : Text} (hnone : ∀ gap, ∀ u ∈ L, ¬ gap ++ u <+: rest) :
      Leftmost L offset rest []
  | found {offset : Nat} {gap u rest : Text} {spans : List Span} (hu : u ∈ L)
      (hfirst : ∀ gap', ∀ v ∈ L, gap' ++ v <+: gap ++ (u ++ rest) → gap.length ≤ gap'.length)
      (hmore : Leftmost L (offset + (gap ++ u).byteLength) rest spans) :
      Leftmost L offset (gap ++ (u ++ rest))
        (⟨offset + gap.byteLength, offset + (gap ++ u).byteLength⟩ :: spans)

/-- No word of a language is empty, and no two of them overlap: in any text two words are the same
part, or one stands behind the other. -/
structure Isolated (L : Language Char) : Prop where
  nil_notMem : [] ∉ L
  overlap : ∀ ⦃a u b a' u' b' : Text⦄, u ∈ L → u' ∈ L →
    a ++ (u ++ b) = a' ++ (u' ++ b') →
      (a = a' ∧ u = u' ∧ b = b') ∨ (∃ gap, a' = a ++ (u ++ gap) ∧ b = gap ++ (u' ++ b')) ∨
        ∃ gap, a = a' ++ (u' ++ gap) ∧ b' = gap ++ (u ++ b)

section Leftmost

variable {L : Language Char} {offset : Nat} {rest text : Text} {span : Span} {spans : List Span}

/-- Where no two words overlap, a search reports each word that is left. -/
theorem Leftmost.mem_iff_prefix (hisolated : Isolated L) (h : Leftmost L offset rest spans) :
    span ∈ spans ↔ ∃ gap, ∃ u ∈ L, gap ++ u <+: rest ∧
      span = ⟨offset + Text.byteLength gap, offset + Text.byteLength (gap ++ u)⟩ := by
  induction h with
  | done hnone =>
    simp only [List.not_mem_nil, false_iff]
    rintro ⟨gap, u, hu, hcomes, -⟩
    exact hnone gap u hu hcomes
  | @found offset gap u rest spans hu hfirst _ ih =>
    rw [List.mem_cons, ih]
    constructor
    · rintro (rfl | ⟨gap', v, hv, ⟨rest', rfl⟩, rfl⟩)
      · exact ⟨gap, u, hu, ⟨rest, by simp⟩, rfl⟩
      · refine ⟨gap ++ u ++ gap', v, hv, ⟨rest', by simp⟩, ?_⟩
        simp only [Text.byteLength_append, Nat.add_assoc]
    · rintro ⟨gap', v, hv, ⟨rest', hrest'⟩, rfl⟩
      have heq : gap ++ (u ++ rest) = gap' ++ (v ++ rest') := by
        rw [← List.append_assoc gap' v rest', hrest']
      -- a word that stands elsewhere stands behind the first match
      rcases hisolated.overlap hu hv heq with
        ⟨rfl, rfl, -⟩ | ⟨between, rfl, rfl⟩ | ⟨between, rfl, -⟩
      · exact .inl rfl
      · refine .inr ⟨between, v, hv, ⟨rest', by simp⟩, ?_⟩
        simp only [Text.byteLength_append, Nat.add_assoc]
      · have hle := hfirst gap' v hv ⟨rest', hrest'⟩
        have hpos := List.length_pos_iff.2 (show v ≠ [] by
          rintro rfl
          exact hisolated.nil_notMem hv)
        simp only [List.length_append] at hle
        omega

/-- Where no two words overlap, a search of a text reports each word that stands in it. -/
theorem Leftmost.mem_iff (hisolated : Isolated L) (h : Leftmost L 0 text spans) :
    span ∈ spans ↔ ∃ u ∈ L, text.At span u := by
  rw [h.mem_iff_prefix hisolated]
  constructor
  · rintro ⟨gap, u, hu, ⟨rest, hrest⟩, rfl⟩
    exact ⟨u, hu, gap, rest, hrest.symm, by simp, by simp⟩
  · rintro ⟨u, hu, gap, rest, hrest, hstart, hstop⟩
    refine ⟨gap, u, hu, ⟨rest, hrest.symm⟩, ?_⟩
    cases span
    simp_all

end Leftmost

/-- Searching a text for a pattern reports a match at a span. -/
def Selects (p : Pattern) (text : Text) (span : Span) : Prop :=
  ∃ m ∈ p.scan text, m.span = span

end Pattern

/-! ## What is required of an engine -/

namespace PatternCompiler

open Pattern

variable {compiler : PatternCompiler} {ending : Text}

/-- Literal characters, ranges in classes, and the sign for at least one have their usual meaning:
a pattern made of them is compiled, and it finds its words from left to right. -/
def HasUsualMeaning (compiler : PatternCompiler) : Prop :=
  ∀ ending stretches, IsPlain ending →
    ∃ p, Pattern.compile compiler (Stretch.spelling ending stretches) = .ok p ∧
      ∀ text, Leftmost (Stretch.language ending stretches) 0 text ((p.scan text).map Match.span)

/-- A pattern whose words do not overlap selects each of them, wherever it stands. -/
theorem HasUsualMeaning.exists_selects (h : compiler.HasUsualMeaning) (stretches : List Stretch)
    (hending : IsPlain ending) (hisolated : Isolated (Stretch.language ending stretches)) :
    ∃ p, Pattern.compile compiler (Stretch.spelling ending stretches) = .ok p ∧
      ∀ text span, p.Selects text span ↔
        ∃ u ∈ Stretch.language ending stretches, text.At span u := by
  obtain ⟨p, hcompile, hleftmost⟩ := h ending stretches hending
  refine ⟨p, hcompile, fun text span => ?_⟩
  rw [← (hleftmost text).mem_iff hisolated, Selects, List.mem_map]

end PatternCompiler

end Cascade
