import Cascade.Proofs.Pattern.Words
import Cascade.Proofs.Regex.Spelling
import Cascade.Proofs.Token.Scan
import Cascade.Token.Pattern

/-!
# What the patterns for tokens match

The patterns for tokens are plain texts with runs of glyphs between them. What they match is framed
by marks, so that matches do not overlap: wherever something stands in a text that looks like the
pattern, it is matched, and nothing else is. This is so for each engine that gives literal
characters, ranges and the sign for at least one their usual meaning, as regular expressions do.

* `exists_compile_fragment`, `exists_compile_anyTokenPattern`: what the patterns match.
* `selects_fragment`: the pattern for the tokens of a rule matches these tokens and no others.
* `selects_whole_of_decode`: which tokens are matched as a whole.
-/

namespace Cascade

namespace Token

open Cascade.Pattern (IsPlain Stretch Isolated)

variable {compiler : PatternCompiler} {rule text token t u n m : Text} {c : Char} {span : Span}
  {parts : Parts}

/-! ## Glyphs as plain texts -/

/-- Glyphs lie outside of ASCII. -/
theorem le_toNat_of_mem_glyphs (h : c ∈ glyphs text) : 0x80 ≤ c.toNat := by
  obtain ⟨byte, -, rfl⟩ := List.mem_map.1 h
  rw [toNat_glyph, glyphBase]
  omega

theorem isPlain_openMark : IsPlain [openMark] := .singleton (by decide)

theorem isPlain_separator : IsPlain [separator] := .singleton (by decide)

theorem isPlain_closeMark : IsPlain [closeMark] := .singleton (by decide)

/-- The front of a fragment is a plain text. -/
theorem isPlain_name (rule : Text) : IsPlain (openMark :: glyphs rule ++ [separator]) := by
  refine ⟨by simp, ?_⟩
  simp only [List.cons_append, List.mem_cons, List.mem_append, List.not_mem_nil, or_false]
  rintro c (rfl | hc | rfl)
  · decide
  · exact le_toNat_of_mem_glyphs hc
  · decide

/-- A text with the glyphs of a numeral behind it. -/
def digits (t : Text) (h : IsPlain t) : Stretch :=
  ⟨t, '\uF030', '\uF039', h, by decide, by decide⟩

/-- The pattern for the tokens of a rule, up to the closing mark. -/
def fragmentStretches (rule : Text) : List Stretch :=
  [digits (openMark :: glyphs rule ++ [separator]) (isPlain_name rule),
    digits [separator] isPlain_separator]

/-- The opening mark with some glyphs behind it. -/
def nameStretch : Stretch :=
  ⟨[openMark], '\uF000', '\uF0FF', isPlain_openMark, by decide, by decide⟩

/-- The pattern for all tokens, up to the closing mark. -/
def anyTokenStretches : List Stretch :=
  [nameStretch, digits [separator] isPlain_separator, digits [separator] isPlain_separator]

/-- The fragment of a rule is spelled by its stretches. -/
theorem spelling_fragmentStretches (rule : Text) :
    Stretch.spelling [closeMark] (fragmentStretches rule) = fragment rule := by
  simp [fragmentStretches, Stretch.spelling, fragment, digits, digitsPattern]

/-- The pattern for all tokens is spelled by its stretches. -/
theorem spelling_anyTokenStretches :
    Stretch.spelling [closeMark] anyTokenStretches = anyTokenPattern := by
  decide

/-! ## Runs of glyphs -/

theorem glyphs_append (a b : Text) : glyphs (a ++ b) = glyphs a ++ glyphs b := by
  simp [glyphs, Text.bytes]

/-- A digit has one glyph, that of its own byte. -/
theorem glyphs_digit {d : Char} (hd : d.isDigit) : glyphs [d] = [glyph (UInt8.ofNat d.toNat)] := by
  obtain ⟨hle, hle'⟩ := Text.toNat_of_isDigit hd
  have hchar : d = Char.ofNat d.toNat := (Char.ofNat_toNat d).symm
  generalize d.toNat = code at hle hle' hchar
  subst hchar
  interval_cases code <;> rfl

/-- The glyphs that may stand for digits are those of digits. -/
theorem has_digits_iff (h : IsPlain t) :
    (digits t h).Has c ↔ ∃ d : Char, d.isDigit ∧ glyphs [d] = [c] := by
  change 0xF030 ≤ c.toNat ∧ c.toNat ≤ 0xF039 ↔ _
  constructor
  · rintro ⟨hle, hle'⟩
    have hdigit : (Char.ofNat (c.toNat - glyphBase)).isDigit ∧
        glyphs [Char.ofNat (c.toNat - glyphBase)] = [c] := by
      have hchar : c = Char.ofNat c.toNat := (Char.ofNat_toNat c).symm
      generalize c.toNat = code at hle hle' hchar
      subst hchar
      interval_cases code <;> exact ⟨by decide, rfl⟩
    exact ⟨_, hdigit⟩
  · rintro ⟨d, hd, hglyph⟩
    obtain ⟨hle, hle'⟩ := Text.toNat_of_isDigit hd
    rw [glyphs_digit hd, List.cons.injEq] at hglyph
    rw [← hglyph.1, toNat_glyph, UInt8.toNat_ofNat', glyphBase]
    omega

/-- What the range of digits lets through are the glyphs of digits. -/
theorem forall_has_digits_iff (h : IsPlain t) :
    (∀ c ∈ u, (digits t h).Has c) ↔ ∃ n : Text, (∀ d ∈ n, d.isDigit) ∧ glyphs n = u := by
  induction u with
  | nil => exact ⟨fun _ => ⟨[], by simp, rfl⟩, fun _ => by simp⟩
  | cons c u ih =>
    rw [List.forall_mem_cons, ih, has_digits_iff]
    constructor
    · rintro ⟨⟨d, hd, hc⟩, n, hn, rfl⟩
      refine ⟨d :: n, List.forall_mem_cons.2 ⟨hd, hn⟩, ?_⟩
      rw [← List.singleton_append, glyphs_append, hc, List.singleton_append]
    · rintro ⟨n, hn, hglyphs⟩
      cases n with
      | nil => exact absurd hglyphs.symm (List.cons_ne_nil c u)
      | cons d n =>
        obtain ⟨hd, hn⟩ := List.forall_mem_cons.1 hn
        rw [← List.singleton_append, glyphs_append, glyphs_digit hd, List.singleton_append,
          List.cons.injEq] at hglyphs
        exact ⟨⟨d, hd, by rw [glyphs_digit hd, hglyphs.1]⟩, n, hn, hglyphs.2⟩

/-- The glyphs that may stand for digits, one or more of them, are those of numerals. -/
theorem digitRun_iff (h : IsPlain t) : (u ≠ [] ∧ ∀ c ∈ u, (digits t h).Has c) ↔
    ∃ n, Text.IsDigits n ∧ glyphs n = u := by
  rw [forall_has_digits_iff]
  constructor
  · rintro ⟨hne, n, hn, rfl⟩
    refine ⟨n, ⟨?_, hn⟩, rfl⟩
    rintro rfl
    exact hne rfl
  · rintro ⟨n, ⟨hne, hn⟩, rfl⟩
    exact ⟨glyphs_ne_nil hne, n, hn, rfl⟩

/-- Characters of the range of all glyphs stand for bytes. -/
theorem has_nameStretch_iff : nameStretch.Has c ↔ c ∈ Set.range glyph := by
  change 0xF000 ≤ c.toNat ∧ c.toNat ≤ 0xF0FF ↔ _
  simp only [Set.mem_range, ← unglyph?_eq_some_iff, ← Option.isSome_iff_exists]
  rw [unglyph?]
  split <;> simp_all [glyphBase]

/-- What the range of names lets through are the glyphs of bytes. -/
theorem forall_has_nameStretch_iff :
    (∀ c ∈ u, nameStretch.Has c) ↔ ∃ form : List UInt8, form.map glyph = u := by
  simp only [has_nameStretch_iff]
  exact (Set.ext_iff.1 (Set.range_list_map glyph) u).symm

/-! ## Words -/

/-- A word that goes on with digits. -/
theorem mem_language_digits_iff {ending : Text} (h : IsPlain t) (others : List Stretch) :
    u ∈ Stretch.language ending (digits t h :: others) ↔
      ∃ n v, Text.IsDigits n ∧ v ∈ Stretch.language ending others ∧
        t ++ (glyphs n ++ v) = u := by
  rw [Stretch.mem_language_cons_iff]
  constructor
  · rintro ⟨run, v, hne, hall, hv, rfl⟩
    obtain ⟨n, hn, rfl⟩ := (digitRun_iff h).1 ⟨hne, hall⟩
    exact ⟨n, v, hn, hv, rfl⟩
  · rintro ⟨n, v, hn, hv, rfl⟩
    obtain ⟨hne, hall⟩ := (digitRun_iff h).2 ⟨n, hn, rfl⟩
    exact ⟨glyphs n, v, hne, hall, hv, rfl⟩

/-- The words of the pattern for the tokens of a rule. -/
theorem mem_language_fragment_iff :
    u ∈ Stretch.language [closeMark] (fragmentStretches rule) ↔
      ∃ n m, Text.IsDigits n ∧ Text.IsDigits m ∧ spelled rule n m = u := by
  simp only [fragmentStretches, mem_language_digits_iff]
  constructor
  · rintro ⟨n, _, hn, ⟨m, _, hm, rfl, rfl⟩, rfl⟩
    exact ⟨n, m, hn, hm, by simp [spelled]⟩
  · rintro ⟨n, m, hn, hm, rfl⟩
    exact ⟨n, _, hn, ⟨m, _, hm, rfl, rfl⟩, by simp [spelled]⟩

/-- The words of the pattern for all tokens. -/
theorem mem_language_anyToken_iff :
    u ∈ Stretch.language [closeMark] anyTokenStretches ↔
      ∃ form n m, form ≠ [] ∧ Text.IsDigits n ∧ Text.IsDigits m ∧
        openMark :: (tokenBody (form.map glyph) n m ++ [closeMark]) = u := by
  rw [anyTokenStretches, Stretch.mem_language_cons_iff]
  simp only [mem_language_digits_iff]
  constructor
  · rintro ⟨run, _, hne, hall, ⟨n, _, hn, ⟨m, _, hm, rfl, rfl⟩, rfl⟩, rfl⟩
    obtain ⟨form, rfl⟩ := forall_has_nameStretch_iff.1 hall
    exact ⟨form, n, m, by simpa using hne, hn, hm, by simp [tokenBody, nameStretch]⟩
  · rintro ⟨form, n, m, hne, hn, hm, rfl⟩
    exact ⟨form.map glyph, _, by simpa using hne, forall_has_nameStretch_iff.2 ⟨form, rfl⟩,
      ⟨n, _, hn, ⟨m, _, hm, rfl, rfl⟩, rfl⟩, by simp [tokenBody, nameStretch]⟩

/-! ## What the patterns match -/

/-- What is framed by marks does not overlap. -/
theorem isolated_of_isFramed {L : Language Char} (h : ∀ u ∈ L, IsFramed u) : Isolated L where
  nil_notMem hnil := by
    obtain ⟨body, hbody, -⟩ := h [] hnil
    contradiction
  overlap _ _ _ _ _ _ hu hu' := (h _ hu).overlap (h _ hu')

/-- The pattern for the tokens of a rule matches wherever its name and two numerals without signs
spell something. -/
theorem exists_compile_fragment (hengine : compiler.HasUsualMeaning) (rule : Text) :
    ∃ p, Pattern.compile compiler (fragment rule) = .ok p ∧ ∀ text span, p.Selects text span ↔
      ∃ n m, Text.IsDigits n ∧ Text.IsDigits m ∧ text.At span (spelled rule n m) := by
  have hframed : ∀ u ∈ Stretch.language [closeMark] (fragmentStretches rule), IsFramed u := by
    simp only [mem_language_fragment_iff]
    rintro _ ⟨n, m, -, -, rfl⟩
    exact isFramed_spelled rule n m
  obtain ⟨p, hcompile, hselects⟩ :=
    hengine.exists_selects _ isPlain_closeMark (isolated_of_isFramed hframed)
  rw [spelling_fragmentStretches] at hcompile
  refine ⟨p, hcompile, fun text span => ?_⟩
  simp only [hselects, mem_language_fragment_iff]
  constructor
  · rintro ⟨_, ⟨n, m, hn, hm, rfl⟩, hat⟩
    exact ⟨n, m, hn, hm, hat⟩
  · rintro ⟨n, m, hn, hm, hat⟩
    exact ⟨_, ⟨n, m, hn, hm, rfl⟩, hat⟩

/-- The pattern for all tokens matches wherever some bytes and two numerals without signs spell
something. The bytes need not be a name. -/
theorem exists_compile_anyTokenPattern (hengine : compiler.HasUsualMeaning) :
    ∃ p, Pattern.compile compiler anyTokenPattern = .ok p ∧ ∀ text span, p.Selects text span ↔
      ∃ form n m, form ≠ [] ∧ Text.IsDigits n ∧ Text.IsDigits m ∧
        text.At span (openMark :: (tokenBody (form.map glyph) n m ++ [closeMark])) := by
  have hframed : ∀ u ∈ Stretch.language [closeMark] anyTokenStretches, IsFramed u := by
    simp only [mem_language_anyToken_iff]
    rintro _ ⟨form, n, m, -, -, -, rfl⟩
    exact isFramed_tokenBody form n m
  obtain ⟨p, hcompile, hselects⟩ :=
    hengine.exists_selects _ isPlain_closeMark (isolated_of_isFramed hframed)
  rw [spelling_anyTokenStretches] at hcompile
  refine ⟨p, hcompile, fun text span => ?_⟩
  simp only [hselects, mem_language_anyToken_iff]
  constructor
  · rintro ⟨_, ⟨form, n, m, hne, hn, hm, rfl⟩, hat⟩
    exact ⟨form, n, m, hne, hn, hm, hat⟩
  · rintro ⟨form, n, m, hne, hn, hm, hat⟩
    exact ⟨_, ⟨form, n, m, hne, hn, hm, rfl⟩, hat⟩

/-- If an engine gives literal characters, ranges and the sign for at least one their usual meaning,
then the pattern for the tokens of a rule selects the parts of a text that its name and two numerals
without signs spell. If these denote words, such a part is one of the tokens of the text and is read
as one of this rule. The minted tokens of the rule are all selected, wherever they stand, and in a
minted token of any rule nothing is selected unless it is the same rule. -/
theorem selects_fragment (hengine : compiler.HasUsualMeaning) (hrule : rule ≠ []) :
    ∃ p, Pattern.compile compiler (fragment rule) = .ok p ∧
      (∀ text span, p.Selects text span ↔
        ∃ n m, Text.IsDigits n ∧ Text.IsDigits m ∧ text.slice? span = some (spelled rule n m)) ∧
      (∀ text span n m, p.Selects text span → text.slice? span = some (spelled rule n m) →
        Text.valueOf n < Text.wordBound → Text.valueOf m < Text.wordBound →
          span ∈ findTokens text ∧
            decode (text.slice span) = some ⟨rule, Text.valueOf n, Text.valueOf m⟩) ∧
      (∀ text span occurrence sequence,
        text.slice? span = some (mint rule occurrence sequence) → p.Selects text span) ∧
      ∀ rule' occurrence sequence span, p.Selects (mint rule' occurrence sequence) span ↔
        rule = rule' ∧ span = ⟨0, (mint rule' occurrence sequence).byteLength⟩ := by
  obtain ⟨p, hcompile, hselects⟩ := exists_compile_fragment hengine rule
  simp only [← Text.slice?_eq_some_iff] at hselects
  have hmint (text : Text) (span : Span) (occurrence sequence : Nat)
      (hslice : text.slice? span = some (mint rule occurrence sequence)) : p.Selects text span :=
    (hselects text span).2
      ⟨_, _, Text.isDigits_decimal occurrence, Text.isDigits_decimal sequence, hslice⟩
  refine ⟨p, hcompile, hselects, fun text span n m hselected hslice hn hm => ?_, hmint,
    fun rule' occurrence sequence span => ⟨fun hselected => ?_, ?_⟩⟩
  · obtain ⟨n', m', hdigits, hdigits', hslice'⟩ := (hselects text span).1 hselected
    -- one text alone stands at the span, and so these are the numerals that have been matched
    obtain ⟨-, rfl, rfl⟩ := spelled_inj (Option.some.inj (hslice.symm.trans hslice'))
    exact mem_findTokens_of_spelled hrule (.plain hdigits hn) (.plain hdigits' hm)
      (Text.slice?_eq_some_iff.1 hslice)
  · obtain ⟨n, m, -, -, hslice⟩ := (hselects _ _).1 hselected
    obtain ⟨heq, hspan⟩ := (isFramed_spelled rule n m).eq_of_at
      (isFramed_spelled rule' (Text.decimal occurrence) (Text.decimal sequence))
      (Text.slice?_eq_some_iff.1 hslice)
    exact ⟨(spelled_inj heq).1, hspan⟩
  · rintro ⟨rfl, rfl⟩
    exact hmint _ _ _ _ (Text.slice?_eq_some_iff.2 (Text.at_whole_iff.2 rfl))

/-- With regular expressions, the pattern for the tokens of `a` finds one behind a stray opening
mark, and none in a token of `ab`. -/
theorem selects_fragment_stray : Regex.compiler.HasUsualMeaning ∧ ['a'] ≠ [] ∧
    ∃ p, Pattern.compile Regex.compiler (fragment ['a']) = .ok p ∧
      p.Selects ([openMark] ++ mint ['a'] 1 1) ⟨3, 24⟩ ∧
      ∀ span, ¬ p.Selects (mint ['a', 'b'] 1 1) span := by
  obtain ⟨p, hcompile, -, -, hmint, hother⟩ :=
    @selects_fragment Regex.compiler ['a'] Regex.hasUsualMeaning_compiler (by decide)
  have hslice : Text.slice? ([openMark] ++ mint ['a'] 1 1) ⟨3, 24⟩ = some (mint ['a'] 1 1) :=
    Text.slice?_eq_some_iff.2 ⟨[openMark], [], rfl, rfl, rfl⟩
  refine ⟨Regex.hasUsualMeaning_compiler, by decide, p, hcompile, hmint _ _ 1 1 hslice,
    fun span hselected => ?_⟩
  exact absurd ((hother ['a', 'b'] 1 1 span).1 hselected).1 (by decide)

/-! ## Tokens with signs -/

/-- As a whole, what a name and two numerals spell is matched if the numerals have no signs. -/
theorem exists_compile_fragment_whole (hengine : compiler.HasUsualMeaning) (rule : Text) :
    ∃ p, Pattern.compile compiler (fragment rule) = .ok p ∧
      ∀ n m, p.Selects (spelled rule n m) ⟨0, (spelled rule n m).byteLength⟩ ↔
        Text.IsDigits n ∧ Text.IsDigits m := by
  obtain ⟨p, hcompile, hselects⟩ := exists_compile_fragment hengine rule
  refine ⟨p, hcompile, fun n m => ?_⟩
  simp only [hselects, Text.at_whole_iff]
  constructor
  · rintro ⟨n', m', hn, hm, hspelled⟩
    obtain ⟨-, rfl, rfl⟩ := spelled_inj hspelled
    exact ⟨hn, hm⟩
  · rintro ⟨hn, hm⟩
    exact ⟨n, m, hn, hm, rfl⟩

/-- The same of the pattern for all tokens. -/
theorem exists_compile_anyTokenPattern_whole (hengine : compiler.HasUsualMeaning) :
    ∃ p, Pattern.compile compiler anyTokenPattern = .ok p ∧ ∀ (rule : Text) n m, rule ≠ [] →
      (p.Selects (spelled rule n m) ⟨0, (spelled rule n m).byteLength⟩ ↔
        Text.IsDigits n ∧ Text.IsDigits m) := by
  obtain ⟨p, hcompile, hselects⟩ := exists_compile_anyTokenPattern hengine
  refine ⟨p, hcompile, fun rule n m hrule => ?_⟩
  simp only [hselects, Text.at_whole_iff, spelled_eq]
  constructor
  · rintro ⟨form, n', m', -, hn, hm, heq⟩
    obtain ⟨-, rfl, rfl⟩ := tokenBody_inj (not_mem_glyphs unglyph?_separator)
      (separator_not_mem_glyphs rule) (List.append_cancel_right (List.cons.inj heq).2)
    exact ⟨hn, hm⟩
  · rintro ⟨hn, hm⟩
    exact ⟨rule.bytes, n, m, Text.bytes_ne_nil hrule, hn, hm, rfl⟩

/-- A token that is read is spelled by the name of its rule and two numerals. If an engine gives
literal characters, ranges and the sign for at least one their usual meaning, then the pattern for
all tokens and the one for its rule match it as a whole exactly if neither of the numerals has a
sign. -/
theorem selects_whole_of_decode (hengine : compiler.HasUsualMeaning)
    (h : decode text = some parts) :
    ∃ any own, Pattern.compile compiler anyTokenPattern = .ok any ∧
      Pattern.compile compiler (fragment parts.rule) = .ok own ∧
      ∃ n m, Text.IsNumeral n parts.occurrence ∧ Text.IsNumeral m parts.sequence ∧
        text = spelled parts.rule n m ∧
        (any.Selects text ⟨0, text.byteLength⟩ ↔ '+' ∉ n ∧ '+' ∉ m) ∧
        (own.Selects text ⟨0, text.byteLength⟩ ↔ '+' ∉ n ∧ '+' ∉ m) := by
  obtain ⟨hrule, n, m, hn, hm, rfl⟩ := decode_eq_some_iff.1 h
  obtain ⟨any, hany, hselects⟩ := exists_compile_anyTokenPattern_whole hengine
  obtain ⟨own, hown, hselects'⟩ := exists_compile_fragment_whole hengine parts.rule
  refine ⟨any, own, hany, hown, n, m, hn, hm, rfl, ?_⟩
  rw [← hn.isDigits_iff, ← hm.isDigits_iff]
  exact ⟨hselects parts.rule n m hrule, hselects' n m⟩

theorem isNumeral_one : Text.IsNumeral ['1'] 1 :=
  .plain ⟨by decide, List.all_eq_true.1 rfl⟩ (show 1 < Text.wordBound by decide)

/-- Zeros at the front of a numeral do not matter. -/
theorem selects_whole_of_decode_zero : Regex.compiler.HasUsualMeaning ∧
    decode (spelled ['a'] ['0', '7'] ['1']) = some ⟨['a'], 7, 1⟩ ∧
      ∃ any own, Pattern.compile Regex.compiler anyTokenPattern = .ok any ∧
        Pattern.compile Regex.compiler (fragment ['a']) = .ok own ∧
        any.Selects (spelled ['a'] ['0', '7'] ['1']) ⟨0, 24⟩ ∧
        own.Selects (spelled ['a'] ['0', '7'] ['1']) ⟨0, 24⟩ := by
  have hseven : Text.IsNumeral ['0', '7'] 7 :=
    .plain ⟨by decide, List.all_eq_true.1 rfl⟩ (show 7 < Text.wordBound by decide)
  have hdecode : decode (spelled ['a'] ['0', '7'] ['1']) = some ⟨['a'], 7, 1⟩ :=
    decode_eq_some_iff.2 ⟨by decide, _, _, hseven, isNumeral_one, rfl⟩
  obtain ⟨any, own, hany, hown, n, m, -, -, hspelled, hselects, hselects'⟩ :=
    selects_whole_of_decode Regex.hasUsualMeaning_compiler hdecode
  obtain ⟨-, rfl, rfl⟩ := spelled_inj hspelled
  exact ⟨Regex.hasUsualMeaning_compiler, hdecode, any, own, hany, hown, hselects.2 (by decide),
    hselects'.2 (by decide)⟩

/-- A token with a sign is read. No engine that gives literal characters, ranges and the sign for at
least one their usual meaning matches it by the patterns for tokens. -/
theorem not_selects_signed :
    decode (spelled ['a'] ['+', '1'] ['1']) = some ⟨['a'], 1, 1⟩ ∧
      ∀ compiler : PatternCompiler, compiler.HasUsualMeaning →
        ∃ any own, Pattern.compile compiler anyTokenPattern = .ok any ∧
          Pattern.compile compiler (fragment ['a']) = .ok own ∧
          ¬ any.Selects (spelled ['a'] ['+', '1'] ['1']) ⟨0, 24⟩ ∧
          ¬ own.Selects (spelled ['a'] ['+', '1'] ['1']) ⟨0, 24⟩ := by
  have hsigned : Text.IsNumeral ['+', '1'] 1 :=
    .signed ⟨by decide, List.all_eq_true.1 rfl⟩ (show 1 < Text.wordBound by decide)
  have hdigits : ¬ Text.IsDigits ['+', '1'] := fun h => h.plus_not_mem (by decide)
  refine ⟨decode_eq_some_iff.2 ⟨by decide, _, _, hsigned, isNumeral_one, rfl⟩,
    fun compiler hengine => ?_⟩
  obtain ⟨any, hany, hselects⟩ := exists_compile_anyTokenPattern_whole hengine
  obtain ⟨own, hown, hselects'⟩ := exists_compile_fragment_whole hengine ['a']
  refine ⟨any, own, hany, hown, ?_, ?_⟩
  · exact fun hany => hdigits ((hselects ['a'] _ _ (by decide)).1 hany).1
  · exact fun hown => hdigits ((hselects' _ _).1 hown).1

end Token

end Cascade
