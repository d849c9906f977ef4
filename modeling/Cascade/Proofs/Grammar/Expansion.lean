import Cascade.Proofs.Grammar.Outcome

/-!
# What resolved patterns look like

Nothing in a resolved pattern reads like a reference any more. Unless a rule can be reached from
itself through references, its resolved pattern is the written one in which each reference has
become a group around the resolved pattern of the rule referred to.

* `Resolves.plain_of_ok`: no reference stands in a resolved pattern.
* `Resolves.congr`: it does not matter which other rules are being resolved.
* `Rewritten`: a pattern each of whose references has been replaced.
* `rewritten_of_compile`: the patterns of a grammar are rewritten ones.
-/

namespace Cascade

namespace Reference

variable {patterns : Text → Option (Option Text)} {within within' : List Text}
  {pattern before name after inner text other rule : Text} {result : Except Text Text}

/-! ## No reference is left -/

/-- What matches the tokens of a rule consists of marks, glyphs and classes of digits. -/
theorem not_mem_fragment {c : Char} (hc : c.toNat < 0x80) (hdigits : c ∉ Token.digitsPattern)
    (name : Text) : c ∉ Token.fragment name := by
  have hne {d : Char} (hd : 0x80 ≤ d.toNat) : c ≠ d := by
    rintro rfl
    omega
  have hglyphs : c ∉ Token.glyphs name := by
    intro h
    obtain ⟨byte, -, rfl⟩ := List.mem_map.1 h
    rw [Token.toNat_glyph, Token.glyphBase] at hc
    omega
  have hmarks : c ≠ Token.openMark ∧ c ≠ Token.separator ∧ c ≠ Token.closeMark :=
    ⟨hne (by decide), hne (by decide), hne (by decide)⟩
  simp [Token.fragment, hglyphs, hdigits, hmarks]

/-- What matches the tokens of a rule has no reference in it. -/
theorem plain_fragment (name : Text) : Plain (Token.fragment name) :=
  plain_of_not_mem (not_mem_fragment (by decide) (by decide) name)

/-- No reference runs over the edges of a group. -/
theorem plain_group {inside : Text} (hbefore : Plain before) (hinside : Plain inside)
    (hafter : Plain after) : Plain (before ++ "(?:".toList ++ inside ++ ')' :: after) := by
  have hclose : Plain (inside ++ ')' :: after) := hinside.append_cons (by decide) hafter
  have hcolon : Plain (':' :: (inside ++ ')' :: after)) := plain_nil.append_cons (by decide) hclose
  have hmark : Plain ('?' :: ':' :: (inside ++ ')' :: after)) :=
    plain_nil.append_cons (by decide) hcolon
  simpa using hbefore.append_cons (c := '(') (by decide) hmark

/-- What is put in for a reference makes no new ones, whatever stands around it. -/
theorem plain_alternatives {literal : Option Text} (hbefore : Plain before)
    (hliteral : ∀ text, literal = some text → Plain text) (hafter : Plain after) :
    Plain (before ++ alternatives literal name ++ after) := by
  unfold alternatives
  cases literal with
  | none => simpa using plain_group hbefore (plain_fragment name) hafter
  | some text =>
    have hinside : Plain (text ++ '|' :: Token.fragment name) :=
      (hliteral text rfl).append_cons (by decide) (plain_fragment name)
    simpa using plain_group hbefore hinside hafter

/-- A text is free of references if what is put in is, and what stands around it. -/
theorem plain_of_map {literal : Option Text} (hbefore : Plain before)
    (hliteral : ∀ text, literal = some text → Plain text)
    (hafter : ∀ rest, result = .ok rest → Plain rest)
    (h : result.map (before ++ alternatives literal name ++ ·) = .ok text) : Plain text := by
  cases result with
  | error error => contradiction
  | ok rest =>
    obtain rfl := Except.ok.inj h
    exact plain_alternatives hbefore hliteral (hafter rest rfl)

/-- No reference stands in a resolved pattern. -/
theorem Resolves.plain_of_ok (h : Resolves patterns within pattern result) :
    ∀ text, result = .ok text → Plain text := by
  induction h with
  | plain hplain =>
    rintro text ⟨⟩
    exact hplain
  | unknown => simp
  | token hbefore _ _ _ ih => exact fun text => plain_of_map hbefore (by simp) ih
  | fails => simp
  | @nested within before name after inner literal result hbefore _ _ _ _ _ ihinner ihafter =>
    have hliteral : ∀ text, some literal = some text → Plain text := by
      rintro _ ⟨⟩
      exact ihinner literal rfl
    exact fun text => plain_of_map hbefore hliteral ihafter

/-- A plain pattern stays as it is, whatever the rules are. -/
theorem resolve_eq_of_plain (h : Plain pattern) (depth : Nat) :
    resolve patterns depth within pattern = .ok pattern := by
  cases depth with
  | zero => rfl
  | succ depth => exact resolve_plain h

/-! ## Rules that are being resolved -/

/-- A name is referred to in a text, or behind references in it. -/
def Reaches (patterns : Text → Option (Option Text)) (text name : Text) : Prop :=
  ∃ first, Mentions text first ∧ Relation.ReflTransGen (Refers patterns) first name

/-- A reference that is written in a text is reached from it. -/
theorem reaches_written (hname : Token.isRuleName name) (before after : Text) :
    Reaches patterns (before ++ written name ++ after) name :=
  ⟨name, mentions_written hname before after, .refl⟩

/-- What is reached from a text is reached with more text in front of it. -/
theorem Reaches.append_left (h : Reaches patterns text name) (before : Text) :
    Reaches patterns (before ++ text) name := by
  obtain ⟨first, hfirst, hreach⟩ := h
  exact ⟨first, hfirst.append_left before, hreach⟩

/-- What is reached from the pattern of a rule is reached from a reference to the rule. -/
theorem Reaches.of_inner (hname : Token.isRuleName name)
    (hinner : patterns name = some (some inner)) (h : Reaches patterns inner other)
    (before after : Text) : Reaches patterns (before ++ written name ++ after) other := by
  obtain ⟨first, hfirst, hreach⟩ := h
  have hrefers : Refers patterns name first := ⟨inner, hinner, hfirst⟩
  exact ⟨name, mentions_written hname before after, .head hrefers hreach⟩

/-- Of the rules that are being resolved, only those that a pattern reaches make a difference. -/
theorem Resolves.congr (h : Resolves patterns within pattern result)
    (hsame : ∀ name, Reaches patterns pattern name → (name ∈ within ↔ name ∈ within')) :
    Resolves patterns within' pattern result := by
  induction h generalizing within' with
  | plain hplain => exact .plain hplain
  | unknown hbefore hname hnone => exact .unknown hbefore hname hnone
  | token hbefore hname htoken _ ih =>
    have hmem := hsame _ (reaches_written hname _ _)
    refine .token hbefore hname (htoken.imp_right (And.imp_left hmem.1)) (ih fun other h => ?_)
    exact hsame other (h.append_left _)
  | fails hbefore hname hinner hwithin _ ih =>
    have hmem := hsame _ (reaches_written hname _ _)
    refine .fails hbefore hname hinner (mt hmem.2 hwithin) (ih fun other h => ?_)
    simp [hsame other (h.of_inner hname hinner _ _)]
  | nested hbefore hname hinner hwithin _ _ ihinner ihafter =>
    have hmem := hsame _ (reaches_written hname _ _)
    refine .nested hbefore hname hinner (mt hmem.2 hwithin) (ihinner fun other h => ?_)
      (ihafter fun other h => hsame other (h.append_left _))
    simp [hsame other (h.of_inner hname hinner _ _)]

/-! ## Rewritten patterns -/

/-- A pattern is rewritten: each reference in it is replaced by its image, and all other text is
kept. -/
inductive Rewritten (image : Text → Text) : Text → Text → Prop
  | plain {pattern : Text} : Plain pattern → Rewritten image pattern pattern
  | reference {before name after result : Text} : Plain before → Token.isRuleName name →
      Rewritten image after result →
        Rewritten image (before ++ written name ++ after) (before ++ image name ++ result)

/-- A text is rewritten reference by reference. -/
theorem Rewritten.of_map {image : Text → Text} (hbefore : Plain before)
    (hname : Token.isRuleName name)
    (hafter : ∀ rest, result = .ok rest → Rewritten image after rest)
    (h : result.map (before ++ image name ++ ·) = .ok text) :
    Rewritten image (before ++ written name ++ after) text := by
  cases result with
  | error error => contradiction
  | ok rest =>
    obtain rfl := Except.ok.inj h
    exact .reference hbefore hname (hafter rest rfl)

/-- The image of a reference: a group that matches what the rule matches by itself, if it matches
anything, or one of its tokens. -/
def imageOf (own : Text → Option Text) (name : Text) : Text :=
  match own name with
  | some text => "(?:".toList ++ text ++ '|' :: Token.fragment name ++ [')']
  | none => "(?:".toList ++ Token.fragment name ++ [')']

variable {own : Text → Option Text}

/-- The image of a name is its own pattern or its token. -/
theorem alternatives_own (name : Text) : alternatives (own name) name = imageOf own name := by
  unfold alternatives imageOf
  cases own name <;> simp

/-- Each rule that has a pattern is resolved by itself. -/
def Own (patterns : Text → Option (Option Text)) (own : Text → Option Text) : Prop :=
  ∀ name, (patterns name = some none → own name = none) ∧
    ∀ inner, patterns name = some (some inner) →
      ∃ text, own name = some text ∧ Resolves patterns [name] inner (.ok text)

/-- Where only tokens are recognised, there is no own pattern. -/
theorem alternatives_of_tokensOnly (hown : Own patterns own)
    (hacyclic : ¬ Relation.TransGen (Refers patterns) rule rule)
    (hrefers : Refers patterns rule name) (htoken : TokensOnly patterns [rule] name) :
    alternatives none name = imageOf own name := by
  rcases htoken with hnone | ⟨hmem, -⟩
  · rw [← alternatives_own, (hown name).1 hnone]
  · obtain rfl : name = rule := by simpa using hmem
    exact absurd (.single hrefers) hacyclic

/-- Where the pattern of the rule is put in, it is its own pattern, if no cycle leads through it. -/
theorem alternatives_of_resolves {literal : Text} (hown : Own patterns own)
    (hacyclic : ¬ Relation.TransGen (Refers patterns) rule rule)
    (hrefers : Refers patterns rule name) (hinner : patterns name = some (some inner))
    (hliteral : Resolves patterns [name, rule] inner (.ok literal)) :
    alternatives (some literal) name = imageOf own name := by
  obtain ⟨text, htext, hresolves⟩ := (hown name).2 inner hinner
  -- inside the rule, the other one is resolved as it is by itself
  have halone : Resolves patterns [name] inner (.ok literal) := by
    refine hliteral.congr fun other hreaches => ?_
    have hother : other ≠ rule := by
      rintro rfl
      obtain ⟨first, hfirst, hreach⟩ := hreaches
      have hnext : Refers patterns name first := ⟨inner, hinner, hfirst⟩
      exact hacyclic (.head' hrefers (.head hnext hreach))
    simp [hother]
  rw [← alternatives_own, htext, Except.ok.inj (halone.unique hresolves)]

/-- References are replaced by their images, unless they lead back to the rule that is being
resolved. -/
theorem Resolves.rewritten (hown : Own patterns own)
    (hacyclic : ¬ Relation.TransGen (Refers patterns) rule rule)
    (h : Resolves patterns within pattern result) (hwithin : within = [rule])
    (hrefers : ∀ name, Mentions pattern name → Refers patterns rule name) :
    ∀ text, result = .ok text → Rewritten (imageOf own) pattern text := by
  induction h with
  | plain hplain =>
    rintro text ⟨⟩
    exact .plain hplain
  | unknown => simp
  | @token within before name after result hbefore hname htoken _ ih =>
    subst hwithin
    have hhere := hrefers name (mentions_written hname before after)
    have hbehind : ∀ other, Mentions after other → Refers patterns rule other :=
      fun other h => hrefers other (h.append_left _)
    rw [alternatives_of_tokensOnly hown hacyclic hhere htoken]
    exact fun text => .of_map hbefore hname (ih rfl hbehind)
  | fails => simp
  | @nested within before name after inner literal result hbefore hname hinner _ hliteral _ _
      ihafter =>
    subst hwithin
    have hhere := hrefers name (mentions_written hname before after)
    have hbehind : ∀ other, Mentions after other → Refers patterns rule other :=
      fun other h => hrefers other (h.append_left _)
    -- no way leads back, so the rule stands for the same inside of this pattern as alone
    rw [alternatives_of_resolves hown hacyclic hhere hinner hliteral]
    exact fun text => .of_map hbefore hname (ihafter rfl hbehind)

end Reference

namespace Grammar

open Reference (Plain Mentions Refers Rewritten Own imageOf)

variable {compiler : PatternCompiler} {ds : List Definition} {root wiring name source : Text}
  {d : Definition} {g : Grammar} {r : Rule} {p : Pattern}

/-! ## The patterns of a grammar -/

/-- What the rule with a name matches by itself, if it matches anything. -/
def own (g : Grammar) (name : Text) : Option Text :=
  (g.rule? name).bind fun r => r.pattern?.map Pattern.source

/-- A compiled pattern keeps the text that it was compiled from. -/
theorem source_of_compile (h : Pattern.compile compiler source = .ok p) : p.source = source := by
  obtain ⟨c, -, rfl⟩ := Pattern.compile_eq_ok_iff.1 h
  rfl

/-- A definition without pattern makes a rule without one. -/
theorem Reads.eq_none {pattern? : Option Pattern} (h : Reads compiler ds d pattern?)
    (hnone : d.pattern? = none) : pattern? = none := by
  cases h with
  | container => rfl
  | pattern hraw => simp [hnone] at hraw

/-- The pattern of a rule is compiled from what the references of its definition resolve to. -/
theorem Reads.resolves {pattern? : Option Pattern} {raw : Text} (h : Reads compiler ds d pattern?)
    (hraw : d.pattern? = some raw) : ∃ p, pattern? = some p ∧
      Reference.Resolves (patternNamed ds) [d.name] raw (.ok p.source) := by
  cases h with
  | container hnone => simp [hraw] at hnone
  | @pattern raw' source p hraw' hresolves hcompile =>
    obtain rfl := Option.some.inj (hraw.symm.trans hraw')
    refine ⟨p, rfl, ?_⟩
    rwa [source_of_compile hcompile]

/-- No references are left in the pattern of a rule. -/
theorem Reads.plain (h : Reads compiler ds d (some p)) : Plain p.source := by
  obtain ⟨raw, hraw⟩ : ∃ raw, d.pattern? = some raw := by
    cases h with
    | pattern hraw => exact ⟨_, hraw⟩
  obtain ⟨p', hp, hresolves⟩ := h.resolves hraw
  obtain rfl := Option.some.inj hp
  exact hresolves.plain_of_ok _ rfl

/-- Each definition has a rule of its name, with its pattern. -/
theorem exists_rule_of_compile (h : compile compiler ds root wiring = .ok g) (hd : d ∈ ds) :
    ∃ r, g.rule? d.name = some r ∧ Reads compiler ds d r.pattern? := by
  obtain ⟨hacceptable, edges, -, -, hwired, -⟩ := outcome_of_compile h
  obtain ⟨place, hplace⟩ := List.mem_iff_getElem?.1 hd
  obtain ⟨r, hr, hmade⟩ := hwired.made place d hplace
  exact ⟨r, hwired.find?_eq hacceptable.names.distinct hplace hr, hmade.reads⟩

/-- A pattern that is found under a name is that of a definition. -/
theorem exists_of_patternNamed {pattern? : Option Text}
    (h : patternNamed ds name = some pattern?) :
    ∃ d ∈ ds, d.name = name ∧ d.pattern? = pattern? := by
  obtain ⟨d, hfind, hpattern⟩ := Option.map_eq_some_iff.1 h
  exact ⟨d, List.mem_of_find?_eq_some hfind, by simpa using List.find?_some hfind, hpattern⟩

/-- The patterns of the rules are what their definitions resolve to. -/
theorem own_of_compile (h : compile compiler ds root wiring = .ok g) :
    Own (patternNamed ds) g.own := by
  refine fun name => ⟨fun hnone => ?_, fun inner hinner => ?_⟩
  · obtain ⟨d, hd, rfl, hpattern⟩ := exists_of_patternNamed hnone
    obtain ⟨r, hr, hreads⟩ := exists_rule_of_compile h hd
    simp [own, hr, hreads.eq_none hpattern]
  · obtain ⟨d, hd, rfl, hpattern⟩ := exists_of_patternNamed hinner
    obtain ⟨r, hr, hreads⟩ := exists_rule_of_compile h hd
    obtain ⟨p, hp, hresolves⟩ := hreads.resolves hpattern
    exact ⟨p.source, by simp [own, hr, hp], hresolves⟩

/-- The patterns of a grammar have no references, and resolving them again does not change them,
whatever the rules are. The pattern of a rule that cannot be reached from itself, even if it leads
to rules that can, refers to rules only and is rewritten: each reference in it is replaced by its
image. -/
theorem rewritten_of_compile (h : compile compiler ds root wiring = .ok g) :
    (∀ r ∈ g.rules, ∀ p, r.pattern? = some p → Plain p.source ∧
      ∀ patterns depth within,
        Reference.resolve patterns depth within p.source = .ok p.source) ∧
    ∀ d ∈ ds, ∀ raw, d.pattern? = some raw →
      ¬ Relation.TransGen (Refers (patternNamed ds)) d.name d.name →
        (∀ name, Mentions raw name → Registered ds name) ∧
        ∃ text, g.own d.name = some text ∧ Rewritten (imageOf g.own) raw text := by
  constructor
  · intro r hr p hp
    obtain ⟨edges, place, d, -, hmade⟩ := exists_madeFrom_of_compile h hr
    have hreads := hmade.reads
    rw [hp] at hreads
    exact ⟨hreads.plain, fun patterns depth within =>
      Reference.resolve_eq_of_plain hreads.plain depth⟩
  · intro d hd raw hraw hacyclic
    obtain ⟨r, hr, hreads⟩ := exists_rule_of_compile h hd
    obtain ⟨p, hp, hresolves⟩ := hreads.resolves hraw
    have hacceptable := acceptable_of_compile h
    have hrule := patternNamed_eq_some hacceptable.names.distinct hd hraw
    have hrefers : ∀ name, Mentions raw name → Refers (patternNamed ds) d.name name :=
      fun name hmentions => ⟨raw, hrule, hmentions⟩
    -- a name without a rule would be dangling
    refine ⟨fun name hmentions => by_contra fun hname => ?_, p.source, by simp [own, hr, hp], ?_⟩
    · exact hacceptable.closed d hd name
        ⟨d.name, .refl, hrefers name hmentions, patternNamed_eq_none_iff.2 hname⟩
    · exact hresolves.rewritten (own_of_compile h) hacyclic rfl hrefers p.source rfl

/-- A reference to another letter is rewritten by what that letter searches for. -/
theorem rewritten_of_compile_letters : ∃ g text,
    compile Regex.compiler letters "Root".toList "Root:\n  - a".toList = .ok g ∧
      g.own "a".toList = some text ∧ Rewritten (imageOf g.own) "x<<b>>".toList text := by
  obtain ⟨g, hcompile⟩ := exists_eq_ok_of_isOk
    (x := compile Regex.compiler letters "Root".toList "Root:\n  - a".toList) (by decide +kernel)
  have hacyclic : ¬ Relation.TransGen (Refers (patternNamed letters)) "a".toList "a".toList := by
    intro hcycle
    obtain ⟨next, ⟨pattern, hpattern, hmentions⟩, hreach⟩ := Relation.TransGen.head'_iff.1 hcycle
    obtain rfl : "x<<b>>".toList = pattern := Option.some.inj (Option.some.inj hpattern)
    have hsegments : Reference.segments "x<<b>>".toList = [.literal 'x', .rule ['b']] := by decide
    have hnext := Reference.mem_segments_iff.2 hmentions
    rw [hsegments] at hnext
    obtain rfl : next = ['b'] := by simpa using hnext
    rcases hreach.cases_head with hsame | ⟨last, ⟨pattern, hpattern, hmentions⟩, -⟩
    · simp at hsame
    · obtain rfl : "y".toList = pattern := Option.some.inj (Option.some.inj hpattern)
      have hsegments : Reference.segments "y".toList = [.literal 'y'] := by decide
      have hlast := Reference.mem_segments_iff.2 hmentions
      rw [hsegments] at hlast
      simp at hlast
  obtain ⟨-, text, htext, hrewritten⟩ :=
    (rewritten_of_compile hcompile).2 _ (List.mem_of_getElem? (i := 1) rfl) _ rfl hacyclic
  exact ⟨g, text, hcompile, htext, hrewritten⟩

end Grammar

end Cascade
