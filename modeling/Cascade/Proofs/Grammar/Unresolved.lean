import Cascade.Proofs.Grammar.Outcome

/-!
# References that cannot be resolved

References may go in circles, but resolving them always comes to an end. It fails for the rules from
which a name without a definition can be reached through references, and only for these.

* `FirstDangling`: the first definition from which such a name can be reached.
* `unresolvedReference_iff`: that definition is reported when a grammar is compiled.
* `dangling_of_resolve`: resolving ends, and fails if a name is dangling.
-/

namespace Cascade.Grammar

open Reference (Resolves Dangling)

/-- A rule is the first one, in the order of definition, from which something is dangling. -/
def FirstDangling (ds : List Definition) (rule : Text) : Prop :=
  ∃ before d after, ds = before ++ d :: after ∧ d.name = rule ∧
    (∀ d' ∈ before, ∀ name, ¬ Dangling (patternNamed ds) d'.name name) ∧
    ∃ name, Dangling (patternNamed ds) rule name

variable {compiler : PatternCompiler} {ds : List Definition} {root wiring rule rule' name : Text}
  {d : Definition} {error : GrammarError}

/-- There is no more than one first definition. -/
theorem FirstDangling.unique (h : FirstDangling ds rule) (h' : FirstDangling ds rule') :
    rule = rule' := by
  classical
  have hfind {rule : Text} (h : FirstDangling ds rule) : (ds.find? fun d =>
      ∃ name, Dangling (patternNamed ds) d.name name).map Definition.name = some rule := by
    obtain ⟨before, d, after, hsplit, rfl, hbefore, hd⟩ := h
    refine Option.map_eq_some_iff.2 ⟨d, List.find?_eq_some_iff_append.2 ⟨?_, ?_⟩, rfl⟩
    · simpa using hd
    · exact ⟨before, after, hsplit, fun d' hd' => by simpa using hbefore d' hd'⟩
  exact Option.some.inj ((hfind h).symm.trans (hfind h'))

/-- The first definition with a dangling name is one of the list. -/
theorem FirstDangling.exists_mem (h : FirstDangling ds rule) :
    ∃ d ∈ ds, ∃ name, Dangling (patternNamed ds) d.name name := by
  obtain ⟨before, d, after, rfl, rfl, -, hd⟩ := h
  exact ⟨d, by simp, hd⟩

/-- What is reported of a reference is dangling from the first definition that has something
dangling from it. -/
theorem firstDangling_of_resolves {before after : List Definition} {raw reference : Text}
    (hdistinct : (ds.map Definition.name).Nodup) (hsplit : ds = before ++ d :: after)
    (hbefore : ∀ d' ∈ before, ∀ name, ¬ Dangling (patternNamed ds) d'.name name)
    (hraw : d.pattern? = some raw)
    (hresolves : Resolves (patternNamed ds) [d.name] raw (.error reference)) :
    FirstDangling ds d.name ∧ Dangling (patternNamed ds) d.name reference := by
  have hrule := patternNamed_eq_some hdistinct (by simp [hsplit]) hraw
  have hdangling := hresolves.dangling hrule
  exact ⟨⟨before, d, after, hsplit, rfl, hbefore, reference, hdangling⟩, hdangling⟩

/-- An unresolved reference is a dangling name of the first definition that has one. -/
theorem Fault.of_unresolvedReference {reference : Text}
    (h : Fault compiler ds root wiring (.unresolvedReference rule reference)) :
    ds.length ≤ RuleId.limit ∧ ProperNames ds ∧ FirstDangling ds rule ∧
      Dangling (patternNamed ds) rule reference := by
  generalize herror : GrammarError.unresolvedReference rule reference = error at h
  cases h with
  | name _ _ _ hfault => cases hfault <;> contradiction
  | reference hlimit hnames hsplit hbefore hraw hresolves =>
    obtain ⟨rfl, rfl⟩ := GrammarError.unresolvedReference.inj herror
    exact ⟨hlimit, hnames,
      firstDangling_of_resolves hnames.distinct hsplit hbefore hraw hresolves⟩
  | wiring _ hwiring =>
    subst herror
    unfold readWiring at hwiring
    split at hwiring <;> simp at hwiring
  | edge _ _ _ hfault => cases hfault <;> contradiction
  | _ => contradiction

/-- If something is dangling, nothing else than the first reference that cannot be resolved is
wrong. -/
theorem Fault.of_firstDangling (hlimit : ds.length ≤ RuleId.limit) (hnames : ProperNames ds)
    (hfirst : FirstDangling ds rule) (h : Fault compiler ds root wiring error) :
    ∃ reference, error = .unresolvedReference rule reference := by
  obtain ⟨d, hd, name, hdangling⟩ := hfirst.exists_mem
  have hopen : ¬ ∀ d ∈ ds, ∀ name, ¬ Dangling (patternNamed ds) d.name name :=
    fun hclosed => hclosed d hd name hdangling
  -- all that comes after the references is reported only if nothing is dangling
  cases h with
  | tooMany hmany => exact absurd hlimit (Nat.not_le_of_lt hmany)
  | name _ hsplit _ hfault => exact (hfault.elim hnames hsplit).elim
  | @reference _ _ _ _ reference _ _ hsplit hbefore hraw hresolves =>
    have hreported := firstDangling_of_resolves hnames.distinct hsplit hbefore hraw hresolves
    obtain rfl := hfirst.unique hreported.1
    exact ⟨reference, rfl⟩
  | pattern _ _ hclosed => exact absurd hclosed hopen
  | wiring hacceptable => exact absurd hacceptable.closed hopen
  | edge hacceptable => exact absurd hacceptable.closed hopen
  | root hacceptable => exact absurd hacceptable.closed hopen

/-- The first definition from which something is dangling is reported, if the names pass. -/
theorem unresolvedReference_iff (compiler : PatternCompiler) (ds : List Definition)
    (root wiring rule : Text) :
    (∃ reference, compile compiler ds root wiring = .error (.unresolvedReference rule reference)) ↔
      ds.length ≤ RuleId.limit ∧ ProperNames ds ∧ FirstDangling ds rule := by
  constructor
  · rintro ⟨reference, hcompile⟩
    have hfault : Fault compiler ds root wiring (.unresolvedReference rule reference) :=
      outcome_of_compile hcompile
    obtain ⟨hlimit, hnames, hfirst, -⟩ := hfault.of_unresolvedReference
    exact ⟨hlimit, hnames, hfirst⟩
  · rintro ⟨hlimit, hnames, hfirst⟩
    cases hcompile : compile compiler ds root wiring with
    | error error =>
      have hfault : Fault compiler ds root wiring error := outcome_of_compile hcompile
      obtain ⟨reference, rfl⟩ := hfault.of_firstDangling hlimit hnames hfirst
      exact ⟨reference, rfl⟩
    | ok g =>
      obtain ⟨d, hd, name, hdangling⟩ := hfirst.exists_mem
      exact absurd hdangling ((acceptable_of_compile hcompile).closed d hd name)

/-- The result of resolving a definition does not depend on the number of levels, if there are more
than definitions. -/
theorem resolve_eq_iff_resolves {depth : Nat} {raw : Text} {result : Except Text Text}
    (hdepth : ds.length < depth) :
    Reference.resolve (patternNamed ds) depth [d.name] raw = result ↔
      Resolves (patternNamed ds) [d.name] raw result := by
  have hresolves : Resolves (patternNamed ds) [d.name] raw
      (Reference.resolve (patternNamed ds) depth [d.name] raw) :=
    Reference.resolves_resolve (List.countP_le_length.trans_lt hdepth) raw
  exact ⟨fun h => h ▸ hresolves, fun h => hresolves.unique h⟩

/-- Resolving a definition comes to an end, whatever the references, and to one result. It fails if
and only if a name is dangling from the definition, and then reports one that is. When a grammar is
compiled, by whatever engine, the first definition from which something is dangling is reported,
with a name that is dangling from it. -/
theorem dangling_of_resolve (hdistinct : (ds.map Definition.name).Nodup) :
    (∀ d ∈ ds, ∀ raw, d.pattern? = some raw → ∃ result,
      (∀ other, Resolves (patternNamed ds) [d.name] raw other ↔ other = result) ∧
      (∀ depth, ds.length < depth →
        Reference.resolve (patternNamed ds) depth [d.name] raw = result) ∧
      ((∃ name, result = .error name) ↔ ∃ name, Dangling (patternNamed ds) d.name name) ∧
      ∀ name, result = .error name → Dangling (patternNamed ds) d.name name) ∧
    ∀ compiler root wiring, (∀ rule, (∃ reference,
        compile compiler ds root wiring = .error (.unresolvedReference rule reference)) ↔
          ds.length ≤ RuleId.limit ∧ (∀ d ∈ ds, Token.isRuleName d.name) ∧ FirstDangling ds rule) ∧
      ∀ rule reference,
        compile compiler ds root wiring = .error (.unresolvedReference rule reference) →
          Dangling (patternNamed ds) rule reference := by
  refine ⟨fun d hd raw hraw => ?_, fun compiler root wiring => ⟨fun rule => ?_, ?_⟩⟩
  · have hrule := patternNamed_eq_some hdistinct hd hraw
    obtain ⟨result, hresolves⟩ : ∃ result, Resolves (patternNamed ds) [d.name] raw result :=
      ⟨_, resolves_of_definition ds d raw⟩
    refine ⟨result, fun other => ⟨fun h => h.unique hresolves, fun h => h ▸ hresolves⟩,
      fun depth hdepth => (resolve_eq_iff_resolves hdepth).2 hresolves, ?_, ?_⟩
    · cases result with
      | ok source => simpa using fun name => hresolves.not_dangling hrule
      | error name => simpa using ⟨name, hresolves.dangling hrule⟩
    · rintro name rfl
      exact hresolves.dangling hrule
  -- that names are distinct is given, so of the stages before only valid names are left to ask for
  · rw [unresolvedReference_iff]
    exact and_congr_right fun _ => and_congr_left fun _ =>
      ⟨ProperNames.valid, fun hvalid => ⟨hvalid, hdistinct⟩⟩
  · intro rule reference hcompile
    have hfault : Fault compiler ds root wiring (.unresolvedReference rule reference) :=
      outcome_of_compile hcompile
    exact hfault.of_unresolvedReference.2.2.2

/-- Two rules that refer to one another, between signs that are no references, and one of which
refers to a name without a rule. -/
def knot : List Definition :=
  [⟨"a".toList, some "<<<b>>".toList, .identity⟩,
    ⟨"b".toList, some "<<a>><< a>><<c>>>".toList, .identity⟩]

/-- Of the two rules, the first one is reported: its pattern leads to the name without a rule. -/
theorem dangling_of_resolve_knot :
    (∃ result, ∀ other,
      Resolves (patternNamed knot) ["a".toList] "<<<b>>".toList other ↔ other = result) ∧
    ∃ reference, compile Regex.compiler knot [] [] =
      .error (.unresolvedReference "a".toList reference) := by
  have hdistinct : (knot.map Definition.name).Nodup := by decide
  have hresolve := dangling_of_resolve hdistinct
  constructor
  · obtain ⟨result, hresult, -⟩ := hresolve.1 _ List.mem_cons_self _ rfl
    exact ⟨result, hresult⟩
  · have hstep : Reference.Refers (patternNamed knot) "a".toList "b".toList :=
      ⟨_, rfl, by decide, by decide⟩
    have hlast : Reference.Refers (patternNamed knot) "b".toList "c".toList :=
      ⟨_, rfl, by decide, by decide⟩
    exact ((hresolve.2 Regex.compiler [] []).1 _).2 ⟨by decide, by decide, [], _, _, rfl, rfl,
      by simp, "c".toList, "b".toList, .single hstep, hlast, rfl⟩

end Cascade.Grammar
