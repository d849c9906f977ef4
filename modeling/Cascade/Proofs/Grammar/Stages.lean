import Cascade.Proofs.Except
import Cascade.Proofs.Grammar.Resolve
import Mathlib.Data.List.Nodup

/-!
# The stages of compiling a grammar

A grammar is compiled in stages: the names of the definitions are checked, then all references, all
patterns, the wiring, and last the root. Each stage goes through its input in order, and the first
fault of the first stage that has one is reported. Which patterns can be compiled is up to the
engine.

* `Acceptable`: definitions that pass the stages before the wiring.
* `Fault`: what may be reported, each time given what has passed before it.
* `Wired`: the rules that definitions make, with the children that edges give them.
* `outcome_compile`: what comes out is either the grammar or the fault that these describe.
-/

namespace Cascade.Grammar

open Reference (Resolves Dangling)

/-! ## What is asked of definitions, edges and the root -/

/-- A definition with this name is there. -/
def Registered (ds : List Definition) (name : Text) : Prop :=
  ∃ d ∈ ds, d.name = name

/-- Both names of an edge are registered. -/
def Known (ds : List Definition) (edge : Wiring.Edge) : Prop :=
  Registered ds edge.parent ∧ Registered ds edge.child

/-- All names are names that rules may have, and no two of them are the same. -/
structure ProperNames (ds : List Definition) : Prop where
  valid : ∀ d ∈ ds, Token.isRuleName d.name
  distinct : (ds.map Definition.name).Nodup

/-- The pattern of a definition, which is compiled once its references are resolved. -/
inductive Reads (compiler : PatternCompiler) (ds : List Definition) (d : Definition) :
    Option Pattern → Prop
  | container : d.pattern? = none → Reads compiler ds d none
  | pattern {raw source : Text} {p : Pattern} : d.pattern? = some raw →
      Resolves (patternNamed ds) [d.name] raw (.ok source) →
        Pattern.compile compiler source = .ok p → Reads compiler ds d (some p)

/-- Definitions that there are not too many of, with proper names, without references to names that
are not registered, and with patterns that the engine compiles. -/
structure Acceptable (compiler : PatternCompiler) (ds : List Definition) : Prop where
  length_le : ds.length ≤ RuleId.limit
  names : ProperNames ds
  closed : ∀ d ∈ ds, ∀ name, ¬ Dangling (patternNamed ds) d.name name
  readable : ∀ d ∈ ds, ∃ pattern?, Reads compiler ds d pattern?

/-! ## What can be wrong -/

/-- What is wrong with the name of a definition, given the names before it. -/
inductive NameFault (taken : List Text) (d : Definition) : GrammarError → Prop
  | invalid : ¬ Token.isRuleName d.name → NameFault taken d (.invalidRuleName d.name)
  | duplicate : Token.isRuleName d.name → d.name ∈ taken → NameFault taken d (.duplicateRule d.name)

/-- What is wrong with the names of an edge. -/
inductive EdgeFault (ds : List Definition) (edge : Wiring.Edge) : GrammarError → Prop
  | parent : ¬ Registered ds edge.parent → EdgeFault ds edge (.unknownRule edge.parent edge.line)
  | child : Registered ds edge.parent → ¬ Registered ds edge.child →
      EdgeFault ds edge (.unknownRule edge.child edge.line)

/-- What is wrong with definitions, a root and a wiring text: the fault of the first stage that has
one, and there of the first definition or edge. -/
inductive Fault (compiler : PatternCompiler) (ds : List Definition) (root wiring : Text) :
    GrammarError → Prop
  | tooMany : RuleId.limit < ds.length → Fault compiler ds root wiring (.tooManyRules ds.length)
  | name {before after : List Definition} {d : Definition} {error : GrammarError} :
      ds.length ≤ RuleId.limit → ds = before ++ d :: after → ProperNames before →
        NameFault (before.map Definition.name) d error → Fault compiler ds root wiring error
  | reference {before after : List Definition} {d : Definition} {raw reference : Text} :
      ds.length ≤ RuleId.limit → ProperNames ds → ds = before ++ d :: after →
        (∀ d' ∈ before, ∀ name, ¬ Dangling (patternNamed ds) d'.name name) →
          d.pattern? = some raw → Resolves (patternNamed ds) [d.name] raw (.error reference) →
            Fault compiler ds root wiring (.unresolvedReference d.name reference)
  | pattern {before after : List Definition} {d : Definition} {raw source message : Text} :
      ds.length ≤ RuleId.limit → ProperNames ds →
        (∀ d' ∈ ds, ∀ name, ¬ Dangling (patternNamed ds) d'.name name) →
          ds = before ++ d :: after → (∀ d' ∈ before, ∃ pattern?, Reads compiler ds d' pattern?) →
            d.pattern? = some raw → Resolves (patternNamed ds) [d.name] raw (.ok source) →
              Pattern.compile compiler source = .error message →
                Fault compiler ds root wiring (.invalidPattern d.name raw message)
  | wiring {error : GrammarError} : Acceptable compiler ds → readWiring wiring = .error error →
      Fault compiler ds root wiring error
  | edge {before after : List Wiring.Edge} {edge : Wiring.Edge} {error : GrammarError} :
      Acceptable compiler ds → readWiring wiring = .ok (before ++ edge :: after) →
        (∀ e ∈ before, Known ds e) → EdgeFault ds edge error → Fault compiler ds root wiring error
  | root {edges : List Wiring.Edge} : Acceptable compiler ds → readWiring wiring = .ok edges →
      (∀ e ∈ edges, Known ds e) → ¬ Registered ds root →
        Fault compiler ds root wiring (.unknownRoot root)

/-! ## What comes out -/

/-- The number of the definition with a name. -/
def numberOf (ds : List Definition) (name : Text) : RuleId :=
  .ofIndex (ds.findIdx fun d => d.name = name)

/-- The rule that the definition at a place makes. Its children are those of the edges whose parent
it is. -/
structure MadeFrom (compiler : PatternCompiler) (ds : List Definition) (edges : List Wiring.Edge)
    (place : Nat) (d : Definition) (r : Rule) : Prop where
  id_eq : r.id = .ofIndex place
  name_eq : r.name = d.name
  hooks_eq : r.hooks = d.hooks
  reads : Reads compiler ds d r.pattern?
  children_eq : r.children =
    (edges.filter fun edge => edge.parent = d.name).map fun edge => numberOf ds edge.child

/-- The rules that definitions make, in the same order. -/
structure Wired (compiler : PatternCompiler) (ds : List Definition) (edges : List Wiring.Edge)
    (rules : Array Rule) : Prop where
  size_eq : rules.size = ds.length
  made : ∀ place d, ds[place]? = some d →
    ∃ r, rules[place]? = some r ∧ MadeFrom compiler ds edges place d r

/-- What may come out when a grammar is compiled. -/
def Outcome (compiler : PatternCompiler) (ds : List Definition) (root wiring : Text) :
    Except GrammarError Grammar → Prop
  | .error error => Fault compiler ds root wiring error
  | .ok g => Acceptable compiler ds ∧ ∃ edges, readWiring wiring = .ok edges ∧
      (∀ e ∈ edges, Known ds e) ∧ Wired compiler ds edges g.rules ∧ g.rule? root = some g.root

variable {compiler : PatternCompiler} {ds : List Definition} {root wiring name : Text}
  {d : Definition} {error : GrammarError} {edges : List Wiring.Edge} {rules rules' : Array Rule}
  {place : Nat}

/-! ## Names -/

variable {seen : Std.TreeSet Text} {taken : List Text}

/-- The names that have been seen are those that are taken, also with one more. -/
theorem contains_insert_iff (h : ∀ name, seen.contains name ↔ name ∈ taken) (name other : Text) :
    (seen.insert name).contains other ↔ other ∈ taken ++ [name] := by
  rw [Std.TreeSet.contains_insert, Bool.or_eq_true, beq_iff_eq, h, List.mem_append,
    List.mem_singleton, Std.LawfulEqCmp.compare_eq_iff_eq, or_comm, eq_comm]

theorem nodup_concat {name : Text} (htaken : taken.Nodup) (hname : name ∉ taken) :
    (taken ++ [name]).Nodup := by
  simpa using htaken.concat hname

/-- Names that pass the check are proper, and none of them is taken. -/
theorem properNames_of_checkNames (hseen : ∀ name, seen.contains name ↔ name ∈ taken)
    (htaken : taken.Nodup) (h : checkNames seen ds = .ok ()) :
    (∀ d ∈ ds, Token.isRuleName d.name) ∧ (taken ++ ds.map Definition.name).Nodup := by
  induction ds generalizing seen taken with
  | nil => simpa using htaken
  | cons d rest ih =>
    rw [checkNames] at h
    split at h
    · contradiction
    · next hvalid =>
      split at h
      · contradiction
      · next hfree =>
        rw [hseen] at hfree
        obtain ⟨hrest, hdistinct⟩ :=
          ih (contains_insert_iff hseen d.name) (nodup_concat htaken hfree) h
        refine ⟨?_, by simpa using hdistinct⟩
        rintro d' (_ | ⟨_, hd'⟩)
        · simpa using hvalid
        · exact hrest d' hd'

/-- The first name that does not pass is reported. -/
theorem nameFault_of_checkNames (hseen : ∀ name, seen.contains name ↔ name ∈ taken)
    (htaken : taken.Nodup) (h : checkNames seen ds = .error error) :
    ∃ before d after, ds = before ++ d :: after ∧ (∀ d' ∈ before, Token.isRuleName d'.name) ∧
      (taken ++ before.map Definition.name).Nodup ∧
      NameFault (taken ++ before.map Definition.name) d error := by
  induction ds generalizing seen taken with
  | nil => contradiction
  | cons d rest ih =>
    have hhere (hfault : NameFault taken d error) : ∃ before d' after,
        d :: rest = before ++ d' :: after ∧ (∀ d' ∈ before, Token.isRuleName d'.name) ∧
          (taken ++ before.map Definition.name).Nodup ∧
          NameFault (taken ++ before.map Definition.name) d' error :=
      ⟨[], d, rest, rfl, by simp, by simpa using htaken, by simpa using hfault⟩
    rw [checkNames] at h
    split at h
    · next hvalid =>
      obtain rfl := Except.error.inj h
      exact hhere (.invalid (by simpa using hvalid))
    · next hvalid =>
      have hvalid : Token.isRuleName d.name := by simpa using hvalid
      split at h
      · next hfree =>
        obtain rfl := Except.error.inj h
        exact hhere (.duplicate hvalid ((hseen _).1 hfree))
      · next hfree =>
        rw [hseen] at hfree
        -- the name passes, so the fault is behind it
        obtain ⟨before, d', after, rfl, hbefore, hdistinct, hfault⟩ :=
          ih (contains_insert_iff hseen d.name) (nodup_concat htaken hfree) h
        refine ⟨d :: before, d', after, rfl, ?_, by simpa using hdistinct, by simpa using hfault⟩
        rintro x (_ | ⟨_, hx⟩)
        · exact hvalid
        · exact hbefore x hx

/-! ## References and patterns -/

/-- A name without a definition has no pattern. -/
theorem patternNamed_eq_none_iff : patternNamed ds name = none ↔ ¬ Registered ds name := by
  simp [patternNamed, Registered]

/-- Under the name of a definition stands its pattern, if names are distinct. -/
theorem patternNamed_of_mem (hdistinct : (ds.map Definition.name).Nodup) (hd : d ∈ ds) :
    patternNamed ds d.name = some d.pattern? := by
  obtain ⟨found, hfound⟩ : ∃ found, ds.find? (fun d' => d'.name = d.name) = some found :=
    Option.isSome_iff_exists.1 (List.find?_isSome.2 ⟨d, hd, by simp⟩)
  have hname : found.name = d.name := by simpa using List.find?_some hfound
  obtain rfl : found = d :=
    List.inj_on_of_nodup_map hdistinct (List.mem_of_find?_eq_some hfound) hd hname
  rw [patternNamed, hfound, Option.map_some]

/-- Under the name of a definition with a pattern stands this pattern, if names are distinct. -/
theorem patternNamed_eq_some {raw : Text} (hdistinct : (ds.map Definition.name).Nodup)
    (hd : d ∈ ds) (hraw : d.pattern? = some raw) :
    patternNamed ds d.name = some (some raw) := by
  rw [patternNamed_of_mem hdistinct hd, hraw]

/-- The pattern of a definition with its references resolved. -/
inductive Resolved (ds : List Definition) (d : Definition) : Option Text → Prop
  | container : d.pattern? = none → Resolved ds d none
  | pattern {raw source : Text} : d.pattern? = some raw →
      Resolves (patternNamed ds) [d.name] raw (.ok source) → Resolved ds d (some source)

/-- There are enough levels to resolve a definition. -/
theorem resolves_of_definition (ds : List Definition) (d : Definition) (raw : Text) :
    Resolves (patternNamed ds) [d.name] raw
      (Reference.resolve (patternNamed ds) (ds.length + 1) [d.name] raw) :=
  Reference.resolves_resolve (Nat.lt_succ_of_le List.countP_le_length) raw

variable {resolved : Option Text}

/-- A pattern whose references are replaced is one that the references resolve to. -/
theorem resolved_of_resolvePattern (h : resolvePattern ds d = .ok resolved) :
    Resolved ds d resolved := by
  unfold resolvePattern at h
  split at h
  · next hnone =>
    obtain rfl := Except.ok.inj h
    exact .container hnone
  · next raw hraw =>
    have hresolves := resolves_of_definition ds d raw
    split at h
    · next source hsource =>
      obtain rfl := Except.ok.inj h
      rw [hsource] at hresolves
      exact .pattern hraw hresolves
    · contradiction

/-- Where references cannot be replaced, one of them is reported with the name of the definition. -/
theorem exists_of_resolvePattern_eq_error (h : resolvePattern ds d = .error error) :
    ∃ raw reference, d.pattern? = some raw ∧ error = .unresolvedReference d.name reference ∧
      Resolves (patternNamed ds) [d.name] raw (.error reference) := by
  unfold resolvePattern at h
  split at h
  · contradiction
  · next raw hraw =>
    have hresolves := resolves_of_definition ds d raw
    split at h
    · contradiction
    · next reference hreference =>
      rw [hreference] at hresolves
      exact ⟨raw, reference, hraw, (Except.error.inj h).symm, hresolves⟩

/-- Nothing is dangling from a definition whose references are resolved. -/
theorem Resolved.not_dangling (hdistinct : (ds.map Definition.name).Nodup) (hd : d ∈ ds)
    (h : Resolved ds d resolved) : ¬ Dangling (patternNamed ds) d.name name := by
  cases h with
  | container hnone =>
    intro hdangling
    obtain ⟨raw, hraw⟩ := hdangling.exists_pattern
    simp [patternNamed_of_mem hdistinct hd, hnone] at hraw
  | pattern hraw hresolves =>
    exact hresolves.not_dangling (patternNamed_eq_some hdistinct hd hraw)

/-- A rule that has been read has no children yet. -/
theorem madeFrom_of_readRule {r : Rule} (hresolved : Resolved ds d resolved)
    (h : readRule compiler ((d, resolved), place) = .ok r) : MadeFrom compiler ds [] place d r := by
  unfold readRule at h
  cases hresolved with
  | container hnone =>
    obtain rfl := Except.ok.inj h
    exact ⟨rfl, rfl, rfl, .container hnone, rfl⟩
  | pattern hraw hresolves =>
    dsimp only at h
    split at h
    · next p hp =>
      obtain rfl := Except.ok.inj h
      exact ⟨rfl, rfl, rfl, .pattern hraw hresolves hp, rfl⟩
    · contradiction

/-- Where a pattern cannot be compiled, what the engine says is reported with the pattern as it is
written. -/
theorem exists_of_readRule_eq_error (hresolved : Resolved ds d resolved)
    (h : readRule compiler ((d, resolved), place) = .error error) :
    ∃ raw source message, d.pattern? = some raw ∧
      Resolves (patternNamed ds) [d.name] raw (.ok source) ∧
      Pattern.compile compiler source = .error message ∧
      error = .invalidPattern d.name raw message := by
  unfold readRule at h
  cases hresolved with
  | container hnone => contradiction
  | @pattern raw source hraw hresolves =>
    dsimp only at h
    split at h
    · contradiction
    · next message hmessage =>
      obtain rfl := Except.error.inj h
      exact ⟨raw, source, message, hraw, hresolves, hmessage, by simp [hraw]⟩

/-! ## Rules by place and by name -/

/-- Two definitions with one name stand at one place. -/
theorem place_unique {i j : Nat} {d' : Definition} (hdistinct : (ds.map Definition.name).Nodup)
    (hd : ds[i]? = some d) (hd' : ds[j]? = some d') (hname : d.name = d'.name) : i = j := by
  have hi : i < (ds.map Definition.name).length := by
    simpa using (List.getElem?_eq_some_iff.1 hd).1
  rw [← List.getElem?_inj hi hdistinct]
  simp [hd, hd', hname]

/-- The number of a name is the place of its definition. -/
theorem numberOf_eq (hdistinct : (ds.map Definition.name).Nodup) (hd : ds[place]? = some d) :
    numberOf ds d.name = .ofIndex place := by
  obtain ⟨hlt, rfl⟩ := List.getElem?_eq_some_iff.1 hd
  rw [numberOf, (List.findIdx_eq hlt).2]
  refine ⟨by simp, fun j hj => ?_⟩
  simp only [decide_eq_false_iff_not]
  intro hname
  have hsame : j = place := place_unique hdistinct (List.getElem?_eq_getElem _) hd hname
  omega

/-- Each rule is made by the definition at its place. -/
theorem Wired.exists_definition {r : Rule} (h : Wired compiler ds edges rules)
    (hr : rules[place]? = some r) :
    ∃ d, ds[place]? = some d ∧ MadeFrom compiler ds edges place d r := by
  have hlt : place < ds.length := h.size_eq ▸ (Array.getElem?_eq_some_iff.1 hr).1
  obtain ⟨r', hr', hmade⟩ := h.made place _ (List.getElem?_eq_getElem hlt)
  obtain rfl : r = r' := by simpa [hr] using hr'
  exact ⟨_, List.getElem?_eq_getElem hlt, hmade⟩

/-- The first rule with the name of a definition is the one at its place. -/
theorem Wired.find?_eq {r : Rule} (h : Wired compiler ds edges rules)
    (hdistinct : (ds.map Definition.name).Nodup) (hd : ds[place]? = some d)
    (hr : rules[place]? = some r) : rules.find? (fun r => r.name = d.name) = some r := by
  obtain ⟨hlt, hget⟩ := Array.getElem?_eq_some_iff.1 hr
  obtain ⟨d', hd', hmade⟩ := h.exists_definition hr
  obtain rfl : d = d' := by simpa [hd] using hd'
  refine Array.find?_eq_some_iff_getElem.2 ⟨by simp [hmade.name_eq], place, hlt, hget, ?_⟩
  intro j hj
  -- an earlier rule with this name would have the same definition
  obtain ⟨d', hd', hmade'⟩ := h.exists_definition (Array.getElem?_eq_getElem (hj.trans hlt))
  simp only [hmade'.name_eq, Bool.not_eq_true', decide_eq_false_iff_not]
  intro hname
  have hsame : j = place := place_unique hdistinct hd' hd hname
  omega

/-- A name without a definition is the name of no rule. -/
theorem Wired.find?_eq_none (h : Wired compiler ds edges rules) (hname : ¬ Registered ds name) :
    rules.find? (fun r => r.name = name) = none := by
  rw [Array.find?_eq_none]
  intro r hr
  obtain ⟨place, hr⟩ := Array.mem_iff_getElem?.1 hr
  obtain ⟨d, hd, hmade⟩ := h.exists_definition hr
  rw [hmade.name_eq, decide_eq_true_eq]
  exact fun hd' => hname ⟨d, List.mem_of_getElem? hd, hd'⟩

/-- Each registered name is found, with the rule that its definition makes. -/
theorem Wired.exists_find?_eq (h : Wired compiler ds edges rules)
    (hdistinct : (ds.map Definition.name).Nodup) (hname : Registered ds name) :
    ∃ place d r, ds[place]? = some d ∧ d.name = name ∧ rules[place]? = some r ∧
      MadeFrom compiler ds edges place d r ∧ rules.find? (fun r => r.name = name) = some r := by
  obtain ⟨d, hd, rfl⟩ := hname
  obtain ⟨place, hd⟩ := List.mem_iff_getElem?.1 hd
  obtain ⟨r, hr, hmade⟩ := h.made place d hd
  exact ⟨place, d, r, hd, rfl, hr, hmade, h.find?_eq hdistinct hd hr⟩

/-! ## Edges -/

variable {edge : Wiring.Edge}

/-- The number of a name is that of the rule with the name. -/
theorem Wired.idNamed?_eq (h : Wired compiler ds edges rules)
    (hdistinct : (ds.map Definition.name).Nodup) (hname : Registered ds name) :
    idNamed? rules name = some (numberOf ds name) := by
  obtain ⟨place, d, r, hd, rfl, -, hmade, hfind⟩ := h.exists_find?_eq hdistinct hname
  rw [idNamed?, hfind, Option.map_some, hmade.id_eq, numberOf_eq hdistinct hd]

/-- A name without a definition has no number. -/
theorem Wired.idNamed?_eq_none (h : Wired compiler ds edges rules) (hname : ¬ Registered ds name) :
    idNamed? rules name = none := by
  rw [idNamed?, h.find?_eq_none hname, Option.map_none]

/-- An edge that is wired is between two rules. -/
theorem known_of_wire (h : Wired compiler ds edges rules) (hwire : wire rules edge = .ok rules') :
    Known ds edge := by
  unfold wire at hwire
  refine ⟨by_contra fun hparent => ?_, by_contra fun hchild => ?_⟩
  · simp [h.idNamed?_eq_none hparent] at hwire
  · rw [h.idNamed?_eq_none hchild] at hwire
    split at hwire
    · contradiction
    · contradiction

/-- An edge gives its parent one more child, and changes nothing else. -/
theorem wired_of_wire (hlimit : ds.length ≤ RuleId.limit)
    (hdistinct : (ds.map Definition.name).Nodup) (h : Wired compiler ds edges rules)
    (hwire : wire rules edge = .ok rules') : Wired compiler ds (edges ++ [edge]) rules' := by
  obtain ⟨hparent, hchild⟩ := known_of_wire h hwire
  have hchildren : rules' = rules.modify (numberOf ds edge.parent).index
      fun r => { r with children := r.children ++ [numberOf ds edge.child] } := by
    simpa [wire, h.idNamed?_eq hdistinct hparent, h.idNamed?_eq hdistinct hchild] using hwire.symm
  obtain ⟨parent, hd, hname⟩ := hparent
  obtain ⟨i, hat⟩ := List.mem_iff_getElem?.1 hd
  have hindex : (numberOf ds edge.parent).index = i := by
    rw [← hname, numberOf_eq hdistinct hat, RuleId.index_ofIndex]
    exact ((List.getElem?_eq_some_iff.1 hat).1).trans_le hlimit
  -- the number of the parent is its place, so it is the parent that is changed
  rw [hindex] at hchildren
  subst hchildren
  refine ⟨by simp [h.size_eq], fun place d hd => ?_⟩
  obtain ⟨r, hr, hmade⟩ := h.made place d hd
  rw [Array.getElem?_modify, hr]
  by_cases hplace : i = place
  · subst hplace
    obtain rfl : parent = d := by simpa [hat] using hd
    refine ⟨_, if_pos rfl, hmade.id_eq, hmade.name_eq, hmade.hooks_eq, hmade.reads, ?_⟩
    simp [List.filter_append, hmade.children_eq, hname]
  · have hother : edge.parent ≠ d.name := fun hsame =>
      hplace (place_unique hdistinct hat hd (hname.trans hsame))
    refine ⟨r, if_neg hplace, hmade.id_eq, hmade.name_eq, hmade.hooks_eq, hmade.reads, ?_⟩
    simp [List.filter_append, hmade.children_eq, hother]

/-- Where an edge cannot be wired, the first of its names that is no rule is reported. -/
theorem edgeFault_of_wire (hdistinct : (ds.map Definition.name).Nodup)
    (h : Wired compiler ds edges rules) (hwire : wire rules edge = .error error) :
    EdgeFault ds edge error := by
  unfold wire at hwire
  by_cases hparent : Registered ds edge.parent
  · by_cases hchild : Registered ds edge.child
    · simp [h.idNamed?_eq hdistinct hparent, h.idNamed?_eq hdistinct hchild] at hwire
    · obtain rfl : .unknownRule edge.child edge.line = error := by
        simpa [h.idNamed?_eq hdistinct hparent, h.idNamed?_eq_none hchild] using hwire
      exact .child hparent hchild
  · obtain rfl : .unknownRule edge.parent edge.line = error := by
      simpa [h.idNamed?_eq_none hparent] using hwire
    exact .parent hparent

/-- Edges give their parents their children, in order. -/
theorem wired_of_foldlM_wire {more : List Wiring.Edge} (hlimit : ds.length ≤ RuleId.limit)
    (hdistinct : (ds.map Definition.name).Nodup) (h : Wired compiler ds edges rules)
    (hfold : more.foldlM wire rules = .ok rules') :
    (∀ edge ∈ more, Known ds edge) ∧ Wired compiler ds (edges ++ more) rules' := by
  induction more generalizing edges rules with
  | nil =>
    obtain rfl : rules = rules' := by simpa [pure, Except.pure] using hfold
    simpa using h
  | cons edge more ih =>
    rw [List.foldlM_cons, bind_eq_ok] at hfold
    obtain ⟨rules₁, hwire, hfold⟩ := hfold
    obtain ⟨hknown, hwired⟩ := ih (wired_of_wire hlimit hdistinct h hwire) hfold
    exact ⟨List.forall_mem_cons.2 ⟨known_of_wire h hwire, hknown⟩, by simpa using hwired⟩

/-- The first edge with a name that is not registered is reported. -/
theorem edgeFault_of_foldlM_wire {more : List Wiring.Edge} (hlimit : ds.length ≤ RuleId.limit)
    (hdistinct : (ds.map Definition.name).Nodup) (h : Wired compiler ds edges rules)
    (hfold : more.foldlM wire rules = .error error) :
    ∃ before edge after, more = before ++ edge :: after ∧ (∀ e ∈ before, Known ds e) ∧
      EdgeFault ds edge error := by
  induction more generalizing edges rules with
  | nil => simp [pure, Except.pure] at hfold
  | cons edge more ih =>
    rw [List.foldlM_cons, bind_eq_error] at hfold
    obtain hwire | ⟨rules₁, hwire, hfold⟩ := hfold
    · exact ⟨[], edge, more, rfl, by simp, edgeFault_of_wire hdistinct h hwire⟩
    · obtain ⟨before, edge', after, rfl, hbefore, hfault⟩ :=
        ih (wired_of_wire hlimit hdistinct h hwire) hfold
      exact ⟨edge :: before, edge', after, rfl,
        List.forall_mem_cons.2 ⟨known_of_wire h hwire, hbefore⟩, hfault⟩

/-! ## All stages -/

variable {patterns : List (Option Text)} {read : List Rule}

/-- What the patterns are read from: each definition with its resolved pattern, at its place. -/
theorem resolved_of_mapM (h : ds.mapM (resolvePattern ds) = .ok patterns) :
    ∀ entry ∈ (ds.zip patterns).zipIdx,
      ds[entry.2]? = some entry.1.1 ∧ Resolved ds entry.1.1 entry.1.2 := by
  intro entry hentry
  obtain ⟨hd, hpattern⟩ := List.getElem?_zip_eq_some.1 (List.mem_zipIdx_iff_getElem?.1 hentry)
  obtain ⟨resolved, hresolved, hstep⟩ := (exists_getElem?_of_mapM h).2 _ _ hd
  obtain rfl : entry.1.2 = resolved := by simpa [hpattern] using hresolved
  exact ⟨hd, resolved_of_resolvePattern hstep⟩

/-- Each definition makes a rule, which has no children yet. -/
theorem wired_of_mapM (hpatterns : ds.mapM (resolvePattern ds) = .ok patterns)
    (hread : (ds.zip patterns).zipIdx.mapM (readRule compiler) = .ok read) :
    Wired compiler ds [] read.toArray := by
  obtain ⟨hlength, hpattern⟩ := exists_getElem?_of_mapM hpatterns
  obtain ⟨hsize, hrule⟩ := exists_getElem?_of_mapM hread
  refine ⟨by simp [hsize, hlength], fun place d hd => ?_⟩
  obtain ⟨resolved, hresolved, hstep⟩ := hpattern place d hd
  have hzip : (ds.zip patterns)[place]? = some (d, resolved) :=
    List.getElem?_zip_eq_some.2 ⟨hd, hresolved⟩
  have hentry : (ds.zip patterns).zipIdx[place]? = some ((d, resolved), place) := by
    simp [List.getElem?_zipIdx, hzip]
  obtain ⟨r, hr, hmade⟩ := hrule place _ hentry
  exact ⟨r, by simpa using hr, madeFrom_of_readRule (resolved_of_resolvePattern hstep) hmade⟩

/-- If all references can be replaced, none of them leads to a name without a definition. -/
theorem closed_of_mapM (hdistinct : (ds.map Definition.name).Nodup)
    (h : ds.mapM (resolvePattern ds) = .ok patterns) :
    ∀ d ∈ ds, ∀ name, ¬ Dangling (patternNamed ds) d.name name := by
  intro d hd name
  obtain ⟨place, hplace⟩ := List.mem_iff_getElem?.1 hd
  obtain ⟨resolved, -, hstep⟩ := (exists_getElem?_of_mapM h).2 place d hplace
  exact (resolved_of_resolvePattern hstep).not_dangling hdistinct hd

/-- The patterns of all definitions that have made rules have been compiled. -/
theorem Wired.readable (h : Wired compiler ds edges rules) :
    ∀ d ∈ ds, ∃ pattern?, Reads compiler ds d pattern? := by
  intro d hd
  obtain ⟨place, hplace⟩ := List.mem_iff_getElem?.1 hd
  obtain ⟨r, -, hmade⟩ := h.made place d hplace
  exact ⟨r.pattern?, hmade.reads⟩

theorem contains_empty_iff (name : Text) : (∅ : Std.TreeSet Text).contains name ↔ name ∈ [] := by
  simp

/-- Definitions whose names pass the check have proper names. -/
theorem properNames_of_checkNames_empty (h : checkNames ∅ ds = .ok ()) : ProperNames ds := by
  obtain ⟨hvalid, hdistinct⟩ := properNames_of_checkNames contains_empty_iff List.nodup_nil h
  exact ⟨hvalid, by simpa using hdistinct⟩

/-- The first definition whose references cannot be resolved is reported. -/
theorem fault_of_references (hlimit : ds.length ≤ RuleId.limit) (hnames : ProperNames ds)
    (h : ds.mapM (resolvePattern ds) = .error error) : Fault compiler ds root wiring error := by
  obtain ⟨before, d, after, hsplit, hbefore, hd⟩ := exists_of_mapM_eq_error h
  obtain ⟨raw, reference, hraw, rfl, hresolves⟩ := exists_of_resolvePattern_eq_error hd
  refine .reference hlimit hnames hsplit (fun d' hd' name => ?_) hraw hresolves
  obtain ⟨resolved, hresolved⟩ := hbefore d' hd'
  have hmem : d' ∈ ds := hsplit ▸ List.mem_append_left _ hd'
  exact (resolved_of_resolvePattern hresolved).not_dangling hnames.distinct hmem

/-- The first definition whose pattern cannot be read is reported. -/
theorem fault_of_patterns (hlimit : ds.length ≤ RuleId.limit) (hnames : ProperNames ds)
    (hpatterns : ds.mapM (resolvePattern ds) = .ok patterns)
    (h : (ds.zip patterns).zipIdx.mapM (readRule compiler) = .error error) :
    Fault compiler ds root wiring error := by
  obtain ⟨before, ⟨⟨d, resolved⟩, place⟩, after, hsplit, hbefore, hd⟩ := exists_of_mapM_eq_error h
  have hentries := resolved_of_mapM hpatterns
  rw [hsplit] at hentries
  obtain ⟨-, hresolved⟩ := hentries _ (List.mem_append_right _ List.mem_cons_self)
  obtain ⟨raw, source, message, hraw, hresolves, hcompile, rfl⟩ :=
    exists_of_readRule_eq_error hresolved hd
  -- the definitions that were read before are those before this one
  have hds : ds = before.map (fun entry => entry.1.1) ++ d :: after.map fun entry => entry.1.1 := by
    have hlength : ds.length ≤ patterns.length := (exists_getElem?_of_mapM hpatterns).1.ge
    calc ds = ((ds.zip patterns).zipIdx.map Prod.fst).map Prod.fst := by
          rw [List.zipIdx_map_fst, List.map_fst_zip hlength]
      _ = _ := by rw [hsplit]; simp [Function.comp_def]
  refine .pattern hlimit hnames (closed_of_mapM hnames.distinct hpatterns) hds ?_ hraw hresolves
    hcompile
  intro d' hd'
  obtain ⟨⟨⟨d', resolved'⟩, place'⟩, hmem, rfl⟩ := List.mem_map.1 hd'
  obtain ⟨r, hr⟩ := hbefore _ hmem
  obtain ⟨-, hresolved'⟩ := hentries _ (List.mem_append_left _ hmem)
  exact ⟨r.pattern?, (madeFrom_of_readRule hresolved' hr).reads⟩

/-- A name that does not pass the check is the fault that is reported. -/
theorem fault_of_checkNames_empty (hlimit : ds.length ≤ RuleId.limit)
    (h : checkNames ∅ ds = .error error) : Fault compiler ds root wiring error := by
  obtain ⟨before, d, after, hsplit, hvalid, hdistinct, hfault⟩ :=
    nameFault_of_checkNames contains_empty_iff List.nodup_nil h
  exact .name hlimit hsplit ⟨hvalid, by simpa using hdistinct⟩ (by simpa using hfault)

/-- Definitions whose names, references and patterns pass are acceptable. -/
theorem acceptable_of_stages (hlimit : ds.length ≤ RuleId.limit) (hnames : ProperNames ds)
    (hpatterns : ds.mapM (resolvePattern ds) = .ok patterns)
    (hread : (ds.zip patterns).zipIdx.mapM (readRule compiler) = .ok read) :
    Acceptable compiler ds where
  length_le := hlimit
  names := hnames
  closed := closed_of_mapM hnames.distinct hpatterns
  readable := (wired_of_mapM hpatterns hread).readable

/-- What is left to do once rules have been read. -/
theorem outcome_of_wiring (hacceptable : Acceptable compiler ds)
    (hrules : Wired compiler ds [] rules) :
    Outcome compiler ds root wiring (do
      let edges ← readWiring wiring
      let rules ← edges.foldlM wire rules
      match rules.find? fun r => r.name = root with
      | none => throw (.unknownRoot root)
      | some rule => return { rules, root := rule }) := by
  have hdistinct := hacceptable.names.distinct
  cases hwiring : readWiring wiring with
  | error e => exact .wiring hacceptable hwiring
  | ok edges =>
    cases hfold : edges.foldlM wire rules with
    | error e =>
      obtain ⟨before, edge, after, rfl, hbefore, hfault⟩ :=
        edgeFault_of_foldlM_wire hacceptable.length_le hdistinct hrules hfold
      simp only [bind, Except.bind, hfold]
      exact .edge hacceptable hwiring hbefore hfault
    | ok rules' =>
      obtain ⟨hknown, hwired⟩ :=
        wired_of_foldlM_wire hacceptable.length_le hdistinct hrules hfold
      simp only [bind, Except.bind, hfold]
      cases hroot : rules'.find? fun r => r.name = root with
      | none =>
        refine .root hacceptable hwiring hknown fun hregistered => ?_
        -- a rule with the name of the root would have been found
        obtain ⟨-, -, r, -, -, -, -, hfind⟩ := hwired.exists_find?_eq hdistinct hregistered
        rw [hroot] at hfind
        contradiction
      | some r => exact ⟨hacceptable, edges, hwiring, hknown, hwired, hroot⟩

/-- What comes out is a grammar whose rules are made by the definitions and the wiring, or the fault
of the first stage that has one. -/
theorem outcome_compile (ds : List Definition) (root wiring : Text) :
    Outcome compiler ds root wiring (compile compiler ds root wiring) := by
  unfold compile
  split
  · next hmany => exact .tooMany hmany
  · next hmany =>
    have hlimit : ds.length ≤ RuleId.limit := Nat.le_of_not_lt hmany
    -- stage by stage, either one fails or what it has checked is kept for the ones behind it
    cases hchecked : checkNames ∅ ds with
    | error e => exact fault_of_checkNames_empty hlimit hchecked
    | ok checked =>
      have hnames : ProperNames ds := properNames_of_checkNames_empty hchecked
      cases hpatterns : ds.mapM (resolvePattern ds) with
      | error e => exact fault_of_references hlimit hnames hpatterns
      | ok patterns =>
        cases hread : (ds.zip patterns).zipIdx.mapM (readRule compiler) with
        | error e =>
          simp only [bind, Except.bind, hread]
          exact fault_of_patterns hlimit hnames hpatterns hread
        | ok read =>
          simp only [bind, Except.bind, hread]
          exact outcome_of_wiring (acceptable_of_stages hlimit hnames hpatterns hread)
            (wired_of_mapM hpatterns hread)

/-- What comes out is one of the outcomes that there may be. -/
theorem outcome_of_compile {result : Except GrammarError Grammar}
    (h : compile compiler ds root wiring = result) : Outcome compiler ds root wiring result :=
  h ▸ outcome_compile ds root wiring

/-- A grammar is compiled from acceptable definitions alone. -/
theorem acceptable_of_compile {g : Grammar} (h : compile compiler ds root wiring = .ok g) :
    Acceptable compiler ds :=
  (outcome_of_compile h).1

/-- Each rule of a grammar that has been compiled is made by a definition. -/
theorem exists_madeFrom_of_compile {g : Grammar} {r : Rule}
    (h : compile compiler ds root wiring = .ok g) (hr : r ∈ g.rules) :
    ∃ edges place d, ds[place]? = some d ∧ MadeFrom compiler ds edges place d r := by
  obtain ⟨-, edges, -, -, hwired, -⟩ := outcome_of_compile h
  obtain ⟨place, hr⟩ := Array.mem_iff_getElem?.1 hr
  obtain ⟨d, hd, hmade⟩ := hwired.exists_definition hr
  exact ⟨edges, place, d, hd, hmade⟩

end Cascade.Grammar
