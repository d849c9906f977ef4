import Cascade.Proofs.Grammar.Stages
import Cascade.Regex.Compiler

/-!
# What comes out when a grammar is compiled

* `Fault.elim`: nothing is wrong with what passes all stages.
* `stages_of_compile`: when a grammar is compiled, what is reported if not, and what its rules are.
-/

namespace Cascade.Grammar

variable {compiler : PatternCompiler} {ds : List Definition} {root wiring name : Text}
  {d : Definition} {error : GrammarError} {edges : List Wiring.Edge} {rules : Array Rule}
  {place : Nat}

/-! ## What is wrong if something is -/

/-- Proper names have no fault. -/
theorem NameFault.elim {before after : List Definition} (hnames : ProperNames ds)
    (hsplit : ds = before ++ d :: after) (h : NameFault (before.map Definition.name) d error) :
    False := by
  cases h with
  | invalid hinvalid => exact hinvalid (hnames.valid d (by simp [hsplit]))
  | duplicate _ htaken =>
    have hdistinct := hnames.distinct
    rw [hsplit, List.map_append, List.nodup_append] at hdistinct
    exact hdistinct.2.2 d.name htaken d.name (by simp) rfl

/-- An edge between known names has no fault. -/
theorem EdgeFault.elim {edge : Wiring.Edge} (hknown : Known ds edge)
    (h : EdgeFault ds edge error) : False := by
  cases h with
  | parent hparent => exact hparent hknown.1
  | child _ hchild => exact hchild hknown.2

/-- Behind acceptable definitions and a wiring that can be read, only an edge or the root can be at
fault. -/
theorem Fault.edge_or_root (hacceptable : Acceptable compiler ds)
    (hwiring : readWiring wiring = .ok edges)
    (h : Fault compiler ds root wiring error) :
    (∃ edge ∈ edges, EdgeFault ds edge error) ∨
      (∀ e ∈ edges, Known ds e) ∧ ¬ Registered ds root ∧ error = .unknownRoot root := by
  -- the faults of the stages before are excluded one by one
  cases h with
  | tooMany hmany => exact absurd hacceptable.length_le (Nat.not_le_of_lt hmany)
  | name _ hsplit _ hfault => exact (hfault.elim hacceptable.names hsplit).elim
  | @reference _ _ d _ reference _ _ hsplit _ hraw hresolves =>
    have hd : d ∈ ds := by simp [hsplit]
    have hrule := patternNamed_eq_some hacceptable.names.distinct hd hraw
    exact absurd (hresolves.dangling hrule) (hacceptable.closed d hd reference)
  | @pattern _ _ d _ _ _ _ _ _ hsplit _ hraw hresolves hcompile =>
    obtain ⟨pattern?, hreads⟩ := hacceptable.readable d (by simp [hsplit])
    cases hreads with
    | container hnone => simp [hraw] at hnone
    | pattern hraw' hresolves' hcompile' =>
      obtain rfl := Option.some.inj (hraw.symm.trans hraw')
      obtain rfl := Except.ok.inj (hresolves.unique hresolves')
      simp [hcompile] at hcompile'
  | wiring _ hfault => simp [hwiring] at hfault
  | @edge _ _ edge _ _ hedges _ hfault =>
    obtain rfl := Except.ok.inj (hwiring.symm.trans hedges)
    exact .inl ⟨edge, by simp, hfault⟩
  | root _ hedges hknown hroot =>
    obtain rfl := Except.ok.inj (hwiring.symm.trans hedges)
    exact .inr ⟨hknown, hroot, rfl⟩

/-- Nothing is wrong with acceptable definitions, edges between rules and a root that is a rule. -/
theorem Fault.elim (hacceptable : Acceptable compiler ds) (hwiring : readWiring wiring = .ok edges)
    (hknown : ∀ e ∈ edges, Known ds e) (hroot : Registered ds root)
    (h : Fault compiler ds root wiring error) : False := by
  rcases h.edge_or_root hacceptable hwiring with ⟨edge, hedge, hfault⟩ | ⟨-, hnone, -⟩
  · exact hfault.elim (hknown edge hedge)
  · exact hnone hroot

/-! ## Rules by number and by name -/

/-- No number is lost when the rules of acceptable definitions are numbered. -/
theorem Wired.index_eq {r : Rule} (h : Wired compiler ds edges rules)
    (hlimit : ds.length ≤ RuleId.limit) (hr : rules[place]? = some r) : r.id.index = place := by
  obtain ⟨d, hd, hmade⟩ := h.exists_definition hr
  rw [hmade.id_eq, RuleId.index_ofIndex]
  exact (List.getElem?_eq_some_iff.1 hd).1.trans_le hlimit

theorem Wired.find?_name_eq {r : Rule} (h : Wired compiler ds edges rules)
    (hdistinct : (ds.map Definition.name).Nodup) (hr : rules[place]? = some r) :
    rules.find? (fun r' => r'.name = r.name) = some r := by
  obtain ⟨d, hd, hmade⟩ := h.exists_definition hr
  rw [hmade.name_eq]
  exact h.find?_eq hdistinct hd hr

theorem Wired.isSome_find?_iff (h : Wired compiler ds edges rules)
    (hdistinct : (ds.map Definition.name).Nodup) :
    (rules.find? fun r => r.name = name).isSome ↔ Registered ds name := by
  constructor
  · intro hsome
    by_contra hname
    simp [h.find?_eq_none hname] at hsome
  · intro hname
    obtain ⟨-, -, r, -, -, -, -, hfind⟩ := h.exists_find?_eq hdistinct hname
    simp [hfind]

/-- A grammar is compiled exactly if all stages pass. -/
theorem exists_compile_iff : (∃ g, compile compiler ds root wiring = .ok g) ↔
    Acceptable compiler ds ∧ (∃ edges, readWiring wiring = .ok edges ∧ ∀ e ∈ edges, Known ds e) ∧
      Registered ds root := by
  cases hcompile : compile compiler ds root wiring with
  | error error =>
    have hfault : Fault compiler ds root wiring error := outcome_of_compile hcompile
    refine ⟨by simp, ?_⟩
    rintro ⟨hacceptable, ⟨edges, hwiring, hknown⟩, hroot⟩
    exact (hfault.elim hacceptable hwiring hknown hroot).elim
  | ok g =>
    obtain ⟨hacceptable, edges, hwiring, hknown, hwired, hroot⟩ := outcome_of_compile hcompile
    refine ⟨fun _ => ⟨hacceptable, ⟨edges, hwiring, hknown⟩, ?_⟩, fun _ => ⟨g, rfl⟩⟩
    exact (hwired.isSome_find?_iff hacceptable.names.distinct).1 (Option.isSome_of_eq_some hroot)

/-- The rules of a grammar that has been compiled are made by the definitions at their places, and
are found by their numbers and their names. -/
theorem exists_wired_of_compile {g : Grammar} (h : compile compiler ds root wiring = .ok g) :
    ∃ edges, readWiring wiring = .ok edges ∧ Wired compiler ds edges g.rules ∧
      (∀ place r, g.rules[place]? = some r → r.id.index = place ∧ g.rule? r.name = some r) ∧
      (∀ name, (g.rule? name).isSome ↔ Registered ds name) ∧ g.rule? root = some g.root := by
  obtain ⟨hacceptable, edges, hwiring, -, hwired, hroot⟩ := outcome_of_compile h
  have hdistinct := hacceptable.names.distinct
  refine ⟨edges, hwiring, hwired, fun place r hr => ?_,
    fun name => hwired.isSome_find?_iff hdistinct, hroot⟩
  exact ⟨hwired.index_eq hacceptable.length_le hr, hwired.find?_name_eq hdistinct hr⟩

/-- A grammar is compiled from acceptable definitions, a wiring whose edges are between rules, and a
root that is a rule. Otherwise the fault of the first stage that has one is reported. The rules are
made by the definitions at their places, and are found by their numbers and their names. -/
theorem stages_of_compile (compiler : PatternCompiler) (ds : List Definition)
    (root wiring : Text) :
    ((∃ g, compile compiler ds root wiring = .ok g) ↔
      Acceptable compiler ds ∧ (∃ edges, readWiring wiring = .ok edges ∧ ∀ e ∈ edges, Known ds e) ∧
        Registered ds root) ∧
    (∀ error, compile compiler ds root wiring = .error error →
      Fault compiler ds root wiring error) ∧
    ∀ g, compile compiler ds root wiring = .ok g → ∃ edges, readWiring wiring = .ok edges ∧
      Wired compiler ds edges g.rules ∧
      (∀ place r, g.rules[place]? = some r → r.id.index = place ∧ g.rule? r.name = some r) ∧
      (∀ name, (g.rule? name).isSome ↔ Registered ds name) ∧ g.rule? root = some g.root :=
  ⟨exists_compile_iff, fun _ => outcome_of_compile, fun _ => exists_wired_of_compile⟩

/-- A root and two letters, one of which refers to the other. -/
def letters : List Definition :=
  [⟨"Root".toList, none, .identity⟩, ⟨"a".toList, some "x<<b>>".toList, .identity⟩,
    ⟨"b".toList, some "y".toList, .identity⟩]

/-- A child that is written twice is wired twice. -/
theorem stages_of_compile_letters : ∃ g r,
    compile Regex.compiler letters "Root".toList "Root:\n  - b\n  - b".toList = .ok g ∧
      g.rules[0]? = some r ∧ r.children = [⟨2⟩, ⟨2⟩] := by
  obtain ⟨g, hcompile⟩ := exists_eq_ok_of_isOk
    (x := compile Regex.compiler letters "Root".toList "Root:\n  - b\n  - b".toList)
    (by decide +kernel)
  obtain ⟨-, -, hrules⟩ := stages_of_compile Regex.compiler letters "Root".toList
    "Root:\n  - b\n  - b".toList
  obtain ⟨edges, hwiring, hwired, -⟩ := hrules g hcompile
  obtain ⟨r, hr, hmade⟩ := hwired.made 0 _ rfl
  obtain rfl : [⟨"Root".toList, "b".toList, 2⟩, ⟨"Root".toList, "b".toList, 3⟩] = edges :=
    Except.ok.inj hwiring
  exact ⟨g, r, hcompile, hr, hmade.children_eq⟩

end Cascade.Grammar
