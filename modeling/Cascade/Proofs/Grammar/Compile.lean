import Cascade.Grammar.Data
import Cascade.Proofs.Grammar.Scan
import Cascade.Proofs.Grammar.Stages

/-!
# The rules of a grammar that has been compiled

Compiling a grammar makes one rule of each definition. The rule keeps the name, which has been
checked, and the hooks.

* `Named`, `NamesApart`: all rules have names that rules may have, and no two rules have one name.
* `exists_definition_of_compile`, `named_of_compile`: rules come from definitions.
* `exists_template_of_compile`: the rules of a grammar that is given as data have template hooks.
* `faithful_of_compile`, `ordered_of_compile`, `capturesFaithfully_of_compile`: patterns that a
  reliable engine has compiled can be relied on.
-/

namespace Cascade

/-- All rules have names that rules may have. -/
def Grammar.Named (g : Grammar) : Prop :=
  ∀ r ∈ g.rules, Token.isRuleName r.name

/-- Rules are told apart by their names. -/
def Grammar.NamesApart (g : Grammar) : Prop :=
  ∀ r ∈ g.rules, ∀ r' ∈ g.rules, r.name = r'.name → r.id = r'.id

namespace Grammar

variable {compiler : PatternCompiler} {ds : List Definition} {root wiring : Text} {g : Grammar}

/-- A rule has the name and the hooks of one of the definitions. -/
def Defined (ds : List Definition) (r : Rule) : Prop :=
  ∃ d ∈ ds, r.name = d.name ∧ r.hooks = d.hooks

/-- The rules of a grammar that has been compiled have the names and the hooks of its definitions.
Their names have been checked, and the root is one of them. -/
theorem exists_definition_of_compile (h : compile compiler ds root wiring = .ok g) :
    (∀ r ∈ g.rules, Defined ds r) ∧ (∀ d ∈ ds, Token.isRuleName d.name) ∧ g.root ∈ g.rules := by
  obtain ⟨hacceptable, -, -, -, -, hroot⟩ := outcome_of_compile h
  refine ⟨fun r hr => ?_, hacceptable.names.valid, Array.mem_of_find?_eq_some hroot⟩
  obtain ⟨edges, place, d, hd, hmade⟩ := exists_madeFrom_of_compile h hr
  exact ⟨d, List.mem_of_getElem? hd, hmade.name_eq, hmade.hooks_eq⟩

/-- The rules of a grammar that has been compiled have names that rules may have. -/
theorem named_of_compile (h : compile compiler ds root wiring = .ok g) : g.Named := by
  obtain ⟨hdefined, hnames, -⟩ := exists_definition_of_compile h
  intro r hr
  obtain ⟨d, hd, hname, -⟩ := hdefined r hr
  rw [hname]
  exact hnames d hd

/-- No two rules of a grammar that has been compiled have one name. -/
theorem namesApart_of_compile (h : compile compiler ds root wiring = .ok g) : g.NamesApart := by
  intro r hr r' hr' heq
  obtain ⟨edges, place, d, hd, hmade⟩ := exists_madeFrom_of_compile h hr
  obtain ⟨edges', place', d', hd', hmade'⟩ := exists_madeFrom_of_compile h hr'
  have hacceptable := acceptable_of_compile h
  have hname : d.name = d'.name := hmade.name_eq.symm.trans (heq.trans hmade'.name_eq)
  rw [hmade.id_eq, hmade'.id_eq, place_unique hacceptable.names.distinct hd hd' hname]

/-! ## Patterns -/

/-- The patterns of rules have been compiled by the engine. -/
theorem exists_compile_of_compile (h : compile compiler ds root wiring = .ok g) {r : Rule}
    (hr : r ∈ g.rules) {p : Pattern} (hp : r.pattern? = some p) :
    ∃ source, Pattern.compile compiler source = .ok p := by
  obtain ⟨edges, place, d, -, hmade⟩ := exists_madeFrom_of_compile h hr
  have hreads := hmade.reads
  rw [hp] at hreads
  cases hreads with
  | pattern _ _ hcompile => exact ⟨_, hcompile⟩

variable (hreliable : compiler.Reliable)

include hreliable

/-- If its patterns come from a reliable compiler, a grammar finds what stands in the text. -/
theorem faithful_of_compile (h : compile compiler ds root wiring = .ok g) : g.Faithful := by
  intro r hr p hp
  obtain ⟨source, hsource⟩ := exists_compile_of_compile h hr hp
  exact hreliable.faithful source p hsource

/-- If its patterns come from a reliable compiler, a grammar finds matches one behind the other. -/
theorem ordered_of_compile (h : compile compiler ds root wiring = .ok g) : g.Ordered := by
  intro r hr p hp
  obtain ⟨source, hsource⟩ := exists_compile_of_compile h hr hp
  exact hreliable.ordered source p hsource

/-- If its patterns come from a reliable compiler, groups capture what stands in the text. -/
theorem capturesFaithfully_of_compile (h : compile compiler ds root wiring = .ok g) :
    g.CapturesFaithfully := by
  intro r hr p hp
  obtain ⟨source, hsource⟩ := exists_compile_of_compile h hr hp
  exact hreliable.capturesFaithfully source p hsource

end Grammar

/-- The rules of a grammar that is given as data have the hooks of the templates it gives. -/
theorem DataGrammar.exists_template_of_compile {compiler : PatternCompiler} {dg : DataGrammar}
    {g : Grammar} (h : dg.compile compiler = .ok g) :
    ∀ r ∈ g.rules, ∃ d ∈ dg.rules, r.hooks = Replacement.hooks d.replacement? d.inline := by
  intro r hr
  obtain ⟨definition, hdefinition, -, hhooks⟩ :=
    (Grammar.exists_definition_of_compile h).1 r hr
  obtain ⟨d, hd, rfl⟩ := List.mem_map.1 hdefinition
  exact ⟨d, hd, hhooks⟩

end Cascade
