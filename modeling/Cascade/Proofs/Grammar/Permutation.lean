import Cascade.Proofs.Grammar.Compile
import Cascade.Proofs.Grammar.Outcome
import Cascade.Proofs.Hook.Number

/-!
# The order of definitions

The same definitions in another order make the same grammar with other rule numbers, and parses with
the two grammars differ in rule numbers only, if no hook reads these.

* `Grammar.Renumbers`: two grammars that differ in rule numbers only.
* `Engine.run_renumber`: parses with two such grammars.
* `renumbering`: from the number of a rule in one order to that in the other.
* `parse_eq_of_perm`: a permutation of definitions.
-/

namespace Cascade

/-- Grammars whose rules are the same but for their numbers, each of which `f` gives for the other
one. -/
structure Grammar.Renumbers (f : RuleId → RuleId) (g g' : Grammar) : Prop where
  injective : f.Injective
  ruleAt?_eq : ∀ id, g'.ruleAt? (f id) = (g.ruleAt? id).map (Rule.renumber f)

namespace Engine

open Cascade.Tree

variable {f : RuleId → RuleId} {g g' : Grammar} {t : Tree}

/-- A hook that does not read numbers does the same in a tree with other numbers. -/
theorem hooksAlike_of_ignoresNumbers {α : Type} {hook : HookM α} (hhook : hook.IgnoresNumbers)
    (hf : f.Injective) (t : Tree) (id : NodeId) :
    HooksAlike (fun t t' => t' = t.renumber f) t (t.renumber f) id hook hook := by
  have hrun := hhook f hf ⟨t, id⟩ (View.states ⟨t, id⟩)
  have hstates : View.states ⟨t.renumber f, id⟩ = View.states ⟨t, id⟩ :=
    View.states_renumber (v := ⟨t, id⟩)
  have hview : View.renumber f ⟨t, id⟩ = ⟨t.renumber f, id⟩ := rfl
  rw [HooksAlike, hstates, ← hview, hrun]
  cases (hook.run ⟨t, id⟩).run (View.states ⟨t, id⟩) with
  | error message => exact .error message
  | ok result => exact .ok ⟨rfl, (View.renumber_withStates (v := ⟨t, id⟩) result.2).symm⟩

/-- A grammar side by side with one that differs from it in rule numbers only. -/
def Simulation.ofNumbers (h : g.Renumbers f g') (hg : ∀ r ∈ g.rules, r.hooks.IgnoreNumbers) :
    Simulation g g' where
  rules r r' := r ∈ g.rules ∧ r' = r.renumber f
  trees t t' := t' = t.renumber f
  name_eq := by
    rintro r _ ⟨-, rfl⟩
    rfl
  pattern_eq := by
    rintro r _ ⟨-, rfl⟩
    rfl
  children := by
    rintro r _ ⟨-, rfl⟩
    refine List.forall₂_map_right_iff.2 (List.forall₂_same.2 fun id _ => ?_)
    rw [h.ruleAt?_eq]
    cases hrule : g.ruleAt? id with
    | none => exact .none
    | some child => exact .some ⟨Array.mem_of_getElem? hrule, rfl⟩
  onCapture := by
    rintro r _ t _ id ⟨hr, rfl⟩ rfl
    exact hooksAlike_of_ignoresNumbers (hg r hr).capture h.injective t id
  onSubstitute := by
    rintro r _ t _ id ⟨hr, rfl⟩ rfl
    exact hooksAlike_of_ignoresNumbers (hg r hr).substitute h.injective t id
  onResolve := by
    rintro r _ t _ id ⟨hr, rfl⟩ rfl
    exact hooksAlike_of_ignoresNumbers (hg r hr).resolve h.injective t id
  size_eq := by
    rintro t _ rfl
    exact size_renumber.symm
  working_eq := by
    rintro t _ id rfl
    exact (field_node_renumber _ (fun _ => rfl) id).symm
  own_eq := by
    rintro t _ id rfl
    exact (field_node_renumber _ (fun _ => rfl) id).symm
  trees_addMatch := by
    rintro r _ t _ p m ⟨-, rfl⟩ rfl
    exact (renumber_addMatch h.injective p r m).symm
  trees_setModified := by
    rintro t _ id text rfl
    exact (renumber_setModified id text).symm
  trees_setWorking := by
    rintro t _ id text rfl
    exact (renumber_setWorking id text).symm
  trees_linkChildren := by
    rintro t _ id rfl
    exact (renumber_linkChildren t id).symm

/-- Parses that start from the same rule differ in rule numbers only. -/
theorem run_renumber (h : g.Renumbers f g') (hg : ∀ r ∈ g.rules, r.hooks.IgnoreNumbers)
    {rule : Rule} (hrule : rule ∈ g.rules) (input : Text) (seed : State) :
    run g' (rule.renumber f) input seed = (run g rule input seed).map (renumber f) := by
  have hstart := (renumber_startTree (f := f) rule input seed).symm
  exact ((Simulation.ofNumbers h hg).alike_run ⟨hrule, rfl⟩ hstart).eq_map

end Engine

namespace Grammar

variable {compiler : PatternCompiler} {ds ds' : List Definition} {root wiring name : Text}
  {d : Definition}
  {edges : List Wiring.Edge} {g g' : Grammar}

/-! ## Compiling does not depend on the order -/

theorem registered_perm (h : ds.Perm ds') : Registered ds name ↔ Registered ds' name := by
  simp only [Registered, h.mem_iff]

theorem known_perm (h : ds.Perm ds') {edge : Wiring.Edge} : Known ds edge ↔ Known ds' edge :=
  and_congr (registered_perm h) (registered_perm h)

/-- A pattern is found by its name, whatever the order is. -/
theorem patternNamed_perm (h : ds.Perm ds') (hdistinct : (ds.map Definition.name).Nodup) :
    patternNamed ds = patternNamed ds' := by
  funext name
  by_cases hname : Registered ds name
  · obtain ⟨d, hd, rfl⟩ := hname
    rw [patternNamed_of_mem hdistinct hd,
      patternNamed_of_mem ((h.map _).nodup_iff.1 hdistinct) (h.mem_iff.1 hd)]
  · rw [patternNamed_eq_none_iff.2 hname, patternNamed_eq_none_iff.2 fun hname' =>
      hname ((registered_perm h).2 hname')]

theorem Reads.congr {pattern? : Option Pattern} (h : Reads compiler ds d pattern?)
    (heq : patternNamed ds = patternNamed ds') : Reads compiler ds' d pattern? := by
  cases h with
  | container hnone => exact .container hnone
  | pattern hraw hresolves hcompile => exact .pattern hraw (heq ▸ hresolves) hcompile

/-- A definition has at most one compiled pattern. -/
theorem Reads.unique {pattern? pattern?' : Option Pattern} (h : Reads compiler ds d pattern?)
    (h' : Reads compiler ds d pattern?') : pattern? = pattern?' := by
  cases h with
  | container hnone =>
    cases h' with
    | container => rfl
    | pattern hraw => simp [hnone] at hraw
  | pattern hraw hresolves hcompile =>
    cases h' with
    | container hnone => simp [hraw] at hnone
    | pattern hraw' hresolves' hcompile' =>
      obtain rfl := Option.some.inj (hraw.symm.trans hraw')
      obtain rfl := Except.ok.inj (hresolves.unique hresolves')
      obtain rfl := Except.ok.inj (hcompile.symm.trans hcompile')
      rfl

/-- Lists are accepted in any order. -/
theorem Acceptable.perm (h : Acceptable compiler ds) (hperm : ds.Perm ds') :
    Acceptable compiler ds' := by
  have hpatterns := patternNamed_perm hperm h.names.distinct
  refine ⟨hperm.length_eq ▸ h.length_le, ⟨fun d hd => h.names.valid d (hperm.mem_iff.2 hd),
    (hperm.map _).nodup_iff.1 h.names.distinct⟩, fun d hd name => ?_, fun d hd => ?_⟩
  · rw [← hpatterns]
    exact h.closed d (hperm.mem_iff.2 hd) name
  · obtain ⟨pattern?, hreads⟩ := h.readable d (hperm.mem_iff.2 hd)
    exact ⟨pattern?, hreads.congr hpatterns⟩

/-- Definitions in another order make a grammar if they do in this one. -/
theorem exists_compile_of_perm (h : ds.Perm ds')
    (hcompile : ∃ g, compile compiler ds root wiring = .ok g) :
    ∃ g, compile compiler ds' root wiring = .ok g := by
  obtain ⟨hacceptable, ⟨edges, hwiring, hknown⟩, hroot⟩ :=
    exists_compile_iff.1 hcompile
  exact exists_compile_iff.2 ⟨hacceptable.perm h,
    ⟨edges, hwiring, fun e he => (known_perm h).1 (hknown e he)⟩, (registered_perm h).1 hroot⟩

/-! ## The numbers in another order -/

/-- From the number of a rule to that of the rule with the same name in another order. What is no
number of a rule stays as it is. -/
def renumbering (ds ds' : List Definition) (id : RuleId) : RuleId :=
  match ds[id.index]? with
  | some d => numberOf ds' d.name
  | none => id

theorem index_injective : RuleId.index.Injective := by
  rintro ⟨value⟩ ⟨value'⟩ h
  exact congrArg RuleId.mk (UInt16.toNat_inj.1 h)

/-- The number of a definition is that of its place. -/
theorem exists_place (hdistinct : (ds.map Definition.name).Nodup)
    (hlimit : ds.length ≤ RuleId.limit) (hd : d ∈ ds) :
    ∃ place, ds[place]? = some d ∧ numberOf ds d.name = .ofIndex place ∧
      (numberOf ds d.name).index = place := by
  obtain ⟨place, hplace⟩ := List.mem_iff_getElem?.1 hd
  have hnumber := numberOf_eq hdistinct hplace
  have hlt : place < RuleId.limit :=
    (List.getElem?_eq_some_iff.1 hplace).1.trans_le hlimit
  exact ⟨place, hplace, hnumber, by rw [hnumber, RuleId.index_ofIndex hlt]⟩

/-- The renumbering takes the number of a name in one list to its number in the other. -/
theorem renumbering_numberOf (hdistinct : (ds.map Definition.name).Nodup)
    (hlimit : ds.length ≤ RuleId.limit) (hname : Registered ds name) :
    renumbering ds ds' (numberOf ds name) = numberOf ds' name := by
  obtain ⟨d, hd, rfl⟩ := hname
  obtain ⟨place, hplace, -, hindex⟩ := exists_place hdistinct hlimit hd
  rw [renumbering, hindex, hplace]

/-- No two rules get the same number. -/
theorem renumbering_injective (h : Acceptable compiler ds) (hperm : ds.Perm ds') :
    (renumbering ds ds').Injective := by
  have h' := h.perm hperm
  -- the number of a rule is below the number of rules, and what is no number of a rule is not
  have hlt {id : RuleId} {d : Definition} (hd : ds[id.index]? = some d) :
      (numberOf ds' d.name).index < ds.length := by
    obtain ⟨place, hplace, -, hindex⟩ := exists_place h'.names.distinct h'.length_le
      (hperm.mem_iff.1 (List.mem_of_getElem? hd))
    rw [hindex, hperm.length_eq]
    exact (List.getElem?_eq_some_iff.1 hplace).1
  intro id id' heq
  unfold renumbering at heq
  cases hd : ds[id.index]? with
  | none =>
    cases hd' : ds[id'.index]? with
    | none => simpa [hd, hd'] using heq
    | some d' =>
      obtain rfl : id = numberOf ds' d'.name := by simpa [hd, hd'] using heq
      exact absurd (hlt hd') (List.getElem?_eq_none_iff.1 hd).not_gt
  | some d =>
    cases hd' : ds[id'.index]? with
    | none =>
      obtain rfl : numberOf ds' d.name = id' := by simpa [hd, hd'] using heq
      exact absurd (hlt hd) (List.getElem?_eq_none_iff.1 hd').not_gt
    | some d' =>
      have hnumber : numberOf ds' d.name = numberOf ds' d'.name := by simpa [hd, hd'] using heq
      obtain ⟨place, hplace, -, hindex⟩ := exists_place h'.names.distinct h'.length_le
        (hperm.mem_iff.1 (List.mem_of_getElem? hd))
      obtain ⟨place', hplace', -, hindex'⟩ := exists_place h'.names.distinct h'.length_le
        (hperm.mem_iff.1 (List.mem_of_getElem? hd'))
      -- one number stands for one definition, which has one place in either order
      obtain rfl : place = place' := by rw [← hindex, ← hindex', hnumber]
      obtain rfl : d = d' := Option.some.inj (hplace.symm.trans hplace')
      exact index_injective (place_unique h.names.distinct hd hd' rfl)

/-- A definition makes the same rule in either order, but for the numbers. -/
theorem MadeFrom.eq_renumber {place place' : Nat} {r r' : Rule}
    (h : MadeFrom compiler ds edges place d r) (h' : MadeFrom compiler ds' edges place' d r')
    (hacceptable : Acceptable compiler ds) (hperm : ds.Perm ds') (hplace : ds[place]? = some d)
    (hplace' : ds'[place']? = some d) (hknown : ∀ e ∈ edges, Known ds e) :
    r' = r.renumber (renumbering ds ds') := by
  have hdistinct := hacceptable.names.distinct
  have hlimit := hacceptable.length_le
  have hdistinct' := (hacceptable.perm hperm).names.distinct
  have hid : r'.id = renumbering ds ds' r.id := by
    rw [h.id_eq, h'.id_eq, ← numberOf_eq hdistinct hplace, ← numberOf_eq hdistinct' hplace',
      renumbering_numberOf hdistinct hlimit ⟨d, List.mem_of_getElem? hplace, rfl⟩]
  -- references are looked up by name, whatever the order of the definitions
  have hpattern : r'.pattern? = r.pattern? :=
    h'.reads.unique (h.reads.congr (patternNamed_perm hperm hdistinct))
  have hchildren : r'.children = r.children.map (renumbering ds ds') := by
    rw [h.children_eq, h'.children_eq, List.map_map]
    refine List.map_congr_left fun edge hedge => ?_
    exact (renumbering_numberOf hdistinct hlimit
      (hknown edge (List.mem_filter.1 hedge).1).2).symm
  obtain ⟨id, name, pattern?, children, hooks⟩ := r'
  have hname := h'.name_eq.trans h.name_eq.symm
  have hhooks := h'.hooks_eq.trans h.hooks_eq.symm
  simp only [Rule.renumber, Rule.mk.injEq]
  exact ⟨hid, hname, hpattern, hchildren, hhooks⟩

/-- The grammars of definitions in two orders differ in rule numbers only. -/
theorem renumbers_of_perm (h : ds.Perm ds') (hcompile : compile compiler ds root wiring = .ok g)
    (hcompile' : compile compiler ds' root wiring = .ok g') :
    g.Renumbers (renumbering ds ds') g' := by
  obtain ⟨hacceptable, edges, hwiring, hknown, hwired, -⟩ := outcome_of_compile hcompile
  obtain ⟨hacceptable', edges', hwiring', -, hwired', -⟩ := outcome_of_compile hcompile'
  obtain rfl := Except.ok.inj (hwiring.symm.trans hwiring')
  refine ⟨renumbering_injective hacceptable h, fun id => ?_⟩
  unfold ruleAt?
  -- ids without a definition stay as they are, and have no rule in either grammar
  cases hd : ds[id.index]? with
  | none =>
    have hsize : ds.length ≤ id.index := List.getElem?_eq_none_iff.1 hd
    have hsame : renumbering ds ds' id = id := by rw [renumbering, hd]
    have hnone : g.rules[id.index]? = none :=
      Array.getElem?_eq_none (by rwa [hwired.size_eq])
    have hnone' : g'.rules[id.index]? = none :=
      Array.getElem?_eq_none (by rwa [hwired'.size_eq, ← h.length_eq])
    rw [hsame, hnone, hnone']
    rfl
  | some d =>
    obtain ⟨place', hplace', -, hindex'⟩ := exists_place hacceptable'.names.distinct
      hacceptable'.length_le (h.mem_iff.1 (List.mem_of_getElem? hd))
    obtain ⟨r, hr, hmade⟩ := hwired.made _ d hd
    obtain ⟨r', hr', hmade'⟩ := hwired'.made _ d hplace'
    have hnumber : renumbering ds ds' id = numberOf ds' d.name := by rw [renumbering, hd]
    rw [hnumber, hindex', hr, hr']
    exact congrArg some (hmade.eq_renumber hmade' hacceptable h hd hplace' hknown)

/-- A rule is found by its name in either grammar. -/
theorem rule?_of_perm (h : ds.Perm ds') (hcompile : compile compiler ds root wiring = .ok g)
    (hcompile' : compile compiler ds' root wiring = .ok g') (name : Text) :
    g'.rule? name = (g.rule? name).map (Rule.renumber (renumbering ds ds')) := by
  have hrenumbers := renumbers_of_perm h hcompile hcompile'
  obtain ⟨edges, -, -, hfound, hnamed, -⟩ := exists_wired_of_compile hcompile
  obtain ⟨edges', -, -, hfound', hnamed', -⟩ := exists_wired_of_compile hcompile'
  cases hrule : g.rule? name with
  | none =>
    have hnone : ¬ (g'.rule? name).isSome := by
      rw [hnamed', ← registered_perm h, ← hnamed, hrule]
      simp
    simpa using hnone
  | some r =>
    -- the rule with the new number is there, and a name is found where its rule is
    obtain ⟨place, hplace⟩ := Array.mem_iff_getElem?.1 (Array.mem_of_find?_eq_some hrule)
    have hname : r.name = name := by simpa using Array.find?_some hrule
    have hat := hrenumbers.ruleAt?_eq r.id
    rw [ruleAt?, ruleAt?, (hfound place r hplace).1, hplace] at hat
    have hrule' := (hfound' _ _ hat).2
    rwa [← hname]

/-- The order of definitions does not matter. They make a grammar in one order if they do in the
other one, and with hooks that do not read the numbers of rules, parses fail with the same errors,
and trees differ in nothing but these numbers. -/
theorem parse_eq_of_perm (h : ds.Perm ds') (root wiring : Text) :
    ((∃ g, compile compiler ds root wiring = .ok g) ↔
      ∃ g', compile compiler ds' root wiring = .ok g') ∧
    ∀ g g', compile compiler ds root wiring = .ok g → compile compiler ds' root wiring = .ok g' →
      (∀ d ∈ ds, d.hooks.IgnoreNumbers) → ∃ f : RuleId → RuleId, f.Injective ∧
        (∀ name, g'.rule? name = (g.rule? name).map (Rule.renumber f)) ∧
        ∀ input seed, g'.parse input seed = (g.parse input seed).map (Tree.renumber f) ∧
          ∀ name, g'.parseFrom name input seed =
            (g.parseFrom name input seed).map (Tree.renumber f) := by
  refine ⟨⟨exists_compile_of_perm h, exists_compile_of_perm h.symm⟩,
    fun g g' hcompile hcompile' hhooks => ?_⟩
  have hrenumbers := renumbers_of_perm h hcompile hcompile'
  have hrule? := rule?_of_perm h hcompile hcompile'
  have hg : ∀ r ∈ g.rules, r.hooks.IgnoreNumbers := by
    intro r hr
    obtain ⟨edges, place, d, hd, hmade⟩ := exists_madeFrom_of_compile hcompile hr
    rw [hmade.hooks_eq]
    exact hhooks d (List.mem_of_getElem? hd)
  have hroot : g'.root = g.root.renumber (renumbering ds ds') := by
    obtain ⟨-, -, -, -, -, hnamed⟩ := outcome_of_compile hcompile
    obtain ⟨-, -, -, -, -, hnamed'⟩ := outcome_of_compile hcompile'
    rw [hrule? root, hnamed] at hnamed'
    exact (Option.some.inj hnamed').symm
  refine ⟨renumbering ds ds', hrenumbers.injective, hrule?, fun input seed => ⟨?_, fun name => ?_⟩⟩
  · rw [parse, parse, hroot]
    exact Engine.run_renumber hrenumbers hg (exists_definition_of_compile hcompile).2.2 input seed
  · rw [parseFrom, parseFrom, hrule? name]
    cases hrule : g.rule? name with
    | none => rfl
    | some rule =>
      exact Engine.run_renumber hrenumbers hg (Array.mem_of_find?_eq_some hrule) input seed

/-- Read backwards, the letters make a grammar with other numbers, which finds the same. -/
theorem parse_eq_of_perm_letters : letters.Perm letters.reverse ∧
    (∀ d ∈ letters, d.hooks.IgnoreNumbers) ∧ ∃ g g' t f,
      compile Regex.compiler letters "Root".toList "Root:\n  - a".toList = .ok g ∧
      compile Regex.compiler letters.reverse "Root".toList "Root:\n  - a".toList = .ok g' ∧
      g.parse ['x', 'y'] .empty = .ok t ∧ t.size = 2 ∧
      g'.parse ['x', 'y'] .empty = .ok (t.renumber f) := by
  have hperm : letters.Perm letters.reverse := (List.reverse_perm letters).symm
  have hhooks : ∀ d ∈ letters, d.hooks.IgnoreNumbers := by
    simp [letters, Hooks.ignoreNumbers_identity]
  obtain ⟨hcompiles, hparse⟩ := parse_eq_of_perm hperm "Root".toList "Root:\n  - a".toList
  have hcompiled : (compile Regex.compiler letters "Root".toList "Root:\n  - a".toList).map
      (fun g => (g.parse ['x', 'y'] .empty).map Tree.size) = .ok (.ok 2) := by decide +kernel
  obtain ⟨g, hcompile, hparsed⟩ := map_eq_ok.1 hcompiled
  obtain ⟨t, ht, hsize⟩ := map_eq_ok.1 hparsed
  obtain ⟨g', hcompile'⟩ := hcompiles.1 ⟨g, hcompile⟩
  obtain ⟨f, -, -, hsame⟩ := hparse g g' hcompile hcompile' hhooks
  have ht' := (hsame ['x', 'y'] .empty).1
  rw [ht] at ht'
  exact ⟨hperm, hhooks, g, g', t, f, hcompile, hcompile', ht, hsize, ht'⟩

end Grammar

end Cascade
