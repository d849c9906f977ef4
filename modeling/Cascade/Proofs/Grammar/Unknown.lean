import Cascade.Proofs.Grammar.Outcome
import Cascade.Proofs.Grammar.Outline

/-!
# Names in the wiring that are no rules

Names are looked up edge by edge. So an item is looked up together with the name it is indented
under, and that name is said to stand on the line of the item. A header without items is never
looked up.

* `UsedOn`: a name that is looked up, with the number of the line on which it is said to stand.
* `used_of_compile`: all names that are used are rules if a grammar is compiled.
-/

namespace Cascade

namespace Wiring

variable {edge : Edge} {earlier lines before after : List Text} {raw above : Text}

/-- A name is used on a line with this number: the line is an item, and has the name itself or is
indented under a line that has it. -/
inductive UsedOn (lines : List Text) : Text → Nat → Prop
  | item {before after : List Text} {raw : Text} : lines = before ++ raw :: after →
      IsItem before raw → UsedOn lines (lineName raw) (before.length + 1)
  | above {before after : List Text} {raw above : Text} : lines = before ++ raw :: after →
      IsItem before raw → nearest? before (depth raw) = some above →
        UsedOn lines (lineName above) (before.length + 1)

/-- A name is written on a line with this number, as a header or as an item. -/
def WrittenOn (lines : List Text) (name : Text) (number : Nat) : Prop :=
  1 ≤ number ∧ ∃ raw, lines[number - 1]? = some raw ∧ ¬ isIgnored raw ∧ lineName raw = name

theorem mem_edgesFrom_iff : edge ∈ edgesFrom earlier lines ↔
    ∃ before raw after, lines = before ++ raw :: after ∧
      edge ∈ edgesOf (earlier ++ before) raw := by
  induction lines generalizing earlier with
  | nil => simp [edgesFrom]
  | cons raw rest ih =>
    rw [edgesFrom, List.mem_append, ih]
    constructor
    · rintro (hedge | ⟨before, raw', after, rfl, hedge⟩)
      · exact ⟨[], raw, rest, rfl, by simpa using hedge⟩
      · exact ⟨raw :: before, raw', after, rfl, by simpa using hedge⟩
    · rintro ⟨before, raw', after, hsplit, hedge⟩
      cases before with
      | nil =>
        obtain ⟨rfl, rfl⟩ := List.cons.inj hsplit
        exact .inl (by simpa using hedge)
      | cons first before =>
        obtain ⟨rfl, rfl⟩ := List.cons.inj hsplit
        exact .inr ⟨before, raw', after, rfl, by simpa using hedge⟩

theorem IsItem.isIgnored_eq (h : IsItem before raw) : isIgnored raw = false := by
  obtain ⟨text, htext⟩ := h.marked
  rw [isIgnored, ← htext]
  rfl

/-- A line in order has an edge if it is an item. -/
theorem InOrder.mem_edgesOf_iff (h : InOrder before raw) : edge ∈ edgesOf before raw ↔
    IsItem before raw ∧ ∃ above, nearest? before (depth raw) = some above ∧
      edge = ⟨lineName above, lineName raw, before.length + 1⟩ := by
  unfold edgesOf
  constructor
  · intro hedge
    split at hedge
    · simp at hedge
    · next hsaid =>
      rw [not_or] at hsaid
      split at hedge
      · simp at hedge
      · next above habove =>
        -- a line that says something and is not at the margin is in order as an item only
        have hvalid : Valid before raw := h.resolve_left hsaid.1
        have hitem : IsItem before raw :=
          hvalid.form.resolve_left fun hheader => hsaid.2 hheader.depth_eq
        exact ⟨hitem, above, habove, by simpa using hedge⟩
  · rintro ⟨hitem, above, habove, rfl⟩
    have hsaid : ¬ (isIgnored raw ∨ depth raw = 0) := by
      simp [hitem.isIgnored_eq, hitem.depth_ne]
    rw [if_neg hsaid, habove]
    exact List.mem_singleton.2 rfl

/-- The names that are used are the names of edges. -/
theorem usedOn_iff {name : Text} {number : Nat} (h : AllInOrder [] lines) :
    UsedOn lines name number ↔
      ∃ edge ∈ edgesFrom [] lines,
        edge.line = number ∧ (name = edge.parent ∨ name = edge.child) := by
  have horder {before : List Text} {raw : Text} {after : List Text}
      (hsplit : lines = before ++ raw :: after) : InOrder before raw := h before raw after hsplit
  constructor
  · rintro (⟨hsplit, hitem⟩ | ⟨hsplit, hitem, habove⟩)
    · obtain ⟨above, habove, -⟩ := hitem.below
      have hedge := (horder hsplit).mem_edgesOf_iff.2 ⟨hitem, above, habove, rfl⟩
      exact ⟨_, mem_edgesFrom_iff.2 ⟨_, _, _, hsplit, hedge⟩, rfl, .inr rfl⟩
    · have hedge := (horder hsplit).mem_edgesOf_iff.2 ⟨hitem, _, habove, rfl⟩
      exact ⟨_, mem_edgesFrom_iff.2 ⟨_, _, _, hsplit, hedge⟩, rfl, .inl rfl⟩
  · rintro ⟨edge, hedge, rfl, hname⟩
    obtain ⟨before, raw, after, hsplit, hedge⟩ := mem_edgesFrom_iff.1 hedge
    obtain ⟨hitem, above, habove, rfl⟩ := (horder hsplit).mem_edgesOf_iff.1 hedge
    rcases hname with rfl | rfl
    · exact .above hsplit hitem habove
    · exact .item hsplit hitem

end Wiring

namespace Grammar

open Text (fields)
open Wiring (UsedOn)

variable {compiler : PatternCompiler} {ds : List Definition} {root wiring name : Text}
  {edge : Wiring.Edge} {error : GrammarError} {number : Nat}

theorem EdgeFault.unknownRule (h : EdgeFault ds edge error) : ∃ name,
    error = .unknownRule name edge.line ∧ ¬ Registered ds name ∧
      (name = edge.parent ∨ name = edge.child) := by
  cases h with
  | parent hparent => exact ⟨_, rfl, hparent, .inl rfl⟩
  | child _ hchild => exact ⟨_, rfl, hchild, .inr rfl⟩

theorem known_iff : Known ds edge ↔
    ∀ name, name = edge.parent ∨ name = edge.child → Registered ds name := by
  simp [Known]

/-- Acceptable definitions and a wiring that can be read make a grammar only if all names that are
used in the wiring are rules. If one is not, the fault is a name that is used on the line that is
reported, and is no rule. -/
theorem used_of_compile (hacceptable : Acceptable compiler ds)
    (hwiring : ∃ edges, readWiring wiring = .ok edges) :
    (∀ g, compile compiler ds root wiring = .ok g →
      ∀ name number, UsedOn (fields '\n' wiring) name number → Registered ds name) ∧
    ((∃ name number, UsedOn (fields '\n' wiring) name number ∧ ¬ Registered ds name) →
      ∃ name number, compile compiler ds root wiring = .error (.unknownRule name number)) ∧
    ∀ name number, compile compiler ds root wiring = .error (.unknownRule name number) →
      UsedOn (fields '\n' wiring) name number ∧ ¬ Registered ds name := by
  obtain ⟨edges, hwiring⟩ := hwiring
  obtain ⟨horder, rfl⟩ := Wiring.readWiring_eq_ok_iff.1 hwiring
  -- the names of the edges are those that are used, so the stage of the edges decides
  have hknown : (∀ edge ∈ Wiring.edgesFrom [] (fields '\n' wiring), Known ds edge) ↔
      ∀ name number, UsedOn (fields '\n' wiring) name number → Registered ds name := by
    simp only [Wiring.usedOn_iff horder, known_iff]
    exact ⟨fun h name _ ⟨edge, hedge, _, hname⟩ => h edge hedge name hname,
      fun h edge hedge name hname => h name _ ⟨edge, hedge, rfl, hname⟩⟩
  cases hcompile : compile compiler ds root wiring with
  | ok g =>
    obtain ⟨-, edges, hedges, hall, -⟩ := outcome_of_compile hcompile
    obtain rfl := Except.ok.inj (hwiring.symm.trans hedges)
    refine ⟨fun _ _ => hknown.1 hall, ?_, by simp⟩
    rintro ⟨name, number, hused, hname⟩
    exact absurd (hknown.1 hall name number hused) hname
  | error error =>
    have hfault : Fault compiler ds root wiring error := outcome_of_compile hcompile
    refine ⟨by simp, ?_, ?_⟩
    · rintro ⟨name, number, hused, hname⟩
      rcases hfault.edge_or_root hacceptable hwiring with ⟨edge, -, hfault⟩ | ⟨hall, -, -⟩
      · obtain ⟨reported, rfl, -, -⟩ := hfault.unknownRule
        exact ⟨reported, _, rfl⟩
      · exact absurd (hknown.1 hall name number hused) hname
    · rintro name number ⟨⟩
      rcases hfault.edge_or_root hacceptable hwiring with ⟨edge, hedge, hfault⟩ | ⟨-, -, hroot⟩
      · obtain ⟨reported, herror, hnone, hname⟩ := hfault.unknownRule
        obtain ⟨rfl, rfl⟩ := GrammarError.unknownRule.inj herror
        exact ⟨(Wiring.usedOn_iff horder).2 ⟨edge, hedge, rfl, hname⟩, hnone⟩
      · contradiction

/-- A root and a rule, neither of which matches by itself. -/
def bare : List Definition :=
  [⟨"Root".toList, none, .identity⟩, ⟨"a".toList, none, .identity⟩]

theorem not_registered_bare : ¬ Registered bare "nope".toList := by
  rintro ⟨d, hd, hname⟩
  simp only [bare, List.mem_cons, List.not_mem_nil, or_false] at hd
  rcases hd with rfl | rfl <;> simp at hname

/-- In the wiring with a header that is no rule, the item below it is reported. -/
theorem used_of_compile_bare : ∃ name number,
    compile Regex.compiler bare "Root".toList "nope:\n  - a".toList =
      .error (.unknownRule name number) := by
  obtain ⟨g, hcompile⟩ : ∃ g, compile Regex.compiler bare "Root".toList [] = .ok g := ⟨_, rfl⟩
  have hsplit : fields '\n' "nope:\n  - a".toList = ["nope:".toList] ++ "  - a".toList :: [] := rfl
  have hitem : Wiring.IsItem ["nope:".toList] "  - a".toList :=
    ⟨by decide, by decide, by decide, "nope:".toList, rfl, rfl, rfl⟩
  exact (used_of_compile (acceptable_of_compile hcompile) ⟨_, rfl⟩).2.1
    ⟨"nope".toList, 2, .above hsplit hitem rfl, not_registered_bare⟩

/-- Whatever the engine, a header without items is never looked up. One with items is said to stand
on the line of its first item. -/
theorem compile_bare_unknown :
    (∀ compiler, ∃ g,
      compile compiler bare "Root".toList "Root:\n  - a\nnope:".toList = .ok g) ∧
    Wiring.WrittenOn (fields '\n' "Root:\n  - a\nnope:".toList) "nope".toList 3 ∧
    ¬ Registered bare "nope".toList ∧
    (∀ compiler, compile compiler bare "Root".toList "nope:\n  - a".toList =
      .error (.unknownRule "nope".toList 2)) ∧
    ¬ Wiring.WrittenOn (fields '\n' "nope:\n  - a".toList) "nope".toList 2 := by
  refine ⟨fun _ => ⟨_, rfl⟩, ⟨by decide, "nope:".toList, rfl, by decide, rfl⟩,
    not_registered_bare, fun _ => rfl, ?_⟩
  rintro ⟨-, raw, hraw, -, hname⟩
  obtain rfl : "  - a".toList = raw := Option.some.inj hraw
  contradiction

end Grammar

end Cascade
