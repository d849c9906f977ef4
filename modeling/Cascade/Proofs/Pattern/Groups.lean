import Cascade.Pattern
import Mathlib.Data.List.Forall2

/-!
# How engines number groups

A capturing group opens at a parenthesis of its pattern, and in each match it has captured a part of
the text or none. Which parentheses open groups, and what these capture, is for an engine to say. An
engine that numbers groups by opening parenthesis reports what they have captured in the order of
their parentheses, with or without names.

* `Parenthesis`, `Grouping`: what is known of groups apart from their numbers.
* `PatternCompiler.NumbersByParenthesis`: what is required of an engine.
* `Found`, `NumbersByParenthesis.found`: what is found in a match by number and by name.
-/

namespace Cascade

/-- Two lists stay related when the second one is mapped and nothing of it is left out. -/
theorem forall₂_filterMap {α β γ : Type} {R : α → β → Prop} {S : α → γ → Prop} {f : β → Option γ}
    (h : ∀ a b, R a b → ∃ c, f b = some c ∧ S a c) {as : List α} {bs : List β}
    (hforall : List.Forall₂ R as bs) : List.Forall₂ S as (bs.filterMap f) := by
  induction hforall with
  | nil => exact .nil
  | cons hR _ ih =>
    obtain ⟨c, hc, hS⟩ := h _ _ hR
    rw [List.filterMap_cons_some hc]
    exact .cons hS ih

namespace Pattern

/-- A parenthesis of a pattern that opens a capturing group. -/
structure Parenthesis where
  /-- How many characters of the pattern stand before it. -/
  place : Nat
  /-- The name of the group, if it has one. -/
  name? : Option Text
  deriving DecidableEq, Repr

/-- How the capturing groups of patterns are told from one another, and what they capture. -/
structure Grouping where
  /-- The parentheses of a pattern that open groups. -/
  parentheses : (source : Text) → List Parenthesis
  /-- For each match of a pattern in a text, what has been captured by the group that opens at a
  place of the pattern. -/
  captured : (source text : Text) → List (Nat → Option Group)

/-- The numbers of the groups with a name, in order, the first group of all being number 1. -/
def numbersNamed (name : Text) (parentheses : List Parenthesis) : List Nat :=
  ((parentheses.zipIdx 1).filter fun entry => entry.1.name? = some name).map Prod.snd

/-- What a group has captured, unless it is blank. -/
def shown (group? : Option Group) : Option Text :=
  group?.bind fun group => if group.text.isEmpty then none else some group.text

/-- What is found in a match by number and by name, given what has been captured by the groups that
open at the places of a pattern. -/
structure Found (parentheses : List Parenthesis) (captured : Nat → Option Group) (m : Match) :
    Prop where
  /-- There are as many numbers as groups, beside that of the whole match. -/
  size_eq : m.captures.size = parentheses.length + 1
  /-- Under a number stands what the group with that number has captured. -/
  get?_eq : ∀ i p, parentheses[i]? = some p → m.captures.get? (i + 1) = shown (captured p.place)
  /-- Under a name stands what the first of the groups with that name has captured which has not
  captured a blank. -/
  named?_eq : ∀ name, m.captures.named? name =
    (parentheses.filter fun p => p.name? = some name).findSome? fun p => shown (captured p.place)

variable {c : CompiledPattern} {parentheses : List Parenthesis} {captured : Nat → Option Group}
  {groups : List (Option Group)} {name : Text} {m : Match}

theorem get?_eq_shown (captures : Captures) (number : Nat) :
    captures.get? number = shown captures.groups[number]?.join := rfl

/-- Groups that are looked up by their numbers are those that stand there. -/
theorem findSome?_zipIdx {get? : Nat → Option Text} {text? : Parenthesis → Option Text}
    {n : Nat} (h : ∀ i p, parentheses[i]? = some p → get? (n + i) = text? p) :
    (((parentheses.zipIdx n).filter fun entry => entry.1.name? = some name).map
      Prod.snd).findSome? get? =
        (parentheses.filter fun p => p.name? = some name).findSome? text? := by
  induction parentheses generalizing n with
  | nil => rfl
  | cons p rest ih =>
    have hrest := ih (n := n + 1) fun i p' hp' => by
      rw [Nat.add_right_comm, Nat.add_assoc]
      exact h (i + 1) p' hp'
    have hfirst : get? n = text? p := h 0 p rfl
    by_cases hname : p.name? = some name
    · simp [hname, hrest, hfirst, List.findSome?_cons]
    · simp [hname, hrest]

/-- Groups that are looked up by the numbers of a name are those with the name. -/
theorem findSome?_numbersNamed {get? : Nat → Option Text} {text? : Parenthesis → Option Text}
    (h : ∀ i p, parentheses[i]? = some p → get? (i + 1) = text? p) :
    (numbersNamed name parentheses).findSome? get? =
      (parentheses.filter fun p => p.name? = some name).findSome? text? :=
  findSome?_zipIdx fun i p hp => Nat.add_comm i 1 ▸ h i p hp

/-- Groups that are reported in the order of their parentheses are found as they should be. -/
theorem found_of_groups_eq {whole : Group} {span : Span}
    (hgroups : groups = some whole :: parentheses.map fun p => captured p.place)
    (hnames : ∀ name, (c.names.lookup name).getD [] = numbersNamed name parentheses) :
    Found parentheses captured ⟨span, ⟨groups, c.names⟩⟩ := by
  have hget : ∀ i p, parentheses[i]? = some p →
      Captures.get? ⟨groups, c.names⟩ (i + 1) = shown (captured p.place) := by
    intro i p hp
    rw [get?_eq_shown, hgroups, List.getElem?_cons_succ, List.getElem?_map, hp]
    rfl
  refine ⟨by simp [Captures.size, hgroups], hget, fun name => ?_⟩
  rw [← findSome?_numbersNamed hget, ← hnames name, Captures.named?]
  cases c.names.lookup name <;> rfl

end Pattern

/-! ## What is required of an engine -/

namespace PatternCompiler

open Pattern

/-- An engine numbers capturing groups by opening parenthesis. A parenthesis with `?:` behind it
opens none. -/
structure NumbersByParenthesis (compiler : PatternCompiler) (grouping : Grouping) : Prop where
  /-- Groups are opened by parentheses. -/
  parenthesis : ∀ ⦃source c⦄, compiler.compile source = .ok c →
    ∀ p ∈ grouping.parentheses source, ∃ rest, source.drop p.place = '(' :: rest ∧
      ∀ more, rest ≠ '?' :: ':' :: more
  /-- The parentheses are taken from left to right. -/
  order : ∀ ⦃source c⦄, compiler.compile source = .ok c →
    (grouping.parentheses source).Pairwise fun p p' => p.place < p'.place
  /-- Behind the whole match, each match has what the groups have captured, one by one. -/
  numbered : ∀ ⦃source c⦄, compiler.compile source = .ok c → ∀ text,
    List.Forall₂ (fun captured groups => ∃ whole : Group,
        groups = some whole :: (grouping.parentheses source).map fun p => captured p.place)
      (grouping.captured source text) (c.search text)
  /-- Under each name stand the numbers of all groups with that name. -/
  named : ∀ ⦃source c⦄, compiler.compile source = .ok c → ∀ name,
    (c.names.lookup name).getD [] = numbersNamed name (grouping.parentheses source)

variable {compiler : PatternCompiler} {grouping : Grouping} {source : Text} {p : Pattern}

/-- In each match, what the groups of a pattern have captured is found by number and by name. -/
theorem NumbersByParenthesis.found (h : compiler.NumbersByParenthesis grouping)
    (hcompile : Pattern.compile compiler source = .ok p) (text : Text) :
    List.Forall₂ (Found (grouping.parentheses source)) (grouping.captured source text)
      (p.scan text) := by
  obtain ⟨c, hc, rfl⟩ := Pattern.compile_eq_ok_iff.1 hcompile
  refine forall₂_filterMap (fun captured groups hgroups => ?_) (h.numbered hc text)
  obtain ⟨whole, rfl⟩ := hgroups
  exact ⟨_, rfl, found_of_groups_eq rfl (h.named hc)⟩

end PatternCompiler

end Cascade
