import Cascade.Captures
import Cascade.Token.Scan

/-!
# Patterns

Patterns are compiled by an engine that is given from outside. A compiled pattern tells what its
groups are called and what they capture in each match. Nothing else is known of it here, so that
grammars do not depend on how an engine reads patterns or searches texts.

* `PatternCompiler`: an engine for patterns.
* `Pattern.compile`: a pattern that is ready to search texts.
-/

namespace Cascade

/-- A pattern as an engine has compiled it. -/
structure CompiledPattern where
  /-- The names of groups, sorted, each with the numbers of its groups in order of definition. -/
  names : List (Text × List Nat)
  /-- What the groups capture in each match in a text, from left to right. Group 0 is the whole
  match, and a group that took no part has captured nothing. -/
  search : Text → List (List (Option Group))

/-- An engine that compiles patterns, or says what is wrong with them. -/
structure PatternCompiler where
  compile : Text → Except Text CompiledPattern

/-- The matches of a compiled pattern in a text, except those that stand nowhere. -/
def CompiledPattern.scan (c : CompiledPattern) (text : Text) : List Match :=
  (c.search text).filterMap fun groups =>
    let captures : Captures := ⟨groups, c.names⟩
    (captures.span? 0).map fun span => ⟨span, captures⟩

/-- A pattern that is ready to search texts. -/
structure Pattern where
  /-- The pattern as it was read, its references resolved. -/
  source : Text
  /-- All its matches in a text, from left to right. -/
  scan : Text → List Match

namespace Pattern

/-- Compiles a pattern, which keeps the text that it was compiled from. -/
def compile (compiler : PatternCompiler) (source : Text) : Except Text Pattern :=
  (compiler.compile source).map fun c => ⟨source, c.scan⟩

/-- A pattern is what an engine has made of its text. -/
theorem compile_eq_ok_iff {compiler : PatternCompiler} {source : Text} {p : Pattern} :
    compile compiler source = .ok p ↔
      ∃ c, compiler.compile source = .ok c ∧ ⟨source, c.scan⟩ = p := by
  unfold compile
  cases compiler.compile source <;> simp [Except.map]

/-- A pattern as it is shown to people who debug a grammar. -/
def debug (p : Pattern) : Text :=
  Token.display p.source

end Pattern

end Cascade
