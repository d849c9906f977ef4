import Cascade.Pattern
import Cascade.Regex.Search

/-!
# Regular expressions as an engine for patterns

* `Regex.compiler`: the engine that reads patterns as regular expressions.
-/

namespace Cascade.Regex

/-- What the groups capture in each match in a text. -/
def search (r : Regex) (text : Text) : List (List (Option Group)) :=
  (r.scan text).map fun m => m.captures.groups

/-- A regular expression as a compiled pattern. -/
def compiled (r : Regex) : CompiledPattern :=
  ⟨r.names, r.search⟩

/-- The engine that reads patterns as regular expressions. -/
def compiler : PatternCompiler where
  compile source := ((parse source).map compiled).mapError Error.message

/-- The pattern that searches by a regular expression. -/
def toPattern (r : Regex) : Pattern :=
  ⟨r.source, r.scan⟩

end Cascade.Regex
