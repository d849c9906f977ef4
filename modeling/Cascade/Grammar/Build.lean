import Cascade.Grammar.Data
import Cascade.Regex.Compiler

/-!
# Building grammars

The program compiles the patterns of its grammars as regular expressions.
-/

namespace Cascade

/-- The grammar that definitions, a root and a wiring text make, patterns being regular
expressions. -/
def Grammar.build (ds : List Definition) (root wiring : Text) : Except GrammarError Grammar :=
  compile Regex.compiler ds root wiring

/-- The grammar ready for use, patterns being regular expressions. -/
def DataGrammar.build (g : DataGrammar) : Except GrammarError Grammar :=
  g.compile Regex.compiler

end Cascade
