import Cascade.Grammar.Basic
import Cascade.Grammar.Definition
import Cascade.Grammar.Error
import Cascade.Grammar.Reference
import Std.Data.TreeSet

/-!
# Compiling grammars

The names of the definitions are checked, references are replaced, patterns are compiled by an
engine, and rules are wired. What is wrong with an earlier step is reported before what is wrong
with a later one.

* `Grammar.compile`: the grammar that definitions, a root and a wiring text make, or the first
  fault.
-/

namespace Cascade.Grammar

/-- Checks that the names of definitions are rule names and differ from one another and from those
in `seen`. -/
def checkNames (seen : Std.TreeSet Text) : List Definition → Except GrammarError Unit
  | [] => .ok ()
  | d :: rest =>
    if !Token.isRuleName d.name then .error (.invalidRuleName d.name)
    else if seen.contains d.name then .error (.duplicateRule d.name)
    else checkNames (seen.insert d.name) rest

/-- The pattern of the rule with a name, if there is such a rule and it has one. -/
def patternNamed (ds : List Definition) (name : Text) : Option (Option Text) :=
  (ds.find? fun d => d.name = name).map Definition.pattern?

/-- The pattern of a definition with its references replaced. -/
def resolvePattern (ds : List Definition) (d : Definition) : Except GrammarError (Option Text) :=
  match d.pattern? with
  | none => .ok none
  | some pattern =>
    match Reference.resolve (patternNamed ds) (ds.length + 1) [d.name] pattern with
    | .ok resolved => .ok (some resolved)
    | .error reference => .error (.unresolvedReference d.name reference)

/-- The rule for a definition, without children, given its number and its resolved pattern. If that
cannot be compiled, the pattern is reported as it was written. -/
def readRule (compiler : PatternCompiler) (entry : (Definition × Option Text) × Nat) :
    Except GrammarError Rule :=
  let ((d, resolved), index) := entry
  let rule (pattern? : Option Pattern) : Rule :=
    { id := .ofIndex index, name := d.name, pattern?, children := [], hooks := d.hooks }
  match resolved with
  | none => .ok (rule none)
  | some source =>
    match Pattern.compile compiler source with
    | .ok pattern => .ok (rule (some pattern))
    | .error message => .error (.invalidPattern d.name (d.pattern?.getD source) message)

/-- The number of the rule with a name. -/
def idNamed? (rules : Array Rule) (name : Text) : Option RuleId :=
  (rules.find? fun r => r.name = name).map Rule.id

/-- Rules with one more child under its parent. -/
def wire (rules : Array Rule) (edge : Wiring.Edge) : Except GrammarError (Array Rule) :=
  match idNamed? rules edge.parent with
  | none => .error (.unknownRule edge.parent edge.line)
  | some parent =>
    match idNamed? rules edge.child with
    | none => .error (.unknownRule edge.child edge.line)
    | some child =>
      .ok (rules.modify parent.index fun r => { r with children := r.children ++ [child] })

/-- The edges of a wiring text. -/
def readWiring (wiring : Text) : Except GrammarError (List Wiring.Edge) :=
  match Wiring.parse wiring with
  | .ok edges => .ok edges
  | .error fault => .error (.malformedWiring fault)

/-- Makes a grammar from definitions, the name of the root and a wiring text, the patterns being
compiled by an engine. All names are checked first, then all references, all patterns, the wiring,
and last the root. -/
def compile (compiler : PatternCompiler) (ds : List Definition) (root wiring : Text) :
    Except GrammarError Grammar := do
  if ds.length > RuleId.limit then throw (.tooManyRules ds.length)
  checkNames ∅ ds
  let resolved ← ds.mapM (resolvePattern ds)
  let rules ← (ds.zip resolved).zipIdx.mapM (readRule compiler)
  let edges ← readWiring wiring
  let rules ← edges.foldlM wire rules.toArray
  match rules.find? fun r => r.name = root with
  | none => throw (.unknownRoot root)
  | some rule => return { rules, root := rule }

end Cascade.Grammar
