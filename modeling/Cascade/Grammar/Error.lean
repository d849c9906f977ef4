import Cascade.Grammar.RuleId
import Cascade.Grammar.Wiring

/-!
# Faults in grammars
-/

namespace Cascade

/-- What makes a grammar unusable. -/
inductive GrammarError where
  /-- There are more rules than can be numbered. -/
  | tooManyRules (count : Nat)
  /-- A name that rules cannot have. -/
  | invalidRuleName (name : Text)
  /-- Two rules have one name. -/
  | duplicateRule (name : Text)
  /-- The pattern of a rule refers, directly or not, to a rule that does not exist. -/
  | unresolvedReference (rule reference : Text)
  /-- The pattern of a rule cannot be compiled, with what the engine says about it. -/
  | invalidPattern (rule pattern message : Text)
  /-- A line of the wiring is malformed. -/
  | malformedWiring (fault : Wiring.Fault)
  /-- A line of the wiring names a rule that does not exist. -/
  | unknownRule (name : Text) (line : Nat)
  /-- The root is no rule. -/
  | unknownRoot (name : Text)
  deriving DecidableEq, Repr

namespace GrammarError

/-- What is said about a fault. -/
def reason : GrammarError → Text
  | .tooManyRules count =>
    Text.decimal count ++ " rules registered, at most ".toList ++ Text.decimal RuleId.limit ++
      " are supported".toList
  | .invalidRuleName name => "invalid rule name '".toList ++ name ++ ['\x27']
  | .duplicateRule name => "rule '".toList ++ name ++ "' is registered more than once".toList
  | .unresolvedReference rule reference =>
    "rule '".toList ++ rule ++ "' references unknown rule '<<".toList ++ reference ++ ">>'".toList
  | .invalidPattern rule pattern message =>
    "invalid regex pattern '".toList ++ pattern ++ "' in rule '".toList ++ rule ++ "': ".toList ++
      message
  | .malformedWiring fault =>
    "line ".toList ++ Text.decimal fault.line ++ ": malformed wiring: ".toList ++
      fault.malformation.reason
  | .unknownRule name line =>
    "line ".toList ++ Text.decimal line ++ ": unknown rule '".toList ++ name ++
      "' in wiring".toList
  | .unknownRoot name => "unknown root rule '".toList ++ name ++ ['\x27']

/-- The message for a fault. -/
def message (e : GrammarError) : Text :=
  "grammar error: ".toList ++ e.reason

/-- What has led to a fault: what is said about it, and the fault of a pattern behind it. -/
def causes (e : GrammarError) : List Text :=
  e.reason :: match e with
    | .invalidPattern _ _ message => [message]
    | _ => []

end GrammarError

end Cascade
