import Cascade.Hook
import Cascade.Text.Quoted

/-!
# Rule definitions

A grammar is a list of rules, each with a name that is its own, an optional pattern and hooks. A
rule without a pattern never matches by itself and only holds children.
-/

namespace Cascade

/-- A rule as it is written by the author of a grammar. -/
structure Definition where
  name : Text
  /-- What the rule matches; it may refer to other rules as `<<name>>`. -/
  pattern? : Option Text
  hooks : Hooks

/-- A definition as it is shown to people who debug a grammar. -/
def Definition.debug (d : Definition) : Text :=
  let pattern := match d.pattern? with
    | none => "None".toList
    | some pattern => "Some(".toList ++ Text.quoted pattern ++ [')']
  "RuleDefinition \x7b name: ".toList ++ Text.quoted d.name ++ ", pattern: ".toList ++ pattern ++
    " \x7d".toList

/-- A list of definitions as it is shown to people who debug a grammar. -/
def Definition.debugList (ds : List Definition) : Text :=
  "RegistryBuilder \x7b definitions: [".toList ++
    List.intercalate [',', ' '] (ds.map Definition.debug) ++ "] \x7d".toList

end Cascade
