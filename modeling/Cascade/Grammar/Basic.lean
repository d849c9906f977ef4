import Cascade.Hook
import Cascade.Pattern
import Cascade.Text.Quoted

/-!
# Grammars

A grammar that is ready for use: its rules have patterns that search texts, know the rules wired
under them, and are numbered in the order in which they were defined.
-/

namespace Cascade

/-- A rule that is ready for use. -/
structure Rule where
  id : RuleId
  name : Text
  /-- What the rule matches; none if it never matches by itself. -/
  pattern? : Option Pattern
  /-- The rules that search the texts of its matches, in this order. -/
  children : List RuleId
  hooks : Hooks

namespace Rule

/-- A rule as nodes refer to it. -/
def ref (r : Rule) : RuleRef :=
  ⟨r.id, r.name⟩

/-- The number of a rule as it is shown to people who debug a grammar. -/
def debugId (id : RuleId) : Text :=
  "RuleId(".toList ++ Text.decimal id.index ++ [')']

/-- A rule as it is shown to people who debug a grammar. -/
def debug (r : Rule) : Text :=
  let pattern := match r.pattern? with
    | none => "None".toList
    | some pattern => "Some(".toList ++ pattern.debug ++ [')']
  "CompiledRule \x7b id: ".toList ++ debugId r.id ++ ", name: ".toList ++ Text.quoted r.name ++
    ", pattern: ".toList ++ pattern ++ ", children: [".toList ++
    List.intercalate [',', ' '] (r.children.map debugId) ++ "] \x7d".toList

end Rule

/-- A grammar that is ready for use. -/
structure Grammar where
  /-- The rules by number. -/
  rules : Array Rule
  /-- The rule that a parse starts from. -/
  root : Rule

namespace Grammar

/-- The rule with a number. -/
def ruleAt? (g : Grammar) (id : RuleId) : Option Rule :=
  g.rules[id.index]?

/-- The rule with a name. -/
def rule? (g : Grammar) (name : Text) : Option Rule :=
  g.rules.find? fun r => r.name = name

/-- Whether there is a rule with a name. -/
def contains (g : Grammar) (name : Text) : Bool :=
  (g.rule? name).isSome

end Grammar

end Cascade
