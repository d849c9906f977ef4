import Cascade.Grammar.Replacement
import Cascade.Json.Writer
import Cascade.Tree.Serialized

/-!
# Scripts for hooks

A hook can be written as a list of actions that work on one text, which is empty at first. What the
text is at the end is the result of the hook.

* `Script.run`: what a script does as the hook of a stage.
-/

namespace Cascade.Script

/-- A node as seen from the node of the hook. -/
inductive Target where
  | self
  | parent
  | root
  | previous
  | next
  /-- The first child. -/
  | first
  /-- The last child. -/
  | last
  deriving DecidableEq, Repr

/-- What is asked about a node. -/
inductive Field where
  | matched
  | modified
  | working
  | token
  | rule
  | id
  | span
  /-- The number of children. -/
  | children
  /-- The matched texts of the children with bars between them. -/
  | childTexts
  | unmasked
  | rendered
  /-- The number of nodes of the tree. -/
  | nodes
  deriving DecidableEq, Repr

/-- What an action can depend on. -/
inductive Condition where
  /-- The text is a given one. -/
  | equals (text : Text)
  /-- The text starts with a given one. -/
  | starts (text : Text)
  /-- A given text occurs in the text. -/
  | includes (text : Text)
  /-- The text is a numeral for an even number. -/
  | even
  /-- The group with a name has captured something. -/
  | group (name : Text)
  /-- A key of the state of the node's own is set as a flag. -/
  | ownFlag (key : Text)
  /-- A key of the state of the parse is set as a flag. -/
  | globalFlag (key : Text)
  deriving DecidableEq, Repr

/-- One step of a script. -/
inductive Action where
  | set (text : Text)
  | append (text : Text)
  /-- Puts a text before and one behind. -/
  | wrap (before behind : Text)
  /-- Replaces all occurrences of a text. -/
  | replace (needle replacement : Text)
  /-- Turns the letters of ASCII into capitals. -/
  | upper
  /-- Fills up on the left with zeros. -/
  | pad (width : Nat)
  /-- Reads a numeral and writes it in plain decimal. -/
  | number
  | load (target : Target) (field : Field)
  /-- Like `load`, but behind the text as it is. -/
  | add (target : Target) (field : Field)
  /-- The text of the group with a name. -/
  | group (name : Text)
  /-- The text of the group with a number. -/
  | capture (number : Nat)
  | unmask
  /-- Shows tokens in readable form. -/
  | display
  /-- Shows the node of the hook. -/
  | debug
  | putLocal (key : Text) (value : Json)
  | putGlobal (key : Text) (value : Json)
  /-- Puts the text into the state of the node's own. -/
  | saveLocal (key : Text)
  /-- Puts the text into the state of the parse. -/
  | saveGlobal (key : Text)
  | incrementLocal (key : Text) (delta : Int)
  | incrementGlobal (key : Text) (delta : Int)
  | getLocal (key : Text)
  | getGlobal (key : Text)
  /-- Keeps a rule from matching below the node. -/
  | skip (rule : Text)
  /-- Keeps all rules from matching below the node. -/
  | skipAll
  | fail (message : Text)
  /-- Fails with the text. -/
  | failWithText
  /-- Runs the hook that keeps and masks the text. -/
  | default
  /-- Runs the hook of a rule given by a template. -/
  | template (replacement? : Option Text) (inline : Bool)
  | branch (condition : Condition) (yes no : List Action)

end Script

/-- The steps of a hook. -/
abbrev Script := List Script.Action

namespace Script

/-- The node that a target stands for, if there is one. -/
def Target.node? (v : View) : Target → Option NodeId
  | .self => some v.id
  | .parent => v.node.parent?
  | .root => some Tree.root
  | .previous => v.node.previous?
  | .next => v.node.next?
  | .first => v.node.children.head?
  | .last => v.node.children.getLast?

/-- The text of a field of a node. -/
def Field.text (t : Tree) (id : NodeId) (field : Field) : Text :=
  let n := t.node id
  match field with
  | .matched => n.matched
  | .modified => n.modified
  | .working => n.working
  | .token => n.token?.getD []
  | .rule => n.rule.name
  | .id => Text.decimal id
  | .span => Text.decimal n.span.start ++ ['.', '.'] ++ Text.decimal n.span.stop
  | .children => Text.decimal n.children.length
  | .childTexts => List.intercalate ['|'] (n.children.map fun child => (t.node child).matched)
  | .unmasked => t.unmasked id
  | .rendered => t.rendered id
  | .nodes => Text.decimal t.size

/-- The text of a field of a target; blank if there is no such node. -/
def lookUp (target : Target) (field : Field) : HookM Text := do
  let v ← read
  return match target.node? v with
    | some id => field.text v.tree id
    | none => []

/-- A value as a text: a string as it is, an absent value as nothing, all else as JSON. -/
def textOf : Option Json → Text
  | none => []
  | some (.string text) => text
  | some value => value.compact

/-- Whether a condition holds, given the text so far. -/
def Condition.holds (text : Text) : Condition → HookM Bool
  | .equals other => return text = other
  | .starts other => return other.isPrefixOf text
  | .includes needle => return Text.includes needle text
  | .even => return (Text.numeral? text).any (· % 2 = 0)
  | .group name => return ((← HookM.node).group? name).isSome
  | .ownFlag key => return (← get).own.isSet key
  | .globalFlag key => return (← get).global.isSet key

/-- The text of a hook of a stage; a hook without a result leaves the text as it is. -/
def runHooks (hooks : Hooks) (stage : Stage) (text : Text) : HookM Text :=
  match stage with
  | .capture => hooks.onCapture
  | .substitute => hooks.onSubstitute
  | .resolve => do
    hooks.onResolve
    return text

/-- What one action that does not branch makes of the text. -/
def Action.step (stage : Stage) (text : Text) : Action → HookM Text
  | .set other => return other
  | .append other => return text ++ other
  | .wrap before behind => return before ++ text ++ behind
  | .replace needle replacement => return Text.replaceAll needle replacement text
  | .upper => return text.map Char.toUpper
  | .pad width => return Text.padLeft '0' width text
  | .number =>
    match Text.readNumeral text with
    | .ok n => return Text.decimal n
    | .error e => HookM.fail e.message
  | .load target field => lookUp target field
  | .add target field => do return text ++ (← lookUp target field)
  | .group name => do return ((← HookM.node).group? name).getD []
  | .capture index => do return ((← HookM.node).captures?.bind (·.get? index)).getD []
  | .unmask => do return (← read).tree.unmask text
  | .display => return Token.display text
  | .debug => do
    let v ← read
    return v.tree.nodeDebug v.id
  | .putLocal key value => do
    HookM.putLocal key value
    return text
  | .putGlobal key value => do
    HookM.putGlobal key value
    return text
  | .saveLocal key => do
    HookM.putLocal key (.string text)
    return text
  | .saveGlobal key => do
    HookM.putGlobal key (.string text)
    return text
  | .incrementLocal key delta => do return Text.signedDecimal (← HookM.incrementLocal key delta)
  | .incrementGlobal key delta => do return Text.signedDecimal (← HookM.incrementGlobal key delta)
  | .getLocal key => do return textOf ((← get).own.get? key)
  | .getGlobal key => do return textOf ((← get).global.get? key)
  | .skip rule => do
    HookM.skipRule rule
    return text
  | .skipAll => do
    HookM.skipAll
    return text
  | .fail message => HookM.fail message
  | .failWithText => HookM.fail text
  | .default => runHooks Hooks.identity stage text
  | .template replacement? inline => runHooks (Replacement.hooks replacement? inline) stage text
  | .branch _ _ _ => return text

mutual

/-- What an action makes of the text. -/
def runAction (stage : Stage) (text : Text) : Action → HookM Text
  | .branch condition yes no => do
    if ← condition.holds text then runFrom stage text yes else runFrom stage text no
  | action => action.step stage text

/-- What actions make of the text. -/
def runFrom (stage : Stage) (text : Text) : List Action → HookM Text
  | [] => return text
  | action :: rest => do
    let text ← runAction stage text action
    runFrom stage text rest

end

/-- What a script does as the hook of a stage. -/
def run (stage : Stage) (script : Script) : HookM Text :=
  runFrom stage [] script

end Script

/-- The scripts of a rule. A hook without a script keeps or masks the text. -/
structure Scripts where
  capture? : Option Script
  substitute? : Option Script
  resolve? : Option Script

namespace Scripts

/-- The hooks that scripts make. -/
def hooks (s : Scripts) : Hooks where
  onCapture := match s.capture? with
    | some script => script.run .capture
    | none => Hooks.identity.onCapture
  onSubstitute := match s.substitute? with
    | some script => script.run .substitute
    | none => Hooks.identity.onSubstitute
  onResolve := match s.resolve? with
    | some script => discard (script.run .resolve)
    | none => Hooks.identity.onResolve

/-- A truth value as it is shown to people who debug a grammar. -/
def debugBool (b : Bool) : Text :=
  if b then "true".toList else "false".toList

/-- Which hooks have scripts, as it is shown to people who debug a grammar. -/
def debug (s : Scripts) : Text :=
  "FnRule \x7b on_capture: ".toList ++ debugBool s.capture?.isSome ++ ", on_substitute: ".toList ++
    debugBool s.substitute?.isSome ++ ", on_resolve: ".toList ++ debugBool s.resolve?.isSome ++
    " \x7d".toList

end Scripts

end Cascade
