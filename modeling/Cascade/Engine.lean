import Cascade.Grammar.Basic

/-!
# The engine

A parse creates a node for the whole input and lets the rules wired under the rule of the root
search its text, one after the other. Each rule searches the text as the rules before it have left
it. For each match a node is created, the rules wired under its rule search its text in the same
way, and what the rule then substitutes takes the place of the match. Matches are nested at most
`maxDepth` levels deep.

A parse can be watched: whoever watches it is told of every hook that is called and of every search,
in order, and keeps a record.

* `Grammar.parse`, `Grammar.parseFrom`: the match tree of an input.
* `Engine.history`: the match tree of an input with all that has happened in the parse.
-/

namespace Cascade

/-- What ends a parse without a tree. -/
inductive ParseError where
  /-- The rule to start from does not exist. -/
  | ruleNotFound (name : Text)
  /-- A match of a rule is nested too deep. -/
  | recursionLimit (rule : Text) (depth : Nat)
  /-- A hook has failed. -/
  | hook (rule : Text) (stage : Stage) (message : Text)
  deriving DecidableEq, Repr

/-- The message for a parse that has failed. -/
def ParseError.message : ParseError → Text
  | .ruleNotFound name => "rule '".toList ++ name ++ "' not found".toList
  | .recursionLimit rule depth =>
    "rule '".toList ++ rule ++ "' is nested more than ".toList ++ Text.decimal depth ++
      " levels deep".toList
  | .hook rule stage message =>
    stage.name ++ " of rule '".toList ++ rule ++ "' failed: ".toList ++ message

/-- What has led to the failure of a parse. -/
def ParseError.causes : ParseError → List Text
  | .hook _ _ message => [message]
  | _ => []

/-- What those who watch a parse are told of. -/
inductive Event where
  /-- A hook of a rule is called for a node. -/
  | call (rule : Rule) (stage : Stage) (view : View)
  /-- The pattern of a child rule searches the text of a node. -/
  | search (parent : NodeId) (child : Rule) (pattern : Pattern) (text : Text)

/-- How a record of what has happened is kept. -/
abbrev Watcher (ω : Type) := Event → ω → ω

/-- A part of a parse: it works on the tree and may fail, and a record of type `ω` is kept of it
even if it fails. -/
abbrev ParseM (ω : Type) := StateT Tree (ExceptT ParseError (StateM ω))

namespace Engine

/-- How deep matches may be nested below the root. -/
def maxDepth : Nat := 128

section

variable {ω : Type} (watch : Watcher ω)

/-- Tells of an event. -/
def tell (e : Event) : ParseM ω Unit :=
  fun t => ExceptT.mk fun record => pure (.ok ((), t), watch e record)

/-- Runs a hook of a rule for a node, and keeps the states as the hook has left them. -/
def runHook {α : Type} (rule : Rule) (stage : Stage) (id : NodeId) (hook : HookM α) :
    ParseM ω α := do
  let view : View := ⟨← get, id⟩
  tell watch (.call rule stage view)
  match (hook.run view).run view.states with
  | .error message => throw (.hook rule.name stage message)
  | .ok (result, states) =>
    set (view.withStates states)
    return result

/-- A tree with one more node, which is that of a match under a parent. -/
def addMatch (t : Tree) (parent : NodeId) (rule : Rule) (m : Match) : Tree :=
  let id := t.size
  let t := t.push (.fresh rule.ref (some parent) m.span m.captures.whole)
  let (token, registry) := t.registry.mint rule.ref id
  let t := { t with registry }
  -- the parent learns of the node when this is complete, and before any hook runs for it
  let t := t.update id fun n => { n with token? := some token, captures? := some m.captures }
  t.update parent fun p => { p with children := p.children ++ [id] }

/-- Creates the node for a match, and gives its number. -/
def openNode (parent : NodeId) (rule : Rule) (m : Match) : ParseM ω NodeId := do
  let t ← get
  set (addMatch t parent rule m)
  return t.size

/-- Lets a rule make the modified text of a node. -/
def capture (rule : Rule) (id : NodeId) : ParseM ω Unit := do
  let text ← runHook watch rule .capture id rule.hooks.onCapture
  modify fun t => t.setModified id text

/-- Puts the children of a node in order and tells its rule. -/
def finish (rule : Rule) (id : NodeId) : ParseM ω Unit := do
  modify fun t => t.linkChildren id
  runHook watch rule .resolve id rule.hooks.onResolve

/-- How the match of a rule under a parent is resolved: the result replaces the match. -/
abbrev Resolver (ω : Type) := NodeId → Rule → Match → ParseM ω Text

/-- Resolves matches one after the other, and gives the edits that replace them. -/
def resolveAll (resolve : Resolver ω) (parent : NodeId) (rule : Rule) :
    List Match → ParseM ω (List (Span × Text))
  | [] => return []
  | m :: rest => do
    let replacement ← resolve parent rule m
    return (m.span, replacement) :: (← resolveAll resolve parent rule rest)

/-- Lets a child rule search the working text of a node, and replaces each match. -/
def pass (resolve : Resolver ω) (parent : NodeId) (child : Rule) (pattern : Pattern) :
    ParseM ω Unit := do
  let text := ((← get).node parent).working
  tell watch (.search parent child pattern text)
  -- all matches are found before the first of them is resolved
  let edits ← resolveAll resolve parent child (pattern.scan text)
  modify fun t => t.setWorking parent (text.splice edits)

/-- Lets the rule with a number search the working text of a node, unless it has no pattern or the
state of the node skips it. -/
def runChild (g : Grammar) (resolve : Resolver ω) (parent : NodeId) (id : RuleId) :
    ParseM ω Unit := do
  match g.ruleAt? id with
  | none => return
  | some child =>
    match child.pattern? with
    | none => return
    | some pattern =>
      -- the state is read when the turn of the rule comes
      if ((← get).node parent).localState.skips child.name then return
      pass watch resolve parent child pattern

/-- Lets all rules wired under a rule search the working text of a node, in order. -/
def runChildren (g : Grammar) (resolve : Resolver ω) (parent : NodeId) (rule : Rule) :
    ParseM ω Unit :=
  rule.children.forM (runChild watch g resolve parent)

/-- Resolves all matches below a node that has just been created, with `resolve` for those right
below it. -/
def resolveNode (g : Grammar) (resolve : Resolver ω) (id : NodeId) (rule : Rule) :
    ParseM ω Unit := do
  capture watch rule id
  runChildren watch g resolve id rule
  finish watch rule id

/-- Resolves a match and all matches below it, which may be nested on `levels` levels, this one
included. -/
def resolveMatch (g : Grammar) : (levels : Nat) → Resolver ω
  | 0, _, rule, _ => throw (.recursionLimit rule.name maxDepth)
  | levels + 1, parent, rule, m => do
    let id ← openNode parent rule m
    resolveNode watch g (resolveMatch g levels) id rule
    runHook watch rule .substitute id rule.hooks.onSubstitute

/-- The tree of an input before anything is searched: the node of a rule for the whole input. -/
def startTree (rule : Rule) (input : Text) (seed : State) : Tree :=
  (Tree.new seed).push (.fresh rule.ref none ⟨0, input.byteLength⟩ input)

/-- The tree of an input with a rule as the root, the state of the parse starting as `seed`, and the
record of the parse, which starts as `record`. -/
def watchedRun (g : Grammar) (rule : Rule) (input : Text) (seed : State) (record : ω) :
    Except ParseError Tree × ω :=
  let (result, record) :=
    (resolveNode watch g (resolveMatch watch g maxDepth) Tree.root rule
      (startTree rule input seed)).run.run record
  (result.map Prod.snd, record)

end

/-- The tree of an input with a rule as the root, the state of the parse starting as `seed`. -/
def run (g : Grammar) (rule : Rule) (input : Text) (seed : State) : Except ParseError Tree :=
  (watchedRun (fun _ record => record) g rule input seed ()).1

/-- The tree of an input as `run` gives it, and all that has happened in the parse. -/
def history (g : Grammar) (rule : Rule) (input : Text) (seed : State) :
    Except ParseError Tree × List Event :=
  watchedRun (fun e events => events ++ [e]) g rule input seed []

end Engine

/-- The tree of an input, the state of the parse starting as `seed`. -/
def Grammar.parse (g : Grammar) (input : Text) (seed : State) : Except ParseError Tree :=
  Engine.run g g.root input seed

/-- The tree of an input with the rule of a given name as the root. -/
def Grammar.parseFrom (g : Grammar) (name input : Text) (seed : State) : Except ParseError Tree :=
  match g.rule? name with
  | some rule => Engine.run g rule input seed
  | none => .error (.ruleNotFound name)

end Cascade
