import Cascade.Engine
import Cascade.Grammar.Build
import Cascade.Json.Writer
import Cascade.Tree.Serialized

/-!
# The command line

The program reads a grammar from a file, parses an input with it and prints the result: the input as
all rules have left it, the root's text with tokens unmasked, or the whole tree as JSON. Arguments
are checked before anything is read.

* `Arguments.read`: what the arguments ask for.
* `execute`: what the program does, given how files are read.
-/

namespace Cascade.CommandLine

/-- What is printed. -/
inductive Format where
  /-- The input as all rules have left it. -/
  | text
  /-- The text of the root with tokens replaced by what the rules made of their matches at first. -/
  | unmasked
  /-- The whole tree. -/
  | json
  deriving DecidableEq, Repr

/-- What the arguments ask for. -/
structure Arguments where
  /-- The path of the grammar. -/
  grammar : Text
  /-- The text to parse. -/
  input? : Option Text
  /-- The path of a file with the text to parse. -/
  inputFile? : Option Text
  format : Format
  /-- The rule to start from, if it is not the root of the grammar. -/
  rule? : Option Text
  /-- What the state of the parse starts with. -/
  seeds : List (Text × Json)

/-- What has been read of the arguments. -/
structure Draft where
  /-- The arguments that belong to no option, the last one first. -/
  positional : List Text
  inputFile? : Option Text
  format? : Option Format
  rule? : Option Text
  /-- The seeds, the last one first. -/
  seeds : List (Text × Json)

namespace Draft

/-- The draft before anything has been read. -/
def empty : Draft :=
  ⟨[], none, none, none, []⟩

/-- A seed: a key, an equals sign, and a value that is taken as a string if it is no JSON. -/
def seed? (text : Text) : Option (Text × Json) := do
  let (key, value) ← Text.cutAt? ['='] text
  match Json.parse (Text.bytes value) with
  | .ok value => return (key, value)
  | .error _ => return (key, .string value)

/-- The format with a name. -/
def format (name : Text) : Option Format :=
  if name = "text".toList then some .text
  else if name = "unmasked".toList then some .unmasked
  else if name = "json".toList then some .json
  else none

/-- A draft with the value of an option. Only seeds may be given more than once. -/
def setOption (d : Draft) (option value : Text) : Option Draft :=
  if option = "input-file".toList then
    if d.inputFile?.isSome ∨ value.isEmpty then none else some { d with inputFile? := some value }
  else if option = "format".toList then
    if d.format?.isSome then none else (format value).map fun f => { d with format? := some f }
  else if option = "rule".toList then
    if d.rule?.isSome then none else some { d with rule? := some value }
  else if option = "seed".toList then
    (seed? value).map fun s => { d with seeds := s :: d.seeds }
  else none

/-- A draft with one more argument that belongs to no option. -/
def addPositional (d : Draft) (value : Text) : Draft :=
  { d with positional := value :: d.positional }

/-- Whether an argument looks like an option. -/
def looksLikeOption : Text → Bool
  | '-' :: _ :: _ => true
  | _ => false

/-- Reads arguments. The value of an option is behind an equals sign or the next argument, and
behind two hyphens nothing is an option any more. -/
def read (d : Draft) : List Text → Option Draft
  | [] => some d
  | argument :: rest =>
    match ['-', '-'].isPrefixOf? argument with
    | some [] => some (rest.foldl addPositional d)
    | some option =>
      match Text.cutAt? ['='] option with
      | some (option, value) => do read (← d.setOption option value) rest
      | none =>
        match rest with
        -- what looks like an option is never the value of one
        | value :: rest =>
          if looksLikeOption value then none else do read (← d.setOption option value) rest
        | [] => none
    | none => if looksLikeOption argument then none else read (d.addPositional argument) rest

end Draft

/-- What the arguments ask for; none if they are not understood. -/
def Arguments.read (arguments : List Text) : Option Arguments := do
  let d ← Draft.read .empty arguments
  let (grammar, input?) ← match d.positional.reverse with
    | [grammar] => some (grammar, none)
    | [grammar, input] => some (grammar, some input)
    | _ => none
  if grammar.isEmpty then none
  else
    return {
      grammar, input?
      inputFile? := d.inputFile?
      format := d.format?.getD .text
      rule? := d.rule?
      seeds := d.seeds.reverse }

/-- What the program ends with. -/
structure Outcome where
  /-- The exit code: 0 for success, 1 for a failure, 2 for arguments that are not understood. -/
  code : Nat
  /-- What is printed. -/
  output : Text
  /-- What is said about a failure. -/
  complaint : Text

/-- The outcome of a failure. -/
def Outcome.failure (complaint : Text) : Outcome :=
  ⟨1, [], complaint⟩

/-- The text that a tree is printed as. -/
def Format.show (t : Tree) : Format → Text
  | .text => t.render
  | .unmasked => t.unmasked Tree.root
  | .json => t.toJson.pretty

/-- Parses an input with a grammar as the arguments ask. -/
def Arguments.parse (a : Arguments) (grammar : List UInt8) (input : Text) : Outcome :=
  match DataGrammar.parse grammar with
  | .error _ => .failure "the grammar is not JSON of the right form".toList
  | .ok g =>
    match g.build with
    | .error e => .failure e.message
    | .ok ready =>
      let seed := a.seeds.foldl (fun s (key, value) => s.put key value) State.empty
      let result := match a.rule? with
        | some rule => ready.parseFrom rule input seed
        | none => ready.parse input seed
      match result with
      | .error e => .failure e.message
      | .ok t => ⟨0, a.format.show t ++ ['\n'], []⟩

/-- What is said when the arguments are not understood. -/
def usage : Text :=
  "usage: GRAMMAR [INPUT] [--input-file FILE] [--format text|unmasked|json] [--rule RULE]".toList ++
    " [--seed KEY=VALUE]".toList

/-- Runs the program, where `readFile` gives the bytes of a file if it can be read. An input among
the arguments counts before one in a file. -/
def execute {m : Type → Type} [Monad m] (readFile : Text → m (Option (List UInt8)))
    (arguments : List Text) : m Outcome := do
  match Arguments.read arguments with
  | none => return ⟨2, [], usage⟩
  | some a =>
    let input ← match a.input?, a.inputFile? with
      | some input, _ => pure (Except.ok input)
      | none, some path => do
        match (← readFile path).bind Text.ofBytes? with
        | some input => pure (.ok input)
        | none => pure (.error "the input cannot be read".toList)
      | none, none => pure (.error "either an input or --input-file is required".toList)
    match input with
    | .error complaint => return .failure complaint
    | .ok input =>
      match ← readFile a.grammar with
      | none => return .failure "the grammar cannot be read".toList
      | some grammar => return a.parse grammar input

end Cascade.CommandLine
